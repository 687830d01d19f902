import PostgresOperator.Database.Api

/-!
# The scripts for roles and databases

`postgresUserReconcileScript` and `postgresDatabaseReconcileScript` with the functions they call.  What a function
appends to the `strings.Builder` is its value here.
-/

namespace PostgresOperator.Database

open Go

/-! ### Quoting -/

def joinWith (sep : String) : List Str → Str
  | [] => []
  | [value] => value
  | value :: values => value ++ str sep ++ joinWith sep values

def sqlIdent (value : Str) : Str := "\"" ++ replaceAll '"' "\"\"" value ++ "\""

def sqlLiteral (value : Str) : Str := "'" ++ replaceAll '\'' "''" value ++ "'"

def sqlQualifiedIdent (value : Str) : Str :=
  joinWith "." ((split '.' value).map fun part => sqlIdent (trimSpace part))

def shellQuote (value : Str) : Str := "'" ++ replaceAll '\'' "'\"'\"'" value ++ "'"

/-! ### Calls of psql -/

def psqlBase : Str := "psql -v ON_ERROR_STOP=1 -X -q -U postgres -d postgres"

def psqlAsPostgres (dbName : Str) : Str := "psql -v ON_ERROR_STOP=1 -X -q -U postgres -d " ++ shellQuote dbName

def psqlAsDefault (dbName : Str) : Str := "psql -v ON_ERROR_STOP=1 -X -q -d " ++ shellQuote dbName

def runLine (psql statement : Str) : Str := psql ++ " -c " ++ shellQuote statement ++ "\n"

def ifLine (psql query : Str) : Str :=
  "if [ \"$(" ++ psql ++ " -At -c " ++ shellQuote query ++ ")\" = \"1\" ]; then\n"

/-! ### Roles -/

def postgresUserBoolOption (value : Bool) (enabled disabled : String) : Str :=
  str (if value then enabled else disabled)

def postgresUserRoleOptions (spec : PostgresUserSpec) (passwordClause : Str) : Str :=
  let validUntil := trimSpace spec.validUntil
  joinWith " " (
    [postgresUserBoolOption spec.login "LOGIN" "NOLOGIN",
      postgresUserBoolOption spec.superuser "SUPERUSER" "NOSUPERUSER",
      postgresUserBoolOption spec.createDB "CREATEDB" "NOCREATEDB",
      postgresUserBoolOption spec.createRole "CREATEROLE" "NOCREATEROLE",
      postgresUserBoolOption spec.replication "REPLICATION" "NOREPLICATION",
      postgresUserBoolOption spec.bypassRLS "BYPASSRLS" "NOBYPASSRLS",
      postgresUserBoolOption (spec.inherit.getD true) "INHERIT" "NOINHERIT"] ++
    (spec.connectionLimit.toList.map fun limit => "CONNECTION LIMIT " ++ itoa limit) ++
    (if passwordClause = [] then [] else [passwordClause]) ++
    (if validUntil = [] then [] else ["VALID UNTIL " ++ sqlLiteral validUntil]))

def trimmedNames (values : List Str) : List Str := (values.map trimSpace).filter (· ≠ [])

def postgresUserNameArray (values : List Str) : Str :=
  "ARRAY[" ++ joinWith "," ((trimmedNames values).map sqlLiteral) ++ "]::name[]"

def membershipQuery (name : Str) (inRoles : List Str) : Str :=
  joinWith " " ["SELECT quote_ident(parent.rolname)", "FROM pg_auth_members membership",
    "JOIN pg_roles parent ON parent.oid = membership.roleid",
    "JOIN pg_roles member ON member.oid = membership.member",
    "WHERE member.rolname = " ++ sqlLiteral name,
    "AND NOT parent.rolname = ANY (" ++ postgresUserNameArray inRoles ++ ")"]

def appendPostgresUserMembershipRevokeScript (name : Str) (inRoles : List Str) : Str :=
  "managed_role=" ++ shellQuote (sqlIdent name) ++ "\n" ++
  psqlBase ++ " -At -c " ++ shellQuote (membershipQuery name inRoles) ++ " | while IFS= read -r parent_role; do\n" ++
  "  [ -n \"$parent_role\" ] || continue\n" ++
  "  " ++ psqlBase ++ " -c \"REVOKE $parent_role FROM $managed_role\"\n" ++
  "done\n"

def postgresUserReconcileScript (spec : PostgresUserSpec) (passwordClause : Str) : Str :=
  let name := trimSpace spec.name
  let options := postgresUserRoleOptions spec passwordClause
  if defaultedPostgresUserEnsure spec.ensure = .absent then
    "set -eu\n" ++ runLine psqlBase ("DROP ROLE IF EXISTS " ++ sqlIdent name)
  else
    "set -eu\n" ++
    ifLine psqlBase ("SELECT 1 FROM pg_roles WHERE rolname = " ++ sqlLiteral name) ++
    "  " ++ runLine psqlBase ("ALTER ROLE " ++ sqlIdent name ++ " WITH " ++ options) ++
    "else\n  " ++ runLine psqlBase ("CREATE ROLE " ++ sqlIdent name ++ " WITH " ++ options) ++
    "fi\n" ++
    appendPostgresUserMembershipRevokeScript name spec.inRoles ++
    (trimmedNames spec.inRoles).flatMap fun parent =>
      runLine psqlBase ("GRANT " ++ sqlIdent parent ++ " TO " ++ sqlIdent name)

def postgresUserReconcileCommand (spec : PostgresUserSpec) (passwordClause : Str) : List Str :=
  ["/bin/sh", "-ec", postgresUserReconcileScript spec passwordClause]

/-! ### Databases -/

def postgresDatabaseCreateStatement (name owner tablespace : Str) : Str :=
  "CREATE DATABASE " ++ sqlIdent name ++ " OWNER " ++ sqlIdent owner ++
    if tablespace ≠ [] then " TABLESPACE " ++ sqlIdent tablespace else []

def grantStatement (type : DatabaseUsageType) (privileges objectKind objectName role : Str) : Str :=
  if defaultedDatabaseUsageType type = .revoke then
    "REVOKE " ++ privileges ++ " ON " ++ objectKind ++ " " ++ sqlIdent objectName ++ " FROM " ++ sqlIdent role
  else "GRANT " ++ privileges ++ " ON " ++ objectKind ++ " " ++ sqlIdent objectName ++ " TO " ++ sqlIdent role

def appendPostgresDatabaseGrantScripts (dbName : Str) (objectKind : ObjectKind) (objectName : Str)
    (grants : List DatabaseGrantSpec) : Str :=
  grants.flatMap fun grant =>
    let privileges := grant.privileges.filterMap (normalizeDatabasePrivilege objectKind)
    if trimSpace grant.role = [] ∨ privileges = [] then []
    else runLine (psqlAsPostgres dbName)
      (grantStatement grant.type (joinWith ", " privileges) objectKind.text objectName (trimSpace grant.role))

def appendPostgresDatabaseSchemaScript (dbName : Str) (schema : DatabaseSchemaSpec) : Str :=
  let name := trimSpace schema.name
  let owner := if trimSpace schema.owner = [] then trimSpace dbName else trimSpace schema.owner
  if name = [] then []
  else if defaultedDatabaseEnsure schema.ensure = .absent then
    runLine (psqlAsPostgres dbName) ("DROP SCHEMA IF EXISTS " ++ sqlIdent name)
  else
    runLine (psqlAsPostgres dbName)
      ("CREATE SCHEMA IF NOT EXISTS " ++ sqlIdent name ++ " AUTHORIZATION " ++ sqlIdent owner ++
      "; ALTER SCHEMA " ++ sqlIdent name ++ " OWNER TO " ++ sqlIdent owner) ++
    appendPostgresDatabaseGrantScripts dbName .schema name schema.privileges

def appendPostgresDatabaseExtensionScript (dbName : Str) (extension : DatabaseExtensionSpec) : Str :=
  let name := trimSpace extension.name
  let version := trimSpace extension.version
  let schema := trimSpace extension.schema
  if name = [] then []
  else if defaultedDatabaseEnsure extension.ensure = .absent then
    runLine (psqlAsPostgres dbName) ("DROP EXTENSION IF EXISTS " ++ sqlIdent name)
  else runLine (psqlAsPostgres dbName) ("CREATE EXTENSION IF NOT EXISTS " ++ sqlIdent name ++
    (if version ≠ [] then " VERSION " ++ sqlLiteral version else []) ++
    if schema ≠ [] then " WITH SCHEMA " ++ sqlIdent schema else [])

def definitionClause (keyword : String) (function : Str) : List Str :=
  if function = [] then []
  else if function = "-" then ["NO " ++ str keyword]
  else [str keyword ++ " " ++ sqlQualifiedIdent function]

def postgresDatabaseFDWDefinitionClauses (fdw : DatabaseFDWSpec) : Str :=
  joinWith " " (definitionClause "HANDLER" (trimSpace fdw.handler) ++
    definitionClause "VALIDATOR" (trimSpace fdw.validator))

def postgresDatabaseCreateOptionsClause (options : List DatabaseOptionSpec) : Str :=
  let parts := (options.filter fun option =>
      trimSpace option.name ≠ [] ∧ defaultedDatabaseEnsure option.ensure ≠ .absent).map fun option =>
    sqlIdent (trimSpace option.name) ++ " " ++ sqlLiteral option.value
  if parts = [] then [] else "OPTIONS (" ++ joinWith ", " parts ++ ")"

def spaced (clause : Str) : Str := if clause ≠ [] then " " ++ clause else []

def postgresDatabaseCreateFDWStatement (fdw : DatabaseFDWSpec) : Str :=
  "CREATE FOREIGN DATA WRAPPER " ++ sqlIdent (trimSpace fdw.name) ++
    spaced (postgresDatabaseFDWDefinitionClauses fdw) ++
    spaced (postgresDatabaseCreateOptionsClause fdw.options)

def postgresDatabaseAlterFDWStatement (fdw : DatabaseFDWSpec) : Str :=
  let clauses := postgresDatabaseFDWDefinitionClauses fdw
  if clauses = [] then []
  else "ALTER FOREIGN DATA WRAPPER " ++ sqlIdent (trimSpace fdw.name) ++ " " ++ clauses

def postgresDatabaseCreateServerStatement (server : DatabaseServerSpec) : Str :=
  "CREATE SERVER IF NOT EXISTS " ++ sqlIdent (trimSpace server.name) ++ " FOREIGN DATA WRAPPER " ++
    sqlIdent (trimSpace server.fdw) ++ spaced (postgresDatabaseCreateOptionsClause server.options)

inductive OptionAction
  | drop
  | set
  | add
  deriving DecidableEq

def postgresDatabaseOptionAction (action : OptionAction) (option value : Str) : Str :=
  match action with
  | .drop => "DROP " ++ sqlIdent option
  | .set => "SET " ++ sqlIdent option ++ " " ++ sqlLiteral value
  | .add => "ADD " ++ sqlIdent option ++ " " ++ sqlLiteral value

def appendPostgresDatabaseOptionScripts (dbName : Str) (options : List DatabaseOptionSpec)
    (existsQuery : Str → Str) (statement : OptionAction → Str → Str → Str) : Str :=
  let psql := psqlAsDefault dbName
  options.flatMap fun option =>
    let name := trimSpace option.name
    if name = [] then []
    else if defaultedDatabaseEnsure option.ensure = .absent then
      ifLine psql (existsQuery name) ++ "  " ++ runLine psql (statement .drop name []) ++ "fi\n"
    else
      ifLine psql (existsQuery name) ++ "  " ++ runLine psql (statement .set name option.value) ++
        "else\n  " ++ runLine psql (statement .add name option.value) ++ "fi\n"

/-- The option scripts of an object: the columns and the table where its options are, and how it is altered. -/
def objectOptionScripts (columns alter : String) (dbName objectName : Str) (options : List DatabaseOptionSpec) :
    Str :=
  appendPostgresDatabaseOptionScripts dbName options
    (fun option => "SELECT 1 FROM pg_options_to_table((SELECT " ++ str columns ++ " = " ++ sqlLiteral objectName ++
      ")) WHERE option_name = " ++ sqlLiteral option)
    (fun action option value => str alter ++ " " ++ sqlIdent objectName ++ " OPTIONS (" ++
      postgresDatabaseOptionAction action option value ++ ")")

def appendPostgresDatabaseFDWOptionScripts : Str → Str → List DatabaseOptionSpec → Str :=
  objectOptionScripts "fdwoptions FROM pg_foreign_data_wrapper WHERE fdwname" "ALTER FOREIGN DATA WRAPPER"

def appendPostgresDatabaseServerOptionScripts : Str → Str → List DatabaseOptionSpec → Str :=
  objectOptionScripts "srvoptions FROM pg_foreign_server WHERE srvname" "ALTER SERVER"

def appendPostgresDatabaseUsageScript (dbName : Str) (objectKind : String) (objectName : Str)
    (usage : DatabaseUsageSpec) : Str :=
  if trimSpace usage.name = [] then []
  else runLine (psqlAsPostgres dbName)
    (grantStatement usage.type "USAGE" (str objectKind) objectName (trimSpace usage.name))

def appendPostgresDatabaseFDWScript (dbName : Str) (fdw : DatabaseFDWSpec) : Str :=
  let name := trimSpace fdw.name
  let owner := trimSpace fdw.owner
  let alterStmt := postgresDatabaseAlterFDWStatement fdw
  if name = [] then []
  else if defaultedDatabaseEnsure fdw.ensure = .absent then
    runLine (psqlAsPostgres dbName) ("DROP FOREIGN DATA WRAPPER IF EXISTS " ++ sqlIdent name)
  else
    ifLine (psqlAsDefault dbName) ("SELECT 1 FROM pg_foreign_data_wrapper WHERE fdwname = " ++ sqlLiteral name) ++
    "  " ++ (if alterStmt ≠ [] then runLine (psqlAsDefault dbName) alterStmt else "true\n") ++
    "else\n  " ++ runLine (psqlAsDefault dbName) (postgresDatabaseCreateFDWStatement fdw) ++
    "fi\n" ++
    (if owner ≠ [] then
      runLine (psqlAsPostgres dbName)
      ("ALTER FOREIGN DATA WRAPPER " ++ sqlIdent name ++ " OWNER TO " ++ sqlIdent owner)
    else []) ++
    appendPostgresDatabaseFDWOptionScripts dbName name fdw.options ++
    fdw.usage.flatMap (appendPostgresDatabaseUsageScript dbName "FOREIGN DATA WRAPPER" name)

def appendPostgresDatabaseServerScript (dbName : Str) (server : DatabaseServerSpec) : Str :=
  let name := trimSpace server.name
  if name = [] ∨ trimSpace server.fdw = [] then []
  else if defaultedDatabaseEnsure server.ensure = .absent then
    runLine (psqlAsPostgres dbName) ("DROP SERVER IF EXISTS " ++ sqlIdent name)
  else
    runLine (psqlAsPostgres dbName) (postgresDatabaseCreateServerStatement server) ++
    appendPostgresDatabaseServerOptionScripts dbName name server.options ++
    server.usage.flatMap (appendPostgresDatabaseUsageScript dbName "FOREIGN SERVER" name)

def postgresDatabaseReconcileScript (spec : PostgresDatabaseSpec) : Str :=
  let name := trimSpace spec.name
  let owner := trimSpace spec.owner
  let tablespace := trimSpace spec.tablespace
  let existsQuery := "SELECT 1 FROM pg_database WHERE datname = " ++ sqlLiteral name
  let absent := spec.servers.filter fun server => defaultedDatabaseEnsure server.ensure = .absent
  let present := spec.servers.filter fun server => defaultedDatabaseEnsure server.ensure ≠ .absent
  if defaultedDatabaseEnsure spec.ensure = .absent then
    "set -eu\n" ++ ifLine psqlBase existsQuery ++ "  " ++ runLine psqlBase ("DROP DATABASE " ++ sqlIdent name) ++
    "fi\n"
  else
    "set -eu\n" ++ ifLine psqlBase existsQuery ++
    "  " ++ runLine psqlBase ("ALTER DATABASE " ++ sqlIdent name ++ " OWNER TO " ++ sqlIdent owner) ++
    (if tablespace ≠ [] then
      "  " ++ runLine psqlBase ("ALTER DATABASE " ++ sqlIdent name ++ " SET TABLESPACE " ++ sqlIdent tablespace)
    else []) ++
    "else\n  " ++ runLine psqlBase (postgresDatabaseCreateStatement name owner tablespace) ++
    "fi\n" ++
    appendPostgresDatabaseGrantScripts name .database name spec.privileges ++
    spec.schemas.flatMap (appendPostgresDatabaseSchemaScript name) ++
    spec.extensions.flatMap (appendPostgresDatabaseExtensionScript name) ++
    absent.flatMap (appendPostgresDatabaseServerScript name) ++
    spec.fdws.flatMap (appendPostgresDatabaseFDWScript name) ++
    present.flatMap (appendPostgresDatabaseServerScript name)

def postgresDatabaseReconcileCommand (spec : PostgresDatabaseSpec) : List Str :=
  ["/bin/sh", "-ec", postgresDatabaseReconcileScript spec]

end PostgresOperator.Database
