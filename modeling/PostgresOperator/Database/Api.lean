import PostgresOperator.Go.Fmt

/-!
# Roles and databases

The objects `PostgresUser` and `PostgresDatabase`, and the checks of their controllers.  An enumeration has the value
`unset` for the empty string.
-/

namespace PostgresOperator.Database

open Go

/-! ### Specs -/

inductive DatabaseEnsure
  | unset
  | present
  | absent
  deriving DecidableEq

inductive DatabaseReclaimPolicy
  | unset
  | retain
  | delete
  deriving DecidableEq

inductive DatabaseUsageType
  | unset
  | grant
  | revoke
  deriving DecidableEq

def defaultedDatabaseEnsure : DatabaseEnsure → DatabaseEnsure
  | .unset => .present
  | value => value

def defaultedPostgresUserEnsure : DatabaseEnsure → DatabaseEnsure
  | .unset => .present
  | value => value

def defaultedDatabaseReclaimPolicy : DatabaseReclaimPolicy → DatabaseReclaimPolicy
  | .unset => .retain
  | value => value

def defaultedDatabaseUsageType : DatabaseUsageType → DatabaseUsageType
  | .unset => .grant
  | value => value

structure DatabaseExtensionSpec where
  name : Str
  ensure : DatabaseEnsure := .unset
  version : Str := []
  schema : Str := []
  deriving DecidableEq

structure DatabaseGrantSpec where
  role : Str
  privileges : List Str
  type : DatabaseUsageType := .unset
  deriving DecidableEq

structure DatabaseSchemaSpec where
  name : Str
  owner : Str := []
  ensure : DatabaseEnsure := .unset
  privileges : List DatabaseGrantSpec := []
  deriving DecidableEq

structure DatabaseOptionSpec where
  name : Str
  value : Str := []
  ensure : DatabaseEnsure := .unset
  deriving DecidableEq

structure DatabaseUsageSpec where
  name : Str
  type : DatabaseUsageType := .unset
  deriving DecidableEq

structure DatabaseFDWSpec where
  name : Str
  ensure : DatabaseEnsure := .unset
  handler : Str := []
  validator : Str := []
  owner : Str := []
  options : List DatabaseOptionSpec := []
  usage : List DatabaseUsageSpec := []
  deriving DecidableEq

structure DatabaseServerSpec where
  name : Str
  fdw : Str
  ensure : DatabaseEnsure := .unset
  options : List DatabaseOptionSpec := []
  usage : List DatabaseUsageSpec := []
  deriving DecidableEq

structure PostgresDatabaseSpec where
  cluster : Str
  name : Str
  owner : Str := []
  ensure : DatabaseEnsure := .unset
  databaseReclaimPolicy : DatabaseReclaimPolicy := .unset
  tablespace : Str := []
  extensions : List DatabaseExtensionSpec := []
  schemas : List DatabaseSchemaSpec := []
  fdws : List DatabaseFDWSpec := []
  servers : List DatabaseServerSpec := []
  privileges : List DatabaseGrantSpec := []
  deriving DecidableEq

structure PostgresUserSpec where
  cluster : Str
  name : Str
  ensure : DatabaseEnsure := .unset
  login : Bool := false
  superuser : Bool := false
  createDB : Bool := false
  createRole : Bool := false
  replication : Bool := false
  bypassRLS : Bool := false
  inherit : Option Bool := none
  connectionLimit : Option Int := none
  inRoles : List Str := []
  passwordSecretRef : Option Str := none
  disablePassword : Bool := false
  validUntil : Str := []
  userReclaimPolicy : DatabaseReclaimPolicy := .unset
  deriving DecidableEq

/-! ### Checks -/

inductive ObjectKind
  | database
  | schema
  deriving DecidableEq

def ObjectKind.text : ObjectKind → Str
  | .database => "DATABASE"
  | .schema => "SCHEMA"

def normalizeDatabasePrivilege (objectKind : ObjectKind) (privilege : Str) : Option Str :=
  let privilege := trimSpace privilege
  if upperIs privilege "ALL PRIVILEGES" then some "ALL PRIVILEGES"
  else if upperIs privilege "CONNECT" then if objectKind = .database then some "CONNECT" else none
  else if upperIs privilege "TEMP" || upperIs privilege "TEMPORARY" then
    if objectKind = .database then some "TEMPORARY" else none
  else if upperIs privilege "CREATE" then some "CREATE"
  else if upperIs privilege "USAGE" then if objectKind = .schema then some "USAGE" else none
  else none

section Validate

/- `unicode.IsPrint`, for the text of an error. -/
variable (isPrint : Rune → Bool)

def firstInvalid {α : Type} (check : Nat → α → Str) (values : List α) : Str :=
  ((values.zipIdx.map fun v => check v.2 v.1).find? (· ≠ [])).getD []

def validateDatabaseGrantSpecs (grants : List DatabaseGrantSpec) (objectKind : ObjectKind) (path : Str) : Str :=
  firstInvalid (fun i grant =>
    let field := path ++ "[" ++ itoaNat i ++ "]"
    if trimSpace grant.role = [] then field ++ ".role is required"
    else if grant.privileges = [] then field ++ ".privileges is required"
    else firstInvalid (fun j privilege =>
      if normalizeDatabasePrivilege objectKind privilege = none then
        field ++ ".privileges[" ++ itoaNat j ++ "] " ++ quote isPrint privilege ++
          " is not supported for " ++ objectKind.text
      else []) grant.privileges) grants

def validatePostgresDatabaseSpec (spec : PostgresDatabaseSpec) : Str :=
  let name := trimSpace spec.name
  let privileges := validateDatabaseGrantSpecs isPrint spec.privileges .database "spec.privileges"
  if trimSpace spec.cluster = [] then "spec.cluster.name is required"
  else if name = [] then "spec.name is required"
  else if name = "postgres" ∨ name = "template0" ∨ name = "template1" then
    "spec.name " ++ name ++ " is reserved"
  else if defaultedDatabaseEnsure spec.ensure = .present ∧ trimSpace spec.owner = [] then
    "spec.owner is required when ensure=present"
  else if privileges ≠ [] then privileges
  else firstInvalid (fun i schema =>
    validateDatabaseGrantSpecs isPrint schema.privileges .schema
      ("spec.schemas[" ++ itoaNat i ++ "].privileges")) spec.schemas

end Validate

def validatePostgresUserSpec (spec : PostgresUserSpec) : Str :=
  let name := trimSpace spec.name
  if trimSpace spec.cluster = [] then "spec.cluster.name is required"
  else if name = [] then "spec.name is required"
  else if name = str "postgres" ∨ (str "pg_").isPrefixOf name then str "spec.name " ++ name ++ str " is reserved"
  else if spec.connectionLimit.any (· < -1) then "spec.connectionLimit must be -1 or greater"
  else if spec.passwordSecretRef.any fun ref => trimSpace ref = [] then
    "spec.passwordSecretRef.name is required when passwordSecretRef is set"
  else if spec.passwordSecretRef.isSome ∧ spec.disablePassword then
    "spec.passwordSecretRef and spec.disablePassword cannot both be set"
  else []

end PostgresOperator.Database
