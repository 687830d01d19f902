import PostgresOperator.Backup.Api
import PostgresOperator.Go.Fmt

/-!
# The commands for pgBackRest

The commands of the plugin `pgbackrest` (`internal/plugin/backup/pgbackrest/plugin.go`) and the `archive_command` of a
cluster (`archiveConfigForCluster` of `internal/controller/builders.go`).  All of them are shell scripts.
-/

namespace PostgresOperator.Backup

open Go

/-! ### The plugin -/

structure Plugin where
  command : Str := "pgbackrest"

def pgbackrestCommonArgs : Str :=
  "--config=/dev/null --log-level-file=off --pg1-path=/var/lib/postgresql/data/pgdata --pg1-user=postgres --pg1-database=postgres"

def pgbackrestRestoreArgs : Str :=
  "--config=/dev/null --log-level-file=off --pg1-path=/var/lib/postgresql/data/pgdata"

def filesystemRepoPath : Str := "/var/lib/postgresql/data/pgbackrest"

def pgDataPath : Str := "/var/lib/postgresql/data/pgdata"

def postgresqlAutoConfPath : Str := pgDataPath ++ "/postgresql.auto.conf"

def repoEnv : Str := "PGBACKREST_REPO1_TYPE=posix PGBACKREST_REPO1_PATH=" ++ filesystemRepoPath

def normalizeBackupType : BackupType → Except Str Str
  | .full => .ok "full"
  | .incremental => .ok "incr"
  | .differential => .ok "diff"
  | .restore => .error "unsupported pgbackrest backup type \"restore\""

def normalizeRepo (repo : Str) : Str :=
  let repo := trimSpace repo
  if (str "repo").isPrefixOf repo ∧ repo.drop 4 ≠ [] then repo.drop 4 else repo

def shellSingleQuote (value : Str) : Str := "'" ++ replaceAll '\'' "'\"'\"'" value ++ "'"

def formatTargetTime (ts : Int) : Str := formatUTC ts

variable (p : Plugin) (stanza : Str)

def Plugin.backupScript (repo backupType : Str) : Str :=
  sprintf "env %s %s %s --stanza=%s stanza-create 2>/dev/null || true; exec env %s %s %s --stanza=%s --repo=%s --type=%s backup"
    [repoEnv, p.command, pgbackrestCommonArgs, stanza,
      repoEnv, p.command, pgbackrestCommonArgs, stanza, normalizeRepo repo, backupType]

def Plugin.backupCommand (target : ClusterTarget) (opts : BackupOptions) : Except Str (List Str) :=
  match normalizeBackupType opts.type with
  | .error err => .error err
  | .ok backupType =>
    if trimSpace target.name = [] then .error "pgbackrest requires target cluster name as stanza"
    else .ok ["sh", "-c", p.backupScript target.name opts.repo backupType]

def Plugin.restoreCommandOverride (repoEnv : Str) : Str :=
  sprintf "touch %s && sed -i \"/^[[:space:]]*restore_command[[:space:]]*=/d\" %s && printf \"%%s\\n\" \"restore_command = 'env %s %s --config=/dev/null --log-level-file=off --pg1-path=%s --stanza=%s archive-get %%f \\\"%%p\\\"'\" >> %s"
    [postgresqlAutoConfPath, postgresqlAutoConfPath, repoEnv, p.command, pgDataPath, stanza, postgresqlAutoConfPath]

def Plugin.restoreScript (ts : Int) : Str :=
  sprintf "rm -f %s/postmaster.pid; env %s %s %s --stanza=%s --type=time --target=%s --delta restore && %s"
    [pgDataPath, repoEnv, p.command, pgbackrestRestoreArgs, stanza, shellSingleQuote (formatTargetTime ts),
      p.restoreCommandOverride stanza repoEnv]

def Plugin.restoreCommand (target : ClusterTarget) (ts : Int) : Except Str (List Str) :=
  if trimSpace target.name = [] then .error "pgbackrest requires target cluster name as stanza"
  else .ok ["sh", "-c", p.restoreScript target.name ts]

/-! ### Archiving -/

/-- `spec.backup` of a cluster; `repo` is the path of the repository. -/
structure ClusterBackupSpec where
  enabled : Bool
  repo : Option Str := none
  deriving DecidableEq

def pgDataMountPath : Str := "/var/lib/postgresql/data"

def pgDataSubdir : Str := pgDataMountPath ++ "/pgdata"

def backupRepoMountPath : Str := pgDataMountPath ++ "/pgbackrest"

/-- The characters of `backupRepoPathPattern`: letters, digits, underscore, dot, slash and hyphen. -/
def isRepoPathByte (c : UInt8) : Bool :=
  byte 'A' ≤ c && c ≤ byte 'Z' || byte 'a' ≤ c && c ≤ byte 'z' || byte '0' ≤ c && c ≤ byte '9' || c ∈ str "_./-"

/-- `backupRepoPathPattern.MatchString(p)`: one or more of the characters from the begin of the text to its end. -/
def matchesRepoPathPattern (p : Str) : Bool := p ≠ [] && p.all isRepoPathByte

def sanitizeBackupRepoPath (p : Str) : Str :=
  if p = [] ∨ matchesRepoPathPattern p = false then backupRepoMountPath else p

def archiveRepoPath (backup : ClusterBackupSpec) : Str :=
  match backup.repo with
  | some path => if path ≠ [] then sanitizeBackupRepoPath path else backupRepoMountPath
  | none => backupRepoMountPath

def archiveCommand (repoPath : Str) : Str :=
  let repoEnv := sprintf "PGBACKREST_REPO1_TYPE=posix PGBACKREST_REPO1_PATH=%s" [repoPath]
  let archiveArgs := "--config=/dev/null --log-level-file=off --pg1-path=" ++ pgDataSubdir
  let stanzaArgs := archiveArgs ++ " --pg1-user=postgres --pg1-database=postgres"
  sprintf "sh -c \"env %s pgbackrest %s --stanza=%s stanza-create 2>/dev/null || true; exec env %s pgbackrest %s --stanza=%s archive-push \\\"%%p\\\"\""
    [repoEnv, stanzaArgs, stanza, repoEnv, archiveArgs, stanza]

def archiveConfigForCluster (name : Str) (backup : Option ClusterBackupSpec) : Option Str :=
  match backup with
  | none => none
  | some backup => if backup.enabled then some (archiveCommand name (archiveRepoPath backup)) else none

end PostgresOperator.Backup
