import PostgresOperator.Go.Decimal

/-!
# The start of a member

The script of `buildBootstrapContainer`, which runs whenever the pod of a member starts: it keeps a PGDATA that is
there, makes it a standby if the operator names another primary, and otherwise copies the primary or makes an empty
database.
-/

namespace PostgresOperator.Instance

open Go

/-- The files of PGDATA that are asked for: `PG_VERSION`, `standby.signal`, and the markers of an operator-promoted
primary and of a primary that is to restart as a standby. -/
structure PgData where
  version : Bool := true
  standbySignal : Bool := false
  promotedPrimary : Bool := false
  restartAsStandby : Bool := false
  deriving DecidableEq

structure BootEnv where
  podName : Str
  primaryEndpoint : Str := []
  memberCount : Int := 1
  replicaCluster : Bool := false

def primaryHost (primaryEndpoint : Str) : Str :=
  ((splitLast ':' primaryEndpoint).map Prod.fst).getD primaryEndpoint

def primaryIsSelf (podName primaryEndpoint : Str) : Bool :=
  primaryEndpoint ≠ [] &&
    (primaryHost primaryEndpoint = podName || (podName ++ ".").isPrefixOf (primaryHost primaryEndpoint))

def podOrdinal (podName : Str) : Str := ((splitLast '-' podName).map Prod.snd).getD podName

def BootEnv.otherPrimary (env : BootEnv) : Bool :=
  1 < env.memberCount && primaryHost env.primaryEndpoint ≠ [] && !primaryIsSelf env.podName env.primaryEndpoint

def restoreStandby (env : BootEnv) (d : PgData) : PgData :=
  if env.replicaCluster && primaryHost env.primaryEndpoint ≠ [] && !d.standbySignal
    then { d with standbySignal := true }
  else if env.otherPrimary && !d.standbySignal && d.promotedPrimary then d
  else if env.otherPrimary && !d.standbySignal then { d with standbySignal := true, restartAsStandby := true }
  else d

inductive Bootstrap
  | kept (d : PgData)
  | basebackup
  | initdb
  | failed
  deriving DecidableEq

def bootstrap (env : BootEnv) (d : PgData) : Bootstrap :=
  if d.version then .kept (restoreStandby env d)
  else if env.replicaCluster then if env.primaryEndpoint = [] then .failed else .basebackup
  else if env.primaryEndpoint ≠ [] && !primaryIsSelf env.podName env.primaryEndpoint then .basebackup
  else if podOrdinal env.podName = "0" then .initdb
  else .failed

/-- When the script creates a new cluster. -/
theorem bootstrap_eq_initdb_iff {env : BootEnv} {d : PgData} : bootstrap env d = .initdb ↔
    d.version = false ∧ env.replicaCluster = false ∧
      (env.primaryEndpoint = [] ∨ primaryIsSelf env.podName env.primaryEndpoint) ∧
      podOrdinal env.podName = "0" := by
  unfold bootstrap
  cases hv : d.version
  · cases hr : env.replicaCluster
    · by_cases he : env.primaryEndpoint = [] <;> cases hs : primaryIsSelf env.podName env.primaryEndpoint <;>
        simp [he]
    · by_cases he : env.primaryEndpoint = [] <;> simp [he]
  · simp

end PostgresOperator.Instance
