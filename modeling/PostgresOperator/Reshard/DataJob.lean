import PostgresOperator.Api.ShardSplitJob

/-!
# Data movement Jobs

The Jobs of `internal/controller/shardsplitjob_copy.go`: their names, the addresses of the shards they connect to, and
the environment that tells them what to move.  The name of a Job has the cluster, the mode and the ID of the target in
it, and nothing of the `ShardSplitJob` that it is made for.
-/

namespace PostgresOperator

open Go

/-- The namespace of the jobs, and the values of `RESHARD_COPY_IMAGE` and `RESHARD_COPY_TIMEOUT` in the operator's
environment, empty when they are not set. -/
structure Operator where
  ns : Str
  reshardCopyImageEnv : Str := []
  reshardCopyTimeoutEnv : Str := []
  deriving DecidableEq, Repr

def reshardCopyImage (op : Operator) : Str :=
  if op.reshardCopyImageEnv ≠ [] then op.reshardCopyImageEnv else "ghcr.io/keiailab/reshard-copy:dev"

def ReshardMode.toGo : ReshardMode → Str
  | .copy => "copy"
  | .delete => "delete"
  | .cdcSetup => "cdc-setup"
  | .cdcFinalize => "cdc-finalize"
  | .cdcAbort => "cdc-abort"

def reshardModeVerb : ReshardMode → Str
  | .copy => "copy"
  | .delete => "del"
  | .cdcSetup => "cdcset"
  | .cdcFinalize => "cdcfin"
  | .cdcAbort => "cdcabort"

variable (cluster shardID : Str)

def reshardJobName (mode : ReshardMode) : Str :=
  cluster ++ "-rsd-" ++ reshardModeVerb mode ++ "-" ++ shardID

def shardStatefulSetName (ordinal : Int) : Str := cluster ++ "-shard-" ++ itoa ordinal

def shardServiceName (ordinal : Int) : Str :=
  cluster ++ "-shard-" ++ itoa ordinal ++ "-headless"

def targetShardStatefulSetName : Str := cluster ++ "-rsd-" ++ shardID

def targetShardServiceName : Str :=
  cluster ++ "-rsd-" ++ shardID ++ "-headless"

def targetShardConfigMapName : Str :=
  cluster ++ "-rsd-" ++ shardID ++ "-config"

def internalShardDSN (podDNS : Str) : Str :=
  "host=" ++ podDNS ++ " port=5432 user=postgres dbname=postgres sslmode=disable"

def shardOrdinalText : Option Str :=
  if (str "shard-").isPrefixOf shardID then some (shardID.drop 6) else none

def sourceShardPodDNS (ns shardID : Str) : Option Str := do
  let text ← shardOrdinalText shardID
  let ord ← parseInt text 10 32
  let pod := shardStatefulSetName cluster ord ++ "-0"
  return pod ++ "." ++ shardServiceName cluster ord ++ "." ++ ns ++ ".svc.cluster.local"

def targetShardPodDNS (ns shardID : Str) : Str :=
  targetShardStatefulSetName cluster shardID ++ "-0" ++ "." ++ targetShardServiceName cluster shardID ++
    "." ++ ns ++ ".svc.cluster.local"

def rangeEnvPart (e : ShardRangeEntry) : Str := e.shard ++ ":" ++ e.lo ++ ":" ++ e.hi

def rangesEnvValue (targets : List ShardSplitTarget) : Str :=
  join ',' (targets.flatMap fun t => t.ranges.map rangeEnvPart)

/-- What `keyspaceVindex` reads of a `ShardRange`: it leaves the number of virtual nodes behind. -/
structure KeyspaceVindex where
  vtype : Str
  col : Str
  fn : Str
  refTables : List Str
  deriving DecidableEq, Repr

def keyspaceVindexOf (sr : ShardRangeSpec) : KeyspaceVindex :=
  ⟨sr.vindex.type.toGo, sr.vindex.column, sr.vindex.function.toGo, sr.referenceTables⟩

structure ReshardParams where
  sourceDSN : Str
  targetDSN : Str
  targetShard : Str
  vindex : KeyspaceVindex
  ranges : Str
  maxLag : Int
  mode : ReshardMode
  deriving DecidableEq, Repr

/-- A batch Job: the UID of its controller, the cluster and shard of its labels, its container, and how it went.
`failed` is the condition `Failed` of the status. -/
structure BatchJob where
  owner : Nat
  target : Str × Str
  image : Str
  env : List (Str × Str)
  succeeded : Nat := 0
  failed : Bool := false
  deriving DecidableEq, Repr

/-- The environment variables that `buildReshardJob` adds for a mode. -/
def modeEnv (p : ReshardParams) : List (Str × Str) :=
  match p.mode with
  | .delete => [("PGROUTER_RESHARD_DELETE_ONLY", "1")]
  | .cdcSetup | .cdcFinalize =>
    [("PGROUTER_TARGET_DSN", p.targetDSN), ("PGROUTER_RESHARD_MODE", p.mode.toGo),
      ("PGROUTER_CDC_MAX_LAG", itoa p.maxLag)]
  | .cdcAbort => [("PGROUTER_TARGET_DSN", p.targetDSN), ("PGROUTER_RESHARD_MODE", p.mode.toGo)]
  | .copy => [("PGROUTER_TARGET_DSN", p.targetDSN)]

def buildReshardJob (op : Operator) (ssj : ShardSplitJob) (p : ReshardParams) : BatchJob where
  owner := ssj.uid
  target := (ssj.spec.cluster, p.targetShard)
  image := reshardCopyImage op
  env :=
    [(str "PGROUTER_SOURCE_DSN", p.sourceDSN), (str "PGROUTER_RESHARD_TARGET_SHARD", p.targetShard),
      (str "PGROUTER_VINDEX_TYPE", p.vindex.vtype), (str "PGROUTER_VINDEX_COLUMN", p.vindex.col),
      (str "PGROUTER_VINDEX_FUNCTION", p.vindex.fn), (str "PGROUTER_RANGES", p.ranges),
      (str "PGROUTER_REFERENCE_TABLES", join (byte ',') p.vindex.refTables)] ++
    (if op.reshardCopyTimeoutEnv ≠ [] then [(str "RESHARD_COPY_TIMEOUT", op.reshardCopyTimeoutEnv)] else []) ++
    modeEnv p

def modeJobParams (op : Operator) (spec : ShardSplitJobSpec) (mode : ReshardMode) (vindex : KeyspaceVindex)
    (srcDNS shardID : Str) : ReshardParams where
  sourceDSN := internalShardDSN srcDNS
  targetDSN := if mode = .delete then [] else internalShardDSN (targetShardPodDNS spec.cluster op.ns shardID)
  targetShard := shardID
  vindex := vindex
  ranges := rangesEnvValue spec.targets
  maxLag := spec.cdcMaxLag
  mode := mode

def demoOperator : Operator := ⟨"ns", [], []⟩

def jobFailed (job : BatchJob) : Bool := job.failed

/-! ### Names -/

/-- Within a cluster, the name of a Job tells its mode and its target. -/
theorem reshardJobName_inj {cluster s s' : Str} {mode mode' : ReshardMode}
    (h : reshardJobName cluster s mode = reshardJobName cluster s' mode') : mode = mode' ∧ s = s' := by
  have hd : ∀ m : ReshardMode, byte '-' ∉ reshardModeVerb m := by
    intro m
    cases m <;> decide
  have hr : str "-" = [byte '-'] := by decide
  simp only [reshardJobName, hr, List.append_assoc, List.append_cancel_left_eq, List.singleton_append] at h
  obtain ⟨hv, hs⟩ := append_sep_inj (hd mode) (hd mode') h
  refine ⟨?_, hs⟩
  revert hv
  cases mode <;> cases mode' <;> decide

end PostgresOperator
