import PostgresOperator.Router.SplitPlan

/-!
# The `ShardSplitJob` resource

The fields of `api/v1alpha1/shardsplitjob_types.go` that the controller reads or writes.  The fields the source calls
reserved (`cutoverWindow`, `snapshotLSN`, `currentLagBytes`) and the placement hints are read by no function and left
out.
-/

namespace PostgresOperator

open Go

/-- `ShardSplitJobPhase`; `new` is the empty string of a job that was never reconciled. -/
inductive ShardSplitPhase
  | new
  | pending
  | snapshotWAL
  | bootstrap
  | initialCopy
  | cdcCatchup
  | cutover
  | routingUpdate
  | cleanup
  | promote
  | completed
  | failed
  | aborted
  deriving DecidableEq, Repr

/-- `ShardSplitDirection`; the API server defaults an absent direction to `split`. -/
inductive ShardSplitDirection
  | split
  | merge
  deriving DecidableEq, Repr

/-- The pattern `^[a-z]([a-z0-9-]*[a-z0-9])?$` of at most 30 bytes that the API server admits for a shard ID. -/
def validShardID (id : Str) : Bool :=
  let letter (c : UInt8) : Bool := decide ('a' ≤ c ∧ c ≤ 'z')
  let alnum (c : UInt8) : Bool := letter c || decide ('0' ≤ c ∧ c ≤ '9')
  id.head?.any letter && id.getLast?.any alnum && id.all (fun c => alnum c || c == '-') &&
    decide (id.length ≤ 30)

structure ShardSplitTarget where
  shardID : Str
  ranges : List ShardRangeEntry
  valid : validShardID shardID := by exact Eq.refl true
  deriving DecidableEq

structure ShardSplitJobSpec where
  cluster : Str
  keyspace : Str
  direction : ShardSplitDirection := .split
  sources : List Str
  targets : List ShardSplitTarget
  cdcMaxLag : Int := 16777216
  allowForwardOnly : Bool := false
  online : Bool := false
  deriving DecidableEq

inductive ReshardMode
  | copy
  | delete
  | cdcSetup
  | cdcFinalize
  | cdcAbort
  deriving DecidableEq, Repr

/-- An error that an API call returned: the three kinds that the API server gives by itself, and any other text. -/
inductive ApiError
  | notFound (name : Str)
  | alreadyExists (name : Str)
  | conflict (name : Str)
  | other (text : Str)
  deriving DecidableEq, Repr

/-- The errors of the functions that read or write the `ShardRange` of a keyspace: `list ShardRange: %w`,
`update ShardRange %s: %w` and `no ShardRange for cluster=%s keyspace=%s`. -/
inductive RangeError
  | list (e : ApiError)
  | update (name : Str) (e : ApiError)
  | missing (cluster keyspace : Str)
  deriving DecidableEq, Repr

inductive BootstrapError
  | getCluster (e : ApiError)
  | getSource (e : ApiError)
  | noImage
  | upsertConfigMap (shardID : Str) (e : ApiError)
  | upsertService (shardID : Str) (e : ApiError)
  | upsertStatefulSet (shardID : Str) (e : ApiError)
  deriving DecidableEq, Repr

inductive AdoptError
  | getStatefulSet (e : ApiError)
  | patchStatefulSet (e : ApiError)
  | listPods (e : ApiError)
  | patchPod (name : Str) (e : ApiError)
  deriving DecidableEq, Repr

/-- The `failure` results of `reconcileModeJobs`: `no source shard`, a source that is not `shard-N`, `job %s failed`;
and the one of `reconcileAbortCleanup`, `release write-block: %v`. -/
inductive JobsFailure
  | noSource (mode : ReshardMode)
  | sourceNotOrdinal (mode : ReshardMode) (source : Str)
  | jobFailed (mode : ReshardMode) (name : Str)
  | releaseWriteBlock (e : RangeError)
  deriving DecidableEq, Repr

inductive FailureReason
  | mergeNotImplemented
  | notOneSource
  | splitPlan (e : SplitPlanError)
  | forwardOnlyNotImplemented
  | bootstrap (e : BootstrapError)
  | jobs (f : JobsFailure)
  | routing (e : RangeError)
  | adopt (shardID : Str) (e : AdoptError)
  deriving DecidableEq, Repr

inductive AbortCleanupReason
  | running
  | complete
  | failed
  deriving DecidableEq, Repr

/-- The condition `AbortCleanup` of the status; `status` says that it is `ConditionTrue`, and `failure` is the message
of a failed cleanup. -/
structure AbortCleanupCondition where
  status : Bool
  reason : AbortCleanupReason
  failure : Option JobsFailure
  observedGeneration : Nat
  deriving DecidableEq, Repr

structure ShardSplitJobStatus where
  phase : ShardSplitPhase := .new
  observedGeneration : Nat := 0
  startedAt : Option Nat := none
  completedAt : Option Nat := none
  cutoverStartedAt : Option Nat := none
  failureReason : Option FailureReason := none
  abortCleanup : Option AbortCleanupCondition := none
  deriving DecidableEq, Repr

structure AutoSplitAnnotations where
  autoSplit : Str := []
  approval : Str := []
  approved : Str := []
  deriving DecidableEq, Repr

structure ShardSplitJob where
  uid : Nat
  generation : Nat := 1
  annotations : AutoSplitAnnotations := {}
  spec : ShardSplitJobSpec
  status : ShardSplitJobStatus := {}
  deriving DecidableEq

end PostgresOperator
