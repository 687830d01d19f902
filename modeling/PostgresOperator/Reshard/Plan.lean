import PostgresOperator.Api.ShardSplitJob

/-!
# Phases and ranges of a split

The functions of `internal/controller/shardsplitjob_controller.go` without an API call: the phase that follows the
current one, with the gate of the Pending phase, and the ranges of the keyspace after the split.
-/

namespace PostgresOperator

open Go

def flattenTargetRanges (targets : List ShardSplitTarget) : List ShardRangeEntry := targets.flatMap (·.ranges)

def mergeSplitRanges (existing : List ShardRangeEntry) (sources : List Str)
    (targets : List ShardSplitTarget) : List ShardRangeEntry :=
  existing.filter (fun e => decide (e.shard ∉ sources)) ++ flattenTargetRanges targets

variable (spec : ShardSplitJobSpec)

def unsupportedSplitSpecReason : Option FailureReason :=
  if spec.direction = .merge then some .mergeNotImplemented
  else if spec.sources.length ≠ 1 then some .notOneSource
  else none

/-- The gate of the Pending phase in `nextPhase`.  The plan is checked against itself: both arguments of
`ValidateSplitPlan` are the ranges of the targets. -/
def pendingGate : ShardSplitPhase × Option FailureReason :=
  if spec.direction = .merge then (.failed, some .mergeNotImplemented)
  else if spec.sources.length ≠ 1 then (.failed, some .notOneSource)
  else match validateSplitPlan (flattenTargetRanges spec.targets) (flattenTargetRanges spec.targets) with
    | .error e => (.failed, some (.splitPlan e))
    | .ok () => (.snapshotWAL, none)

def nextPhase : ShardSplitPhase → ShardSplitPhase × Option FailureReason
  | .new | .pending => pendingGate spec
  | .snapshotWAL => (.bootstrap, none)
  | .bootstrap => (.initialCopy, none)
  | .initialCopy => (.cdcCatchup, none)
  | .cdcCatchup => (.cutover, none)
  | .cutover =>
    if spec.allowForwardOnly then (.failed, some .forwardOnlyNotImplemented) else (.routingUpdate, none)
  | .routingUpdate => (.cleanup, none)
  | .cleanup => (.promote, none)
  | .promote => (.completed, none)
  | .completed => (.completed, none)
  | .failed => (.failed, none)
  | .aborted => (.aborted, none)

def GateAccepts : Prop := nextPhase spec .pending = (.snapshotWAL, none)

instance (spec : ShardSplitJobSpec) : Decidable (GateAccepts spec) := by unfold GateAccepts; infer_instance

theorem gateAccepts_iff {spec : ShardSplitJobSpec} :
    GateAccepts spec ↔ spec.direction = .split ∧ spec.sources.length = 1 ∧
      validateSplitPlan (flattenTargetRanges spec.targets) (flattenTargetRanges spec.targets) = .ok () := by
  unfold GateAccepts nextPhase pendingGate
  cases hd : spec.direction with
  | merge => simp
  | split =>
    by_cases hs : spec.sources.length = 1
    · cases hv : validateSplitPlan (flattenTargetRanges spec.targets) (flattenTargetRanges spec.targets) with
      | error e => simp [hs]
      | ok u => simp [hs]
    · simp [hs]

theorem GateAccepts.ranges_ne_nil {spec : ShardSplitJobSpec} (h : GateAccepts spec) :
    flattenTargetRanges spec.targets ≠ [] := by
  intro hn
  have := (gateAccepts_iff.1 h).2.2
  rw [hn] at this
  simp [validateSplitPlan, contiguousSpan, sortByLo] at this

theorem GateAccepts.targets_ne_nil {spec : ShardSplitJobSpec} (h : GateAccepts spec) : spec.targets ≠ [] := by
  intro hn
  exact h.ranges_ne_nil (by rw [hn]; rfl)

end PostgresOperator
