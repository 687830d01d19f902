import PostgresOperator.Reshard.World
import PostgresOperator.Reshard.Routing

/-!
# Reconciling a `ShardSplitJob`

`ShardSplitJobReconciler.Reconcile` of `internal/controller/shardsplitjob_controller.go`, with the functions of
`shardsplitjob_copy.go` and `shardsplitjob_abort.go` that it calls, as programs over the requests of the API server.
A Go function that returns a value and an error is a program that returns an `Except`; the three results `done`,
`failure` and `err` of the functions on Jobs are an `Except` of a `JobsResult`.
-/

namespace PostgresOperator

open Go Calls

abbrev Kube (α : Type) : Type := Prog Api α

/-! ### Requests -/

def now : Kube Nat := Prog.request (I := Api) .now

def mark (m : Mark) : Kube Unit := Prog.request (I := Api) (.mark m)

def getShardSplitJob (n : Str) : Kube (Except ApiError (Option ShardSplitJob)) :=
  Prog.request (I := Api) (.getShardSplitJob n)

def updateStatus (n : Str) (st : ShardSplitJobStatus) : Kube (Except ApiError Unit) :=
  Prog.request (I := Api) (.updateStatus n st)

def listShardRanges : Kube (Except ApiError (List (Σ _ : Str, ShardRange))) :=
  Prog.request (I := Api) .listShardRanges

def updateShardRange (n : Str) (sr : ShardRange) : Kube (Except ApiError Unit) :=
  Prog.request (I := Api) (.updateShardRange n sr)

def getJob (n : Str) : Kube (Except ApiError (Option BatchJob)) := Prog.request (I := Api) (.getJob n)

def createJob (n : Str) (job : BatchJob) : Kube (Except ApiError Unit) :=
  Prog.request (I := Api) (.createJob n job)

def getCluster (n : Str) : Kube (Except ApiError (Option PostgresCluster)) :=
  Prog.request (I := Api) (.getCluster n)

def getStatefulSet (n : Str) : Kube (Except ApiError (Option StatefulSet)) :=
  Prog.request (I := Api) (.getStatefulSet n)

def applyConfigMap (n : Str) : Kube (Except ApiError Unit) := Prog.request (I := Api) (.applyConfigMap n)

def applyService (n : Str) : Kube (Except ApiError Unit) := Prog.request (I := Api) (.applyService n)

def applyStatefulSet (n : Str) (sts : StatefulSet) : Kube (Except ApiError Unit) :=
  Prog.request (I := Api) (.applyStatefulSet n sts)

def patchStatefulSet (n id : Str) : Kube (Except ApiError Unit) :=
  Prog.request (I := Api) (.patchStatefulSet n id)

def listPods (cluster id : Str) : Kube (Except ApiError (List (Σ _ : Str, Pod))) :=
  Prog.request (I := Api) (.listPods cluster id)

def patchPod (n id : Str) : Kube (Except ApiError Unit) := Prog.request (I := Api) (.patchPod n id)

/-! ### The `ShardRange` of a keyspace -/

variable (spec : ShardSplitJobSpec) (op : Operator) (ssj : ShardSplitJob) (n cluster : Str)

def inKeyspace (e : Σ _ : Str, ShardRange) : Bool :=
  decide (e.2.spec.cluster = spec.cluster ∧ e.2.spec.keyspace = spec.keyspace)

def keyspaceVindex : Kube (Except RangeError KeyspaceVindex) := do
  match ← listShardRanges with
  | .error e => return .error (.list e)
  | .ok ranges =>
    match ranges.find? (inKeyspace spec) with
    | none => return .error (.missing spec.cluster spec.keyspace)
    | some ⟨_, sr⟩ => return .ok (keyspaceVindexOf sr.spec)

def applyRouting : Kube (Except RangeError Unit) := do
  match ← listShardRanges with
  | .error e => return .error (.list e)
  | .ok ranges =>
    match ranges.find? (inKeyspace spec) with
    | none => return .error (.missing spec.cluster spec.keyspace)
    | some ⟨n, sr⟩ =>
      match ← updateShardRange n { sr with spec := splitRouting sr.spec spec } with
      | .error e => return .error (.update n e)
      | .ok () => return .ok ()

def setWriteBlock (blocked : Bool) : Kube (Except RangeError Unit) := do
  match ← listShardRanges with
  | .error e => return .error (.list e)
  | .ok ranges =>
    match ranges.find? (inKeyspace spec) with
    | none => return .error (.missing spec.cluster spec.keyspace)
    | some ⟨n, sr⟩ =>
      if sr.spec.writeBlocked = blocked then
        if blocked then mark .blocked
        return .ok ()
      else
        match ← updateShardRange n { sr with spec := { sr.spec with writeBlocked := blocked } } with
        | .error e => return .error (.update n e)
        | .ok () =>
          if blocked then mark .blocked
          return .ok ()

/-! ### Data movement -/

inductive JobsResult
  | done
  | waiting
  | failure (f : JobsFailure)
  deriving DecidableEq, Repr

inductive PreconditionError
  | listRanges (e : ApiError)
  | missing (cluster keyspace : Str)
  | getCluster (e : ApiError)
  | listPods (e : ApiError)
  deriving DecidableEq, Repr

inductive ReconcileError
  | api (e : ApiError)
  | range (e : RangeError)
  | precondition (e : PreconditionError)
  deriving DecidableEq, Repr

def modeJobsLoop (op : Operator) (ssj : ShardSplitJob) (mode : ReshardMode) (vindex : KeyspaceVindex)
    (srcDNS : Str) : List ShardSplitTarget → Bool → Kube (Except ReconcileError JobsResult)
  | [], allDone =>
    if allDone then do
      mark (.jobsDone mode)
      return .ok .done
    else return .ok .waiting
  | t :: ts, allDone => do
    match ← getJob (reshardJobName ssj.spec.cluster t.shardID mode) with
    | .error e => return .error (.api e)
    | .ok none =>
      match ← createJob (reshardJobName ssj.spec.cluster t.shardID mode)
          (buildReshardJob op ssj (modeJobParams op ssj.spec mode vindex srcDNS t.shardID)) with
      | .error e => return .error (.api e)
      | .ok () => modeJobsLoop op ssj mode vindex srcDNS ts false
    | .ok (some job) =>
      if 0 < job.succeeded then modeJobsLoop op ssj mode vindex srcDNS ts allDone
      else if jobFailed job then
        return .ok (.failure (.jobFailed mode (reshardJobName ssj.spec.cluster t.shardID mode)))
      else modeJobsLoop op ssj mode vindex srcDNS ts false

def reconcileModeJobs (mode : ReshardMode) :
    Kube (Except ReconcileError JobsResult) := do
  match ssj.spec.sources with
  | [] => return .ok (.failure (.noSource mode))
  | src :: _ =>
    match ← keyspaceVindex ssj.spec with
    | .error e => return .error (.range e)
    | .ok vindex =>
      match sourceShardPodDNS ssj.spec.cluster op.ns src with
      | none => return .ok (.failure (.sourceNotOrdinal mode src))
      | some srcDNS => modeJobsLoop op ssj mode vindex srcDNS ssj.spec.targets true

def reconcileInitialCopy : Kube (Except ReconcileError JobsResult) :=
  if ssj.spec.online then return .ok .done else reconcileModeJobs op ssj .copy

def reconcileCleanup : Kube (Except ReconcileError JobsResult) :=
  reconcileModeJobs op ssj .delete

def reconcileCDC : Kube (Except ReconcileError JobsResult) := do
  match ← reconcileModeJobs op ssj .cdcSetup with
  | .error e => return .error e
  | .ok .waiting => return .ok .waiting
  | .ok (.failure f) => return .ok (.failure f)
  | .ok .done =>
    match ← setWriteBlock ssj.spec true with
    | .error e => return .error (.range e)
    | .ok () => reconcileModeJobs op ssj .cdcFinalize

/-! ### Cleanup after a failure -/

def cdcJobNames : List Str :=
  [ReshardMode.cdcSetup, .cdcFinalize, .cdcAbort].flatMap fun mode =>
    spec.targets.map fun t => reshardJobName spec.cluster t.shardID mode

def anyJobExists : List Str → Kube (Except ApiError Bool)
  | [] => return .ok false
  | n :: ns => do
    match ← getJob n with
    | .ok (some _) => return .ok true
    | .ok none => anyJobExists ns
    | .error e => return .error e

def cdcJobsStarted : Kube (Except ApiError Bool) := anyJobExists (cdcJobNames ssj.spec)

def reconcileAbortCleanup : Kube (Except ReconcileError JobsResult) := do
  if ssj.spec.online = false then return .ok .done
  else match ← cdcJobsStarted ssj with
    | .error e => return .error (.api e)
    | .ok false => return .ok .done
    | .ok true =>
      match ← reconcileModeJobs op ssj .cdcAbort with
      | .error e => return .error e
      | .ok .waiting => return .ok .waiting
      | .ok (.failure f) => return .ok (.failure f)
      | .ok .done =>
        match ← setWriteBlock ssj.spec false with
        | .error e => return .ok (.failure (.releaseWriteBlock e))
        | .ok () => return .ok .done

def abortCleanupCompleted (st : ShardSplitJobStatus) : Bool :=
  st.abortCleanup.any fun c => c.status && c.reason == .complete

def setAbortCleanupCondition (status : Bool) (reason : AbortCleanupReason)
    (failure : Option JobsFailure) : ShardSplitJobStatus :=
  { ssj.status with abortCleanup := some ⟨status, reason, failure, ssj.generation⟩ }

structure CtrlResult where
  requeue : Bool := false
  requeueAfter : Nat := 0
  deriving DecidableEq, Repr

abbrev ReconcileResult := Except ReconcileError CtrlResult

def saveStatus (st : ShardSplitJobStatus) (res : CtrlResult) : Kube ReconcileResult := do
  match ← updateStatus n st with
  | .error e => return .error (.api e)
  | .ok () => return .ok res

def reconcileTerminalAbortCleanup (ssj : ShardSplitJob) : Kube ReconcileResult := do
  if abortCleanupCompleted ssj.status then return .ok {}
  else match ← reconcileAbortCleanup op ssj with
    | .error e => return .error e
    | .ok (.failure f) => saveStatus n (setAbortCleanupCondition ssj false .failed (some f)) {}
    | .ok .waiting => saveStatus n (setAbortCleanupCondition ssj false .running none) { requeueAfter := 3 }
    | .ok .done => saveStatus n (setAbortCleanupCondition ssj true .complete none) {}

/-! ### Targets -/

def containerImage (sts : StatefulSet) (name : Str) : Str :=
  ((sts.containers.find? fun c => decide (c.1 = name)).map (·.2)).getD []

def pgContainerName : Str := "postgres"

def buildTargetShardStatefulSet (shardID image : Str) : StatefulSet where
  labels := { target := some (cluster, shardID) }
  templateLabels := { target := some (cluster, shardID) }
  containers := [(pgContainerName, image)]

def upsertTargets (cluster image : Str) : List ShardSplitTarget → Kube (Except BootstrapError Unit)
  | [] => return .ok ()
  | t :: ts => do
    match ← applyConfigMap (targetShardConfigMapName cluster t.shardID) with
    | .error e => return .error (.upsertConfigMap t.shardID e)
    | .ok () =>
      match ← applyService (targetShardServiceName cluster t.shardID) with
      | .error e => return .error (.upsertService t.shardID e)
      | .ok () =>
        match ← applyStatefulSet (targetShardStatefulSetName cluster t.shardID)
            (buildTargetShardStatefulSet cluster t.shardID image) with
        | .error e => return .error (.upsertStatefulSet t.shardID e)
        | .ok () => upsertTargets cluster image ts

def reconcileBootstrapTargets : Kube (Except BootstrapError Unit) := do
  match ← getCluster ssj.spec.cluster with
  | .error e => return .error (.getCluster e)
  | .ok none => return .error (.getCluster (.notFound ssj.spec.cluster))
  | .ok (some _) =>
    match ← getStatefulSet (shardStatefulSetName ssj.spec.cluster 0) with
    | .error e => return .error (.getSource e)
    | .ok none => return .error (.getSource (.notFound (shardStatefulSetName ssj.spec.cluster 0)))
    | .ok (some srcSTS) =>
      if containerImage srcSTS pgContainerName = [] then return .error .noImage
      else upsertTargets ssj.spec.cluster (containerImage srcSTS pgContainerName) ssj.spec.targets

def podReadyForPromote (pod : Pod) : Bool := !pod.deleting && pod.running && pod.ready == some true

/-- The reasons for which `promotePreconditionsMet` waits; they are logged. -/
inductive NotReady
  | sourceActive (source : Str)
  | sourceObserved (source : Str)
  | targetInactive (shardID : Str)
  | noPods (shardID : Str)
  | noReadyPods (shardID : Str)
  deriving DecidableEq, Repr

def targetShardReadyForPromote (shardID : Str) : Kube (Except PreconditionError (Option NotReady)) := do
  match ← listPods cluster shardID with
  | .error e => return .error (.listPods e)
  | .ok pods =>
    if pods = [] then return .ok (some (.noPods shardID))
    else if pods.any fun p => podReadyForPromote p.2 then return .ok none
    else return .ok (some (.noReadyPods shardID))

def bootstrapTargetsReady (cluster : Str) : List ShardSplitTarget → Kube (Except PreconditionError Bool)
  | [] => return .ok true
  | t :: ts => do
    match ← targetShardReadyForPromote cluster t.shardID with
    | .error e => return .error e
    | .ok (some _) => return .ok false
    | .ok none => bootstrapTargetsReady cluster ts

def activeShards (ranges : List (Σ _ : Str, ShardRange)) : List Str :=
  (ranges.filter (inKeyspace spec)).flatMap fun e => (e.2.spec.ranges.map (·.shard)).filter (· ≠ [])

def activeShardRangeIDs : Kube (Except PreconditionError (List Str)) := do
  match ← listShardRanges with
  | .error e => return .error (.listRanges e)
  | .ok ranges =>
    if ranges.any (inKeyspace spec) then return .ok (activeShards spec ranges)
    else return .error (.missing spec.cluster spec.keyspace)

def observedSource (cluster : PostgresCluster) : Option Str :=
  spec.sources.find? fun s => cluster.shards.any fun st => decide (st.name = s) && st.primaryReady == some true

def sourceObservationExcluded : Kube (Except PreconditionError (Option NotReady)) := do
  match ← getCluster spec.cluster with
  | .error e => return .error (.getCluster e)
  | .ok none => return .ok none
  | .ok (some cluster) => return .ok ((observedSource spec cluster).map .sourceObserved)

def targetsReadyForPromote (cluster : Str) (active : List Str) :
    List ShardSplitTarget → Kube (Except PreconditionError (Option NotReady))
  | [] => return .ok none
  | t :: ts =>
    if t.shardID ∉ active then return .ok (some (.targetInactive t.shardID))
    else do
      match ← targetShardReadyForPromote cluster t.shardID with
      | .error e => return .error e
      | .ok (some reason) => return .ok (some reason)
      | .ok none => targetsReadyForPromote cluster active ts

def promotePreconditionsMet : Kube (Except PreconditionError (Option NotReady)) := do
  match ← activeShardRangeIDs spec with
  | .error e => return .error e
  | .ok active =>
    match spec.sources.find? fun s => decide (s ∈ active) with
    | some s => return .ok (some (.sourceActive s))
    | none =>
      match ← sourceObservationExcluded spec with
      | .error e => return .error e
      | .ok (some reason) => return .ok (some reason)
      | .ok none => targetsReadyForPromote spec.cluster active spec.targets

/-- The loop of `adoptTargetShardIdentity` over the pods. -/
def adoptPods (shardID : Str) : List (Σ _ : Str, Pod) → Kube (Except AdoptError Unit)
  | [] => return .ok ()
  | ⟨n, pod⟩ :: pods => do
    if pod.labels.shardID = some shardID then adoptPods shardID pods
    else match ← patchPod n shardID with
      | .error e => return .error (.patchPod n e)
      | .ok () => adoptPods shardID pods

def adoptTargetShardIdentity (shardID : Str) : Kube (Except AdoptError Unit) := do
  match ← getStatefulSet (targetShardStatefulSetName cluster shardID) with
  | .error e => return .error (.getStatefulSet e)
  | .ok none => return .error (.getStatefulSet (.notFound (targetShardStatefulSetName cluster shardID)))
  | .ok (some _) =>
    match ← patchStatefulSet (targetShardStatefulSetName cluster shardID) shardID with
    | .error e => return .error (.patchStatefulSet e)
    | .ok () =>
      match ← listPods cluster shardID with
      | .error e => return .error (.listPods e)
      | .ok pods => adoptPods shardID pods

def reconcilePromote (cluster : Str) : List ShardSplitTarget → Kube (Except (Str × AdoptError) Unit)
  | [] => return .ok ()
  | t :: ts => do
    match ← adoptTargetShardIdentity cluster t.shardID with
    | .error e => return .error (t.shardID, e)
    | .ok () => reconcilePromote cluster ts

/-! ### Phases -/

def autoSplitHoldForApproval (a : AutoSplitAnnotations) : Bool :=
  a.autoSplit == "true" && a.approval == "required" && a.approved != "true"

def failedStatus (reason : FailureReason) (t : Nat) : ShardSplitJobStatus :=
  { ssj.status with
    phase := .failed, failureReason := some reason, completedAt := some t, observedGeneration := ssj.generation }

def failPhase (ssj : ShardSplitJob) (reason : FailureReason) : Kube (Option ReconcileResult) := do
  let t ← now
  let _ ← updateStatus n (failedStatus ssj reason t)
  return some (.ok {})

/-- How a phase goes on after the functions on Jobs: an error or a wait ends this `Reconcile`, a failure ends the job,
and `none` goes on to the next phase. -/
def afterJobs (ssj : ShardSplitJob) : Except ReconcileError JobsResult → Kube (Option ReconcileResult)
  | .error e => return some (.error e)
  | .ok (.failure f) => failPhase n ssj (.jobs f)
  | .ok .waiting => return some (.ok { requeueAfter := 3 })
  | .ok .done => return none

def bootstrapPhase (ssj : ShardSplitJob) : Kube (Option ReconcileResult) := do
  match ← reconcileBootstrapTargets ssj with
  | .error e => failPhase n ssj (.bootstrap e)
  | .ok () =>
    match ← bootstrapTargetsReady ssj.spec.cluster ssj.spec.targets with
    | .error e => return some (.error (.precondition e))
    | .ok false => return some (.ok { requeueAfter := 5 })
    | .ok true => return none

def cutoverPhase : Kube (Option ReconcileResult) := do
  match ← setWriteBlock ssj.spec true with
  | .error e => return some (.error (.range e))
  | .ok () => return none

def routingUpdatePhase (ssj : ShardSplitJob) : Kube (Option ReconcileResult) := do
  match ← applyRouting ssj.spec with
  | .error e => failPhase n ssj (.routing e)
  | .ok () => return none

def promotePhase (ssj : ShardSplitJob) : Kube (Option ReconcileResult) := do
  match ← promotePreconditionsMet ssj.spec with
  | .error e => return some (.error (.precondition e))
  | .ok (some _) => return some (.ok { requeueAfter := 3 })
  | .ok none =>
    match ← reconcilePromote ssj.spec.cluster ssj.spec.targets with
    | .error (id, e) => failPhase n ssj (.adopt id e)
    | .ok () => return none

/-- What `Reconcile` does in the current phase before it asks for the next one; `some` returns from it. -/
def phaseWork (ssj : ShardSplitJob) : Kube (Option ReconcileResult) :=
  match ssj.status.phase with
  | .bootstrap => bootstrapPhase n ssj
  | .initialCopy => reconcileInitialCopy op ssj >>= afterJobs n ssj
  | .cdcCatchup => if ssj.spec.online then reconcileCDC op ssj >>= afterJobs n ssj else return none
  | .cutover => if ssj.spec.allowForwardOnly then return none else cutoverPhase ssj
  | .routingUpdate => routingUpdatePhase n ssj
  | .cleanup => reconcileCleanup op ssj >>= afterJobs n ssj
  | .promote => promotePhase n ssj
  | _ => return none

/-- The status with which a job enters the phase `next` at time `t`. -/
def advancedStatus (next : ShardSplitPhase) (failure : Option FailureReason) (t : Nat) :
    ShardSplitJobStatus :=
  { ssj.status with
    phase := next
    observedGeneration := ssj.generation
    startedAt := if ssj.status.phase = .new ∧ ssj.status.startedAt = none then some t else ssj.status.startedAt
    cutoverStartedAt := if next = .cutover then some t else ssj.status.cutoverStartedAt
    failureReason := if next = .failed then failure else ssj.status.failureReason
    completedAt := if next = .completed ∨ next = .failed then some t else ssj.status.completedAt }

def advance (ssj : ShardSplitJob) : Kube ReconcileResult := do
  let (next, failure) := nextPhase ssj.spec ssj.status.phase
  if next = ssj.status.phase then return .ok {}
  else
    let t ← now
    saveStatus n (advancedStatus ssj next failure t) { requeue := decide (next ≠ .completed ∧ next ≠ .failed) }

def reconcileActive (ssj : ShardSplitJob) : Kube ReconcileResult := do
  match unsupportedSplitSpecReason ssj.spec with
  | some reason =>
    let t ← now
    saveStatus n (failedStatus ssj reason t) {}
  | none =>
    if (ssj.status.phase = .new ∨ ssj.status.phase = .pending) ∧ autoSplitHoldForApproval ssj.annotations then
      if ssj.status.phase = .new then
        saveStatus n { ssj.status with phase := .pending, observedGeneration := ssj.generation } {}
      else return .ok {}
    else
      match ← phaseWork op n ssj with
      | some res => return res
      | none => advance n ssj

def reconcile : Kube ReconcileResult := do
  match ← getShardSplitJob n with
  | .error e => return .error (.api e)
  | .ok none => return .ok {}
  | .ok (some ssj) =>
    match ssj.status.phase with
    | .completed => return .ok {}
    | .failed | .aborted =>
      if ssj.spec.online then reconcileTerminalAbortCleanup op n ssj else return .ok {}
    | _ => reconcileActive op n ssj

def reconcileThread : Kube Unit := do
  let _ ← reconcile op n

end PostgresOperator
