import PostgresOperator.Calls.Store
import PostgresOperator.Calls.Threads
import PostgresOperator.Reshard.DataJob

/-!
# The API server

The objects of one namespace that the resharding controller reads and writes, the requests it makes, and what each
request does.  A request may also fail without effect, or take effect and still be answered with an error, as when the
connection is lost.  Between two requests Jobs finish, users create and annotate `ShardSplitJob`s, and the other
controllers act on clusters, StatefulSets and pods.
-/

namespace PostgresOperator

open Go Calls Option

/-! ### Objects -/

/-- A `ShardRange`.  An update is refused unless it carries the current resource version. -/
structure ShardRange where
  resourceVersion : Nat
  spec : ShardRangeSpec
  deriving DecidableEq

/-- An entry of `status.shards` of a cluster; `primaryReady` is `none` when there is no primary. -/
structure ShardStatus where
  name : Str
  primaryReady : Option Bool
  deriving DecidableEq, Repr

structure PostgresCluster where
  shards : List ShardStatus
  deriving DecidableEq, Repr

/-- The labels that the controller looks at: the cluster and shard whose `ReshardTargetSelectorLabels` they include,
and the value under `ShardIDLabelKey`. -/
structure TargetLabels where
  target : Option (Str × Str)
  shardID : Option Str := none
  deriving DecidableEq, Repr

def TargetLabels.ensureShardID (l : TargetLabels) (id : Str) : TargetLabels := { l with shardID := some id }

structure StatefulSet where
  labels : TargetLabels
  templateLabels : TargetLabels
  containers : List (Str × Str)
  deriving DecidableEq, Repr

def StatefulSet.ensureShardID (sts : StatefulSet) (id : Str) : StatefulSet :=
  { sts with labels := sts.labels.ensureShardID id, templateLabels := sts.templateLabels.ensureShardID id }

/-- A pod; `ready` is the status of its first `Ready` condition. -/
structure Pod where
  labels : TargetLabels
  deleting : Bool
  running : Bool
  ready : Option Bool
  deriving DecidableEq, Repr

def Pod.ensureShardID (pod : Pod) (id : Str) : Pod := { pod with labels := pod.labels.ensureShardID id }

structure World where
  clock : Nat
  splitJobs : Store Str ShardSplitJob
  shardRanges : Store Str ShardRange
  jobs : Store Str BatchJob
  clusters : Store Str PostgresCluster
  statefulSets : Store Str StatefulSet
  pods : Store Str Pod
  deriving DecidableEq

/-! ### Requests -/

/-- Points of the controller that a statement about runs can name; passing one is no request to the API server. -/
inductive Mark
  /-- `reconcileModeJobs` is about to report that it is done. -/
  | jobsDone (mode : ReshardMode)
  /-- `setWriteBlock(true)` is about to return without error. -/
  | blocked
  deriving DecidableEq, Repr

/-- The requests of the controller.  `CreateOrUpdate` counts as one; ConfigMaps and Services have no content here,
since no function reads it. -/
inductive Req
  | now
  | mark (m : Mark)
  | getShardSplitJob (name : Str)
  | updateStatus (name : Str) (status : ShardSplitJobStatus)
  | listShardRanges
  | updateShardRange (name : Str) (sr : ShardRange)
  | getJob (name : Str)
  | createJob (name : Str) (job : BatchJob)
  | getCluster (name : Str)
  | getStatefulSet (name : Str)
  | applyConfigMap (name : Str)
  | applyService (name : Str)
  | applyStatefulSet (name : Str) (sts : StatefulSet)
  | patchStatefulSet (name shardID : Str)
  | listPods (cluster shardID : Str)
  | patchPod (name shardID : Str)
  deriving DecidableEq

/-- The answer to a request; an object that is not there is `none`. -/
def Req.Res : Req → Type
  | .now => Nat
  | .mark _ => Unit
  | .getShardSplitJob _ => Except ApiError (Option ShardSplitJob)
  | .listShardRanges => Except ApiError (List (Σ _ : Str, ShardRange))
  | .getJob _ => Except ApiError (Option BatchJob)
  | .getCluster _ => Except ApiError (Option PostgresCluster)
  | .getStatefulSet _ => Except ApiError (Option StatefulSet)
  | .listPods _ _ => Except ApiError (List (Σ _ : Str, Pod))
  | .updateStatus _ _ | .updateShardRange _ _ | .createJob _ _ | .applyConfigMap _ | .applyService _
  | .applyStatefulSet _ _ | .patchStatefulSet _ _ | .patchPod _ _ => Except ApiError Unit

/-- The answer that reports the error `e`; the clock and the marks have none. -/
def Req.fail (e : ApiError) : (r : Req) → Option r.Res
  | .now | .mark _ => none
  | .getShardSplitJob _ | .listShardRanges | .getJob _ | .getCluster _ | .getStatefulSet _ | .listPods _ _
  | .updateStatus _ _ | .updateShardRange _ _ | .createJob _ _ | .applyConfigMap _ | .applyService _
  | .applyStatefulSet _ _ | .patchStatefulSet _ _ | .patchPod _ _ => some (.error e)

abbrev Api : Interface where
  Req := Req
  Res := Req.Res
  failed {r} a := match r, a with
    | .now, _ | .mark _, _ => false
    | .getShardSplitJob _, a | .listShardRanges, a | .getJob _, a | .getCluster _, a | .getStatefulSet _, a
    | .listPods _ _, a | .updateStatus _ _, a | .updateShardRange _ _, a | .createJob _ _, a | .applyConfigMap _, a
    | .applyService _, a | .applyStatefulSet _ _, a | .patchStatefulSet _ _, a | .patchPod _ _, a =>
      !Except.isOk a

def selectPods (w : World) (cluster shardID : Str) : List (Σ _ : Str, Pod) :=
  w.pods.entries.filter fun e => decide (e.2.labels.target = some (cluster, shardID))

def exec : (r : Req) → World → r.Res × World
  | .now, w => (w.clock, w)
  | .mark _, w => ((), w)
  | .getShardSplitJob n, w => (.ok (w.splitJobs.lookup n), w)
  | .updateStatus n st, w =>
    match w.splitJobs.lookup n with
    | none => (.error (.notFound n), w)
    | some ssj => (.ok (), { w with splitJobs := w.splitJobs.replace n { ssj with status := st } })
  | .listShardRanges, w => (.ok w.shardRanges.entries, w)
  | .updateShardRange n sr, w =>
    match w.shardRanges.lookup n with
    | none => (.error (.notFound n), w)
    | some cur =>
      if cur.resourceVersion = sr.resourceVersion then
        (.ok (), { w with shardRanges := w.shardRanges.replace n ⟨sr.resourceVersion + 1, sr.spec⟩ })
      else (.error (.conflict n), w)
  | .getJob n, w => (.ok (w.jobs.lookup n), w)
  | .createJob n job, w =>
    match w.jobs.lookup n with
    | some _ => (.error (.alreadyExists n), w)
    | none => (.ok (), { w with jobs := w.jobs.insert n job })
  | .getCluster n, w => (.ok (w.clusters.lookup n), w)
  | .getStatefulSet n, w => (.ok (w.statefulSets.lookup n), w)
  | .applyConfigMap _, w => (.ok (), w)
  | .applyService _, w => (.ok (), w)
  | .applyStatefulSet n sts, w => (.ok (), { w with statefulSets := w.statefulSets.insert n sts })
  | .patchStatefulSet n id, w =>
    match w.statefulSets.lookup n with
    | none => (.error (.notFound n), w)
    | some sts => (.ok (), { w with statefulSets := w.statefulSets.replace n (sts.ensureShardID id) })
  | .listPods c id, w => (.ok (selectPods w c id), w)
  | .patchPod n id, w =>
    match w.pods.lookup n with
    | none => (.error (.notFound n), w)
    | some pod => (.ok (), { w with pods := w.pods.replace n (pod.ensureShardID id) })

/-- How a request turns out: it is carried out, it fails, or it is carried out and the answer is lost. -/
inductive Outcome
  | done
  | failed (e : ApiError)
  | lost (e : ApiError)
  deriving DecidableEq, Repr

def answer (c : Outcome) (r : Req) (w : World) : r.Res × World :=
  match c with
  | .done => exec r w
  | .failed e => match r.fail e with
    | none => exec r w
    | some a => (a, w)
  | .lost e => match r.fail e with
    | none => exec r w
    | some a => (a, (exec r w).2)

inductive ClusterEvent
  | tick
  | createShardSplitJob (name : Str) (uid : Nat) (annotations : AutoSplitAnnotations) (spec : ShardSplitJobSpec)
  | annotate (name : Str) (annotations : AutoSplitAnnotations)
  | finishJob (name : Str) (ok : Bool)
  | observe (clusters : Store Str PostgresCluster)
  | provision (statefulSets : Store Str StatefulSet) (pods : Store Str Pod)

def BatchJob.finish (job : BatchJob) (ok : Bool) : Option BatchJob :=
  if 0 < job.succeeded ∨ job.failed then none
  else if ok then some { job with succeeded := 1 } else some { job with failed := true }

def happen (e : ClusterEvent) (w : World) : Option World :=
  match e with
  | .tick => some { w with clock := w.clock + 1 }
  | .createShardSplitJob n uid annotations spec =>
    if w.splitJobs.lookup n = none ∧ ∀ e ∈ w.splitJobs.entries, e.2.uid ≠ uid then
      some { w with splitJobs := w.splitJobs.insert n { uid, annotations, spec } }
    else none
  | .annotate n annotations =>
    (w.splitJobs.lookup n).map fun ssj => { w with splitJobs := w.splitJobs.replace n { ssj with annotations } }
  | .finishJob n ok => do
    let job ← w.jobs.lookup n
    let job ← job.finish ok
    return { w with jobs := w.jobs.replace n job }
  | .observe clusters => some { w with clusters }
  | .provision statefulSets pods => some { w with statefulSets, pods }

theorem happen_cases {e : ClusterEvent} {w w' : World} (h : happen e w = some w') :
    w'.shardRanges = w.shardRanges ∧
    (w'.jobs = w.jobs ∨ ∃ name job job' ok, w.jobs.lookup name = some job ∧ job.finish ok = some job' ∧
      w'.jobs = w.jobs.replace name job') ∧
    (w'.splitJobs = w.splitJobs ∨
      (∃ n uid annotations spec, w.splitJobs.lookup n = none ∧ (∀ e ∈ w.splitJobs.entries, e.2.uid ≠ uid) ∧
        w'.splitJobs = w.splitJobs.insert n { uid, annotations, spec }) ∨
      ∃ n ssj annotations, w.splitJobs.lookup n = some ssj ∧
        w'.splitJobs = w.splitJobs.replace n { ssj with annotations }) := by
  cases e with
  | tick | observe | provision =>
    cases h
    exact ⟨rfl, .inl rfl, .inl rfl⟩
  | createShardSplitJob n uid annotations spec =>
    simp only [happen] at h
    split at h <;> cases h
    rename_i hc
    exact ⟨rfl, .inl rfl, .inr (.inl ⟨n, uid, annotations, spec, hc.1, hc.2, rfl⟩)⟩
  | annotate n annotations =>
    obtain ⟨ssj, hs, rfl⟩ := map_eq_some_iff.1 h
    exact ⟨rfl, .inl rfl, .inr (.inr ⟨n, ssj, annotations, hs, rfl⟩)⟩
  | finishJob n ok =>
    obtain ⟨job, hj, h⟩ := bind_eq_some_iff.1 h
    obtain ⟨job', hj', h⟩ := bind_eq_some_iff.1 h
    cases h
    exact ⟨rfl, .inr ⟨n, job, job', ok, hj, hj', rfl⟩, .inl rfl⟩

def apiServer : Service Api World where
  Choice := Outcome
  answer := answer
  Event := ClusterEvent
  happen := happen

end PostgresOperator
