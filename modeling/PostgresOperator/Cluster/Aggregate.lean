import Mathlib.Data.List.Nodup
import PostgresOperator.Cluster.Api
import PostgresOperator.Reshard.DataJob

/-!
# The status of a shard

`aggregate_status.go` and the fallback of `Reconcile`: the primary and the replicas of a shard from the pods and
volume claims that the API server lists.  Every pod reports its role in an annotation; a pod may not have done so yet,
its report may be old or unreadable, and its claim may be fenced.  When no pod counts as primary, `Reconcile` puts the
primary of the last status there, and calls it ready if the StatefulSet has a ready replica and no member is ready.
-/

namespace PostgresOperator.Cluster

open Go List

/-! ### Pods -/

inductive Role
  | starting
  | primary
  | replica
  | stopping
  | unknown
  | other (text : Str)
  deriving DecidableEq

structure Status where
  role : Role
  promoted : Bool := false
  ready : Bool := false
  endpoint : Str := []
  lagBytes : Int := 0
  walLsnBytes : Int := 0
  sizeBytes : Int := 0
  reason : Str := []
  message : Str := []
  lastUpdate : Int := 0

def Status.isStale (st : Status) (now thresh : Int) : Bool := thresh < now - st.lastUpdate

/-- How the controller reads and writes texts: `json.Unmarshal` into a `Status`, and `time.Parse` and `Time.Format`
with `time.RFC3339`. -/
structure Codec where
  unmarshalStatus : Str → Option Status
  parseTime : Str → Option Int
  formatTime : Int → Str

inductive PodPhase
  | pending
  | running
  | succeeded
  | failed
  | unknown
  deriving DecidableEq

structure Condition where
  type : Str
  status : Str

structure ContainerStatus where
  name : Str
  ready : Bool

structure Pod where
  name : Str
  labels : Str → Str := fun _ => []
  annotations : Str → Option Str := fun _ => none
  creationTimestamp : Int := 0
  deletionTimestamp : Option Int := none
  finalizers : List Str := []
  nodeName : Str := []
  phase : PodPhase := .running
  conditions : List Condition := []
  containerStatuses : List ContainerStatus := []
  name_ne : name ≠ []

structure PodList where
  items : List Pod
  nodup : (items.map Pod.name).Nodup

structure PersistentVolumeClaim where
  name : Str
  labels : Str → Str := fun _ => []

def annotationKey : Str := "postgres.keiailab.io/instance-status"

def reshardTargetLabelKey : Str := "postgres.keiailab.io/reshard-target"

def shardIDLabelKey : Str := "postgres.keiailab.io/shard-id"

def jobNameLabelKey : Str := "batch.kubernetes.io/job-name"

def fenceLabelKey : Str := "postgres.keiailab.io/fenced"

def fenceLabelValue : Str := "true"

def roguePrimaryReason : Str := "rogue-primary"

def fencedMemberReason : Str := "fenced"

def podNotReadyReason : Str := "pod-not-ready"

def statusStaleThresh : Int := 30 * second

def conditionStatus (conditions : List Condition) (type : Str) : Option Str :=
  (conditions.find? fun c => c.type = type).map Condition.status

def kubernetesPodNotReady (pod : Pod) : Bool :=
  if pod.deletionTimestamp.isSome then true
  else if pod.phase = .pending ∨ pod.phase = .failed ∨ pod.phase = .succeeded then true
  else match conditionStatus pod.conditions "Ready" with
    | some status => status ≠ "True"
    | none => match pod.containerStatuses.find? fun c => c.name = str "postgres" with
      | some c => !c.ready
      | none => false

def parsePodStatus (codec : Codec) (pod : Pod) : Option Status := do
  let raw ← pod.annotations annotationKey
  if raw = [] then none else codec.unmarshalStatus raw

def shardIDForOrdinal (ord : Int) : Str := "shard-" ++ itoa ord

def podMatchesShardIdentity (pod : Pod) (ord : Int) : Bool :=
  pod.labels "postgres.keiailab.io/shard" = itoa ord || pod.labels shardIDLabelKey = shardIDForOrdinal ord

def podMatchesNamedShardIdentity (pod : Pod) (shardID : Str) : Bool :=
  if shardID = [] then false
  else if pod.labels jobNameLabelKey ≠ [] then false
  else pod.labels shardIDLabelKey = shardID || pod.labels reshardTargetLabelKey = shardID

def defaultEndpoint (podName svcName ns : Str) : Str :=
  podName ++ "." ++ svcName ++ "." ++ ns ++ ".svc.cluster.local:5432"

/-! ### Aggregation -/

/-- What `aggregateShardStatusMatching` is called with, the answers to the two lists that it asks for, and the
time. -/
structure Aggregation where
  codec : Codec
  ns : Str
  shardID : Str
  ordinal : Int
  svcName : Str
  isMember : Pod → Bool
  pods : Option PodList
  pvcs : Option (List PersistentVolumeClaim)
  now : Int

/-- The primary found so far with its size, and the replicas. -/
structure Members where
  primary : Option ShardEndpoint := none
  sizeBytes : Int := 0
  replicas : List ShardEndpoint := []

def ShardEndpoint.because (ep : ShardEndpoint) (reason message : Str) : ShardEndpoint :=
  { ep with
    reason := if ep.reason = [] then reason else ep.reason
    message := if ep.message = [] then message else ep.message }

namespace Aggregation

variable (g : Aggregation)

def podFenced (pod : Pod) : Bool :=
  (g.pvcs.getD []).any fun pvc => pvc.labels fenceLabelKey = fenceLabelValue && pvc.name = "data-" ++ pod.name

def hasPromotedPrimary (pods : List Pod) : Bool :=
  pods.any fun pod => g.isMember pod && match parsePodStatus g.codec pod with
    | some st => st.role = .primary && st.promoted && !g.podFenced pod
    | none => false

def statusEndpoint (pod : Pod) (st : Status) : ShardEndpoint :=
  let ready := if st.isStale g.now statusStaleThresh then false else st.ready
  let podNotReady := kubernetesPodNotReady pod
  let ep : ShardEndpoint :=
    { pod := pod.name, endpoint := st.endpoint, ready := if podNotReady then false else ready,
      lagBytes := max 0 st.lagBytes, reason := st.reason, message := st.message }
  let ep :=
    if podNotReady then ep.because podNotReadyReason "Kubernetes Pod or postgres container is not ready" else ep
  if g.podFenced pod then
    { ep.because fencedMemberReason "PVC is fenced; member is excluded from promotion candidates"
      with ready := false }
  else ep

def aggregatePod (hasPromotedPrimary : Bool) (m : Members) (pod : Pod) : Members :=
  if !g.isMember pod then m
  else match parsePodStatus g.codec pod with
    | none =>
      let ep : ShardEndpoint := { pod := pod.name, endpoint := defaultEndpoint pod.name g.svcName g.ns }
      if pod.labels reshardTargetLabelKey ≠ [] && !kubernetesPodNotReady pod then
        match m.primary with
        | none => { m with primary := some { ep with ready := true } }
        | some _ => m
      else { m with replicas := m.replicas ++ [ep] }
    | some st =>
      let ep := g.statusEndpoint pod st
      if st.role = .primary && g.podFenced pod then { m with replicas := m.replicas ++ [ep] }
      else if st.role = .primary && !st.promoted && hasPromotedPrimary then
        { m with replicas := m.replicas ++ [{ ep with ready := false, reason := roguePrimaryReason }] }
      else if st.role = .primary then
        match m.primary with
        | some _ => { m with replicas := m.replicas ++ [ep] }
        | none => { m with primary := some ep, sizeBytes := max 0 st.sizeBytes }
      else { m with replicas := m.replicas ++ [ep] }

def aggregateShardStatusMatching : ShardStatus :=
  match g.pods with
  | none => { name := g.shardID, ordinal := g.ordinal }
  | some pods =>
    let m := pods.items.foldl (g.aggregatePod (g.hasPromotedPrimary pods.items)) {}
    { name := g.shardID, ordinal := g.ordinal, primary := m.primary, replicas := m.replicas,
      sizeBytes := if m.primary.isSome then m.sizeBytes else 0 }

/-! ### What becomes of a pod -/

def members : List Pod := (g.pods.elim [] PodList.items).filter g.isMember

def reportsPrimary (pod : Pod) : Bool := (parsePodStatus g.codec pod).any fun st => st.role = .primary

def promoted : Bool := g.hasPromotedPrimary (g.pods.elim [] PodList.items)

def rogue (pod : Pod) : Bool :=
  (parsePodStatus g.codec pod).any fun st => st.role = .primary && !g.podFenced pod && !st.promoted && g.promoted

def silentTarget (pod : Pod) : Bool :=
  (parsePodStatus g.codec pod).isNone && pod.labels reshardTargetLabelKey ≠ [] && !kubernetesPodNotReady pod

def counts (pod : Pod) : Bool := g.reportsPrimary pod && !g.podFenced pod && !g.rogue pod

def listed (pod : Pod) : ShardEndpoint :=
  match parsePodStatus g.codec pod with
  | none =>
    { pod := pod.name, endpoint := defaultEndpoint pod.name g.svcName g.ns, ready := g.silentTarget pod }
  | some st =>
    if g.rogue pod then { g.statusEndpoint pod st with ready := false, reason := roguePrimaryReason }
    else g.statusEndpoint pod st

def candidate : Option Pod := g.members.find? fun pod => g.counts pod || g.silentTarget pod

@[simp] theorem statusEndpoint_pod (pod : Pod) (st : Status) : (g.statusEndpoint pod st).pod = pod.name := by
  unfold statusEndpoint ShardEndpoint.because
  cases g.podFenced pod <;> cases kubernetesPodNotReady pod <;> rfl

@[simp] theorem listed_pod (pod : Pod) : (g.listed pod).pod = pod.name := by
  unfold listed
  cases parsePodStatus g.codec pod with
  | none => rfl
  | some st =>
    dsimp only
    split
    · exact g.statusEndpoint_pod pod st
    · exact g.statusEndpoint_pod pod st

variable {pod : Pod}

theorem listed_ready_of_silentTarget (h : g.silentTarget pod) : (g.listed pod).ready := by
  unfold listed
  cases hst : parsePodStatus g.codec pod with
  | none => exact h
  | some st => simp [silentTarget, hst] at h

/-! ### The loop -/

/-- One pod of the loop: it becomes the primary if there is none yet and it counts, otherwise a replica. -/
theorem aggregatePod_spec (m : Members) (h : g.isMember pod) : (g.aggregatePod g.promoted m pod).primary =
        m.primary.or (if g.counts pod || g.silentTarget pod then some (g.listed pod) else none) ∧
      (g.aggregatePod g.promoted m pod).replicas =
        m.replicas ++ if g.silentTarget pod || (g.counts pod && m.primary.isNone) then [] else [g.listed pod] := by
  unfold aggregatePod
  rw [h, Bool.not_true, if_neg (by simp)]
  cases hst : parsePodStatus g.codec pod with
  | none =>
    have hco : g.counts pod = false := by simp [counts, reportsPrimary, hst]
    by_cases hs : g.silentTarget pod
    · have hl : g.listed pod =
          { pod := pod.name, endpoint := defaultEndpoint pod.name g.svcName g.ns, ready := true } := by
        simp [listed, hst, hs]
      have hc := hs
      simp only [silentTarget, hst, Option.isNone_none, Bool.true_and] at hc
      dsimp only
      rw [if_pos hc]
      cases hm : m.primary <;> simp [hs, hl, hm]
    · have hl : g.listed pod = { pod := pod.name, endpoint := defaultEndpoint pod.name g.svcName g.ns } := by
        simp [listed, hst, hs]
      have hc := hs
      simp only [silentTarget, hst, Option.isNone_none, Bool.true_and] at hc
      dsimp only
      rw [if_neg hc]
      simp [hs, hco, hl]
  | some st =>
    have hs : g.silentTarget pod = false := by simp [silentTarget, hst]
    by_cases hr : st.role = .primary
    · cases hn : g.podFenced pod with
      | true => simp [counts, reportsPrimary, rogue, listed, hst, hr, hn, hs]
      | false =>
        cases hrg : g.rogue pod with
        | true =>
          have hf : (!st.promoted && g.promoted) := by simpa [rogue, hst, hr, hn] using hrg
          simp [counts, reportsPrimary, listed, hst, hr, hn, hrg, hs, hf]
        | false =>
          have hf : (!st.promoted && g.promoted) = false := by simpa [rogue, hst, hr, hn] using hrg
          cases m.primary <;>
            simp [counts, reportsPrimary, listed, hst, hr, hn, hrg, hs, hf]
    · simp [counts, reportsPrimary, rogue, listed, hst, hr, hs]

theorem foldl_aggregatePod_some {m : Members} {e : ShardEndpoint} (hm : m.primary = some e) {pods : List Pod}
    (hp : ∀ pod ∈ pods, g.isMember pod) :
    (pods.foldl (g.aggregatePod g.promoted) m).primary = some e ∧
      (pods.foldl (g.aggregatePod g.promoted) m).replicas =
        m.replicas ++ (pods.filter fun pod => !g.silentTarget pod).map g.listed := by
  induction pods generalizing m with
  | nil => simp [hm]
  | cons pod pods ih =>
    obtain ⟨hpr, hr⟩ := g.aggregatePod_spec m (hp pod (by simp))
    rw [hm, Option.some_or] at hpr
    obtain ⟨hpr', hr'⟩ := ih hpr fun x hx => hp x (by simp [hx])
    refine ⟨hpr', ?_⟩
    rw [foldl_cons, hr', hr, hm]
    cases hs : g.silentTarget pod <;> simp [hs]

theorem foldl_aggregatePod_none {m : Members} (hm : m.primary = none) {pods : List Pod}
    (hp : ∀ pod ∈ pods, g.isMember pod)
    (hn : ∀ pod ∈ pods, (g.counts pod || g.silentTarget pod) = false) :
    (pods.foldl (g.aggregatePod g.promoted) m).primary = none ∧
      (pods.foldl (g.aggregatePod g.promoted) m).replicas = m.replicas ++ pods.map g.listed := by
  induction pods generalizing m with
  | nil => simp [hm]
  | cons pod pods ih =>
    have hd := hn pod (by simp)
    obtain ⟨hpr, hr⟩ := g.aggregatePod_spec m (hp pod (by simp))
    rw [hm, hd] at hpr
    obtain ⟨hpr', hr'⟩ := ih hpr (fun x hx => hp x (by simp [hx])) fun x hx => hn x (by simp [hx])
    obtain ⟨hc, hs⟩ := Bool.or_eq_false_iff.1 hd
    refine ⟨hpr', ?_⟩
    rw [foldl_cons, hr', hr, hc, hs]
    simp

theorem isMember_of_mem (h : pod ∈ g.members) : g.isMember pod := (mem_filter.1 h).2

theorem members_nodup : (g.members.map Pod.name).Nodup := by
  have hit : ((g.pods.elim [] PodList.items).map Pod.name).Nodup := by
    cases g.pods with
    | none => exact nodup_nil
    | some pods => exact pods.nodup
  exact hit.sublist (filter_sublist.map _)

/-- The status is a fold over the members of the shard. -/
theorem aggregate_eq :
    g.aggregateShardStatusMatching.primary = (g.members.foldl (g.aggregatePod g.promoted) {}).primary ∧
      g.aggregateShardStatusMatching.replicas = (g.members.foldl (g.aggregatePod g.promoted) {}).replicas := by
  unfold aggregateShardStatusMatching members promoted
  cases g.pods with
  | none => exact ⟨rfl, rfl⟩
  | some pods =>
    have hs : (fun m pod => if g.isMember pod then g.aggregatePod (g.hasPromotedPrimary pods.items) m pod else m) =
        g.aggregatePod (g.hasPromotedPrimary pods.items) := by
      funext m pod
      cases hm : g.isMember pod with
      | true => rfl
      | false => simp [aggregatePod, hm]
    simp [foldl_filter, hs]

/-- Without a candidate every member is listed as a replica. -/
theorem aggregate_of_candidate_eq_none (h : g.candidate = none) : g.aggregateShardStatusMatching.primary = none ∧
      g.aggregateShardStatusMatching.replicas = g.members.map g.listed := by
  have hn : ∀ pod ∈ g.members, (g.counts pod || g.silentTarget pod) = false := by
    intro pod hp
    simpa using find?_eq_none.1 h pod hp
  obtain ⟨hpr, hr⟩ := g.foldl_aggregatePod_none (m := {}) rfl (fun _ => g.isMember_of_mem) hn
  rw [g.aggregate_eq.1, g.aggregate_eq.2, hr]
  exact ⟨hpr, nil_append _⟩

variable {c : Pod}

theorem aggregate_split (h : g.candidate = some c) :
    ∃ before after, g.members = before ++ c :: after ∧
      (∀ pod ∈ before, (g.counts pod || g.silentTarget pod) = false) ∧
      g.aggregateShardStatusMatching.primary = some (g.listed c) ∧
      g.aggregateShardStatusMatching.replicas =
        (before ++ after.filter fun pod => !g.silentTarget pod).map g.listed := by
  obtain ⟨hc, before, after, hm, hb⟩ := find?_eq_some_iff_append.1 h
  have hme : ∀ pod ∈ before ++ c :: after, g.isMember pod := by
    rw [← hm]
    exact fun _ => g.isMember_of_mem
  have hb' : ∀ pod ∈ before, (g.counts pod || g.silentTarget pod) = false := by
    intro pod hd
    simpa using hb pod hd
  obtain ⟨hp₀, hr₀⟩ :=
    g.foldl_aggregatePod_none (m := {}) rfl (fun pod hd => hme pod (by simp [hd])) hb'
  obtain ⟨hp₁, hr₁⟩ :=
    g.aggregatePod_spec (before.foldl (g.aggregatePod g.promoted) {}) (hme c (by simp))
  rw [hp₀, Option.none_or, if_pos hc] at hp₁
  rw [hp₀, hr₀, Option.isNone_none, Bool.and_true, Bool.or_comm, if_pos hc, append_nil] at hr₁
  have ha : ∀ pod ∈ after, g.isMember pod := fun pod hd => hme pod (by simp [hd])
  obtain ⟨hp₂, hr₂⟩ := g.foldl_aggregatePod_some hp₁ ha
  refine ⟨before, after, hm, hb', ?_⟩
  rw [g.aggregate_eq.1, g.aggregate_eq.2, hm, foldl_append, foldl_cons]
  refine ⟨hp₂, ?_⟩
  rw [hr₂, hr₁, nil_append, map_append]

theorem name_ne_of_members_eq {before after : List Pod} (h : g.members = before ++ c :: after) :
    ∀ pod ∈ before ++ after, pod.name ≠ c.name := by
  have hn := g.members_nodup
  rw [h, map_append, map_cons, nodup_middle, nodup_cons, ← map_append] at hn
  intro pod hp heq
  exact hn.1 (heq ▸ mem_map_of_mem hp)

/-- The first pod that counts is the primary, and the rest are replicas. -/
theorem aggregate_of_candidate_eq_some (h : g.candidate = some c) :
    g.aggregateShardStatusMatching.primary = some (g.listed c) ∧
      ∀ r, r ∈ g.aggregateShardStatusMatching.replicas ↔
        ∃ pod ∈ g.members, pod.name ≠ c.name ∧ g.silentTarget pod = false ∧ r = g.listed pod := by
  obtain ⟨before, after, hm, hb, hpr, hr⟩ := g.aggregate_split h
  have hne := g.name_ne_of_members_eq hm
  refine ⟨hpr, ?_⟩
  intro r
  rw [hr, hm, mem_map]
  constructor
  · rintro ⟨pod, hp, rfl⟩
    rcases mem_append.1 hp with hp | hp
    · exact ⟨pod, by simp [hp], hne pod (by simp [hp]), (Bool.or_eq_false_iff.1 (hb pod hp)).2, rfl⟩
    · obtain ⟨hp, hs⟩ := mem_filter.1 hp
      exact ⟨pod, by simp [hp], hne pod (by simp [hp]), by simpa using hs, rfl⟩
  · rintro ⟨pod, hp, hn, hs, rfl⟩
    refine ⟨pod, ?_, rfl⟩
    rcases mem_append.1 hp with hp | hp
    · exact mem_append_left _ hp
    · rcases mem_cons.1 hp with rfl | hp
      · exact absurd rfl hn
      · exact mem_append_right _ (mem_filter.2 ⟨hp, by simp [hs]⟩)

/-- The replicas of a status are the members that are not its primary, but for ready targets that never report. -/
theorem mem_replicas {r : ShardEndpoint} : r ∈ g.aggregateShardStatusMatching.replicas ↔
    ∃ pod ∈ g.members, (∀ c, g.candidate = some c → pod.name ≠ c.name) ∧ g.silentTarget pod = false ∧
      r = g.listed pod := by
  cases hc : g.candidate with
  | none =>
    rw [(g.aggregate_of_candidate_eq_none hc).2, mem_map]
    constructor
    · rintro ⟨pod, hp, rfl⟩
      have hn : (g.counts pod || g.silentTarget pod) = false := by simpa using find?_eq_none.1 hc pod hp
      exact ⟨pod, hp, nofun, (Bool.or_eq_false_iff.1 hn).2, rfl⟩
    · rintro ⟨pod, hp, -, -, rfl⟩
      exact ⟨pod, hp, rfl⟩
  | some c =>
    rw [(g.aggregate_of_candidate_eq_some hc).2 r]
    simp only [Option.some.injEq, forall_eq']

end Aggregation

/-! ### Reconcile -/

/-- A shard of the cluster: one of the first ones with the `readyReplicas` of its StatefulSet, if that was found, or
one that came from a resharding. -/
inductive ShardKind
  | ordinal (ord : Int) (readyReplicas : Option Int)
  | named (shardID : Str)

structure ShardView where
  kind : ShardKind
  pods : Option PodList
  pvcs : Option (List PersistentVolumeClaim)
  now : Int

def ShardKind.shardID : ShardKind → Str
  | .ordinal ord _ => shardIDForOrdinal ord
  | .named shardID => shardID

def ShardView.aggregation (v : ShardView) (codec : Codec) (cluster : PostgresCluster) : Aggregation where
  codec
  ns := cluster.ns
  shardID := v.kind.shardID
  ordinal := match v.kind with
    | .ordinal ord _ => ord
    | .named _ => -1
  svcName := match v.kind with
    | .ordinal ord _ => shardServiceName cluster.name ord
    | .named shardID => targetShardServiceName cluster.name shardID
  isMember := match v.kind with
    | .ordinal ord _ => (podMatchesShardIdentity · ord)
    | .named shardID => (podMatchesNamedShardIdentity · shardID)
  pods := v.pods
  pvcs := v.pvcs
  now := v.now

def hasReadyReplica (replicas : List ShardEndpoint) : Bool := replicas.any ShardEndpoint.ready

def fallbackPrimaryReady (stsReadyProxy : Bool) (replicas : List ShardEndpoint) : Bool :=
  stsReadyProxy && !hasReadyReplica replicas

def primaryReady (readyReplicas : Option Int) : Bool := readyReplicas.any fun n => 1 ≤ n

/-- The pod and endpoint of the primary if no pod counts as one: those of the last status, else the first pod. -/
def fallbackEndpoint (cluster : PostgresCluster) (ord : Int) : Str × Str :=
  let fbPod := shardStatefulSetName cluster.name ord ++ "-0"
  let fbEndpoint := defaultEndpoint fbPod (shardServiceName cluster.name ord) cluster.ns
  match cluster.shards.findSome? fun prev => prev.primary.filter fun p => prev.ordinal = ord && p.pod ≠ [] with
  | some p => (p.pod, if p.endpoint ≠ [] then p.endpoint else fbEndpoint)
  | none => (fbPod, fbEndpoint)

def withFallback (cluster : PostgresCluster) (ord : Int) (primaryReady : Bool) (shardStat : ShardStatus) :
    ShardStatus :=
  if shardStat.primary.all (fun p => p.pod = []) && !standaloneReplicaEnabled cluster then
    { shardStat with
      primary := some
        { pod := (fallbackEndpoint cluster ord).1, endpoint := (fallbackEndpoint cluster ord).2,
          ready := fallbackPrimaryReady primaryReady shardStat.replicas } }
  else shardStat

def ShardView.status (v : ShardView) (codec : Codec) (cluster : PostgresCluster) : ShardStatus :=
  let shardStat := (v.aggregation codec cluster).aggregateShardStatusMatching
  match v.kind with
  | .ordinal ord readyReplicas => withFallback cluster ord (primaryReady readyReplicas) shardStat
  | .named _ => shardStat

end PostgresOperator.Cluster
