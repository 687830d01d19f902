import PostgresOperator.Cluster.Reseed

/-!
# Role labels of the pods

`reconcilePrimaryRoleLabels` of `role_label_sync.go` writes the roles of a list of shard statuses to the labels of the
pods, one pod after the other.  A pod that is not there counts as labelled, and a pod that the list names twice keeps
the last role, so that the pod of the fallback primary can end as a replica (`role_labels_iff`).
-/

namespace PostgresOperator.Cluster

open Go Option List

def instanceRoleLabelKey : Str := "postgres.keiailab.io/instance-role"

def rwRoutingRoleLabelKey : Str := "postgres.keiailab.io/role"

def instanceRoleLabelPrimary : Str := "primary"

def instanceRoleLabelReplica : Str := "replica"

def primaryRoleLabelKeys : List Str := [instanceRoleLabelKey, rwRoutingRoleLabelKey]

structure PodLabels where
  labels : Str → Option (Str → Str)
  nil : labels [] = none

structure LabelFault where
  get : Option ApiError := none
  patch : Option ApiError := none

def withRole (role : Str) (labels : Str → Str) : Str → Str :=
  fun key => if key ∈ primaryRoleLabelKeys then role else labels key

def PodLabels.setRole (pods : PodLabels) (name role : Str) : PodLabels where
  labels pod := if pod = name then (pods.labels pod).map (withRole role) else pods.labels pod
  nil := by simp [pods.nil]

def setPrimaryRoleLabels (fault : LabelFault) (pods : PodLabels) (name role : Str) : Option ApiError × PodLabels :=
  match fault.get, pods.labels name with
  | some e, _ => (some e, pods)
  | none, none => (none, pods)
  | none, some labels =>
    if primaryRoleLabelKeys.all fun key => labels key = role then (none, pods)
    else match fault.patch with
      | some e => (some e, pods)
      | none => (none, pods.setRole name role)

/-- A pod with the role that a status gives it, and whether it is a ready primary. -/
structure Mention where
  pod : Str
  role : Str
  ready : Bool

def ShardStatus.mentions (ss : ShardStatus) : List Mention :=
  (ss.primary.toList.map (fun p => Mention.mk p.pod instanceRoleLabelPrimary p.ready) ++
    ss.replicas.map fun r => Mention.mk r.pod instanceRoleLabelReplica false).filter fun m => m.pod ≠ []

structure LabelRun where
  pods : PodLabels
  count : Nat := 0
  primaryLabelsSynced : Bool := true
  firstErr : Option (Mention × ApiError) := none

def LabelRun.label (faults : Nat → LabelFault) (run : LabelRun) (m : Mention) : LabelRun :=
  let labelErr := setPrimaryRoleLabels (faults run.count) run.pods m.pod m.role
  { pods := labelErr.2
    count := run.count + 1
    primaryLabelsSynced := run.primaryLabelsSynced && !(m.ready && labelErr.1.isSome)
    firstErr := run.firstErr.or (labelErr.1.map fun e => (m, e)) }

def reconcilePrimaryRoleLabels (faults : Nat → LabelFault) (pods : PodLabels) (shardStatuses : List ShardStatus) :
    LabelRun :=
  (shardStatuses.flatMap ShardStatus.mentions).foldl (LabelRun.label faults) { pods }

/-- Every ready primary has the label of a primary, and no other pod of its shard has. -/
def RoutedToPrimaries (shardStatuses : List ShardStatus) (pods : PodLabels) : Prop :=
  ∀ ss ∈ shardStatuses, ∀ p ∈ ss.primary, p.ready →
    (∃ labels ∈ pods.labels p.pod, ∀ key ∈ primaryRoleLabelKeys, labels key = instanceRoleLabelPrimary) ∧
    ∀ r ∈ ss.replicas, r.pod ≠ p.pod → ∀ labels ∈ pods.labels r.pod, ∀ key ∈ primaryRoleLabelKeys,
      labels key ≠ instanceRoleLabelPrimary

def lastRole (ms : List Mention) (pod : Str) : Option Str := (ms.reverse.find? fun m => m.pod = pod).map Mention.role

variable {faults : Nat → LabelFault} {fault : LabelFault} {pods : PodLabels} {name role pod : Str} {ms : List Mention}
  {run : LabelRun}

theorem withRole_eq_self {labels : Str → Str} (h : ∀ key ∈ primaryRoleLabelKeys, labels key = role) :
    withRole role labels = labels := by
  funext key
  unfold withRole
  split
  case isTrue hkey => exact (h key hkey).symm
  case isFalse => rfl

theorem withRole_withRole {role' : Str} (labels : Str → Str) :
    withRole role (withRole role' labels) = withRole role labels := by
  funext key
  simp only [withRole]
  split <;> rfl

theorem setPrimaryRoleLabels_of_none (h : (setPrimaryRoleLabels fault pods name role).1 = none) :
    (setPrimaryRoleLabels fault pods name role).2.labels = (pods.setRole name role).labels := by
  have hs : (pods.labels name).map (withRole role) = pods.labels name →
      pods.labels = (pods.setRole name role).labels := by
    intro hsm
    funext x
    by_cases hx : x = name
    · simp [PodLabels.setRole, hx, hsm]
    · simp [PodLabels.setRole, hx]
  unfold setPrimaryRoleLabels at h ⊢
  cases hg : fault.get with
  | some e => simp [hg] at h
  | none => cases hl : pods.labels name with
    | none => exact hs (by rw [hl]; rfl)
    | some labels =>
      simp only [hg, hl] at h ⊢
      split
      case isTrue ha =>
        refine hs ?_
        rw [hl, map_some, withRole_eq_self (by simpa using ha)]
      case isFalse ha =>
        rw [if_neg ha] at h
        cases hp : fault.patch with
        | some e => simp [hp] at h
        | none => rfl

/-- If nothing failed, each pod has the role of its last mention. -/
theorem labels_of_firstErr_none (h : (ms.foldl (LabelRun.label faults) { pods }).firstErr = none) (pod : Str) :
    (ms.foldl (LabelRun.label faults) { pods }).pods.labels pod =
      (lastRole ms pod).elim (pods.labels pod) fun role => (pods.labels pod).map (withRole role) := by
  induction ms using reverseRecOn with
  | nil => rfl
  | append_singleton ms m ih =>
    rw [foldl_append, foldl_cons, foldl_nil] at h ⊢
    obtain ⟨hf, he⟩ := or_eq_none_iff.mp h
    have hs := setPrimaryRoleLabels_of_none (map_eq_none_iff.mp he)
    have hb : (LabelRun.label faults (ms.foldl (LabelRun.label faults) { pods }) m).pods.labels pod = _ :=
      congrFun hs pod
    rw [hb, PodLabels.setRole, lastRole, reverse_append]
    simp only [ih hf]
    by_cases hp : pod = m.pod
    · -- the earlier role is overwritten
      have hl : ∀ o : Option Str, (o.elim (pods.labels m.pod) fun role => (pods.labels m.pod).map (withRole role)).map
          (withRole m.role) = (pods.labels m.pod).map (withRole m.role) := by
        intro o
        cases o with
        | none => rfl
        | some role => cases pods.labels m.pod with
          | none => rfl
          | some labels => simp only [elim_some, map_some, withRole_withRole]
      simp [hp, hl]
    · simp [hp, Ne.symm hp, lastRole]

theorem lastRole_ne_none {shardStatuses : List ShardStatus} {ss : ShardStatus} {m : Mention}
    (hss : ss ∈ shardStatuses)
    (hm : m ∈ ss.mentions) : ∃ role, lastRole (shardStatuses.flatMap ShardStatus.mentions) m.pod = some role := by
  have hmm : m ∈ (shardStatuses.flatMap ShardStatus.mentions).reverse :=
    mem_reverse.mpr (mem_flatMap.mpr ⟨ss, hss, hm⟩)
  refine ne_none_iff_exists'.mp fun hn => ?_
  have hf := find?_eq_none.mp (map_eq_none_iff.mp hn) m hmm
  simp at hf

variable {o : Option (Str → Str)}

theorem carried_iff :
    (∃ labels ∈ o.map (withRole role), ∀ key ∈ primaryRoleLabelKeys, labels key = instanceRoleLabelPrimary) ↔
    o.isSome ∧ some role = some instanceRoleLabelPrimary := by
  cases o with
  | none => simp
  | some labels => simp [withRole, primaryRoleLabelKeys]

theorem not_carried_iff :
    (∀ labels ∈ o.map (withRole role), ∀ key ∈ primaryRoleLabelKeys, labels key ≠ instanceRoleLabelPrimary) ↔
    (o.isSome → some role ≠ some instanceRoleLabelPrimary) := by
  cases o with
  | none => simp
  | some labels => simp [withRole, primaryRoleLabelKeys]

/-- If there is no error, the labels are right exactly if every ready primary exists and is last named as a primary,
and no other pod of its shard is. -/
theorem role_labels_iff (faults : Nat → LabelFault) (pods : PodLabels) (shardStatuses : List ShardStatus)
    (h : (reconcilePrimaryRoleLabels faults pods shardStatuses).primaryLabelsSynced ∧
      (reconcilePrimaryRoleLabels faults pods shardStatuses).firstErr = none) :
    RoutedToPrimaries shardStatuses (reconcilePrimaryRoleLabels faults pods shardStatuses).pods ↔
      ∀ ss ∈ shardStatuses, ∀ p ∈ ss.primary, p.ready →
        ((pods.labels p.pod).isSome ∧
          lastRole (shardStatuses.flatMap ShardStatus.mentions) p.pod = some instanceRoleLabelPrimary) ∧
        ∀ r ∈ ss.replicas, r.pod ≠ p.pod → (pods.labels r.pod).isSome →
          lastRole (shardStatuses.flatMap ShardStatus.mentions) r.pod ≠ some instanceRoleLabelPrimary := by
  -- a pod without a name does not exist, and any other one is mentioned
  have hd : ∀ ss ∈ shardStatuses, ∀ role ready pod, (pod ≠ [] → Mention.mk pod role ready ∈ ss.mentions) →
      pods.labels pod = none ∧ (reconcilePrimaryRoleLabels faults pods shardStatuses).pods.labels pod = none ∨
      ∃ role, lastRole (shardStatuses.flatMap ShardStatus.mentions) pod = some role ∧
        (reconcilePrimaryRoleLabels faults pods shardStatuses).pods.labels pod =
          (pods.labels pod).map (withRole role) := by
    intro ss hss role ready pod hm
    by_cases hnl : pod = []
    · subst hnl
      exact .inl ⟨pods.nil, PodLabels.nil _⟩
    · obtain ⟨role, hrl⟩ := lastRole_ne_none hss (hm hnl)
      refine .inr ⟨role, hrl, ?_⟩
      rw [reconcilePrimaryRoleLabels, labels_of_firstErr_none h.2]
      simp only at hrl
      rw [hrl, elim_some]
  refine forall₂_congr fun ss hss => forall₂_congr fun p hp => imp_congr_right fun hrd => and_congr ?_ ?_
  · have hm : p.pod ≠ [] → Mention.mk p.pod instanceRoleLabelPrimary p.ready ∈ ss.mentions := by
      intro hne
      simp [ShardStatus.mentions, hne, mem_def.mp hp]
    rcases hd ss hss _ _ _ hm with ⟨hn, hn'⟩ | ⟨role, hrl, hl⟩
    · simp [hn, hn']
    · rw [hl, hrl]
      exact carried_iff
  · refine forall₂_congr fun r hr => imp_congr_right fun hne => ?_
    have hm : r.pod ≠ [] → Mention.mk r.pod instanceRoleLabelReplica false ∈ ss.mentions := by
      intro hne
      simp only [ShardStatus.mentions, List.mem_filter, List.mem_append, List.mem_map]
      exact ⟨.inr ⟨r, hr, rfl⟩, by simpa using hne⟩
    rcases hd ss hss _ _ _ hm with ⟨hn, hn'⟩ | ⟨role, hrl, hl⟩
    · simp [hn, hn']
    · rw [hl, hrl]
      exact not_carried_iff

private def labelledPod : PodLabels where
  labels pod := if pod = "demo-shard-0-0" then some fun _ => [] else none
  nil := by decide +kernel

private def labelledPods : PodLabels where
  labels pod := if pod = "demo-shard-0-0" ∨ pod = "demo-shard-0-1" then some fun _ => [] else none
  nil := by decide +kernel

private def labelledShard : ShardStatus :=
  { name := "shard-0"
    ordinal := 0
    primary := some { pod := "demo-shard-0-0", ready := true }
    replicas := [{ pod := "demo-shard-0-1", ready := true }] }

/-- A primary and a replica, both ready. -/
theorem role_labels_demo :
    RoutedToPrimaries [labelledShard]
      (reconcilePrimaryRoleLabels (fun _ => {}) labelledPods [labelledShard]).pods := by
  refine (role_labels_iff (fun _ => {}) labelledPods [labelledShard] (by decide +kernel)).mpr fun ss hss p hp _ => ?_
  obtain rfl := mem_singleton.mp hss
  obtain rfl := some.inj (mem_def.mp hp)
  refine ⟨by decide +kernel, ?_⟩
  intro r hr _ _
  obtain rfl := mem_singleton.mp hr
  decide +kernel

private def unreportedShard : ShardView where
  kind := .ordinal 0 (some 1)
  pods := some
    { items := [{ name := "demo-shard-0-0", labels := fun key => if key = "postgres.keiailab.io/shard" then "0"
      else [],
                  name_ne := firstPod_ne }]
      nodup := nodup_singleton _ }
  pvcs := some []
  now := 0

/-- The fallback primary is the pod that is also listed as a replica: it is labelled twice. -/
theorem fallback_primary_labelled_replica :
    ((reconcilePrimaryRoleLabels
      (fun _ => {}) labelledPod [unreportedShard.status demoCodec demoCluster]).primaryLabelsSynced ∧
      (reconcilePrimaryRoleLabels (fun _ => {}) labelledPod [unreportedShard.status demoCodec demoCluster]).firstErr =
      none) ∧
    ¬ RoutedToPrimaries [unreportedShard.status demoCodec demoCluster]
      (reconcilePrimaryRoleLabels (fun _ => {}) labelledPod [unreportedShard.status demoCodec demoCluster]).pods := by
  refine ⟨by decide +kernel, fun h => ?_⟩
  obtain ⟨p, hp, hr, hd⟩ : ∃ p ∈ (unreportedShard.status demoCodec demoCluster).primary, p.ready ∧
      p.pod = "demo-shard-0-0" :=
    ⟨_, rfl, by decide +kernel, by decide +kernel⟩
  obtain ⟨labels, hl, hrl⟩ := (h _ (mem_singleton_self _) p hp hr).1
  have hkey := hrl instanceRoleLabelKey (mem_cons_self)
  have hrp : ((reconcilePrimaryRoleLabels
      (fun _ => {}) labelledPod [unreportedShard.status demoCodec demoCluster]).pods.labels
      "demo-shard-0-0").map (· instanceRoleLabelKey) = some instanceRoleLabelReplica := by
    decide +kernel
  rw [← hd, mem_def.mp hl, map_some, hkey] at hrp
  exact absurd hrp (by decide +kernel)

end PostgresOperator.Cluster
