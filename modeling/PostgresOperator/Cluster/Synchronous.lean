import PostgresOperator.Cluster.Guard
import PostgresOperator.Cluster.Names

/-!
# Synchronous standbys

`synchronousConfigForShard` of `builders.go`: the standbys for which a commit on the primary of a shard waits.  The
names come from the status of the shard with an ordinal; the ConfigMap of a named shard is rendered for the ordinal 0.
With durability `required` the pods that the StatefulSet is to have are named as well, so that a named shard always
waits for the pods of the shard 0.  With `preferred` only what the status says is named, so that it has to be right
(`names_own_members_iff`).
-/

namespace PostgresOperator.Cluster

open Go List

inductive SynchronousMethod
  | any
  | first
  deriving DecidableEq

/-- `SynchronousReplicationDataDurability`; `unset` is the empty string. -/
inductive DataDurability
  | unset
  | required
  | preferred
  deriving DecidableEq

structure SynchronousSpec where
  method : SynchronousMethod
  number : Int
  dataDurability : DataDurability := .unset

structure SyncCluster where
  name : Str
  replicas : Int
  synchronous : Option SynchronousSpec
  shards : List ShardStatus

structure SynchronousConfig where
  method : Str
  number : Int
  standbyNames : List Str
  deriving DecidableEq

def shardStatusByOrdinal (shards : List ShardStatus) (ordinal : Int) : Option ShardStatus :=
  shards.find? fun shard => shard.ordinal = ordinal

def desiredShardPodNames (cluster : Str) (shardOrdinal replicas : Int) : List Str :=
  (List.range (replicas + 1).toNat).map (memberPod (shardStatefulSetName cluster shardOrdinal))

def addName (out : List Str) (name : Str) : List Str := if name = [] ∨ name ∈ out then out else out ++ [name]

def podsOf (replicas : List ShardEndpoint) (ready : Bool) : List Str :=
  (replicas.filter fun r => r.pod ≠ [] ∧ r.ready = ready).map ShardEndpoint.pod

variable (cluster : SyncCluster) (s : ShardRef)

def requiredSynchronousStandbyNames (shardOrdinal : Int) : List Str :=
  let desired := desiredShardPodNames cluster.name shardOrdinal cluster.replicas
  match shardStatusByOrdinal cluster.shards shardOrdinal with
  | none => desired
  | some shard =>
    ((podsOf shard.replicas true).insertionSort (· ≤ ·) ++ (podsOf shard.replicas false).insertionSort (· ≤ ·) ++
      (shard.primary.map ShardEndpoint.pod).toList ++ desired).foldl addName []

def preferredSynchronousStandbyNames (shardOrdinal : Int) : List Str :=
  match shardStatusByOrdinal cluster.shards shardOrdinal with
  | none => []
  | some shard => (podsOf shard.replicas true).insertionSort (· ≤ ·)

def synchronousConfigForShard (shardOrdinal : Int) : Option SynchronousConfig :=
  match cluster.synchronous with
  | none => none
  | some sync =>
    if shardOrdinal < 0 ∨ sync.number ≤ 0 ∨ cluster.replicas < sync.number then none
    else
      let method := if sync.method = .first then str "FIRST" else str "ANY"
      let preferred := preferredSynchronousStandbyNames cluster shardOrdinal
      let names := if sync.dataDurability = .preferred then preferred
        else requiredSynchronousStandbyNames cluster shardOrdinal
      let number := if sync.dataDurability = .preferred ∧ preferred.length < sync.number then (preferred.length : Int)
        else sync.number
      if number ≤ 0 ∨ names = [] then none else some ⟨method, number, names⟩

/-- The ordinal that the ConfigMap of a shard is rendered for; `buildTargetShardConfigMap` takes 0. -/
def ShardRef.configOrdinal : ShardRef → Int
  | ordinal n => n
  | named _ _ => 0

def ShardRef.status : ShardRef → Option ShardStatus
  | ordinal n => shardStatusByOrdinal cluster.shards n
  | named id _ => cluster.shards.find? fun shard => shard.name = id

/-! ### The promise -/

def IsMember (pod : Str) : Prop := ∃ m, pod = memberPod (s.statefulSet cluster.name) m

def IsReadyReplica (pod : Str) : Prop :=
  ∃ shard, s.status cluster = some shard ∧ ∃ r ∈ shard.replicas, r.pod = pod ∧ r.ready

structure NamesOwnMembers (cluster : SyncCluster) (sync : SynchronousSpec) (s : ShardRef) : Prop where
  members : ∀ cfg, synchronousConfigForShard cluster s.configOrdinal = some cfg →
    cfg.standbyNames.Nodup ∧ ∀ pod ∈ cfg.standbyNames, IsMember cluster s pod
  required : sync.dataDurability ≠ .preferred → ∃ cfg, synchronousConfigForShard cluster s.configOrdinal = some cfg ∧
    cfg.number = sync.number ∧
      ∀ m, cfg.number ≤ (cfg.standbyNames.filter (· ≠ memberPod (s.statefulSet cluster.name) m)).length
  preferred : sync.dataDurability = .preferred → ∀ cfg, synchronousConfigForShard cluster s.configOrdinal = some cfg →
    cfg.number ≤ cfg.standbyNames.length ∧ ∀ pod ∈ cfg.standbyNames, IsReadyReplica cluster s pod

def statusPods : List Str :=
  match shardStatusByOrdinal cluster.shards s.configOrdinal with
  | none => []
  | some shard => shard.replicas.map ShardEndpoint.pod ++ (shard.primary.map ShardEndpoint.pod).toList

/-- The ready replicas of the entry have different names. -/
def Distinct (shard : ShardStatus) : Prop :=
  shard.replicas.Pairwise fun r r' => r.ready → r'.ready → r.pod ≠ [] → r.pod ≠ r'.pod

/-- For a named shard, its own entry lists the pod as ready. -/
def OwnEntryReady : ShardRef → Str → Prop
  | .ordinal _, _ => True
  | .named id _, pod => ∃ own, cluster.shards.find? (fun x => x.name = id) = some own ∧
      ∃ r ∈ own.replicas, r.pod = pod ∧ r.ready

/-- What the status has to be, in the entry of the ordinal that the configuration is rendered for.  With durability
`required` the shard has that ordinal, and the entry names its own pods.  With `preferred` the ready replicas of the
entry are different pods of the shard, which for a named shard its own entry lists as ready too. -/
def StatusFits (sync : SynchronousSpec) (s : ShardRef) : Prop :=
  if sync.dataDurability = .preferred then
    ∀ shard, shardStatusByOrdinal cluster.shards s.configOrdinal = some shard → Distinct shard ∧
      ∀ r ∈ shard.replicas, r.ready → r.pod ≠ [] → IsMember cluster s r.pod ∧
        OwnEntryReady cluster s r.pod
  else (∃ n, s = .ordinal n) ∧ ∀ pod ∈ statusPods cluster s, pod ≠ [] → IsMember cluster s pod

/-! ### Names that are added once -/

theorem mem_addNames {names out : List Str} {name : Str} :
    name ∈ names.foldl addName out ↔ name ∈ out ∨ name ≠ [] ∧ name ∈ names := by
  induction names generalizing out with
  | nil => simp
  | cons n names ih =>
    rw [foldl_cons, ih, addName]
    split
    · rename_i hs
      rw [mem_cons]
      constructor
      · rintro (ho | ⟨hne, hm⟩)
        · exact .inl ho
        · exact .inr ⟨hne, .inr hm⟩
      · rintro (ho | ⟨hne, rfl | hm⟩)
        · exact .inl ho
        · exact .inl (hs.resolve_left hne)
        · exact .inr ⟨hne, hm⟩
    · rename_i hn
      rw [not_or] at hn
      rw [mem_append, mem_singleton, mem_cons]
      constructor
      · rintro ((ho | rfl) | ⟨hne, hm⟩)
        · exact .inl ho
        · exact .inr ⟨hn.1, .inl rfl⟩
        · exact .inr ⟨hne, .inr hm⟩
      · rintro (ho | ⟨hne, rfl | hm⟩)
        · exact .inl (.inl ho)
        · exact .inl (.inr rfl)
        · exact .inr ⟨hne, hm⟩

theorem nodup_addNames {names out : List Str} (ho : out.Nodup) : (names.foldl addName out).Nodup := by
  induction names generalizing out with
  | nil => exact ho
  | cons n names ih =>
    rw [foldl_cons]
    refine ih ?_
    unfold addName
    split
    · exact ho
    · rename_i hn
      rw [not_or] at hn
      refine nodup_append.2 ⟨ho, nodup_singleton n, fun a ha b hb hab => ?_⟩
      rw [mem_singleton] at hb
      exact hn.2 (hb ▸ hab ▸ ha)

theorem nodup_desired (cluster : Str) (ord replicas : Int) : (desiredShardPodNames cluster ord replicas).Nodup :=
  nodup_range.map fun _ _ h => memberPod_inj h

section Names

variable {cluster : SyncCluster} {ord : Int}

theorem nodup_required : (requiredSynchronousStandbyNames cluster ord).Nodup := by
  unfold requiredSynchronousStandbyNames
  cases shardStatusByOrdinal cluster.shards ord with
  | none => exact nodup_desired _ _ _
  | some shard => exact nodup_addNames nodup_nil

theorem mem_required {pod : Str} {s : ShardRef} :
    pod ∈ requiredSynchronousStandbyNames cluster s.configOrdinal ↔
      pod ∈ desiredShardPodNames cluster.name s.configOrdinal cluster.replicas ∨ pod ≠ [] ∧
        pod ∈ statusPods cluster s := by
  have hs : ∀ p ∈ desiredShardPodNames cluster.name s.configOrdinal cluster.replicas, p ≠ [] := by
    intro p hp
    obtain ⟨m, -, rfl⟩ := mem_map.1 hp
    simp [memberPod, itoaNat_ne_nil]
  unfold requiredSynchronousStandbyNames statusPods
  cases shardStatusByOrdinal cluster.shards s.configOrdinal with
  | none => simp
  | some shard =>
    have hrd : ∀ r : ShardEndpoint, r.ready ∨ r.ready = false := fun r => by cases r.ready <;> simp
    simp only [mem_addNames, mem_append, mem_insertionSort, podsOf, mem_map, mem_filter]
    constructor
    · rintro (h | ⟨hne, ((⟨r, ⟨hr, -⟩, rfl⟩ | ⟨r, ⟨hr, -⟩, rfl⟩) | hpr) | hd⟩)
      · cases h
      · exact .inr ⟨hne, .inl ⟨r, hr, rfl⟩⟩
      · exact .inr ⟨hne, .inl ⟨r, hr, rfl⟩⟩
      · exact .inr ⟨hne, .inr hpr⟩
      · exact .inl hd
    · rintro (hd | ⟨hne, ⟨r, hr, rfl⟩ | hpr⟩)
      · exact .inr ⟨hs _ hd, .inr hd⟩
      · refine .inr ⟨hne, .inl (.inl ?_)⟩
        obtain hrd | hrd := hrd r
        · exact .inl ⟨r, ⟨hr, by simp [hne, hrd]⟩, rfl⟩
        · exact .inr ⟨r, ⟨hr, by simp [hne, hrd]⟩, rfl⟩
      · exact .inr ⟨hne, .inl (.inr hpr)⟩

/-- Enough standbys are listed, whoever is primary. -/
theorem length_required_filter (pod : Str) (hr : 0 ≤ cluster.replicas) (s : ShardRef) :
    cluster.replicas ≤ ((requiredSynchronousStandbyNames cluster s.configOrdinal).filter (· ≠ pod)).length := by
  have hn := nodup_desired cluster.name s.configOrdinal cluster.replicas
  have hs : (desiredShardPodNames cluster.name s.configOrdinal cluster.replicas).erase pod ⊆
      (requiredSynchronousStandbyNames cluster s.configOrdinal).filter (· ≠ pod) := by
    intro p hp
    obtain ⟨hne, hm⟩ := hn.mem_erase_iff.1 hp
    exact mem_filter.2 ⟨mem_required.2 (.inl hm), by simpa using hne⟩
  have hle := ((hn.erase pod).subperm hs).length_le
  have hl : (desiredShardPodNames cluster.name s.configOrdinal cluster.replicas).length =
      (cluster.replicas + 1).toNat := by
    simp [desiredShardPodNames]
  have he : (desiredShardPodNames cluster.name s.configOrdinal cluster.replicas).length ≤
      ((desiredShardPodNames cluster.name s.configOrdinal cluster.replicas).erase pod).length + 1 := by
    rw [length_erase]
    split <;> omega
  omega

end Names

theorem isMember_desired {cluster : SyncCluster} {n : Nat} {pod : Str}
    (h : pod ∈ desiredShardPodNames cluster.name n cluster.replicas) : IsMember cluster (.ordinal n) pod := by
  obtain ⟨m, -, rfl⟩ := mem_map.1 h
  exact ⟨m, rfl⟩

theorem not_isMember_named {cluster : SyncCluster} {id : Str} {valid : validShardID id} (m : Nat) :
    ¬ IsMember cluster (.named id valid) (memberPod (shardStatefulSetName cluster.name 0) m) := by
  have hs : str "-shard-" = byte '-' :: byte 's' :: str "hard-" := by decide
  have hr : str "-rsd-" = byte '-' :: byte 'r' :: str "sd-" := by decide
  have hne : byte 's' ≠ byte 'r' := by decide
  rintro ⟨k, hk⟩
  simp [memberPod, shardStatefulSetName, ShardRef.statefulSet, targetShardStatefulSetName, hs, hr, hne] at hk

section Config

variable {cluster : SyncCluster} {sync : SynchronousSpec} {s : ShardRef} (hsync : cluster.synchronous = some sync)
  (hpos : 1 ≤ sync.number) (hle : sync.number ≤ cluster.replicas)
include hsync hpos hle

/-- A required quorum lists the members by name, ready or not. -/
theorem config_of_required (hd : sync.dataDurability ≠ .preferred) :
    ∃ method, synchronousConfigForShard cluster s.configOrdinal =
      some ⟨method, sync.number, requiredSynchronousStandbyNames cluster s.configOrdinal⟩ := by
  have ho : 0 ≤ s.configOrdinal := by cases s <;> simp [ShardRef.configOrdinal]
  have hne : requiredSynchronousStandbyNames cluster s.configOrdinal ≠ [] := by
    intro hn
    have hr : 0 ≤ cluster.replicas := by omega
    have hl := length_required_filter [] hr s
    rw [hn] at hl
    simp at hl
    omega
  unfold synchronousConfigForShard
  simp only [hsync, hd, if_false, false_and, hne, or_false]
  rw [if_neg (by omega), if_neg (by omega)]
  exact ⟨_, rfl⟩

theorem config_of_preferred (hd : sync.dataDurability = .preferred) {cfg : SynchronousConfig} :
    synchronousConfigForShard cluster s.configOrdinal = some cfg ↔
      preferredSynchronousStandbyNames cluster s.configOrdinal ≠ [] ∧
        cfg = ⟨if sync.method = .first then str "FIRST" else str "ANY",
          min sync.number (preferredSynchronousStandbyNames cluster s.configOrdinal).length,
          preferredSynchronousStandbyNames cluster s.configOrdinal⟩ := by
  have ho : 0 ≤ s.configOrdinal := by cases s <;> simp [ShardRef.configOrdinal]
  unfold synchronousConfigForShard
  simp only [hsync, hd, if_true, true_and]
  rw [if_neg (by omega)]
  have hm : (if ((preferredSynchronousStandbyNames cluster s.configOrdinal).length : Int) < sync.number then
      ((preferredSynchronousStandbyNames cluster s.configOrdinal).length : Int) else sync.number) =
      min sync.number (preferredSynchronousStandbyNames cluster s.configOrdinal).length := by
    split <;> omega
  rw [hm]
  by_cases hn : preferredSynchronousStandbyNames cluster s.configOrdinal = []
  · simp [hn]
  · have hl : 0 < (preferredSynchronousStandbyNames cluster s.configOrdinal).length := length_pos_iff.2 hn
    rw [if_neg (by simp only [hn, or_false]; omega), Option.some.injEq, eq_comm (b := cfg)]
    simp [hn]

end Config

section Preferred

variable {cluster : SyncCluster} {s : ShardRef} {shard : ShardStatus}

theorem mem_podsOf {replicas : List ShardEndpoint} {pod : Str} :
    pod ∈ podsOf replicas true ↔ ∃ r ∈ replicas, r.ready ∧ r.pod ≠ [] ∧ r.pod = pod := by
  simp only [podsOf, mem_map, mem_filter, decide_eq_true_eq]
  constructor
  · rintro ⟨r, ⟨hr, hne, hrd⟩, rfl⟩
    exact ⟨r, hr, hrd, hne, rfl⟩
  · rintro ⟨r, hr, hrd, hne, rfl⟩
    exact ⟨r, ⟨hr, hne, hrd⟩, rfl⟩

theorem nodup_podsOf : (podsOf shard.replicas true).Nodup ↔ Distinct shard := by
  unfold podsOf Distinct
  rw [Nodup, pairwise_map, pairwise_filter]
  refine Pairwise.iff fun r r' => ?_
  simp only [decide_eq_true_eq]
  constructor
  · intro h hr hr' hne hn
    exact h ⟨hne, hr⟩ ⟨hn ▸ hne, hr'⟩ hn
  · intro h hr hr' hn
    exact h hr.2 hr'.2 hr.1 hn

/-- The names of durability `preferred` are right exactly if the entry that they come from is. -/
theorem preferred_fits_iff (hs : shardStatusByOrdinal cluster.shards s.configOrdinal = some shard) :
    ((preferredSynchronousStandbyNames cluster s.configOrdinal).Nodup ∧
      ∀ pod ∈ preferredSynchronousStandbyNames cluster s.configOrdinal, IsMember cluster s pod ∧
      IsReadyReplica cluster s pod) ↔
    Distinct shard ∧ ∀ r ∈ shard.replicas, r.ready → r.pod ≠ [] → IsMember cluster s r.pod ∧
      OwnEntryReady cluster s r.pod := by
  unfold preferredSynchronousStandbyNames
  simp only [hs, (perm_insertionSort _ _).nodup_iff, nodup_podsOf, mem_insertionSort, mem_podsOf]
  refine and_congr Iff.rfl ?_
  constructor
  · intro h r hr hrd hne
    obtain ⟨hm, hrr⟩ := h r.pod ⟨r, hr, hrd, hne, rfl⟩
    refine ⟨hm, ?_⟩
    cases s with
    | ordinal n => trivial
    | named id valid => exact hrr
  · rintro h _ ⟨r, hr, hrd, hne, rfl⟩
    obtain ⟨hm, hrr⟩ := h r hr hrd hne
    refine ⟨hm, ?_⟩
    cases s with
    | ordinal n => exact ⟨shard, hs, r, hr, rfl, hrd⟩
    | named id valid => exact hrr

end Preferred

/-- A required quorum always has the pod 0 of the shard 0, so the shard has an ordinal. -/
theorem exists_ordinal_of_required {cluster : SyncCluster} {s : ShardRef} (hr : 0 ≤ cluster.replicas)
    (h : ∀ pod ∈ requiredSynchronousStandbyNames cluster s.configOrdinal, IsMember cluster s pod) :
    ∃ n, s = .ordinal n := by
  cases s with
  | ordinal n => exact ⟨n, rfl⟩
  | named id valid =>
    have hz : memberPod (shardStatefulSetName cluster.name 0) 0 ∈
        desiredShardPodNames cluster.name 0 cluster.replicas :=
      mem_map.2 ⟨0, mem_range.2 (by omega), rfl⟩
    exact absurd (h _ (mem_required.2 (.inl hz))) (not_isMember_named 0)

section Durability

variable {cluster : SyncCluster} {sync : SynchronousSpec} {s : ShardRef} (hsync : cluster.synchronous = some sync)
  (hpos : 1 ≤ sync.number) (hle : sync.number ≤ cluster.replicas)
include hsync hpos hle

theorem namesOwnMembers_of_preferred (hd : sync.dataDurability = .preferred)
    (h : (preferredSynchronousStandbyNames cluster s.configOrdinal).Nodup ∧
      ∀ pod ∈ preferredSynchronousStandbyNames cluster s.configOrdinal,
        IsMember cluster s pod ∧ IsReadyReplica cluster s pod) : NamesOwnMembers cluster sync s := by
  refine ⟨fun cfg hc => ?_, fun ht => absurd hd ht, fun _ cfg hc => ?_⟩
  · obtain ⟨-, rfl⟩ := (config_of_preferred hsync hpos hle hd).1 hc
    exact ⟨h.1, fun pod hpd => (h.2 pod hpd).1⟩
  · obtain ⟨-, rfl⟩ := (config_of_preferred hsync hpos hle hd).1 hc
    exact ⟨min_le_right _ _, fun pod hpd => (h.2 pod hpd).2⟩

theorem namesOwnMembers_of_required {n : Nat} (hd : sync.dataDurability ≠ .preferred)
    (hs : ∀ pod ∈ statusPods cluster (.ordinal n), pod ≠ [] → IsMember cluster (.ordinal n) pod) :
    NamesOwnMembers cluster sync (.ordinal n) := by
  obtain ⟨method, hc⟩ := config_of_required hsync hpos hle hd (s := .ordinal n)
  refine ⟨fun cfg hc' => ?_, fun _ => ⟨_, hc, rfl, fun m => ?_⟩, fun hp => absurd hp hd⟩
  · rw [hc, Option.some.injEq] at hc'
    subst hc'
    refine ⟨nodup_required, fun pod hpd => ?_⟩
    obtain hds | ⟨hne, hpd⟩ := mem_required.1 hpd
    · exact isMember_desired hds
    · exact hs pod hpd hne
  · exact hle.trans (length_required_filter _ (by omega) _)

end Durability

/-- The configuration names the members of the shard exactly if the status that it is made from fits. -/
theorem names_own_members_iff (cluster : SyncCluster) (sync : SynchronousSpec)
    (hsync : cluster.synchronous = some sync)
    (hpos : 1 ≤ sync.number) (hle : sync.number ≤ cluster.replicas) (s : ShardRef) :
    NamesOwnMembers cluster sync s ↔ StatusFits cluster sync s := by
  unfold StatusFits
  split
  · rename_i hd
    constructor
    · intro h shard hs
      refine (preferred_fits_iff hs).1 ?_
      by_cases hn : preferredSynchronousStandbyNames cluster s.configOrdinal = []
      · simp [hn]
      · have hc := (config_of_preferred hsync hpos hle hd (s := s)).2 ⟨hn, rfl⟩
        have hm := h.members _ hc
        exact ⟨hm.1, fun pod hpd => ⟨hm.2 pod hpd, (h.preferred hd _ hc).2 pod hpd⟩⟩
    · intro h
      refine namesOwnMembers_of_preferred hsync hpos hle hd ?_
      cases hs : shardStatusByOrdinal cluster.shards s.configOrdinal with
      | none => simp [preferredSynchronousStandbyNames, hs]
      | some shard => exact (preferred_fits_iff hs).2 (h shard hs)
  · rename_i hd
    constructor
    · intro h
      obtain ⟨method, hc⟩ := config_of_required hsync hpos hle hd (s := s)
      have hme : ∀ pod ∈ requiredSynchronousStandbyNames cluster s.configOrdinal, IsMember cluster s pod :=
        (h.members _ hc).2
      exact ⟨exists_ordinal_of_required (by omega) hme,
        fun pod hpd hne => hme pod (mem_required.2 (.inr ⟨hne, hpd⟩))⟩
    · rintro ⟨⟨n, rfl⟩, hs⟩
      exact namesOwnMembers_of_required hsync hpos hle hd hs

private def syncDemo (durability : DataDurability) : SyncCluster where
  name := str "demo"
  replicas := 1
  synchronous := some { method := .any, number := 1, dataDurability := durability }
  shards := [{ name := str "shard-0", ordinal := 0, primary := some { pod := str "demo-shard-0-0", ready := true },
               replicas := [{ pod := str "demo-shard-0-1", ready := true }] }]

theorem names_own_members_demo :
    NamesOwnMembers (syncDemo .required) { method := .any, number := 1, dataDurability := .required }
      (.ordinal 0) := by
  refine (names_own_members_iff _ _ rfl (by decide) (by decide) _).2 ?_
  have hp : statusPods (syncDemo .required) (.ordinal 0) =
      [memberPod (str "demo-shard-0") 1, memberPod (str "demo-shard-0") 0] := by decide +kernel
  have hsts : ShardRef.statefulSet (syncDemo .required).name (.ordinal 0) = str "demo-shard-0" := by decide +kernel
  refine ⟨⟨0, rfl⟩, ?_⟩
  rw [hp]
  intro pod hd _
  rw [IsMember, hsts]
  simp only [mem_cons, not_mem_nil, or_false] at hd
  obtain rfl | rfl := hd
  · exact ⟨1, rfl⟩
  · exact ⟨0, rfl⟩

/-- The named shard `t0` waits for the members of the shard 0. -/
theorem named_shard_waits_for_shard_0 :
    synchronousConfigForShard (syncDemo .required) (ShardRef.named (str "t0") (by decide)).configOrdinal =
        some ⟨str "ANY", 1, [str "demo-shard-0-1", str "demo-shard-0-0"]⟩ ∧
      (ShardRef.named (str "t0") (by decide)).statefulSet (str "demo") = str "demo-rsd-t0" := by
  decide +kernel

end PostgresOperator.Cluster
