import PostgresOperator.Cluster.Aggregate
import PostgresOperator.Go.Decimal

/-!
# Names of the objects of a shard

`names.go` and the lease names of `election/lease.go`.  Every name is the name of the cluster, a dash, and a text for
the shard; the dash may also stand in the name of the cluster and in the ID of the shard.
-/

namespace PostgresOperator.Cluster

open Go List

variable (cluster c : Str)

def shardPrimaryServiceName (shardName : Str) : Str := cluster ++ str "-" ++ shardName ++ str "-primary"

def primaryLeaseName (role : Str) (shardOrdinal : Int) : Option Str :=
  if role ≠ str "shard" then none
  else if shardOrdinal < 0 then none
  else some (cluster ++ str "-shard-" ++ itoa shardOrdinal ++ str "-primary")

def reshardTargetLeaseName (shardID : Str) : Option Str :=
  if shardID = [] then none else some (cluster ++ str "-rsd-" ++ shardID ++ str "-primary")

/-- A shard of a cluster, by its ordinal or by the ID that a split gave to it. -/
inductive ShardRef
  | ordinal (n : Nat)
  | named (id : Str) (valid : validShardID id)

namespace ShardRef

def statefulSet : ShardRef → Str
  | ordinal n => shardStatefulSetName cluster n
  | named id _ => targetShardStatefulSetName cluster id

def headlessService : ShardRef → Str
  | ordinal n => shardServiceName cluster n
  | named id _ => targetShardServiceName cluster id

def shardName : ShardRef → Str
  | ordinal n => shardIDForOrdinal n
  | named id _ => id

def lease : ShardRef → Option Str
  | ordinal n => primaryLeaseName cluster (str "shard") n
  | named id _ => reshardTargetLeaseName cluster id

def segment : ShardRef → Str
  | ordinal n => shardIDForOrdinal n
  | named id _ => str "rsd-" ++ id

end ShardRef

/-- No object of the one shard has the name of an object of the same kind of the other one. -/
def NamesDiffer (c' : Str) (s s' : ShardRef) : Prop :=
  s.statefulSet c ≠ s'.statefulSet c' ∧ s.headlessService c ≠ s'.headlessService c' ∧
    shardPrimaryServiceName c s.shardName ≠ shardPrimaryServiceName c' s'.shardName ∧
    s.headlessService c ≠ shardPrimaryServiceName c' s'.shardName ∧
    shardPrimaryServiceName c s.shardName ≠ s'.headlessService c' ∧ s.lease c ≠ s'.lease c'

/-- The cluster `c` continues the name `c'` by a dash and a text with which `t'` begins; the rest of `t'` is `t`. -/
def Overlaps (c' t t' : Str) : Prop := ∃ x, c = c' ++ str "-" ++ x ∧ t' = x ++ str "-" ++ t

/-- Neither cluster continues the other one with the beginning of a shard of that one, and in one cluster no named
shard has the name of a shard with an ordinal. -/
def NamesApart (c' : Str) (s s' : ShardRef) : Prop :=
  ¬ Overlaps c c' s.segment s'.segment ∧ ¬ Overlaps c' c s'.segment s.segment ∧
    ¬ Overlaps c c' s.shardName s'.shardName ∧ ¬ Overlaps c' c s'.shardName s.shardName ∧
      (c = c' → s.shardName ≠ s'.shardName)

/-! ### Where the dash can be -/

/-- Two composed names agree in three ways only. -/
theorem append_dash_eq_iff {c c' t t' : Str} :
    c ++ str "-" ++ t = c' ++ str "-" ++ t' ↔ c = c' ∧ t = t' ∨ Overlaps c c' t t' ∨ Overlaps c' c t' t := by
  have hd : str "-" = [byte '-'] := by decide
  simp only [Overlaps, hd, append_assoc, singleton_append]
  constructor
  · intro h
    obtain ⟨x, rfl, hx⟩ | ⟨x, rfl, hx⟩ := append_eq_append_iff.1 h
    · cases x with
      | nil => exact .inl ⟨by simp, by simpa using hx⟩
      | cons d x =>
        obtain ⟨rfl, ht⟩ := cons.inj hx
        exact .inr (.inr ⟨x, rfl, ht⟩)
    · cases x with
      | nil => exact .inl ⟨by simp, by simpa using hx.symm⟩
      | cons d x =>
        obtain ⟨rfl, ht⟩ := cons.inj hx
        exact .inr (.inl ⟨x, rfl, ht⟩)
  · rintro (⟨rfl, rfl⟩ | ⟨x, rfl, rfl⟩ | ⟨x, rfl, rfl⟩)
    · rfl
    · simp
    · simp

theorem segments :
    str "-shard-" = str "-" ++ str "shard-" ∧ str "-rsd-" = str "-" ++ str "rsd-" := by decide

theorem statefulSet_eq (s : ShardRef) : s.statefulSet c = c ++ str "-" ++ s.segment := by
  cases s with
  | ordinal n => simp [ShardRef.statefulSet, ShardRef.segment, shardStatefulSetName, shardIDForOrdinal, segments]
  | named id valid => simp [ShardRef.statefulSet, ShardRef.segment, targetShardStatefulSetName, segments]

theorem headlessService_eq (s : ShardRef) : s.headlessService c = s.statefulSet c ++ str "-headless" := by
  cases s with
  | ordinal n => rfl
  | named id valid => rfl

theorem lease_eq (s : ShardRef) : s.lease c = some (s.statefulSet c ++ str "-primary") := by
  cases s with
  | ordinal n =>
    have hn : ¬ ((n : Int) < 0) := by omega
    simp [ShardRef.lease, primaryLeaseName, hn, ShardRef.statefulSet, shardStatefulSetName]
  | named id valid =>
    have hid : id ≠ [] := by
      rintro rfl
      cases valid
    simp [ShardRef.lease, reshardTargetLeaseName, hid, ShardRef.statefulSet, targetShardStatefulSetName]

/-- A shard is known by the last part of its name. -/
theorem segment_injective : Function.Injective ShardRef.segment := by
  have hs : str "shard-" = byte 's' :: str "hard-" := by decide
  have hr : str "rsd-" = byte 'r' :: str "sd-" := by decide
  have hne : byte 's' ≠ byte 'r' := by decide
  intro s s' h
  cases s with
  | ordinal n =>
    cases s' with
    | ordinal m =>
      have hnm := itoa_injective (append_cancel_left h)
      rw [Int.natCast_inj.1 hnm]
    | named id valid =>
      rw [ShardRef.segment, ShardRef.segment, shardIDForOrdinal, hs, hr] at h
      exact absurd (cons.inj h).1 hne
  | named id valid =>
    cases s' with
    | ordinal m =>
      rw [ShardRef.segment, ShardRef.segment, shardIDForOrdinal, hs, hr] at h
      exact absurd (cons.inj h).1.symm hne
    | named id' valid' =>
      cases append_cancel_left h
      rfl

theorem headless_ne_primary (a b : Str) : a ++ str "-headless" ≠ b ++ str "-primary" := by
  intro h
  have hl := congrArg getLast? h
  have hh : str "-headless" = str "-headles" ++ [byte 's'] := by decide
  have hp : str "-primary" = str "-primar" ++ [byte 'y'] := by decide
  rw [hh, hp, ← append_assoc, ← append_assoc, getLast?_concat, getLast?_concat] at hl
  exact absurd hl (by decide)

/-- The names of two shards differ exactly if no dash can be read in two ways. -/
theorem names_differ_iff (c c' : Str) (s s' : ShardRef) (hne : (c, s) ≠ (c', s')) :
    NamesDiffer c c' s s' ↔ NamesApart c c' s s' := by
  have hg : s.statefulSet c ≠ s'.statefulSet c' ↔
      ¬ Overlaps c c' s.segment s'.segment ∧ ¬ Overlaps c' c s'.segment s.segment := by
    have hsm : ¬ (c = c' ∧ s.segment = s'.segment) := by
      rintro ⟨rfl, hs⟩
      exact hne (by rw [segment_injective hs])
    rw [Ne, statefulSet_eq, statefulSet_eq, append_dash_eq_iff, or_iff_right hsm, not_or]
  have hp : shardPrimaryServiceName c s.shardName ≠ shardPrimaryServiceName c' s'.shardName ↔
      ¬ Overlaps c c' s.shardName s'.shardName ∧ ¬ Overlaps c' c s'.shardName s.shardName ∧
        (c = c' → s.shardName ≠ s'.shardName) := by
    rw [Ne, shardPrimaryServiceName, shardPrimaryServiceName, append_left_inj, append_dash_eq_iff, not_or, not_or,
      not_and]
    tauto
  have hm : ∀ (d d' : Str) (r r' : ShardRef), r.headlessService d ≠ shardPrimaryServiceName d' r'.shardName := by
    intro d d' r r'
    rw [headlessService_eq]
    exact headless_ne_primary _ _
  unfold NamesDiffer NamesApart
  rw [headlessService_eq, headlessService_eq, lease_eq, lease_eq, hp]
  simp only [ne_eq, append_left_inj, Option.some.injEq]
  rw [← headlessService_eq, ← headlessService_eq]
  have h1 := hm c c' s s'
  have h2 := (hm c' c s' s).symm
  tauto

theorem names_differ_demo :
    NamesDiffer (str "demo") (str "demo") (.ordinal 0) (.ordinal 1) := by
  refine (names_differ_iff _ _ _ _ (by simp)).2 ?_
  have hs : ∀ t t', ¬ Overlaps (str "demo") (str "demo") t t' := by
    rintro t t' ⟨x, hx, -⟩
    have hl := congrArg length hx
    have hd : (str "-").length = 1 := by decide
    simp only [length_append, hd] at hl
    omega
  exact ⟨hs _ _, hs _ _, hs _ _, hs _ _, fun _ => by decide⟩

/-- The shard `b-shard-0` of `a` and the shard 0 of `a-rsd-b` have one StatefulSet, one headless Service and one
lease; the shard `shard-0` of `a` and its shard 0 have one primary Service. -/
theorem names_collide :
    let split := ShardRef.named (str "b-shard-0") (by decide)
    split.statefulSet (str "a") = (ShardRef.ordinal 0).statefulSet (str "a-rsd-b") ∧
      split.headlessService (str "a") = (ShardRef.ordinal 0).headlessService (str "a-rsd-b") ∧
      split.lease (str "a") = (ShardRef.ordinal 0).lease (str "a-rsd-b") ∧
      shardPrimaryServiceName (str "a") (ShardRef.named (str "shard-0") (by decide)).shardName =
        shardPrimaryServiceName (str "a") (ShardRef.ordinal 0).shardName := by
  decide +kernel

end PostgresOperator.Cluster
