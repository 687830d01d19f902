import PostgresOperator.Ring.Successor
import PostgresOperator.Router.Vindex

/-!
# The owner of a key

What `ResolveShard` computes, said without its loops: a hash or a range vindex gives a key to the shard of the first
entry that contains it, and a consistent-hash vindex to the shard of the virtual node that comes next clockwise.

The ring is sorted and searched by bisection in the code; `newConsistentHashRing_eq` gives its points, the library
`Ring` the successor of a position in a sorted list, and `resolveShard_iff_owns` puts the three vindexes together.
-/

namespace PostgresOperator

open Go ChPoint List

def VirtualNode (v : VindexSpec) (rs : List ShardRangeEntry) (p : ChPoint) : Prop :=
  ∃ r ∈ rs, r.shard ≠ [] ∧ ∃ i < vnodes v,
    hashKey v.function (r.shard ++ byte ':' :: itoaNat i) = some p.hash ∧ p.shard = r.shard

def IsNode (hash : Str → UInt32) (v : VindexSpec) (rs : List ShardRangeEntry) (p : ChPoint) : Prop :=
  ∃ r ∈ rs, r.shard ≠ [] ∧ ∃ i < vnodes v, hash (r.shard ++ byte ':' :: itoaNat i) = p.hash ∧ p.shard = r.shard

/-- The order in which the virtual nodes are met clockwise from `h`. -/
def NodeClockwise (h : UInt32) (p q : ChPoint) : Prop := Ring.Clockwise (fun p => p.hash.toNat) ChPoint.le h.toNat p q

def Owns (v : VindexSpec) (rs : List ShardRangeEntry) (key s : Str) : Prop :=
  match v.type with
  | .hash | .range => ∃ e, FirstMeets (entryContains v key) rs e ∧ e.shard = s
  | .consistentHash => ∃ h p, hashKey v.function key = some h ∧ VirtualNode v rs p ∧ p.shard = s ∧
      ∀ q, VirtualNode v rs q → NodeClockwise h p q
  | .lookup | .other _ _ => False

variable {v : VindexSpec} {rs : List ShardRangeEntry} {key s : Str}

theorem owns_congr {v' : VindexSpec} (ht : v.type = v'.type) (hfn : v.type = .range ∨ v.function = v'.function)
    (hn : vnodes v = vnodes v') :
    Owns v rs key s ↔ Owns v' rs key s := by
  unfold Owns VirtualNode
  rw [← ht, ← hn]
  cases hv : v.type with
  | hash =>
    have hfn : v.function = v'.function := hfn.resolve_left (by simp [hv])
    have hc : entryContains v key = entryContains v' key := by
      funext r
      simp only [entryContains, hfn, hv, ← ht]
    simp only [hc]
  | range =>
    have hc : entryContains v key = entryContains v' key := by
      funext r
      simp only [entryContains, hv, ← ht]
    simp only [hc]
  | consistentHash =>
    have hfn : v.function = v'.function := hfn.resolve_left (by simp [hv])
    simp only [hfn]
  | lookup | other => rfl

theorem Owns.vindex_known (ho : Owns v rs key s) :
    v.type = .range ∨ (v.type = .hash ∨ v.type = .consistentHash) ∧ hashKey v.function key ≠ none := by
  unfold Owns at ho
  split at ho
  · rename_i hv
    obtain ⟨e, ⟨pre, post, -, -, he⟩, -⟩ := ho
    refine .inr ⟨.inl hv, fun hn => ?_⟩
    simp [entryContains, hv, hn] at he
  · rename_i hv
    exact .inl hv
  · rename_i hv
    obtain ⟨h, p, hkey, -⟩ := ho
    exact .inr ⟨.inr hv, by simp [hkey]⟩
  · exact ho.elim
  · exact ho.elim

/-! ### The ring -/

theorem mem_distinctShards {seen : List Str} :
    s ∈ distinctShards seen rs ↔ s ≠ [] ∧ s ∉ seen ∧ ∃ r ∈ rs, r.shard = s := by
  induction rs generalizing seen with
  | nil => simp [distinctShards]
  | cons r rs ih =>
    unfold distinctShards
    split
    · rename_i hr
      rw [mem_cons, ih]
      by_cases hs : s = r.shard
      · subst hs
        simp [hr.1, hr.2]
      · have hs' : r.shard ≠ s := fun h => hs h.symm
        simp [hs, hs']
    · rename_i hr
      rw [ih]
      refine and_congr_right fun hne => and_congr_right fun hsn => ?_
      have hs : r.shard ≠ s := by
        rintro rfl
        exact hr ⟨hne, hsn⟩
      simp [hs]

theorem vnodes_pos (v : VindexSpec) : 0 < vnodes v := by
  unfold vnodes
  split
  · decide
  · omega

theorem chPoint_le_total (p q : ChPoint) : p.le q ∨ q.le p := by
  unfold le
  rcases lt_trichotomy p.hash.toNat q.hash.toNat with h | h | h
  · exact .inl (.inl (UInt32.lt_iff_toNat_lt.2 h))
  · have heq : p.hash = q.hash := UInt32.toNat_inj.1 h
    rcases le_total p.shard q.shard with hs | hs
    · exact .inl (.inr ⟨heq, hs⟩)
    · exact .inr (.inr ⟨heq.symm, hs⟩)
  · exact .inr (.inl (UInt32.lt_iff_toNat_lt.2 h))

variable {p : ChPoint}

theorem chPoint_le_trans {q r : ChPoint} (hpq : p.le q) (hqr : q.le r) : p.le r := by
  unfold le at *
  rcases hpq with h | ⟨h, hs⟩
  · rcases hqr with h' | ⟨h', -⟩
    · exact .inl (UInt32.lt_trans h h')
    · exact .inl (h' ▸ h)
  · rcases hqr with h' | ⟨h', hs'⟩
    · exact .inl (h ▸ h')
    · exact .inr ⟨h.trans h', hs.trans hs'⟩

theorem chPoint_le_antisymm (p q : ChPoint) (hpq : p.le q) (hqp : q.le p) : p = q := by
  unfold le at *
  have hlt : ∀ a b : UInt32, a < b → ¬ b < a := fun a b hab hba => UInt32.lt_irrefl a (UInt32.lt_trans hab hba)
  rcases hpq with h | ⟨h, hs⟩
  · rcases hqp with h' | ⟨h', -⟩
    · exact absurd h' (hlt _ _ h)
    · exact absurd (h' ▸ h) (UInt32.lt_irrefl _)
  · rcases hqp with h' | ⟨-, hs'⟩
    · exact absurd (h ▸ h') (UInt32.lt_irrefl _)
    · cases p
      cases q
      simp only at h hs hs'
      rw [h, le_antisymm hs hs']

theorem chPoint_le_pos (p q : ChPoint) (hpq : p.le q) : p.hash.toNat ≤ q.hash.toNat := by
  rcases hpq with h | ⟨h, -⟩
  · exact (UInt32.lt_iff_toNat_lt.1 h).le
  · rw [h]

variable {h : UInt32}

/-- `sort.Search` on the ring finds the successor of the hash. -/
theorem lookup_of_successor {r : ConsistentHashRing}
    (hp : Ring.successor (fun p => p.hash.toNat) h.toNat r.points = some p) : r.lookup h = p.shard := by
  have ht : (fun q : ChPoint => decide (h ≤ q.hash)) = fun q => decide (h.toNat ≤ q.hash.toNat) := by
    funext q
    simp only [UInt32.le_iff_toNat_le]
  unfold ConsistentHashRing.lookup ringSearch
  unfold Ring.successor at hp
  rw [ht]
  cases hf : r.points.find? (fun q => decide (h.toNat ≤ q.hash.toNat)) with
  | some q =>
    rw [hf] at hp
    cases hp
    rfl
  | none =>
    rw [hf, Option.none_or] at hp
    cases hpo : r.points with
    | nil =>
      rw [hpo] at hp
      cases hp
    | cons q rest =>
      rw [hpo] at hp
      cases hp
      rfl

/-- The owner is the shard of the first point at or after the hash, clockwise. -/
theorem lookup_insertionSort_iff {points : List ChPoint} (hne : points ≠ []) :
    ConsistentHashRing.lookup ⟨points.insertionSort le⟩ h = s ↔
      ∃ p ∈ points, p.shard = s ∧ ∀ q ∈ points, NodeClockwise h p q := by
  have hr : (points.insertionSort le).Pairwise le := by
    have : Std.Total le := ⟨chPoint_le_total⟩
    have : IsTrans ChPoint le := ⟨fun _ _ _ => chPoint_le_trans⟩
    exact pairwise_insertionSort _ _
  have hp := perm_insertionSort le points
  have hs : ∀ p, Ring.successor (fun p => p.hash.toNat) h.toNat (points.insertionSort le) = some p ↔
      p ∈ points ∧ ∀ q ∈ points, NodeClockwise h p q := by
    intro p
    rw [Ring.successor_eq_some_iff chPoint_le_pos (fun p => (chPoint_le_total p p).elim id id) chPoint_le_antisymm
      hr, hp.mem_iff]
    refine and_congr_right fun _ => forall_congr' fun q => ?_
    rw [hp.mem_iff]
    rfl
  have hsn : points.insertionSort le ≠ [] := fun hn => hne (by simpa [hn] using hp.symm)
  have hsm : Ring.successor (fun p => p.hash.toNat) h.toNat (points.insertionSort le) ≠ none :=
    Ring.successor_ne_none hsn h.toNat
  obtain ⟨p₀, hp₀⟩ := Option.ne_none_iff_exists'.1 hsm
  constructor
  · rintro rfl
    obtain ⟨hm, hf⟩ := (hs p₀).1 hp₀
    exact ⟨p₀, hm, (lookup_of_successor hp₀).symm, hf⟩
  · rintro ⟨p, hm, rfl, hf⟩
    exact lookup_of_successor ((hs p).2 ⟨hm, hf⟩)

/-! ### `ResolveShard` finds the owner -/

variable {hash : Str → UInt32}

theorem mem_ringPoints : p ∈ ringPoints hash (vnodes v) (distinctShards [] rs) ↔ IsNode hash v rs p := by
  simp only [ringPoints, mem_flatMap, mem_map, mem_range, mem_distinctShards, IsNode]
  constructor
  · rintro ⟨s, ⟨hne, -, r, hr, rfl⟩, i, hi, rfl⟩
    exact ⟨r, hr, hne, i, hi, rfl, rfl⟩
  · rintro ⟨r, hr, hne, i, hi, hh, hs⟩
    refine ⟨r.shard, ⟨hne, by simp, r, hr, rfl⟩, i, hi, ?_⟩
    cases p
    simp only at hh hs
    rw [hh, hs]

/-- The nodes of the ring, without the code that lists them. -/
theorem virtualNode_iff (hh : ∀ s, hashKey v.function s = some (hash s)) :
    VirtualNode v rs p ↔ IsNode hash v rs p := by
  simp only [VirtualNode, IsNode, hh, Option.some.injEq]

theorem ringPoints_ne_nil (hne : distinctShards [] rs ≠ []) :
    ringPoints hash (vnodes v) (distinctShards [] rs) ≠ [] := by
  obtain ⟨s, hs⟩ := exists_mem_of_ne_nil _ hne
  refine ne_nil_of_mem (a := ⟨hash (s ++ byte ':' :: itoaNat 0), s⟩) ?_
  simp only [ringPoints, mem_flatMap, mem_map, mem_range]
  exact ⟨s, hs, 0, vnodes_pos v, rfl⟩

theorem exists_hash {fn : VindexHashFunction} (hkey : hashKey fn key = some h) :
    ∃ hash : Str → UInt32, ∀ s, hashKey fn s = some (hash s) := by
  cases fn with
  | other name hn => cases hkey
  | _ => exact ⟨_, fun _ => rfl⟩

variable {spec : ShardRangeSpec}

/-- The ring of the shards of `rs`, `none` if there are none. -/
def ringOf (hash : Str → UInt32) (v : VindexSpec) (rs : List ShardRangeEntry) : Option ConsistentHashRing :=
  if distinctShards [] rs = [] then none
  else some ⟨(ringPoints hash (vnodes v) (distinctShards [] rs)).insertionSort le⟩

/-- `NewConsistentHashRing` is `ringOf` for the hash function of the vindex, and fails if there are no shards. -/
theorem newConsistentHashRing_eq (hh : ∀ s, hashKey spec.vindex.function s = some (hash s)) :
    newConsistentHashRing spec = (ringOf hash spec.vindex spec.ranges).elim (.error .noShards) .ok := by
  have hgd : (fun s => (hashKey spec.vindex.function s).getD 0) = hash := by
    funext s
    rw [hh s, Option.getD_some]
  unfold newConsistentHashRing ringOf
  rw [← hgd]
  split
  · rename_i hl
    rw [if_pos hl]
    rfl
  · rename_i hne
    rw [if_neg hne]
    split
    · rename_i name hn hfn
      have := hh []
      rw [hfn] at this
      cases this
    · rfl

theorem newConsistentHashRing_eq_ok
    (hh : ∀ s, hashKey spec.vindex.function s = some (hash s)) (hne : distinctShards [] spec.ranges ≠ []) :
    newConsistentHashRing spec = .ok
      ⟨(ringPoints hash (vnodes spec.vindex) (distinctShards [] spec.ranges)).insertionSort le⟩ := by
  rw [newConsistentHashRing_eq hh, ringOf, if_neg hne]
  rfl

/-- The ring gives a key to the shard of its first virtual node clockwise. -/
theorem resolveConsistentHash_iff : (resolveConsistentHash [] spec key).1 = .ok s ↔
      ∃ h p, hashKey spec.vindex.function key = some h ∧ VirtualNode spec.vindex spec.ranges p ∧ p.shard = s ∧
        ∀ q, VirtualNode spec.vindex spec.ranges q → NodeClockwise h p q := by
  cases hkey : hashKey spec.vindex.function key with
  | none =>
    have he : (resolveConsistentHash [] spec key).1 ≠ .ok s := by
      unfold resolveConsistentHash
      simp only [lookup_nil, hkey]
      split <;> simp
    simp [he]
  | some h =>
    obtain ⟨hash, hh⟩ := exists_hash hkey
    by_cases hl : distinctShards [] spec.ranges = []
    · -- no shard, no virtual node
      have hn : ∀ p, ¬ VirtualNode spec.vindex spec.ranges p := by
        intro p hp
        rw [virtualNode_iff hh, ← mem_ringPoints, hl] at hp
        simp [ringPoints] at hp
      have he : (resolveConsistentHash [] spec key).1 ≠ .ok s := by
        simp [resolveConsistentHash, newConsistentHashRing, hl]
      simp [he, hn]
    · have hpo : ringPoints hash (vnodes spec.vindex) (distinctShards [] spec.ranges) ≠ [] := ringPoints_ne_nil hl
      have hlo : (resolveConsistentHash [] spec key).1 = .ok (ConsistentHashRing.lookup
          ⟨(ringPoints hash (vnodes spec.vindex) (distinctShards [] spec.ranges)).insertionSort le⟩ h) := by
        simp only [resolveConsistentHash, lookup_nil, newConsistentHashRing_eq_ok hh hl, hkey]
      rw [hlo, Except.ok.injEq, lookup_insertionSort_iff hpo]
      simp only [mem_ringPoints, virtualNode_iff hh, Option.some.injEq, exists_and_left, exists_eq_left']

/-- `ResolveShard` finds the owner of a key, for each kind of vindex. -/
theorem resolveShard_iff_owns : resolveShard spec key = .ok s ↔ Owns spec.vindex spec.ranges key s := by
  unfold Owns
  cases ht : spec.vindex.type with
  | hash => exact resolveShard_eq_ok_iff (.inl ht)
  | range => exact resolveShard_eq_ok_iff (.inr ht)
  | consistentHash =>
    rw [← resolveConsistentHash_iff]
    simp only [resolveShard, resolveShardIn, ht]
  | lookup => simp [resolveShard, resolveShardIn, ht]
  | other name hn => simp [resolveShard, resolveShardIn, ht]

end PostgresOperator
