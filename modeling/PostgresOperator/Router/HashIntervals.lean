import PostgresOperator.Intervals
import PostgresOperator.Router.Vindex

/-!
# The ranges of a hash vindex as intervals

What `resolveHash` reads in the bounds of a range is an interval of numbers.  `ValidateNoOverlap` of
`internal/router/vindex.go` compares neighbours in a list of such intervals, which is enough (`no_overlap_exact`).
-/

namespace PostgresOperator

open Go Option

variable (e : ShardRangeEntry)

def HashReadable : Prop := (parseHashBound e.lo).isSome ∧ (parseHashBound e.hi).isSome

def boundValue (s : Str) : ℕ := ((parseHashBound s).getD 0).toNat

def hashInterval : ℕ × ℕ := (boundValue e.lo, boundValue e.hi)

def HashDisjoint (rs : List ShardRangeEntry) : Prop :=
  rs.Pairwise fun a b => ∀ h, ¬ (hashContains h a = .ok true ∧ hashContains h b = .ok true)

def SameHashes (rs rs' : List ShardRangeEntry) : Prop :=
  ∀ h, (∃ e ∈ rs, hashContains h e = .ok true) ↔ ∃ e ∈ rs', hashContains h e = .ok true

section Intervals

variable {e : ShardRangeEntry} {rs : List ShardRangeEntry} {h : UInt32}

theorem boundValue_eq {s : Str} {v : UInt32} (hs : parseHashBound s = some v) : boundValue s = v.toNat := by
  rw [boundValue, hs, getD_some]

theorem boundValue_lt (s : Str) : boundValue s < 2 ^ 32 := UInt32.toNat_lt _

theorem hashContains_iff {lo hi : UInt32} (hlo : parseHashBound e.lo = some lo)
    (hhi : parseHashBound e.hi = some hi) :
    hashContains h e = .ok true ↔ lo.toNat ≤ h.toNat ∧ h.toNat ≤ hi.toNat := by
  simp [hashContains, hlo, hhi, UInt32.le_iff_toNat_le]

/-- Membership of a range is membership of an interval of numbers. -/
theorem HashReadable.contains (he : HashReadable e) (h : UInt32) :
    hashContains h e = .ok (decide (Intervals.Within (hashInterval e) h.toNat)) := by
  obtain ⟨lo, hlo⟩ := isSome_iff_exists.1 he.1
  obtain ⟨hi, hhi⟩ := isSome_iff_exists.1 he.2
  simp only [hashContains, hlo, hhi, hashInterval, boundValue_eq hlo, boundValue_eq hhi, Intervals.Within,
    UInt32.le_iff_toNat_le]

theorem HashReadable.contains_iff (he : HashReadable e) :
    hashContains h e = .ok true ↔ Intervals.Within (hashInterval e) h.toNat := by
  rw [he.contains, Except.ok.injEq, decide_eq_true_eq]

theorem hashes_iff_covers (hrs : ∀ e ∈ rs, HashReadable e) :
    (∃ e ∈ rs, hashContains h e = .ok true) ↔ Intervals.Covers (rs.map hashInterval) h.toNat := by
  simp only [Intervals.Covers, List.mem_map, exists_exists_and_eq_and]
  exact exists_congr fun e => and_congr_right fun he => (hrs e he).contains_iff

theorem lt_of_covers {x : ℕ} (hc : Intervals.Covers (rs.map hashInterval) x) : x < 2 ^ 32 := by
  obtain ⟨i, hi, hin⟩ := hc
  obtain ⟨e, -, rfl⟩ := List.mem_map.1 hi
  exact hin.2.trans_lt (boundValue_lt e.hi)

theorem covers_iff_of_hashes (hrs : ∀ e ∈ rs, HashReadable e) {a b : UInt32}
    (h : ∀ h, (∃ e ∈ rs, hashContains h e = .ok true) ↔ a ≤ h ∧ h ≤ b) (x : ℕ) :
    Intervals.Covers (rs.map hashInterval) x ↔ a.toNat ≤ x ∧ x ≤ b.toNat := by
  by_cases hx : x < 2 ^ 32
  · have hn : (UInt32.ofNat x).toNat = x := UInt32.toNat_ofNat_of_lt' hx
    rw [← hn, ← hashes_iff_covers hrs, h, UInt32.le_iff_toNat_le, UInt32.le_iff_toNat_le]
  · have hb := UInt32.toNat_lt b
    exact iff_of_false (fun hc => hx (lt_of_covers hc)) (by omega)

/-- Two lists take the same hashes if and only if their intervals cover the same numbers. -/
theorem sameHashes_iff {rs' : List ShardRangeEntry} (hrs : ∀ e ∈ rs, HashReadable e)
    (hrs' : ∀ e ∈ rs', HashReadable e) :
    SameHashes rs rs' ↔ ∀ x, Intervals.Covers (rs.map hashInterval) x ↔ Intervals.Covers
      (rs'.map hashInterval) x := by
  unfold SameHashes
  simp only [hashes_iff_covers hrs, hashes_iff_covers hrs']
  refine ⟨fun h x => ?_, fun h y => h y.toNat⟩
  by_cases hx : x < 2 ^ 32
  · have hn : (UInt32.ofNat x).toNat = x := UInt32.toNat_ofNat_of_lt' hx
    rw [← hn]
    exact h _
  · exact iff_of_false (fun hc => hx (lt_of_covers hc)) fun hc => hx (lt_of_covers hc)

theorem hashDisjoint_iff (hrs : ∀ e ∈ rs, HashReadable e) :
    HashDisjoint rs ↔ (rs.map hashInterval).Pairwise Intervals.Apart := by
  rw [HashDisjoint, List.pairwise_map]
  refine List.Pairwise.iff_of_mem fun {a b} ha hb => ?_
  constructor
  · intro h x hx
    have hlt : x < 2 ^ 32 := hx.1.2.trans_lt (boundValue_lt a.hi)
    have hn : (UInt32.ofNat x).toNat = x := UInt32.toNat_ofNat_of_lt' hlt
    rw [← hn, ← (hrs a ha).contains_iff, ← (hrs b hb).contains_iff] at hx
    exact h _ hx
  · intro h x hx
    rw [(hrs a ha).contains_iff, (hrs b hb).contains_iff] at hx
    exact h _ hx

end Intervals

/-! ### `ValidateNoOverlap` -/

/-- The errors, with the entry of `range[%s..%s]: %w` and `range[%s..%s]: lo>hi`, or the intervals of `ranges overlap:
…`. -/
inductive OverlapError
  | invalidBound (e : ShardRangeEntry)
  | loAboveHi (e : ShardRangeEntry)
  | overlap (a b : UInt32 × UInt32)
  deriving DecidableEq

def parseBounds : List ShardRangeEntry → Except OverlapError (List (UInt32 × UInt32))
  | [] => .ok []
  | e :: es => match parseHashBound e.lo, parseHashBound e.hi with
    | some lo, some hi =>
      if hi < lo then .error (.loAboveHi e)
      else match parseBounds es with
        | .error err => .error err
        | .ok parsed => .ok ((lo, hi) :: parsed)
    | _, _ => .error (.invalidBound e)

def checkNeighbours : List (UInt32 × UInt32) → Except OverlapError Unit
  | a :: b :: rest => if b.1 ≤ a.2 then .error (.overlap a b) else checkNeighbours (b :: rest)
  | _ => .ok ()

/-- `sort.Slice` by the lower bound, which may order equal ones in any way. -/
structure SliceSort where
  sort : List (UInt32 × UInt32) → List (UInt32 × UInt32)
  perm : ∀ l, (sort l).Perm l
  sorted : ∀ l, (sort l).Pairwise fun a b => a.1 ≤ b.1

def validateNoOverlap (S : SliceSort) (spec : ShardRangeSpec) : Except OverlapError Unit :=
  if spec.vindex.type ≠ .hash then .ok ()
  else match parseBounds spec.ranges with
    | .error e => .error e
    | .ok parsed => checkNeighbours (S.sort parsed)

/-- The bounds of the entry can be read, and the lower one is not above the upper one. -/
def ValidRange : Prop :=
  ∃ lo hi, parseHashBound e.lo = some lo ∧ parseHashBound e.hi = some hi ∧ lo ≤ hi

theorem ValidRange.readable {e : ShardRangeEntry} (h : ValidRange e) : HashReadable e := by
  obtain ⟨lo, hi, hlo, hhi, -⟩ := h
  simp [HashReadable, hlo, hhi]

theorem ValidRange.le {e : ShardRangeEntry} (h : ValidRange e) : (hashInterval e).1 ≤ (hashInterval e).2 := by
  obtain ⟨lo, hi, hlo, hhi, hle⟩ := h
  rw [hashInterval, boundValue_eq hlo, boundValue_eq hhi]
  exact UInt32.le_iff_toNat_le.1 hle

def natInterval (i : UInt32 × UInt32) : ℕ × ℕ := (i.1.toNat, i.2.toNat)

/-- Bounds that are parsed are valid ranges. -/
theorem parseBounds_ok {rs : List ShardRangeEntry} {parsed : List (UInt32 × UInt32)}
    (h : parseBounds rs = .ok parsed) :
    (∀ e ∈ rs, ValidRange e) ∧ parsed.map natInterval = rs.map hashInterval := by
  induction rs generalizing parsed with
  | nil =>
    cases h
    simp
  | cons e es ih =>
    unfold parseBounds at h
    split at h
    · rename_i lo hi hlo hhi
      split at h
      · cases h
      rename_i hle
      split at h
      · cases h
      rename_i rest hr
      cases h
      obtain ⟨hv, hm⟩ := ih hr
      refine ⟨?_, by simp [natInterval, hashInterval, boundValue_eq hlo, boundValue_eq hhi, hm]⟩
      simpa using ⟨⟨lo, hi, hlo, hhi, UInt32.not_lt.1 hle⟩, hv⟩
    · cases h

theorem exists_parseBounds {rs : List ShardRangeEntry} (h : ∀ e ∈ rs, ValidRange e) :
    ∃ parsed, parseBounds rs = .ok parsed := by
  induction rs with
  | nil => exact ⟨[], rfl⟩
  | cons e es ih =>
    obtain ⟨lo, hi, hlo, hhi, hle⟩ := h e List.mem_cons_self
    obtain ⟨rest, hr⟩ := ih fun e' he' => h e' (List.mem_cons_of_mem e he')
    exact ⟨(lo, hi) :: rest, by simp [parseBounds, hlo, hhi, UInt32.not_lt.2 hle, hr]⟩

/-- The pass over the sorted ranges compares neighbours only. -/
theorem checkNeighbours_ok_iff {l : List (UInt32 × UInt32)} :
    checkNeighbours l = .ok () ↔ (l.map natInterval).IsChain fun a b => a.2 < b.1 := by
  fun_induction checkNeighbours l with
  | case1 a b rest hle => simp [natInterval, UInt32.le_iff_toNat_le.1 hle]
  | case2 a b rest hle ih =>
    have hlt := UInt32.lt_iff_toNat_lt.1 (UInt32.not_le.1 hle)
    simpa [natInterval, hlt] using ih
  | case3 l hl =>
    rcases l with _ | ⟨a, _ | ⟨b, rest⟩⟩
    · simp
    · simp
    · exact absurd rfl (hl a b rest)

/-- The validation accepts exactly the valid ranges that share no hash. -/
theorem validateNoOverlap_ok_iff (S : SliceSort) {spec : ShardRangeSpec} (hh : spec.vindex.type = .hash) :
    validateNoOverlap S spec = .ok () ↔ (∀ e ∈ spec.ranges, ValidRange e) ∧ HashDisjoint spec.ranges := by
  unfold validateNoOverlap
  rw [if_neg (not_not.2 hh)]
  have hc : ∀ parsed, parseBounds spec.ranges = .ok parsed →
      (checkNeighbours (S.sort parsed) = .ok () ↔ HashDisjoint spec.ranges) := by
    intro parsed hr
    obtain ⟨hv, hm⟩ := parseBounds_ok hr
    have hp : ((S.sort parsed).map natInterval).Perm (spec.ranges.map hashInterval) :=
      hm ▸ (S.perm parsed).map natInterval
    have hle : ∀ i ∈ (S.sort parsed).map natInterval, i.1 ≤ i.2 := by
      intro i hi
      obtain ⟨e, he, rfl⟩ := List.mem_map.1 (hp.subset hi)
      exact (hv e he).le
    have hs : ((S.sort parsed).map natInterval).Pairwise fun a b => a.1 ≤ b.1 := by
      rw [List.pairwise_map]
      exact (S.sorted parsed).imp UInt32.le_iff_toNat_le.1
    rw [checkNeighbours_ok_iff, Intervals.isChain_iff_pairwise_apart hle hs,
      hp.pairwise_iff fun h => Intervals.Apart.symm h, hashDisjoint_iff fun e he => (hv e he).readable]
  split
  · rename_i e he
    refine iff_of_false (by rintro ⟨⟩) fun h => ?_
    obtain ⟨parsed, hr⟩ := exists_parseBounds h.1
    rw [he] at hr
    cases hr
  · rename_i parsed hr
    rw [hc parsed hr]
    exact (and_iff_right (parseBounds_ok hr).1).symm

/-! ### Order of the ranges -/

/-- If the ranges share no key, their order does not matter. -/
theorem firstMatch_perm {rs rs' : List ShardRangeEntry} (hp : rs.Perm rs') (hr : ∀ e ∈ rs, ∃ b, contains e = .ok b)
    (ho : rs.Pairwise fun a b => ¬ (contains a = .ok true ∧ contains b = .ok true)) :
    firstMatch contains rs = firstMatch contains rs' := by
  induction hp with
  | nil => rfl
  | cons a _ ih =>
    rw [firstMatch, firstMatch, ih (fun e he => hr e (List.mem_cons_of_mem a he)) (List.pairwise_cons.1 ho).2]
  | swap a b l =>
    obtain ⟨x, hx⟩ := hr a (by simp)
    obtain ⟨y, hy⟩ := hr b (by simp)
    have hn := (List.pairwise_cons.1 ho).1 a List.mem_cons_self
    cases x <;> cases y <;> simp [firstMatch, hx, hy] at hn ⊢
  | trans h₁ _ ih₁ ih₂ =>
    rw [ih₁ hr ho]
    refine ih₂ (fun e he => hr e (h₁.mem_iff.2 he)) ((h₁.pairwise_iff fun {a b} h hab => h hab.symm).1 ho)

/-- `ValidateNoOverlap` accepts exactly the lists of pairwise disjoint intervals, and then the order of the entries
does not matter to `ResolveShard`. -/
theorem no_overlap_exact (S : SliceSort) (spec : ShardRangeSpec) (hhash : spec.vindex.type = .hash) :
    (validateNoOverlap S spec = .ok () ↔ (∀ e ∈ spec.ranges, ValidRange e) ∧ HashDisjoint spec.ranges) ∧
      (validateNoOverlap S spec = .ok () → ∀ ranges, ranges.Perm spec.ranges → ∀ key,
        resolveShard { spec with ranges } key = resolveShard spec key) := by
  refine ⟨validateNoOverlap_ok_iff S hhash, fun hok ranges hp key => ?_⟩
  obtain ⟨hv, hd⟩ := (validateNoOverlap_ok_iff S hhash).1 hok
  simp only [resolveShard, resolveShardIn, hhash, resolveHash]
  cases hashKey spec.vindex.function key with
  | none => rfl
  | some h =>
    have hm := firstMatch_perm hp.symm
      (fun e he => ⟨_, (hv e he).readable.contains h⟩) (hd.imp fun hab => hab h)
    simp only [hm]

def insertionSortByLo : SliceSort where
  sort l := l.insertionSort fun a b => a.1 ≤ b.1
  perm l := List.perm_insertionSort _ l
  sorted l := List.pairwise_insertionSort _ l

theorem no_overlap_halves :
    let spec : ShardRangeSpec :=
      { vindex := { type := .hash }
        ranges := [⟨"0x80000000", "0xffffffff", "b"⟩, ⟨"0", "7fffffff", "a"⟩] }
    HashDisjoint spec.ranges ∧ ∀ key, resolveShard { spec with ranges := spec.ranges.reverse } key =
      resolveShard spec key := by
  intro spec
  have hok : validateNoOverlap insertionSortByLo spec = .ok () := by decide +kernel
  have he := no_overlap_exact insertionSortByLo spec rfl
  exact ⟨(he.1.1 hok).2, he.2 hok _ (List.reverse_perm _)⟩

end PostgresOperator
