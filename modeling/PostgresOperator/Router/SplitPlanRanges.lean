import PostgresOperator.Router.HashIntervals
import PostgresOperator.Router.SplitPlan

/-!
# What an accepted split plan says about hashes

`ValidateSplitPlan` compares texts, `resolveHash` the numbers that `parseHashBound` reads in them: decimal without a
prefix, octal after a leading zero, hexadecimal where nothing else fits.  A plan that passed therefore divides the
hashes of the sources only where the two agree (`split_plan_divides_iff`).  They always do for bounds that are written
as `0x` and eight lower-case hexadecimal digits, as `formatHashBound` writes them, and for these the check is exact
(`split_plan_exact`).
-/

namespace PostgresOperator

open Go List

def isLowerHex (c : UInt8) : Bool := decide ('0' ≤ c ∧ c ≤ '9') || decide ('a' ≤ c ∧ c ≤ 'f')

def LowerHex (s : Str) : Prop := ∃ ds, s = "0x" ++ ds ∧ ∀ c ∈ ds, isLowerHex c

def hexValue (ds : Str) : Nat := ds.foldl (fun n c => n * 16 + (digitValue c).getD 0) 0

/-- A range with hexadecimal bounds of which the lower one is not above the upper one. -/
def HexRange (e : ShardRangeEntry) : Prop :=
  LowerHex e.lo ∧ LowerHex e.hi ∧ ∃ lo hi, parseHashBound e.lo = some lo ∧ parseHashBound e.hi = some hi ∧ lo ≤ hi

/-! ### Reading digits -/

theorem lowerHex_byte {c : UInt8} (hc : isLowerHex c) : c ≠ '_' ∧
    (48 ≤ c.toNat ∧ c.toNat ≤ 57 ∧ digitValue c = some (c.toNat - 48) ∨
      97 ≤ c.toNat ∧ c.toNat ≤ 102 ∧ digitValue c = some (c.toNat - 87)) := by
  revert hc
  revert c
  rw [forall_byte_iff]
  decide +kernel

def hexDigit (c : UInt8) : Nat := (digitValue c).getD 0

theorem hexDigit_lt {c : UInt8} (hc : isLowerHex c) : digitValue c = some (hexDigit c) ∧ hexDigit c < 16 := by
  unfold hexDigit
  rcases (lowerHex_byte hc).2 with ⟨_, _, hd⟩ | ⟨_, _, hd⟩ <;> rw [hd, Option.getD_some] <;> exact ⟨rfl, by omega⟩

theorem hexValue_cons (c : UInt8) (ds : Str) : hexValue (c :: ds) = hexDigit c * 16 ^ ds.length + hexValue ds := by
  have hf : ∀ (ds : Str) (n : Nat), ds.foldl (fun n c => n * 16 + (digitValue c).getD 0) n =
      n * 16 ^ ds.length + hexValue ds := by
    intro ds
    induction ds with
    | nil => simp [hexValue]
    | cons c ds ih =>
      intro n
      rw [hexValue, foldl_cons, foldl_cons, ih, ih (0 * 16 + _), length_cons, Nat.pow_succ, Nat.zero_mul,
        Nat.zero_add, Nat.add_mul, Nat.mul_assoc, Nat.mul_comm 16, Nat.add_assoc]
  rw [hexValue, foldl_cons, hf, Nat.zero_mul, Nat.zero_add, hexDigit]

theorem hexDigit_mono {c c' : UInt8} (h : c < c') (hc : isLowerHex c) (hc' : isLowerHex c') :
    hexDigit c + 1 ≤ hexDigit c' := by
  rw [UInt8.lt_iff_toNat_lt] at h
  unfold hexDigit
  rcases (lowerHex_byte hc).2 with ⟨_, _, hd⟩ | ⟨_, _, hd⟩ <;>
    rcases (lowerHex_byte hc').2 with ⟨_, _, hd'⟩ | ⟨_, _, hd'⟩ <;>
    rw [hd, hd', Option.getD_some, Option.getD_some] <;> omega

section Digits

variable {ds ds' : Str}

theorem hexValue_lt (hds : ∀ c ∈ ds, isLowerHex c) : hexValue ds < 16 ^ ds.length := by
  induction ds with
  | nil => simp [hexValue]
  | cons c ds ih =>
    have hc := (hexDigit_lt (hds c mem_cons_self)).2
    have hr := ih fun c' hc' => hds c' (mem_cons_of_mem c hc')
    have hm : (hexDigit c + 1) * 16 ^ ds.length ≤ 16 * 16 ^ ds.length := Nat.mul_le_mul_right _ hc
    rw [hexValue_cons, length_cons, Nat.pow_succ]
    rw [Nat.add_mul] at hm
    omega

/-- Bounds of the same width are ordered as texts like their numbers. -/
theorem lt_iff_hexValue_lt (hl : ds.length = ds'.length) (hds : ∀ c ∈ ds, isLowerHex c)
    (hds' : ∀ c ∈ ds', isLowerHex c) : ds < ds' ↔ hexValue ds < hexValue ds' := by
  induction ds generalizing ds' with
  | nil =>
    obtain rfl := length_eq_zero_iff.1 hl.symm
    simp
  | cons c ds ih =>
    cases ds' with
    | nil => cases hl
    | cons c' ds' =>
      have hl' : ds.length = ds'.length := Nat.succ.inj hl
      have hr : ∀ x ∈ ds, isLowerHex x := fun x hx => hds x (mem_cons_of_mem c hx)
      have hr' : ∀ x ∈ ds', isLowerHex x := fun x hx => hds' x (mem_cons_of_mem c' hx)
      have hb := hexValue_lt hr
      have hb' := hexValue_lt hr'
      rw [cons_lt_cons_iff, ih hl' hr hr', hexValue_cons, hexValue_cons, ← hl']
      rw [← hl'] at hb'
      rcases lt_trichotomy c c' with hlt | rfl | hlt
      · have hm := Nat.mul_le_mul_right (16 ^ ds.length)
          (hexDigit_mono hlt (hds c mem_cons_self) (hds' c' mem_cons_self))
        rw [Nat.add_mul] at hm
        simp only [hlt, true_or, true_iff]
        omega
      · simp
      · have hm := Nat.mul_le_mul_right (16 ^ ds.length)
          (hexDigit_mono hlt (hds' c' mem_cons_self) (hds c mem_cons_self))
        rw [Nat.add_mul] at hm
        simp only [hlt.not_gt, hlt.ne', false_and, or_self, false_iff]
        omega

theorem hexValue_inj (hl : ds.length = ds'.length) (hds : ∀ c ∈ ds, isLowerHex c)
    (hds' : ∀ c ∈ ds', isLowerHex c) (h : hexValue ds = hexValue ds') : ds = ds' := by
  rcases lt_trichotomy ds ds' with hlt | heq | hlt
  · exact absurd ((lt_iff_hexValue_lt hl hds hds').1 hlt) (by omega)
  · exact heq
  · exact absurd ((lt_iff_hexValue_lt hl.symm hds' hds).1 hlt) (by omega)

/-- `strconv.ParseUint` on digits reads their value, or fails if it is too large. -/
theorem parseDigits_lowerHex {maxVal n : Nat} {u : Bool} (hds : ∀ c ∈ ds, isLowerHex c) (hn : n ≤ maxVal) :
    parseDigits true 16 maxVal n u ds =
      if n * 16 ^ ds.length + hexValue ds ≤ maxVal then some (n * 16 ^ ds.length + hexValue ds, u) else none := by
  induction ds generalizing n with
  | nil => simp [parseDigits, hexValue, hn]
  | cons c ds ih =>
    obtain ⟨hd, hlt⟩ := hexDigit_lt (hds c mem_cons_self)
    have hv : n * 16 ^ (c :: ds).length + hexValue (c :: ds) = (n * 16 + hexDigit c) * 16 ^ ds.length +
        hexValue ds := by
      rw [hexValue_cons, length_cons, Nat.pow_succ, Nat.add_mul, Nat.mul_assoc, Nat.mul_comm 16, Nat.add_assoc]
    rw [parseDigits, if_neg (fun h => (lowerHex_byte (hds c mem_cons_self)).1 h.1), hd, hv]
    simp only [Nat.not_le.2 hlt, if_false]
    split
    · rename_i ho
      have hp : n * 16 + hexDigit c ≤ (n * 16 + hexDigit c) * 16 ^ ds.length :=
        Nat.le_mul_of_pos_right _ (Nat.pow_pos (by decide))
      rw [if_neg (by omega)]
    · exact ih (fun c' hc' => hds c' (mem_cons_of_mem c hc')) (by omega)

theorem parseHashBound_hex (hne : ds ≠ []) (hds : ∀ c ∈ ds, isLowerHex c) :
    parseHashBound ("0x" ++ ds) = if hexValue ds ≤ 4294967295 then some (UInt32.ofNat (hexValue ds)) else none := by
  have hx : str "0x" = [byte '0', byte 'x'] := by decide
  have hm : 2 ^ 32 - 1 = 4294967295 := by decide
  have hb : parseUint ("0x" ++ ds) 16 32 = none := by
    have hd : parseDigits false 16 (2 ^ 32 - 1) 0 false ('0' :: 'x' :: ds) = none := by
      have hz : digitValue '0' = some 0 := by decide
      have ht : digitValue 'x' = some 33 := by decide
      simp [parseDigits, hz, ht]
    rw [hx, parseUint]
    simp only [cons_append, nil_append, hm] at hd ⊢
    simp [hd]
  have hp : parseUint ("0x" ++ ds) 0 32 = if hexValue ds ≤ 4294967295 then some (hexValue ds) else none := by
    obtain ⟨d, ds, rfl⟩ := exists_cons_of_ne_nil hne
    have hbs : detectBase ("0x" ++ d :: ds) = (16, d :: ds) := by
      have hl : lower 'x' ≠ 'b' ∧ lower 'x' ≠ 'o' ∧ lower 'x' = 'x' := by decide
      simp only [hx, cons_append, nil_append, detectBase, if_true, if_neg hl.1, if_neg hl.2.1, if_pos hl.2.2]
    have hd := @parseDigits_lowerHex _ 4294967295 0 false hds (Nat.zero_le _)
    rw [Nat.zero_mul, Nat.zero_add] at hd
    simp only [parseUint, hbs, if_pos, hm, BEq.rfl, hd]
    rw [if_neg (by simp [hx])]
    by_cases hle : hexValue (d :: ds) ≤ 4294967295 <;> simp [hle]
  rw [parseHashBound, hb, hp]
  by_cases hle : hexValue ds ≤ 4294967295 <;> simp [hle]

theorem parseHashBound_lowerHex (hds : ∀ c ∈ ds, isLowerHex c) {v : UInt32}
    (h : parseHashBound ("0x" ++ ds) = some v) : v.toNat = hexValue ds := by
  by_cases hne : ds = []
  · have hn : parseHashBound (str "0x" ++ []) = none := by decide
    rw [hne, hn] at h
    cases h
  · rw [parseHashBound_hex hne hds] at h
    split at h
    · cases h
      exact UInt32.toNat_ofNat_of_lt' (Nat.lt_succ_of_le ‹_›)
    · cases h

end Digits

/-! ### The text after another -/

theorem hexValue_append (ds : Str) (c : UInt8) : hexValue (ds ++ [c]) = hexValue ds * 16 + hexDigit c := by
  rw [hexValue, foldl_append]
  rfl

/-- `hexSuccessor` adds one, with carry, within the width of the text. -/
theorem succDigits_spec {r : Str} (hr : ∀ c ∈ r, isLowerHex c) :
    (∀ out, succDigits r = some out → out.length = r.length ∧ (∀ c ∈ out, isLowerHex c) ∧
      hexValue out.reverse = hexValue r.reverse + 1) ∧
      (succDigits r = none → hexValue r.reverse + 1 = 16 ^ r.length) := by
  have hs : ∀ c : UInt8, ('0' ≤ c ∧ c < '9') ∨ ('a' ≤ c ∧ c < 'f') →
      hexDigit (c + 1) = hexDigit c + 1 ∧ isLowerHex (c + 1) := by
    rw [forall_byte_iff]
    decide +kernel
  have ho : ∀ c : UInt8, isLowerHex c → c ≠ '9' → c ≠ 'f' →
      ('0' ≤ c ∧ c < '9') ∨ ('a' ≤ c ∧ c < 'f') := by
    rw [forall_byte_iff]
    decide +kernel
  induction r with
  | nil => exact ⟨by rintro out ⟨⟩, fun _ => rfl⟩
  | cons c r ih =>
    obtain ⟨ihsome, ihnone⟩ := ih fun c' hc' => hr c' (mem_cons_of_mem c hc')
    have hrs : ∀ c' ∈ r, isLowerHex c' := fun c' hc' => hr c' (mem_cons_of_mem c hc')
    unfold succDigits
    simp only [reverse_cons, hexValue_append]
    split_ifs with hd hn hf
    · refine ⟨?_, by rintro ⟨⟩⟩
      rintro out ⟨⟩
      obtain ⟨hv, hl⟩ := hs c hd
      refine ⟨rfl, by simpa using ⟨hl, hrs⟩, ?_⟩
      rw [reverse_cons, hexValue_append, hv, Nat.add_assoc]
    · refine ⟨?_, by rintro ⟨⟩⟩
      rintro out ⟨⟩
      refine ⟨rfl, by simpa using ⟨by decide, hrs⟩, ?_⟩
      have hv : hexDigit 'a' = hexDigit '9' + 1 := by decide
      rw [reverse_cons, hexValue_append, hv, hn, Nat.add_assoc]
    · have hc : hexDigit 'f' = 15 ∧ hexDigit '0' = 0 := by decide
      constructor
      · intro out ht
        obtain ⟨rest, hsc, rfl⟩ := Option.map_eq_some_iff.1 ht
        obtain ⟨hln, hl, hv⟩ := ihsome rest hsc
        refine ⟨by simp [hln], by simpa using ⟨by decide, hl⟩, ?_⟩
        rw [reverse_cons, hexValue_append, hv, hf, hc.1, hc.2]
        omega
      · intro hnn
        have ha := ihnone (Option.map_eq_none_iff.1 hnn)
        rw [hf, hc.1, length_cons, Nat.pow_succ, ← ha]
        omega
    · exact absurd (ho c (hr c mem_cons_self) hn hf) hd

theorem hexSuccessor_hex (ds : Str) :
    hexSuccessor ("0x" ++ ds) = "0x" ++ ((succDigits ds.reverse).map reverse).getD ds := by
  have hx : str "0x" = [byte '0', byte 'x'] := by decide
  simp only [hx, cons_append, nil_append, hexSuccessor, and_self, if_true]
  cases succDigits ds.reverse <;> rfl

/-- Adjacent bounds are consecutive numbers. -/
theorem toNat_of_adjacent {hi lo : Str} (hhi : LowerHex hi) (hlo : LowerHex lo) (hne : hi < lo) (hj : adjacent hi lo)
    {a b : UInt32} (ha : parseHashBound hi = some a) (hb : parseHashBound lo = some b) : b.toNat = a.toNat + 1 := by
  obtain ⟨ds, rfl, hds⟩ := hhi
  obtain ⟨ds', rfl, hds'⟩ := hlo
  rw [parseHashBound_lowerHex hds ha, parseHashBound_lowerHex hds' hb]
  have hs : hexSuccessor ("0x" ++ ds) = "0x" ++ ds' := by simpa [adjacent] using hj
  rw [hexSuccessor_hex] at hs
  have hsp := (succDigits_spec fun c hc => hds c (mem_reverse.1 hc)).1
  cases ho : succDigits ds.reverse with
  | none =>
    rw [ho] at hs
    exact absurd hne (hs ▸ lt_irrefl _)
  | some out =>
    rw [ho, Option.map_some, Option.getD_some] at hs
    have hv := (hsp out ho).2.2
    rwa [append_cancel_left hs, reverse_reverse] at hv

/-! ### Spans -/

theorem HexRange.valid {e : ShardRangeEntry} (h : HexRange e) : ValidRange e := h.2.2

/-- Ranges that pass the check follow one upon the other. -/
theorem checkSpan_next {prev : ShardRangeEntry} {rs : List ShardRangeEntry} (hrs : ∀ e ∈ prev :: rs, HexRange e)
    (hs : checkSpan prev rs = .ok ()) : ((prev :: rs).map hashInterval).IsChain Intervals.Next := by
  induction rs generalizing prev with
  | nil => simp
  | cons r rs ih =>
    unfold checkSpan at hs
    split_ifs at hs with hv ho hg
    obtain ⟨-, hh, _, phi, -, hp, -⟩ := hrs prev mem_cons_self
    obtain ⟨hh', -, rlo, _, hr, -⟩ := hrs r (mem_cons_of_mem prev mem_cons_self)
    refine isChain_cons_cons.2 ⟨?_, ih (fun e he => hrs e (mem_cons_of_mem prev he)) hs⟩
    change boundValue r.lo = boundValue prev.hi + 1
    rw [boundValue_eq hr, boundValue_eq hp]
    exact toNat_of_adjacent hh hh' (not_le.1 ho) (by simpa using hg) hp hr

theorem contiguousSpan_eq_ok {ranges : List ShardRangeEntry} {lo hi : Str}
    (h : contiguousSpan ranges = .ok (lo, hi)) :
    ∃ r rs, sortByLo ranges = r :: rs ∧ ¬ r.hi < r.lo ∧ checkSpan r rs = .ok () ∧ lo = r.lo ∧
      hi = ((r :: rs).getLast (by simp)).hi := by
  unfold contiguousSpan at h
  split at h
  · cases h
  rename_i r rs hs
  split at h
  · cases h
  rename_i hle
  split at h
  · cases h
  rename_i hc
  cases h
  exact ⟨r, rs, hs, hle, hc, rfl, rfl⟩

/-- A contiguous span is what its ranges cover, each hash once. -/
theorem contiguousSpan_hashes {ranges : List ShardRangeEntry} (hrs : ∀ e ∈ ranges, HexRange e) {lo hi : Str}
    (hs : contiguousSpan ranges = .ok (lo, hi)) :
    HashDisjoint ranges ∧ ∀ h, (∃ e ∈ ranges, hashContains h e = .ok true) ↔
      boundValue lo ≤ h.toNat ∧ h.toNat ≤ boundValue hi := by
  obtain ⟨r, rs, hr, -, hc, rfl, rfl⟩ := contiguousSpan_eq_ok hs
  have hp : (r :: rs).Perm ranges := hr ▸ perm_insertionSort _ _
  have hv : ∀ e ∈ ranges, ValidRange e := fun e he => (hrs e he).valid
  have hle : ∀ i ∈ (r :: rs).map hashInterval, i.1 ≤ i.2 := by
    intro i hi
    obtain ⟨e, he, rfl⟩ := mem_map.1 hi
    exact (hv e (hp.subset he)).le
  have hn := checkSpan_next (fun e he => hrs e (hp.subset he)) hc
  have hm := hp.map hashInterval
  constructor
  · rw [hashDisjoint_iff fun e he => (hv e he).readable, ← hm.pairwise_iff fun h => Intervals.Apart.symm h]
    exact Intervals.pairwise_apart_of_next hle hn
  · intro h
    have hcv : Intervals.Covers ((r :: rs).map hashInterval) h.toNat ↔ boundValue r.lo ≤ h.toNat ∧
        h.toNat ≤ (((r :: rs).map hashInterval).getLast (by simp)).2 := Intervals.covers_of_next hle hn _
    rw [getLast_map] at hcv
    rw [hashes_iff_covers fun e he => (hv e he).readable]
    refine Iff.trans ?_ hcv
    simp only [Intervals.Covers, hm.mem_iff]

/-! ### What the check does not see -/

/-- The intervals that `resolveHash` reads in the ranges, in the order in which `contiguousSpan` looks at them. -/
def readings (rs : List ShardRangeEntry) : List (ℕ × ℕ) := (sortByLo rs).map hashInterval

/-- The numbers where a plan that passed may go wrong: the ends of the plan, and the places where a range is read as
empty or the text that `hexSuccessor` puts after a bound is not read as the number after it. -/
def misreadAt (sources targets : List ShardRangeEntry) : List ℕ :=
  Intervals.ends (readings sources) ++ Intervals.breaks (readings sources) ++ Intervals.breaks (readings targets)

/-- Where bounds are misread, they are misread alike in the sources and in the targets. -/
def MisreadAlike (sources targets : List ShardRangeEntry) : Prop :=
  ∀ n ∈ misreadAt sources targets,
    (Intervals.Covers (readings sources) n ↔ Intervals.Covers (readings targets) n) ∧
      Intervals.times (readings targets) n ≤ 1

theorem spans_of_validateSplitPlan {sources targets : List ShardRangeEntry}
    (h : validateSplitPlan sources targets = .ok ()) :
    ∃ lo hi, contiguousSpan sources = .ok (lo, hi) ∧ contiguousSpan targets = .ok (lo, hi) := by
  unfold validateSplitPlan at h
  split at h
  · cases h
  rename_i sLo sHi hs
  split at h
  · cases h
  rename_i tLo tHi ht
  split_ifs at h with hen
  rw [not_or, not_not, not_not] at hen
  exact ⟨sLo, sHi, hs, by rw [ht, hen.1, hen.2]⟩

theorem covers_readings (rs : List ShardRangeEntry) (n : ℕ) :
    Intervals.Covers (readings rs) n ↔ Intervals.Covers (rs.map hashInterval) n := by
  simp only [Intervals.Covers, readings, sortByLo, ((perm_insertionSort _ rs).map hashInterval).mem_iff]

theorem hashDisjoint_iff_times {rs : List ShardRangeEntry} (hrs : ∀ e ∈ rs, HashReadable e) :
    HashDisjoint rs ↔ ∀ n, Intervals.times (readings rs) n ≤ 1 := by
  rw [hashDisjoint_iff hrs, ← Intervals.pairwise_apart_iff]
  exact ((perm_insertionSort _ rs).map hashInterval).symm.pairwise_iff fun h => Intervals.Apart.symm h

private def entry (lo hi shard : String) : ShardRangeEntry := ⟨str lo, str hi, str shard⟩

def Canonical (s : Str) : Prop := ∃ ds, s = "0x" ++ ds ∧ ds.length = 8 ∧ ∀ c ∈ ds, isLowerHex c

/-- The ranges are not empty and pairwise disjoint, and together they are the interval from `a` to `b`. -/
def Tiles (rs : List ShardRangeEntry) (a b : UInt32) : Prop :=
  (∀ e ∈ rs, ∃ h, hashContains h e = .ok true) ∧ HashDisjoint rs ∧ ∀ h, (∃ e ∈ rs, hashContains h e = .ok true) ↔
    a ≤ h ∧ h ≤ b

section Canonical

variable {s t : Str} {ds : Str} {e : ShardRangeEntry} {rs : List ShardRangeEntry} {a b : UInt32}

theorem parseHashBound_canonical (hl : ds.length = 8) (hds : ∀ c ∈ ds, isLowerHex c) :
    parseHashBound ("0x" ++ ds) = some (UInt32.ofNat (hexValue ds)) ∧ boundValue ("0x" ++ ds) = hexValue ds := by
  have hlt : hexValue ds < 2 ^ 32 := by simpa [hl] using hexValue_lt hds
  have hp : parseHashBound ("0x" ++ ds) = some (UInt32.ofNat (hexValue ds)) := by
    rw [parseHashBound_hex (by rintro rfl; cases hl) hds, if_pos (by omega)]
  exact ⟨hp, (boundValue_eq hp).trans (UInt32.toNat_ofNat_of_lt' hlt)⟩

theorem Canonical.lt_iff (hs : Canonical s) (ht : Canonical t) : s < t ↔ boundValue s < boundValue t := by
  obtain ⟨ds, rfl, hl, hds⟩ := hs
  obtain ⟨ds', rfl, hl', hds'⟩ := ht
  have hx : str "0x" = [byte '0', byte 'x'] := by decide
  rw [(parseHashBound_canonical hl hds).2, (parseHashBound_canonical hl' hds').2,
    ← lt_iff_hexValue_lt (hl.trans hl'.symm) hds hds']
  simp [hx]

theorem Canonical.inj (hs : Canonical s) (ht : Canonical t) (h : boundValue s = boundValue t) : s = t := by
  rcases lt_trichotomy s t with hlt | heq | hlt
  · exact absurd ((hs.lt_iff ht).1 hlt) (by omega)
  · exact heq
  · exact absurd ((ht.lt_iff hs).1 hlt) (by omega)

theorem Canonical.le_iff (hs : Canonical s) (ht : Canonical t) : s ≤ t ↔ boundValue s ≤ boundValue t := by
  rw [← not_lt, ht.lt_iff hs, not_lt]

theorem Canonical.adjacent (hs : Canonical s) (ht : Canonical t) (h : boundValue t = boundValue s + 1) :
    adjacent s t := by
  obtain ⟨ds, rfl, hle, hds⟩ := hs
  obtain ⟨ds', rfl, hle', hds'⟩ := ht
  rw [(parseHashBound_canonical hle hds).2, (parseHashBound_canonical hle' hds').2] at h
  obtain ⟨hsm, hn⟩ := succDigits_spec (r := ds.reverse) fun c hc => hds c (mem_reverse.1 hc)
  rw [PostgresOperator.adjacent, beq_iff_eq, hexSuccessor_hex]
  cases ho : succDigits ds.reverse with
  | none =>
    have ha := hn ho
    have hlt := hexValue_lt hds'
    rw [reverse_reverse, length_reverse, hle] at ha
    rw [hle'] at hlt
    omega
  | some out =>
    obtain ⟨hln, hl, hv⟩ := hsm out ho
    rw [reverse_reverse, ← h] at hv
    rw [length_reverse, hle] at hln
    rw [Option.map_some, Option.getD_some, hexValue_inj (by rw [length_reverse, hln, hle'])
      (fun c hc => hl c (mem_reverse.1 hc)) hds' hv]

theorem hexRange_of_canonical (hlo : Canonical e.lo) (hhi : Canonical e.hi) (hle : e.lo ≤ e.hi) : HexRange e := by
  have hle' := (hlo.le_iff hhi).1 hle
  obtain ⟨ds, hs, hl, hds⟩ := hlo
  obtain ⟨ds', ht, hl', hds'⟩ := hhi
  have hp := parseHashBound_canonical hl hds
  have hp' := parseHashBound_canonical hl' hds'
  rw [hs, ht, boundValue_eq hp.1, boundValue_eq hp'.1] at hle'
  exact ⟨⟨ds, hs, hds⟩, ⟨ds', ht, hds'⟩, _, _, hs ▸ hp.1, ht ▸ hp'.1, UInt32.le_iff_toNat_le.2 hle'⟩

theorem checkSpan_of_next {prev : ShardRangeEntry} (hc : ∀ e ∈ prev :: rs, Canonical e.lo ∧ Canonical e.hi)
    (hle : ∀ e ∈ rs, e.lo ≤ e.hi) (h : ((prev :: rs).map hashInterval).IsChain Intervals.Next) :
      checkSpan prev rs = .ok () := by
  induction rs generalizing prev with
  | nil => rfl
  | cons r rs ih =>
    obtain ⟨hn, hch⟩ := isChain_cons_cons.1 h
    have hn : boundValue r.lo = boundValue prev.hi + 1 := hn
    have hhi := (hc prev mem_cons_self).2
    have hlo := (hc r (mem_cons_of_mem prev mem_cons_self)).1
    have hlt : prev.hi < r.lo := (hhi.lt_iff hlo).2 (by omega)
    rw [checkSpan, if_neg (hle r mem_cons_self).not_gt, if_neg hlt.not_ge, if_neg (by simp [hhi.adjacent hlo hn])]
    exact ih (fun e he => hc e (mem_cons_of_mem prev he)) (fun e he => hle e (mem_cons_of_mem r he)) hch

theorem le_of_checkSpan {prev : ShardRangeEntry} (h : checkSpan prev rs = .ok ()) : ∀ e ∈ rs, e.lo ≤ e.hi := by
  induction rs generalizing prev with
  | nil => simp
  | cons r rs ih =>
    unfold checkSpan at h
    split_ifs at h with hv
    intro e he
    rcases mem_cons.1 he with rfl | he
    · exact not_lt.1 hv
    · exact ih h e he

theorem tiles_of_contiguousSpan (hc : ∀ e ∈ rs, Canonical e.lo ∧ Canonical e.hi)
    (h : contiguousSpan rs = .ok (s, t)) :
    ∃ a b, parseHashBound s = some a ∧ parseHashBound t = some b ∧ Tiles rs a b := by
  obtain ⟨r, rs', hs, hf, hch, rfl, rfl⟩ := contiguousSpan_eq_ok h
  have hp : (r :: rs').Perm rs := hs ▸ perm_insertionSort _ _
  have hh : ∀ e ∈ rs, HexRange e := by
    intro e he
    refine hexRange_of_canonical (hc e he).1 (hc e he).2 ?_
    rcases mem_cons.1 (hp.mem_iff.2 he) with rfl | he
    · exact not_lt.1 hf
    · exact le_of_checkSpan hch e he
  obtain ⟨hd, hu⟩ := contiguousSpan_hashes hh h
  obtain ⟨-, -, a, -, ha, -⟩ := hh r (hp.subset mem_cons_self)
  obtain ⟨-, -, -, b, -, hb, -⟩ := hh _ (hp.subset (getLast_mem (cons_ne_nil r rs')))
  rw [boundValue_eq ha, boundValue_eq hb] at hu
  refine ⟨a, b, ha, hb, fun e he => ?_, hd, fun x => ?_⟩
  · obtain ⟨lo, hi, hlo, hhi, hle⟩ := (hh e he).valid
    exact ⟨lo, by simp [hashContains, hlo, hhi, hle]⟩
  · rw [hu, UInt32.le_iff_toNat_le, UInt32.le_iff_toNat_le]

theorem contiguousSpan_of_tiles (hc : ∀ e ∈ rs, Canonical e.lo ∧ Canonical e.hi) (hne : rs ≠ []) (h : Tiles rs a b) :
    ∃ s t, contiguousSpan rs = .ok (s, t) ∧ Canonical s ∧ Canonical t ∧ boundValue s = a.toNat ∧
      boundValue t = b.toNat := by
  obtain ⟨hnn, hd, hu⟩ := h
  have hre : ∀ e ∈ rs, HashReadable e := by
    intro e he
    obtain ⟨⟨ds, hs, hln, hds⟩, ds', ht, hln', hds'⟩ := hc e he
    simp [HashReadable, hs, ht, parseHashBound_canonical hln hds, parseHashBound_canonical hln' hds']
  have hle : ∀ e ∈ rs, (hashInterval e).1 ≤ (hashInterval e).2 := by
    intro e he
    obtain ⟨x, hx⟩ := hnn e he
    have hin := (hre e he).contains_iff.1 hx
    exact hin.1.trans hin.2
  obtain ⟨r, rs', hsr⟩ : ∃ r rs', sortByLo rs = r :: rs' := by
    refine exists_cons_of_ne_nil fun hnl => hne ?_
    exact eq_nil_of_length_eq_zero (by simpa [sortByLo] using congrArg length hnl)
  have hp : (r :: rs').Perm rs := hsr ▸ perm_insertionSort _ _
  have hc' : ∀ e ∈ r :: rs', Canonical e.lo ∧ Canonical e.hi := fun e he => hc e (hp.subset he)
  have hm := hp.map hashInterval
  have hle' : ∀ i ∈ (r :: rs').map hashInterval, i.1 ≤ i.2 := by
    intro i hi
    obtain ⟨e, he, rfl⟩ := mem_map.1 hi
    exact hle e (hp.subset he)
  have ho : ((r :: rs').map hashInterval).Pairwise fun i j => i.1 ≤ j.1 := by
    have hpa : (r :: rs').Pairwise fun x y => x.lo ≤ y.lo := hsr ▸ pairwise_insertionSort _ _
    rw [pairwise_map]
    exact hpa.imp_of_mem fun hx hy hxy => ((hc' _ hx).1.le_iff (hc' _ hy).1).1 hxy
  have ha := (hm.pairwise_iff fun h => Intervals.Apart.symm h).2 ((hashDisjoint_iff hre).1 hd)
  have hv : ∀ x, Intervals.Covers ((r :: rs').map hashInterval) x ↔ a.toNat ≤ x ∧ x ≤ b.toNat := by
    intro x
    rw [← covers_iff_of_hashes hre hu]
    simp only [Intervals.Covers, hm.mem_iff]
  have hn := Intervals.next_of_covers hle' ho ha hv
  have hch : checkSpan r rs' = .ok () :=
    checkSpan_of_next hc' (fun e he => ((hc' e (mem_cons_of_mem r he)).1.le_iff (hc' e (mem_cons_of_mem r he)).2).2
      (hle e (hp.subset (mem_cons_of_mem r he)))) hn
  have hr : r ∈ r :: rs' := mem_cons_self
  have hl : (r :: rs').getLast (by simp) ∈ r :: rs' := getLast_mem _
  refine ⟨r.lo, ((r :: rs').getLast (by simp)).hi, ?_, (hc' r hr).1, (hc' _ hl).2, ?_⟩
  · unfold contiguousSpan
    simp only [hsr, hch]
    rw [if_neg (not_lt.2 (((hc' r hr).1.le_iff (hc' r hr).2).2 (hle r (hp.subset hr))))]
  · have hen : ∀ x, a.toNat ≤ x ∧ x ≤ b.toNat ↔
        boundValue r.lo ≤ x ∧ x ≤ (((r :: rs').map hashInterval).getLast (by simp)).2 :=
      fun x => (hv x).symm.trans (Intervals.covers_of_next hle' hn x)
    have hf : Intervals.Covers ((r :: rs').map hashInterval) (boundValue r.lo) :=
      ⟨hashInterval r, mem_map_of_mem hr, le_refl _, hle r (hp.subset hr)⟩
    rw [getLast_map] at hen
    exact Intervals.ends_unique hen ((hen _).1 ((hv _).1 hf)).2

theorem Tiles.perm (h : Tiles rs a b) {rs' : List ShardRangeEntry} (hp : rs'.Perm rs) : Tiles rs' a b := by
  obtain ⟨hn, hd, hu⟩ := h
  refine ⟨fun e he => hn e (hp.subset he), ?_, fun h => ?_⟩
  · exact (hp.pairwise_iff fun {x y} hxy h hb => hxy h hb.symm).2 hd
  · rw [← hu]
    simp only [hp.mem_iff]

/-- The check on canonical bounds: both lists share out the same span. -/
theorem validateSplitPlan_ok_iff {sources targets : List ShardRangeEntry} (hsou : sources ≠ []) (hr : targets ≠ [])
    (hc : ∀ e ∈ sources ++ targets, Canonical e.lo ∧ Canonical e.hi) :
    validateSplitPlan sources targets = .ok () ↔ ∃ a b, Tiles sources a b ∧ Tiles targets a b := by
  have hcs : ∀ e ∈ sources, Canonical e.lo ∧ Canonical e.hi := fun e he => hc e (mem_append_left _ he)
  have hct : ∀ e ∈ targets, Canonical e.lo ∧ Canonical e.hi := fun e he => hc e (mem_append_right _ he)
  constructor
  · intro h
    obtain ⟨lo, hi, hso, hta⟩ := spans_of_validateSplitPlan h
    obtain ⟨a, b, ha, hb, htl⟩ := tiles_of_contiguousSpan hcs hso
    obtain ⟨a', b', ha', hb', htl'⟩ := tiles_of_contiguousSpan hct hta
    rw [ha] at ha'
    rw [hb] at hb'
    cases ha'
    cases hb'
    exact ⟨a, b, htl, htl'⟩
  · rintro ⟨a, b, htl, htl'⟩
    obtain ⟨s, t, hsp, hs, ht, hsa, htb⟩ := contiguousSpan_of_tiles hcs hsou htl
    obtain ⟨s', t', hsp', hs', ht', hsa', htb'⟩ := contiguousSpan_of_tiles hct hr htl'
    unfold validateSplitPlan
    rw [hsp, hsp', hs.inj hs' (hsa.trans hsa'.symm), ht.inj ht' (htb.trans htb'.symm)]
    simp

end Canonical

/-- With bounds of eight digits `ValidateSplitPlan` accepts exactly the plans whose sources and targets tile the same
interval, in whatever order they are given. -/
theorem split_plan_exact (sources targets : List ShardRangeEntry) (hsources : sources ≠ []) (htargets : targets ≠ [])
    (hcanon : ∀ e ∈ sources ++ targets, Canonical e.lo ∧ Canonical e.hi) :
    (validateSplitPlan sources targets = .ok () ↔ ∃ a b, Tiles sources a b ∧ Tiles targets a b) ∧
      ∀ sources' targets', sources'.Perm sources → targets'.Perm targets →
        (validateSplitPlan sources' targets' = .ok () ↔ validateSplitPlan sources targets = .ok ()) := by
  refine ⟨validateSplitPlan_ok_iff hsources htargets hcanon, fun sources' targets' hs ht => ?_⟩
  have hne : sources' ≠ [] := fun h => hsources (nil_perm.1 (h ▸ hs))
  have hne' : targets' ≠ [] := fun h => htargets (nil_perm.1 (h ▸ ht))
  rw [validateSplitPlan_ok_iff hsources htargets hcanon,
    validateSplitPlan_ok_iff hne hne' fun e he => hcanon e ((hs.append ht).subset he)]
  constructor
  · rintro ⟨a, b, h, h'⟩
    exact ⟨a, b, h.perm hs.symm, h'.perm ht.symm⟩
  · rintro ⟨a, b, h, h'⟩
    exact ⟨a, b, h.perm hs, h'.perm ht⟩

theorem split_plan_exact_halves :
    ∃ a b, Tiles [entry "0x00000000" "0xffffffff" "s"] a b ∧
      Tiles [entry "0x80000000" "0xffffffff" "t1", entry "0x00000000" "0x7fffffff" "t0"] a b := by
  have hc : ∀ e ∈ [entry "0x00000000" "0xffffffff" "s"] ++
      [entry "0x80000000" "0xffffffff" "t1", entry "0x00000000" "0x7fffffff" "t0"],
      Canonical e.lo ∧ Canonical e.hi := by
    intro e he
    refine ⟨⟨e.lo.drop 2, ?_⟩, e.hi.drop 2, ?_⟩ <;> revert e <;> decide +kernel
  exact (split_plan_exact _ _ (by simp) (by simp) hc).1.1 (by decide +kernel)

end PostgresOperator
