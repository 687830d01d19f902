import PostgresOperator.Go.Fmt
import PostgresOperator.Reshard.Plan
import PostgresOperator.Router.SplitPlanRanges

/-!
# Halving a range

`SplitHashRange` of `internal/router/resharding.go` and `computeHashSplitTargets` of
`internal/controller/autosplit.go`: a range of hashes is cut in the middle, whatever notation its bounds have, and the
halves get bounds of eight digits.
-/

namespace PostgresOperator

open Go List

/-- The errors of `SplitHashRange`; the last one is `ErrHashRangeTooSmall`. -/
inductive SplitRangeError
  | invalidLo (bound : Str)
  | invalidHi (bound : Str)
  | loAboveHi (lo hi : UInt32)
  | tooSmall
  deriving DecidableEq

def formatHashBound (v : UInt32) : Str := "0x" ++ hex 8 v.toNat

variable (lo hi : Str) (entry : ShardRangeEntry)

def splitHashRange : Except SplitRangeError (Str × Str × Str × Str) :=
  match parseHashBound lo with
  | none => .error (.invalidLo lo)
  | some l => match parseHashBound hi with
    | none => .error (.invalidHi hi)
    | some h =>
      if h < l then .error (.loAboveHi l h)
      else if h = l then .error .tooSmall
      else
        let mid := l + (h - l) / 2
        .ok (formatHashBound l, formatHashBound mid, formatHashBound (mid + 1), formatHashBound h)

/-- The low 24 bits of the checksum that `shortRangeHash` writes. -/
def rangeChecksum : Nat := (crc32IEEE (lo ++ "-" ++ hi) &&& 0xffffff).toNat

def shortRangeHash : Str := hex 6 (rangeChecksum lo hi)

/-! ### Hexadecimal digits -/

theorem digitChar_lowerHex {d : Nat} (hd : d < 16) :
    isLowerHex d.digitChar.toUInt8 ∧ hexDigit d.digitChar.toUInt8 = d := by
  have ha : ∀ d : Fin 16, isLowerHex d.val.digitChar.toUInt8 ∧ hexDigit d.val.digitChar.toUInt8 = d.val := by
    decide +kernel
  exact ha ⟨d, hd⟩

theorem toDigits_lowerHex (n : Nat) :
    (∀ c ∈ (Nat.toDigits 16 n).map Char.toUInt8, isLowerHex c) ∧ hexValue
    ((Nat.toDigits 16 n).map Char.toUInt8) = n := by
  induction n using Nat.strong_induction_on with
  | _ n ih =>
    rw [Nat.toDigits_eq_if (by decide)]
    split
    · rename_i hlt
      obtain ⟨hl, hv⟩ := digitChar_lowerHex hlt
      exact ⟨by simpa using hl, by simpa [hexValue, hexDigit] using hv⟩
    · obtain ⟨hr, hv⟩ := ih (n / 16) (by omega)
      obtain ⟨hl, hd⟩ := digitChar_lowerHex (Nat.mod_lt n (by decide : 0 < 16))
      rw [map_append, map_singleton]
      refine ⟨?_, by rw [hexValue_append, hv, hd]; omega⟩
      intro c hc
      rcases mem_append.1 hc with hc | hc
      · exact hr c hc
      · rw [mem_singleton.1 hc]
        exact hl

theorem hex_spec {width n : Nat} (hw : 0 < width) (hn : n < 16 ^ width) :
    (hex width n).length = width ∧ (∀ c ∈ hex width n, isLowerHex c) ∧ hexValue (hex width n) = n := by
  obtain ⟨hl, hv⟩ := toDigits_lowerHex n
  have hln := (Nat.length_toDigits_le_iff (b := 16) (by decide) hw).2 hn
  have hz : ∀ k, hexValue (replicate k (byte '0') ++ (Nat.toDigits 16 n).map Char.toUInt8) = n := by
    intro k
    induction k with
    | zero => exact hv
    | succ k ih =>
      have hzr : hexDigit '0' = 0 := by decide
      rw [replicate_succ, cons_append, hexValue_cons, hzr, Nat.zero_mul, Nat.zero_add, ih]
  refine ⟨by simp [hex]; omega, ?_, hz _⟩
  intro c hc
  rcases mem_append.1 hc with hc | hc
  · rw [eq_of_mem_replicate hc]
    decide
  · exact hl c hc

/-- A formatted bound reads back as itself. -/
theorem canonical_formatHashBound (v : UInt32) :
    Canonical (formatHashBound v) ∧ parseHashBound (formatHashBound v) = some v ∧ boundValue
      (formatHashBound v) = v.toNat := by
  obtain ⟨hn, hl, hv⟩ := @hex_spec 8 _ (by decide) (UInt32.toNat_lt v)
  obtain ⟨hp, hb⟩ := parseHashBound_canonical hn hl
  rw [hv] at hp hb
  exact ⟨⟨_, rfl, hn, hl⟩, by rw [formatHashBound, hp, UInt32.ofNat_toNat], hb⟩

theorem shortRangeHash_spec : (shortRangeHash lo hi).length = 6 ∧
    (∀ c ∈ shortRangeHash lo hi, isLowerHex c) ∧ hexValue (shortRangeHash lo hi) = rangeChecksum lo hi := by
  refine hex_spec (by decide) ?_
  have hle : (crc32IEEE (lo ++ "-" ++ hi) &&& 0xffffff).toNat ≤ 0xffffff := by
    rw [UInt32.toNat_and]
    exact Nat.and_le_right
  exact Nat.lt_succ_of_le hle

/-! ### `computeHashSplitTargets` -/

def halfID (half : Char) : Str := "as" ++ shortRangeHash entry.lo entry.hi ++ [byte half]

theorem validShardID_halfID {haf : Char} (hh : haf = 'a' ∨ haf = 'b') :
    validShardID (halfID entry haf) := by
  obtain ⟨hn, hlw, -⟩ := shortRangeHash_spec entry.lo entry.hi
  have has : str "as" = [byte 'a', byte 's'] := by decide
  have ha : ∀ c, isLowerHex c → (decide (byte 'a' ≤ c ∧ c ≤ byte 'z') || decide (byte '0' ≤ c ∧ c ≤ byte '9')) := by
    rw [forall_byte_iff]
    decide +kernel
  have hf : (decide (byte 'a' ≤ byte 'a' ∧ byte 'a' ≤ byte 'z')) := by decide
  have hl : isLowerHex (byte haf) := by rcases hh with rfl | rfl <;> decide
  simp only [validShardID, halfID, has, cons_append, nil_append, head?_cons, Option.any_some, hf, Bool.true_and,
    Bool.and_eq_true, decide_eq_true_eq]
  refine ⟨⟨?_, ?_⟩, by simp [hn]⟩
  · simp only [← cons_append, getLast?_append, getLast?_singleton, Option.some_or, Option.any_some]
    exact ha _ hl
  · rw [all_eq_true]
    intro c hc
    simp only [mem_cons, mem_append, not_mem_nil, or_false] at hc
    rcases hc with rfl | rfl | hc | rfl
    · decide
    · decide
    · rw [ha c (hlw c hc), Bool.true_or]
    · rw [ha _ hl, Bool.true_or]

def halfTarget (half : Char) (hhalf : half = 'a' ∨ half = 'b') (lo hi : Str) : ShardSplitTarget where
  shardID := halfID entry half
  ranges := [⟨lo, hi, halfID entry half⟩]
  valid := validShardID_halfID entry hhalf

def computeHashSplitTargets : Except SplitRangeError (List ShardSplitTarget) :=
  match splitHashRange entry.lo entry.hi with
  | .error e => .error e
  | .ok (lo0, hi0, lo1, hi1) => .ok [halfTarget entry 'a' (.inl rfl) lo0 hi0, halfTarget entry 'b' (.inr rfl) lo1 hi1]

def Halves (rs rs' : List ShardRangeEntry) : Prop :=
  ∃ before e after ts, rs = before ++ e :: after ∧ computeHashSplitTargets e = .ok ts ∧
    rs' = before ++ flattenTargetRanges ts ++ after

/-- The midpoint is computed without overflow. -/
theorem midpoint_toNat {l h : UInt32} (hlt : l < h) : (l + (h - l) / 2).toNat = l.toNat + (h.toNat - l.toNat) / 2 ∧
    (l + (h - l) / 2 + 1).toNat = l.toNat + (h.toNat - l.toNat) / 2 + 1 := by
  rw [UInt32.lt_iff_toNat_lt] at hlt
  have hh := UInt32.toNat_lt h
  have hs : (h - l).toNat = h.toNat - l.toNat := UInt32.toNat_sub_of_le _ _ (UInt32.le_iff_toNat_le.2 hlt.le)
  have ht : (2 : UInt32).toNat = 2 := rfl
  have ho : (1 : UInt32).toNat = 1 := rfl
  have hm : (l + (h - l) / 2).toNat = l.toNat + (h.toNat - l.toNat) / 2 := by
    rw [UInt32.toNat_add, UInt32.toNat_div, hs, ht]
    omega
  refine ⟨hm, ?_⟩
  rw [UInt32.toNat_add, hm, ho]
  omega

section Halving

variable {e : ShardRangeEntry} {ts : List ShardSplitTarget} {l h : UInt32}

theorem computeHashSplitTargets_of_lt (hlo : parseHashBound e.lo = some l) (hhi : parseHashBound e.hi = some h)
    (hlt : l < h) :
    computeHashSplitTargets e = .ok
      [halfTarget e 'a' (.inl rfl) (formatHashBound l) (formatHashBound (l + (h - l) / 2)),
        halfTarget e 'b' (.inr rfl) (formatHashBound (l + (h - l) / 2 + 1)) (formatHashBound h)] := by
  have hne : h ≠ l := fun heq => absurd hlt (heq ▸ UInt32.lt_irrefl _)
  simp only [computeHashSplitTargets, splitHashRange, hlo, hhi, UInt32.not_lt.2 (UInt32.le_of_lt hlt), hne, if_false]

theorem lt_of_ok (hlo : parseHashBound e.lo = some l) (hhi : parseHashBound e.hi = some h)
    (hts : computeHashSplitTargets e = .ok ts) : l < h := by
  simp only [computeHashSplitTargets, splitHashRange, hlo, hhi] at hts
  by_contra hlt
  rcases UInt32.lt_or_eq_of_le (UInt32.not_lt.1 hlt) with hgt | heq
  · simp [hgt] at hts
  · simp [heq] at hts

theorem readable_of_ok (hts : computeHashSplitTargets e = .ok ts) : HashReadable e := by
  simp only [computeHashSplitTargets, splitHashRange] at hts
  cases hlo : parseHashBound e.lo with
  | none => simp [hlo] at hts
  | some l => cases hhi : parseHashBound e.hi with
    | none => simp [hlo, hhi] at hts
    | some h => simp [HashReadable, hlo, hhi]

/-- The halves share the range out between them. -/
theorem tiles_halves (hlo : parseHashBound e.lo = some l) (hhi : parseHashBound e.hi = some h)
    (hts : computeHashSplitTargets e = .ok ts) : Tiles (flattenTargetRanges ts) l h := by
  have hlt := lt_of_ok hlo hhi hts
  rw [computeHashSplitTargets_of_lt hlo hhi hlt] at hts
  cases hts
  obtain ⟨hm, hn⟩ := midpoint_toNat hlt
  rw [UInt32.lt_iff_toNat_lt] at hlt
  have hf : ∀ x, hashContains x ⟨formatHashBound l, formatHashBound (l + (h - l) / 2), halfID e 'a'⟩ = .ok true ↔
      l.toNat ≤ x.toNat ∧ x.toNat ≤ (l + (h - l) / 2).toNat :=
    fun x => hashContains_iff (canonical_formatHashBound _).2.1 (canonical_formatHashBound _).2.1
  have hs : ∀ x, hashContains x ⟨formatHashBound (l + (h - l) / 2 + 1), formatHashBound h, halfID e 'b'⟩ = .ok true ↔
      (l + (h - l) / 2 + 1).toNat ≤ x.toNat ∧ x.toNat ≤ h.toNat :=
    fun x => hashContains_iff (canonical_formatHashBound _).2.1 (canonical_formatHashBound _).2.1
  refine ⟨?_, ?_, fun x => ?_⟩
  · simp only [flattenTargetRanges, halfTarget, flatMap_cons, flatMap_nil, cons_append, nil_append,
      mem_cons, not_mem_nil, or_false, forall_eq_or_imp, forall_eq]
    exact ⟨⟨l, (hf l).2 (by omega)⟩, h, (hs h).2 (by omega)⟩
  · simp only [flattenTargetRanges, halfTarget, flatMap_cons, flatMap_nil, cons_append, nil_append,
      HashDisjoint, pairwise_pair, hf, hs]
    omega
  · simp only [flattenTargetRanges, halfTarget, flatMap_cons, flatMap_nil, cons_append, nil_append,
      mem_cons, not_mem_nil, or_false, exists_eq_or_imp, exists_eq_left, hf, hs, UInt32.le_iff_toNat_le]
    omega

theorem Halves.sameHashes {rs rs' : List ShardRangeEntry} (hs : Halves rs rs') : SameHashes rs' rs := by
  obtain ⟨before, e, after, ts, rfl, hts, rfl⟩ := hs
  obtain ⟨l, hlo⟩ := Option.isSome_iff_exists.1 (readable_of_ok hts).1
  obtain ⟨h, hhi⟩ := Option.isSome_iff_exists.1 (readable_of_ok hts).2
  intro x
  have hh := (tiles_halves hlo hhi hts).2.2 x
  rw [UInt32.le_iff_toNat_le, UInt32.le_iff_toNat_le, ← hashContains_iff hlo hhi] at hh
  simp only [mem_append, mem_cons, or_and_right, exists_or, exists_eq_left, hh]
  rw [or_assoc]

end Halving

/-- The halves of a range are a plan for it, and halving again and again keeps its hashes. -/
theorem halving_keeps_hashes (e : ShardRangeEntry) {l h : UInt32} (hlo : parseHashBound e.lo = some l)
    (hhi : parseHashBound e.hi = some h) :
    ((∃ err, computeHashSplitTargets e = .error err) ↔ h ≤ l) ∧
      (∀ ts, computeHashSplitTargets e = .ok ts → ∃ t₀ t₁ r₀ r₁ mid, ts = [t₀, t₁] ∧ t₀.shardID ≠ t₁.shardID ∧
        t₀.ranges = [r₀] ∧ t₁.ranges = [r₁] ∧ parseHashBound r₀.lo = some l ∧ parseHashBound r₀.hi = some mid ∧
        parseHashBound r₁.lo = some (mid + 1) ∧ parseHashBound r₁.hi = some h ∧ Tiles [r₀, r₁] l h ∧
        (mid.toNat + 1 - l.toNat = h.toNat - mid.toNat ∨ mid.toNat + 1 - l.toNat = h.toNat - mid.toNat + 1) ∧
        validateSplitPlan [⟨formatHashBound l, formatHashBound h, e.shard⟩] [r₀, r₁] = .ok ()) ∧
      ∀ rs, Relation.ReflTransGen Halves [e] rs → SameHashes rs [e] := by
  refine ⟨?_, fun ts hts => ?_, fun rs hrs => ?_⟩
  · constructor
    · rintro ⟨err, he⟩
      by_contra hlt
      rw [computeHashSplitTargets_of_lt hlo hhi (UInt32.not_le.1 hlt)] at he
      cases he
    · intro hle
      cases hts : computeHashSplitTargets e with
      | error err => exact ⟨err, rfl⟩
      | ok ts => exact absurd hle (UInt32.not_le.2 (lt_of_ok hlo hhi hts))
  · have hlt := lt_of_ok hlo hhi hts
    have ht := tiles_halves hlo hhi hts
    obtain ⟨hm, -⟩ := midpoint_toNat hlt
    have hts' := computeHashSplitTargets_of_lt hlo hhi hlt
    rw [hts] at hts'
    cases hts'
    refine ⟨_, _, _, _, l + (h - l) / 2, rfl, ?_, rfl, rfl, (canonical_formatHashBound _).2.1,
      (canonical_formatHashBound _).2.1,
      (canonical_formatHashBound _).2.1, (canonical_formatHashBound _).2.1, ht, by rw [hm]; omega, ?_⟩
    · intro heq
      have hh : [byte 'a'] = [byte 'b'] := append_cancel_left heq
      exact absurd hh (by decide)
    · refine (validateSplitPlan_ok_iff (by simp) (by simp) ?_).2 ⟨l, h, ?_, ht⟩
      · simp [canonical_formatHashBound]
      · have hw : ∀ x, hashContains x ⟨formatHashBound l, formatHashBound h, e.shard⟩ = .ok true ↔
            l.toNat ≤ x.toNat ∧ x.toNat ≤ h.toNat :=
          fun x => hashContains_iff (canonical_formatHashBound _).2.1 (canonical_formatHashBound _).2.1
        refine ⟨?_, pairwise_singleton _ _, fun x => ?_⟩
        · simp only [mem_singleton, forall_eq]
          exact ⟨l, (hw l).2 ⟨le_refl _, (UInt32.lt_iff_toNat_lt.1 hlt).le⟩⟩
        · simp [hw, UInt32.le_iff_toNat_le]
  · induction hrs with
    | refl => exact fun _ => Iff.rfl
    | tail _ hs ih => exact fun x => (hs.sameHashes x).trans (ih x)

theorem halving_keeps_hashes_demo :
    let e : ShardRangeEntry := ⟨"0", "ffffffff", "shard-0"⟩
    (∃ ts, computeHashSplitTargets e = .ok ts) ∧ ∀ rs, Relation.ReflTransGen Halves [e] rs → SameHashes rs [e] := by
  intro e
  have hlo : parseHashBound e.lo = some 0 := by decide +kernel
  have hhi : parseHashBound e.hi = some 0xffffffff := by decide +kernel
  exact ⟨⟨_, computeHashSplitTargets_of_lt hlo hhi (by decide)⟩, (halving_keeps_hashes e hlo hhi).2.2⟩

end PostgresOperator
