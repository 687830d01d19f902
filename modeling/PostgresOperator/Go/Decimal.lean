import PostgresOperator.Go.Strconv

/-!
# Decimal numbers at the end of a name

The text of a natural number is made of digits and determines the number, so that a name ends with at most one number
after a separator that is no digit.
-/

namespace Go

def isDigitByte (c : UInt8) : Bool := '0' ≤ c && c ≤ '9'

theorem itoaNat_ne_nil (n : Nat) : itoaNat n ≠ [] := by simp [itoaNat]

theorem toUInt8_of_isDigit {c : Char} (h : c.isDigit) :
    isDigitByte c.toUInt8 ∧ Char.ofNat c.toUInt8.toNat = c := by
  obtain ⟨hlo, hhi⟩ : 48 ≤ c.toNat ∧ c.toNat ≤ 57 := by
    simpa [Char.isDigit, UInt32.le_iff_toNat_le] using h
  have hn : c.toUInt8.toNat = c.toNat := by
    change c.val.toNat % 2 ^ 8 = c.val.toNat
    exact Nat.mod_eq_of_lt (by change c.toNat < 2 ^ 8; omega)
  constructor
  · have hlo' : '0' ≤ c.toUInt8 := UInt8.le_iff_toNat_le.2 (by rw [hn]; exact hlo)
    have hhi' : c.toUInt8 ≤ '9' := UInt8.le_iff_toNat_le.2 (by rw [hn]; exact hhi)
    simp [isDigitByte, hlo', hhi']
  · rw [hn, Char.ofNat_toNat]

variable {c : UInt8}

theorem isDigitByte_of_mem_itoaNat {n : Nat} (h : c ∈ itoaNat n) : isDigitByte c := by
  obtain ⟨d, hd, rfl⟩ := List.mem_map.1 h
  exact (toUInt8_of_isDigit (Nat.isDigit_of_mem_toDigits (by decide) (by decide) hd)).1

def digitsValue (s : Str) : Nat := Nat.ofDigitChars 10 (s.map fun c => Char.ofNat c.toNat) 0

theorem digitsValue_itoaNat (n : Nat) : digitsValue (itoaNat n) = n := by
  have hm : (itoaNat n).map (fun c => Char.ofNat c.toNat) = Nat.toDigits 10 n := by
    rw [itoaNat, List.map_map]
    refine (List.map_congr_left ?_).trans (List.map_id _)
    intro d hd
    exact (toUInt8_of_isDigit (Nat.isDigit_of_mem_toDigits (by decide) (by decide) hd)).2
  rw [digitsValue, hm, Nat.ofDigitChars_ten_toDigits]

theorem itoaNat_injective : Function.Injective itoaNat :=
  Function.LeftInverse.injective digitsValue_itoaNat

/-- The integer with the decimal text `s`, of whatever size. -/
def decimal : Str → Option Int
  | [] => none
  | c :: s =>
    if c = '-' then if s ≠ [] && s.all isDigitByte then some (-digitsValue s) else none
    else if (c :: s).all isDigitByte then some (digitsValue (c :: s)) else none

/-- Numbers are read back as they were printed. -/
theorem decimal_itoa (n : Int) : decimal (itoa n) = some n := by
  have ha : (itoaNat n.natAbs).all isDigitByte :=
    List.all_eq_true.2 fun _ hc => isDigitByte_of_mem_itoaNat hc
  unfold itoa
  split
  · rw [decimal, if_pos rfl, if_pos (by simp [ha, itoaNat_ne_nil]), digitsValue_itoaNat]
    congr 1
    omega
  · obtain ⟨c, s, hs⟩ := List.exists_cons_of_ne_nil (itoaNat_ne_nil n.natAbs)
    have hc : c ≠ '-' := by
      rintro rfl
      exact absurd (isDigitByte_of_mem_itoaNat (n := n.natAbs) (by rw [hs]; exact List.mem_cons_self)) (by decide)
    rw [hs] at ha
    rw [hs, decimal, if_neg hc, if_pos ha, ← hs, digitsValue_itoaNat]
    congr 1
    omega

def isNumberByte (c : UInt8) : Bool := isDigitByte c || c = '-'

theorem isNumberByte_of_mem_itoa {n : Int} (h : c ∈ itoa n) : isNumberByte c := by
  have hd : ∀ c ∈ itoaNat n.natAbs, isNumberByte c := by
    intro c hc
    simp [isNumberByte, isDigitByte_of_mem_itoaNat hc]
  unfold itoa at h
  split at h
  · rcases List.mem_cons.1 h with rfl | h
    · decide
    · exact hd c h
  · exact hd c h

theorem trimSpace_itoa (n : Int) : trimSpace (itoa n) = itoa n := by
  have hcl : ∀ c : UInt8, isNumberByte c → ∀ w ∈ spaceRunes, c ∉ w := by decide +kernel
  exact trimSpace_eq_self fun c hc => hcl c (isNumberByte_of_mem_itoa hc)

theorem itoa_injective : Function.Injective itoa := by
  have hm : ∀ (m n : Nat), byte '-' :: itoaNat m ≠ itoaNat n := by
    intro m n h
    have hmm : byte '-' ∈ itoaNat n := by
      rw [← h]
      exact List.mem_cons_self
    exact absurd (isDigitByte_of_mem_itoaNat hmm) (by decide)
  intro m n h
  unfold itoa at h
  split at h <;> split at h
  · have ha := itoaNat_injective (List.cons.inj h).2
    omega
  · exact absurd h (hm _ _)
  · exact absurd h.symm (hm _ _)
  · have ha := itoaNat_injective h
    omega

/-- The text before and after the last `c`, as found by `strings.LastIndex`. -/
def splitLast (c : UInt8) : Str → Option (Str × Str)
  | [] => none
  | x :: s =>
    match splitLast c s with
    | some (a, b) => some (x :: a, b)
    | none => if x = c then some ([], s) else none

theorem splitLast_eq_none {s : Str} (h : c ∉ s) : splitLast c s = none := by
  induction s with
  | nil => rfl
  | cons x s ih =>
    obtain ⟨hx, hs⟩ : c ≠ x ∧ c ∉ s := by simpa using h
    rw [splitLast, ih hs, if_neg (Ne.symm hx)]

theorem splitLast_append (a : Str) {b : Str} (h : c ∉ b) : splitLast c (a ++ c :: b) = some (a, b) := by
  induction a with
  | nil => rw [List.nil_append, splitLast, splitLast_eq_none h, if_pos rfl]
  | cons x a ih => rw [List.cons_append, splitLast, ih]

theorem eq_append_of_splitLast {s a b : Str} (h : splitLast c s = some (a, b)) : s = a ++ c :: b := by
  induction s generalizing a with
  | nil => cases h
  | cons x s ih =>
    rw [splitLast] at h
    cases hs : splitLast c s with
    | some y =>
      rw [hs] at h
      cases h
      rw [ih hs, List.cons_append]
    | none =>
      rw [hs] at h
      dsimp only at h
      split at h
      · cases h
        rename_i hx
        rw [hx, List.nil_append]
      · cases h

end Go
