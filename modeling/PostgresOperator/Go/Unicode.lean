import PostgresOperator.Go.Strings

/-!
# Characters and letter case

`strings.EqualFold`, `strings.ToLower` and the regular expressions read a Go string as UTF-8.  A byte that starts no
valid encoding counts as one character, U+FFFD.  The facts used later: an ASCII byte is always a character of its own,
and on ASCII words both case functions are the usual ones.
-/

namespace Go

abbrev Rune := Nat

/-- A character of a string: the code point and the bytes it was read from. -/
structure GoChar where
  rune : Rune
  bytes : Str
  nonempty : bytes ≠ []
  deriving DecidableEq

/-! ### Decoding -/

variable (b : UInt8)

def isTail : Bool := 0x80 ≤ b && b ≤ 0xbf

/-- Whether `b'` may follow the leading byte `b`; false for a byte `b` that leads no encoding. -/
def mayFollow (b' : UInt8) : Bool :=
  if b < 0xc2 then false
  else if b = 0xe0 then 0xa0 ≤ b' && b' ≤ 0xbf
  else if b = 0xed then 0x80 ≤ b' && b' ≤ 0x9f
  else if b = 0xf0 then 0x90 ≤ b' && b' ≤ 0xbf
  else if b = 0xf4 then 0x80 ≤ b' && b' ≤ 0x8f
  else if b < 0xf4 then isTail b'
  else false

/-- The code point of a leading byte with the payload `lead` and the continuation bytes `tail`. -/
def runeOf (lead : Nat) (tail : List UInt8) : Rune :=
  tail.foldl (fun r b => r * 64 + b.toNat % 64) lead

/-- A byte that is no part of a valid encoding: `utf8.RuneError`. -/
def badChar : GoChar := ⟨0xfffd, [b], by simp⟩

/-- `utf8.DecodeRuneInString` on a string that starts with the byte `b`: the first character and the rest. -/
def decodeRune (s : Str) : GoChar × Str :=
  if b < 0x80 then (⟨b.toNat, [b], by simp⟩, s)
  else match s with
    | [] => (badChar b, s)
    | b1 :: s1 =>
      if !mayFollow b b1 then (badChar b, s)
      else if b < 0xe0 then (⟨runeOf (b.toNat % 32) [b1], [b, b1], by simp⟩, s1)
      else match s1 with
        | [] => (badChar b, s)
        | b2 :: s2 =>
          if !isTail b2 then (badChar b, s)
          else if b < 0xf0 then (⟨runeOf (b.toNat % 16) [b1, b2], [b, b1, b2], by simp⟩, s2)
          else match s2 with
            | [] => (badChar b, s)
            | b3 :: s3 =>
              if !isTail b3 then (badChar b, s)
              else (⟨runeOf (b.toNat % 8) [b1, b2, b3], [b, b1, b2, b3], by simp⟩, s3)

def charsFuel : Nat → Str → List GoChar
  | 0, _ => []
  | _ + 1, [] => []
  | n + 1, b :: s => (decodeRune b s).1 :: charsFuel n (decodeRune b s).2

/-- The characters of a string, as `for range` reads them. -/
def chars (s : Str) : List GoChar := charsFuel s.length s

def bytesOf (cs : List GoChar) : Str := cs.flatMap GoChar.bytes

def asciiChar : GoChar := ⟨b.toNat, [b], by simp⟩

theorem decodeRune_ascii {b : UInt8} (hb : b < 0x80) (s : Str) : decodeRune b s = (asciiChar b, s) := by
  simp [decodeRune, hb, asciiChar]

/-- Decoding loses no byte, valid or not. -/
theorem decodeRune_bytes (s : Str) : (decodeRune b s).1.bytes ++ (decodeRune b s).2 = b :: s := by
  unfold decodeRune badChar
  repeat' split
  all_goals rfl

theorem decodeRune_rest_length (s : Str) : (decodeRune b s).2.length ≤ s.length := by
  have h := congrArg List.length (decodeRune_bytes b s)
  have hp := List.length_pos_iff.2 (decodeRune b s).1.nonempty
  simp only [List.length_append, List.length_cons] at h
  omega

variable {s : Str}

theorem charsFuel_eq (n : Nat) (h : s.length ≤ n) : charsFuel n s = chars s := by
  induction n using Nat.strong_induction_on generalizing s with
  | _ n ih =>
    cases s with
    | nil => cases n <;> rfl
    | cons b s =>
      cases n with
      | zero => simp at h
      | succ n =>
        have hr := decodeRune_rest_length b s
        simp only [List.length_cons, Nat.add_le_add_iff_right] at h
        simp only [chars, List.length_cons, charsFuel]
        rw [ih n (by omega) (by omega)]
        by_cases hn : s.length < n + 1
        · rw [ih s.length hn hr]
        · omega

@[simp] theorem chars_nil : chars [] = [] := rfl

theorem chars_cons (s : Str) : chars (b :: s) = (decodeRune b s).1 :: chars (decodeRune b s).2 := by
  have hr := decodeRune_rest_length b s
  simp only [chars, List.length_cons, charsFuel]
  rw [charsFuel_eq s.length hr]
  rfl

theorem chars_ascii {b : UInt8} (hb : b < 0x80) (s : Str) : chars (b :: s) = asciiChar b :: chars s := by
  rw [chars_cons, decodeRune_ascii hb]

/-! ### Letter case -/

def Ascii (s : Str) : Prop := ∀ b ∈ s, b < 0x80

instance (s : Str) : Decidable (Ascii s) := inferInstanceAs (Decidable (∀ b ∈ s, b < 0x80))

theorem chars_of_ascii (hs : Ascii s) : chars s = s.map asciiChar := by
  induction s with
  | nil => rfl
  | cons b s ih =>
    rw [chars_ascii (hs b (by simp)), ih (fun x hx => hs x (by simp [hx]))]
    rfl

def lowerByte : UInt8 := if 0x41 ≤ b ∧ b ≤ 0x5a then b + 0x20 else b

/-- The ranges of `unicode.ToLower` above ASCII: first and last code point, stride, and distance to the lower case. -/
def lowerRanges : List (Rune × Rune × Nat × Int) :=
  [(0xc0, 0xd6, 1, 32), (0xd8, 0xde, 1, 32), (0x100, 0x12e, 2, 1), (0x130, 0x130, 1, -199), (0x132, 0x136, 2, 1),
    (0x139, 0x147, 2, 1), (0x14a, 0x176, 2, 1), (0x178, 0x178, 1, -121), (0x179, 0x17d, 2, 1),
    (0x181, 0x181, 1, 210), (0x182, 0x184, 2, 1), (0x186, 0x186, 1, 206), (0x187, 0x187, 1, 1),
    (0x189, 0x18a, 1, 205), (0x18b, 0x18b, 1, 1), (0x18e, 0x18e, 1, 79), (0x18f, 0x18f, 1, 202),
    (0x190, 0x190, 1, 203), (0x191, 0x191, 1, 1), (0x193, 0x193, 1, 205), (0x194, 0x194, 1, 207),
    (0x196, 0x196, 1, 211), (0x197, 0x197, 1, 209), (0x198, 0x198, 1, 1), (0x19c, 0x19c, 1, 211),
    (0x19d, 0x19d, 1, 213), (0x19f, 0x19f, 1, 214), (0x1a0, 0x1a4, 2, 1), (0x1a6, 0x1a6, 1, 218),
    (0x1a7, 0x1a7, 1, 1), (0x1a9, 0x1a9, 1, 218), (0x1ac, 0x1ac, 1, 1), (0x1ae, 0x1ae, 1, 218), (0x1af, 0x1af, 1, 1),
    (0x1b1, 0x1b2, 1, 217), (0x1b3, 0x1b5, 2, 1), (0x1b7, 0x1b7, 1, 219), (0x1b8, 0x1b8, 1, 1), (0x1bc, 0x1bc, 1, 1),
    (0x1c4, 0x1c4, 1, 2), (0x1c5, 0x1c5, 1, 1), (0x1c7, 0x1c7, 1, 2), (0x1c8, 0x1c8, 1, 1), (0x1ca, 0x1ca, 1, 2),
    (0x1cb, 0x1db, 2, 1), (0x1de, 0x1ee, 2, 1), (0x1f1, 0x1f1, 1, 2), (0x1f2, 0x1f4, 2, 1), (0x1f6, 0x1f6, 1, -97),
    (0x1f7, 0x1f7, 1, -56), (0x1f8, 0x21e, 2, 1), (0x220, 0x220, 1, -130), (0x222, 0x232, 2, 1),
    (0x23a, 0x23a, 1, 10795), (0x23b, 0x23b, 1, 1), (0x23d, 0x23d, 1, -163), (0x23e, 0x23e, 1, 10792),
    (0x241, 0x241, 1, 1), (0x243, 0x243, 1, -195), (0x244, 0x244, 1, 69), (0x245, 0x245, 1, 71),
    (0x246, 0x24e, 2, 1), (0x370, 0x372, 2, 1), (0x376, 0x376, 1, 1), (0x37f, 0x37f, 1, 116), (0x386, 0x386, 1, 38),
    (0x388, 0x38a, 1, 37), (0x38c, 0x38c, 1, 64), (0x38e, 0x38f, 1, 63), (0x391, 0x3a1, 1, 32),
    (0x3a3, 0x3ab, 1, 32), (0x3cf, 0x3cf, 1, 8), (0x3d8, 0x3ee, 2, 1), (0x3f4, 0x3f4, 1, -60), (0x3f7, 0x3f7, 1, 1),
    (0x3f9, 0x3f9, 1, -7), (0x3fa, 0x3fa, 1, 1), (0x3fd, 0x3ff, 1, -130), (0x400, 0x40f, 1, 80),
    (0x410, 0x42f, 1, 32), (0x460, 0x480, 2, 1), (0x48a, 0x4be, 2, 1), (0x4c0, 0x4c0, 1, 15), (0x4c1, 0x4cd, 2, 1),
    (0x4d0, 0x52e, 2, 1), (0x531, 0x556, 1, 48), (0x10a0, 0x10c5, 1, 7264), (0x10c7, 0x10c7, 1, 7264),
    (0x10cd, 0x10cd, 1, 7264), (0x13a0, 0x13ef, 1, 38864), (0x13f0, 0x13f5, 1, 8), (0x1c90, 0x1cba, 1, -3008),
    (0x1cbd, 0x1cbf, 1, -3008), (0x1e00, 0x1e94, 2, 1), (0x1e9e, 0x1e9e, 1, -7615), (0x1ea0, 0x1efe, 2, 1),
    (0x1f08, 0x1f0f, 1, -8), (0x1f18, 0x1f1d, 1, -8), (0x1f28, 0x1f2f, 1, -8), (0x1f38, 0x1f3f, 1, -8),
    (0x1f48, 0x1f4d, 1, -8), (0x1f59, 0x1f5f, 2, -8), (0x1f68, 0x1f6f, 1, -8), (0x1f88, 0x1f8f, 1, -8),
    (0x1f98, 0x1f9f, 1, -8), (0x1fa8, 0x1faf, 1, -8), (0x1fb8, 0x1fb9, 1, -8), (0x1fba, 0x1fbb, 1, -74),
    (0x1fbc, 0x1fbc, 1, -9), (0x1fc8, 0x1fcb, 1, -86), (0x1fcc, 0x1fcc, 1, -9), (0x1fd8, 0x1fd9, 1, -8),
    (0x1fda, 0x1fdb, 1, -100), (0x1fe8, 0x1fe9, 1, -8), (0x1fea, 0x1feb, 1, -112), (0x1fec, 0x1fec, 1, -7),
    (0x1ff8, 0x1ff9, 1, -128), (0x1ffa, 0x1ffb, 1, -126), (0x1ffc, 0x1ffc, 1, -9), (0x2126, 0x2126, 1, -7517),
    (0x212a, 0x212a, 1, -8383), (0x212b, 0x212b, 1, -8262), (0x2132, 0x2132, 1, 28), (0x2160, 0x216f, 1, 16),
    (0x2183, 0x2183, 1, 1), (0x24b6, 0x24cf, 1, 26), (0x2c00, 0x2c2f, 1, 48), (0x2c60, 0x2c60, 1, 1),
    (0x2c62, 0x2c62, 1, -10743), (0x2c63, 0x2c63, 1, -3814), (0x2c64, 0x2c64, 1, -10727), (0x2c67, 0x2c6b, 2, 1),
    (0x2c6d, 0x2c6d, 1, -10780), (0x2c6e, 0x2c6e, 1, -10749), (0x2c6f, 0x2c6f, 1, -10783),
    (0x2c70, 0x2c70, 1, -10782), (0x2c72, 0x2c72, 1, 1), (0x2c75, 0x2c75, 1, 1), (0x2c7e, 0x2c7f, 1, -10815),
    (0x2c80, 0x2ce2, 2, 1), (0x2ceb, 0x2ced, 2, 1), (0x2cf2, 0x2cf2, 1, 1), (0xa640, 0xa66c, 2, 1),
    (0xa680, 0xa69a, 2, 1), (0xa722, 0xa72e, 2, 1), (0xa732, 0xa76e, 2, 1), (0xa779, 0xa77b, 2, 1),
    (0xa77d, 0xa77d, 1, -35332), (0xa77e, 0xa786, 2, 1), (0xa78b, 0xa78b, 1, 1), (0xa78d, 0xa78d, 1, -42280),
    (0xa790, 0xa792, 2, 1), (0xa796, 0xa7a8, 2, 1), (0xa7aa, 0xa7aa, 1, -42308), (0xa7ab, 0xa7ab, 1, -42319),
    (0xa7ac, 0xa7ac, 1, -42315), (0xa7ad, 0xa7ad, 1, -42305), (0xa7ae, 0xa7ae, 1, -42308),
    (0xa7b0, 0xa7b0, 1, -42258), (0xa7b1, 0xa7b1, 1, -42282), (0xa7b2, 0xa7b2, 1, -42261), (0xa7b3, 0xa7b3, 1, 928),
    (0xa7b4, 0xa7c2, 2, 1), (0xa7c4, 0xa7c4, 1, -48), (0xa7c5, 0xa7c5, 1, -42307), (0xa7c6, 0xa7c6, 1, -35384),
    (0xa7c7, 0xa7c9, 2, 1), (0xa7d0, 0xa7d0, 1, 1), (0xa7d6, 0xa7d8, 2, 1), (0xa7f5, 0xa7f5, 1, 1),
    (0xff21, 0xff3a, 1, 32), (0x10400, 0x10427, 1, 40), (0x104b0, 0x104d3, 1, 40), (0x10570, 0x1057a, 1, 39),
    (0x1057c, 0x1058a, 1, 39), (0x1058c, 0x10592, 1, 39), (0x10594, 0x10595, 1, 39), (0x10c80, 0x10cb2, 1, 64),
    (0x118a0, 0x118bf, 1, 32), (0x16e40, 0x16e5f, 1, 32), (0x1e900, 0x1e921, 1, 34)]

def lowerRune (r : Rune) : Rune :=
  if r < 0x80 then (if 0x41 ≤ r ∧ r ≤ 0x5a then r + 0x20 else r)
  else match lowerRanges.find? fun x => x.1 ≤ r && r ≤ x.2.1 && (r - x.1) % x.2.2.1 == 0 with
    | some x => ((r : Int) + x.2.2.2).toNat
    | none => r

def foldExceptions : List (Rune × Rune) :=
  [(0xb5, 0x3bc), (0x17f, 0x73), (0x345, 0x3b9), (0x3c2, 0x3c3), (0x3d0, 0x3b2), (0x3d1, 0x3b8), (0x3d5, 0x3c6),
    (0x3d6, 0x3c0), (0x3f0, 0x3ba), (0x3f1, 0x3c1), (0x3f5, 0x3b5), (0x1c80, 0x432), (0x1c81, 0x434),
    (0x1c82, 0x43e), (0x1c83, 0x441), (0x1c84, 0x442), (0x1c85, 0x442), (0x1c86, 0x44a), (0x1c87, 0x463),
    (0x1c88, 0xa64b), (0x1e9b, 0x1e61), (0x1fbe, 0x3b9)]

/-- A representative of the code points that `unicode.SimpleFold` leads to from `r`. -/
def foldRune (r : Rune) : Rune :=
  if r < 0x80 then lowerRune r
  else if r = 0x130 then r
  else (foldExceptions.lookup r).getD (lowerRune r)

def encodeRune (r : Rune) : Str :=
  let tail (n : Nat) : UInt8 := UInt8.ofNat (0x80 + n % 64)
  if r < 0x80 then [UInt8.ofNat r]
  else if r < 0x800 then [UInt8.ofNat (0xc0 + r / 64), tail r]
  else if r < 0x10000 then [UInt8.ofNat (0xe0 + r / 4096), tail (r / 64), tail r]
  else [UInt8.ofNat (0xf0 + r / 262144), tail (r / 4096), tail (r / 64), tail r]

def toLower (s : Str) : Str := (chars s).flatMap fun c => encodeRune (lowerRune c.rune)

def folded (s : Str) : List Rune := (chars s).map fun c => foldRune c.rune

def equalFold (s t : Str) : Bool := folded s = folded t

example : equalFold (str "Tenant_ID") (str "tenant_id") ∧ equalFold (str "value" ++ [0xc5, 0xbf]) (str "VALUES")
    ∧ toLower "SELECT" = "select" := by decide

/-- Folding both sides decides `EqualFold`. -/
theorem equalFold_iff {t : Str} : equalFold s t ↔ folded s = folded t := by
  simp [equalFold]

theorem encodeRune_lower : ∀ b : UInt8, b < 0x80 → encodeRune (lowerRune b.toNat) = [lowerByte b] := by
  decide +kernel

theorem lowerByte_ascii : ∀ b : UInt8, b < 0x80 → lowerByte b < 0x80 := by decide +kernel

theorem foldRune_lowerByte : ∀ b : UInt8, b < 0x80 → foldRune (lowerByte b).toNat = foldRune b.toNat := by
  decide +kernel

/-- On ASCII texts `ToLower` works byte by byte. -/
theorem toLower_of_ascii (hs : Ascii s) : toLower s = s.map lowerByte := by
  unfold toLower
  rw [chars_of_ascii hs]
  induction s with
  | nil => rfl
  | cons b s ih =>
    have ht : Ascii s := fun x hx => hs x (by simp [hx])
    rw [List.map_cons, List.flatMap_cons, ih ht]
    change encodeRune (lowerRune b.toNat) ++ _ = _
    rw [encodeRune_lower b (hs b (by simp))]
    rfl

theorem Ascii.map_lowerByte (hs : Ascii s) : Ascii (s.map lowerByte) := by
  intro b hb
  obtain ⟨b', hb', rfl⟩ := List.mem_map.1 hb
  exact lowerByte_ascii b' (hs b' hb')

theorem folded_map_lowerByte (hs : Ascii s) : folded (s.map lowerByte) = folded s := by
  unfold folded
  rw [chars_of_ascii hs, chars_of_ascii hs.map_lowerByte]
  simp only [List.map_map, List.map_inj_left, Function.comp]
  intro b hb
  exact foldRune_lowerByte b (hs b hb)

end Go
