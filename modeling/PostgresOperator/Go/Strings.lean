import Mathlib.Data.List.Lex
import Mathlib.Data.Fintype.Basic
import Mathlib.Tactic.Order

/-!
# Strings of the Go language

A Go string is a sequence of bytes and is compared byte by byte, so it is a list of `UInt8` here with the
lexicographic order.  This file has the functions of the packages `strings` and `unicode/utf8` that the operator
calls: splitting, joining, and trimming of white space.
-/

namespace Go

open List

abbrev Str := List UInt8

def str (s : String) : Str := s.toList.map Char.toUInt8

/-- The bytes of a literal are those of its characters.  A literal is defined by its characters, so that it can be
rewritten with this before it is evaluated. -/
theorem str_ofList (cs : List Char) : str (String.ofList cs) = cs.map Char.toUInt8 := by
  rw [str, String.toList_ofList]

abbrev byte (c : Char) : UInt8 := c.toUInt8

-- the literals of the source stand for their bytes
instance strCoe : Coe String Str := ⟨str⟩

instance byteCoe : Coe Char UInt8 := ⟨byte⟩

/-! ### Bytes -/

instance byteLawfulBEq : LawfulBEq UInt8 := inferInstance

instance goStringLawfulBEq : LawfulBEq Str := inferInstance

instance byteLinearOrder : LinearOrder UInt8 where
  le_refl := UInt8.le_refl
  le_trans _ _ _ := UInt8.le_trans
  lt_iff_le_not_ge a b := by
    simp only [UInt8.lt_iff_toNat_lt, UInt8.le_iff_toNat_le]
    omega
  le_antisymm _ _ := UInt8.le_antisymm
  le_total := UInt8.le_total
  toDecidableLE := inferInstance
  toDecidableEq := inferInstance
  toDecidableLT := inferInstance

theorem forall_byte_iff {p : UInt8 → Prop} : (∀ c, p c) ↔ ∀ i : Fin 256, p (UInt8.ofFin i) := by
  constructor
  · intro h i
    exact h _
  · intro h c
    have := h c.toFin
    rwa [UInt8.ofFin_toFin] at this

/-- A statement about all bytes is decided by looking at the 256 of them. -/
instance decidableForallByte (p : UInt8 → Prop) [DecidablePred p] : Decidable (∀ c, p c) :=
  decidable_of_iff (∀ i : Fin 256, p (UInt8.ofFin i)) forall_byte_iff.symm

/-! ### `strings.Split` and `strings.Join` -/

/-- `strings.Split(s, sep)` for a separator of one byte. -/
def split (sep : UInt8) : Str → List Str
  | [] => [[]]
  | c :: s =>
    if c = sep then [] :: split sep s
    else match split sep s with
      | [] => [[c]]
      | w :: ws => (c :: w) :: ws

/-- `strings.Join(parts, sep)` for a separator of one byte. -/
def join (sep : UInt8) : List Str → Str
  | [] => []
  | [w] => w
  | w :: w' :: ws => w ++ sep :: join sep (w' :: ws)

theorem split_ne_nil (sep : UInt8) (s : Str) : split sep s ≠ [] := by
  cases s with
  | nil => simp [split]
  | cons c s =>
    unfold split
    split
    · simp
    · split <;> simp

variable {sep : UInt8}

theorem split_append_sep {w : Str} (hw : sep ∉ w) (s : Str) : split sep (w ++ sep :: s) = w :: split sep s := by
  induction w with
  | nil => simp [split]
  | cons c w ih =>
    simp only [mem_cons, not_or] at hw
    simp [split, Ne.symm hw.1, ih hw.2]

variable {s : Str}

theorem append_sep_inj {v v' s' : Str} (hv : sep ∉ v) (hv' : sep ∉ v')
    (h : v ++ sep :: s = v' ++ sep :: s') : v = v' ∧ s = s' := by
  have hs := congrArg (split sep) h
  rw [split_append_sep hv, split_append_sep hv'] at hs
  injection hs with hw _
  subst hw
  exact ⟨rfl, by simpa using h⟩

theorem split_of_notMem {w : Str} (hw : sep ∉ w) : split sep w = [w] := by
  induction w with
  | nil => rfl
  | cons c w ih =>
    simp only [mem_cons, not_or] at hw
    simp [split, Ne.symm hw.1, ih hw.2]

variable {ws : List Str}

/-- Words without the separator survive joining and splitting. -/
theorem split_join (hne : ws ≠ []) (hws : ∀ w ∈ ws, sep ∉ w) : split sep (join sep ws) = ws := by
  induction ws with
  | nil => exact absurd rfl hne
  | cons w ws ih =>
    cases ws with
    | nil => exact split_of_notMem (hws w (by simp))
    | cons w' ws =>
      rw [join, split_append_sep (hws w (by simp)), ih (by simp)]
      intro x hx
      exact hws x (by simp [hx])

variable {c : UInt8}

theorem mem_join {w : Str} (hw : w ∈ ws) (hc : c ∈ w) : c ∈ join sep ws := by
  induction ws with
  | nil => cases hw
  | cons v ws ih =>
    cases ws with
    | nil =>
      obtain rfl := mem_singleton.1 hw
      exact hc
    | cons v' ws =>
      rw [join, mem_append, mem_cons]
      rcases mem_cons.1 hw with rfl | hw
      · exact .inl hc
      · exact .inr (.inr (ih hw))

theorem exists_mem_split (hc : c ∈ s) : c = sep ∨ ∃ w ∈ split sep s, c ∈ w := by
  induction s with
  | nil => cases hc
  | cons d s ih =>
    rw [split]
    by_cases hd : d = sep
    · rw [if_pos hd]
      obtain rfl | hc := mem_cons.1 hc
      · exact .inl hd
      · obtain h | ⟨w, hw, hcw⟩ := ih hc
        · exact .inl h
        · exact .inr ⟨w, mem_cons_of_mem _ hw, hcw⟩
    · rw [if_neg hd]
      cases hs : split sep s with
      | nil => exact absurd hs (split_ne_nil sep s)
      | cons v vs =>
        rw [hs] at ih
        obtain rfl | hc := mem_cons.1 hc
        · exact .inr ⟨c :: v, mem_cons_self, mem_cons_self⟩
        · obtain h | ⟨w, hw, hcw⟩ := ih hc
          · exact .inl h
          · obtain rfl | hw := mem_cons.1 hw
            · exact .inr ⟨d :: w, mem_cons_self, mem_cons_of_mem _ hcw⟩
            · exact .inr ⟨w, mem_cons_of_mem _ hw, hcw⟩

/-! ### `strings.TrimSpace` -/

/-- The encoded white space characters of `unicode.IsSpace`. -/
def spaceRunes : List Str :=
  [[0x09], [0x0a], [0x0b], [0x0c], [0x0d], [0x20], [0xc2, 0x85], [0xc2, 0xa0], [0xe1, 0x9a, 0x80],
    [0xe2, 0x80, 0x80], [0xe2, 0x80, 0x81], [0xe2, 0x80, 0x82], [0xe2, 0x80, 0x83], [0xe2, 0x80, 0x84],
    [0xe2, 0x80, 0x85], [0xe2, 0x80, 0x86], [0xe2, 0x80, 0x87], [0xe2, 0x80, 0x88], [0xe2, 0x80, 0x89],
    [0xe2, 0x80, 0x8a], [0xe2, 0x80, 0xa8], [0xe2, 0x80, 0xa9], [0xe2, 0x80, 0xaf], [0xe2, 0x81, 0x9f],
    [0xe3, 0x80, 0x80]]

/-- Drop one of the words `ws` from the front of `s`, if `s` starts with one. -/
def dropWord (ws : List Str) (s : Str) : Option Str :=
  ws.findSome? fun w => if w.isPrefixOf s then some (s.drop w.length) else none

/-- Drop the words `ws` from the front of `s` as long as there is one.  The fuel bounds the number of words. -/
def trimWords (ws : List Str) : Nat → Str → Str
  | 0, s => s
  | n + 1, s => match dropWord ws s with
    | none => s
    | some s' => trimWords ws n s'

/-- `strings.TrimLeftFunc(s, unicode.IsSpace)`. -/
def trimSpaceLeft (s : Str) : Str := trimWords spaceRunes s.length s

/-- `strings.TrimRightFunc(s, unicode.IsSpace)`: the last rune is found by its final bytes, so the words are read
backwards. -/
def trimSpaceRight (s : Str) : Str :=
  (trimWords (spaceRunes.map List.reverse) s.length s.reverse).reverse

def trimSpace (s : Str) : Str := trimSpaceRight (trimSpaceLeft s)

example : trimSpace (str " \t shard-0:a:b \n") = str "shard-0:a:b" := by decide

theorem trimWords_eq_self (hne : [] ∉ ws) (hs : ∀ c ∈ s, ∀ w ∈ ws, c ∉ w) (n : Nat) : trimWords ws n s = s := by
  have hd : dropWord ws s = none := by
    rw [dropWord, findSome?_eq_none_iff]
    intro w hw
    have hp : ¬w.isPrefixOf s := by
      intro h
      obtain ⟨rest, rfl⟩ := isPrefixOf_iff_prefix.1 h
      cases w with
      | nil => exact hne hw
      | cons c w => exact hs c (by simp) _ hw (by simp)
    rw [if_neg hp]
  cases n with
  | zero => rfl
  | succ n => rw [trimWords, hd]

theorem mem_trimWords (hc : c ∈ s) (hw : ∀ w ∈ ws, c ∉ w) (n : Nat) : c ∈ trimWords ws n s := by
  induction n generalizing s with
  | zero => exact hc
  | succ n ih =>
    rw [trimWords]
    split
    · exact hc
    · rename_i s' hd
      obtain ⟨w, hm, hp⟩ := exists_of_findSome?_eq_some hd
      split at hp
      · rename_i hpre
        obtain ⟨rest, rfl⟩ := isPrefixOf_iff_prefix.1 hpre
        cases hp
        refine ih ?_
        rw [drop_left]
        exact (mem_append.1 hc).resolve_left (hw w hm)
      · cases hp

theorem mem_trimSpace (hc : c ∈ s) (hw : ∀ w ∈ spaceRunes, c ∉ w) : c ∈ trimSpace s := by
  rw [trimSpace, trimSpaceRight, mem_reverse]
  refine mem_trimWords (mem_reverse.2 (mem_trimWords hc hw _)) (fun w hm => ?_) _
  obtain ⟨w', hm', rfl⟩ := mem_map.1 hm
  rw [mem_reverse]
  exact hw w' hm'

theorem trimSpace_eq_self (hs : ∀ c ∈ s, ∀ w ∈ spaceRunes, c ∉ w) : trimSpace s = s := by
  have hl : trimSpaceLeft s = s := trimWords_eq_self (by decide) hs _
  have hr : ∀ c ∈ s.reverse, ∀ w ∈ spaceRunes.map reverse, c ∉ w := by
    intro c hc w hw
    obtain ⟨w', hw', rfl⟩ := mem_map.1 hw
    rw [mem_reverse]
    exact hs c (mem_reverse.1 hc) w' hw'
  rw [trimSpace, hl, trimSpaceRight, trimWords_eq_self (by decide) hr, reverse_reverse]

end Go
