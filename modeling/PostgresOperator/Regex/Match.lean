import Mathlib.Data.List.Basic
import Mathlib.Logic.Basic

/-!
# Backtracking regular expressions

Patterns over an arbitrary alphabet with leftmost-first matching: alternatives are tried in order, a greedy repetition
tries the longest run first and a lazy one the shortest, and a search takes the leftmost place where the pattern
matches.  Repetition is of single characters.  The matcher takes a continuation that says what has to follow.
-/

namespace Regex

universe u v

variable {α : Type u} {β : Type v}

inductive Pattern (α : Type u)
  | empty
  | char (p : α → Bool)
  | seq (a b : Pattern α)
  | alt (a b : Pattern α)
  /-- `p*` -/
  | many (p : α → Bool)
  /-- `p*?` -/
  | fewest (p : α → Bool)
  | group (i : Nat) (a : Pattern α)
  /-- A place between a character of a word and a character outside words (or an end of the text). -/
  | boundary (w : α → Bool)
  | atEnd

/-- A place in a text: the character before it, the text after it, and the groups read so far. -/
structure Place (α : Type u) where
  last : Option α
  rest : List α
  groups : List (Nat × List α) := []

variable (pl : Place α) (p : α → Bool) (g : List (Nat × List α)) (k : Place α → Option β)

/-- The place after reading `w` when `s` is left. -/
def Place.read (w s : List α) : Place α := ⟨w.getLast?.or pl.last, s, pl.groups⟩

/-- The text of the group `i`, empty if the group took no part in the match. -/
def Place.group (i : Nat) : List α := (pl.groups.lookup i).getD []

def greedily (p : α → Bool) (groups : List (Nat × List α)) (k : Place α → Option β) : Option α → List α → Option β
  | last, [] => k ⟨last, [], groups⟩
  | last, c :: s =>
    if p c then (greedily p groups k (some c) s).or (k ⟨last, c :: s, groups⟩) else k ⟨last, c :: s, groups⟩

def lazily (p : α → Bool) (groups : List (Nat × List α)) (k : Place α → Option β) : Option α → List α → Option β
  | last, [] => k ⟨last, [], groups⟩
  | last, c :: s =>
    (k ⟨last, c :: s, groups⟩).or (if p c then lazily p groups k (some c) s else none)

/-- The first way to match the pattern at the place and then to go on with `k`. -/
def Pattern.run : Pattern α → Place α → (Place α → Option β) → Option β
  | .empty, pl, k => k pl
  | .char p, pl, k => match pl.rest with
    | [] => none
    | c :: s => if p c then k (pl.read [c] s) else none
  | .seq a b, pl, k => a.run pl fun pl' => b.run pl' k
  | .alt a b, pl, k => (a.run pl k).or (b.run pl k)
  | .many p, pl, k => greedily p pl.groups k pl.last pl.rest
  | .fewest p, pl, k => lazily p pl.groups k pl.last pl.rest
  | .group i a, pl, k => a.run pl fun pl' =>
      k { pl' with groups := (i, pl.rest.take (pl.rest.length - pl'.rest.length)) :: pl'.groups }
  | .boundary w, pl, k => if pl.last.any w != pl.rest.head?.any w then k pl else none
  | .atEnd, pl, k => if pl.rest.isEmpty then k pl else none

/-- The leftmost match in the text `s` after the character `last`. -/
def Pattern.find (a : Pattern α) : Option α → List α → Option (Place α)
  | last, [] => a.run ⟨last, [], []⟩ some
  | last, c :: s => (a.run ⟨last, c :: s, []⟩ some).or (a.find (some c) s)

/-- The first `n` matches that follow each other, for a pattern that does not match the empty text. -/
def Pattern.findAll (a : Pattern α) : Nat → Option α → List α → List (Place α)
  | 0, _, _ => []
  | n + 1, last, s => match a.find last s with
    | none => []
    | some pl => pl :: a.findAll n pl.last pl.rest

/-! ### Derived patterns -/

def Pattern.plus : Pattern α := .seq (.char p) (.many p)

def Pattern.opt (a : Pattern α) : Pattern α := .alt a .empty

def Pattern.cat : List (Pattern α) → Pattern α
  | [] => .empty
  | a :: as => .seq a (.cat as)

end Regex
