import Mathlib.Algebra.Group.Nat.Defs
import PostgresOperator.Go.Strings

/-!
# Numbers in Go strings

The functions of the package `strconv` that the operator calls.  Their callers only ask whether a parse succeeded, so
`ErrSyntax` and `ErrRange` are both `none`.
-/

namespace Go

/-- `lower(c)` of `strconv`: the bit that separates the two cases of an ASCII letter is set. -/
def lower (c : UInt8) : UInt8 := c ||| 0x20

def digitValue (c : UInt8) : Option Nat :=
  if '0' ≤ c ∧ c ≤ '9' then some (c - '0').toNat
  else if 'a' ≤ lower c ∧ lower c ≤ 'z' then some ((lower c - 'a').toNat + 10)
  else none

/-- The last byte class seen by `underscoreOK`: `^` for the beginning, `0` for a digit, `_` and `!`. -/
inductive Saw
  | start
  | digit
  | underscore
  | other
  deriving DecidableEq, Repr

/-- The loop of `underscoreOK` over the number proper. -/
def underscoreLoop (hex : Bool) : Saw → Str → Bool
  | saw, [] => saw != .underscore
  | saw, c :: s =>
    if ('0' ≤ c ∧ c ≤ '9') ∨ (hex ∧ 'a' ≤ lower c ∧ lower c ≤ 'f') then
      underscoreLoop hex .digit s
    else if c = '_' then
      if saw != .digit then false else underscoreLoop hex .underscore s
    else if saw = .underscore then false
    else underscoreLoop hex .other s

variable (s : Str)

/-- `underscoreOK(s)`: underscores stand only between digits, a base prefix counting as a digit. -/
def underscoreOK : Bool :=
  let s := match s with
    | c :: s' => if c = '-' ∨ c = '+' then s' else s
    | [] => s
  match s with
  | c :: p :: s' =>
    if c = '0' ∧ (lower p = 'b' ∨ lower p = 'o' ∨ lower p = 'x') then
      underscoreLoop (lower p == 'x') .digit s'
    else underscoreLoop false .start s
  | _ => underscoreLoop false .start s

/-- The digit loop of `ParseUint`: the value, and whether an underscore was skipped.  A value above `maxVal` ends the
loop with `ErrRange`. -/
def parseDigits (base0 : Bool) (base maxVal : Nat) : Nat → Bool → Str → Option (Nat × Bool)
  | n, underscores, [] => some (n, underscores)
  | n, underscores, c :: s =>
    if c = '_' ∧ base0 then parseDigits base0 base maxVal n true s
    else match digitValue c with
      | none => none
      | some d =>
        if base ≤ d then none
        else if maxVal < n * base + d then none
        else parseDigits base0 base maxVal (n * base + d) underscores s

/-- The base that `ParseUint(s, 0, _)` reads off the prefix of `s`, with the digits that follow it. -/
def detectBase : Nat × Str :=
  match s with
  | c :: p :: d :: s' =>
    if c = '0' then
      if lower p = 'b' then (2, d :: s')
      else if lower p = 'o' then (8, d :: s')
      else if lower p = 'x' then (16, d :: s')
      else (8, p :: d :: s')
    else (10, s)
  | c :: s' => if c = '0' then (8, s') else (10, s)
  | [] => (10, [])

/-- `strconv.ParseUint(s, base, bitSize)` for `base = 0` or `2 ≤ base ≤ 36`. -/
def parseUint (base bitSize : Nat) : Option Nat :=
  if s = [] then none
  else
    let (b, digits) := if base = 0 then detectBase s else (base, s)
    match parseDigits (base == 0) b (2 ^ bitSize - 1) 0 false digits with
    | none => none
    | some (n, underscores) => if underscores && !underscoreOK s then none else some n

def parseInt (base bitSize : Nat) : Option Int :=
  match s with
  | [] => none
  | c :: s' =>
    let neg := c == '-'
    let body := if c = '-' ∨ c = '+' then s' else s
    match parseUint body base bitSize with
    | none => none
    | some un =>
      if !neg && 2 ^ (bitSize - 1) ≤ un then none
      else if neg && 2 ^ (bitSize - 1) < un then none
      else some (if neg then -(un : Int) else un)

/-- The decimal digits of `n`, `strconv.Itoa` of a natural number. -/
def itoaNat (n : Nat) : Str := (Nat.toDigits 10 n).map Char.toUInt8

def itoa (n : Int) : Str := if n < 0 then '-' :: itoaNat n.natAbs else itoaNat n.natAbs

example : parseUint "0x7fff_ffff" 0 32 = some 0x7fffffff := by decide
example : parseInt "-12" 10 32 = some (-12) := by decide

end Go
