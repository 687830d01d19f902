import PostgresOperator.Router.Vindex

/-!
# The split plan check

`ValidateSplitPlan` of `internal/router/resharding.go`: the ranges of the sources and those of the targets must each
be contiguous, and the two spans must have the same ends.  All comparisons are on the strings of the bounds, which the
source takes to be hexadecimal of a fixed width.
-/

namespace PostgresOperator

open Go

inductive SpanError
  | empty
  | loAboveHi (r : ShardRangeEntry)
  | overlap (prev r : ShardRangeEntry)
  | gap (prev r : ShardRangeEntry)
  deriving DecidableEq, Repr

inductive SplitPlanError
  | source (e : SpanError)
  | target (e : SpanError)
  | coverage (sLo sHi tLo tHi : Str)
  deriving DecidableEq, Repr

/-! ### `hexSuccessor` -/

/-- The loop of `hexSuccessor` over the bytes from the last to the first; `none` when the loop gives up, at a byte
that is no lower-case hexadecimal digit or after carrying through all of them. -/
def succDigits : Str → Option Str
  | [] => none
  | c :: rest =>
    if ('0' ≤ c ∧ c < '9') ∨ ('a' ≤ c ∧ c < 'f') then some ((c + 1) :: rest)
    else if c = '9' then some ('a' :: rest)
    else if c = 'f' then (succDigits rest).map ('0' :: ·)
    else none

def hexSuccessor (s : Str) : Str :=
  match s with
  | c :: x :: body =>
    if c = '0' ∧ x = 'x' then
      match succDigits body.reverse with
      | some out => "0x" ++ out.reverse
      | none => s
    else match succDigits s.reverse with
      | some out => out.reverse
      | none => s
  | _ => match succDigits s.reverse with
    | some out => out.reverse
    | none => s

def adjacent (hi lo : Str) : Bool := hexSuccessor hi == lo

/-! ### `contiguousSpan` and `ValidateSplitPlan` -/

def sortByLo (ranges : List ShardRangeEntry) : List ShardRangeEntry :=
  ranges.insertionSort fun a b => a.lo ≤ b.lo

/-- The loop of `contiguousSpan` after the range `prev`. -/
def checkSpan : ShardRangeEntry → List ShardRangeEntry → Except SpanError Unit
  | _, [] => .ok ()
  | prev, r :: rs =>
    if r.hi < r.lo then .error (.loAboveHi r)
    else if r.lo ≤ prev.hi then .error (.overlap prev r)
    else if adjacent prev.hi r.lo = false then .error (.gap prev r)
    else checkSpan r rs

def contiguousSpan (ranges : List ShardRangeEntry) : Except SpanError (Str × Str) :=
  match sortByLo ranges with
  | [] => .error .empty
  | r :: rs =>
    if r.hi < r.lo then .error (.loAboveHi r)
    else match checkSpan r rs with
      | .error e => .error e
      | .ok () => .ok (r.lo, ((r :: rs).getLast (by simp)).hi)

def validateSplitPlan (sources targets : List ShardRangeEntry) : Except SplitPlanError Unit :=
  match contiguousSpan sources with
  | .error e => .error (.source e)
  | .ok (sLo, sHi) => match contiguousSpan targets with
    | .error e => .error (.target e)
    | .ok (tLo, tHi) => if sLo ≠ tLo ∨ sHi ≠ tHi then .error (.coverage sLo sHi tLo tHi) else .ok ()

example : hexSuccessor "0x7fffffff" = "0x80000000" := by decide

end PostgresOperator
