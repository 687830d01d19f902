import PostgresOperator.Go.Unicode

/-!
# The SQL tokenizer of the router

`tokenize` of `internal/router/route_extractor_parser.go`.  One round of its loop is `scan`, which reads one token,
one white space character or one comment from the front of the text.
-/

namespace PostgresOperator

open Go List

inductive TokKind
  | ident
  | str
  | num
  | sym
  deriving DecidableEq

structure Token where
  kind : TokKind
  text : Str
  deriving DecidableEq

/-! ### Character classes -/

variable (c : UInt8)

def isBlank : Bool := c = ' ' || c = '\t' || c = '\n' || c = '\r'

def isDigit : Bool := '0' ≤ c && c ≤ '9'

def isIdentStart : Bool :=
  c = '_' || ('a' ≤ c && c ≤ 'z') || ('A' ≤ c && c ≤ 'Z')

def isIdentPart : Bool := isIdentStart c || isDigit c || c = '$'

def isTagChar : Bool := isIdentStart c || isDigit c

def isPunct : Bool :=
  c = '(' || c = ')' || c = ',' || c = ';' || c = '.'

def isOpChar : Bool := str "=<>!+-*/%~&|^" |>.contains c

def isNumPart : Bool := isDigit c || c = '.'

/-! ### Parts of the loop -/

/-- The text of a literal up to the closing quote, a doubled quote standing for one, and what follows it.  A literal
that is not closed ends with the text. -/
def readQuoted (q : UInt8) : Str → Str × Str
  | [] => ([], [])
  | c :: s =>
    if c = q then
      match s with
      | [] => ([], [])
      | c' :: s' => if c' = q then (q :: (readQuoted q s').1, (readQuoted q s').2) else ([], c' :: s')
    else (c :: (readQuoted q s).1, (readQuoted q s).2)

def skipBlock : Str → Str
  | [] => []
  | c :: s => if c = '*' ∧ s.head? = some (byte '/') then s.tail else skipBlock s

/-- The text before and after the first `sep`, as found by `strings.Index`. -/
def cut (sep : Str) : Str → Option (Str × Str)
  | [] => if sep = [] then some ([], []) else none
  | c :: s =>
    if sep.isPrefixOf (c :: s) then some ([], (c :: s).drop sep.length)
    else (cut sep s).map fun x => (c :: x.1, x.2)

def dollarQuoted (s : Str) : Option (Str × Str) :=
  match s.dropWhile isTagChar with
  | [] => none
  | c :: rest =>
    if c = '$' then
      let open_ := byte '$' :: s.takeWhile isTagChar ++ [byte '$']
      some ((cut open_ rest).getD (rest, []))
    else none

/-- One round of the loop of `tokenize` on a text that starts with `c`: the token, if one is read, and the rest. -/
def scan (s : Str) : Option Token × Str :=
  if isBlank c then (none, s)
  else if c = '-' ∧ s.head? = some (byte '-') then (none, s.dropWhile (· ≠ '\n'))
  else if c = '/' ∧ s.head? = some (byte '*') then (none, skipBlock s.tail)
  else if c = '\'' then (some ⟨.str, (readQuoted c s).1⟩, (readQuoted c s).2)
  else if c = '"' then (some ⟨.ident, (readQuoted c s).1⟩, (readQuoted c s).2)
  else if c = '$' then
    match dollarQuoted s with
    | some (inner, rest) => (some ⟨.str, inner⟩, rest)
    | none => (some ⟨.sym, [c]⟩, s)
  else if isIdentStart c then (some ⟨.ident, c :: s.takeWhile isIdentPart⟩, s.dropWhile isIdentPart)
  else if isDigit c then (some ⟨.num, c :: s.takeWhile isNumPart⟩, s.dropWhile isNumPart)
  else if isPunct c then (some ⟨.sym, [c]⟩, s)
  else if isOpChar c then (some ⟨.sym, c :: s.takeWhile isOpChar⟩, s.dropWhile isOpChar)
  else (some ⟨.sym, [c]⟩, s)

def tokenizeFuel : Nat → Str → List Token
  | 0, _ => []
  | _ + 1, [] => []
  | n + 1, c :: s => (scan c s).1.toList ++ tokenizeFuel n (scan c s).2

/-- `tokenize(s)`.  Every round reads at least one byte, so there are at most as many rounds as bytes. -/
def tokenize (s : Str) : List Token := tokenizeFuel s.length s

example : tokenize "a<=1 -- x\n/* y */ 'it''s'$q$b$c$q$" =
    [⟨.ident, "a"⟩, ⟨.sym, "<="⟩, ⟨.num, "1"⟩, ⟨.str, "it's"⟩, ⟨.str, "b$c"⟩] := by decide +kernel

/-! ### The rounds end -/

theorem length_readQuoted_le (q : UInt8) (s : Str) : (readQuoted q s).2.length ≤ s.length := by
  fun_induction readQuoted q s
  all_goals simp only [length_cons, length_nil]; omega

theorem length_skipBlock_le (s : Str) : (skipBlock s).length ≤ s.length := by
  induction s with
  | nil => simp [skipBlock]
  | cons c s ih =>
    unfold skipBlock
    split
    · simp only [length_tail, length_cons]
      omega
    · simp only [length_cons]
      omega

variable {s : Str}

theorem length_cut_le {sep a b : Str} (h : cut sep s = some (a, b)) : b.length ≤ s.length := by
  induction s generalizing a with
  | nil =>
    simp only [cut] at h
    split at h
    · cases h
      simp
    · cases h
  | cons c s ih =>
    unfold cut at h
    split at h
    · cases h
      simp only [length_drop]
      omega
    · obtain ⟨x, hx, hx'⟩ := Option.map_eq_some_iff.1 h
      cases hx'
      have := ih hx
      simp only [length_cons]
      omega

theorem length_dropWhile_le (p : UInt8 → Bool) (s : Str) : (s.dropWhile p).length ≤ s.length :=
  (dropWhile_suffix p).length_le

theorem length_dollarQuoted_le {a b : Str} (h : dollarQuoted s = some (a, b)) : b.length ≤ s.length := by
  have hd := length_dropWhile_le isTagChar s
  unfold dollarQuoted at h
  split at h
  · cases h
  · rename_i c rest hr
    rw [hr, length_cons] at hd
    split at h
    · injection h with h
      cases hc : cut (byte '$' :: s.takeWhile isTagChar ++ [byte '$']) rest with
      | none =>
        rw [hc] at h
        cases h
        simp
      | some x =>
        rw [hc] at h
        simp only [Option.getD_some] at h
        subst h
        have := length_cut_le hc
        omega
    · cases h

theorem length_scan_le (s : Str) : (scan c s).2.length ≤ s.length := by
  have hd := fun p => length_dropWhile_le p s
  have hq := fun q => length_readQuoted_le q s
  have hb : (skipBlock s.tail).length ≤ s.length := le_trans (length_skipBlock_le _) (by simp)
  fun_cases scan c s
  case case6 inner rest h => exact length_dollarQuoted_le h
  all_goals first | exact Nat.le_refl _ | exact hd _ | exact hq _ | exact hb

/-- The fuel never runs out. -/
theorem tokenizeFuel_eq (n : Nat) (h : s.length ≤ n) : tokenizeFuel n s = tokenize s := by
  induction n using Nat.strong_induction_on generalizing s with
  | _ n ih =>
    cases s with
    | nil => cases n <;> rfl
    | cons c s =>
      cases n with
      | zero => simp at h
      | succ n =>
        have hr := length_scan_le c s
        simp only [length_cons, Nat.add_le_add_iff_right] at h
        simp only [tokenize, length_cons, tokenizeFuel]
        rw [ih n (by omega) (by omega), ih s.length (by omega) hr]

@[simp] theorem tokenize_nil : tokenize [] = [] := rfl

theorem tokenize_cons (s : Str) : tokenize (c :: s) = (scan c s).1.toList ++ tokenize (scan c s).2 := by
  rw [← tokenizeFuel_eq s.length (length_scan_le c s)]
  rfl

end PostgresOperator
