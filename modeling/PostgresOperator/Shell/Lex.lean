import PostgresOperator.Go.Strings

/-!
# The words of a shell script

Token recognition of the POSIX shell (section 2.3 of the shell command language): blanks, comments, operators, the
three kinds of quoting, line continuation, and where an expansion begins and ends.  A word keeps the text it was
written as and the characters and expansions it stands for.  What is between the parentheses of `$(…)` is kept as
text; comments and `case` items in there, and here-documents anywhere, are not looked for.

The reader is a machine that takes one character at a time, so that the tokens of a concatenation are found piece by
piece.
-/

namespace Shell

open Go List Option Bool

abbrev Text := List UInt8

/-! ### Tokens -/

/-- The expansions, by how they are written.  `unspecified` is a `$` in front of a character that gives it no meaning
in POSIX. -/
inductive Expansion
  | parameter
  | braces
  | command
  | backquotes
  | unspecified
  deriving DecidableEq

/-- A part of a word: a character that stands for itself, or an expansion with the text between its delimiters. -/
inductive Part
  | char (quoted : Bool) (c : UInt8)
  | expand (quoted : Bool) (e : Expansion) (text : Text)
  deriving DecidableEq

structure Word where
  raw : Text := []
  parts : List Part := []
  deriving DecidableEq

inductive Operator
  | newline
  | semi
  | dsemi
  | amp
  | andIf
  | pipe
  | orIf
  | lparen
  | rparen
  | less
  | dless
  | dlessDash
  | lessAnd
  | lessGreat
  | great
  | dgreat
  | greatAnd
  | clobber
  deriving DecidableEq

/-- A token; `ioNumber` is a number right before a redirection operator. -/
inductive Token
  | word (w : Word)
  | ioNumber (digits : Text)
  | op (o : Operator)
  deriving DecidableEq

/-! ### Characters -/

def isBlank (c : UInt8) : Bool := c = ' ' || c = '\t'

def isDigit (c : UInt8) : Bool := '0' ≤ c && c ≤ '9'

def isNameStart (c : UInt8) : Bool := 'a' ≤ c && c ≤ 'z' || 'A' ≤ c && c ≤ 'Z' || c = '_'

def isNameChar (c : UInt8) : Bool := isNameStart c || isDigit c

def isSpecialParameter (c : UInt8) : Bool := isDigit c || c ∈ str "@*#?-$!"

def Operator.start (c : UInt8) : Option Operator :=
  if c = ';' then some .semi
  else if c = '&' then some .amp
  else if c = '|' then some .pipe
  else if c = '(' then some .lparen
  else if c = ')' then some .rparen
  else if c = '<' then some .less
  else if c = '>' then some .great
  else none

def Operator.extend (o : Operator) (c : UInt8) : Option Operator :=
  match o with
  | .semi => if c = ';' then some .dsemi else none
  | .amp => if c = '&' then some .andIf else none
  | .pipe => if c = '|' then some .orIf else none
  | .less => if c = '<' then some .dless else if c = '&' then some .lessAnd
      else if c = '>' then some .lessGreat else none
  | .dless => if c = '-' then some .dlessDash else none
  | .great => if c = '>' then some .dgreat else if c = '&' then some .greatAnd
      else if c = '|' then some .clobber else none
  | _ => none

def Operator.isRedirect (o : Operator) : Bool := o = .less || o = .great

def endsWord (c : UInt8) : Bool := isBlank c || c = '\n' || (Operator.start c).isSome

def isDoubleSpecial (c : UInt8) : Bool := c = '"' || c = '\\' || c = '$' || c = '`'

def isSpecial (c : UInt8) : Bool := endsWord c || c = '\'' || isDoubleSpecial c

/-! ### Inside a word -/

inductive Nest
  | paren
  | brace
  | single
  | double
  | backquote
  deriving DecidableEq

/-- The last character inside an expansion, as far as it matters for the next one. -/
inductive Seen
  | other
  | backslash
  | dollar
  deriving DecidableEq

def Nest.step (opened : List Nest) (seen : Seen) (c : UInt8) : List Nest × Seen :=
  let after : Seen := if c = '\\' then .backslash else if c = '$' then .dollar else .other
  match opened with
  | [] => ([], .other)
  | .single :: rest => if c = '\'' then (rest, .other) else (.single :: rest, .other)
  | top :: rest =>
    if seen = .backslash then (top :: rest, .other)
    else match top with
      | .backquote => if c = '`' then (rest, .other) else (top :: rest, after)
      | .double =>
        if c = '"' then (rest, .other)
        else if c = '`' then (.backquote :: top :: rest, .other)
        else if c = '(' ∧ seen = .dollar then (.paren :: top :: rest, .other)
        else if c = '\x7b' ∧ seen = .dollar then (.brace :: top :: rest, .other)
        else (top :: rest, after)
      | _ =>
        if c = '\'' then (.single :: top :: rest, .other)
        else if c = '"' then (.double :: top :: rest, .other)
        else if c = '`' then (.backquote :: top :: rest, .other)
        else if c = '(' ∧ (top = .paren ∨ seen = .dollar) then (.paren :: top :: rest, .other)
        else if c = '\x7b' ∧ seen = .dollar then (.brace :: top :: rest, .other)
        else if c = ')' ∧ top = .paren then (rest, .other)
        else if c = '\x7d' ∧ top = .brace then (rest, .other)
        else (top :: rest, after)

inductive WordMode
  | plain
  | escape
  | single
  | double
  | doubleEscape
  | dollar (quoted : Bool)
  | name (quoted : Bool) (text : Text)
  | nested (quoted : Bool) (e : Expansion) (opened : List Nest) (seen : Seen) (text : Text)
  deriving DecidableEq

def plainStep (c : UInt8) : List Part × WordMode :=
  if c = '\'' then ([], .single)
  else if c = '"' then ([], .double)
  else if c = '\\' then ([], .escape)
  else if c = '$' then ([], .dollar false)
  else if c = '`' then ([], .nested false .backquotes [.backquote] .other [])
  else ([.char false c], .plain)

def doubleStep (c : UInt8) : List Part × WordMode :=
  if c = '"' then ([], .plain)
  else if c = '\\' then ([], .doubleEscape)
  else if c = '$' then ([], .dollar true)
  else if c = '`' then ([], .nested true .backquotes [.backquote] .other [])
  else ([.char true c], .double)

def WordMode.back (quoted : Bool) : WordMode := if quoted then .double else .plain

def backStep (quoted : Bool) (c : UInt8) : Option (List Part × WordMode) :=
  if quoted then some (doubleStep c) else if endsWord c then none else some (plainStep c)

/-- What a character adds to the word, and the next mode; nothing if the word ends in front of it. -/
def WordMode.step (m : WordMode) (c : UInt8) : Option (List Part × WordMode) :=
  match m with
  | .plain => backStep false c
  | .escape => some (if c = '\n' then [] else [.char true c], .plain)
  | .single => some (if c = '\'' then ([], .plain) else ([.char true c], .single))
  | .double => backStep true c
  | .doubleEscape =>
    some (if isDoubleSpecial c then [.char true c] else if c = '\n' then []
      else [.char true '\\', .char true c], .double)
  | .dollar quoted =>
    if c = '(' then some ([], .nested quoted .command [.paren] .other [])
    else if c = '\x7b' then some ([], .nested quoted .braces [.brace] .other [])
    else if isNameStart c then some ([], .name quoted [c])
    else if isSpecialParameter c then some ([.expand quoted .parameter [c]], .back quoted)
    else (backStep quoted c).map fun (ps, m') => (.expand quoted .unspecified [] :: ps, m')
  | .name quoted text =>
    if isNameChar c then some ([], .name quoted (text ++ [c]))
    else (backStep quoted c).map fun (ps, m') => (.expand quoted .parameter text :: ps, m')
  | .nested quoted e opened seen text =>
    match Nest.step opened seen c with
    | ([], _) => some ([.expand quoted e text], .back quoted)
    | (opened', seen') => some ([], .nested quoted e opened' seen' (text ++ [c]))

def WordMode.closing : WordMode → Option (List Part)
  | .plain => some []
  | .dollar false => some [.expand false .unspecified []]
  | .name false text => some [.expand false .parameter text]
  | _ => none

/-! ### The machine -/

def Word.append (w : Word) (t : Text) (ps : List Part) : Word := ⟨w.raw ++ t, w.parts ++ ps⟩

inductive Mode
  | gap
  | gapEscape
  | comment
  | operator (o : Operator)
  | word (m : WordMode) (w : Word)
  deriving DecidableEq

structure State where
  done : List Token := []
  mode : Mode := .gap
  deriving DecidableEq

def State.stepGap (done : List Token) (c : UInt8) : State :=
  if isBlank c then ⟨done, .gap⟩
  else if c = '\n' then ⟨done ++ [.op .newline], .gap⟩
  else if c = '#' then ⟨done, .comment⟩
  else if c = '\\' then ⟨done, .gapEscape⟩
  else match Operator.start c with
    | some o => ⟨done, .operator o⟩
    | none => ⟨done, .word (plainStep c).2 ⟨[c], (plainStep c).1⟩⟩

def Word.token (w : Word) (c : UInt8) : Token :=
  if (Operator.start c).any Operator.isRedirect ∧ w.raw.all isDigit then .ioNumber w.raw else .word w

def State.step (s : State) (c : UInt8) : State :=
  match s.mode with
  | .gap => State.stepGap s.done c
  | .gapEscape => if c = '\n' then ⟨s.done, .gap⟩ else ⟨s.done, .word .plain ⟨['\\', c], [.char true c]⟩⟩
  | .comment => if c = '\n' then State.stepGap s.done c else s
  | .operator o => match o.extend c with
    | some o' => ⟨s.done, .operator o'⟩
    | none => State.stepGap (s.done ++ [.op o]) c
  | .word m w => match m.step c with
    | some (ps, m') => ⟨s.done, .word m' (w.append [c] ps)⟩
    | none => State.stepGap (s.done ++ [(w.append [] (m.closing.getD [])).token c]) c

def State.run (s : State) (t : Text) : State := t.foldl State.step s

def State.finish (s : State) : Option (List Token) :=
  match s.mode with
  | .gap | .comment => some s.done
  | .gapEscape => none
  | .operator o => some (s.done ++ [.op o])
  | .word m w => m.closing.map fun ps => s.done ++ [.word (w.append [] ps)]

def lex (t : Text) : Option (List Token) := (State.run {} t).finish

/-! ### Reading piece by piece -/

@[simp] theorem State.run_nil (s : State) : s.run [] = s := rfl

@[simp] theorem State.run_cons (s : State) (c : UInt8) (t : Text) : s.run (c :: t) = (s.step c).run t := rfl

theorem State.run_append (s : State) (t u : Text) : s.run (t ++ u) = (s.run t).run u := foldl_append

def State.after (ts : List Token) (s : State) : State := ⟨ts ++ s.done, s.mode⟩

@[simp] theorem State.after_nil (s : State) : s.after [] = s := rfl

theorem State.stepGap_after (ts done : List Token) (c : UInt8) :
    State.stepGap (ts ++ done) c = (State.stepGap done c).after ts := by
  unfold State.stepGap
  split_ifs
  · rfl
  · simp [State.after]
  · rfl
  · rfl
  · cases Operator.start c with
    | some o => rfl
    | none => rfl

theorem State.step_after (ts : List Token) (s : State) (c : UInt8) : (s.after ts).step c = (s.step c).after ts := by
  obtain ⟨done, mode⟩ := s
  cases mode with
  | gap => exact State.stepGap_after ts done c
  | gapEscape =>
    simp only [State.step, State.after]
    split_ifs <;> rfl
  | comment =>
    simp only [State.step, State.after]
    split_ifs
    · exact State.stepGap_after ts done c
    · rfl
  | operator o =>
    simp only [State.step, State.after]
    cases o.extend c with
    | some o' => rfl
    | none =>
      rw [append_assoc, State.stepGap_after]
      rfl
  | word m w =>
    simp only [State.step, State.after]
    cases m.step c with
    | some next => rfl
    | none =>
      rw [append_assoc, State.stepGap_after]
      rfl

/-- Tokens that are finished do not influence what follows. -/
theorem State.run_after (ts : List Token) (s : State) (t : Text) : (s.after ts).run t = (s.run t).after ts := by
  induction t generalizing s with
  | nil => rfl
  | cons c t ih => rw [State.run_cons, State.run_cons, State.step_after, ih]

theorem State.finish_after (ts : List Token) (s : State) : (s.after ts).finish = s.finish.map (ts ++ ·) := by
  obtain ⟨done, mode⟩ := s
  cases mode with
  | gap | gapEscape | comment => rfl
  | operator o => simp [State.finish, State.after]
  | word m w =>
    simp only [State.finish, State.after]
    cases m.closing <;> simp

theorem head?_any_append {α : Type} {p : α → Bool} {l : List α} (h : l.head?.any p) (l' : List α) :
    (l ++ l').head?.any p := by
  cases l with
  | nil => cases h
  | cons a l => exact h

def separates (c : UInt8) : Bool := endsWord c && !(Operator.start c).any Operator.isRedirect

variable {t : Text}

theorem State.run_separated (done : List Token) (w : Word) (ht : t.head?.any separates) :
    State.run ⟨done, .word .plain w⟩ t = (State.run {} t).after (done ++ [.word w]) := by
  cases t with
  | nil => cases ht
  | cons c t =>
    simp only [head?_cons, any_some, separates, and_eq_true, not_eq_true'] at ht
    have hs : State.step ⟨done, .word .plain w⟩ c = (State.step {} c).after (done ++ [.word w]) := by
      have hg := State.stepGap_after (done ++ [.word w]) [] c
      rw [append_nil] at hg
      simpa [State.step, WordMode.step, backStep, ht.1, WordMode.closing, Word.append, Word.token, ht.2] using hg
    rw [State.run_cons, State.run_cons, hs, State.run_after]

/-! ### Pieces of words -/

def WordMode.scan (m : WordMode) : Text → Option (List Part × WordMode)
  | [] => some ([], m)
  | c :: t => match m.step c with
    | none => none
    | some (ps, m') => (m'.scan t).map fun next => (ps ++ next.1, next.2)

variable {m m' : WordMode} {c : UInt8} {ps : List Part}

theorem WordMode.scan_cons (h : m.step c = some (ps, m')) (t : Text) :
    m.scan (c :: t) = (m'.scan t).map fun next => (ps ++ next.1, next.2) := by
  rw [WordMode.scan, h]

theorem WordMode.scan_cons_eq_some {m'' : WordMode} (h : m.scan (c :: t) = some (ps, m'')) :
    ∃ qs m' rs, m.step c = some (qs, m') ∧ m'.scan t = some (rs, m'') ∧ ps = qs ++ rs := by
  cases hs : m.step c with
  | none => simp [WordMode.scan, hs] at h
  | some next =>
    obtain ⟨qs, m'⟩ := next
    rw [WordMode.scan_cons hs, map_eq_some_iff] at h
    obtain ⟨⟨rs, m₂⟩, hr, heq⟩ := h
    obtain ⟨rfl, rfl⟩ := Prod.mk.inj heq
    exact ⟨qs, m', rs, rfl, hr, rfl⟩

theorem WordMode.scan_append (h : m.scan t = some (ps, m')) (u : Text) :
    m.scan (t ++ u) = (m'.scan u).map fun next => (ps ++ next.1, next.2) := by
  induction t generalizing m ps with
  | nil =>
    obtain ⟨rfl, rfl⟩ := Prod.mk.inj (some.inj h)
    cases hu : m.scan u <;> simp [hu]
  | cons c t ih =>
    obtain ⟨qs, m₁, rs, hs, hr, rfl⟩ := WordMode.scan_cons_eq_some h
    rw [cons_append, WordMode.scan_cons hs, ih hr, Option.map_map]
    congr 1
    funext next
    simp

theorem State.step_word (h : m.step c = some (ps, m'))
    (done : List Token) (w : Word) : State.step ⟨done, .word m w⟩ c = ⟨done, .word m' (w.append [c] ps)⟩ := by
  simp only [State.step, h]

/-- Scanning inside a word, without the tokens around it. -/
theorem State.run_scan (h : m.scan t = some (ps, m')) (done : List Token)
    (w : Word) : State.run ⟨done, .word m w⟩ t = ⟨done, .word m' (w.append t ps)⟩ := by
  induction t generalizing m ps w with
  | nil =>
    obtain ⟨rfl, rfl⟩ := Prod.mk.inj (some.inj h)
    simp [Word.append]
  | cons c t ih =>
    obtain ⟨qs, m₁, rs, hs, hr, rfl⟩ := WordMode.scan_cons_eq_some h
    rw [State.run_cons, State.step_word hs, ih hr]
    simp [Word.append]

variable {u : Text} {ts : List Token} {w : Word}

/-- A word that ends before a separator is one token. -/
theorem lex_append {rest : Text}
    (ht : State.run {} t = ⟨ts, .word m w⟩) (hu : m.scan u = some (ps, .plain)) (hr : rest.head?.any separates) :
    lex (t ++ (u ++ rest)) = (lex rest).map (ts ++ .word (w.append u ps) :: ·) := by
  have hn : State.run {} (t ++ (u ++ rest)) = (State.run {} rest).after (ts ++ [.word (w.append u ps)]) := by
    rw [State.run_append, ht, State.run_append, State.run_scan hu, State.run_separated _ _ hr]
  rw [lex, hn, State.finish_after]
  simp [lex]

theorem lex_append_last (ht : State.run {} t = ⟨ts, .word m w⟩) (hu : m.scan u = some (ps, .plain)) :
    lex (t ++ u) = some (ts ++ [.word (w.append u ps)]) := by
  rw [lex, State.run_append, ht, State.run_scan hu]
  simp [State.finish, WordMode.closing, Word.append]

theorem WordMode.exists_end_of_scan (h : m.scan t = none) :
    ∃ u c v ps m', t = u ++ c :: v ∧ m.scan u = some (ps, m') ∧ m'.step c = none := by
  induction t generalizing m with
  | nil => cases h
  | cons c t ih =>
    cases hs : m.step c with
    | none => exact ⟨[], c, t, [], m, rfl, rfl, hs⟩
    | some next =>
      obtain ⟨qs, m'⟩ := next
      rw [WordMode.scan_cons hs, map_eq_none_iff] at h
      obtain ⟨u, c', v, ps, m₁, rfl, hu, he⟩ := ih h
      refine ⟨c :: u, c', v, qs ++ ps, m₁, rfl, ?_, he⟩
      rw [WordMode.scan_cons hs, hu]
      rfl

theorem scan_plain (ht : ∀ c ∈ t, isSpecial c = false) :
    WordMode.plain.scan t = some (t.map (.char false), .plain) := by
  induction t with
  | nil => rfl
  | cons c t ih =>
    have hc := ht c mem_cons_self
    simp only [isSpecial, isDoubleSpecial, or_eq_false_iff, decide_eq_false_iff_not] at hc
    obtain ⟨⟨he, hn⟩, ⟨⟨hd, hs⟩, hl⟩, hb⟩ := hc
    have hste : WordMode.plain.step c = some ([.char false c], .plain) := by
      simp [WordMode.step, backStep, plainStep, he, hn, hd, hs, hl, hb]
    rw [WordMode.scan_cons hste, ih fun c' hc' => ht c' (mem_cons_of_mem _ hc')]
    rfl

theorem scan_double (ht : ∀ c ∈ t, isDoubleSpecial c = false) :
    WordMode.double.scan t = some (t.map (.char true), .double) := by
  induction t with
  | nil => rfl
  | cons c t ih =>
    have hc := ht c mem_cons_self
    simp only [isDoubleSpecial, or_eq_false_iff, decide_eq_false_iff_not] at hc
    obtain ⟨⟨⟨hd, hs⟩, hl⟩, hb⟩ := hc
    have hste : WordMode.double.step c = some ([.char true c], .double) := by
      simp [WordMode.step, backStep, doubleStep, hd, hs, hl, hb]
    rw [WordMode.scan_cons hste, ih fun c' hc' => ht c' (mem_cons_of_mem _ hc')]
    rfl

/-! ### Single quotes -/

/-- A text in single quotes, in which a single quote is written as `'"'"'`. -/
def singleQuote (t : Text) : Text :=
  byte '\'' :: (t.flatMap fun c => if c = byte '\'' then str "'\"'\"'" else [c]) ++ [byte '\'']

theorem scan_quoted (t : Text) :
    WordMode.single.scan (t.flatMap fun c => if c = byte '\'' then str "'\"'\"'" else [c]) =
      some (t.map (.char true), .single) := by
  induction t with
  | nil => rfl
  | cons c t ih =>
    rw [flatMap_cons]
    by_cases hc : c = '\''
    · subst hc
      have hq : WordMode.single.scan "'\"'\"'" = some ([.char true '\''], .single) := by decide +kernel
      rw [if_pos rfl, WordMode.scan_append hq, ih]
      rfl
    · have hch : WordMode.single.scan [c] = some ([.char true c], .single) := by
        simp [WordMode.scan, WordMode.step, hc]
      rw [if_neg hc, WordMode.scan_append hch, ih]
      rfl

/-- What is quoted for the shell is read back as it was. -/
theorem scan_singleQuote (t : Text) : WordMode.plain.scan (singleQuote t) = some (t.map (.char true), .plain) := by
  have ho : WordMode.plain.step '\'' = some ([], .single) := by decide
  have hc : WordMode.single.scan ['\''] = some ([], .plain) := by decide
  rw [singleQuote, cons_append, WordMode.scan_cons ho, WordMode.scan_append (scan_quoted t), hc]
  simp

/-! ### Words without expansions -/

def isPattern (c : UInt8) : Bool := c ∈ str "*?["

def Part.static : Part → Bool
  | .char quoted c => quoted || !isPattern c
  | .expand .. => false

def Part.value : Part → Text
  | .char _ c => [c]
  | .expand .. => []

def Word.static (w : Word) : Bool := w.parts.all Part.static && w.parts.head? ≠ some (.char false '~')

def Word.value (w : Word) : Text := w.parts.flatMap Part.value

def Word.ofText (t : Text) : Word := ⟨t, t.map (.char false)⟩

@[simp] theorem Word.append_ofText (t u : Text) :
    (Word.ofText t).append u (u.map (.char false)) = .ofText (t ++ u) := by
  simp [Word.append, Word.ofText]

@[simp] theorem Word.value_ofText (t : Text) : (Word.ofText t).value = t := by
  induction t with
  | nil => rfl
  | cons c t ih => simpa [Word.value, Word.ofText, Part.value] using ih

theorem flatMap_value_char (quoted : Bool) (t : Text) : (t.map (Part.char quoted)).flatMap Part.value = t := by
  induction t with
  | nil => rfl
  | cons c t ih => simpa [Part.value] using ih

theorem Word.static_append (hw : w.static) (hne : w.parts ≠ []) (t : Text)
    (hps : ps.all Part.static) : (w.append t ps).static := by
  simp only [Word.static, and_eq_true, decide_eq_true_eq] at hw ⊢
  refine ⟨by simp [Word.append, hw.1, hps], ?_⟩
  cases h : w.parts with
  | nil => exact absurd h hne
  | cons p ps =>
    have hh := hw.2
    simpa [Word.append, h] using hh

theorem all_static_plain (ht : ∀ c ∈ t, isPattern c = false) : (t.map (.char false)).all Part.static := by
  simpa [Part.static] using ht

theorem all_static_quoted (t : Text) : (t.map (.char true)).all Part.static := by
  simp [Part.static]

inductive Quoting
  | plain
  | escape
  | single
  | double
  | doubleEscape
  deriving DecidableEq

def Quoting.mode : Quoting → WordMode
  | .plain => .plain
  | .escape => .escape
  | .single => .single
  | .double => .double
  | .doubleEscape => .doubleEscape

/-- Every quote is closed; what is outside quotes is no blank, newline, operator or pattern character and begins no
expansion, unless it is after a backslash; and no expansion begins between double quotes. -/
def inertFrom : Quoting → Text → Bool
  | q, [] => q = .plain
  | .plain, c :: t =>
    if c = '\'' then inertFrom .single t
    else if c = '"' then inertFrom .double t
    else if c = '\\' then inertFrom .escape t
    else !isSpecial c && !isPattern c && inertFrom .plain t
  | .escape, _ :: t => inertFrom .plain t
  | .single, c :: t => inertFrom (if c = '\'' then .plain else .single) t
  | .double, c :: t =>
    if c = '"' then inertFrom .plain t
    else if c = '\\' then inertFrom .doubleEscape t
    else !isDoubleSpecial c && inertFrom .double t
  | .doubleEscape, _ :: t => inertFrom .double t

def inert (t : Text) : Bool := inertFrom .plain t

def WordMode.expanding : WordMode → Bool
  | .dollar _ | .name .. | .nested .. => true
  | _ => false

theorem not_static_of_expanding (hm : m.expanding) (h : m.scan t = some (ps, .plain)) :
    ps.all Part.static = false := by
  induction t generalizing m ps with
  | nil =>
    obtain ⟨-, rfl⟩ := Prod.mk.inj (some.inj h)
    cases hm
  | cons c t ih =>
    obtain ⟨qs, m', rs, hs, hr, rfl⟩ := WordMode.scan_cons_eq_some h
    -- the next character leaves the expansion open or adds it to the word
    have hn : m'.expanding ∨ ∃ quoted e text, .expand quoted e text ∈ qs := by
      cases m with
      | plain | escape | single | double | doubleEscape => cases hm
      | dollar quoted =>
        simp only [WordMode.step] at hs
        split_ifs at hs
        · obtain ⟨-, rfl⟩ := Prod.mk.inj (some.inj hs)
          exact .inl rfl
        · obtain ⟨-, rfl⟩ := Prod.mk.inj (some.inj hs)
          exact .inl rfl
        · obtain ⟨-, rfl⟩ := Prod.mk.inj (some.inj hs)
          exact .inl rfl
        · obtain ⟨rfl, -⟩ := Prod.mk.inj (some.inj hs)
          exact .inr ⟨_, _, _, mem_singleton_self _⟩
        · obtain ⟨next, -, heq⟩ := map_eq_some_iff.1 hs
          obtain ⟨rfl, -⟩ := Prod.mk.inj heq
          exact .inr ⟨_, _, _, mem_cons_self⟩
      | name quoted text =>
        simp only [WordMode.step] at hs
        split_ifs at hs
        · obtain ⟨-, rfl⟩ := Prod.mk.inj (some.inj hs)
          exact .inl rfl
        · obtain ⟨next, -, heq⟩ := map_eq_some_iff.1 hs
          obtain ⟨rfl, -⟩ := Prod.mk.inj heq
          exact .inr ⟨_, _, _, mem_cons_self⟩
      | nested quoted e opened seen text =>
        simp only [WordMode.step] at hs
        split at hs
        · obtain ⟨rfl, -⟩ := Prod.mk.inj (some.inj hs)
          exact .inr ⟨_, _, _, mem_singleton_self _⟩
        · obtain ⟨-, rfl⟩ := Prod.mk.inj (some.inj hs)
          exact .inl rfl
    rw [all_append, and_eq_false_iff]
    obtain hm' | ⟨quoted, e, text, hmm⟩ := hn
    · exact .inr (ih hm' hr)
    · exact .inl (all_eq_false.2 ⟨_, hmm, by simp [Part.static]⟩)

theorem expanding_of_step {m n : WordMode} {c : UInt8} {qs : List Part} (h : m.step c = some (qs, n))
    (hn : n.expanding) :
    ∀ ps m', m.step c = some (ps, m') → m'.expanding ∨ ps.all Part.static = false := by
  intro ps m' hs
  obtain ⟨-, rfl⟩ := Prod.mk.inj (some.inj (h.symm.trans hs))
  exact .inl hn

theorem inertFrom_cons (q : Quoting) (c : UInt8) :
    (∃ ps q', q.mode.step c = some (ps, Quoting.mode q') ∧ ps.all Part.static ∧
      ∀ t, inertFrom q (c :: t) = inertFrom q' t) ∨
    ((∀ t, inertFrom q (c :: t) = false) ∧ ∀ ps m', q.mode.step c = some (ps, m') →
      m'.expanding ∨ ps.all Part.static = false) := by
  cases q with
  | plain =>
    simp only [inertFrom]
    by_cases hn : c = '\''
    · subst hn
      exact .inl ⟨[], .single, by decide, rfl, fun _ => rfl⟩
    by_cases hd : c = '"'
    · subst hd
      exact .inl ⟨[], .double, by decide, rfl, fun _ => rfl⟩
    by_cases hsl : c = '\\'
    · subst hsl
      exact .inl ⟨[], .escape, by decide, rfl, fun _ => rfl⟩
    simp only [if_neg hn, if_neg hd, if_neg hsl]
    by_cases hl : c = '$'
    · subst hl
      exact .inr ⟨fun _ => rfl, expanding_of_step rfl rfl⟩
    by_cases hb : c = '`'
    · subst hb
      exact .inr ⟨fun _ => rfl, expanding_of_step rfl rfl⟩
    cases he : endsWord c with
    | true =>
      refine .inr ⟨fun t => by simp [isSpecial, he], ?_⟩
      intro ps m' hs
      simp [Quoting.mode, WordMode.step, backStep, he] at hs
    | false =>
      have hs : WordMode.plain.step c = some ([.char false c], .plain) := by
        simp [WordMode.step, backStep, plainStep, he, hn, hd, hsl, hl, hb]
      cases hp : isPattern c with
      | true =>
        refine .inr ⟨fun t => by simp, ?_⟩
        intro ps m' h
        obtain ⟨rfl, -⟩ := Prod.mk.inj (some.inj (hs.symm.trans h))
        exact .inr (by simp [Part.static, hp])
      | false =>
        refine .inl ⟨_, .plain, hs, by simp [Part.static, hp], ?_⟩
        intro t
        simp [isSpecial, isDoubleSpecial, he, hn, hd, hsl, hl, hb]
  | escape =>
    refine .inl ⟨_, .plain, rfl, ?_, fun _ => rfl⟩
    split_ifs <;> rfl
  | single =>
    by_cases hc : c = '\''
    · exact .inl ⟨[], .plain, by simp [Quoting.mode, WordMode.step, hc], rfl, fun _ => by simp [inertFrom, hc]⟩
    · exact .inl ⟨[.char true c], .single,
        by simp [Quoting.mode, WordMode.step, hc], rfl, fun _ => by simp [inertFrom, hc]⟩
  | double =>
    simp only [inertFrom]
    by_cases hd : c = '"'
    · subst hd
      exact .inl ⟨[], .plain, by decide, rfl, fun _ => rfl⟩
    by_cases hsl : c = '\\'
    · subst hsl
      exact .inl ⟨[], .doubleEscape, by decide, rfl, fun _ => rfl⟩
    simp only [if_neg hd, if_neg hsl]
    by_cases hl : c = '$'
    · subst hl
      exact .inr ⟨fun _ => rfl, expanding_of_step rfl rfl⟩
    by_cases hb : c = '`'
    · subst hb
      exact .inr ⟨fun _ => rfl, expanding_of_step rfl rfl⟩
    refine .inl ⟨[.char true c], .double, ?_, rfl, ?_⟩
    · simp [Quoting.mode, WordMode.step, backStep, doubleStep, hd, hsl, hl, hb]
    · intro t
      simp [isDoubleSpecial, hd, hsl, hl, hb]
  | doubleEscape =>
    refine .inl ⟨_, .double, rfl, ?_, fun _ => rfl⟩
    split_ifs <;> rfl

/-- Inert texts are those that stay inside their word and expand to themselves. -/
theorem inertFrom_iff (q : Quoting) (t : Text) :
    inertFrom q t ↔ ∃ ps, q.mode.scan t = some (ps, .plain) ∧ ps.all Part.static := by
  induction t generalizing q with
  | nil => cases q <;> simp [inertFrom, Quoting.mode, WordMode.scan]
  | cons c t ih =>
    obtain ⟨qs, q', hste, hqs, hine⟩ | ⟨hine, hste⟩ := inertFrom_cons q c
    · rw [hine, ih q', WordMode.scan_cons hste]
      constructor
      · rintro ⟨ps, hs, hps⟩
        exact ⟨qs ++ ps, by rw [hs]; rfl, by rw [all_append, hqs, hps]; rfl⟩
      · rintro ⟨ps, hs, hps⟩
        obtain ⟨⟨rs, m⟩, hr, heq⟩ := map_eq_some_iff.1 hs
        obtain ⟨rfl, rfl⟩ := Prod.mk.inj heq
        rw [all_append, and_eq_true] at hps
        exact ⟨rs, hr, hps.2⟩
    · rw [hine]
      refine iff_of_false false_ne_true ?_
      rintro ⟨ps, hs, hps⟩
      obtain ⟨qs, m', rs, ho, hr, rfl⟩ := WordMode.scan_cons_eq_some hs
      rw [all_append, and_eq_true] at hps
      obtain hm' | hqs := hste qs m' ho
      · exact absurd hps.2 (by rw [not_static_of_expanding hm' hr]; exact false_ne_true)
      · exact absurd hps.1 (by rw [hqs]; exact false_ne_true)

theorem inert_iff (t : Text) : inert t ↔ ∃ ps, WordMode.plain.scan t = some (ps, .plain) ∧ ps.all Part.static :=
  inertFrom_iff .plain t

/-! ### Where a word ends -/

variable {done : List Token}

theorem State.exists_append_of_stepGap (h : ((State.stepGap done c).run t).finish = some ts) :
    ∃ rest, ts = done ++ rest := by
  have hg := State.stepGap_after done [] c
  rw [append_nil] at hg
  rw [hg, State.run_after, State.finish_after, map_eq_some_iff] at h
  obtain ⟨rest, -, rfl⟩ := h
  exact ⟨rest, rfl⟩

theorem Word.eq_of_token {v : Word} (h : w.token c = .word v) : v = w := by
  unfold Word.token at h
  split_ifs at h
  exact (Token.word.inj h).symm

theorem State.step_end (h : m.step c = none) (done : List Token) (w : Word) :
    State.step ⟨done, .word m w⟩ c = State.stepGap (done ++ [(w.append [] (m.closing.getD [])).token c]) c := by
  simp only [State.step, h]

theorem State.exists_word_of_finish (hw : w.raw.all isDigit = false)
    (h : (State.run ⟨done, .word m w⟩ t).finish = some ts) :
    ∃ v rest, ts = done ++ .word v :: rest ∧ w.raw <+: v.raw := by
  induction t generalizing m w with
  | nil =>
    obtain ⟨ps, -, rfl⟩ := map_eq_some_iff.1 h
    exact ⟨_, [], rfl, prefix_append _ _⟩
  | cons c t ih =>
    rw [State.run_cons] at h
    cases hs : m.step c with
    | some next =>
      obtain ⟨ps, m'⟩ := next
      rw [State.step_word hs] at h
      obtain ⟨v, rest, rfl, hv⟩ := ih (by simp [Word.append, hw]) h
      exact ⟨v, rest, rfl, (prefix_append _ _).trans hv⟩
    | none =>
      rw [State.step_end hs] at h
      obtain ⟨rest, rfl⟩ := State.exists_append_of_stepGap h
      have ht : (w.append [] (m.closing.getD [])).token c = .word (w.append [] (m.closing.getD [])) := by
        simp [Word.token, Word.append, hw]
      rw [ht, append_assoc]
      exact ⟨_, rest, rfl, prefix_append _ _⟩

theorem closing_static (h : m.step c = none) (hs : (m.closing.getD []).all Part.static) : m = .plain := by
  cases m with
  | plain => rfl
  | escape | single | double | doubleEscape => simp [WordMode.step, backStep] at h
  | dollar quoted =>
    cases quoted with
    | false => exact absurd hs (by decide)
    | true =>
      simp only [WordMode.step, backStep, if_true, map_some] at h
      split_ifs at h
  | name quoted text =>
    cases quoted with
    | false => exact absurd hs (by simp [WordMode.closing, Part.static])
    | true =>
      simp only [WordMode.step, backStep, if_true, map_some] at h
      split_ifs at h
  | nested quoted e opened seen text =>
    simp only [WordMode.step] at h
    split at h <;> cases h

/-- A text that is read as a part of one static word is inert. -/
theorem inert_of_finish {more : List Token} {v : Word} {rest : Text} (hw : w.raw.all isDigit = false)
    (hr : rest.head?.any separates)
    (h : (State.run ⟨done, .word .plain w⟩ (u ++ rest)).finish = some (done ++ .word v :: more))
    (hrw : v.raw = w.raw ++ u) (hsta : v.parts.all Part.static) : inert u := by
  cases hs : WordMode.plain.scan u with
  | none =>
    -- the word ends before the end of `u`
    obtain ⟨u₁, c, u₂, ps, m, rfl, hu₁, he⟩ := WordMode.exists_end_of_scan hs
    rw [append_assoc, State.run_append, State.run_scan hu₁, cons_append, State.run_cons, State.step_end he] at h
    obtain ⟨more', hmr⟩ := State.exists_append_of_stepGap h
    rw [append_assoc, append_cancel_left_eq] at hmr
    have hv := Word.eq_of_token (cons.inj hmr).1.symm
    rw [hv] at hrw
    have hl := congrArg length hrw
    simp [Word.append] at hl
  | some next =>
    obtain ⟨ps, m⟩ := next
    rw [State.run_append, State.run_scan hs] at h
    cases rest with
    | nil => cases hr
    | cons c rest =>
      rw [State.run_cons] at h
      cases hste : m.step c with
      | some next =>
        -- the word goes on after `u`
        obtain ⟨qs, m'⟩ := next
        rw [State.step_word hste] at h
        obtain ⟨v', more', hmr, hp⟩ := State.exists_word_of_finish (by simp [Word.append, hw]) h
        rw [append_cancel_left_eq] at hmr
        cases hmr
        have hl := hp.length_le
        simp only [hrw, Word.append, length_append, length_singleton] at hl
        omega
      | none =>
        rw [State.step_end hste] at h
        obtain ⟨more', hmr⟩ := State.exists_append_of_stepGap h
        rw [append_assoc, append_cancel_left_eq] at hmr
        have hv := Word.eq_of_token (cons.inj hmr).1.symm
        rw [hv] at hsta
        simp only [Word.append, all_append, and_eq_true] at hsta
        have hm := closing_static hste hsta.2
        subst hm
        exact (inert_iff u).2 ⟨ps, hs, hsta.1.2⟩

end Shell
