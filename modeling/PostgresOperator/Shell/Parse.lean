import PostgresOperator.Shell.Lex

/-!
# The commands of a shell script

The grammar of the POSIX shell over the tokens of `Shell.Lex`: simple commands with assignments and redirections,
pipelines, `&&` and `||` lists, `if` and `while`.  The parse is the sequence of the simple commands with the operators
and reserved words between them.  A script with other constructs (subshells, functions, `case`, `for`, braces, `!`,
here-documents) has no parse here, and neither has one with a syntax error.

The parser takes one token at a time, so that a script which is written in pieces is parsed in pieces.
-/

namespace Shell

open Go Parser Option List

/-! ### Commands -/

structure Redirect where
  fd : Option Text
  op : Operator
  target : Word
  deriving DecidableEq

structure Simple where
  assigns : List Word := []
  words : List Word := []
  redirects : List Redirect := []
  deriving DecidableEq

/-- The reserved words of the constructs that are parsed. -/
inductive Reserved
  | ifWord
  | thenWord
  | elifWord
  | elseWord
  | fiWord
  | whileWord
  | untilWord
  | doWord
  | doneWord
  deriving DecidableEq

def Reserved.ofText (t : Text) : Option Reserved :=
  [(str "if", Reserved.ifWord), (str "then", .thenWord), (str "elif", .elifWord), (str "else", .elseWord),
    ("fi", .fiWord), ("while", .whileWord), ("until", .untilWord), ("do", .doWord),
    ("done", .doneWord)].lookup t

def otherReserved : List Text := [['\x7b'], ['\x7d'], "!", "case", "esac", "for", "in"]

inductive Node
  | simple (c : Simple)
  | op (o : Operator)
  | reserved (r : Reserved)
  deriving DecidableEq

def Simple.static (c : Simple) : Bool :=
  c.assigns.all Word.static && c.words.all Word.static && c.redirects.all fun r => r.target.static

def Simple.argv (c : Simple) : Option (List Text) := if c.static then some (c.words.map Word.value) else none

def Node.static : Node → Bool
  | .simple c => c.static
  | .op _ | .reserved _ => true

def isAssignment (t : Text) : Bool :=
  (t.head?.any isNameStart) && (t.dropWhile isNameChar).head? = some (byte '=')

def Simple.add (c : Simple) (w : Word) : Simple :=
  if c.words = [] ∧ isAssignment w.raw then { c with assigns := c.assigns ++ [w] }
  else { c with words := c.words ++ [w] }

/-! ### The parser -/

inductive Block
  | ifCondition
  | thenBody
  | elseBody
  | loopCondition
  | loopBody
  deriving DecidableEq

/-- Where the parser is: in front of a command, which may be `required`; in a simple command; after the number or the
operator of a redirection of it; or behind a compound command. -/
inductive Place
  | start (required : Bool)
  | command (c : Simple)
  | number (c : Simple) (fd : Text)
  | redirect (c : Simple) (fd : Option Text) (o : Operator)
  | closed
  deriving DecidableEq

structure Parser where
  out : List Node := []
  blocks : List Block := []
  place : Place := .start false
  deriving DecidableEq

/-- The blocks after a reserved word where a command is `required` or not, and whether one is required after it;
`none` for the place behind a compound command. -/
def Reserved.blocks (r : Reserved) (required : Bool) (blocks : List Block) : Option (List Block × Place) :=
  match r, required, blocks with
  | .ifWord, _, bs => some (.ifCondition :: bs, .start true)
  | .whileWord, _, bs | .untilWord, _, bs => some (.loopCondition :: bs, .start true)
  | .thenWord, false, .ifCondition :: bs => some (.thenBody :: bs, .start true)
  | .elifWord, false, .thenBody :: bs => some (.ifCondition :: bs, .start true)
  | .elseWord, false, .thenBody :: bs => some (.elseBody :: bs, .start true)
  | .fiWord, false, .thenBody :: bs | .fiWord, false, .elseBody :: bs => some (bs, .closed)
  | .doWord, false, .loopCondition :: bs => some (.loopBody :: bs, .start true)
  | .doneWord, false, .loopBody :: bs => some (bs, .closed)
  | _, _, _ => none

variable (p : Parser) (ts : List Token) (ns : List Node)

def Parser.word (w : Word) : Option Parser :=
  match p.place with
  | .start required => match Reserved.ofText w.raw with
    | some r => (r.blocks required p.blocks).map fun next => ⟨p.out ++ [.reserved r], next.1, next.2⟩
    | none => if w.raw ∈ otherReserved then none else some { p with place := .command (Simple.add {} w) }
  | .command c => some { p with place := .command (c.add w) }
  | .redirect c fd o => some { p with place := .command { c with redirects := c.redirects ++ [⟨fd, o, w⟩] } }
  | .number .. | .closed => none

def Parser.control (o : Operator) : Option Parser :=
  match p.place with
  | .start _ => if o = .newline then some p else none
  | .command c =>
    some { p with out := p.out ++ [.simple c, .op o], place := .start (o = .andIf ∨ o = .orIf ∨ o = .pipe) }
  | .closed => some { p with out := p.out ++ [.op o], place := .start (o = .andIf ∨ o = .orIf ∨ o = .pipe) }
  | .number .. | .redirect .. => none

def Parser.redirection (o : Operator) : Option Parser :=
  match p.place with
  | .start _ => some { p with place := .redirect {} none o }
  | .command c => some { p with place := .redirect c none o }
  | .number c fd => some { p with place := .redirect c (some fd) o }
  | .redirect .. | .closed => none

def Parser.step (t : Token) : Option Parser :=
  match t with
  | .word w => p.word w
  | .ioNumber digits => match p.place with
    | .start _ => some { p with place := .number {} digits }
    | .command c => some { p with place := .number c digits }
    | _ => none
  | .op .newline => p.control .newline
  | .op .semi => p.control .semi
  | .op .amp => p.control .amp
  | .op .andIf => p.control .andIf
  | .op .orIf => p.control .orIf
  | .op .pipe => p.control .pipe
  | .op .dsemi | .op .lparen | .op .rparen | .op .dless | .op .dlessDash => none
  | .op o => p.redirection o

def Parser.run (p : Parser) : List Token → Option Parser
  | [] => some p
  | t :: ts => (p.step t).bind fun p' => p'.run ts

def Parser.finish : Option (List Node) :=
  match p.blocks, p.place with
  | [], .start false | [], .closed => some p.out
  | [], .command c => some (p.out ++ [.simple c])
  | _, _ => none

def parseTokens : Option (List Node) := (Parser.run {} ts).bind Parser.finish

def parse (t : Text) : Option (List Node) := (lex t).bind parseTokens

/-! ### Parsing piece by piece -/

@[simp] theorem Parser.run_nil : p.run [] = some p := rfl

theorem Parser.run_cons (t : Token) (ts : List Token) : p.run (t :: ts) = (p.step t).bind fun p' => p'.run ts := rfl

def Parser.after (p : Parser) : Parser := { p with out := ns ++ p.out }

theorem Parser.step_after (p : Parser) (t : Token) : (p.after ns).step t = (p.step t).map (after ns) := by
  obtain ⟨out, blocks, place⟩ := p
  have hc : ∀ o, control (after ns ⟨out, blocks, place⟩) o =
      (control ⟨out, blocks, place⟩ o).map (after ns) := by
    intro o
    cases place with
    | start required =>
      simp only [control, after]
      split_ifs <;> rfl
    | command c | closed => simp [control, after]
    | number | redirect => rfl
  have hr : ∀ o, redirection (after ns ⟨out, blocks, place⟩) o =
      (redirection ⟨out, blocks, place⟩ o).map (after ns) := by
    intro o
    cases place <;> rfl
  cases t with
  | word w =>
    cases place with
    | start required =>
      simp only [step, word, after]
      cases Reserved.ofText w.raw with
      | some r =>
        dsimp only
        cases r.blocks required blocks <;> simp [after]
      | none =>
        simp only
        split_ifs <;> rfl
    | command c | redirect c fd o | number c fd | closed => rfl
  | ioNumber digits => cases place <;> rfl
  | op o =>
    cases o with
    | newline | semi | amp | andIf | orIf | pipe => exact hc _
    | less | lessAnd | lessGreat | great | dgreat | greatAnd | clobber => exact hr _
    | dsemi | lparen | rparen | dless | dlessDash => rfl

/-- Commands that are finished do not influence what follows. -/
theorem Parser.run_after (p : Parser) (ts : List Token) :
    (p.after ns).run ts = (p.run ts).map (after ns) := by
  induction ts generalizing p with
  | nil => rfl
  | cons t ts ih =>
    rw [run_cons, run_cons, step_after]
    cases p.step t with
    | none => rfl
    | some p' => exact ih p'

theorem Parser.finish_after (p : Parser) : (p.after ns).finish = p.finish.map (ns ++ ·) := by
  obtain ⟨out, blocks, place⟩ := p
  cases blocks with
  | cons b bs => rfl
  | nil =>
    cases place with
    | start required => cases required <;> rfl
    | command c => simp [finish, after]
    | number | redirect | closed => rfl

variable {c : Simple}

theorem Parser.run_arguments {out : List Node} {bs : List Block} (hc : c.words ≠ []) (ws : List Word)
    (ts : List Token) : run ⟨out, bs, .command c⟩ (ws.map .word ++ ts) =
      run ⟨out, bs, .command { c with words := c.words ++ ws }⟩ ts := by
  induction ws generalizing c with
  | nil => simp
  | cons w ws ih =>
    have ha : c.add w = { c with words := c.words ++ [w] } := by simp [Simple.add, hc]
    rw [map_cons, cons_append, run_cons]
    simp only [step, word, bind_some, ha]
    rw [ih (by simp)]
    simp

def Word.isCommandName (w : Word) : Bool :=
  Reserved.ofText w.raw = none && w.raw ∉ otherReserved && !isAssignment w.raw

/-- Words in command position make one simple command. -/
theorem Parser.run_command {ws : List Word} (hws : ws.head?.any Word.isCommandName) (out : List Node)
    (bs : List Block)
    (required : Bool) (ts : List Token) : run ⟨out, bs, .start required⟩ (ws.map .word ++ ts) =
      run ⟨out, bs, .command { words := ws }⟩ ts := by
  cases ws with
  | nil => cases hws
  | cons w ws =>
    simp only [head?_cons, any_some, Word.isCommandName, Bool.and_eq_true, decide_eq_true_eq,
      Bool.not_eq_true'] at hws
    obtain ⟨⟨hr, ho⟩, ha⟩ := hws
    have hd : Simple.add {} w = { words := [w] } := by simp [Simple.add, ha]
    rw [map_cons, cons_append, run_cons]
    simp only [step, word, hr, if_neg ho, bind_some, hd]
    exact run_arguments (by simp) ws ts

/-! ### What is left of a command -/

def Place.simple : Place → Option Simple
  | .command c | .number c _ | .redirect c _ _ => some c
  | .start _ | .closed => none

variable {p : Parser}

theorem Parser.step_simple {p' : Parser} (hp : p.place.simple = some c) {t : Token} (h : p.step t = some p') :
    (p'.out = p.out ∧ ∃ c', p'.place.simple = some c' ∧ c.words <+: c'.words) ∨
      ∃ o, p'.out = p.out ++ [.simple c, .op o] := by
  obtain ⟨out, blocks, place⟩ := p
  cases place with
  | start required => cases hp
  | closed => cases hp
  | command c₀ =>
    cases hp
    have hc : ∀ o, control ⟨out, blocks, .command c⟩ o = some p' → ∃ o, p'.out = out ++ [.simple c, .op o] := by
      intro o ho
      exact ⟨o, (congrArg Parser.out (some.inj ho)).symm⟩
    have hr : ∀ o, redirection ⟨out, blocks, .command c⟩ o = some p' →
        p'.out = out ∧ ∃ c', p'.place.simple = some c' ∧ c.words <+: c'.words := by
      intro o ho
      cases some.inj ho
      exact ⟨rfl, c, rfl, prefix_rfl⟩
    cases t with
    | word w =>
      cases some.inj h
      refine .inl ⟨rfl, _, rfl, ?_⟩
      unfold Simple.add
      split_ifs
      · exact prefix_rfl
      · exact prefix_append _ _
    | ioNumber digits =>
      cases some.inj h
      exact .inl ⟨rfl, c, rfl, prefix_rfl⟩
    | op o =>
      cases o with
      | newline | semi | amp | andIf | orIf | pipe => exact .inr (hc _ h)
      | less | lessAnd | lessGreat | great | dgreat | greatAnd | clobber => exact .inl (hr _ h)
      | dsemi | lparen | rparen | dless | dlessDash => cases h
  | number c₀ fd =>
    cases hp
    cases t with
    | word w => cases h
    | ioNumber digits => cases h
    | op o =>
      cases o with
      | newline | semi | amp | andIf | orIf | pipe => cases h
      | dsemi | lparen | rparen | dless | dlessDash => cases h
      | less | lessAnd | lessGreat | great | dgreat | greatAnd | clobber =>
        cases some.inj h
        exact .inl ⟨rfl, c, rfl, prefix_rfl⟩
  | redirect c₀ fd o =>
    cases hp
    cases t with
    | word w =>
      cases some.inj h
      exact .inl ⟨rfl, _, rfl, prefix_rfl⟩
    | ioNumber digits => cases h
    | op o =>
      cases o with
      | newline | semi | amp | andIf | orIf | pipe => cases h
      | less | lessAnd | lessGreat | great | dgreat | greatAnd | clobber => cases h
      | dsemi | lparen | rparen | dless | dlessDash => cases h

theorem Parser.exists_append_of_finish {ts : List Token} {ns : List Node}
    (h : (p.run ts).bind finish = some ns) : ∃ rest, ns = p.out ++ rest := by
  have hp : p = after p.out { p with out := [] } := by simp [after]
  rw [hp, run_after] at h
  cases hr : run { p with out := [] } ts with
  | none => simp [hr] at h
  | some p' =>
    rw [hr, map_some, bind_some, finish_after, map_eq_some_iff] at h
    obtain ⟨rest, -, rfl⟩ := h
    exact ⟨rest, rfl⟩

/-- A command that was begun is in the result, with all its words. -/
theorem Parser.exists_simple_of_finish (hp : p.place.simple = some c) {ts : List Token}
    {ns : List Node} (h : (p.run ts).bind finish = some ns) :
    ∃ c' rest, ns = p.out ++ .simple c' :: rest ∧ c.words <+: c'.words := by
  induction ts generalizing p c with
  | nil =>
    obtain ⟨out, blocks, place⟩ := p
    cases blocks with
    | cons b bs => cases h
    | nil =>
      cases place with
      | start required => cases hp
      | closed => cases hp
      | number c₀ fd => cases h
      | redirect c₀ fd o => cases h
      | command c₀ =>
        cases hp
        cases some.inj h
        exact ⟨c, [], rfl, prefix_rfl⟩
  | cons t ts ih =>
    rw [run_cons] at h
    cases hs : p.step t with
    | none => simp [hs] at h
    | some p' =>
      rw [hs, bind_some] at h
      obtain ⟨ho, c₁, hc₁, hpr⟩ | ⟨o, ho⟩ := step_simple hp hs
      · obtain ⟨c', rest, rfl, hc'⟩ := ih hc₁ h
        exact ⟨c', rest, by rw [ho], hpr.trans hc'⟩
      · obtain ⟨rest, rfl⟩ := exists_append_of_finish h
        exact ⟨c, .op o :: rest, by rw [ho]; simp, prefix_rfl⟩

end Shell
