import PostgresOperator.Router.Tokenize

/-!
# SQL texts

A SQL text is a list of pieces (words, literals, operators, white space, comments) that PostgreSQL's lexical rules
keep apart.  The tokenizer of the router reads exactly the tokens of the pieces (`SqlText.tokenize_text`), except
where its rules differ from those of PostgreSQL: block comments nest there and not here, a comment may start directly
after an operator there and not here, and a line comment ends at a carriage return there and not here.  Texts without
these are called plain.
-/

namespace PostgresOperator

open Go List

/-! ### Pieces -/

def isWord : Str → Bool
  | [] => false
  | c :: s => isIdentStart c && s.all isIdentPart

def isNumber : Str → Bool
  | [] => false
  | c :: s => isDigit c && s.all isNumPart

def hasPair (a b : UInt8) : Str → Bool
  | c :: c' :: s => (c = a && c' = b) || hasPair a b (c' :: s)
  | _ => false

def isOperator (o : Str) : Bool :=
  o ≠ [] && o.all isOpChar && !hasPair '-' '-' o && !hasPair '/' '*' o

def isOther (c : UInt8) : Bool :=
  !(isBlank c || isIdentStart c || isDigit c || isPunct c || isOpChar c
    || c = '\'' || c = '"' || c = '$')

/-- What follows a block comment that is open `d + 1` times, as PostgreSQL reads it. -/
def nestedRest : Nat → Str → Option Str
  | d, c :: c' :: s =>
    if c = '*' ∧ c' = '/' then
      match d with
      | 0 => some s
      | d + 1 => nestedRest d s
    else if c = '/' ∧ c' = '*' then nestedRest (d + 1) s
    else nestedRest d (c' :: s)
  | _, _ => none

def dollarTag (tag : Str) : Str := byte '$' :: tag ++ [byte '$']

/-- A piece of a SQL text.  A number may have letters at its end (`1e5`, `0x1f`), which are part of the literal. -/
inductive Piece
  | blank (c : UInt8) (h : isBlank c := by exact Eq.refl true)
  | lineComment (body : Str) (h : byte '\n' ∉ body ∧ byte '\r' ∉ body := by decide)
  | blockComment (body : Str) (h : nestedRest 0 (body ++ "*/") = some [] := by decide)
  | word (w : Str) (h : isWord w := by exact Eq.refl true)
  | quoted (name : Str)
  | string (body : Str)
  | dollar (tag body : Str)
      (h : tag.all isTagChar ∧ cut (dollarTag tag) (body ++ dollarTag tag) = some (body, []) := by decide)
  | number (digits letters : Str)
      (h : isNumber digits ∧ (letters = [] ∨ isWord letters) := by decide)
  | punct (c : UInt8) (h : isPunct c := by exact Eq.refl true)
  | op (o : Str) (h : isOperator o := by exact Eq.refl true)
  | other (c : UInt8) (h : isOther c := by exact Eq.refl true)
  deriving DecidableEq

def double (q : UInt8) : Str → Str
  | [] => []
  | c :: s => if c = q then q :: q :: double q s else c :: double q s

def Piece.text : Piece → Str
  | .blank c _ => [c]
  | .lineComment body _ => "--" ++ body
  | .blockComment body _ => "/*" ++ body ++ "*/"
  | .word w _ => w
  | .quoted name => byte '"' :: double (byte '"') name ++ [byte '"']
  | .string body => byte '\'' :: double (byte '\'') body ++ [byte '\'']
  | .dollar tag body _ => dollarTag tag ++ body ++ dollarTag tag
  | .number digits letters _ => digits ++ letters
  | .punct c _ => [c]
  | .op o _ => o
  | .other c _ => [c]

def Piece.tokens : Piece → List Token
  | .blank _ _ | .lineComment _ _ | .blockComment _ _ => []
  | .word w _ => [⟨.ident, w⟩]
  | .quoted name => [⟨.ident, name⟩]
  | .string body => [⟨.str, body⟩]
  | .dollar _ body _ => [⟨.str, body⟩]
  | .number digits letters _ => ⟨.num, digits⟩ :: if letters = [] then [] else [⟨.ident, letters⟩]
  | .punct c _ => [⟨.sym, [c]⟩]
  | .op o _ => [⟨.sym, o⟩]
  | .other c _ => [⟨.sym, [c]⟩]

def Piece.isGap : Piece → Bool
  | .blank _ _ | .lineComment _ _ | .blockComment _ _ => true
  | _ => false

variable {w : Str}

theorem isWord_ascii (h : isWord w) : Ascii w := by
  have hc : ∀ c : UInt8, isIdentPart c → c < 0x80 := by decide +kernel
  cases w with
  | nil => cases h
  | cons c w =>
    simp only [isWord, Bool.and_eq_true, all_eq_true] at h
    intro b hb
    rcases mem_cons.1 hb with rfl | hb
    · exact hc b (by simp [isIdentPart, h.1])
    · exact hc b (h.2 b hb)

theorem isWord_map_lowerByte (h : isWord w) : isWord (w.map lowerByte) := by
  have hs : ∀ c : UInt8, isIdentStart c → isIdentStart (lowerByte c) := by decide +kernel
  have hp : ∀ c : UInt8, isIdentPart c → isIdentPart (lowerByte c) := by decide +kernel
  cases w with
  | nil => cases h
  | cons c w =>
    simp only [isWord, Bool.and_eq_true, all_eq_true, map_cons, mem_map] at h ⊢
    refine ⟨hs c h.1, ?_⟩
    rintro _ ⟨b, hb, rfl⟩
    exact hp b (h.2 b hb)

def Piece.lower : Piece → Piece
  | .word w h => .word (w.map lowerByte) (isWord_map_lowerByte h)
  | p => p

/-! ### Texts -/

/-- The text starts with no byte of the class `p`. -/
def headNot (p : UInt8 → Bool) (s : Str) : Bool := !s.head?.any p

variable (s : Str) (t : SqlText)

def startsComment : Bool := (str "--").isPrefixOf s || (str "/*").isPrefixOf s

def leavesSign (o : Str) : Bool := o.all fun c => (str "=<>+-*/").contains c

/-- PostgreSQL ends the piece where it is to end when `rest` follows.  A string directly after a word (`E'…'`) and
after `U&` is a literal of another kind. -/
def Piece.endsBefore : Piece → Str → Bool
  | .lineComment _ _, rest => rest.head?.all fun c => c = byte '\n' || c = byte '\r'
  | .word w _, rest => headNot (fun c => isIdentPart c || c = '\'') rest
      && !(toLower w = "u" && ((str "&'").isPrefixOf rest || (str "&\"").isPrefixOf rest))
  | .quoted _, rest => headNot (· = '"') rest
  | .string _, rest => headNot (· = '\'') rest
  | .number _ letters _, rest => headNot (fun c => isIdentPart c || (letters = [] && c = '.')) rest
  | .op o _, rest => headNot isOpChar rest || startsComment rest
      || (leavesSign o && rest.head?.any fun c => c = byte '+' || c = byte '-')
  | _, _ => true

def Piece.plainBefore : Piece → Str → Bool
  | .lineComment _ _, rest => headNot (· = '\r') rest
  | .blockComment body _, _ => !hasPair '*' '/' body
  | .op _ _, rest => headNot isOpChar rest
  | _, _ => true

def render (ps : List Piece) : Str := ps.flatMap Piece.text

def endsApart (ends : Piece → Str → Bool) : List Piece → Bool
  | [] => true
  | p :: ps => ends p (render ps) && endsApart ends ps

structure SqlText where
  pieces : List Piece
  apart : endsApart Piece.endsBefore pieces := by decide
  deriving DecidableEq

def SqlText.text : Str := render t.pieces

def SqlText.lexemes : List Piece := t.pieces.filter fun p => !p.isGap

/-- No nested comment, no comment or sign directly after an operator, no line comment before a carriage return. -/
def SqlText.Plain : Prop := endsApart Piece.plainBefore t.pieces

instance (t : SqlText) : Decidable t.Plain := inferInstanceAs (Decidable (_ = _))

/-! ### One round of the tokenizer on a piece -/

variable {c : UInt8}

theorem scan_blank (h : isBlank c) (s : Str) : scan c s = (none, s) := by
  simp [scan, h]

theorem scan_identStart (h : isIdentStart c) (s : Str) :
    scan c s = (some ⟨.ident, c :: s.takeWhile isIdentPart⟩, s.dropWhile isIdentPart) := by
  have hc : ∀ c : UInt8, isIdentStart c → isBlank c = false ∧ c ≠ '-' ∧ c ≠ '/' ∧
      c ≠ '\'' ∧ c ≠ '"' ∧ c ≠ '$' := by decide +kernel
  obtain ⟨h1, h2, h3, h4, h5, h6⟩ := hc c h
  simp only [scan, h, h1, h2, h3, h4, h5, h6, false_and, if_false, if_true, Bool.false_eq_true]

theorem scan_digit (h : isDigit c) (s : Str) :
    scan c s = (some ⟨.num, c :: s.takeWhile isNumPart⟩, s.dropWhile isNumPart) := by
  have hc : ∀ c : UInt8, isDigit c → isBlank c = false ∧ c ≠ '-' ∧ c ≠ '/' ∧
      c ≠ '\'' ∧ c ≠ '"' ∧ c ≠ '$' ∧ isIdentStart c = false := by decide +kernel
  obtain ⟨h1, h2, h3, h4, h5, h6, h7⟩ := hc c h
  simp only [scan, h, h1, h2, h3, h4, h5, h6, h7, false_and, if_false, if_true, Bool.false_eq_true]

theorem scan_punct (h : isPunct c) (s : Str) : scan c s = (some ⟨.sym, [c]⟩, s) := by
  have hc : ∀ c : UInt8, isPunct c → isBlank c = false ∧ c ≠ '-' ∧ c ≠ '/' ∧
      c ≠ '\'' ∧ c ≠ '"' ∧ c ≠ '$' ∧ isIdentStart c = false ∧ isDigit c = false := by decide +kernel
  obtain ⟨h1, h2, h3, h4, h5, h6, h7, h8⟩ := hc c h
  simp only [scan, h, h1, h2, h3, h4, h5, h6, h7, h8, false_and, if_false, if_true, Bool.false_eq_true]

variable {s : Str}

theorem scan_opChar (h : isOpChar c)
    (hl : ¬(c = '-' ∧ s.head? = some (byte '-'))) (hb : ¬(c = '/' ∧ s.head? = some (byte '*'))) :
    scan c s = (some ⟨.sym, c :: s.takeWhile isOpChar⟩, s.dropWhile isOpChar) := by
  have hc : ∀ c : UInt8, isOpChar c → isBlank c = false ∧ c ≠ '\'' ∧ c ≠ '"' ∧
      c ≠ '$' ∧ isIdentStart c = false ∧ isDigit c = false ∧ isPunct c = false := by decide +kernel
  obtain ⟨h1, h2, h3, h4, h5, h6, h7⟩ := hc c h
  simp only [scan, h, h1, h2, h3, h4, h5, h6, h7, hl, hb, if_false, if_true, Bool.false_eq_true]

theorem scan_other (h : isOther c) (s : Str) : scan c s = (some ⟨.sym, [c]⟩, s) := by
  have hc : ∀ c : UInt8, isOther c → isBlank c = false ∧ c ≠ '-' ∧ c ≠ '/' ∧
      c ≠ '\'' ∧ c ≠ '"' ∧ c ≠ '$' ∧ isIdentStart c = false ∧ isDigit c = false ∧ isPunct c = false ∧
      isOpChar c = false := by decide +kernel
  obtain ⟨h1, h2, h3, h4, h5, h6, h7, h8, h9, h10⟩ := hc c h
  simp only [scan, h1, h2, h3, h4, h5, h6, h7, h8, h9, h10, false_and, if_false, Bool.false_eq_true]

variable {rest : Str}

theorem takeWhile_append_stop {p : UInt8 → Bool} (hw : w.all p)
    (hr : headNot p rest) : (w ++ rest).takeWhile p = w ∧ (w ++ rest).dropWhile p = rest := by
  have ha : ∀ c ∈ w, p c := all_eq_true.1 hw
  have hs : rest.takeWhile p = [] ∧ rest.dropWhile p = rest := by
    cases rest with
    | nil => simp
    | cons c rest =>
      have hc : p c = false := by simpa [headNot] using hr
      simp [hc]
  rw [takeWhile_append_of_pos ha, dropWhile_append_of_pos ha, hs.1, hs.2]
  simp

/-- A quoted text is read back with its doubled quotes undone. -/
theorem readQuoted_double (q : UInt8) (body : Str)
    (hr : headNot (· = q) rest) : readQuoted q (double q body ++ q :: rest) = (body, rest) := by
  induction body with
  | nil =>
    cases rest with
    | nil => simp [double, readQuoted]
    | cons c rest =>
      have hc : c ≠ q := by simpa [headNot] using hr
      simp [double, readQuoted, hc]
  | cons c body ih =>
    by_cases hc : c = q
    · simp only [double, hc, if_true, cons_append, readQuoted, ih]
    · simp only [double, hc, if_false, cons_append]
      unfold readQuoted
      simp only [hc, if_false, ih]

theorem skipBlock_append {body : Str} (h : hasPair '*' '/' body = false)
    (rest : Str) : skipBlock (body ++ "*/" ++ rest) = rest := by
  induction body with
  | nil => simp [skipBlock, str, byte]
  | cons c body ih =>
    -- the pair at the border is not `*/` either: the body is followed by a star
    have hn : ¬(c = '*' ∧ (body ++ "*/" ++ rest).head? = some (byte '/')) := by
      rintro ⟨rfl, hh⟩
      cases body with
      | nil => exact absurd (Option.some.inj hh) (by decide)
      | cons c' body =>
        simp only [cons_append, head?_cons, Option.some.injEq] at hh
        simp [hasPair, hh] at h
    have ht : hasPair '*' '/' body = false := by
      cases body with
      | nil => rfl
      | cons c' body => simp_all [hasPair]
    rw [cons_append, cons_append, skipBlock, if_neg hn]
    exact ih ht

theorem length_le_of_cut {sep a b : Str} (h : cut sep s = some (a, b)) : sep.length ≤ s.length := by
  induction s generalizing a b with
  | nil =>
    simp only [cut] at h
    split at h
    · simp_all
    · cases h
  | cons c s ih =>
    unfold cut at h
    split at h
    · rename_i hs
      exact ( isPrefixOf_iff_prefix.1 hs).length_le
    · obtain ⟨x, hx, -⟩ := Option.map_eq_some_iff.1 h
      have := ih hx
      simp only [length_cons]
      omega

theorem cut_append {sep a b : Str} (hs : sep ≠ []) (h : cut sep s = some (a, b)) (t : Str) :
    cut sep (s ++ t) = some (a, b ++ t) := by
  induction s generalizing a with
  | nil => simp [cut, hs] at h
  | cons c s ih =>
    unfold cut at h
    split at h
    · rename_i hpr
      cases h
      have hle := ( isPrefixOf_iff_prefix.1 hpr).length_le
      have hpr' : sep.isPrefixOf ((c :: s) ++ t) :=
        isPrefixOf_iff_prefix.2 (( isPrefixOf_iff_prefix.1 hpr).trans (prefix_append _ _))
      rw [cons_append] at hpr' ⊢
      rw [cut, if_pos hpr', ← cons_append, drop_append_of_le_length hle]
    · rename_i hpr
      obtain ⟨x, hx, hx'⟩ := Option.map_eq_some_iff.1 h
      cases hx'
      have hle := length_le_of_cut hx
      have hpr' : ¬ sep.isPrefixOf (c :: (s ++ t)) := by
        intro hp
        apply hpr
        rw [ isPrefixOf_iff_prefix] at hp ⊢
        exact prefix_of_prefix_length_le hp (prefix_append (c :: s) t) (by simp; omega)
      rw [cons_append, cut, if_neg hpr', ih hx]
      rfl

/-- A dollar-quoted text ends at the first repetition of its tag. -/
theorem dollarQuoted_append {tag body : Str} (hg : tag.all isTagChar)
    (hb : cut (dollarTag tag) (body ++ dollarTag tag) = some (body, [])) (rest : Str) :
    dollarQuoted (tag ++ byte '$' :: (body ++ dollarTag tag ++ rest)) = some (body, rest) := by
  have hs : headNot isTagChar ('$' :: (body ++ dollarTag tag ++ rest)) := by
    simp [headNot]
    decide
  obtain ⟨ht, hd⟩ := takeWhile_append_stop hg hs
  have hc := cut_append (by simp [dollarTag]) hb rest
  unfold dollarQuoted
  rw [hd, ht]
  change some ((cut (dollarTag tag) (body ++ dollarTag tag ++ rest)).getD _) = _
  rw [hc]
  rfl

/-! ### The tokens of a text -/

theorem tokenize_word (h : isWord w)
    (hr : headNot isIdentPart rest) : tokenize (w ++ rest) = ⟨.ident, w⟩ :: tokenize rest := by
  cases w with
  | nil => cases h
  | cons c w =>
    simp only [isWord, Bool.and_eq_true] at h
    obtain ⟨ht, hd⟩ := takeWhile_append_stop h.2 hr
    rw [cons_append, tokenize_cons, scan_identStart h.1, ht, hd]
    rfl

theorem tokenize_number {d : Str} (h : isNumber d)
    (hr : headNot isNumPart rest) : tokenize (d ++ rest) = ⟨.num, d⟩ :: tokenize rest := by
  cases d with
  | nil => cases h
  | cons c d =>
    simp only [isNumber, Bool.and_eq_true] at h
    obtain ⟨ht, hd⟩ := takeWhile_append_stop h.2 hr
    rw [cons_append, tokenize_cons, scan_digit h.1, ht, hd]
    rfl

theorem tokenize_operator {o : Str} (h : isOperator o)
    (hr : headNot isOpChar rest) : tokenize (o ++ rest) = ⟨.sym, o⟩ :: tokenize rest := by
  cases o with
  | nil => cases h
  | cons c o =>
    simp only [isOperator, ne_eq, reduceCtorEq, not_false_eq_true, decide_true, all_cons, Bool.true_and,
      Bool.and_eq_true, Bool.not_eq_true'] at h
    obtain ⟨⟨⟨hc, ho⟩, hl⟩, hbl⟩ := h
    -- a second operator character belongs to `o`, so it starts no comment
    have hp : ∀ a b : UInt8, isOpChar b → hasPair a b (c :: o) = false →
        ¬(c = a ∧ (o ++ rest).head? = some b) := by
      rintro a b hb hno ⟨rfl, hh⟩
      cases o with
      | nil =>
        cases rest with
        | nil => simp at hh
        | cons d rest =>
          have hd : isOpChar d = false := by simpa [headNot] using hr
          simp only [nil_append, head?_cons, Option.some.injEq] at hh
          rw [hh, hb] at hd
          cases hd
      | cons d o =>
        simp only [cons_append, head?_cons, Option.some.injEq] at hh
        simp [hasPair, hh] at hno
    obtain ⟨ht, hdr⟩ := takeWhile_append_stop ho hr
    rw [cons_append, tokenize_cons,
      scan_opChar hc (hp _ _ (by decide) hl) (hp _ _ (by decide) hbl), ht, hdr]
    rfl

theorem headNot_of_imp {p q : UInt8 → Bool} (hpq : ∀ c, p c → q c)
    (h : headNot q s) : headNot p s := by
  cases s with
  | nil => rfl
  | cons c s =>
    have hq : q c = false := by simpa [headNot] using h
    have hp : p c = false := by
      cases hpc : p c with
      | false => rfl
      | true => rw [hpq c hpc] at hq; cases hq
    simp [headNot, hp]

/-- The tokenizer reads one plain piece as its tokens and goes on behind it. -/
theorem tokenize_piece (p : Piece) (he : p.endsBefore rest)
    (hp : p.plainBefore rest) : tokenize (p.text ++ rest) = p.tokens ++ tokenize rest := by
  cases p with
  | blank c h =>
    rw [Piece.text, singleton_append, tokenize_cons, scan_blank h]
    rfl
  | lineComment body h =>
    have hb : body.all (· ≠ '\n') := by
      rw [all_eq_true]
      intro c hc
      simp only [decide_eq_true_eq]
      rintro rfl
      exact h.1 hc
    have hsto : headNot (· ≠ '\n') rest := by
      cases rest with
      | nil => rfl
      | cons c rest =>
        simp only [Piece.endsBefore, Piece.plainBefore, headNot] at he hp ⊢
        simp_all
    obtain ⟨-, hd⟩ := takeWhile_append_stop hb hsto
    have hs : scan '-' ('-' :: (body ++ rest)) = (none, rest) := by
      have hds : (byte '-' :: (body ++ rest)).dropWhile (fun c => decide (c ≠ byte '\n'))
          = (body ++ rest).dropWhile (fun c => decide (c ≠ byte '\n')) := by
        rw [dropWhile_cons, if_pos (by decide)]
      rw [scan, if_neg (by decide), if_pos ⟨rfl, rfl⟩, hds, hd]
    change tokenize ('-' :: '-' :: (body ++ rest)) = _
    rw [tokenize_cons, hs]
    rfl
  | blockComment body h =>
    have hb : hasPair '*' '/' body = false := by simpa [Piece.plainBefore] using hp
    have hs : scan '/' ('*' :: (body ++ "*/" ++ rest)) = (none, rest) := by
      rw [scan, if_neg (by decide), if_neg (fun h => absurd h.1 (by decide)), if_pos ⟨rfl, rfl⟩, tail_cons,
        skipBlock_append hb]
    change tokenize ('/' :: '*' :: (body ++ "*/" ++ rest)) = _
    rw [tokenize_cons, hs]
    rfl
  | word w h =>
    simp only [Piece.endsBefore, Bool.and_eq_true] at he
    exact tokenize_word h (headNot_of_imp (by simp +contextual) he.1)
  | quoted name =>
    have hr := readQuoted_double '"' name he
    have hs : scan (byte '"') (double (byte '"') name ++ byte '"' :: rest) = (some ⟨.ident, name⟩, rest) := by
      rw [scan, if_neg (by decide), if_neg (fun h => absurd h.1 (by decide)),
        if_neg (fun h => absurd h.1 (by decide)), if_neg (by decide),
        if_pos rfl, hr]
    simp only [Piece.text, cons_append, append_assoc, nil_append]
    rw [tokenize_cons, hs]
    rfl
  | string body =>
    have hr := readQuoted_double '\'' body he
    have hs : scan (byte '\'') (double (byte '\'') body ++ byte '\'' :: rest) = (some ⟨.str, body⟩, rest) := by
      rw [scan, if_neg (by decide), if_neg (fun h => absurd h.1 (by decide)),
        if_neg (fun h => absurd h.1 (by decide)), if_pos rfl, hr]
    simp only [Piece.text, cons_append, append_assoc, nil_append]
    rw [tokenize_cons, hs]
    rfl
  | dollar tag body h =>
    have hr := dollarQuoted_append h.1 h.2 rest
    have hs : scan (byte '$') (tag ++ byte '$' :: (body ++ dollarTag tag ++ rest)) = (some ⟨.str, body⟩, rest) := by
      rw [scan, if_neg (by decide), if_neg (fun h => absurd h.1 (by decide)),
        if_neg (fun h => absurd h.1 (by decide)), if_neg (by decide),
        if_neg (by decide), if_pos rfl, hr]
    have ht : Piece.text (.dollar tag body h) ++ rest
        = byte '$' :: (tag ++ byte '$' :: (body ++ dollarTag tag ++ rest)) := by
      simp [Piece.text, dollarTag]
    rw [ht, tokenize_cons, hs]
    rfl
  | number digits letters h =>
    simp only [Piece.endsBefore] at he
    by_cases hl : letters = []
    · subst hl
      have hsto : headNot isNumPart rest := by
        refine headNot_of_imp ?_ he
        intro c hc
        simp only [isNumPart, isIdentPart, Bool.or_eq_true, decide_eq_true_eq] at hc ⊢
        rcases hc with hc | hc
        · simp [hc]
        · simp [hc]
      rw [Piece.text, append_nil, tokenize_number h.1 hsto]
      rfl
    · have hw := h.2.resolve_left hl
      have hsto : headNot isNumPart (letters ++ rest) := by
        cases letters with
        | nil => cases hw
        | cons c s =>
          simp only [isWord, Bool.and_eq_true] at hw
          have hcl : ∀ c : UInt8, isIdentStart c → isNumPart c = false := by decide +kernel
          simp [headNot, hcl c hw.1]
      have hsto' : headNot isIdentPart rest := by
        refine headNot_of_imp ?_ he
        intro c hc
        simp [hc]
      rw [Piece.text, append_assoc, tokenize_number h.1 hsto, tokenize_word hw hsto']
      simp [Piece.tokens, hl]
  | punct c h =>
    rw [Piece.text, singleton_append, tokenize_cons, scan_punct h]
    rfl
  | op o h => exact tokenize_operator h hp
  | other c h =>
    rw [Piece.text, singleton_append, tokenize_cons, scan_other h]
    rfl

/-- A plain text is read piece by piece. -/
theorem SqlText.tokenize_text {t : SqlText} (hp : t.Plain) : tokenize t.text = t.pieces.flatMap Piece.tokens := by
  obtain ⟨ps, he⟩ := t
  simp only [SqlText.text, SqlText.Plain] at hp ⊢
  induction ps with
  | nil => rfl
  | cons p ps ih =>
    simp only [endsApart, Bool.and_eq_true] at he hp
    rw [render, flatMap_cons, flatMap_cons]
    change tokenize (p.text ++ render ps) = _
    rw [tokenize_piece p he.1 hp.1, ih he.2 hp.2]

theorem SqlText.flatMap_tokens : t.pieces.flatMap Piece.tokens = t.lexemes.flatMap Piece.tokens := by
  unfold SqlText.lexemes
  induction t.pieces with
  | nil => rfl
  | cons p ps ih =>
    rw [flatMap_cons, ih]
    cases p <;> rfl

end PostgresOperator
