import PostgresOperator.Router.QueryRouter
import PostgresOperator.Router.SqlText

/-!
# Reads and writes

`isReadOnlyQuery` looks at the first token of a text and for an identifier FOR.  Here a text is a sequence of
statements separated by semicolons, and a statement writes if it inserts, updates or deletes rows, locks them, or
creates a table. Of a text that starts like a read and has no FOR the classifier does not see two things: what the
statements behind the first semicolon are, and an INTO.  These are the only ways in which it admits a write
(`readOnly_admits_no_write_iff`).
-/

namespace PostgresOperator

open Go

/-! ### Statements -/

def Piece.isKeyword (kw : Str) : Piece → Bool
  | .word w _ => toLower w = kw
  | _ => false

def Piece.isPunctOf (c : UInt8) : Piece → Bool
  | .punct c' _ => c' = c
  | _ => false

def startsWith (kws : List Str) (s : List Piece) : Bool := s.head?.any fun p => kws.any p.isKeyword

def hasKeyword (kw : Str) (s : List Piece) : Bool := s.any fun p => p.isKeyword kw

/-- `FOR UPDATE`, `FOR NO KEY UPDATE`, `FOR SHARE` or `FOR KEY SHARE`. -/
def hasLock : List Piece → Bool
  | p :: q :: ps => (p.isKeyword "for" && startsWith ["update", "no", "share", "key"] [q])
      || hasLock (q :: ps)
  | _ => false

def dmlKeywords : List Str := ["insert", "update", "delete"]

/-- Whether a part of a `WITH` statement, given from behind the `WITH`, changes rows: a statement in the parentheses
after `AS` or the one after the last of these. -/
def withChanges : Nat → Bool → List Piece → Bool
  | _, _, [] => false
  | depth, afterAs, p :: ps =>
    if p.isPunctOf '(' then (afterAs && startsWith dmlKeywords ps) || withChanges (depth + 1) false ps
    else if p.isPunctOf ')' then (depth = 1 && startsWith dmlKeywords ps) || withChanges (depth - 1) false ps
    else withChanges depth (depth = 0 && (p.isKeyword "as" || p.isKeyword "materialized")) ps

/-- `INSERT`, `UPDATE` or `DELETE`, on its own or in a `WITH` statement. -/
def changesRows (s : List Piece) : Bool :=
  startsWith dmlKeywords s || (startsWith ["with"] s && withChanges 0 false s.tail)

/-- `SELECT … INTO` -/
def createsTable (s : List Piece) : Bool :=
  startsWith ["select", "with", "values", "table"] s && hasKeyword "into" s

/-- A statement that inserts, updates or deletes rows, creates a table, or locks rows. -/
def writes (s : List Piece) : Bool := changesRows s || createsTable s || hasLock s

variable (t : SqlText)

def SqlText.statements : List (List Piece) :=
  (t.lexemes.splitOnP (Piece.isPunctOf ';')).filter (· ≠ [])

def SqlText.hasWrite : Bool := t.statements.any writes

def statementKeywords : List Str :=
  ["select", "with", "insert", "update", "delete", "values", "table", "show"]

/-- A text that starts with a statement and has only statements of these kinds. -/
def SqlText.IsQuery : Prop :=
  startsWith statementKeywords t.lexemes ∧ ∀ s ∈ t.statements, startsWith statementKeywords s

instance (t : SqlText) : Decidable t.IsQuery := inferInstanceAs (Decidable (_ ∧ _))

/-! ### What the classifier sees -/

/-- The piece gives an identifier token that is `name` up to letter case. -/
def Piece.spells (name : Str) : Piece → Bool
  | .word w _ => equalFold w name
  | .quoted n => equalFold n name
  | .number _ letters _ => letters ≠ [] && equalFold letters name
  | _ => false

theorem Piece.any_tokens_names (name : Str) (p : Piece) :
    p.tokens.any (·.names name) = p.spells name := by
  cases p with
  | number digits letters h =>
    by_cases hl : letters = []
    · simp [Piece.tokens, Piece.spells, Token.names, hl]
    · simp [Piece.tokens, Piece.spells, Token.names, hl]
  | _ => simp [Piece.tokens, Piece.spells, Token.names]

def readKeywords : List Str := ["select", "show", "values", "table"]

/-- The tokens start like a read and none of them is an identifier FOR. -/
def TokensLookRead (toks : List Token) : Prop :=
  (toks.head?.any fun t => toLower t.text ∈ readKeywords) ∧ toks.any (·.names "for") = false

instance (toks : List Token) : Decidable (TokensLookRead toks) := inferInstanceAs (Decidable (_ ∧ _))

/-- The filter, as a property of the tokens. -/
theorem isReadOnlyQuery_iff (query : Str) : isReadOnlyQuery query ↔ TokensLookRead (tokenize query) := by
  unfold isReadOnlyQuery TokensLookRead
  cases ht : tokenize query with
  | nil => simp
  | cons t ts =>
    change (if toLower t.text ∈ readKeywords then _ else _) = true ↔ _
    by_cases hm : toLower t.text ∈ readKeywords
    · simp [hm]
    · simp [hm]

/-- The text starts with SELECT, SHOW, VALUES or TABLE and no identifier in it is FOR. -/
def SqlText.LooksRead : Prop :=
  startsWith readKeywords t.lexemes ∧ t.lexemes.any (Piece.spells "for") = false

theorem exists_word_of_startsWith {kws : List Str} {s : List Piece} (h : startsWith kws s) :
    ∃ w hw rest, s = .word w hw :: rest := by
  cases s with
  | nil => simp [startsWith] at h
  | cons p rest =>
    cases p <;> simp [startsWith, Piece.isKeyword] at h
    exact ⟨_, _, _, rfl⟩

theorem startsWith_eq_false {kws kws' : List Str} (hd : ∀ k ∈ kws, k ∉ kws') {s : List Piece} (h : startsWith kws s) :
    startsWith kws' s = false := by
  obtain ⟨w, hw, rest, rfl⟩ := exists_word_of_startsWith h
  have hmem : ∀ kws, startsWith kws (.word w hw :: rest) ↔ toLower w ∈ kws := by
    intro kws
    simp [startsWith, Piece.isKeyword]
  exact Bool.eq_false_iff.2 fun h' => hd _ ((hmem kws).1 h) ((hmem kws').1 h')

/-- For a plain text this is a property of its lexemes. -/
theorem SqlText.tokensLookRead_iff {t : SqlText} (hq : t.IsQuery) (hp : t.Plain) :
    TokensLookRead (tokenize t.text) ↔ t.LooksRead := by
  obtain ⟨w, hw, rest, hl⟩ := exists_word_of_startsWith hq.1
  have ht : tokenize t.text = t.lexemes.flatMap Piece.tokens := by
    rw [SqlText.tokenize_text hp, t.flatMap_tokens]
  have hf : (tokenize t.text).any (·.names "for") = t.lexemes.any (Piece.spells "for") := by
    rw [ht, List.any_flatMap]
    simp only [Piece.any_tokens_names]
  have hs : ((tokenize t.text).head?.any fun t => toLower t.text ∈ readKeywords)
      = startsWith readKeywords t.lexemes := by
    rw [ht, hl]
    simp [startsWith, Piece.isKeyword, Piece.tokens, List.any_eq]
  unfold TokensLookRead LooksRead
  rw [hs, hf]

/-! ### No write is admitted -/

/-- The classifier admits no write of the text: a text it takes for a read has no statement that writes; while writes
are blocked a text with such a statement gets no backend; and it does not depend on the replicas where it goes. -/
structure SqlText.AdmitsNoWrite (t : SqlText) : Prop where
  classified : isReadOnlyQuery t.text → t.hasWrite = false
  blocked : ∀ qr : QueryRouter, qr.topology.spec.writeBlocked → t.hasWrite →
    ∀ d, qr.route t.text ≠ (d, none)
  primary : ∀ (qr : QueryRouter) (replicas : Option BackendResolver), t.hasWrite →
    { qr with read := replicas }.route t.text = qr.route t.text

/-- A blocked keyspace refuses what is not read-only before anything else. -/
theorem route_of_writeBlocked {qr : QueryRouter} {query : Str} (hr : isReadOnlyQuery query = false)
    (hb : qr.topology.spec.writeBlocked) : qr.route query = ({}, some .writeBlocked) := by
  simp [QueryRouter.route, hr, hb]

theorem route_read_irrelevant {query : Str} (hr : isReadOnlyQuery query = false) (qr : QueryRouter)
    (replicas : Option BackendResolver) : { qr with read := replicas }.route query = qr.route query := by
  simp [QueryRouter.route, hr]

theorem SqlText.admitsNoWrite_iff :
    t.AdmitsNoWrite ↔ (isReadOnlyQuery t.text → t.hasWrite = false) := by
  constructor
  · exact AdmitsNoWrite.classified
  · intro h
    have hn : t.hasWrite → isReadOnlyQuery t.text = false := by
      intro hw
      cases hr : isReadOnlyQuery t.text with
      | false => rfl
      | true => rw [h hr] at hw; cases hw
    refine ⟨h, ?_, ?_⟩
    · intro qr hb hw d
      rw [route_of_writeBlocked (hn hw) hb]
      simp
    · intro qr replicas hw
      exact route_read_irrelevant (hn hw) qr replicas

/-! ### The first statement and the locks -/

theorem spells_of_isKeyword {name : Str} {p : Piece} (h : p.isKeyword name) : p.spells name := by
  cases p with
  | word w hw =>
    have hl : w.map lowerByte = name := by
      rw [← toLower_of_ascii (isWord_ascii hw)]
      simpa [Piece.isKeyword] using h
    rw [Piece.spells, equalFold_iff, ← hl, folded_map_lowerByte (isWord_ascii hw)]
  | _ => cases h

theorem exists_for_of_hasLock {s : List Piece} (h : hasLock s) : ∃ p ∈ s, p.isKeyword "for" := by
  induction s with
  | nil => cases h
  | cons p ps ih =>
    cases ps with
    | nil => cases h
    | cons q ps =>
      rw [hasLock, Bool.or_eq_true, Bool.and_eq_true] at h
      rcases h with h | h
      · exact ⟨p, List.mem_cons_self, h.1⟩
      · obtain ⟨r, hr, hk⟩ := ih h
        exact ⟨r, List.mem_cons_of_mem p hr, hk⟩

theorem mem_of_mem_splitOnP {f : Piece → Bool} {ps s : List Piece} (hs : s ∈ ps.splitOnP f) {p : Piece} (hp : p ∈ s) :
    p ∈ ps := by
  induction ps generalizing s with
  | nil =>
    obtain rfl : s = [] := by simpa using hs
    cases hp
  | cons x ps ih =>
    rw [List.splitOnP_cons_eq_if_modifyHead] at hs
    split at hs
    · rcases List.mem_cons.1 hs with rfl | hs
      · cases hp
      · exact List.mem_cons_of_mem x (ih hs hp)
    · cases hr : ps.splitOnP f with
      | nil => simp [hr] at hs
      | cons w ws =>
        rw [hr, List.modifyHead_cons] at hs
        rw [hr] at ih
        rcases List.mem_cons.1 hs with rfl | hs
        · rcases List.mem_cons.1 hp with rfl | hp
          · exact List.mem_cons_self
          · exact List.mem_cons_of_mem x (ih List.mem_cons_self hp)
        · exact List.mem_cons_of_mem x (ih (List.mem_cons_of_mem w hs) hp)

variable {t : SqlText}

/-- A text without the word FOR locks no row. -/
theorem SqlText.hasLock_eq_false (hf : t.lexemes.any (Piece.spells "for") = false) {s : List Piece}
    (hs : s ∈ t.statements) : hasLock s = false := by
  by_contra hl
  obtain ⟨p, hp, hk⟩ := exists_for_of_hasLock (Bool.of_not_eq_false hl)
  have hm : p ∈ t.lexemes := mem_of_mem_splitOnP (List.mem_of_mem_filter hs) hp
  have hsp : p.spells "for" := spells_of_isKeyword hk
  exact List.any_eq_false.1 hf p hm hsp

/-- The first statement starts as the text does. -/
theorem SqlText.exists_statements {p : Piece} {rest : List Piece} (hl : t.lexemes = p :: rest)
    (hp : p.isPunctOf ';' = false) : ∃ s, t.statements = (p :: s) :: t.statements.tail := by
  unfold statements
  rw [hl, List.splitOnP_cons_eq_if_modifyHead, if_neg (by simp [hp])]
  cases hs : rest.splitOnP (Piece.isPunctOf ';') with
  | nil => exact absurd hs (List.splitOnP_ne_nil _ _)
  | cons w ws => exact ⟨w, by simp⟩

/-- The text starts like a read and has no FOR, so that the classifier takes it for a read. -/
theorem SqlText.hasWrite_eq_false_iff (hr : t.LooksRead) : t.hasWrite = false ↔
    (∀ s ∈ t.statements, createsTable s = false) ∧ ∀ s ∈ t.statements.tail, changesRows s = false := by
  obtain ⟨w, hw, rest, hl⟩ := exists_word_of_startsWith hr.1
  obtain ⟨s₀, hs₀⟩ := exists_statements hl rfl
  have hfirst : changesRows (.word w hw :: s₀) = false := by
    have hk : startsWith readKeywords (.word w hw :: s₀) := by
      have hs := hr.1
      rwa [hl] at hs
    rw [changesRows, startsWith_eq_false (by decide) hk, startsWith_eq_false (by decide) hk]
    rfl
  have hm : ∀ s, s ∈ t.statements ↔ s = .word w hw :: s₀ ∨ s ∈ t.statements.tail := by
    intro s
    rw [hs₀]
    simp
  unfold hasWrite
  rw [List.any_eq_false]
  constructor
  · intro h
    have hn : ∀ s ∈ t.statements, writes s = false := fun s hs => Bool.eq_false_iff.2 (h s hs)
    simp only [writes, Bool.or_eq_false_iff] at hn
    exact ⟨fun s hs => (hn s hs).1.2, fun s hs => (hn s ((hm s).2 (.inr hs))).1.1⟩
  · rintro ⟨hc, hd⟩ s hs
    have hch : changesRows s = false := by
      rcases (hm s).1 hs with rfl | ht
      · exact hfirst
      · exact hd s ht
    simp [writes, hch, hc s hs, hasLock_eq_false hr.2 hs]

/-- `/* nightly */ UPDATE t SET v = 'for;'; DELETE FROM t` -/
def nightlyWrite : SqlText where
  pieces := [.blockComment " nightly ", .blank 32, .word "UPDATE", .blank 32, .word "t", .blank 32,
    .word "SET", .blank 32, .word "v", .blank 32, .op "=", .blank 32, .string "for;",
    .punct ';', .blank 32, .word "DELETE", .blank 32, .word "FROM", .blank 32, .word "t"]

/-- `SELECT v FROM t WHERE id = 'a'; DELETE FROM t` -/
def readThenDelete : SqlText where
  pieces := [.word "SELECT", .blank 32, .word "v", .blank 32, .word "FROM", .blank 32, .word "t",
    .blank 32, .word "WHERE", .blank 32, .word "id", .blank 32, .op "=", .blank 32,
    .string "a", .punct ';', .blank 32, .word "DELETE", .blank 32, .word "FROM", .blank 32,
    .word "t"]

/-- `SELECT v INTO u FROM t WHERE id = 'a'` -/
def selectInto : SqlText where
  pieces := [.word "SELECT", .blank 32, .word "v", .blank 32, .word "INTO", .blank 32,
    .word "u", .blank 32, .word "FROM", .blank 32, .word "t", .blank 32, .word "WHERE", .blank 32,
    .word "id", .blank 32, .op "=", .blank 32, .string "a"]

def blockedSpec : ShardRangeSpec where
  vindex := { type := .range, column := "id" }
  ranges := [⟨"a", "z", "shard-0"⟩]
  writeBlocked := true

def blockedRouter : QueryRouter where
  topology := { spec := blockedSpec }
  extractor := some .auto
  write := some fun _ => .ok "primary:5432"
  read := some fun _ => .ok "replica:5432"

end PostgresOperator
