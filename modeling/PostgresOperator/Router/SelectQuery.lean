import PostgresOperator.Go.Decimal
import PostgresOperator.Grouping
import PostgresOperator.Router.SqlText

/-!
# SELECT with aggregates

Queries of columns and calls of COUNT, SUM, MIN and MAX on one table, with WHERE, GROUP BY, HAVING and LIMIT, their
meaning and their text.  The columns are integers or NULL.  The meaning is that of SQL: a query without GROUP BY has
one group, also on an empty table, aggregates skip NULL, and LIMIT takes any rows.  What the conditions of WHERE and
HAVING mean is left open (`Conditions`).
-/

namespace PostgresOperator

open Go Grouping List

/-! ### Queries -/

abbrev Name := { w : Str // isWord w }

inductive Ident
  | plain (name : Name)
  | quoted (name : Str)

def Ident.column : Ident → Str
  | .plain name => name.1.map lowerByte
  | .quoted name => name

inductive SqlAggregate
  | count
  | sum
  | min
  | max
  deriving DecidableEq

inductive Alias
  | none
  | bare (name : Ident)
  | as (name : Ident)

inductive Item
  | column (c : Ident) (label : Alias := .none)
  /-- `COUNT(*)` -/
  | countAll (label : Alias := .none)
  | call (fn : SqlAggregate) (distinct : Bool) (c : Ident) (label : Alias := .none)

def Item.column? : Item → Option Str
  | .column c _ => some c.column
  | .countAll _ | .call _ _ _ _ => none

/-- A query; `cond` is the condition of WHERE.  As in SQL, a column outside aggregates is in GROUP BY. -/
structure Select where
  items : List Item
  table : Ident
  cond : Option (List Piece) := none
  groupBy : List Ident := []
  having : Option (List Piece) := none
  limit : Option Nat := none
  grouped : ∀ c ∈ items.filterMap Item.column?, c ∈ groupBy.map Ident.column := by decide

def Select.columns (s : Select) : List Str := s.items.filterMap Item.column?

def Select.groupColumns (s : Select) : List Str := s.groupBy.map Ident.column

/-! ### Their meaning -/

/-- A row of the table: the value of every column, `none` for NULL. -/
abbrev Tuple := Str → Option Int

abbrev IntRow := List (Option Int)

/-- What the conditions mean: that of WHERE is true of a row, that of HAVING of the rows of a group. -/
structure Conditions where
  ofRow : List Piece → Tuple → Bool
  ofGroup : List Piece → Multiset Tuple → Bool

def SqlAggregate.value : SqlAggregate → Multiset (Option Int) → Option Int
  | .count, vs => some (vs.countP fun v => v.isSome)
  | .sum, vs => foldSome (· + ·) vs
  | .min, vs => foldSome Min.min vs
  | .max, vs => foldSome Max.max vs

abbrev GroupKey := List (Str × Option Int)

def Select.key (s : Select) (r : Tuple) : GroupKey := s.groupColumns.map fun c => (c, r c)

def Select.groups (s : Select) (rows : Multiset Tuple) : Multiset (GroupKey × Multiset Tuple) :=
  if s.groupBy = [] then {([], rows)} else Grouping.groups s.key rows

def Item.value (g : GroupKey × Multiset Tuple) : Item → Option Int
  | .column c _ => (g.1.lookup c.column).getD none
  | .countAll _ => some (Multiset.card g.2)
  | .call fn distinct c _ =>
    let vs := g.2.map fun r => r c.column
    fn.value (if distinct then vs.dedup else vs)

def Select.row (s : Select) (g : GroupKey × Multiset Tuple) : IntRow := s.items.map fun item => item.value g

section Meaning

variable (M : Conditions)

def Select.admits (s : Select) (r : Tuple) : Bool := s.cond.all fun cond => M.ofRow cond r

def Select.keeps (s : Select) (g : GroupKey × Multiset Tuple) : Bool := s.having.all fun cond => M.ofGroup cond g.2

def Select.result (s : Select) (table : Multiset Tuple) : Multiset IntRow :=
  ((s.groups (table.filter fun r => s.admits M r)).filter fun g => s.keeps M g).map s.row

def Select.IsAnswer (s : Select) (table : Multiset Tuple) (rows : Multiset IntRow) : Prop :=
  rows ≤ s.result M table ∧ Multiset.card rows =
    match s.limit with
    | none => Multiset.card (s.result M table)
    | some n => min n (Multiset.card (s.result M table))

instance (s : Select) (table : Multiset Tuple) (rows : Multiset IntRow) : Decidable (s.IsAnswer M table rows) :=
  inferInstanceAs (Decidable (_ ∧ _))

variable {M}

variable {s : Select} {table : Multiset Tuple} {rows : Multiset IntRow}

/-- A LIMIT that cuts nothing off leaves one answer. -/
theorem Select.isAnswer_iff_of_card_le (h : ∀ n, s.limit = some n → Multiset.card (s.result M table) ≤ n) :
    s.IsAnswer M table rows ↔ rows = s.result M table := by
  have hc : (match s.limit with
      | none => Multiset.card (s.result M table)
      | some n => min n (Multiset.card (s.result M table))) = Multiset.card (s.result M table) := by
    cases hl : s.limit with
    | none => rfl
    | some n => exact min_eq_right (h n hl)
  unfold Select.IsAnswer
  rw [hc]
  constructor
  · rintro ⟨hle, heq⟩
    exact Multiset.eq_of_le_of_card_le hle heq.ge
  · rintro rfl
    exact ⟨le_refl _, rfl⟩

theorem Select.IsAnswer.eq_zero (h : s.IsAnswer M table rows) (hl : s.limit = some 0) : rows = 0 := by
  have hc := h.2
  rw [hl] at hc
  simpa using hc

theorem Select.IsAnswer.length_eq
    (h : s.IsAnswer M table rows) {row : IntRow} (hr : row ∈ rows) : row.length = s.items.length := by
  obtain ⟨g, -, rfl⟩ := Multiset.mem_map.1 (Multiset.mem_of_le h.1 hr)
  exact length_map _

end Meaning

theorem Select.lookup_key (s : Select) (r : Tuple) {c : Str} (hc : c ∈ s.groupColumns) :
    (s.key r).lookup c = some (r c) := by
  unfold Select.key
  generalize s.groupColumns = cs at hc
  induction cs with
  | nil => cases hc
  | cons c' cs ih =>
    rw [map_cons, lookup_cons]
    by_cases h : c = c'
    · simp [h]
    · rw [beq_eq_false_iff_ne.2 h]
      exact ih ((mem_cons.1 hc).resolve_left h)

/-! ### Their text -/

def kw (s : String) (h : isWord (str s) := by exact Eq.refl true) : Piece := .word (str s) h

def Ident.piece : Ident → Piece
  | .plain name => .word name.1 name.2
  | .quoted name => .quoted name

def commas : List (List Piece) → List Piece
  | [] => []
  | [ps] => ps
  | ps :: rest => ps ++ .punct ',' :: commas rest

def SqlAggregate.keyword : SqlAggregate → Piece
  | .count => kw "count"
  | .sum => kw "sum"
  | .min => kw "min"
  | .max => kw "max"

def Alias.pieces : Alias → List Piece
  | .none => []
  | .bare name => [name.piece]
  | .as name => [kw "as", name.piece]

def Item.pieces : Item → List Piece
  | .column c label => c.piece :: label.pieces
  | .countAll label => [kw "count", .punct '(', .op "*", .punct ')'] ++ label.pieces
  | .call fn distinct c label =>
    [fn.keyword, .punct '('] ++ (if distinct then [kw "distinct"] else []) ++ [c.piece, .punct ')']
      ++ label.pieces

theorem isNumber_itoaNat (n : Nat) : isNumber (itoaNat n) := by
  have hdg : ∀ c ∈ itoaNat n, isDigit c := fun c hc => isDigitByte_of_mem_itoaNat hc
  obtain ⟨c, s, hs⟩ := exists_cons_of_ne_nil (itoaNat_ne_nil n)
  rw [hs] at hdg ⊢
  simp only [isNumber, Bool.and_eq_true, all_eq_true]
  refine ⟨hdg c (by simp), ?_⟩
  intro d hd
  simp [isNumPart, hdg d (by simp [hd])]

def Select.listPieces (s : Select) : List Piece := kw "select" :: commas (s.items.map Item.pieces) ++ [kw "from"]

def Select.clausePieces (s : Select) : List Piece :=
  (match s.cond with
    | none => []
    | some cond => kw "where" :: cond)
  ++ (if s.groupBy = [] then [] else [kw "group", kw "by"] ++ commas (s.groupBy.map fun c => [c.piece]))
  ++ (match s.having with
    | none => []
    | some cond => kw "having" :: cond)
  ++ (match s.limit with
    | none => []
    | some n => [kw "limit", .number (itoaNat n) [] ⟨isNumber_itoaNat n, Or.inl rfl⟩])

def Select.pieces (s : Select) : List Piece := s.listPieces ++ s.table.piece :: s.clausePieces

def SqlText.WritesSelect (t : SqlText) (s : Select) : Prop := t.lexemes.map Piece.lower = s.pieces

end PostgresOperator
