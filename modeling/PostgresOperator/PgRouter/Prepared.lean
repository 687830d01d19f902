import PostgresOperator.Pg.Prepared
import PostgresOperator.PgRouter.SessionRun

/-!
# A backend with prepared statements

The backend of a session as far as its prepared statements go: the messages of the extended protocol are read as
operations on them (`opOf`), and `preparingPeer` carries these out by the rules of PostgreSQL.  Whether a message
fails that the rules allow is left open.
-/

namespace PostgresOperator

open Go Calls Pg List Function

/-- The name in a Describe or a Close of a statement, `none` for a portal. -/
def stmtTarget (m : PgMessage) : Option Str :=
  match m.payload with
  | [] => none
  | c :: p => if c ≠ 'S' then none else (cstringAt p).map Prod.fst

def opOf (m : PgMessage) : Op Str Str :=
  if m.type = 'P' then
    match parseSQL m with
    | none => .badParse
    | some sql => .parse (parseStmtName m) sql
  else if m.type = 'B' then .bind (bindStmtName m)
  else if m.type = 'D' then (stmtTarget m).elim .other .describe
  else if m.type = 'C' then (stmtTarget m).elim .other .close
  else if m.type = 'S' then .sync
  else if m.type = 'Q' then .query
  else .other

def prepareReply (m : PgMessage) (before after : Prepared Str Str) : List PgMessage :=
  if m.type = 'S' then [⟨'Z', ['I']⟩]
  else if before.skipping then []
  else if m.type = 'Q' then [⟨'Z', ['I']⟩]
  else if after.skipping then [⟨'E', []⟩]
  else if m.type = 'P' then [⟨'1', []⟩]
  else if m.type = 'B' then [⟨'2', []⟩]
  else if m.type = 'C' then [⟨'3', []⟩]
  else if m.type = 'D' then [⟨'n', []⟩]
  else if m.type = 'E' then [⟨'C', []⟩]
  else []

/-- A backend as the statements that are prepared on it; the choice says whether a message succeeds. -/
abbrev preparingPeer : Peer where
  State := Prepared Str Str
  Choice := Bool
  init := {}
  receive := fun ok m st => ((opOf m).apply [] ok st, prepareReply m st ((opOf m).apply [] ok st))

variable {cfg : RouterConfig} {s s' : Session} {m : PgMessage} {w w' : Network preparingPeer}

theorem opOf_isParse : (opOf m).IsParse ↔ m.type = 'P' := by
  unfold opOf
  split
  · rename_i hP
    split <;> exact iff_of_true trivial hP
  · rename_i hP
    refine iff_of_false ?_ hP
    split_ifs
    · exact id
    · cases stmtTarget m <;> exact id
    · cases stmtTarget m <;> exact id
    · exact id
    · exact id
    · exact id

theorem opOf_of_parseSQL {sql : Str} (h : parseSQL m = some sql) : opOf m = .parse (parseStmtName m) sql := by
  have hP : m.type = 'P' := by
    by_contra hne
    rw [parseSQL_of_type_ne hne] at h
    cases h
  rw [opOf, if_pos hP, h]

/-- Delivering a message applies its operation to the server's statements. -/
@[simp] theorem states_deliver (ok : Bool) (conn : Conn) :
    (w.deliver ok conn m).states conn = (opOf m).apply [] ok (w.states conn) := update_self ..

/-! ### The names of a batch -/

theorem parseNames_map_opOf (ms : List PgMessage) : parseNames (ms.map opOf) = registeredNames ms := by
  induction ms with
  | nil => rfl
  | cons m ms ih =>
    rw [map_cons]
    cases hs : parseSQL m with
    | some sql => rw [opOf_of_parseSQL hs, parseNames_parse, registeredNames_of_some hs, ih]
    | none =>
      rw [registeredNames_of_none hs]
      refine Eq.trans ?_ ih
      by_cases hP : m.type = 'P'
      · rw [opOf, if_pos hP, hs]
        rfl
      · exact parseNames_of_not_parse fun h => hP (opOf_isParse.1 h)

theorem registeredNames_subset (ms : List PgMessage) : registeredNames ms ⊆ (parsesOf ms).map parseStmtName := by
  intro name hn
  obtain ⟨x, hx, rfl⟩ := mem_map.1 hn
  obtain ⟨hm, hs⟩ := mem_filter.1 hx
  refine mem_map_of_mem (mem_filter.2 ⟨hm, ?_⟩)
  by_contra hP
  rw [parseSQL_of_type_ne (by simpa using hP)] at hs
  cases hs

def updateTenant (name : String) : PgMessage := parseMessage name "UPDATE orders SET v = 1 WHERE tenant_id = $1"

def deleteTenant (name : String) : PgMessage := parseMessage name "DELETE FROM orders WHERE tenant_id = $1"

def prepareAnswers (n : Nat) : List (RouterChoice preparingPeer) := answersWith true (twoTenants false) n

end PostgresOperator
