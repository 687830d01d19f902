import Mathlib.Tactic.Common

/-!
# Transaction status

The transaction status of a PostgreSQL session under the commands of simple queries.  A text is a list of commands,
which are executed one after the other up to the first one that fails.  Whether a command fails that the status does
not forbid is left open.
-/

namespace Pg

inductive TxStatus
  | idle
  | active
  | failed
  deriving DecidableEq

/-- A command as far as it matters to the status: `commit` is also END, `rollback` is also ABORT, and `other` is every
command that does not control a transaction. -/
inductive Command
  | begin
  | commit
  | rollback
  | savepoint
  | rollbackTo
  | other
  deriving DecidableEq

/-- The status after a command and whether it succeeded; `ok` says whether it does when the status allows it. -/
def Command.run (ok : Bool) : Command → TxStatus → TxStatus × Bool
  | .begin, .failed => (.failed, false)
  | .begin, _ => (.active, true)
  -- a COMMIT that fails rolls back, and that of a failed transaction is a ROLLBACK
  | .commit, .active => (.idle, ok)
  | .commit, _ => (.idle, true)
  | .rollback, _ => (.idle, true)
  | .savepoint, .idle | .rollbackTo, .idle => (.idle, false)
  | .rollbackTo, .failed => (if ok then .active else .failed, ok)
  | .other, .idle => (.idle, ok)
  | .savepoint, .active | .rollbackTo, .active | .other, .active => (if ok then .active else .failed, ok)
  | .savepoint, .failed | .other, .failed => (.failed, false)

/-- The status after a text and whether all of it succeeded; `oks` says which commands do, and those after it do. -/
def runCommands : List Bool → List Command → TxStatus → TxStatus × Bool
  | _, [], st => (st, true)
  | oks, c :: cs, st =>
    if (c.run (oks.headD true) st).2 then runCommands oks.tail cs (c.run (oks.headD true) st).1
    else ((c.run (oks.headD true) st).1, false)

/-! ### Commands that keep the status -/

variable (cs : List Command)

def BeginFree : Prop := .begin ∉ cs

def EndFree : Prop := .commit ∉ cs ∧ .rollback ∉ cs

def Opens : Prop := ∃ rest, cs = .begin :: rest ∧ EndFree rest

def Closes : Prop := ∃ c rest, cs = c :: rest ∧ (c = .commit ∨ c = .rollback) ∧ BeginFree rest

instance (cs : List Command) : Decidable (BeginFree cs) := inferInstanceAs (Decidable (_ ∉ _))

instance (cs : List Command) : Decidable (EndFree cs) := inferInstanceAs (Decidable (_ ∧ _))

instance : (cs : List Command) → Decidable (Opens cs)
  | [] => isFalse (by rintro ⟨rest, h, -⟩; cases h)
  | c :: rest => decidable_of_iff (c = .begin ∧ EndFree rest) (by simp [Opens])

instance : (cs : List Command) → Decidable (Closes cs)
  | [] => isFalse (by rintro ⟨c, rest, h, -⟩; cases h)
  | c :: rest => decidable_of_iff ((c = .commit ∨ c = .rollback) ∧ BeginFree rest) (by simp [Closes])

variable {oks : List Bool} {cs : List Command}

theorem runCommands_of_idle (h : BeginFree cs) : (runCommands oks cs .idle).1 = .idle := by
  induction cs generalizing oks with
  | nil => rfl
  | cons c cs ih =>
    have hc : c ≠ .begin := fun hc => h (hc ▸ List.mem_cons_self ..)
    have hid : (c.run (oks.headD true) .idle).1 = .idle := by
      cases c with
      | begin => exact absurd rfl hc
      | _ => rfl
    unfold runCommands
    split
    · rw [hid]
      exact ih fun hm => h (List.mem_cons_of_mem _ hm)
    · exact hid

/-- Without an end command a transaction stays open, failed or not. -/
theorem runCommands_of_open {st : TxStatus} (h : EndFree cs) (hst : st ≠ .idle) :
    (runCommands oks cs st).1 ≠ .idle := by
  induction cs generalizing oks st with
  | nil => exact hst
  | cons c cs ih =>
    have ho : (c.run (oks.headD true) st).1 ≠ .idle := by
      cases c with
      | commit => exact absurd (List.mem_cons_self ..) h.1
      | rollback => exact absurd (List.mem_cons_self ..) h.2
      | begin | savepoint | rollbackTo | other =>
        cases st with
        | idle => exact absurd rfl hst
        | active | failed => cases oks.headD true <;> decide
    unfold runCommands
    split
    · exact ih ⟨fun hm => h.1 (List.mem_cons_of_mem _ hm), fun hm => h.2 (List.mem_cons_of_mem _ hm)⟩ ho
    · exact ho

theorem runCommands_of_opens (h : Opens cs) : (runCommands oks cs .idle).1 ≠ .idle := by
  obtain ⟨rest, rfl, hr⟩ := h
  change (runCommands oks.tail rest .active).1 ≠ .idle
  exact runCommands_of_open hr (by decide)

/-- Texts that end their transaction leave the server idle, whatever it was before and whatever failed. -/
theorem runCommands_of_closes (h : Closes cs) (st : TxStatus) : (runCommands oks cs st).1 = .idle := by
  obtain ⟨c, rest, rfl, hc, hr⟩ := h
  have hid : (c.run (oks.headD true) st).1 = .idle := by
    rcases hc with rfl | rfl
    · cases st <;> rfl
    · rfl
  unfold runCommands
  split
  · rw [hid]
    exact runCommands_of_idle hr
  · exact hid

/-! ### What the commands ask for -/

def Command.leavesOpen (isOpen : Bool) : Command → Bool
  | .begin => true
  | .commit | .rollback => false
  | _ => isOpen

def leavesOpen (isOpen : Bool) (cs : List Command) : Bool := cs.foldl Command.leavesOpen isOpen

theorem leavesOpen_of_beginFree (h : BeginFree cs) : leavesOpen false cs = false := by
  unfold leavesOpen
  induction cs with
  | nil => rfl
  | cons c cs ih =>
    have hc : c.leavesOpen false = false := by
      cases c with
      | begin => exact absurd (List.mem_cons_self ..) h
      | _ => rfl
    rw [List.foldl_cons, hc]
    exact ih fun hm => h (List.mem_cons_of_mem _ hm)

theorem leavesOpen_of_endFree (h : EndFree cs) : leavesOpen true cs := by
  unfold leavesOpen
  induction cs with
  | nil => rfl
  | cons c cs ih =>
    have hc : c.leavesOpen true := by
      cases c with
      | commit => exact absurd (List.mem_cons_self ..) h.1
      | rollback => exact absurd (List.mem_cons_self ..) h.2
      | _ => rfl
    rw [List.foldl_cons, hc]
    exact ih ⟨fun hm => h.1 (List.mem_cons_of_mem _ hm), fun hm => h.2 (List.mem_cons_of_mem _ hm)⟩

theorem leavesOpen_of_opens (h : Opens cs) (isOpen : Bool) : leavesOpen isOpen cs := by
  obtain ⟨rest, rfl, hr⟩ := h
  exact leavesOpen_of_endFree hr

theorem leavesOpen_of_closes (h : Closes cs) (isOpen : Bool) : leavesOpen isOpen cs = false := by
  obtain ⟨c, rest, rfl, hc, hr⟩ := h
  rcases hc with rfl | rfl
  · exact leavesOpen_of_beginFree hr
  · exact leavesOpen_of_beginFree hr

end Pg
