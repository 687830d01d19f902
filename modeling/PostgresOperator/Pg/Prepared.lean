import Mathlib.Data.List.Nodup
import Mathlib.Logic.Function.Basic

/-!
# Prepared statements

The prepared statements of a PostgreSQL session under the messages of the extended protocol: a name can be prepared
once until it is closed, except for the unnamed statement, and after an error everything is ignored up to the next
Sync. Whether a message fails that the statements do not forbid is left open.

If no Parse is lost and none names a statement that is still there, the statements after the messages are those that
the messages mean (`Received.stmts_eq`).
-/

namespace Pg

variable {N T : Type}

/-- A message, as far as it matters to the prepared statements; `other` has no effect but may fail. -/
inductive Op (N T : Type)
  | parse (name : N) (text : T)
  /-- A Parse that cannot be read. -/
  | badParse
  | bind (name : N)
  | describe (name : N)
  | close (name : N)
  | other
  | sync
  /-- A simple query, which drops the unnamed statement. -/
  | query

/-- The prepared statements of a session; `lost` says that some Parse failed for a reason of its own or was
ignored. -/
structure Prepared (N T : Type) where
  stmts : N → Option T := fun _ => none
  skipping : Bool := false
  lost : Bool := false

section Apply

variable [DecidableEq N] (unnamed : N)

/-- The statements after a message; `ok` says whether it succeeds when the statements allow it. -/
def Op.apply (ok : Bool) : Op N T → Prepared N T → Prepared N T
  | .parse name text, st =>
    if st.skipping then { st with lost := true }
    else if name ≠ unnamed ∧ (st.stmts name).isSome then { st with skipping := true }
    else if ok then { st with stmts := Function.update st.stmts name (some text) }
    else { stmts := Function.update st.stmts name none, skipping := true, lost := true }
  | .badParse, st => { st with skipping := true, lost := true }
  | .bind name, st | .describe name, st =>
    if st.skipping then st else { st with skipping := (st.stmts name).isNone || !ok }
  | .close name, st => if st.skipping then st else { st with stmts := Function.update st.stmts name none }
  | .other, st => if st.skipping then st else { st with skipping := !ok }
  | .sync, st => { st with skipping := false }
  | .query, st => if st.skipping then st else { st with stmts := Function.update st.stmts unnamed none }

def Op.means (texts : N → Option T) : Op N T → N → Option T
  | .parse name text => Function.update texts name (some text)
  | .close name => Function.update texts name none
  | .query => Function.update texts unnamed none
  | _ => texts

def Received : List (Op N T) → Prepared N T → Prepared N T → Prop
  | [], st, st' => st' = st
  | o :: ops, st, st' => ∃ ok, Received ops (o.apply unnamed ok st) st'

end Apply

def parseNames (ops : List (Op N T)) : List N :=
  ops.filterMap fun
    | .parse name _ => some name
    | _ => none

def Op.IsParse : Op N T → Prop
  | .parse _ _ | .badParse => True
  | _ => False

def NamesFree (unnamed : N) (stmts : N → Option T) (ops : List (Op N T)) : Prop :=
  (∀ name ∈ parseNames ops, name ≠ unnamed → stmts name = none) ∧
    (parseNames ops).Pairwise fun a b => a = b → a = unnamed

variable {unnamed : N} {ok : Bool} {st st' : Prepared N T} {o : Op N T} {ops : List (Op N T)} {texts : N → Option T}

variable {name : N}

@[simp] theorem parseNames_parse {text : T} : parseNames (.parse name text :: ops) = name :: parseNames ops := rfl

theorem parseNames_of_not_parse (h : ¬o.IsParse) : parseNames (o :: ops) = parseNames ops := by
  cases o with
  | parse => exact absurd trivial h
  | _ => rfl

variable [DecidableEq N]

theorem stmts_apply_of_ne (hn : ∀ text, o ≠ .parse name text) (h : st.stmts name = none) :
    (o.apply unnamed ok st).stmts name = none := by
  have hu : ∀ other : N, Function.update st.stmts other none name = none := by
    intro other
    by_cases hne : name = other
    · subst hne
      exact Function.update_self ..
    · rw [Function.update_of_ne hne]
      exact h
  cases o with
  | parse other text =>
    have hne : name ≠ other := by
      rintro rfl
      exact hn text rfl
    simp only [Op.apply]
    split
    · exact h
    · split
      · exact h
      · split
        · exact (Function.update_of_ne hne _ _).trans h
        · exact hu other
  | badParse | sync => exact h
  | bind | describe | other =>
    simp only [Op.apply]
    split
    · exact h
    · exact h
  | close | query =>
    simp only [Op.apply]
    split
    · exact h
    · exact hu _

/-- A batch whose names are free stays one while it is received. -/
theorem NamesFree.tail (h : NamesFree unnamed st.stmts (o :: ops)) :
    NamesFree unnamed (o.apply unnamed ok st).stmts ops := by
  obtain ⟨hf, hp⟩ := h
  cases o with
  | parse name text =>
    rw [parseNames_parse, List.pairwise_cons] at hp
    refine ⟨?_, hp.2⟩
    intro other ho hne
    refine stmts_apply_of_ne ?_ (hf other (List.mem_cons_of_mem _ ho) hne)
    intro text' heq
    cases heq
    exact hne (hp.1 name ho rfl)
  | _ =>
    refine ⟨?_, hp⟩
    intro other ho hne
    refine stmts_apply_of_ne ?_ (hf other ho hne)
    intro text' heq
    cases heq

/-! ### What is prepared in the end -/

theorem lost_apply (h : st.lost) : (o.apply unnamed ok st).lost := by
  cases o with
  | parse name text =>
    simp only [Op.apply]
    split
    · rfl
    · split
      · exact h
      · split
        · exact h
        · rfl
  | badParse => rfl
  | sync => exact h
  | bind | describe | close | other | query =>
    simp only [Op.apply]
    split
    · exact h
    · exact h

/-- What a server has lost count of stays lost. -/
theorem Received.lost (h : Received unnamed ops st st') (hst : st.lost) : st'.lost := by
  induction ops generalizing st with
  | nil => rwa [show st' = st from h]
  | cons o ops ih =>
    obtain ⟨ok, h⟩ := h
    exact ih h (lost_apply hst)

theorem Received.lost_of_badParse (h : Received unnamed ops st st') (hm : .badParse ∈ ops) : st'.lost := by
  induction ops generalizing st with
  | nil => cases hm
  | cons o ops ih =>
    obtain ⟨ok, h⟩ := h
    rcases List.mem_cons.1 hm with rfl | hm
    · exact h.lost rfl
    · exact ih h hm

def KeepsStatements (ops : List (Op N T)) : Prop := ∀ o ∈ ops, (∀ name, o ≠ .close name) ∧ o ≠ .query

/-- A server that has not lost count holds what the messages say. -/
theorem Received.stmts_eq (h : Received unnamed ops st st') (hl : st'.lost = false)
    (hf : NamesFree unnamed st.stmts ops) (hk : KeepsStatements ops) :
    st'.stmts = ops.foldl (Op.means unnamed) st.stmts := by
  induction ops generalizing st with
  | nil => rw [show st' = st from h]; rfl
  | cons o ops ih =>
    obtain ⟨ok, h⟩ := h
    have ht : (o.apply unnamed ok st).lost = false := by
      by_contra hne
      rw [Bool.not_eq_false] at hne
      rw [h.lost hne] at hl
      cases hl
    have hr := ih h hf.tail fun o' ho' => hk o' (List.mem_cons_of_mem _ ho')
    rw [List.foldl_cons, hr]
    congr 1
    cases o with
    | parse name text =>
      have hn : ¬(name ≠ unnamed ∧ (st.stmts name).isSome) := by
        rintro ⟨hne, hs⟩
        rw [hf.1 name (List.mem_cons_self ..) hne] at hs
        cases hs
      simp only [Op.apply, if_neg hn] at ht ⊢
      split at ht
      · cases ht
      · split at ht
        · rename_i hsk hok
          rw [if_neg hsk, if_pos hok]
          rfl
        · cases ht
    | badParse => cases ht
    | close name => exact absurd rfl ((hk _ (List.mem_cons_self ..)).1 name)
    | query => exact absurd rfl (hk _ (List.mem_cons_self ..)).2
    | sync => rfl
    | bind | describe | other =>
      simp only [Op.apply]
      split
      · rfl
      · rfl

end Pg
