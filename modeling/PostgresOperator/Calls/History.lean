import Mathlib.Data.List.Basic
import Mathlib.Data.Fintype.Basic

/-!
# Histories

A history is the list of what was observed, the first observation first.  `EachStep P` says that `P` holds of every
observation together with those before it.  The rule for it is `EachStep.of_invariant`.
-/

namespace Calls

variable {α : Type} {P Q : List α → α → Prop}

/-- `P` holds of every observation and those before it. -/
def EachStep (P : List α → α → Prop) (l : List α) : Prop := ∀ i : Fin l.length, P (l.take i) (l.get i)

instance [∀ l x, Decidable (P l x)] (l : List α) : Decidable (EachStep P l) := Nat.decidableForallFin _

theorem eachStep_nil : EachStep P [] := fun i => i.elim0

theorem eachStep_append_singleton {l : List α} {x : α} : EachStep P (l ++ [x]) ↔ EachStep P l ∧ P l x := by
  constructor
  · intro h
    constructor
    · intro i
      have hlt : i.1 < (l ++ [x]).length := by
        rw [List.length_append, List.length_singleton]
        omega
      have hi := h ⟨i, hlt⟩
      simpa [List.take_append_of_le_length i.2.le] using hi
    · simpa using h ⟨l.length, by simp⟩
  · rintro ⟨hl, hx⟩ ⟨i, hi⟩
    rcases Nat.lt_or_ge i l.length with hlt | hge
    · simpa [List.take_append_of_le_length hlt.le, List.getElem_append_left hlt] using hl ⟨i, hlt⟩
    · have hls : i = l.length := by
        rw [List.length_append, List.length_singleton] at hi
        omega
      subst hls
      simpa using hx

/-- The induction rule for histories. -/
theorem EachStep.of_invariant (inv : List α → Prop) (hn : inv [])
    (hs : ∀ l x, inv l → P l x → Q l x ∧ inv (l ++ [x])) {l : List α} (h : EachStep P l) : EachStep Q l ∧ inv l := by
  induction l using List.reverseRecOn with
  | nil => exact ⟨eachStep_nil, hn⟩
  | append_singleton l x ih =>
    obtain ⟨hl, hx⟩ := eachStep_append_singleton.1 h
    obtain ⟨hQ, hv⟩ := ih hl
    obtain ⟨hQx, hv'⟩ := hs l x hv hx
    exact ⟨eachStep_append_singleton.2 ⟨hQ, hQx⟩, hv'⟩

end Calls
