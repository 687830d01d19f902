import Mathlib.Init

/-!
# Machines

A machine takes a step at an event, or refuses it.  It attains a state if events lead to it, each of which meets a
condition on the state before.
-/

namespace Calls

variable {σ ε : Type} {step : σ → ε → Option σ} {ok : σ → ε → Prop} {start s s' : σ} {e : ε}

inductive Attains (step : σ → ε → Option σ) (ok : σ → ε → Prop) (start : σ) : σ → Prop
  | start : Attains step ok start start
  | step {s s' : σ} {e : ε} (h : Attains step ok start s) (hok : ok s e)
    (hs : step s e = some s') : Attains step ok start s'

/-- The invariant rule. -/
theorem Attains.invariant {P : σ → Prop} (h : Attains step ok start s) (hi : P start)
    (hs : ∀ {s s' e}, P s → ok s e → step s e = some s' → P s') : P s := by
  induction h with
  | start => exact hi
  | step _ hok h ih => exact hs ih hok h

theorem Attains.play (h : Attains step (fun _ _ => True) start s) (es : List ε) (hs : es.foldlM step s = some s') :
    Attains step (fun _ _ => True) start s' := by
  induction es generalizing s with
  | nil =>
    cases hs
    exact h
  | cons e es ih =>
    obtain ⟨s₁, h₁, hs⟩ := Option.bind_eq_some_iff.1 hs
    exact ih (h.step trivial h₁) hs

theorem Attains.playOk {ok : σ → ε → Bool} (h : Attains step (ok · ·) start s) (es : List ε)
    (hs : es.foldlM (fun s e => if ok s e then step s e else none) s = some s') : Attains step (ok · ·) start s' := by
  induction es generalizing s with
  | nil =>
    cases hs
    exact h
  | cons e es ih =>
    obtain ⟨s₁, h₁, hs⟩ := Option.bind_eq_some_iff.1 hs
    obtain ⟨hok, h₁⟩ := Option.ite_none_right_eq_some.1 h₁
    exact ih (h.step hok h₁) hs

end Calls
