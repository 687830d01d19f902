import PostgresOperator.Calls.Crash

/-!
# Traces

A trace of a program is the list of the calls that it has made so far with the answers that it was given.  The world
may answer anything and the program may be stopped after any call, so that a front part of a trace is a trace.
-/

namespace Calls

variable {I : Interface} {α β : Type}

structure Exchange (I : Interface) where
  req : I.Req
  res : I.Res req

/-- The program can have made these calls and have been given these answers. -/
inductive Prog.Trace : Prog I α → List (Exchange I) → Prop
  | stopped (p : Prog I α) : Trace p []
  | call {r : I.Req} {k : I.Res r → Prog I α} {a : I.Res r} {es : List (Exchange I)} (h : Trace (k a) es) :
      Trace (.call r k) (⟨r, a⟩ :: es)

namespace Prog

variable {es : List (Exchange I)}

theorem trace_pure {a : α} (h : (Prog.pure a : Prog I α).Trace es) : es = [] := by
  cases h
  rfl

theorem trace_call {r : I.Req} {k : I.Res r → Prog I α} (h : (Prog.call r k).Trace es) :
    es = [] ∨ ∃ a es', es = ⟨r, a⟩ :: es' ∧ (k a).Trace es' := by
  cases h with
  | stopped => exact .inl rfl
  | call h => exact .inr ⟨_, _, rfl, h⟩

/-- A trace of a sequence stops in its first part or goes on into the second. -/
theorem trace_bind {p : Prog I α} {f : α → Prog I β} (h : (p >>= f).Trace es) :
    p.Trace es ∨ ∃ a es₁ es₂, es = es₁ ++ es₂ ∧ p.Trace es₁ ∧ (f a).Trace es₂ := by
  induction p generalizing es with
  | pure a => exact .inr ⟨a, [], es, rfl, .stopped _, h⟩
  | call r k ih =>
    obtain rfl | ⟨b, es, rfl, hk⟩ := trace_call h
    · exact .inl (.stopped _)
    obtain h' | ⟨a, es₁, es₂, rfl, h₁, h₂⟩ := ih b hk
    · exact .inl (.call h')
    · exact .inr ⟨a, _ :: es₁, es₂, rfl, .call h₁, h₂⟩

theorem Only.trace {φ : I.Req → Prop} {p : Prog I α} (hp : p.Only φ) (h : p.Trace es) : ∀ e ∈ es, φ e.req := by
  induction h with
  | stopped => simp
  | call _ ih =>
    intro e he
    obtain rfl | he := List.mem_cons.1 he
    · exact hp.1
    · exact ih (hp.2 _) e he

def record (answer : (r : I.Req) → I.Res r) : Prog I α → List (Exchange I)
  | .pure _ => []
  | .call r k => ⟨r, answer r⟩ :: (k (answer r)).record answer

theorem trace_record (answer : (r : I.Req) → I.Res r) (p : Prog I α) : p.Trace (p.record answer) := by
  induction p with
  | pure a => exact .stopped _
  | call r k ih => exact .call (ih _)

end Prog

end Calls
