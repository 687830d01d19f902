import Mathlib.Logic.Relation

/-!
# Programs that make calls

A program over an interface is a tree: it returns a value, or it makes a request and goes on with the answer.  What a
request does to the world is not part of the program.  `Safe` is the rely/guarantee judgement for such programs: the
world may move between two calls as the rely relation allows, every call moves it as the guarantee says, and the
program may be stopped before any call.
-/

namespace Calls

/-- The requests of an interface, the type of the answer to each, and which answers are errors. -/
structure Interface where
  Req : Type
  Res : Req → Type
  failed : {r : Req} → Res r → Bool

/-- A program that makes requests and returns a value. -/
inductive Prog (I : Interface) (α : Type) : Type
  | pure (a : α)
  | call (r : I.Req) (k : I.Res r → Prog I α)

variable {I : Interface} {α β γ : Type}

namespace Prog

def bind : Prog I α → (α → Prog I β) → Prog I β
  | .pure a, f => f a
  | .call r k, f => .call r fun a => (k a).bind f

instance : Monad (Prog I) where
  pure := Prog.pure
  bind := Prog.bind

def request (r : I.Req) : Prog I (I.Res r) := .call r .pure

@[simp] theorem pure_bind (a : α) (f : α → Prog I β) : (Prog.pure a >>= f) = f a := rfl

@[simp] theorem pure_eq (a : α) : (Pure.pure a : Prog I α) = .pure a := rfl

@[simp] theorem call_bind (r : I.Req) (k : I.Res r → Prog I α) (f : α → Prog I β) :
    (Prog.call r k >>= f) = .call r fun a => k a >>= f := rfl

@[simp] theorem request_bind (r : I.Req) (f : I.Res r → Prog I β) : (request r >>= f) = .call r f := rfl

/-- Run a program alone, with `answer` for the world. -/
def eval {W : Type} (answer : (r : I.Req) → W → I.Res r × W) : Prog I α → W → α × W
  | .pure a, w => (a, w)
  | .call r k, w => (k (answer r w).1).eval answer (answer r w).2

section Eval

variable {W : Type} {answer : (r : I.Req) → W → I.Res r × W}

@[simp] theorem eval_pure (a : α) (w : W) : (Prog.pure a : Prog I α).eval answer w = (a, w) := rfl

@[simp] theorem eval_call (r : I.Req) (k : I.Res r → Prog I α) (w : W) :
    (Prog.call r k).eval answer w = (k (answer r w).1).eval answer (answer r w).2 := rfl

theorem eval_bind (p : Prog I α) (f : α → Prog I β) (w : W) :
    (p >>= f).eval answer w = (f (p.eval answer w).1).eval answer (p.eval answer w).2 := by
  induction p generalizing w with
  | pure a => rfl
  | call r k ih => exact ih _ _

end Eval

end Prog

/-! ### Rely and guarantee -/

/-- What is known of the surroundings of a program: how its calls are answered, what every step of anyone keeps, what
the steps of others do, and what the program promises of its own calls. -/
structure Setting (I : Interface) (W : Type) where
  answers : (r : I.Req) → W → I.Res r → W → Prop
  inv : W → Prop
  rely : W → W → Prop
  guar : W → W → Prop

variable {W : Type} {C : Setting I W}

def Setting.Stable (C : Setting I W) (P : W → Prop) : Prop := ∀ w w', C.rely w w' → P w → P w'

theorem Setting.Stable.and {P P' : W → Prop} (h : C.Stable P) (h' : C.Stable P') : C.Stable fun w => P w ∧ P' w :=
  fun w w' hr hw => ⟨h w w' hr hw.1, h' w w' hr hw.2⟩

theorem Setting.Stable.forall {ι : Sort*} {P : ι → W → Prop} (h : ∀ i, C.Stable (P i)) :
    C.Stable fun w => ∀ i, P i w :=
  fun w w' hr hw i => h i w w' hr (hw i)

theorem Setting.Stable.reachable {P : W → Prop} (h : C.Stable P) {w w' : W}
    (hr : Relation.ReflTransGen C.rely w w') (hw : P w) : P w' := by
  induction hr with
  | refl => exact hw
  | tail _ hs ih => exact h _ _ hs ih

/-- From `w`, every call of the program is as promised, and a value that it returns satisfies `Q`. -/
def Safe (C : Setting I W) (Q : α → W → Prop) : Prog I α → W → Prop
  | .pure a, w => Q a w
  | .call r k, w => ∀ w', Relation.ReflTransGen C.rely w w' → C.inv w' →
      ∀ a w'', C.answers r w' a w'' → C.guar w' w'' ∧ (C.inv w'' → Safe C Q (k a) w'')

variable {Q : α → W → Prop}

theorem safe_pure {a : α} {w : W} (h : Q a w) : Safe C Q (.pure a) w := h

/-- The rule for one call: it is made in any world that the others may have reached from here. -/
theorem safe_call {r : I.Req} {k : I.Res r → Prog I α} {w : W} (P : W → Prop) (hP : C.Stable P) (hw : P w)
    (h : ∀ w a w', C.inv w → P w → C.answers r w a w' → C.guar w w' ∧ (C.inv w' → Safe C Q (k a) w')) :
    Safe C Q (.call r k) w :=
  fun w' hr hi a w'' ha => h w' a w'' hi (hP.reachable hr hw) ha

variable {p : Prog I α}

/-- Sequencing. -/
theorem Safe.bind {Q' : β → W → Prop} {f : α → Prog I β} {w : W}
    (h : Safe C Q p w) (hf : ∀ a w, Q a w → Safe C Q' (f a) w) : Safe C Q' (p >>= f) w := by
  induction p generalizing w with
  | pure a => exact hf a w h
  | call r k ih =>
    intro w' hr hi a w'' ha
    obtain ⟨hg, hk⟩ := h w' hr hi a w'' ha
    exact ⟨hg, fun hi' => ih a (hk hi')⟩

theorem Safe.except {ε : Type} {p : Prog I (Except ε α)} {Q : Except ε α → W → Prop} {Q' : β → W → Prop}
    {f : Except ε α → Prog I β} {w : W} (h : Safe C Q p w) (he : ∀ e w, Q (.error e) w → Safe C Q' (f (.error e)) w)
    (hok : ∀ a w, Q (.ok a) w → Safe C Q' (f (.ok a)) w) : Safe C Q' (p >>= f) w :=
  h.bind fun a w ha => match a with
    | .error e => he e w ha
    | .ok a => hok a w ha

theorem Safe.mono {Q' : α → W → Prop} {w : W} (h : Safe C Q p w) (hQ : ∀ a w, Q a w → Q' a w) : Safe C Q' p w := by
  induction p generalizing w with
  | pure a => exact hQ a w h
  | call r k ih =>
    intro w' hr hi a w'' ha
    obtain ⟨hg, hk⟩ := h w' hr hi a w'' ha
    exact ⟨hg, fun hi' => ih a (hk hi')⟩

/-- A program that is safe stays so while the others act. -/
theorem Safe.rely {w w' : W} (h : Safe C (fun _ _ => True) p w) (hr : C.rely w w') :
    Safe C (fun _ _ => True) p w' := by
  cases p with
  | pure a => trivial
  | call r k => exact fun w'' hr' => h w'' (.head hr hr')

end Calls
