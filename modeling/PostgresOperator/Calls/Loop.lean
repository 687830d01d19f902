import PostgresOperator.Calls.Reactive

/-!
# Loops that stop at an error

`forEach` is a loop with a state over a list that goes on until its body reports an error.  `After` is the
postcondition of a program whatever the world answers, `Reaches` one that some answers lead to; both have a rule for
each way to build a program and for the loop.
-/

namespace Calls

variable {I : Interface} {W σ ε α β : Type} {S : Service I W}

def forEach (f : σ → α → Prog I (σ × Except ε Unit)) : σ → List α → Prog I (σ × Except ε Unit)
  | s, [] => pure (s, .ok ())
  | s, x :: xs => do
    match ← f s x with
    | (s, .error e) => pure (s, .error e)
    | (s, .ok ()) => forEach f s xs

/-! ### All answers -/

def After (S : Service I W) (p : Prog I α) (w : W) (Q : α → W → Prop) : Prop := ∀ a w', Ends S p w a w' → Q a w'

variable {Q : α → W → Prop}

theorem after_pure {a : α} {w : W} (h : Q a w) : After S (.pure a) w Q := by
  intro b w' he
  obtain ⟨rfl, rfl⟩ := ends_pure.1 he
  exact h

variable {r : I.Req}

theorem after_call {k : I.Res r → Prog I α} {w : W}
    (h : ∀ c, After S (k (S.answer c r w).1) (S.answer c r w).2 Q) : After S (.call r k) w Q := by
  intro a w' he
  obtain ⟨c, he⟩ := ends_call.1 he
  exact h c a w' he

theorem after_request {w : W} : After S (Prog.request r) w fun a w' => ∃ c, S.answer c r w = (a, w') :=
  after_call fun c => after_pure ⟨c, rfl⟩

variable {p : Prog I α}

/-- Sequencing. -/
theorem After.bind {f : α → Prog I β} {w : W} {Q' : β → W → Prop}
    (h : After S p w Q) (hf : ∀ a w, Q a w → After S (f a) w Q') : After S (p >>= f) w Q' := by
  intro b w' he
  obtain ⟨a, w₁, hp, he⟩ := ends_bind.1 he
  exact hf a w₁ (h a w₁ hp) b w' he

theorem After.mono {w : W} {Q' : α → W → Prop} (h : After S p w Q) (hQ : ∀ a w, Q a w → Q' a w) : After S p w Q' :=
  fun a w' he => hQ a w' (h a w' he)

variable {f : σ → α → Prog I (σ × Except ε Unit)} {J : W → Prop} {xs : List α}

/-- The invariant rule for loops. -/
theorem after_forEach {s : σ} {w : W}
    (h : ∀ x ∈ xs, ∀ s w, J w → After S (f s x) w fun _ => J) (hw : J w) : After S (forEach f s xs) w fun _ => J := by
  induction xs generalizing s w with
  | nil => exact after_pure hw
  | cons x xs ih =>
    refine (h x (by simp) s w hw).bind ?_
    rintro ⟨s', e | ⟨⟩⟩ w' hw'
    · exact after_pure hw'
    · exact ih (fun y hy => h y (by simp [hy])) hw'

/-- All requests of the program satisfy `φ`. -/
def Prog.Only (φ : I.Req → Prop) : Prog I α → Prop
  | .pure _ => True
  | .call r k => φ r ∧ ∀ a, (k a).Only φ

variable {φ : I.Req → Prop}

@[simp] theorem Prog.only_pure {a : α} : (Prog.pure a : Prog I α).Only φ := trivial

@[simp] theorem Prog.only_call {k : I.Res r → Prog I α} : (Prog.call r k).Only φ ↔ φ r ∧ ∀ a, (k a).Only φ := Iff.rfl

/-- Sequencing. -/
theorem Prog.Only.bind {f : α → Prog I β} (hp : p.Only φ) (hf : ∀ a, (f a).Only φ) : (p >>= f).Only φ := by
  induction p with
  | pure a => exact hf a
  | call r k ih => exact ⟨hp.1, fun a => ih a (hp.2 a)⟩

theorem Prog.Only.request {f : I.Res r → Prog I β} (hr : φ r) (hf : ∀ a, (f a).Only φ) :
    (Prog.request r >>= f).Only φ := ⟨hr, hf⟩

theorem Prog.Only.mono {ψ : I.Req → Prop} (hp : p.Only φ) (h : ∀ r, φ r → ψ r) : p.Only ψ := by
  induction p with
  | pure a => trivial
  | call r k ih => exact ⟨h r hp.1, fun a => ih a (hp.2 a)⟩

theorem Prog.only_forEach (h : ∀ s x, (f s x).Only φ) (s : σ) (xs : List α) : (forEach f s xs).Only φ := by
  induction xs generalizing s with
  | nil => trivial
  | cons x xs ih =>
    refine (h s x).bind ?_
    rintro ⟨s', e | ⟨⟩⟩
    · trivial
    · exact ih s'

/-- What the requests of a program keep, the program keeps. -/
theorem Prog.Only.after {w : W} (hp : p.Only φ)
    (h : ∀ c r w, φ r → J w → J (S.answer c r w).2) (hw : J w) : After S p w fun _ => J := by
  induction p generalizing w with
  | pure a => exact after_pure hw
  | call r k ih => exact after_call fun c => ih _ (hp.2 _) (h c r w hp.1 hw)

/-! ### Some answers -/

/-- The program can end so that `Q` holds. -/
def Reaches (S : Service I W) (p : Prog I α) (w : W) (Q : α → W → Prop) : Prop := ∃ a w', Ends S p w a w' ∧ Q a w'

theorem reaches_pure {a : α} {w : W} (h : Q a w) : Reaches S (.pure a) w Q :=
  ⟨a, w, ends_pure.2 ⟨rfl, rfl⟩, h⟩

theorem ends_eval (c : S.Choice) (p : Prog I α) (w : W) :
    Ends S p w (p.eval (S.answer c) w).1 (p.eval (S.answer c) w).2 := by
  induction p generalizing w with
  | pure a => exact ends_pure.2 ⟨rfl, rfl⟩
  | call r k ih => exact ends_call.2 ⟨c, ih _ _⟩

theorem reaches_call {k : I.Res r → Prog I α} {w : W} (c : S.Choice)
    (h : Reaches S (k (S.answer c r w).1) (S.answer c r w).2 Q) : Reaches S (.call r k) w Q := by
  obtain ⟨a, w', he, hQ⟩ := h
  exact ⟨a, w', ends_call.2 ⟨c, he⟩, hQ⟩

theorem reaches_request {w : W} (c : S.Choice) : Reaches S (Prog.request r) w fun a w' => S.answer c r w = (a, w') :=
  reaches_call c (reaches_pure rfl)

/-- Sequencing. -/
theorem Reaches.bind {f : α → Prog I β} {w : W} {Q' : β → W → Prop}
    (h : Reaches S p w Q) (hf : ∀ a w, Q a w → Reaches S (f a) w Q') : Reaches S (p >>= f) w Q' := by
  obtain ⟨a, w₁, hp, hQ⟩ := h
  obtain ⟨b, w₂, he, hQ'⟩ := hf a w₁ hQ
  exact ⟨b, w₂, ends_bind.2 ⟨a, w₁, hp, he⟩, hQ'⟩

theorem Reaches.mono {w : W} {Q' : α → W → Prop} (h : Reaches S p w Q) (hQ : ∀ a w, Q a w → Q' a w) :
    Reaches S p w Q' := by
  obtain ⟨a, w', he, hw'⟩ := h
  exact ⟨a, w', he, hQ a w' hw'⟩

theorem reaches_forEach_keeping {s : σ} {w : W}
    (h : ∀ y ∈ xs, ∀ w, J w → Reaches S (f s y) w fun a w' => a = (s, .ok ()) ∧ J w') (hw : J w) :
    Reaches S (forEach f s xs) w fun a w' => a = (s, .ok ()) ∧ J w' := by
  induction xs generalizing w with
  | nil => exact reaches_pure ⟨rfl, hw⟩
  | cons y xs ih =>
    refine (h y (by simp) w hw).bind ?_
    rintro _ w' ⟨rfl, hw'⟩
    exact ih (fun z hz => h z (by simp [hz])) hw'

theorem reaches_forEach_end {s : σ} (h : ∀ y ∈ xs, ∀ w, Reaches S (f s y) w fun a _ => a = (s, .ok ())) (w : W) :
    Reaches S (forEach f s xs) w fun a _ => a = (s, .ok ()) := by
  have hl : Reaches S (forEach f s xs) w fun a _ => a = (s, .ok ()) ∧ True :=
    reaches_forEach_keeping (fun y hy w _ => (h y hy w).mono fun _ _ ha => ⟨ha, trivial⟩) trivial
  exact hl.mono fun _ _ ha => ha.1

def Service.Lasting (S : Service I W) (φ : W → Prop) : Prop := ∀ c r w, φ w → φ (S.answer c r w).2

/-- No program undoes what lasts. -/
theorem after_lasting {φ : W → Prop} (hφ : S.Lasting φ) (p : Prog I α) {w : W} (hw : φ w) :
    After S p w fun _ => φ := by
  induction p generalizing w with
  | pure a => exact after_pure hw
  | call r k ih => exact after_call fun c => ih _ (hφ c r w hw)

variable [Inhabited S.Choice] {φ : W → Prop}

theorem reaches_lasting (hφ : S.Lasting φ) (p : Prog I α) {w : W} (hw : φ w) : Reaches S p w fun _ => φ := by
  induction p generalizing w with
  | pure a => exact reaches_pure hw
  | call r k ih => exact reaches_call default (ih _ (hφ default r w hw))

/-- A loop comes to one of its elements if those before it can be passed, and what it does there lasts. -/
theorem reaches_forEach {before after : List α} {x : α} {s : σ} {w : W} (hφ : S.Lasting φ)
    (hb : ∀ y ∈ before, ∀ w, J w → Reaches S (f s y) w fun a w' => a = (s, .ok ()) ∧ J w')
    (hx : ∀ w, J w → Reaches S (f s x) w fun _ => φ) (hw : J w) :
    Reaches S (forEach f s (before ++ x :: after)) w fun _ => φ := by
  induction before generalizing w with
  | nil =>
    refine (hx w hw).bind ?_
    intro a w' hw'
    exact reaches_lasting hφ _ hw'
  | cons y before ih =>
    refine (hb y (by simp) w hw).bind ?_
    rintro _ w' ⟨rfl, hw'⟩
    exact ih (fun z hz => hb z (by simp [hz])) hw'

end Calls
