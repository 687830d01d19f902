import PostgresOperator.Calls.Threads

/-!
# Programs that serve messages

A server has a state and a program for every message.  The world answers the calls of the program in ways that choices
settle; `Ends` says that some choices lead to a result.  A run is the list of messages served so far with the state
and the world after each, so that a condition or a conclusion can be about every step of it.
-/

namespace Calls

variable {I : Interface} {W α β : Type}

/-! ### One program -/

def Prog.play (S : Service I W) : Prog I α → W → List S.Choice → Option (α × W)
  | .pure a, w, [] => some (a, w)
  | .pure _, _, _ :: _ => none
  | .call _ _, _, [] => none
  | .call r k, w, c :: cs => (k (S.answer c r w).1).play S (S.answer c r w).2 cs

def Ends (S : Service I W) (p : Prog I α) (w : W) (a : α) (w' : W) : Prop := ∃ cs, p.play S w cs = some (a, w')

variable {S : Service I W}

@[simp] theorem ends_pure {a b : α} {w w' : W} : Ends S (.pure a) w b w' ↔ b = a ∧ w' = w := by
  constructor
  · rintro ⟨cs, h⟩
    cases cs with
    | nil =>
      cases h
      exact ⟨rfl, rfl⟩
    | cons c cs => cases h
  · rintro ⟨rfl, rfl⟩
    exact ⟨[], rfl⟩

@[simp] theorem ends_call {r : I.Req} {k : I.Res r → Prog I α} {b : α} {w w' : W} :
    Ends S (.call r k) w b w' ↔ ∃ c, Ends S (k (S.answer c r w).1) (S.answer c r w).2 b w' := by
  constructor
  · rintro ⟨cs, h⟩
    cases cs with
    | nil => cases h
    | cons c cs => exact ⟨c, cs, h⟩
  · rintro ⟨c, cs, h⟩
    exact ⟨c :: cs, h⟩

/-- A sequence ends when its second part does. -/
@[simp] theorem ends_bind {p : Prog I α} {f : α → Prog I β} {b : β} {w w' : W} :
    Ends S (p >>= f) w b w' ↔ ∃ a w₁, Ends S p w a w₁ ∧ Ends S (f a) w₁ b w' := by
  induction p generalizing w with
  | pure a =>
    simp only [Prog.pure_bind, ends_pure]
    constructor
    · intro h
      exact ⟨a, w, ⟨rfl, rfl⟩, h⟩
    · rintro ⟨_, _, ⟨rfl, rfl⟩, h⟩
      exact h
  | call r k ih =>
    simp only [Prog.call_bind, ends_call, ih]
    constructor
    · rintro ⟨c, a, w₁, hk, hf⟩
      exact ⟨a, w₁, ⟨c, hk⟩, hf⟩
    · rintro ⟨a, w₁, ⟨c, hk⟩, hf⟩
      exact ⟨c, a, w₁, hk, hf⟩

theorem Ends.map {S' : Service I W} (f : S.Choice → S'.Choice) (hf : ∀ c r w, S.answer c r w = S'.answer (f c) r w)
    {p : Prog I α} {w w' : W} {a : α} (h : Ends S p w a w') : Ends S' p w a w' := by
  induction p generalizing w with
  | pure b => exact ends_pure.2 (ends_pure.1 h)
  | call r k ih =>
    obtain ⟨c, hc⟩ := ends_call.1 h
    refine ends_call.2 ⟨f c, ?_⟩
    rw [← hf]
    exact ih _ hc

/-! ### Runs of a server -/

variable {σ M : Type}

/-- What a server does with a message; it stops with `none`. -/
abbrev Server (I : Interface) (σ M : Type) := σ → M → Prog I (Option σ)

/-- Messages that were served, with the state and the world after each. -/
abbrev Served (σ M W : Type) := Run M (Option σ × W)

def Run.messages : Served σ M W → List M
  | .start _ => []
  | .step h m _ => h.messages ++ [m]

/-- The step of a run with the message `m` is one of the server, which had not stopped. -/
def Server.Serves (S : Service I W) (P : Server I σ M) (h : Served σ M W) (m : M) (x : Option σ × W) : Prop :=
  ∃ s, h.world.1 = some s ∧ Ends S (P s m) h.world.2 x.1 x.2

/-- A run of the server from the state `s` and the world `w`. -/
def Server.IsRun (S : Service I W) (P : Server I σ M) (s : σ) (w : W) (h : Served σ M W) : Prop :=
  h.first = (some s, w) ∧ h.Steps (P.Serves S)

/-- A condition or a conclusion on a step: the state and the world before it, the message, and both after it. -/
abbrev StepProp (σ M W : Type) := σ → W → M → Option σ → W → Prop

def Run.Always (φ : StepProp σ M W) (h : Served σ M W) : Prop :=
  h.Steps fun h m x => ∀ s, h.world.1 = some s → φ s h.world.2 m x.1 x.2

namespace Server

variable {P : Server I σ M} {s₀ : σ} {w₀ : W}

variable {h : Served σ M W}

/-- The rule for runs: an invariant, which may speak of what went before, that every step keeps as long as the steps
satisfy `φ`, and from which every step satisfies `ψ`. -/
theorem IsRun.steps {φ ψ : Served σ M W → M → Option σ × W → Prop} (inv : Served σ M W → σ → Prop)
    (hini : inv (.start (some s₀, w₀)) s₀)
    (hstep : ∀ h s m x, h.world.1 = some s → inv h s → Ends S (P s m) h.world.2 x.1 x.2 → φ h m x →
      ψ h m x ∧ ∀ s', x.1 = some s' → inv (h.step m x) s') (hr : IsRun S P s₀ w₀ h) (hφ : h.Steps φ) :
    h.Steps ψ ∧ ∀ s, h.world.1 = some s → inv h s := by
  obtain ⟨hf, hste⟩ := hr
  induction h with
  | start x =>
    refine ⟨trivial, ?_⟩
    intro s hs
    change x = _ at hf
    change x.1 = some s at hs
    subst hf
    cases hs
    exact hini
  | step h m x ih =>
    obtain ⟨hψ, hv⟩ := ih hφ.1 hf hste.1
    obtain ⟨s, hs, he⟩ := hste.2
    obtain ⟨hψx, hinvx⟩ := hstep h s m x hs (hv s hs) he hφ.2
    exact ⟨⟨hψ, hψx⟩, hinvx⟩

/-- The invariant rule for programs that serve one message after the other. -/
theorem IsRun.always {φ ψ : StepProp σ M W} (inv : σ → W → Prop) (hini : inv s₀ w₀)
    (hste : ∀ s w m o w', inv s w → Ends S (P s m) w o w' → φ s w m o w' →
      ψ s w m o w' ∧ ∀ s', o = some s' → inv s' w') (hr : IsRun S P s₀ w₀ h) (hφ : h.Always φ) :
    h.Always ψ ∧ ∀ s, h.world.1 = some s → inv s h.world.2 := by
  refine IsRun.steps (fun h s => inv s h.world.2) hini ?_ hr hφ
  intro h s m x hs hv he hφx
  obtain ⟨hψ, hv'⟩ := hste s h.world.2 m x.1 x.2 hv he (hφx s hs)
  refine ⟨?_, hv'⟩
  intro s' hs'
  rw [hs] at hs'
  cases hs'
  exact hψ

/-! ### Replay -/

def replay (S : Service I W) (P : Server I σ M) : Served σ M W → List (M × List S.Choice) → Option (Served σ M W)
  | h, [] => some h
  | h, (m, cs) :: rest =>
    match h.world with
    | (none, _) => none
    | (some s, w) => ((P s m).play S w cs).bind fun x => replay S P (h.step m x) rest

theorem isRun_replay {h' : Served σ M W} {ms : List (M × List S.Choice)} (hn : IsRun S P s₀ w₀ h)
    (hrp : replay S P h ms = some h') : IsRun S P s₀ w₀ h' := by
  induction ms generalizing h with
  | nil =>
    cases hrp
    exact hn
  | cons x ms ih =>
    obtain ⟨m, cs⟩ := x
    unfold replay at hrp
    split at hrp
    · cases hrp
    · rename_i s w hw
      obtain ⟨x, hp, hr⟩ := Option.bind_eq_some_iff.1 hrp
      have hs : P.Serves S h m x := ⟨s, by rw [hw], cs, by rw [hw]; exact hp⟩
      have hn' : IsRun S P s₀ w₀ (h.step m x) := ⟨hn.1, hn.2, hs⟩
      exact ih hn' hr

theorem isRun_start : IsRun S P s₀ w₀ (.start (some s₀, w₀)) := ⟨rfl, trivial⟩

end Server

end Calls
