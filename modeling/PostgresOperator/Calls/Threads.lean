import Mathlib.Logic.Function.Basic
import PostgresOperator.Calls.Program

/-!
# Threads on one world

Programs that run at the same time on one world, one request at a time.  A thread may be started, may make its next
call, and may be stopped at any moment; in between the surroundings act on the world.  Everything that happens is
recorded in a `Run`, so that a statement can speak of what happened before.

`reachable_safe` is the rely/guarantee rule: when every step of the surroundings and every promised call keeps the
invariant and is within the rely of the other threads, then the calls of all threads are as promised.
-/

namespace Calls

/-! ### Runs -/

/-- A run: a first world, and after it one labelled step after the other. -/
inductive Run (L W : Type) : Type
  | start (w : W)
  | step (h : Run L W) (l : L) (w : W)

namespace Run

variable {L W : Type}

def world : Run L W → W
  | .start w => w
  | .step _ _ w => w

def first : Run L W → W
  | .start w => w
  | .step h _ _ => h.first

/-- Some world of the run, up to the last, satisfies `φ`. -/
def Past (φ : W → Prop) : Run L W → Prop
  | .start w => φ w
  | .step h _ w => h.Past φ ∨ φ w

/-- Every step of the run satisfies `ok`, which sees what went before. -/
def Steps (ok : Run L W → L → W → Prop) : Run L W → Prop
  | .start _ => True
  | .step h l w => h.Steps ok ∧ ok h l w

def SomeStep (ok : Run L W → L → W → Prop) : Run L W → Prop
  | .start _ => False
  | .step h l w => h.SomeStep ok ∨ ok h l w

instance decidableSteps (ok : Run L W → L → W → Prop) [∀ h l w, Decidable (ok h l w)] :
    ∀ h : Run L W, Decidable (h.Steps ok)
  | .start _ => inferInstanceAs (Decidable True)
  | .step h _ _ => @instDecidableAnd _ _ (decidableSteps ok h) inferInstance

instance decidableSomeStep (ok : Run L W → L → W → Prop) [∀ h l w, Decidable (ok h l w)] :
    ∀ h : Run L W, Decidable (h.SomeStep ok)
  | .start _ => inferInstanceAs (Decidable False)
  | .step h _ _ => @instDecidableOr _ _ (decidableSomeStep ok h) inferInstance

@[simp] theorem world_step (h : Run L W) (l : L) (w : W) : (h.step l w).world = w := rfl

@[simp] theorem first_step (h : Run L W) (l : L) (w : W) : (h.step l w).first = h.first := rfl

variable {φ : W → Prop} {h : Run L W}

theorem past_of_world (hw : φ h.world) : h.Past φ := by
  cases h with
  | start w => exact hw
  | step h l w => exact .inr hw

theorem past_of_first (hw : φ h.first) : h.Past φ := by
  induction h with
  | start w => exact hw
  | step h l w ih => exact .inl (ih hw)

theorem Past.step (hp : h.Past φ) (l : L) (w : W) : (h.step l w).Past φ := .inl hp

theorem Past.mono {ψ : W → Prop} (hp : h.Past φ) (hφ : ∀ w, φ w → ψ w) : h.Past ψ := by
  induction h with
  | start w => exact hφ w hp
  | step h l w ih => exact hp.imp ih (hφ w)

/-- What has been so was so at first, or became so at some step. -/
theorem Past.first_or_someStep (hp : h.Past φ) : φ h.first ∨ h.SomeStep fun h' _ w => ¬ φ h'.world ∧ φ w := by
  induction h with
  | start w => exact .inl hp
  | step h l w ih =>
    rcases hp with hp | hw
    · exact (ih hp).imp_right .inl
    · by_cases hh : φ h.world
      · exact (ih (past_of_world hh)).imp_right .inl
      · exact .inr (.inr ⟨hh, hw⟩)

variable {ok ok' : Run L W → L → W → Prop}

theorem Steps.mono (hs : h.Steps ok) (hok : ∀ h l w, ok h l w → ok' h l w) : h.Steps ok' := by
  induction h with
  | start w => trivial
  | step h l w ih => exact ⟨ih hs.1, hok h l w hs.2⟩

theorem SomeStep.mono (hs : h.SomeStep ok) (hok : ∀ h l w, ok h l w → ok' h l w) : h.SomeStep ok' := by
  induction h with
  | start w => exact hs
  | step h l w ih => exact hs.imp ih (hok h l w)

theorem SomeStep.and_steps (hs : h.SomeStep ok') (ha : h.Steps ok) :
    h.SomeStep fun h l w => ok h l w ∧ ok' h l w := by
  induction h with
  | start w => exact hs
  | step h l w ih => exact hs.imp (fun hs => ih hs ha.1) fun hs => ⟨ha.2, hs⟩

theorem SomeStep.of_const {p : Prop} (hs : h.SomeStep fun _ _ _ => p) : p := by
  induction h with
  | start w => exact hs.elim
  | step h l w ih => exact hs.elim ih id

end Run

/-! ### The step function -/

/-- Who made a step: a thread, with its request and whether it was answered without error, or the surroundings. -/
inductive Label (ι Req : Type) : Type
  | call (i : ι) (r : Req) (ok : Bool)
  | env

/-- A world that answers requests, in ways that a choice settles, and that also moves by events of its own. -/
structure Service (I : Interface) (W : Type) where
  Choice : Type
  answer : Choice → (r : I.Req) → W → I.Res r × W
  Event : Type
  happen : Event → W → Option W

variable {I : Interface} {W ι : Type}

inductive Event (S : Service I W) (ι : Type) : Type
  | start (i : ι)
  | call (i : ι) (c : S.Choice)
  | stop (i : ι)
  | env (e : S.Event)

structure Threads (I : Interface) (W ι : Type) where
  run : Run (Label ι I.Req) W
  threads : ι → Option (Prog I Unit)

namespace Threads

def init (w : W) : Threads I W ι := ⟨.start w, fun _ => none⟩

variable [DecidableEq ι]

/-- One event, if it is possible now.  Thread `i` runs the program `prog i` each time it is started. -/
def step (S : Service I W) (prog : ι → Prog I Unit) (s : Threads I W ι) : Event S ι → Option (Threads I W ι)
  | .start i =>
    match s.threads i with
    | none => some { s with threads := Function.update s.threads i (some (prog i)) }
    | some _ => none
  | .call i c =>
    match s.threads i with
    | some (.call r k) =>
      let (a, w) := S.answer c r s.run.world
      some ⟨s.run.step (.call i r (!I.failed a)) w, Function.update s.threads i (some (k a))⟩
    | _ => none
  | .stop i => some { s with threads := Function.update s.threads i none }
  | .env e => (S.happen e s.run.world).map fun w => ⟨s.run.step .env w, s.threads⟩

def replay (S : Service I W) (prog : ι → Prog I Unit) : Threads I W ι → List (Event S ι) → Option (Threads I W ι)
  | s, [] => some s
  | s, e :: es => (s.step S prog e).bind fun s' => replay S prog s' es

def Reachable (S : Service I W) (prog : ι → Prog I Unit) (w : W) (s : Threads I W ι) : Prop :=
  ∃ es, replay S prog (init w) es = some s

variable {S : Service I W} {prog : ι → Prog I Unit}

variable {s : Threads I W ι}

theorem replay_induction {P : Threads I W ι → Prop} (hste : ∀ s e s', P s → s.step S prog e = some s' → P s')
    {es : List (Event S ι)} {s' : Threads I W ι} (hs : P s) (h : replay S prog s es = some s') : P s' := by
  induction es generalizing s with
  | nil =>
    cases h
    exact hs
  | cons e es ih =>
    obtain ⟨s₁, h₁, h₂⟩ := Option.bind_eq_some_iff.1 h
    exact ih (hste s e s₁ hs h₁) h₂

theorem Reachable.first {w : W} (hs : Reachable S prog w s) : s.run.first = w := by
  obtain ⟨es, hes⟩ := hs
  refine replay_induction (P := fun s => s.run.first = w) (fun s e s' hf hste => ?_) rfl hes
  cases e with
  | start i =>
    simp only [step] at hste
    split at hste <;> cases hste
    exact hf
  | call i c =>
    simp only [step] at hste
    split at hste <;> cases hste
    exact hf
  | stop i =>
    cases hste
    exact hf
  | env e =>
    obtain ⟨w', -, rfl⟩ := Option.map_eq_some_iff.1 hste
    exact hf

/-! ### The rely/guarantee rule -/

/-- A call of thread `i` appends the answer of the service to the run. -/
def Answers (S : Service I W) (i : ι) (r : I.Req) (h : Run (Label ι I.Req) W) (a : I.Res r)
    (h' : Run (Label ι I.Req) W) : Prop :=
  ∃ c w, S.answer c r h.world = (a, w) ∧ h' = h.step (.call i r (!I.failed a)) w

abbrev setting (S : Service I W) (inv : Run (Label ι I.Req) W → Prop)
    (rely guar : ι → Run (Label ι I.Req) W → Run (Label ι I.Req) W → Prop) (i : ι) :
    Setting I (Run (Label ι I.Req) W) :=
  ⟨Answers S i, inv, rely i, guar i⟩

theorem forall_update {P : ι → Prog I Unit → Prop} {f : ι → Option (Prog I Unit)} {i : ι}
    {x : Option (Prog I Unit)} (hi : ∀ p, x = some p → P i p) (hne : ∀ j p, j ≠ i → f j = some p → P j p) :
    ∀ j p, Function.update f i x j = some p → P j p := by
  intro j p hp
  by_cases hj : j = i
  · subst hj
    rw [Function.update_self] at hp
    exact hi p hp
  · rw [Function.update_of_ne hj] at hp
    exact hne j p hj hp

/-- The rule for threads: if each program is safe under what the others guarantee, every reachable run keeps the
invariant. -/
theorem reachable_safe (inv : Run (Label ι I.Req) W → Prop)
    (rely guar : ι → Run (Label ι I.Req) W → Run (Label ι I.Req) W → Prop)
    (he : ∀ h e w, inv h → S.happen e h.world = some w →
      inv (h.step .env w) ∧ ∀ i, rely i h (h.step .env w))
    (hgr : ∀ i h h', inv h → guar i h h' → inv h' ∧ ∀ j, j ≠ i → rely j h h')
    (hpr : ∀ i h, inv h → Safe (setting S inv rely guar i) (fun _ _ => True) (prog i) h)
    {w : W} (hw : inv (.start w)) (hs : Reachable S prog w s) :
    inv s.run ∧ ∀ i p, s.threads i = some p → Safe (setting S inv rely guar i) (fun _ _ => True) p s.run := by
  obtain ⟨es, hes⟩ := hs
  have hini : inv (init w : Threads I W ι).run ∧ ∀ i p, (init w : Threads I W ι).threads i = some p →
      Safe (setting S inv rely guar i) (fun _ _ => True) p (init w : Threads I W ι).run :=
    ⟨hw, fun i p hp => by cases hp⟩
  refine replay_induction (P := fun s => inv s.run ∧ ∀ i p, s.threads i = some p →
    Safe (setting S inv rely guar i) (fun _ _ => True) p s.run) ?_ hini hes
  rintro s e s' ⟨hv, hsf⟩ hste
  cases e with
  | start i =>
    simp only [step] at hste
    split at hste <;> cases hste
    refine ⟨hv, forall_update (fun p hp => ?_) fun j p _ => hsf j p⟩
    cases hp
    exact hpr i _ hv
  | call i c =>
    simp only [step] at hste
    split at hste
    · rename_i r k hi
      cases hste
      -- the promise of the running thread gives the invariant and the rely of the others
      obtain ⟨hg, hk⟩ := hsf i _ hi s.run .refl hv _ _ ⟨c, _, rfl, rfl⟩
      obtain ⟨hv', hr⟩ := hgr i _ _ hv hg
      refine ⟨hv', forall_update (fun p hp => ?_) fun j p hj hp => (hsf j p hp).rely (hr j hj)⟩
      cases hp
      exact hk hv'
    · cases hste
  | stop i =>
    cases hste
    exact ⟨hv, forall_update (fun p hp => by cases hp) fun j p _ => hsf j p⟩
  | env e =>
    obtain ⟨w', hw', rfl⟩ := Option.map_eq_some_iff.1 hste
    obtain ⟨hv', hr⟩ := he s.run e w' hv hw'
    exact ⟨hv', fun j p hp => (hsf j p hp).rely (hr j)⟩

end Threads

end Calls
