import PostgresOperator.Calls.Loop

/-!
# Programs that may be stopped

A program may be stopped before any of its requests, and then what it did so far stays.  `Throughout` is a
postcondition together with what holds whenever the program is stopped.  While a program runs, the surroundings may
act (`busy`), and a program over one interface is one over a larger interface (`embed`).
-/

namespace Calls

variable {I J : Interface} {W σ ε α β : Type}

/-! ### Surroundings and larger interfaces -/

def Service.busy (S : Service I W) : Service I W where
  Choice := List S.Event × S.Choice
  answer c r w := S.answer c.2 r (c.1.foldl (fun w e => (S.happen e w).getD w) w)
  Event := S.Event
  happen := S.happen

/-- The same world with notes on its answers, which only statements read; `note` sees the worlds before and after. -/
def Service.noting {G : Type} (S : Service I W) (note : (r : I.Req) → I.Res r → W → W → G → G) :
    Service I (W × G) where
  Choice := S.Choice
  answer c r w := ((S.answer c r w.1).1, (S.answer c r w.1).2,
    note r (S.answer c r w.1).1 w.1 (S.answer c r w.1).2 w.2)
  Event := S.Event
  happen e w := (S.happen e w.1).map (·, w.2)

def Prog.embed (f : I.Req → J.Req) (g : (r : I.Req) → J.Res (f r) → I.Res r) : Prog I α → Prog J α
  | .pure a => .pure a
  | .call r k => .call (f r) fun a => (k (g r a)).embed f g

variable {φ : I.Req → Prop} {p : Prog I α}

theorem Prog.Only.embed {f : I.Req → J.Req} {g : (r : I.Req) → J.Res (f r) → I.Res r} {ψ : J.Req → Prop}
    (hp : p.Only φ)
    (h : ∀ r, φ r → ψ (f r)) : (p.embed f g).Only ψ := by
  induction p with
  | pure a => trivial
  | call r k ih => exact ⟨h r hp.1, fun a => ih _ (hp.2 _)⟩

/-! ### Stopping -/

/-- Run a program for some of its calls: the request that it is stopped before, if there is one, and the world
then. -/
def Prog.halt (S : Service I W) : Prog I α → W → List S.Choice → Option (Option I.Req × W)
  | .pure _, w, [] => some (none, w)
  | .pure _, _, _ :: _ => none
  | .call r _, w, [] => some (some r, w)
  | .call r k, w, c :: cs => (k (S.answer c r w).1).halt S (S.answer c r w).2 cs

/-- The program can be stopped in the world `w'`, before the request `r`. -/
def Stops (S : Service I W) (p : Prog I α) (w : W) (r : Option I.Req) (w' : W) : Prop :=
  ∃ cs, p.halt S w cs = some (r, w')

/-- `C` holds whenever the program may be stopped before a request, and `Q` when it ends. -/
def Throughout (S : Service I W) (C : I.Req → W → Prop) : Prog I α → W → (α → W → Prop) → Prop
  | .pure a, w, Q => Q a w
  | .call r k, w, Q => C r w ∧ ∀ c, Throughout S C (k (S.answer c r w).1) (S.answer c r w).2 Q

variable {S : Service I W} {C : I.Req → W → Prop}

variable {Q : α → W → Prop}

theorem throughout_pure {a : α} {w : W} (h : Q a w) : Throughout S C (.pure a) w Q := h

/-- The rule for one request: a program may stop before it, so its condition has to hold there. -/
theorem throughout_request {r : I.Req} {w : W} (hC : C r w) :
    Throughout S C (Prog.request r) w fun a w' => ∃ c, S.answer c r w = (a, w') :=
  ⟨hC, fun c => ⟨c, rfl⟩⟩

/-- Sequencing. -/
theorem Throughout.bind {f : α → Prog I β} {w : W} {Q' : β → W → Prop}
    (h : Throughout S C p w Q) (hf : ∀ a w, Q a w → Throughout S C (f a) w Q') : Throughout S C (p >>= f) w Q' := by
  induction p generalizing w with
  | pure a => exact hf a w h
  | call r k ih => exact ⟨h.1, fun c => ih _ (h.2 c)⟩

theorem Throughout.except {ε : Type} {p : Prog I (Except ε α)} {f : Except ε α → Prog I β} {w : W}
    {Q : Except ε α → W → Prop}
    {Q' : β → W → Prop} (h : Throughout S C p w Q) (he : ∀ e w, Q (.error e) w → Throughout S C (f (.error e)) w Q')
    (hok : ∀ a w, Q (.ok a) w → Throughout S C (f (.ok a)) w Q') : Throughout S C (p >>= f) w Q' :=
  h.bind fun a w ha => match a with
    | .error e => he e w ha
    | .ok a => hok a w ha

theorem Throughout.mono {w : W} {Q' : α → W → Prop} (h : Throughout S C p w Q) (hQ : ∀ a w, Q a w → Q' a w) :
    Throughout S C p w Q' := by
  induction p generalizing w with
  | pure a => exact hQ a w h
  | call r k ih => exact ⟨h.1, fun c => ih _ (h.2 c)⟩

/-- A program whose requests keep `K` keeps it wherever it stops. -/
theorem Prog.Only.throughout {K : W → Prop} {w : W} (hp : p.Only φ)
    (hC : ∀ r w, φ r → K w → C r w) (h : ∀ c r w, φ r → K w → K (S.answer c r w).2) (hw : K w) :
    Throughout S C p w fun _ => K := by
  induction p generalizing w with
  | pure a => exact hw
  | call r k ih => exact ⟨hC r w hp.1 hw, fun c => ih _ (hp.2 _) (h c r w hp.1 hw)⟩

theorem throughout_lasting {φ : W → Prop} (hφ : S.Lasting φ) (hC : ∀ r w, φ w → C r w) (p : Prog I α) {w : W}
    (hw : φ w) :
    Throughout S C p w fun _ => φ := by
  induction p generalizing w with
  | pure a => exact hw
  | call r k ih => exact ⟨hC r w hw, fun c => ih _ (hφ c r w hw)⟩

/-- The rule for loops: the invariant speaks of the elements that are left. -/
theorem throughout_forEach {f : σ → α → Prog I (σ × Except ε Unit)} {K : List α → W → Prop}
    {Q : σ × Except ε Unit → W → Prop} (hn : ∀ s w, K [] w → Q (s, .ok ()) w)
    (hc : ∀ x xs s w, K (x :: xs) w →
      Throughout S C (f s x) w fun a w' => (a.2 = .ok () → K xs w') ∧ ∀ e, a.2 = .error e → Q a w')
    {xs : List α} {s : σ} {w : W} (hw : K xs w) : Throughout S C (forEach f s xs) w Q := by
  induction xs generalizing s w with
  | nil => exact hn s w hw
  | cons x xs ih =>
    refine (hc x xs s w hw).bind ?_
    rintro ⟨s', e | ⟨⟩⟩ w' ⟨hok, he⟩
    · exact he e rfl
    · exact ih (hok rfl)

theorem Throughout.ends {w w' : W} {a : α} (h : Throughout S C p w Q) (he : Ends S p w a w') : Q a w' := by
  induction p generalizing w with
  | pure b =>
    obtain ⟨rfl, rfl⟩ := ends_pure.1 he
    exact h
  | call r k ih =>
    obtain ⟨c, hc⟩ := ends_call.1 he
    exact ih _ (h.2 c) hc

/-- Where a program stops, the condition of the request it was at holds, or it is at its end. -/
theorem Throughout.stops {w w' : W} {r : Option I.Req} (h : Throughout S C p w Q)
    (hs : Stops S p w r w') : (∃ r', r = some r' ∧ C r' w') ∨ r = none ∧ ∃ a, Q a w' := by
  obtain ⟨cs, hcs⟩ := hs
  induction p generalizing w cs with
  | pure a =>
    cases cs with
    | nil =>
      cases hcs
      exact .inr ⟨rfl, a, h⟩
    | cons c cs => cases hcs
  | call r' k ih =>
    cases cs with
    | nil =>
      cases hcs
      exact .inl ⟨r', rfl, h.1⟩
    | cons c cs => exact ih _ (h.2 c) cs hcs

end Calls
