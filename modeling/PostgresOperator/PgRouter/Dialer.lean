import Mathlib.Logic.Function.Basic

/-!
# The circuit breaker of a backend

`backendDialer` of `cmd/pg-router/dialer.go` for one address, with any number of goroutines in `Dial`.  A breaker that
opened lets one probe through when the cooldown is over, but a failure clears the mark of the probe whoever it comes
from: a second probe may start beside the first one if a call from before the opening fails in between
(`single_probe`).  The mark is never left behind (`breaker_never_wedges`).
-/

namespace PostgresOperator

open Function

structure BackendDialer where
  retries : Nat
  failThreshold : Int
  cooldown : Nat

/-- `openUntil` is `none` for the zero time. -/
structure Breaker where
  failures : Nat := 0
  openUntil : Option Nat := none
  probing : Bool := false
  deriving DecidableEq

def BackendDialer.allow (d : BackendDialer) (now : Nat) (b : Option Breaker) : Bool × Option Breaker :=
  if d.failThreshold ≤ 0 then (true, b)
  else match b with
    | none => (true, b)
    | some b' =>
      match b'.openUntil with
      | none => (true, b)
      | some t =>
        if now < t then (false, b)
        else if b'.probing then (false, b)
        else (true, some { b' with probing := true })

def BackendDialer.onFailure (d : BackendDialer) (now : Nat) (b : Option Breaker) : Option Breaker :=
  if d.failThreshold ≤ 0 then b
  else
    let b := b.getD {}
    some
      { failures := b.failures + 1
        openUntil := if d.failThreshold ≤ b.failures + 1 then some (now + d.cooldown) else b.openUntil
        probing := false }

/-! ### Goroutines -/

/-- Where a goroutine is in `Dial`; the last two are before `onSuccess` and before `onFailure`. -/
inductive DialPhase
  | idle
  | dialing (attempt : Nat)
  | succeeded
  | failed
  deriving DecidableEq

/-- `probes` are the calls in flight that were admitted since the breaker opened. -/
structure DialState (ι : Type) where
  now : Nat
  breaker : Option Breaker := none
  calls : ι → DialPhase := fun _ => .idle
  probes : List ι := []

inductive DialEvent (ι : Type)
  | tick (d : Nat)
  | allow (i : ι)
  | attempt (i : ι) (ok : Bool)
  | finish (i : ι)

def DialState.openUntil {ι : Type} (s : DialState ι) : Option Nat := s.breaker.bind Breaker.openUntil

section Runs

variable {ι : Type} [DecidableEq ι]

def BackendDialer.step (d : BackendDialer) (s : DialState ι) : DialEvent ι → Option (DialState ι)
  | .tick n => some { s with now := s.now + n }
  | .allow i =>
    match s.calls i with
    | .idle =>
      let (ok, b) := d.allow s.now s.breaker
      some { s with
        breaker := b, calls := update s.calls i (if ok then .dialing 0 else .idle)
        probes := if ok && s.openUntil.isSome then i :: s.probes else s.probes }
    | _ => none
  | .attempt i ok =>
    match s.calls i with
    | .dialing n =>
      some { s with
        calls := update s.calls i (if ok then .succeeded else if n < d.retries then .dialing (n + 1) else .failed) }
    | _ => none
  | .finish i =>
    match s.calls i with
    -- `onSuccess` deletes the breaker
    | .succeeded => some { s with breaker := none, calls := update s.calls i .idle, probes := [] }
    | .failed =>
      some { s with
        breaker := d.onFailure s.now s.breaker
        calls := update s.calls i .idle
        probes := s.probes.erase i }
    | _ => none

inductive DialRun (d : BackendDialer) (ok : DialState ι → DialEvent ι → Prop) : DialState ι → Prop
  | start (now : Nat) : DialRun d ok { now }
  | step {s s' : DialState ι} {e : DialEvent ι} (h : DialRun d ok s) (hok : ok s e)
    (hs : d.step s e = some s') : DialRun d ok s'

/-- A call from before the opening does not fail beside a probe. -/
def NoOldFailure (s : DialState ι) (e : DialEvent ι) : Prop :=
  ∀ i, e = .finish i → s.calls i = .failed → i ∈ s.probes ∨ s.probes = []

variable {d : BackendDialer} {s s' : DialState ι} {i : ι}

/-- What an event can do to the breaker. -/
theorem step_cases {e : DialEvent ι} (h : d.step s e = some s') :
    (∃ n, s' = { s with now := s.now + n }) ∨
    (∃ i, s.calls i = .idle ∧ s' = { s with
      breaker := (d.allow s.now s.breaker).2
      calls := update s.calls i (if (d.allow s.now s.breaker).1 then .dialing 0 else .idle)
      probes := if (d.allow s.now s.breaker).1 && s.openUntil.isSome then i :: s.probes else s.probes }) ∨
    (∃ i p, s.calls i ≠ .idle ∧ p ≠ .idle ∧ s' = { s with calls := update s.calls i p }) ∨
    (∃ i, s' = { s with breaker := none, calls := update s.calls i .idle, probes := [] }) ∨
    ∃ i, e = .finish i ∧ s.calls i = .failed ∧ s' =
      { s with
        breaker := d.onFailure s.now s.breaker
        calls := update s.calls i .idle
        probes := s.probes.erase i } := by
  cases e with
  | tick n => exact .inl ⟨n, (Option.some.inj h).symm⟩
  | allow i =>
    simp only [BackendDialer.step] at h
    split at h
    · exact .inr (.inl ⟨i, ‹_›, (Option.some.inj h).symm⟩)
    · cases h
  | attempt i ok =>
    simp only [BackendDialer.step] at h
    split at h
    · rename_i n hn
      refine .inr (.inr (.inl ⟨i, _, by simp [hn], ?_, (Option.some.inj h).symm⟩))
      split
      · simp
      · split <;> simp
    · cases h
  | finish i =>
    simp only [BackendDialer.step] at h
    split at h
    · exact .inr (.inr (.inr (.inl ⟨i, (Option.some.inj h).symm⟩)))
    · exact .inr (.inr (.inr (.inr ⟨i, rfl, ‹_›, (Option.some.inj h).symm⟩)))
    · cases h

omit [DecidableEq ι] in
/-- `allow` lets a call through, or the circuit is open and the time decides. -/
theorem allow_cases (hd : d.failThreshold ≤ 0 → s.breaker = none) :
    s.openUntil = none ∧ d.allow s.now s.breaker = (true, s.breaker) ∨
    ∃ b t, s.breaker = some b ∧ s.openUntil = some t ∧
      ((s.now < t ∨ b.probing) ∧ d.allow s.now s.breaker = (false, s.breaker) ∨
        t ≤ s.now ∧ b.probing = false ∧ d.allow s.now s.breaker = (true, some { b with probing := true })) := by
  unfold DialState.openUntil BackendDialer.allow
  by_cases hth : d.failThreshold ≤ 0
  · simp [hd hth, hth]
  · cases hb : s.breaker with
    | none => simp [hth]
    | some b =>
      cases ht : b.openUntil with
      | none => simp [hth, ht]
      | some t =>
        right
        refine ⟨b, t, rfl, ht, ?_⟩
        by_cases hn : s.now < t
        · simp [hth, ht, hn]
        · cases hp : b.probing <;> simp [hth, ht, hn, hp, Nat.not_lt.1 hn]

variable {ok : DialState ι → DialEvent ι → Prop}

theorem DialRun.breaker_of_disabled (h : DialRun d ok s) (hd : d.failThreshold ≤ 0) : s.breaker = none := by
  induction h with
  | start now => rfl
  | step h hok hs ih =>
    obtain ⟨n, rfl⟩ | ⟨i, -, rfl⟩ | ⟨i, p, -, -, rfl⟩ | ⟨i, rfl⟩ | ⟨i, -, -, rfl⟩ := step_cases hs
    · exact ih
    · simp [BackendDialer.allow, hd, ih]
    · exact ih
    · rfl
    · simp [BackendDialer.onFailure, hd, ih]

/-- A breaker that waits for a probe has a call under way. -/
theorem DialRun.inFlight (h : DialRun d ok s) {b : Breaker} (hb : s.breaker = some b) (hp : b.probing) :
    ∃ i, s.calls i ≠ .idle := by
  induction h generalizing b with
  | start now => cases hb
  | @step s s' e h hok hs ih =>
    obtain ⟨n, rfl⟩ | ⟨i, hi, rfl⟩ | ⟨i, p, -, hne, rfl⟩ | ⟨i, rfl⟩ | ⟨i, -, -, rfl⟩ := step_cases hs
    · exact ih hb hp
    · rcases allow_cases h.breaker_of_disabled with ⟨-, ha⟩ | ⟨b', t, -, -, ⟨-, ha⟩ | ⟨-, -, ha⟩⟩
      · exact ⟨i, by simp [ha]⟩
      · -- the call is turned away, and the one that set the mark is still in flight
        rw [ha] at hb
        obtain ⟨j, hj⟩ := ih hb hp
        refine ⟨j, ?_⟩
        have hji : j ≠ i := by
          rintro rfl
          exact hj hi
        simpa [hji] using hj
      · exact ⟨i, by simp [ha]⟩
    · exact ⟨i, by simpa using hne⟩
    · cases hb
    · by_cases hd : d.failThreshold ≤ 0
      · simp [BackendDialer.onFailure, hd, h.breaker_of_disabled hd] at hb
      · simp only [BackendDialer.onFailure, hd, if_false, Option.some.injEq] at hb
        subst hb
        cases hp

/-- If no call is in flight, the next one is let through unless the breaker is open. -/
theorem breaker_never_wedges (d : BackendDialer) (s : DialState ι) (h : DialRun d (fun _ _ => True) s) :
    ((∀ i, s.calls i = .idle) → (∀ t, s.openUntil = some t → t ≤ s.now) → (d.allow s.now s.breaker).1) ∧
      ∀ t, s.openUntil = some t → s.now < t → (d.allow s.now s.breaker).1 = false := by
  rcases allow_cases h.breaker_of_disabled with ⟨hu, ha⟩ | ⟨b, t, hb, hu, ⟨hc, ha⟩ | ⟨hle, -, ha⟩⟩
  · simp [hu, ha]
  · refine ⟨fun hi hn => ?_, by simp [ha]⟩
    rcases hc with hlt | hp
    · exact absurd (hn t hu) (Nat.not_le.2 hlt)
    · obtain ⟨i, hne⟩ := h.inFlight hb hp
      exact absurd (hi i) hne
  · refine ⟨by simp [ha], fun t' ht' hlt => ?_⟩
    rw [hu] at ht'
    cases ht'
    exact absurd hlt (Nat.not_lt.2 hle)

/-- At most one call holds the probe, and the breaker knows of it. -/
theorem DialRun.probes_eq (h : DialRun d NoOldFailure s) :
    s.probes = [] ∨ ∃ i b, s.probes = [i] ∧ s.breaker = some b ∧ b.probing := by
  induction h with
  | start now => exact .inl rfl
  | @step s s' e h hok hs ih =>
    obtain ⟨n, rfl⟩ | ⟨i, -, rfl⟩ | ⟨i, p, -, -, rfl⟩ | ⟨i, rfl⟩ | ⟨i, rfl, hi, rfl⟩ := step_cases hs
    · exact ih
    · rcases allow_cases h.breaker_of_disabled with ⟨hu, ha⟩ | ⟨b, t, hb, hu, ⟨-, ha⟩ | ⟨-, hp, ha⟩⟩
      · simpa [ha, hu] using ih
      · simpa [ha] using ih
      · -- the mark is not set, so there is no other probe
        have hno : s.probes = [] := by
          refine ih.resolve_right ?_
          rintro ⟨j, b', -, hb', hp'⟩
          rw [hb] at hb'
          cases hb'
          rw [hp] at hp'
          cases hp'
        exact .inr ⟨i, _, by simp [ha, hno, hu], by rw [ha], rfl⟩
    · exact ih
    · exact .inl rfl
    · left
      rcases ih with hno | ⟨j, b, hj, -, -⟩
      · simp [hno]
      · have hij : i = j := by simpa [hj] using hok i rfl hi
        simp [hj, hij]

/-- As long as no call from before the opening fails beside a probe, there is at most one probe at a time. -/
theorem single_probe (d : BackendDialer) (s : DialState ι) (h : DialRun d NoOldFailure s) : s.probes.length ≤ 1 := by
  rcases h.probes_eq with hno | ⟨i, b, hi, -, -⟩
  · simp [hno]
  · simp [hi]

end Runs

/-! ### A second probe -/

private def strict : BackendDialer where
  retries := 0
  failThreshold := 1
  cooldown := 1

theorem DialRun.quietly {e : DialEvent Nat} {s s' : DialState Nat} (h : DialRun strict NoOldFailure s)
    (hno : s.probes = []) (hs : strict.step s e = some s') : DialRun strict NoOldFailure s' :=
  h.step (fun _ _ _ => .inr hno) hs

theorem single_probe_demo : ∃ s : DialState Nat, DialRun strict NoOldFailure s ∧ s.probes = [1] ∧
    s.probes.length ≤ 1 := by
  have h0 := (DialRun.start 1).quietly (e := .allow 0) rfl rfl
  have h1 := (h0.quietly (e := .attempt 0 false) rfl rfl).quietly (e := .finish 0) rfl rfl
  have h2 := (h1.quietly (e := .tick 1) rfl rfl).quietly (e := .allow 1) rfl rfl
  exact ⟨_, h2, rfl, single_probe strict _ h2⟩

/-- Calls 0 and 1 are from before the opening; call 1 fails while the probe of call 2 is in flight. -/
theorem two_probes : ∃ s : DialState Nat, DialRun strict (fun _ _ => True) s ∧ s.probes = [3, 2] := by
  have h0 : DialRun strict (fun _ _ => True) ({ now := 1 } : DialState Nat) := .start 1
  have h1 := (h0.step (e := .allow 0) trivial rfl).step (e := .allow 1) trivial rfl
  have h2 := (h1.step (e := .attempt 0 false) trivial rfl).step (e := .finish 0) trivial rfl
  have h3 := (h2.step (e := .tick 1) trivial rfl).step (e := .allow 2) trivial rfl
  have h4 := (h3.step (e := .attempt 1 false) trivial rfl).step (e := .finish 1) trivial rfl
  have h5 := (h4.step (e := .tick 1) trivial rfl).step (e := .allow 3) trivial rfl
  exact ⟨_, h5, rfl⟩

theorem breaker_never_wedges_demo : ∃ s : DialState Unit, DialRun strict (fun _ _ => True) s ∧ s.openUntil = some 2 ∧
    (strict.allow s.now s.breaker).1 := by
  have h0 : DialRun strict (fun _ _ => True) ({ now := 1 } : DialState Unit) := .start 1
  have h1 := (h0.step (e := .allow ()) trivial rfl).step (e := .attempt () false) trivial rfl
  have h2 := (h1.step (e := .finish ()) trivial rfl).step (e := .tick 1) trivial rfl
  refine ⟨_, h2, rfl, (breaker_never_wedges strict _ h2).1 (fun _ => rfl) ?_⟩
  intro t ht
  cases ht
  exact Nat.le_refl 2

end PostgresOperator
