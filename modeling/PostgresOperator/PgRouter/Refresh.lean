import Mathlib.Logic.Function.Basic
import PostgresOperator.Calls.Machine
import PostgresOperator.Router.QueryRouter

/-!
# Hot reload of the topology

`CRDTopologyProvider` of `internal/router/topology.go`, `refreshLoop` and `coalesce` of `cmd/pg-router/main.go` and
`drain` of `watch.go`.  `Refresh` lists outside the lock and stores under it, so that two calls may store in the other
order: the cache never goes back if no list is answered while an older one is still to be stored (`never_older`).  The
notification channel holds one element, and a notification that finds it full is dropped; no change is lost by that
(`change_covered`).
-/

namespace PostgresOperator

open Go Function List Calls Option

/-! ### The topology provider -/

structure CRDTopologyProvider where
  cluster : Str
  keyspace : Str
  clearCacheOnMissing : Bool := false

def CRDTopologyProvider.matching (p : CRDTopologyProvider) (items : List ShardRangeSpec) : Option Topology :=
  (items.find? fun sp => sp.cluster = p.cluster ∧ sp.keyspace = p.keyspace).map fun sp =>
    ⟨sp.cluster, sp.keyspace, sp⟩

/-- Where a goroutine is in `Refresh`: before the answer of the list, or before the lock with what the list
returned. -/
inductive RefreshPhase
  | idle
  | listing
  | listed (version : Nat)
  deriving DecidableEq

/-- `now` is the current version of the `ShardRange`s; `cached` is `none` while nothing is loaded.  The goroutine
`none` is the refresh loop, the others are sessions.  The versions that were stored in the cache and those that
`Current` returned are in `trail`, the last one first. -/
structure ReloadState (ι : Type) where
  now : Nat := 0
  cached : Option (Nat × Topology) := none
  calls : Option ι → RefreshPhase := fun _ => .idle
  trail : List Nat := []

inductive ReloadEvent (ι : Type)
  | change
  | current (i : ι)
  | refresh
  | list (c : Option ι) (ok : Bool)
  | store (c : Option ι)

section Reload

variable {ι : Type} [DecidableEq ι]

/-- `items` are the `ShardRange`s of every version.  A `Current` that has to refresh returns what it stores. -/
def CRDTopologyProvider.step (p : CRDTopologyProvider) (items : Nat → List ShardRangeSpec) (s : ReloadState ι) :
    ReloadEvent ι → Option (ReloadState ι)
  | .change => some { s with now := s.now + 1 }
  | .current i =>
    match s.calls (some i), s.cached with
    | .idle, some t => some { s with trail := t.1 :: s.trail }
    | .idle, none => some { s with calls := update s.calls (some i) .listing }
    | _, _ => none
  | .refresh =>
    match s.calls none with
    | .idle => some { s with calls := update s.calls none .listing }
    | _ => none
  | .list c ok =>
    match s.calls c with
    | .listing => some { s with calls := update s.calls c (if ok then .listed s.now else .idle) }
    | _ => none
  | .store c =>
    match s.calls c with
    | .listed n =>
      let calls := update s.calls c .idle
      match p.matching (items n) with
      | some t => some { s with calls, cached := some (n, t), trail := n :: s.trail }
      | none => some { s with calls, cached := if p.clearCacheOnMissing then none else s.cached }
    | _ => none

/-- No list is answered while an older one is still to be stored. -/
def NoOldList (s : ReloadState ι) (e : ReloadEvent ι) : Prop :=
  ∀ c, e = .list c true → ∀ d n, s.calls d = .listed n → n = s.now

variable {p : CRDTopologyProvider} {items : Nat → List ShardRangeSpec} {s s' : ReloadState ι} {e : ReloadEvent ι}

/-- All lists that are still to be stored are of one version, and nothing newer was stored or returned. -/
structure ReloadInv (s : ReloadState ι) : Prop where
  sorted : s.trail.Pairwise (· ≥ ·)
  le_now : ∀ v ∈ s.trail, v ≤ s.now
  cached : ∀ x, s.cached = some x → x.1 ∈ s.trail ∧ ∀ v ∈ s.trail, v ≤ x.1
  listed : ∀ c n, s.calls c = .listed n → n ≤ s.now ∧ ∀ v ∈ s.trail, v ≤ n
  same : ∀ c d n m, s.calls c = .listed n → s.calls d = .listed m → n = m

theorem listed_of_update {c d : Option ι} {ph : RefreshPhase} {n : Nat} (hph : ∀ n, ph ≠ .listed n)
    (h : update s.calls c ph d = .listed n) : s.calls d = .listed n := by
  by_cases hd : d = c
  · subst hd
    rw [update_self] at h
    exact absurd h (hph n)
  · rwa [update_of_ne hd] at h

theorem ReloadInv.leave (hi : ReloadInv s) (c : Option ι) (ph : RefreshPhase) (hph : ∀ n, ph ≠ .listed n) :
    ReloadInv { s with calls := update s.calls c ph } :=
  ⟨hi.sorted, hi.le_now, hi.cached, fun d n hd => hi.listed d n (listed_of_update hph hd),
    fun d d' n m hd hd' => hi.same d d' n m (listed_of_update hph hd) (listed_of_update hph hd')⟩

/-- The invariant of the cache: no list under way is older than what was served. -/
theorem ReloadInv.step (hi : ReloadInv s) (hok : NoOldList s e) (h : p.step items s e = some s') : ReloadInv s' := by
  cases e with
  | change =>
    cases h
    exact ⟨hi.sorted, fun v hv => Nat.le_succ_of_le (hi.le_now v hv), hi.cached,
      fun c n hc => ⟨Nat.le_succ_of_le (hi.listed c n hc).1, (hi.listed c n hc).2⟩, hi.same⟩
  | current i =>
    simp only [CRDTopologyProvider.step] at h
    split at h
    · rename_i t _ ht
      cases h
      obtain ⟨hm, hle⟩ := hi.cached t ht
      refine ⟨pairwise_cons.2 ⟨hle, hi.sorted⟩, forall_mem_cons.2 ⟨hi.le_now _ hm, hi.le_now⟩, ?_, ?_, hi.same⟩
      · intro x hx
        obtain rfl : t = x := Option.some.inj (ht.symm.trans hx)
        exact ⟨mem_cons_self, forall_mem_cons.2 ⟨Nat.le_refl _, hle⟩⟩
      · intro c n hc
        obtain ⟨hn, hv⟩ := hi.listed c n hc
        exact ⟨hn, forall_mem_cons.2 ⟨hv _ hm, hv⟩⟩
    · cases h
      exact hi.leave _ _ (by simp)
    · cases h
  | refresh =>
    simp only [CRDTopologyProvider.step] at h
    split at h
    · cases h
      exact hi.leave _ _ (by simp)
    · cases h
  | list c ok =>
    simp only [CRDTopologyProvider.step] at h
    split at h
    · cases h
      cases ok with
      | false => exact hi.leave _ _ (by simp)
      | true =>
        -- the lists that are still to be stored are of the version that is listed now
        have hl : ∀ d n, update s.calls c (.listed s.now) d = .listed n → n = s.now := by
          intro d n hd
          by_cases hdc : d = c
          · subst hdc
            rw [update_self] at hd
            exact (RefreshPhase.listed.inj hd).symm
          · rw [update_of_ne hdc] at hd
            exact hok c rfl d n hd
        refine ⟨hi.sorted, hi.le_now, hi.cached, ?_, fun d d' n m hd hd' => (hl d n hd).trans (hl d' m hd').symm⟩
        intro d n hd
        rw [hl d n hd]
        exact ⟨Nat.le_refl _, hi.le_now⟩
    · cases h
  | store c =>
    simp only [CRDTopologyProvider.step] at h
    split at h
    · rename_i n hn
      have ho := hi.leave c .idle (by simp)
      split at h
      · cases h
        obtain ⟨hle, hv⟩ := hi.listed c n hn
        refine ⟨pairwise_cons.2 ⟨hv, hi.sorted⟩, forall_mem_cons.2 ⟨hle, hi.le_now⟩, ?_, ?_, ho.same⟩
        · rintro x hx
          cases hx
          exact ⟨mem_cons_self, forall_mem_cons.2 ⟨Nat.le_refl _, hv⟩⟩
        · intro d m hd
          obtain ⟨hm, hvm⟩ := ho.listed d m hd
          exact ⟨hm, forall_mem_cons.2 ⟨(hi.same c d n m hn (listed_of_update (by simp) hd)).le, hvm⟩⟩
      · cases h
        refine ⟨ho.sorted, ho.le_now, fun x hx => hi.cached x ?_, ho.listed, ho.same⟩
        by_cases hm : p.clearCacheOnMissing
        · simp [hm] at hx
        · simpa [hm] using hx
    · cases h

/-- What is stored and what `Current` returns is never older than what was stored or returned before. -/
theorem never_older (p : CRDTopologyProvider) (items : Nat → List ShardRangeSpec) (s : ReloadState ι)
    (h : Attains (p.step items) NoOldList {} s) : s.trail.Pairwise fun later earlier => earlier ≤ later :=
  (h.invariant (P := ReloadInv) ⟨.nil, by simp, by simp, by simp, by simp⟩ fun hi hok hs => hi.step hok hs).sorted

end Reload

private def demoProvider : CRDTopologyProvider where
  cluster := []
  keyspace := []

private def demoVersions (n : Nat) : List ShardRangeSpec :=
  [{ vindex := { type := .hash }, ranges := [], writeBlocked := n = 1 }]

/-- Session 0 and the loop list the same version and both store it; after a change the loop lists and stores again,
and session 1 sees the new version. -/
theorem never_older_demo : ∃ s : ReloadState Nat, Attains (demoProvider.step demoVersions) NoOldList {} s ∧
    s.trail = [1, 1, 0, 0] ∧ s.trail.Pairwise fun later earlier => earlier ≤ later := by
  have h0 : Attains (demoProvider.step demoVersions) NoOldList ({} : ReloadState Nat) {} := .start
  have h1 := h0.step (e := .current 0) (fun c hc => by cases hc) rfl
  have h2 := h1.step (e := .list (some 0) true) (fun c _ d n hd => by rcases d with _ | _ | i <;> cases hd) rfl
  have h3 := h2.step (e := .refresh) (fun c hc => by cases hc) rfl
  have h4 := h3.step (e := .list none true) (fun c _ d n hd => by rcases d with _ | _ | i <;> cases hd; rfl) rfl
  have h5 := h4.step (e := .store none) (fun c hc => by cases hc) rfl
  have h6 := h5.step (e := .store (some 0)) (fun c hc => by cases hc) rfl
  have h7 := h6.step (e := .change) (fun c hc => by cases hc) rfl
  have h8 := h7.step (e := .refresh) (fun c hc => by cases hc) rfl
  have h9 := h8.step (e := .list none true) (fun c _ d n hd => by rcases d with _ | _ | i <;> cases hd) rfl
  have h10 := h9.step (e := .store none) (fun c hc => by cases hc) rfl
  have h11 := h10.step (e := .current 1) (fun c hc => by cases hc) rfl
  exact ⟨_, h11, rfl, never_older demoProvider demoVersions _ h11⟩

/-- Session 0 lists before the first load, but stores after the loop has stored a later version and session 1 has seen
it; then session 1 is back at the earlier version. -/
theorem older_after_newer : ∃ s : ReloadState Nat, Attains (demoProvider.step demoVersions) (fun _ _ => True) {} s ∧
    s.trail = [0, 0, 1, 1] ∧ ¬ s.trail.Pairwise fun later earlier => earlier ≤ later :=
  ⟨_, Attains.start.play
    [.current 0, .list (some 0) true, .change, .refresh, .list none true, .store none, .current 1,
    .store (some 0), .current 1] rfl, rfl, by decide⟩

/-! ### Notifications -/

/-- Where `drain` is: it waits for an event of its session, or it has a change to notify of that came when so many
refreshes had started.  A session that ends and the next one of the same watch are not told apart. -/
inductive DrainPhase
  | waiting
  | notifying (started : Nat)
  deriving DecidableEq

/-- Where `refreshLoop` is; it has taken a notification while it is in `window`. -/
inductive LoopPhase
  | select
  | window
  | refreshing
  | returned
  deriving DecidableEq

/-- `channel` says whether the notification channel is full.  The changes that came are in `received`, with the watch
and the number of refreshes that had started before. -/
structure WatchState (ι : Type) where
  drains : ι → DrainPhase := fun _ => .waiting
  received : List (ι × Nat) := []
  channel : Bool := false
  loop : LoopPhase := .select
  started : Nat := 0

inductive WatchEvent (ι : Type)
  | receive (i : ι)
  | notify (i : ι)
  | tick
  | take
  | absorb
  | refresh
  | refreshed
  | stop

section Watch

variable {ι : Type} [DecidableEq ι]

def watchStep (debounce : Int) (s : WatchState ι) : WatchEvent ι → Option (WatchState ι)
  | .receive i =>
    match s.drains i with
    | .waiting =>
      some { s with drains := update s.drains i (.notifying s.started), received := (i, s.started) :: s.received }
    | .notifying _ => none
  -- without waiting: the notification is dropped if the channel is full
  | .notify i =>
    match s.drains i with
    | .notifying _ => some { s with drains := update s.drains i .waiting, channel := true }
    | .waiting => none
  | .tick => if s.loop = .select then some { s with loop := .refreshing, started := s.started + 1 } else none
  | .take => if s.loop = .select ∧ s.channel then some { s with loop := .window, channel := false } else none
  | .absorb => if s.loop = .window ∧ 0 < debounce ∧ s.channel then some { s with channel := false } else none
  -- the window is over, or the context is cancelled
  | .refresh => if s.loop = .window then some { s with loop := .refreshing, started := s.started + 1 } else none
  | .refreshed => if s.loop = .refreshing then some { s with loop := .select } else none
  | .stop => if s.loop = .select then some { s with loop := .returned } else none

/-- A refresh has started since, or one is to follow; `drain` may still be about to notify. -/
def WatchState.Covers (s : WatchState ι) (x : ι × Nat) : Prop :=
  x.2 < s.started ∨ s.channel ∨ s.loop = .window ∨ s.drains x.1 = .notifying x.2

/-- A change that was received is covered by a reload that is to come or started after it. -/
theorem covers_step {debounce : Int} {s s' : WatchState ι} {e : WatchEvent ι} (hs : watchStep debounce s e = some s')
    (h : ∀ x ∈ s.received, x.2 ≤ s.started ∧ s.Covers x) : ∀ x ∈ s'.received, x.2 ≤ s'.started ∧ s'.Covers x := by
  cases e with
  | receive i =>
    simp only [watchStep] at hs
    split at hs
    · rename_i hi
      cases hs
      refine forall_mem_cons.2 ⟨⟨Nat.le_refl _, .inr (.inr (.inr (update_self ..)))⟩, fun x hx => ⟨(h x hx).1, ?_⟩⟩
      obtain hc | hc | hc | hc := (h x hx).2
      · exact .inl hc
      · exact .inr (.inl hc)
      · exact .inr (.inr (.inl hc))
      · refine .inr (.inr (.inr ((update_of_ne ?_ ..).trans hc)))
        rintro rfl
        rw [hi] at hc
        cases hc
    · cases hs
  | notify i =>
    simp only [watchStep] at hs
    split at hs
    · cases hs
      exact fun x hx => ⟨(h x hx).1, .inr (.inl rfl)⟩
    · cases hs
  | tick | refresh =>
    obtain ⟨-, ⟨⟩⟩ := ite_none_right_eq_some.1 hs
    exact fun x hx => ⟨Nat.le_succ_of_le (h x hx).1, .inl (Nat.lt_succ_of_le (h x hx).1)⟩
  | take =>
    obtain ⟨-, ⟨⟩⟩ := ite_none_right_eq_some.1 hs
    exact fun x hx => ⟨(h x hx).1, .inr (.inr (.inl rfl))⟩
  | absorb =>
    obtain ⟨⟨hw, -⟩, ⟨⟩⟩ := ite_none_right_eq_some.1 hs
    exact fun x hx => ⟨(h x hx).1, .inr (.inr (.inl hw))⟩
  | refreshed | stop =>
    obtain ⟨hl, ⟨⟩⟩ := ite_none_right_eq_some.1 hs
    refine fun x hx => ⟨(h x hx).1, (h x hx).2.imp_right (.imp_right fun hc => .inr (hc.resolve_left ?_))⟩
    rw [hl]
    decide

/-- No change is lost: a refresh starts after it, or it is still on its way to the loop. -/
theorem change_covered (debounce : Int) (s : WatchState ι) (h : Attains (watchStep debounce) (fun _ _ => True) {} s) :
    ∀ x ∈ s.received, s.Covers x := by
  have hi : ∀ x ∈ s.received, x.2 ≤ s.started ∧ s.Covers x := by
    refine h.invariant (P := fun s => ∀ x ∈ s.received, x.2 ≤ s.started ∧ s.Covers x) (by simp) ?_
    exact fun hi _ hs => covers_step hs hi
  exact fun x hx => (hi x hx).2

end Watch

theorem change_covered_demo : ∃ s : WatchState Nat, Attains (watchStep 1) (fun _ _ => True) {} s ∧
    s.received = [(1, 0), (0, 0)] ∧ s.channel = false ∧ ∀ x ∈ s.received, s.Covers x := by
  have h : Attains (watchStep 1) (fun _ _ => True) ({} : WatchState Nat) _ :=
    Attains.start.play [.receive 0, .receive 1, .notify 0, .notify 1, .take] rfl
  exact ⟨_, h, rfl, rfl, change_covered 1 _ h⟩

/-- Between the receipt of a change and its notification there is nothing in the channel yet. -/
theorem change_in_hand : ∃ s : WatchState Nat, Attains (watchStep 1) (fun _ _ => True) {} s ∧
    ∃ x ∈ s.received, ¬ (x.2 < s.started ∨ s.channel ∨ s.loop = .window) :=
  ⟨_, Attains.start.play [.receive 0] rfl, (0, 0), by simp, by decide⟩

end PostgresOperator
