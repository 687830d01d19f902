import Mathlib.Logic.Function.Basic
import PostgresOperator.Calls.Machine
import PostgresOperator.Reshard.RowConservation

/-!
# Online catch-up

`runCDC` of `cmd/reshard-copy-poc/main.go` in the modes `cdc-setup` and `cdc-finalize`, over the logical replication
of PostgreSQL.  A subscription copies every table and applies the changes of the source in their order; the Jobs wait
for both, drop the subscription and delete the foreign rows.  If the tables of the target are empty at first, and
nothing is written to the source after the drain, no change is lost (`catchup_complete`), but a Job that fails after
the drop is stuck (`failed_finalize_stuck`).  The schema, the publication, indexes and constraints are left out.
-/

namespace PostgresOperator

open Go Function List Calls

inductive CdcPoint
  | createSubscription
  | waitTablesync
  | waitLag
  | drain
  | dropSubscription
  | deleteForeign (tables : List Str)
  | finished
  deriving DecidableEq

/-- The parameters of the Jobs, the rows of the source at first, and what a change does to the rows of its table. -/
structure CdcJob (α δ : Type) where
  spec : ShardRangeSpec
  targetShard : Str
  tables : List Str
  maxLag : Nat
  rows : Str → List (TableRow α)
  change : δ → List (TableRow α) → List (TableRow α)

/-- A subscription: `confirmed_flush_lsn` of its slot, how far it has come, and the tables whose first copy is
complete. -/
structure Subscription where
  confirmed : Nat
  applied : Nat
  copied : List Str

/-- `wal` has the changes of the source with their tables; positions count them. -/
structure CdcState (α δ : Type) where
  wal : List (Str × δ) := []
  sub : Option Subscription := none
  target : Str → List (TableRow α)
  point : CdcPoint := .createSubscription

/-- A Job that fails exits, and starts again from its first request or never.  A request with a lost answer is one
that is carried out, and a failure after it. -/
inductive CdcEvent (α δ : Type)
  | write (table : Str) (d : δ)
  | copy (table : Str)
  | apply
  | confirm (lsn : Nat)
  | request
  | fail (target : Str → List (TableRow α))

section Cdc

variable {α δ : Type} (J : CdcJob α δ) (s : CdcState α δ)

/-- The rows of a table of the source after the changes. -/
def CdcJob.contents (wal : List (Str × δ)) (t : Str) : List (TableRow α) :=
  wal.foldl (fun rows c => if c.1 = t then J.change c.2 rows else rows) (J.rows t)

def lagWithin (maxLag : Nat) : Bool := s.sub.any fun u => s.wal.length - u.confirmed ≤ maxLag

def CdcJob.tablesyncPending : Nat := s.sub.elim J.tables.length fun u => J.tables.countP (· ∉ u.copied)

def CdcJob.request : Option (CdcState α δ) :=
  match s.point with
  | .createSubscription =>
    some { s with sub := s.sub.or (some ⟨s.wal.length, s.wal.length, []⟩), point := .waitTablesync }
  | .waitTablesync => some { s with point := if J.tablesyncPending s = 0 then .waitLag else .waitTablesync }
  | .waitLag => some { s with point := if lagWithin s J.maxLag then .drain else .waitLag }
  | .drain => some { s with point := if lagWithin s 0 then .dropSubscription else .drain }
  | .dropSubscription => some { s with sub := none, point := .deleteForeign J.tables }
  | .deleteForeign [] => some { s with point := .finished }
  | .deleteForeign (t :: ts) =>
    match deleteForeignRange J.spec J.targetShard (s.target t) with
    | .ok rows => some { s with target := update s.target t rows, point := .deleteForeign ts }
    | .error _ => some { s with point := .drain }
  | .finished => none

/-- The copy of a table adds to its rows.  A deletion that fails may leave any rows. -/
def CdcJob.step : CdcEvent α δ → Option (CdcState α δ)
  | .write t d => some { s with wal := s.wal ++ [(t, d)] }
  | .copy t => do
    let u ← s.sub
    if t ∈ J.tables ∧ t ∉ u.copied then
      some { s with
        sub := some { u with copied := t :: u.copied }
        target := update s.target t (s.target t ++ J.contents (s.wal.take u.applied) t) }
    else none
  | .apply => do
    let u ← s.sub
    let (t, d) ← s.wal[u.applied]?
    some { s with
      sub := some { u with applied := u.applied + 1 }
      target := if t ∈ u.copied then update s.target t (J.change d (s.target t)) else s.target }
  | .confirm lsn => do
    let u ← s.sub
    if lsn ≤ u.applied then some { s with sub := some { u with confirmed := lsn } } else none
  | .request => J.request s
  | .fail target =>
    match s.point with
    | .createSubscription | .waitTablesync | .waitLag => some { s with point := .createSubscription }
    | .drain | .dropSubscription => some { s with point := .drain }
    | .deleteForeign _ => some { s with target, point := .drain }
    | .finished => none

@[simp] def CdcPoint.drained : CdcPoint → Bool
  | .dropSubscription | .deleteForeign _ | .finished => true
  | _ => false

/-- Nothing is written to the source once the drain is over. -/
def noLateWrite : CdcState α δ → CdcEvent α δ → Bool
  | s, .write _ _ => !s.point.drained
  | _, _ => true

variable {J s} {s' : CdcState α δ} {e : CdcEvent α δ} {u : Subscription}

/-! ### What the steps keep -/

@[simp] def CdcPoint.copying : CdcPoint → Bool
  | .createSubscription | .waitTablesync => true
  | _ => false

structure Subscription.Fits (J : CdcJob α δ) (s : CdcState α δ) (u : Subscription) : Prop where
  confirmed : u.confirmed ≤ u.applied
  applied : u.applied ≤ s.wal.length
  rows : ∀ t ∈ J.tables, s.target t = if t ∈ u.copied then J.contents (s.wal.take u.applied) t else []
  copied : s.point.copying = false → ∀ t ∈ J.tables, t ∈ u.copied
  drained : s.point.drained → s.point = .dropSubscription ∧ u.applied = s.wal.length

def CdcPoint.Alone (J : CdcJob α δ) (s : CdcState α δ) : CdcPoint → Prop
  | .createSubscription => ∀ t ∈ J.tables, s.target t = []
  | .deleteForeign ts => ts.Nodup ∧ ∀ t ∈ J.tables, if t ∈ ts then s.target t = J.contents s.wal t
      else deleteForeignRange J.spec J.targetShard (J.contents s.wal t) = .ok (s.target t)
  | .finished => ∀ t ∈ J.tables, deleteForeignRange J.spec J.targetShard (J.contents s.wal t) = .ok (s.target t)
  | .drain => True
  | _ => False

def CdcInv (J : CdcJob α δ) (s : CdcState α δ) : Prop := s.sub.elim (s.point.Alone J s) (Subscription.Fits J s)

theorem CdcJob.contents_append (J : CdcJob α δ) (wal : List (Str × δ)) (c : Str × δ) (t : Str) :
    J.contents (wal ++ [c]) t = if c.1 = t then J.change c.2 (J.contents wal t) else J.contents wal t := by
  simp [CdcJob.contents]

namespace Subscription.Fits

theorem move (hf : u.Fits J s) {p : CdcPoint} (hc : p.copying = false → s.point.copying = false)
    (hd : p.drained → p = .dropSubscription ∧ u.applied = s.wal.length) : u.Fits J { s with point := p } :=
  ⟨hf.confirmed, hf.applied, hf.rows, fun hp => hf.copied (hc hp), hd⟩

theorem write (hf : u.Fits J s) (hd : s.point.drained = false) (c : Str × δ) :
    u.Fits J { s with wal := s.wal ++ [c] } where
  confirmed := hf.confirmed
  applied := by simpa using Nat.le_succ_of_le hf.applied
  rows t ht := by
    rw [take_append_of_le_length hf.applied]
    exact hf.rows t ht
  copied := hf.copied
  drained h := by
    rw [hd] at h
    cases h

theorem copy (hf : u.Fits J s) {t : Str} (ht : t ∈ J.tables) (hc : t ∉ u.copied) {target : Str → List (TableRow α)}
    (htg : target = update s.target t (s.target t ++ J.contents (s.wal.take u.applied) t)) :
    Fits J { s with sub := some { u with copied := t :: u.copied }, target } { u with copied := t :: u.copied } where
  confirmed := hf.confirmed
  applied := hf.applied
  rows v hv := by
    have hr := hf.rows v hv
    by_cases hvt : v = t
    · subst hvt
      simp [htg, hr, hc]
    · simp [htg, hr, hvt]
  copied h v hv := mem_cons_of_mem _ (hf.copied h v hv)
  drained := hf.drained

theorem apply (hf : u.Fits J s) {t : Str} {d : δ} (hw : s.wal[u.applied]? = some (t, d))
    {target : Str → List (TableRow α)}
    (htg : target = if t ∈ u.copied then update s.target t (J.change d (s.target t)) else s.target) :
    Fits J { s with sub := some { u with applied := u.applied + 1 }, target }
      { u with applied := u.applied + 1 } where
  confirmed := Nat.le_succ_of_le hf.confirmed
  applied := (List.getElem?_eq_some_iff.1 hw).1
  rows v hv := by
    have hr := hf.rows v hv
    have htake : s.wal.take (u.applied + 1) = s.wal.take u.applied ++ [(t, d)] := by
      rw [take_add_one, hw]
      rfl
    by_cases hvt : v = t
    · subst hvt
      by_cases hc : v ∈ u.copied <;> simp [htg, hc, hr, htake, CdcJob.contents_append]
    · have htv : t ≠ v := fun h => hvt h.symm
      by_cases hc : t ∈ u.copied <;> simp [htg, hc, hr, htake, CdcJob.contents_append, hvt, htv]
  copied := hf.copied
  drained h := absurd (hf.drained h).2 (List.getElem?_eq_some_iff.1 hw).1.ne

end Subscription.Fits

theorem CdcInv.fits (hi : CdcInv J s) (hs : s.sub = some u) : u.Fits J s := by
  rwa [CdcInv, hs] at hi

theorem CdcInv.request (hi : CdcInv J s) (hn : J.tables.Nodup) (h : J.request s = some s') : CdcInv J s' := by
  obtain ⟨wal, sub, target, point⟩ := s
  cases sub with
  | none =>
    replace hi : point.Alone J ⟨wal, none, target, point⟩ := hi
    cases point with
    | createSubscription =>
      cases h
      exact ⟨Nat.le_refl _, Nat.le_refl _, fun t ht => hi t ht, by simp, by simp⟩
    | drain =>
      cases h
      trivial
    | deleteForeign ts =>
      obtain ⟨hnd, hr⟩ := hi
      cases ts with
      | nil =>
        cases h
        exact fun t ht => by simpa using hr t ht
      | cons t ts =>
        simp only [CdcJob.request] at h
        split at h <;> cases h
        · rename_i rows hd
          refine ⟨(nodup_cons.1 hnd).2, fun v hv => ?_⟩
          have hrv := hr v hv
          by_cases hvt : v = t
          · subst hvt
            rw [if_pos mem_cons_self] at hrv
            rw [if_neg (nodup_cons.1 hnd).1, ← hrv]
            simpa using hd
          · simpa [hvt] using hrv
        · trivial
    | finished => cases h
    | _ => exact hi.elim
  | some u =>
    have hf : u.Fits J ⟨wal, some u, target, point⟩ := hi
    cases point with
    | createSubscription =>
      cases h
      exact hf.move (by simp) (by simp)
    | waitTablesync =>
      cases h
      split
      · rename_i hc
        exact ⟨hf.confirmed, hf.applied, hf.rows, fun _ => by simpa [CdcJob.tablesyncPending] using hc, by simp⟩
      · exact hf
    | waitLag =>
      cases h
      split <;> exact hf.move (by simp) (by simp)
    | drain =>
      cases h
      split
      · rename_i hl
        have hle : wal.length - u.confirmed ≤ 0 := by simpa [lagWithin] using hl
        have hc := hf.confirmed
        have ha : u.applied ≤ wal.length := hf.applied
        exact hf.move (by simp) fun _ => ⟨rfl, show u.applied = wal.length by omega⟩
      · exact hf
    | dropSubscription =>
      cases h
      refine ⟨hn, fun t ht => ?_⟩
      have hr := hf.rows t ht
      rw [if_pos (hf.copied rfl t ht), (hf.drained rfl).2, take_length] at hr
      simpa [ht] using hr
    | deleteForeign | finished => cases (hf.drained rfl).1

/-- Every event keeps the target's tables equal to the applied part of the log, as long as no write comes late. -/
theorem CdcInv.step (hi : CdcInv J s) (hn : J.tables.Nodup) (hok : noLateWrite s e) (h : J.step s e = some s') :
    CdcInv J s' := by
  cases e with
  | copy t =>
    obtain ⟨u, hs, h⟩ := Option.bind_eq_some_iff.1 h
    split at h <;> cases h
    rename_i ht
    exact (hi.fits hs).copy ht.1 ht.2 rfl
  | apply =>
    obtain ⟨u, hs, h⟩ := Option.bind_eq_some_iff.1 h
    obtain ⟨⟨t, d⟩, hw, h⟩ := Option.bind_eq_some_iff.1 h
    cases h
    exact (hi.fits hs).apply hw rfl
  | confirm lsn =>
    obtain ⟨u, hs, h⟩ := Option.bind_eq_some_iff.1 h
    split at h <;> cases h
    rename_i hle
    have hf := hi.fits hs
    exact ⟨hle, hf.applied, hf.rows, hf.copied, hf.drained⟩
  | request => exact hi.request hn h
  | write t d =>
    cases h
    obtain ⟨wal, _ | u, target, point⟩ := s
    · cases point with
      | deleteForeign | finished => cases hok
      | _ => exact hi
    · exact (hi.fits rfl).write (by simpa [noLateWrite] using hok) _
  | fail rows =>
    obtain ⟨wal, _ | u, target, point⟩ := s
    · cases point <;> cases h <;> first | exact hi | trivial
    · have hf := hi.fits rfl
      cases point with
      | deleteForeign | finished => cases (hf.drained rfl).1
      | _ =>
        cases h
        exact hf.move (by simp) (by simp)

/-- The run lemma of the subscription. -/
theorem CdcInv.of_attains (hn : J.tables.Nodup) {target : Str → List (TableRow α)}
    (he : ∀ t ∈ J.tables, target t = [])
    (h : Attains J.step (noLateWrite · ·) { target } s) : CdcInv J s :=
  h.invariant (P := CdcInv J) he fun hi hok hs => hi.step hn hok hs

theorem CdcInv.sub_eq_none (hi : CdcInv J s) (hd : s.point.drained) (hp : s.point ≠ .dropSubscription) :
    s.sub = none := by
  cases hs : s.sub with
  | none => rfl
  | some u => exact absurd ((hi.fits hs).drained hd).1 hp

/-- When `cdc-finalize` is done, every table of the target has the rows of the source that its shard is to have. -/
theorem catchup_complete (J : CdcJob α δ) (hn : J.tables.Nodup) (target : Str → List (TableRow α))
    (he : ∀ t ∈ J.tables, target t = []) (s : CdcState α δ) (h : Attains J.step (noLateWrite · ·) { target } s)
    (hf : s.point = .finished) :
    ∀ t ∈ J.tables, deleteForeignRange J.spec J.targetShard (J.contents s.wal t) = .ok (s.target t) := by
  have hi := CdcInv.of_attains hn he h
  have hs := hi.sub_eq_none (by simp [hf]) (by simp [hf])
  rwa [CdcInv, hs, hf] at hi

/-- Without a subscription the drain waits forever. -/
theorem CdcJob.step_stuck (hs : s.sub = none) (hp : s.point = .drain) (h : J.step s e = some s') :
    s'.sub = none ∧ s'.point = .drain ∧ s'.target = s.target := by
  obtain ⟨wal, sub, target, point⟩ := s
  subst hs hp
  cases e <;> cases h <;> exact ⟨rfl, rfl, rfl⟩

/-- A `cdc-finalize` Job that fails when its subscription is dropped does not get beyond the drain again: there is no
slot whose lag could be read.  The target stays as it is. -/
theorem failed_finalize_stuck (J : CdcJob α δ) (hn : J.tables.Nodup) (target : Str → List (TableRow α))
    (he : ∀ t ∈ J.tables, target t = []) (s : CdcState α δ) (h : Attains J.step (noLateWrite · ·) { target } s)
    {ts : List Str}
    (hp : s.point = .deleteForeign ts) {rows : Str → List (TableRow α)} {s₁ : CdcState α δ}
    (hf : J.step s (.fail rows) = some s₁)
    (s₂ : CdcState α δ) (h₂ : Attains J.step (fun _ _ => True) s₁ s₂) : s₂.point = .drain ∧ s₂.target = rows := by
  have hs := (CdcInv.of_attains hn he h).sub_eq_none (by simp [hp]) (by simp [hp])
  obtain ⟨wal, sub, target, point⟩ := s
  subst hs hp
  cases hf
  have hi := h₂.invariant (P := fun s => s.sub = none ∧ s.point = .drain ∧ s.target = rows)
    ⟨rfl, rfl, rfl⟩ fun hi _ h => by
    obtain ⟨hs, hp, ht⟩ := CdcJob.step_stuck hi.1 hi.2.1 h
    exact ⟨hs, hp, ht.trans hi.2.2⟩
  exact hi.2

end Cdc

private def ordersCdc : CdcJob Unit Unit where
  spec := { vindex := { type := .range }, ranges := [⟨"a", "m", "t0"⟩, ⟨"n", "z", "t1"⟩] }
  targetShard := "t0"
  tables := ["orders"]
  maxLag := 0
  rows _ := [⟨.text "b", ()⟩, ⟨.text "x", ()⟩]
  change _ rows := ⟨.text "c", ()⟩ :: rows

private def ordersEvents : List (CdcEvent Unit Unit) :=
  [.request, .copy "orders", .request, .write "orders" (), .fail fun _ => [], .request, .apply, .confirm 1, .request,
    .request,
    .request, .request, .request, .request]

private abbrev ordersAfter (n : Nat) : Option (CdcState Unit Unit) :=
  (ordersEvents.take n).foldlM
    (fun s e => if noLateWrite s e then ordersCdc.step s e else none) { target := fun _ => [] }

theorem catchup_complete_orders : ∃ s, Attains ordersCdc.step (noLateWrite · ·) { target := fun _ => [] } s ∧
    s.target "orders" = [⟨.text "c", ()⟩, ⟨.text "b", ()⟩] ∧
    ∀ t ∈ ordersCdc.tables, deleteForeignRange ordersCdc.spec "t0" (ordersCdc.contents s.wal t) =
      .ok (s.target t) := by
  have h : (ordersAfter 14).map (fun s => (s.point, s.target "orders")) =
      some (.finished, [⟨.text "c", ()⟩, ⟨.text "b", ()⟩]) := by
    decide +kernel
  obtain ⟨s, hs, hf⟩ := Option.map_eq_some_iff.1 h
  obtain ⟨hp, ht⟩ := Prod.mk.inj hf
  have ha := Attains.start.playOk _ hs
  exact ⟨s, ha, ht, catchup_complete ordersCdc (by decide) _ (fun _ _ => rfl) s ha hp⟩

theorem failed_finalize_stuck_orders : ∃ s s₁, ordersAfter 12 = some s ∧ ordersCdc.step s (.fail s.target) = some s₁ ∧
    ∀ s₂, Attains ordersCdc.step (fun _ _ => True) s₁ s₂ → s₂.point = .drain ∧ s₂.target = s.target := by
  have h : (ordersAfter 12).map (·.point) = some (.deleteForeign ["orders"]) := by decide +kernel
  obtain ⟨s, hs, hp⟩ := Option.map_eq_some_iff.1 h
  have hf : ordersCdc.step s (.fail s.target) = some { s with point := .drain } := by simp [CdcJob.step, hp]
  exact ⟨s, _, hs, hf,
    failed_finalize_stuck ordersCdc (by decide) _ (fun _ _ => rfl) s (Attains.start.playOk _ hs) hp hf⟩

end PostgresOperator
