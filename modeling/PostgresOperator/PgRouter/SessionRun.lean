import PostgresOperator.PgRouter.Target

/-!
# Runs of a session

What holds of a session at every moment of a run, and the rule by which a law about single steps becomes one about
runs. The messages and surroundings at the end serve for runs on fixed inputs.
-/

namespace PostgresOperator

open Go Calls List Option

variable {P : Peer} {cfg : RouterConfig} {s s' : Session} {m : PgMessage} {w w' : Network P}

/-! ### Statements of a session -/

/-- Every registered statement was read from its Parse, with a column that the provider returned. -/
def Session.Registered (s : Session) (w : Network P) : Prop :=
  ∀ name st, s.stmts name = some st → parseSQL st.parseMsg = some st.sql ∧ parseStmtName st.parseMsg = name ∧
    ∃ r ∈ w.observed, st.paramIdx = (extractParamRef st.sql (columnOf r)).getD 0

theorem Session.Registered.congr (hs : s.Registered w)
    (hm : ∀ name st, s'.stmts name = some st → s.stmts name = some st)
    (hobs : ∃ rs, w'.observed = rs ++ w.observed) : s'.Registered w' := by
  intro name st hst
  obtain ⟨hp, hn, r, hr, hx⟩ := hs name st (hm name st hst)
  obtain ⟨rs, hrs⟩ := hobs
  refine ⟨hp, hn, r, ?_, hx⟩
  rw [hrs]
  exact mem_append_right _ hr

variable {addr : Str} {conn : Conn}

theorem Obtains.stmts_eq (h : Obtains s addr w conn s' w') : s'.stmts = s.stmts := by
  rcases h with ⟨-, rfl, -⟩ | ⟨-, -, rfl, -⟩
  · rfl
  · rfl

variable {d : RouteDecision} {e : Option RouterError}

theorem Decided.observed {decide : Topology → RouteDecision × Option RouteError} (h : Decided decide w d e w') :
    ∃ r, w'.observed = r :: w.observed := by
  rcases h with ⟨topo, -, -, rfl⟩ | ⟨txt, -, -, rfl⟩
  · exact ⟨_, rfl⟩
  · exact ⟨_, rfl⟩

theorem Decided.written_eq {decide : Topology → RouteDecision × Option RouteError} (h : Decided decide w d e w') :
    w'.written = w.written := by
  rcases h with ⟨topo, -, -, rfl⟩ | ⟨txt, -, -, rfl⟩
  · rfl
  · rfl

theorem BindDecided.observed {st : Pstmt} {bind : PgMessage}
    (h : BindDecided cfg st bind w d e w') : ∃ r, w'.observed = r :: w.observed := by
  rcases h with ⟨-, ps, key, -, -, hd⟩ | ⟨-, hd⟩
  · exact hd.observed
  · exact hd.observed

theorem BindDecided.written_eq {st : Pstmt} {bind : PgMessage} (h : BindDecided cfg st bind w d e w') :
    w'.written = w.written := by
  rcases h with ⟨-, ps, key, -, -, hd⟩ | ⟨-, hd⟩
  · exact hd.written_eq
  · exact hd.written_eq

theorem GotBackend.observed_eq (h : GotBackend s addr w conn s' w') : w'.observed = w.observed := by
  cases h with
  | pinned => rfl
  | plain hpin hin hc => exact hc.written_eq.2
  | pinnedNow hpin hin hc hb => rw [hb.observed_eq, hc.written_eq.2]

theorem GotBackend.stmts_eq (h : GotBackend s addr w conn s' w') : s'.stmts = s.stmts := by
  cases h with
  | pinned => rfl
  | plain hpin hin hc => exact hc.stmts_eq
  | pinnedNow hpin hin hc hb => exact hc.stmts_eq

variable {o : Option Session}

theorem QueryOutcome.registered {sql : Str} (hs : s.Registered w)
    (h : QueryOutcome cfg s m sql w o w') (ho : o = some s') : s'.Registered w' := by
  cases h with
  | pinned hpin hfwd =>
    obtain ⟨-, rfl⟩ := alive_eq_some ho
    refine hs.congr ?_ ⟨[], hfwd.observed_eq⟩
    intro name st hst
    unfold Session.afterPinned at hst
    split at hst
    · exact hst
    · exact hst
  | began hpin hin hkw hms hsd =>
    obtain ⟨-, rfl⟩ := alive_eq_some ho
    exact hs.congr (fun _ _ h => h) ⟨[], hsd.observed⟩
  | refused hpin hkw hd hsd =>
    cases ho
    obtain ⟨r, hr⟩ := hd.observed
    exact hs.congr (fun _ _ h => h) ⟨[r], hsd.observed.trans hr⟩
  | scattered hpin hin hkw hrd hd hsc hsca =>
    cases ho
    obtain ⟨r, hr⟩ := hd.observed
    obtain ⟨rs, hrs⟩ := hsca.observed
    exact hs.congr (fun _ _ h => h) ⟨rs ++ [r], by rw [hrs, hr]; simp⟩
  | unreachable => cases ho
  | routed hpin hin hkw hd hc hfwd =>
    obtain ⟨-, rfl⟩ := alive_eq_some ho
    obtain ⟨r, hr⟩ := hd.observed
    refine hs.congr (fun _ _ h => by rwa [hc.stmts_eq] at h) ⟨[r], ?_⟩
    rw [hfwd.observed_eq, hc.written_eq.2, hr]
    rfl
  | pinFailed => cases ho
  | pinnedNow hpin hin hd hc hb hfwd =>
    obtain ⟨-, rfl⟩ := alive_eq_some ho
    obtain ⟨r, hr⟩ := hd.observed
    refine hs.congr (fun _ _ h => ?_) ⟨[r], ?_⟩
    · rw [← hc.stmts_eq]
      exact h
    · rw [hfwd.observed_eq, hb.observed_eq, hc.written_eq.2, hr]
      rfl

variable {batch : List PgMessage}

theorem BatchOutcome.registered (hs : s.Registered w)
    (h : BatchOutcome cfg s batch w o w') (ho : o = some s') : s'.Registered w' := by
  cases h with
  | refused hb hw hsd =>
    obtain ⟨-, rfl⟩ := alive_eq_some ho
    obtain ⟨rs, hrs⟩ := hw.watches.observed
    exact hs.congr (fun _ _ h => h) ⟨rs, hsd.observed.trans hrs⟩
  | lost => cases ho
  | executed hb hst hdc hgot hfwd =>
    obtain ⟨-, rfl⟩ := alive_eq_some ho
    obtain ⟨r, hr⟩ := hdc.observed
    refine hs.congr (fun _ _ h => ?_) ⟨[r], by rw [hfwd.observed_eq, hgot.observed_eq, hr]; rfl⟩
    rw [← hgot.stmts_eq]
    exact h
  | describeRefused hb hd hpin hw hsd =>
    obtain ⟨-, rfl⟩ := alive_eq_some ho
    obtain ⟨rs, hrs⟩ := hw.watches.observed
    exact hs.congr (fun _ _ h => h) ⟨rs, hsd.observed.trans hrs⟩
  | described hb hd hgot hfwd =>
    obtain ⟨-, rfl⟩ := alive_eq_some ho
    rcases hgot with ⟨-, rfl, rfl⟩ | ⟨-, topo, shard, addr, -, -, hc⟩
    · exact hs.congr (fun _ _ h => h) ⟨[], hfwd.observed_eq⟩
    · refine hs.congr (fun _ _ h => ?_) ⟨[.ok topo], by rw [hfwd.observed_eq, hc.written_eq.2]; rfl⟩
      rw [← hc.stmts_eq]
      exact h
  | acked hb hd hms hsd =>
    obtain ⟨-, rfl⟩ := alive_eq_some ho
    obtain ⟨stmts, heq, hm⟩ := foldl_handleClose s (batch.filter fun m => m.type = 'C')
    rw [heq]
    exact hs.congr hm ⟨[], hsd.observed⟩

theorem AfterRegister.registered (h : AfterRegister s batch w s' w') (hs : s.Registered w) : s'.Registered w' := by
  intro name st hst
  rcases h.stmts name st hst with hold | ⟨-, hp, hn, -, ho⟩
  · obtain ⟨rs, hrs⟩ := h.watches.observed
    obtain ⟨hp, hn, r, hr, hx⟩ := hs name st hold
    refine ⟨hp, hn, r, ?_, hx⟩
    rw [hrs]
    exact mem_append_right _ hr
  · exact ⟨hp, hn, ho⟩

/-- Statements are registered from a Parse only, with a column that was observed before. -/
theorem MessageOutcome.registered (hs : s.Registered w) (h : MessageOutcome cfg s m w o w')
    (ho : o = some s') : s'.Registered w' := by
  cases h with
  | query hl h => exact h.registered hs ho
  | buffered =>
    cases ho
    exact hs
  | batch hsy hreg h => exact h.registered (hreg.after.registered hs) ho
  | ended => cases ho

theorem registered_init : Session.Registered {} ({} : Network P) := by
  intro name st h
  cases h

/-! ### Runs -/

def Session.Buffers (s : Session) : Prop := ∀ x ∈ s.extBuf, x.type ∈ extendedTypes

theorem Obtains.pin_eq (h : Obtains s addr w conn s' w') : s'.pin = s.pin := by
  rcases h with ⟨-, rfl, -⟩ | ⟨-, -, rfl, -⟩
  · rfl
  · rfl

theorem Obtains.extBuf_eq (h : Obtains s addr w conn s' w') : s'.extBuf = s.extBuf := by
  rcases h with ⟨-, rfl, -⟩ | ⟨-, -, rfl, -⟩
  · rfl
  · rfl

theorem QueryOutcome.extBuf_eq {sql : Str} (h : QueryOutcome cfg s m sql w o w')
    (ho : o = some s') : s'.extBuf = s.extBuf := by
  cases h with
  | pinned =>
    obtain ⟨-, rfl⟩ := alive_eq_some ho
    unfold Session.afterPinned
    split
    · rfl
    · rfl
  | began =>
    obtain ⟨-, rfl⟩ := alive_eq_some ho
    rfl
  | refused | scattered =>
    cases ho
    rfl
  | unreachable | pinFailed => cases ho
  | routed _ _ _ _ hc | pinnedNow _ _ _ hc =>
    obtain ⟨-, rfl⟩ := alive_eq_some ho
    exact hc.extBuf_eq

theorem BatchOutcome.extBuf_eq (h : BatchOutcome cfg s batch w o w') (ho : o = some s') : s'.extBuf = s.extBuf := by
  cases h with
  | refused | describeRefused =>
    obtain ⟨-, rfl⟩ := alive_eq_some ho
    rfl
  | lost => cases ho
  | executed _ _ _ hgot =>
    obtain ⟨-, rfl⟩ := alive_eq_some ho
    cases hgot with
    | pinned => rfl
    | plain _ _ hc | pinnedNow _ _ hc => exact hc.extBuf_eq
  | described _ _ hgot =>
    obtain ⟨-, rfl⟩ := alive_eq_some ho
    rcases hgot with ⟨-, rfl, -⟩ | ⟨-, _, _, _, -, -, hc⟩
    · rfl
    · exact hc.extBuf_eq
  | acked =>
    obtain ⟨-, rfl⟩ := alive_eq_some ho
    obtain ⟨stmts, heq, -⟩ := foldl_handleClose s (batch.filter fun m => m.type = 'C')
    rw [heq]

theorem MessageOutcome.buffers (hs : s.Buffers) (h : MessageOutcome cfg s m w o w') (ho : o = some s') :
    s'.Buffers := by
  cases h with
  | query hl h =>
    intro x hx
    rw [h.extBuf_eq ho] at hx
    exact hs x hx
  | buffered he =>
    cases ho
    intro x hx
    rcases mem_append.1 hx with hx | hx
    · exact hs x hx
    · rw [mem_singleton.1 hx]
      exact he
  | batch hsy hreg h =>
    intro x hx
    rw [h.extBuf_eq ho, hreg.after.extBuf] at hx
    cases hx
  | ended => cases ho

structure Session.Sound (s : Session) (w : Network P) : Prop where
  pooled : s.Pooled w
  registered : s.Registered w
  buffers : s.Buffers

theorem sound_init : Session.Sound {} ({} : Network P) := ⟨pooled_init, registered_init, by simp [Session.Buffers]⟩

/-- The invariant of the session, kept by every message. -/
theorem MessageOutcome.sound (hs : s.Sound w) (h : MessageOutcome cfg s m w o w') (ho : o = some s') : s'.Sound w' :=
  ⟨h.pooled hs.pooled ho, h.registered hs.registered ho, h.buffers hs.buffers ho⟩

variable (P cfg) in
def IsSessionRun (h : Served Session PgMessage (Network P)) : Prop :=
  (serveMessage cfg).IsRun (routerService P) {} {} h

/-- The run rule: an invariant that the outcomes keep may be used to show what each step does. -/
theorem IsSessionRun.steps
    {φ ψ : Served Session PgMessage (Network P) → PgMessage → Option Session × Network P → Prop}
    (inv : Served Session PgMessage (Network P) → Session → Prop) (hini : inv (.start (some {}, {})) {})
    (hste : ∀ h s m x, s.Sound h.world.2 → inv h s → MessageOutcome cfg s m h.world.2 x.1 x.2 → h.world.1 = some s →
      φ h m x → ψ h m x ∧ ∀ s', x.1 = some s' → inv (h.step m x) s')
    {h : Served Session PgMessage (Network P)} (hr : IsSessionRun P cfg h) (hφ : h.Steps φ) : h.Steps ψ := by
  refine (Server.IsRun.steps (fun h s => s.Sound h.world.2 ∧ inv h s) ⟨sound_init, hini⟩ ?_ hr hφ).1
  rintro h s m x hs ⟨hsn, hv⟩ he hφ
  have ht := ends_serveMessage he
  obtain ⟨hψ, hv'⟩ := hste h s m x hsn hv ht hs hφ
  exact ⟨hψ, fun s' ho => ⟨ht.sound hsn ho, hv' s' ho⟩⟩

/-- The run rule for properties of a single step. -/
theorem IsSessionRun.always {φ ψ : StepProp Session PgMessage (Network P)}
    (hste : ∀ s w m o w', s.Sound w → MessageOutcome cfg s m w o w' → φ s w m o w' → ψ s w m o w')
    {h : Served Session PgMessage (Network P)} (hr : IsSessionRun P cfg h) (hφ : h.Always φ) : h.Always ψ := by
  refine (Server.IsRun.always Session.Sound sound_init ?_ hr hφ).1
  intro s w m o w' hs he hφ
  have ht := ends_serveMessage he
  exact ⟨hste s w m o w' hs ht hφ, fun s' ho => ht.sound hs ho⟩

theorem exists_sessionRun {α : Type} {f : Served Session PgMessage (Network P) → α} {y : α}
    (ms : List (PgMessage × List (RouterChoice P)))
    (h : ((serveMessage cfg).replay (routerService P) (.start (some {}, {})) ms).map f = some y) :
    ∃ h, IsSessionRun P cfg h ∧ f h = y := by
  obtain ⟨h', hr, hf⟩ := map_eq_some_iff.1 h
  exact ⟨h', Server.isRun_replay Server.isRun_start hr, hf⟩

/-- A run whose steps pass a check that is enough for `Φ`, and so for `Ψ`. -/
theorem exists_sessionRun_check {α : Type} {f : Served Session PgMessage (Network P) → α} {y : α}
    {Φ Ψ : Served Session PgMessage (Network P) → PgMessage → Option Session × Network P → Prop}
    {check : Served Session PgMessage (Network P) → PgMessage → Option Session × Network P → Bool}
    (hΦ : ∀ {h m x}, check h m x → Φ h m x) (hΨ : ∀ {h}, IsSessionRun P cfg h → h.Steps Φ → h.Steps Ψ)
    (ms : List (PgMessage × List (RouterChoice P)))
    (h : ((serveMessage cfg).replay (routerService P) (.start (some {}, {})) ms).map
      (fun h => (decide (h.Steps fun h m x => check h m x), f h)) = some (true, y)) :
    ∃ h, IsSessionRun P cfg h ∧ h.Steps Φ ∧ h.Steps Ψ ∧ f h = y := by
  obtain ⟨h, hr, hf⟩ := exists_sessionRun ms h
  obtain ⟨hs, hy⟩ := Prod.mk.inj hf
  have hp : h.Steps Φ := (of_decide_eq_true hs).mono fun _ _ _ => hΦ
  exact ⟨h, hr, hp, hΨ hr hp, hy⟩

variable (P cfg) in
theorem exists_sessionStep {α : Type} (m : PgMessage) (cs : List (RouterChoice P))
    (f : Option Session × Network P → α)
    (y : α) (h : ((serveMessage cfg {} m).play (routerService P) {} cs).map f = some y) :
    ∃ x, IsSessionRun P cfg (.step (.start (some {}, {})) m x) ∧ f x = y := by
  obtain ⟨x, hp, hf⟩ := map_eq_some_iff.1 h
  exact ⟨x, ⟨rfl, trivial, {}, rfl, cs, hp⟩, hf⟩

/-! ### Routed batches -/

def Session.heldBegin (s : Session) : List PgMessage := if s.inTx ∧ s.pin = none then [s.pendingBegin] else []

def RouterConfig.bindDecision (cfg : RouterConfig) (st : Pstmt) (bind : PgMessage) (topo : Topology) :
    Option (RouteDecision × Option RouteError) :=
  if 0 < st.paramIdx then
    ((bindParams bind).bind fun ps => ps[st.paramIdx - 1]?.join).map fun key =>
      cfg.keyDecision topo key (isReadOnlyQuery st.sql)
  else some ((cfg.router topo).route st.sql)

/-- Once the Parses of its batch are registered the statement of the Bind is known, and `d` is the decision for it on
the topology that the provider returns. -/
def BindRoutes (cfg : RouterConfig) (s : Session) (m bind : PgMessage) (w w' : Network P) (d : RouteDecision) :
    Prop :=
  ∃ s₁ w₁ st topo, Registers { s with extBuf := [] } (s.extBuf ++ [m]) w s₁ w₁ ∧
    s₁.stmts (bindStmtName bind) = some st ∧ w'.observed = .ok topo :: w₁.observed ∧
    cfg.bindDecision st bind topo = some (d, none)

theorem BindDecided.decision {st : Pstmt} {bind : PgMessage}
    (h : BindDecided cfg st bind w d e w') : (∃ txt, e = some (.provider txt) ∧ w' = w.observe (.error txt)) ∨
      ∃ topo x, w' = w.observe (.ok topo) ∧ cfg.bindDecision st bind topo = some x ∧ d = x.1 ∧
        e = x.2.map .route := by
  unfold RouterConfig.bindDecision
  rcases h with ⟨hx, ps, key, hps, hkey, hd⟩ | ⟨hx, hd⟩
  · rcases hd with ⟨topo, hd, he, rfl⟩ | ⟨txt, he, -, rfl⟩
    · exact .inr ⟨topo, _, rfl, by rw [if_pos hx, hps, bind_some, hkey]; rfl, hd, he⟩
    · exact .inl ⟨txt, he, rfl⟩
  · rcases hd with ⟨topo, hd, he, rfl⟩ | ⟨txt, he, -, rfl⟩
    · exact .inr ⟨topo, _, rfl, by rw [if_neg (by omega)], hd, he⟩
    · exact .inl ⟨txt, he, rfl⟩

/-! ### Fixed runs -/

def queryMessage (sql : String) : PgMessage := ⟨'Q', cstring (str sql)⟩

def parseMessage (name sql : String) : PgMessage := ⟨'P', cstring (str name) ++ cstring (str sql) ++ [0, 0]⟩

def bindMessage (name : String) (params : List String) : PgMessage :=
  ⟨'B', cstring [] ++ cstring (str name) ++ [0, 0, 0, UInt8.ofNat params.length] ++
    params.flatMap (fun p => [0, 0, 0, UInt8.ofNat (str p).length] ++ str p) ++ [0, 0]⟩

def syncMessage : PgMessage := ⟨'S', []⟩

def readyPeer : Peer where
  State := Unit
  Choice := Unit
  init := ()
  receive := fun _ m _ => ((), if m.type = 'Q' ∨ m.type = 'S' then [⟨'Z', ['I']⟩] else [])

def twoTenants (writeBlocked : Bool) : Topology where
  spec :=
    { vindex := { type := .range, column := "tenant_id" }
      ranges := [⟨"a", "a", "shard-0"⟩, ⟨"b", "b", "shard-1"⟩]
      writeBlocked }

def primaries : RouterConfig where
  write := fun shard => .ok ("primary/" ++ shard)

def primariesAndReplicas : RouterConfig where
  write := fun shard => .ok ("primary/" ++ shard)
  read := some fun shard => .ok ("replica/" ++ shard)

def answersWith (c : P.Choice) (topo : Topology) (n : Nat) : List (RouterChoice P) :=
  replicate n { topology := some topo, peer := some c }

def answers (topo : Topology) (n : Nat) : List (RouterChoice readyPeer) := answersWith () topo n

def selectA : PgMessage := queryMessage "SELECT v FROM orders WHERE tenant_id = 'a'"

def selectAll : PgMessage := queryMessage "SELECT v FROM orders"

def updateA : PgMessage := queryMessage "UPDATE orders SET v = 1 WHERE tenant_id = 'a'"

def updateB : PgMessage := queryMessage "UPDATE orders SET v = 1 WHERE tenant_id = 'b'"

end PostgresOperator
