import PostgresOperator.PgRouter.Outcome

/-!
# Where messages go

Every message that a session writes to a backend goes to the connection of a pinned transaction, or to the backend of
a routing decision, or it is part of a scatter or a Describe (`Target`).

`MessageOutcome.targets` shows it from the outcomes of a message, and `MessageOutcome.pooled` that the connections of
a session stay those of its pool.
-/

namespace PostgresOperator

open Go Calls Session List Function

variable {P : Peer} {cfg : RouterConfig} {s s' : Session} {m : PgMessage} {w w' : Network P}

/-! ### Writes of a step -/

def Wrote (φ : Write P → Prop) (w w' : Network P) : Prop :=
  ∃ new, w'.written = w.written ++ new ∧ ∀ x ∈ new, φ x

variable {φ : Write P → Prop}

theorem Wrote.mono {ψ : Write P → Prop} (h : Wrote φ w w') (hφ : ∀ x, φ x → ψ x) : Wrote ψ w w' := by
  obtain ⟨new, hw, hn⟩ := h
  exact ⟨new, hw, fun x hx => hφ x (hn x hx)⟩

theorem Wrote.trans {w₁ : Network P} (h : Wrote φ w w₁) (h' : Wrote φ w₁ w') : Wrote φ w w' := by
  obtain ⟨new, hw, hn⟩ := h
  obtain ⟨new', hw', hn'⟩ := h'
  refine ⟨new ++ new', by rw [hw', hw, append_assoc], ?_⟩
  intro x hx
  rcases mem_append.1 hx with hx | hx
  · exact hn x hx
  · exact hn' x hx

theorem wrote_of_eq (h : w'.written = w.written) : Wrote φ w w' :=
  ⟨[], by rw [h, append_nil], by simp⟩

/-- A delivery is one write. -/
theorem wrote_deliver (w : Network P) (c : P.Choice) (conn : Conn) (m : PgMessage) :
    Wrote (fun x => x.conn = conn ∧ x.message = m ∧ x.seen = w.seen) w (w.deliver c conn m) := by
  refine ⟨[_], rfl, ?_⟩
  intro x hx
  rw [mem_singleton] at hx
  subst hx
  exact ⟨rfl, rfl, rfl⟩

theorem Relays.written_eq (h : Relays w w') : w'.written = w.written := by
  obtain ⟨ms, -, hs⟩ := h
  exact hs.written

theorem Relays.states_eq (h : Relays w w') : w'.states = w.states := by
  obtain ⟨ms, -, hs⟩ := h
  exact hs.states

theorem Relays.observed_eq (h : Relays w w') : w'.observed = w.observed := by
  obtain ⟨ms, -, hs⟩ := h
  exact hs.observed

variable {conn : Conn} {b : Bool}

theorem Forwarded.wrote (h : Forwarded w conn m b w') :
    Wrote (fun x => x.conn = conn ∧ x.message = m ∧ x.seen = w.seen) w w' := by
  rcases h with ⟨c, hr⟩ | ⟨-, rfl⟩
  · exact (wrote_deliver w c conn m).trans (wrote_of_eq hr.written_eq)
  · exact wrote_of_eq rfl

theorem Forwarded.observed_eq (h : Forwarded w conn m b w') : w'.observed = w.observed := by
  rcases h with ⟨c, hr⟩ | ⟨-, rfl⟩
  · exact hr.observed_eq
  · rfl

theorem Begins.wrote (h : Begins s conn w w') :
    Wrote (fun x => x.conn = conn ∧ x.message = s.pendingBegin ∧ x.seen = w.seen) w w' := by
  obtain ⟨c, hs⟩ := h
  exact (wrote_deliver w c conn s.pendingBegin).trans (wrote_of_eq hs.written)

theorem Begins.observed_eq (h : Begins s conn w w') : w'.observed = w.observed := by
  obtain ⟨c, hs⟩ := h
  exact hs.observed

variable {ms : List PgMessage}

theorem Delivers.observed_eq (h : Delivers conn ms w w') : w'.observed = w.observed := by
  induction ms generalizing w with
  | nil => rw [show w' = w from h]
  | cons m ms ih =>
    obtain ⟨c, h⟩ := h
    exact (ih h).trans rfl

theorem Delivers.wrote (h : Delivers conn ms w w') :
    Wrote (fun x => x.conn = conn ∧ x.message ∈ ms ∧ x.seen = w.seen) w w' := by
  induction ms generalizing w with
  | nil => exact wrote_of_eq (by rw [show w' = w from h])
  | cons m ms ih =>
    obtain ⟨c, h⟩ := h
    have hf : Wrote (fun x => x.conn = conn ∧ x.message ∈ m :: ms ∧ x.seen = w.seen) w (w.deliver c conn m) :=
      (wrote_deliver w c conn m).mono fun x hx => ⟨hx.1, by simp [hx.2.1], hx.2.2⟩
    refine hf.trans ((ih h).mono ?_)
    rintro x ⟨hc, hm, hs⟩
    exact ⟨hc, mem_cons_of_mem _ hm, hs⟩

theorem ForwardedAll.wrote (h : ForwardedAll w conn ms b w') :
    Wrote (fun x => x.conn = conn ∧ x.message ∈ ms ∧ x.seen = w.seen) w w' := by
  obtain ⟨pre, w₁, hp, hd, hr, -⟩ := h
  refine (hd.wrote.mono ?_).trans (wrote_of_eq hr.written_eq)
  rintro x ⟨hc, hm, hs⟩
  exact ⟨hc, hp.subset hm, hs⟩

theorem ForwardedAll.observed_eq (h : ForwardedAll w conn ms b w') : w'.observed = w.observed := by
  obtain ⟨pre, w₁, hp, hd, hr, -⟩ := h
  rw [hr.observed_eq, hd.observed_eq]

/-! ### Connections -/

def Session.Keyed (s : Session) : Prop := ∀ addr conn, s.backends addr = some conn → conn.addr = addr

variable {addr : Str}

theorem Obtains.addr_eq (h : Obtains s addr w conn s' w') (hs : s.Keyed) : conn.addr = addr := by
  rcases h with ⟨hc, -, -⟩ | ⟨-, rfl, -, -⟩
  · exact hs _ _ hc
  · rfl

theorem Obtains.keyed (h : Obtains s addr w conn s' w') (hs : s.Keyed) : s'.Keyed := by
  rcases h with ⟨-, rfl, -⟩ | ⟨-, rfl, rfl, -⟩
  · exact hs
  · intro a c hc
    by_cases ha : a = addr
    · subst ha
      rw [addBackend_backends, update_self] at hc
      cases hc
      rfl
    · exact hs a c (by rwa [addBackend_backends, update_of_ne ha] at hc)

theorem Obtains.written_eq (h : Obtains s addr w conn s' w') : w'.written = w.written ∧ w'.observed = w.observed := by
  rcases h with ⟨-, -, rfl⟩ | ⟨-, -, -, rfl⟩
  · exact ⟨rfl, rfl⟩
  · exact ⟨rfl, rfl⟩

theorem Obtains.pendingBegin_eq (h : Obtains s addr w conn s' w') : s'.pendingBegin = s.pendingBegin := by
  rcases h with ⟨-, rfl, -⟩ | ⟨-, -, rfl, -⟩
  · rfl
  · rfl

/-! ### Registered statements -/

def sqlsAfter : (Str → Option Str) → List PgMessage → Str → Option Str
  | sqls, [] => sqls
  | sqls, m :: ms =>
    match parseSQL m with
    | none => sqlsAfter sqls ms
    | some sql => sqlsAfter (update sqls (parseStmtName m) (some sql)) ms

def Session.sqls (s : Session) (name : Str) : Option Str := (s.stmts name).map Pstmt.sql

theorem parseSQL_of_type_ne (hm : m.type ≠ 'P') : parseSQL m = none := by
  simp [parseSQL, hm]

theorem Session.sqls_afterParse (s : Session) (m : PgMessage) (r : Except Str Topology) : (s.afterParse m r).sqls =
      match parseSQL m with
      | none => s.sqls
      | some sql => update s.sqls (parseStmtName m) (some sql) := by
  unfold afterParse
  cases parseSQL m with
  | none => rfl
  | some sql =>
    funext name
    dsimp only
    by_cases hn : name = parseStmtName m
    · subst hn
      simp [sqls, register]
    · simp [sqls, register, hn]

def registeredNames (batch : List PgMessage) : List Str :=
  (batch.filter fun m => (parseSQL m).isSome).map parseStmtName

theorem registeredNames_of_none (h : parseSQL m = none) : registeredNames (m :: ms) = registeredNames ms := by
  rw [registeredNames, filter_cons_of_neg (by simp [h])]
  rfl

variable {sql : Str}

theorem registeredNames_of_some (h : parseSQL m = some sql) :
    registeredNames (m :: ms) = parseStmtName m :: registeredNames ms := by
  rw [registeredNames, filter_cons_of_pos (by simp [h])]
  rfl

structure AfterRegister (s : Session) (batch : List PgMessage) (w : Network P) (s' : Session) (w' : Network P) :
    Prop where
  backends : s'.backends = s.backends
  inTx : s'.inTx = s.inTx
  txBackend : s'.txBackend = s.txBackend
  pendingBegin : s'.pendingBegin = s.pendingBegin
  extBuf : s'.extBuf = s.extBuf
  sqls : s'.sqls = sqlsAfter s.sqls batch
  backendStmts : ∀ c name, name ∈ s'.backendStmts c ↔ name ∈ s.backendStmts c ∧ name ∉ registeredNames batch
  watches : Watches w w'
  stmts : ∀ name st, s'.stmts name = some st → s.stmts name = some st ∨
    (st.parseMsg ∈ batch ∧ parseSQL st.parseMsg = some st.sql ∧ parseStmtName st.parseMsg = name ∧ st.name = name ∧
      ∃ r ∈ w'.observed, st.paramIdx = (extractParamRef st.sql (columnOf r)).getD 0)

variable {batch : List PgMessage}

theorem AfterRegister.skip (h : AfterRegister s batch w s' w') (hs : parseSQL m = none) :
    AfterRegister s (m :: batch) w s' w' := by
  refine ⟨h.backends, h.inTx, h.txBackend, h.pendingBegin, h.extBuf, ?_, ?_, h.watches, ?_⟩
  · rw [sqlsAfter, hs]
    exact h.sqls
  · rw [registeredNames_of_none hs]
    exact h.backendStmts
  · intro name st hst
    rcases h.stmts name st hst with hold | ⟨hm, hn⟩
    · exact .inl hold
    · exact .inr ⟨mem_cons_of_mem _ hm, hn⟩

/-- What registering leaves behind, whatever the topologies are. -/
theorem Registers.after (h : Registers s batch w s' w') : AfterRegister s batch w s' w' := by
  induction batch generalizing s w with
  | nil =>
    obtain ⟨rfl, rfl⟩ := h
    exact ⟨rfl, rfl, rfl, rfl, rfl, rfl, by simp [registeredNames], .refl _, fun _ _ h => .inl h⟩
  | cons m ms ih =>
    unfold Registers at h
    split at h
    · obtain ⟨r, h⟩ := h
      have hr := ih h
      cases hl : parseSQL m with
      | none =>
        have hsm : s.afterParse m r = s := by rw [afterParse, hl]
        rw [hsm, if_pos hl] at hr
        exact hr.skip hl
      | some sql =>
        rw [if_neg (by simp [hl])] at hr
        have ha : s.afterParse m r =
            s.register ⟨parseStmtName m, sql, (extractParamRef sql (columnOf r)).getD 0, m⟩ := by
          rw [afterParse, hl]
        have hs := s.sqls_afterParse m r
        rw [hl] at hs
        rw [ha] at hr hs
        refine ⟨hr.backends, hr.inTx, hr.txBackend, hr.pendingBegin, hr.extBuf, ?_, ?_,
          (watches_observe w r).trans hr.watches, ?_⟩
        · rw [sqlsAfter, hl, hr.sqls, hs]
        · intro c name
          rw [hr.backendStmts, register_backendStmts, mem_filter, registeredNames_of_some hl,
            mem_cons, not_or, and_assoc]
          simp
        · intro name st hst
          rcases hr.stmts name st hst with hold | ⟨hm, hw⟩
          · by_cases hn : name = parseStmtName m
            · subst hn
              rw [register_stmts, update_self] at hold
              cases hold
              obtain ⟨rs, hrs⟩ := hr.watches.observed
              refine .inr ⟨by simp, hl, rfl, rfl, r, ?_, rfl⟩
              rw [hrs]
              exact mem_append_right _ (mem_cons_self ..)
            · left
              rwa [register_stmts, update_of_ne hn] at hold
          · exact .inr ⟨mem_cons_of_mem _ hm, hw⟩
    · rename_i hP
      exact (ih h).skip (parseSQL_of_type_ne hP)

theorem AfterRegister.pin_eq (h : AfterRegister s batch w s' w') : s'.pin = s.pin := by
  rw [pin, pin, h.inTx, h.txBackend]

/-! ### Targets -/

def BindRouted (cfg : RouterConfig) (st : Pstmt) (bind : PgMessage) (topo : Topology) (d : RouteDecision) : Prop :=
  (0 < st.paramIdx ∧ ∃ ps key, bindParams bind = some ps ∧ ps[st.paramIdx - 1]? = some (some key) ∧
    cfg.keyDecision topo key (isReadOnlyQuery st.sql) = (d, none)) ∨
    st.paramIdx = 0 ∧ RoutedTo (cfg.router topo) st.sql d

variable {d : RouteDecision}

theorem Decided.eq_none {decide : Topology → RouteDecision × Option RouteError}
    (h : Decided decide w d none w') : ∃ topo, decide topo = (d, none) ∧ w' = w.observe (.ok topo) := by
  rcases h with ⟨topo, rfl, he, rfl⟩ | ⟨txt, he, -⟩
  · exact ⟨topo, Prod.ext rfl (Option.map_eq_none_iff.1 he.symm), rfl⟩
  · cases he

theorem BindDecided.routed {st : Pstmt} {bind : PgMessage} (h : BindDecided cfg st bind w d none w') :
    ∃ topo, BindRouted cfg st bind topo d ∧ w' = w.observe (.ok topo) := by
  rcases h with ⟨hx, ps, key, hps, hkey, hd⟩ | ⟨hx, hd⟩
  · obtain ⟨topo, hc, rfl⟩ := hd.eq_none
    exact ⟨topo, Or.inl ⟨hx, ps, key, hps, hkey, hc⟩, rfl⟩
  · obtain ⟨topo, hc, rfl⟩ := hd.eq_none
    exact ⟨topo, Or.inr ⟨hx, routedTo_of_route hc⟩, rfl⟩

@[simp] theorem seen_observe_ok (w : Network P) (topo : Topology) : (w.observe (.ok topo)).seen = some topo := rfl

theorem seen_eq_of_observed (h : w'.observed = w.observed) : w'.seen = w.seen := by
  rw [Network.seen, Network.seen, h]

/-- The statement under a name: it was registered before, or a Parse of the batch prepared it, read with a column that
the provider returned. -/
def StmtOrigin (s : Session) (w' : Network P) (st : Pstmt) (name : Str) : Prop :=
  s.stmts name = some st ∨ (parseSQL st.parseMsg = some st.sql ∧
    ∃ r ∈ w'.observed, st.paramIdx = (extractParamRef st.sql (columnOf r)).getD 0)

/-- A message that a routed batch writes: one of the batch, the Parse of the statement of the first Bind, a Sync, or a
BEGIN that was held back. -/
def BatchMessage (s : Session) (m : PgMessage) (st : Pstmt) (x : PgMessage) : Prop :=
  x ∈ s.extBuf ++ [m] ∨ x = st.parseMsg ∨ x = ⟨'S', []⟩ ∨ s.pin = none ∧ s.inTx ∧ x = s.pendingBegin

inductive Target (cfg : RouterConfig) (s : Session) (m : PgMessage) (w' : Network P) (x : Write P) : Prop
  | pinnedQuery {sql : Str} (hsql : querySQL m = some sql) (hpin : s.pin = some x.conn) (hmsg : x.message = m)
  | query {sql : Str} {topo : Topology} {d : RouteDecision} (hsql : querySQL m = some sql) (hpin : s.pin = none)
      (hseen : x.seen = some topo) (hobs : .ok topo ∈ w'.observed) (hrouted : RoutedTo (cfg.router topo) sql d)
      (haddr : x.conn.addr = d.backend) (hmsg : x.message = m ∨ s.inTx ∧ x.message = s.pendingBegin)
  | scatter {sql : Str} {topo : Topology} (hsql : querySQL m = some sql) (hpin : s.pin = none)
      (hread : isReadOnlyQuery sql) (hobs : .ok topo ∈ w'.observed)
      (hscatter : ((cfg.router topo).route sql).1.scatter) (haddr : ∃ shard, cfg.write shard = .ok x.conn.addr)
      (hmsg : x.message = m)
  | batch {bind : PgMessage} {st : Pstmt} {topo : Topology} {d : RouteDecision} (hsync : m.type = 'S')
      (hbind : (s.extBuf ++ [m]).find? (fun m => m.type = byte 'B') = some bind)
      (hst : sqlsAfter s.sqls (s.extBuf ++ [m]) (bindStmtName bind) = some st.sql)
      (horigin : StmtOrigin s w' st (bindStmtName bind)) (hseen : x.seen = some topo) (hobs : .ok topo ∈ w'.observed)
      (hrouted : BindRouted cfg st bind topo d)
      (hconn : s.pin = some x.conn ∨ s.pin = none ∧ x.conn.addr = d.backend)
      (hmsg : BatchMessage s m st x.message)
  | describe (hsync : m.type = byte 'S') (hbind : (s.extBuf ++ [m]).find? (fun m => m.type = byte 'B') = none)
      (hdesc : ∃ x ∈ s.extBuf ++ [m], x.type = 'D')
      (hconn : s.pin = some x.conn ∨ s.pin = none ∧ ∃ shard, cfg.write shard = .ok x.conn.addr)
      (hmsg : x.message ∈ s.extBuf ++ [m])

theorem querySQL_type (h : querySQL m = some sql) : m.type = 'Q' := by
  unfold querySQL at h
  by_contra hne
  rw [if_pos hne] at h
  cases h

variable {o : Option Session}

/-- Everything a simple query writes has a `Target`. -/
theorem QueryOutcome.targets (hl : querySQL m = some sql) (hs : s.Keyed) (h : QueryOutcome cfg s m sql w o w') :
    Wrote (fun x => x.seen = w'.seen ∧ Target cfg s m w' x) w w' := by
  -- a query or a BEGIN that goes to the backend of the decision
  have hro : ∀ {d : RouteDecision} {w₁ w₂ w₃ : Network P} {conn : Conn} {s₁ : Session} {φ : Write P → Prop},
      s.pin = none → Decided (fun t => (cfg.router t).route sql) w d none w₁ → Obtains s d.backend w₁ conn s₁ w₂ →
      w'.observed = w₂.observed → Wrote φ w₂ w₃ → w₃.written = w'.written →
      (∀ x, φ x → x.conn = conn ∧ x.seen = w₂.seen ∧
        (x.message = m ∨ s.inTx ∧ x.message = s.pendingBegin)) →
      Wrote (fun x => x.seen = w'.seen ∧ Target cfg s m w' x) w w' := by
    intro d w₁ w₂ w₃ conn s₁ φ hpin hd hcn hobs hwr hw₃ hφ
    obtain ⟨topo, hr, rfl⟩ := hd.eq_none
    obtain ⟨hwri, hobs₂⟩ := hcn.written_eq
    have hsn : w₂.seen = some topo := by rw [seen_eq_of_observed hobs₂, seen_observe_ok]
    refine (wrote_of_eq hwri).trans ((hwr.mono ?_).trans (wrote_of_eq hw₃.symm))
    intro x hx
    obtain ⟨hc, hxs, hmsg⟩ := hφ x hx
    refine ⟨by rw [hxs, seen_eq_of_observed hobs], .query hl hpin (hxs.trans hsn) ?_ (routedTo_of_route hr) ?_ hmsg⟩
    · rw [hobs, hobs₂]
      exact mem_cons_self ..
    · rw [hc, hcn.addr_eq hs]
  cases h with
  | pinned hpin hfwd =>
    refine hfwd.wrote.mono ?_
    rintro x ⟨rfl, hmsg, hsn⟩
    exact ⟨by rw [hsn, seen_eq_of_observed hfwd.observed_eq], .pinnedQuery hl hpin hmsg⟩
  | began hpin hin hkw hms hsd => exact wrote_of_eq hsd.written
  | refused hpin hkw hd hsd =>
    apply wrote_of_eq
    rcases hd with ⟨topo, -, -, rfl⟩ | ⟨txt, -, -, rfl⟩
    · exact hsd.written
    · exact hsd.written
  | scattered hpin hin hkw hrd hd hsc hsca =>
    rcases hd with ⟨topo, rfl, -, rfl⟩ | ⟨txt, -, rfl, -⟩
    · obtain ⟨new, hw, hn⟩ := hsca.written
      refine ⟨new, hw, ?_⟩
      intro x hx
      obtain ⟨hmsg, -, -, hsn, ha⟩ := hn x hx
      refine ⟨hsn, .scatter hl hpin hrd ?_ hsc ha ?_⟩
      · obtain ⟨rs, hrs⟩ := hsca.observed
        rw [hrs]
        exact mem_append_right _ (mem_cons_self ..)
      · rw [hmsg, ← querySQL_type hl]
    · cases hsc
  | unreachable hpin hd hms hsd =>
    obtain ⟨topo, -, rfl⟩ := hd.eq_none
    exact wrote_of_eq hsd.written
  | routed hpin hin hkw hd hcn hfwd =>
    refine hro hpin hd hcn hfwd.observed_eq hfwd.wrote rfl ?_
    rintro x ⟨hc, hmsg, hsn⟩
    exact ⟨hc, hsn, Or.inl hmsg⟩
  | pinFailed hpin hin hd hcn hb hms hsd =>
    rcases hb with hb | rfl
    · refine hro hpin hd hcn ?_ hb.wrote hsd.written.symm ?_
      · rw [hsd.observed, hb.observed_eq]
      · rintro x ⟨hc, hmsg, hsn⟩
        exact ⟨hc, hsn, Or.inr ⟨hin, hmsg.trans hcn.pendingBegin_eq⟩⟩
    · obtain ⟨topo, -, rfl⟩ := hd.eq_none
      exact wrote_of_eq (hsd.written.trans hcn.written_eq.1)
  | @pinnedNow d w₁ w₂ w₃ _ conn s₁ b hpin hin hd hcn hb hfwd =>
    have hbt : Wrote (fun x => x.conn = conn ∧ x.seen = w₂.seen ∧
        (x.message = m ∨ s.inTx ∧ x.message = s.pendingBegin)) w₂ w' := by
      refine (hb.wrote.mono ?_).trans (hfwd.wrote.mono ?_)
      · rintro x ⟨hc, hmsg, hsn⟩
        exact ⟨hc, hsn, Or.inr ⟨hin, hmsg.trans hcn.pendingBegin_eq⟩⟩
      · rintro x ⟨hc, hmsg, hsn⟩
        exact ⟨hc, hsn.trans (seen_eq_of_observed hb.observed_eq), Or.inl hmsg⟩
    exact hro hpin hd hcn (hfwd.observed_eq.trans hb.observed_eq) hbt rfl fun x hx => hx

variable {s₁ : Session}

theorem ForwardedAll.wrote_exec {st : Pstmt} {name : Str}
    (h : ForwardedAll w conn (execMessages (s₁.injected conn (s.extBuf ++ [m]) name st) (s.extBuf ++ [m])) b w') :
    Wrote (fun x => x.conn = conn ∧ x.seen = w.seen ∧ BatchMessage s m st x.message) w w' := by
  refine h.wrote.mono ?_
  rintro x ⟨hc, hm, hs⟩
  refine ⟨hc, hs, ?_⟩
  simp only [execMessages, mem_append, mem_map, mem_singleton, parsesOf, othersOf, mem_filter] at hm
  rcases hm with ((⟨st', hst', heq⟩ | hx) | hx) | hx
  · have hst : st' = st := by
      unfold injected at hst'
      split at hst'
      · cases hst'
      · exact mem_singleton.1 hst'
    exact .inr (.inl (by rw [← heq, hst]))
  · exact .inl (mem_append.2 (hx.1.imp_right mem_singleton.2))
  · exact .inl (mem_append.2 (hx.1.imp_right mem_singleton.2))
  · exact .inr (.inr (.inl hx))

/-- Everything a batch writes has one. -/
theorem BatchOutcome.targets {w₁ : Network P} (hsy : m.type = 'S')
    (hs : s.Keyed) (hreg : AfterRegister { s with extBuf := [] } (s.extBuf ++ [m]) w s₁ w₁)
    (h : BatchOutcome cfg s₁ (s.extBuf ++ [m]) w₁ o w') :
    Wrote (fun x => x.seen = w'.seen ∧ Target cfg s m w' x) w w' := by
  have hpin : s₁.pin = s.pin := hreg.pin_eq
  have hk : s₁.Keyed := by
    intro addr conn hc
    rw [hreg.backends] at hc
    exact hs addr conn hc
  refine (wrote_of_eq hreg.watches.written).trans ?_
  -- what a routed batch writes after the decision
  have hbt : ∀ {bind : PgMessage} {st : Pstmt} {d : RouteDecision} {w₂ w₃ : Network P} {conn : Conn},
      (s.extBuf ++ [m]).find? (fun m => m.type = byte 'B') = some bind → s₁.stmts (bindStmtName bind) = some st →
      BindDecided cfg st bind w₁ d none w₂ → w₃.written = w₂.written → w₃.observed = w₂.observed →
      Wrote (fun x => x.conn = conn ∧ x.seen = w₃.seen ∧ BatchMessage s m st x.message) w₃ w' →
      w'.observed = w₂.observed → (s.pin = some conn ∨ s.pin = none ∧ conn.addr = d.backend) →
      Wrote (fun x => x.seen = w'.seen ∧ Target cfg s m w' x) w₁ w' := by
    intro bind st d w₂ w₃ conn hbn hst hdc hw₃ hobs₃ hw hobs' hcn
    obtain ⟨topo, hro, rfl⟩ := hdc.routed
    have hsn₃ : w₃.seen = some topo := by rw [seen_eq_of_observed hobs₃, seen_observe_ok]
    refine Wrote.trans (wrote_of_eq hw₃) (hw.mono ?_)
    rintro x ⟨rfl, hsn, hmsg⟩
    have ho : StmtOrigin s w' st (bindStmtName bind) := by
      rcases hreg.stmts _ _ hst with hold | ⟨-, hp, -, -, r, hr, hx⟩
      · exact .inl hold
      · refine .inr ⟨hp, r, ?_, hx⟩
        rw [hobs']
        exact mem_cons_of_mem _ hr
    refine ⟨by rw [hsn, seen_eq_of_observed hobs₃, seen_eq_of_observed hobs'],
      .batch hsy hbn ?_ ho (hsn.trans hsn₃) ?_ hro hcn hmsg⟩
    · have := congrFun hreg.sqls (bindStmtName bind)
      rw [sqls, hst] at this
      exact this.symm
    · rw [hobs']
      exact mem_cons_self ..
  -- a BEGIN that was held back
  have hbg : ∀ {st : Pstmt} {s₂ : Session} {addr : Str} {conn : Conn} {w₂ w₃ w₄ : Network P}, s₁.pin = none →
      s₁.inTx → Obtains s₁ addr w₂ conn s₂ w₃ → Begins s₂ conn w₃ w₄ →
      Wrote (fun x => x.conn = conn ∧ x.seen = w₃.seen ∧ BatchMessage s m st x.message) w₃ w₄ := by
    intro st s₂ addr conn w₂ w₃ w₄ hn hin hcn hb
    refine hb.wrote.mono ?_
    rintro x ⟨hc, hmsg, hsn⟩
    refine ⟨hc, hsn, Or.inr (.inr (.inr ⟨by rw [← hpin, hn], ?_, ?_⟩))⟩
    · rw [← hin, hreg.inTx]
    · rw [hmsg, hcn.pendingBegin_eq, hreg.pendingBegin]
  cases h with
  | refused hbn hy hsd => exact wrote_of_eq (hsd.written.trans hy.watches.written)
  | lost hbn hst hdc hl hms hsd =>
    cases hl with
    | unreachable =>
      obtain ⟨topo, -, rfl⟩ := hdc.routed
      exact wrote_of_eq hsd.written
    | pinFailed hn hin hcn hb =>
      rcases hb with hb | rfl
      · refine hbt hbn hst hdc hcn.written_eq.1 hcn.written_eq.2
          ((hbg hn hin hcn hb).trans (wrote_of_eq hsd.written)) ?_
          (.inr ⟨by rw [← hpin, hn], hcn.addr_eq hk⟩)
        rw [hsd.observed, hb.observed_eq, hcn.written_eq.2]
      · obtain ⟨topo, -, rfl⟩ := hdc.routed
        exact wrote_of_eq (hsd.written.trans hcn.written_eq.1)
  | executed hbn hst hdc hgot hfwd =>
    cases hgot with
    | pinned hsm =>
      exact hbt hbn hst hdc rfl rfl hfwd.wrote_exec hfwd.observed_eq (.inl (by rw [← hpin, hsm]))
    | plain hn hin hcn =>
      exact hbt hbn hst hdc hcn.written_eq.1 hcn.written_eq.2 hfwd.wrote_exec
        (hfwd.observed_eq.trans hcn.written_eq.2) (.inr ⟨by rw [← hpin, hn], hcn.addr_eq hk⟩)
    | pinnedNow hn hin hcn hb =>
      have he := hfwd.wrote_exec
      rw [seen_eq_of_observed hb.observed_eq] at he
      refine hbt hbn hst hdc hcn.written_eq.1 hcn.written_eq.2
        ((hbg hn hin hcn hb).trans he) ?_ (.inr ⟨by rw [← hpin, hn], hcn.addr_eq hk⟩)
      rw [hfwd.observed_eq, hb.observed_eq, hcn.written_eq.2]
  | describeRefused hbn hd hn hy hsd => exact wrote_of_eq (hsd.written.trans hy.watches.written)
  | described hbn hd hgot hfwd =>
    have hw : ∀ {conn : Conn} {b : Bool} {w₂ : Network P}, ForwardedAll w₂ conn (s.extBuf ++ [m]) b w' →
        (s.pin = some conn ∨ s.pin = none ∧ ∃ shard, cfg.write shard = .ok conn.addr) →
        Wrote (fun x => x.seen = w'.seen ∧ Target cfg s m w' x) w₂ w' := by
      intro conn b w₂ hfwd hcn
      refine hfwd.wrote.mono ?_
      rintro x ⟨rfl, hm, hsn⟩
      exact ⟨by rw [hsn, seen_eq_of_observed hfwd.observed_eq], .describe hsy hbn hd hcn hm⟩
    rcases hgot with ⟨hsm, -, rfl⟩ | ⟨hn, topo, shard, addr, -, ha, hcn⟩
    · exact hw hfwd (.inl (by rw [← hpin, hsm]))
    · have hfwd' := hw hfwd (.inr ⟨by rw [← hpin, hn], shard, by rw [ha, ← hcn.addr_eq hk]⟩)
      exact Wrote.trans (wrote_of_eq hcn.written_eq.1) hfwd'
  | acked hbn hd hms hsd => exact wrote_of_eq hsd.written

/-- Each write of the router is accounted for by the message it serves. -/
theorem MessageOutcome.targets (hs : s.Keyed) (h : MessageOutcome cfg s m w o w') :
    Wrote (fun x => x.seen = w'.seen ∧ Target cfg s m w' x) w w' := by
  cases h with
  | query hl h => exact h.targets hl hs
  | buffered => exact wrote_of_eq rfl
  | batch hsy hreg h => exact h.targets hsy hs hreg.after
  | ended hms hsd => exact wrote_of_eq hsd.written

/-! ### The pool of connections -/

/-- The pool has under every address a connection opened to it, and the connection of a transaction is one of
these. -/
structure Session.Pooled (s : Session) (w : Network P) : Prop where
  keyed : s.Keyed
  opened : ∀ addr conn, s.backends addr = some conn → conn.id < w.opened
  tx : ∀ conn, s.txBackend = some conn → s.backends conn.addr = some conn

theorem pooled_init : Session.Pooled {} ({} : Network P) where
  keyed _ _ h := by cases h
  opened _ _ h := by cases h
  tx _ h := by cases h

theorem Session.Pooled.congr (hs : s.Pooled w) (hb : s'.backends = s.backends)
    (htx : s'.txBackend = s.txBackend ∨ s'.txBackend = none) (ho : w.opened ≤ w'.opened) : s'.Pooled w' where
  keyed addr conn h := hs.keyed addr conn (by rwa [hb] at h)
  opened addr conn h := (hs.opened addr conn (by rwa [hb] at h)).trans_le ho
  tx conn h := by
    rw [hb]
    rcases htx with htx | htx
    · exact hs.tx conn (by rwa [htx] at h)
    · rw [htx] at h
      cases h

/-- A connection that was obtained is in the pool. -/
theorem Obtains.pooled (h : Obtains s addr w conn s' w') (hs : s.Pooled w) :
    s'.Pooled w' ∧ s'.backends conn.addr = some conn := by
  have hk := h.keyed hs.keyed
  have had := h.addr_eq hs.keyed
  rcases h with ⟨hc, rfl, rfl⟩ | ⟨hn, rfl, rfl, rfl⟩
  · exact ⟨hs, by rw [had, hc]⟩
  · refine ⟨⟨hk, ?_, ?_⟩, by simp⟩
    · intro a c hc
      by_cases ha : a = addr
      · subst ha
        rw [addBackend_backends, update_self] at hc
        cases hc
        exact Nat.lt_succ_self _
      · rw [addBackend_backends, update_of_ne ha] at hc
        exact (hs.opened a c hc).trans (Nat.lt_succ_self _)
    · intro c hc
      have hold := hs.tx c hc
      rw [addBackend_backends, update_of_ne]
      · exact hold
      · rintro rfl
        rw [hn] at hold
        cases hold

theorem Relays.opened_eq (h : Relays w w') : w'.opened = w.opened := by
  obtain ⟨ms, -, hs⟩ := h
  exact hs.opened

theorem Forwarded.opened_eq (h : Forwarded w conn m b w') : w'.opened = w.opened := by
  rcases h with ⟨c, hr⟩ | ⟨-, rfl⟩
  · exact hr.opened_eq
  · rfl

theorem Begins.opened_eq (h : Begins s conn w w') : w'.opened = w.opened := by
  obtain ⟨c, hs⟩ := h
  exact hs.opened

theorem Delivers.opened_eq (h : Delivers conn ms w w') : w'.opened = w.opened := by
  induction ms generalizing w with
  | nil => rw [show w' = w from h]
  | cons m ms ih =>
    obtain ⟨c, h⟩ := h
    exact (ih h).trans rfl

theorem ForwardedAll.opened_eq (h : ForwardedAll w conn ms b w') : w'.opened = w.opened := by
  obtain ⟨pre, w₁, hp, hd, hr, -⟩ := h
  rw [hr.opened_eq, hd.opened_eq]

theorem Decided.opened_eq {decide : Topology → RouteDecision × Option RouteError}
    {e : Option RouterError} (h : Decided decide w d e w') : w'.opened = w.opened := by
  rcases h with ⟨topo, -, -, rfl⟩ | ⟨txt, -, -, rfl⟩
  · rfl
  · rfl

theorem alive_eq_some (h : alive b s₁ = some s') : b ∧ s' = s₁ := by
  cases b with
  | true =>
    cases h
    exact ⟨rfl, rfl⟩
  | false => cases h

theorem foldl_handleClose (s : Session) (ms : List PgMessage) : ∃ stmts, ms.foldl handleClose s = { s with stmts } ∧
      ∀ name st, stmts name = some st → s.stmts name = some st := by
  induction ms generalizing s with
  | nil => exact ⟨s.stmts, rfl, fun _ _ h => h⟩
  | cons m ms ih =>
    obtain ⟨stmts, heq, hs⟩ := ih (s.handleClose m)
    rw [foldl_cons, heq]
    unfold handleClose at hs ⊢
    split at hs
    · exact ⟨stmts, rfl, hs⟩
    · rename_i closed _
      refine ⟨stmts, rfl, ?_⟩
      intro name st hst
      have hold := hs name st hst
      by_cases hn : name = closed
      · subst hn
        simp at hold
      · simpa [hn] using hold

theorem QueryOutcome.pooled (hs : s.Pooled w) (h : QueryOutcome cfg s m sql w o w') (ho : o = some s') :
    s'.Pooled w' := by
  cases h with
  | pinned hpin hfwd =>
    obtain ⟨-, rfl⟩ := alive_eq_some ho
    unfold afterPinned
    split
    · exact hs.congr rfl (.inr rfl) hfwd.opened_eq.ge
    · exact hs.congr rfl (.inl rfl) hfwd.opened_eq.ge
  | began hpin hin hkw hms hsd =>
    obtain ⟨-, rfl⟩ := alive_eq_some ho
    exact hs.congr rfl (.inr rfl) hsd.opened.ge
  | refused hpin hkw hd hsd =>
    cases ho
    exact hs.congr rfl (.inl rfl) (by rw [hsd.opened, hd.opened_eq])
  | scattered hpin hin hkw hr hd hsc hsca =>
    cases ho
    exact hs.congr rfl (.inl rfl) (by rw [← hd.opened_eq]; exact hsca.opened)
  | unreachable => cases ho
  | routed hpin hin hkw hd hcn hfwd =>
    obtain ⟨-, rfl⟩ := alive_eq_some ho
    have hs₁ := hs.congr rfl (.inl rfl) hd.opened_eq.ge
    exact (hcn.pooled hs₁).1.congr rfl (.inl rfl) hfwd.opened_eq.ge
  | pinFailed => cases ho
  | pinnedNow hpin hin hd hcn hb hfwd =>
    obtain ⟨-, rfl⟩ := alive_eq_some ho
    have hs₁ := hs.congr rfl (.inl rfl) hd.opened_eq.ge
    obtain ⟨hs₂, hm⟩ := hcn.pooled hs₁
    have hle : _ ≤ w'.opened := (hfwd.opened_eq.trans hb.opened_eq).ge
    refine ⟨hs₂.keyed, fun addr c hc => (hs₂.opened addr c hc).trans_le hle, ?_⟩
    rintro c hc
    cases hc
    exact hm

theorem BatchOutcome.pooled (hs : s.Pooled w) (h : BatchOutcome cfg s batch w o w') (ho : o = some s') :
    s'.Pooled w' := by
  have hde : ∀ {st bind d e} {w₁ : Network P}, BindDecided cfg st bind w d e w₁ → w₁.opened = w.opened := by
    rintro st bind d e w₁ (⟨-, ps, key, -, -, hd⟩ | ⟨-, hd⟩)
    · exact hd.opened_eq
    · exact hd.opened_eq
  cases h with
  | refused hbn hw hsd =>
    obtain ⟨-, rfl⟩ := alive_eq_some ho
    exact hs.congr rfl (.inl rfl) (by rw [hsd.opened, hw.watches.opened])
  | lost => cases ho
  | executed hbn hst hdc hgot hfwd =>
    obtain ⟨-, rfl⟩ := alive_eq_some ho
    have hs₁ := hs.congr rfl (.inl rfl) (hde hdc).ge
    cases hgot with
    | pinned => exact hs₁.congr rfl (.inl rfl) hfwd.opened_eq.ge
    | plain hpin hin hcn => exact (hcn.pooled hs₁).1.congr rfl (.inl rfl) hfwd.opened_eq.ge
    | pinnedNow hpin hin hcn hb =>
      obtain ⟨hs₂, hm⟩ := hcn.pooled hs₁
      have hle : _ ≤ w'.opened := (hfwd.opened_eq.trans hb.opened_eq).ge
      refine ⟨hs₂.keyed, fun addr c hc => (hs₂.opened addr c hc).trans_le hle, ?_⟩
      rintro c hc
      cases hc
      exact hm
  | describeRefused hbn hds hpin hw hsd =>
    obtain ⟨-, rfl⟩ := alive_eq_some ho
    exact hs.congr rfl (.inl rfl) (by rw [hsd.opened, hw.watches.opened])
  | described hbn hds hgot hfwd =>
    obtain ⟨-, rfl⟩ := alive_eq_some ho
    rcases hgot with ⟨-, rfl, rfl⟩ | ⟨-, topo, shard, addr, -, -, hcn⟩
    · exact hs.congr rfl (.inl rfl) hfwd.opened_eq.ge
    · have hs₁ : s.Pooled (w.observe (.ok topo)) := hs.congr rfl (.inl rfl) (le_refl _)
      exact (hcn.pooled hs₁).1.congr rfl (.inl rfl) hfwd.opened_eq.ge
  | acked hbn hds hms hsd =>
    obtain ⟨-, rfl⟩ := alive_eq_some ho
    obtain ⟨stmts, heq, -⟩ := foldl_handleClose s (batch.filter fun m => m.type = 'C')
    rw [heq]
    exact hs.congr rfl (.inl rfl) hsd.opened.ge

/-- The pool stays sound. -/
theorem MessageOutcome.pooled (hs : s.Pooled w) (h : MessageOutcome cfg s m w o w') (ho : o = some s') :
    s'.Pooled w' := by
  cases h with
  | query hl h => exact h.pooled hs ho
  | buffered =>
    cases ho
    exact hs.congr rfl (.inl rfl) (le_refl _)
  | batch hsy hreg h =>
    have ha := hreg.after
    exact h.pooled (hs.congr ha.backends (.inl ha.txBackend) ha.watches.opened.ge) ho
  | ended => cases ho

end PostgresOperator
