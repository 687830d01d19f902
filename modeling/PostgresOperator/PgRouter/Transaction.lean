import PostgresOperator.Pg.Transaction
import PostgresOperator.PgRouter.SessionRun

/-!
# Transactions of a session

The session tells transactions by the first word of each query, a backend by all of its text.  `session_simulates_tx`
says in which runs of simple queries the two agree.  How a backend reads a text as commands is left open (`read`).
-/

namespace PostgresOperator

open Go Calls Pg Function

/-! ### Backends with a transaction status -/

def statusByte : TxStatus → UInt8
  | .idle => 'I'
  | .active => 'T'
  | .failed => 'E'

def txPeer (read : Str → List Command) : Peer where
  State := TxStatus
  Choice := List Bool
  init := .idle
  receive := fun oks m st =>
    match querySQL m with
    | none => (st, [])
    | some sql =>
      let r := runCommands oks (read sql) st
      (r.1, (if r.2 then [] else [⟨'E', []⟩]) ++ [⟨'Z', [statusByte r.1]⟩])

instance (read : Str → List Command) : DecidableEq (txPeer read).State := inferInstanceAs (DecidableEq TxStatus)

variable {read : Str → List Command} {cfg : RouterConfig} {s s' : Session} {m : PgMessage} {sql : Str}
  {w w' : Network (txPeer read)}

theorem receive_query (hs : querySQL m = some sql) (oks : (txPeer read).Choice) (st : (txPeer read).State) :
    ((txPeer read).receive oks m st).1 = (runCommands oks (read sql) st).1 := by
  simp [txPeer, hs]

/-! ### The law -/

variable (read) in
def clientOpen : Served Session PgMessage (Network (txPeer read)) → Bool
  | .start _ => false
  | .step h m _ =>
    match querySQL m with
    | none => clientOpen h
    | some sql => leavesOpen (clientOpen h) (read sql)

def OthersIdle (s : Session) (w : Network (txPeer read)) : Prop :=
  ∀ addr conn, s.backends addr = some conn → s.pin ≠ some conn → w.states conn = .idle

/-- A write of a step is in its place: the BEGIN that was held back is executed outside a transaction, and a query is
executed inside one just if the client has one open. -/
def InPlace (isOpen : Bool) (s : Session) (m : PgMessage) (y : Write (txPeer read)) : Prop :=
  (s.inTx ∧ s.pin = none ∧ y.message = s.pendingBegin ∧ y.before = TxStatus.idle) ∨
    y.message = m ∧ (y.before = TxStatus.idle ↔ isOpen = false)

structure StepSimulates (isOpen : Bool) (s : Session) (m : PgMessage) (w : Network (txPeer read)) (o : Option Session)
    (w' : Network (txPeer read)) : Prop where
  /-- Outside a transaction of the session no connection is in one. -/
  idle : ∀ s', o = some s' → OthersIdle s' w'
  inPlace : Wrote (InPlace isOpen s m) w w'
  /-- A COMMIT or a ROLLBACK ends a transaction that is not pinned. -/
  ended : s.inTx → s.pin = none → ∀ sql, querySQL m = some sql → read sql = [.commit] ∨ read sql = [.rollback] →
    ∀ s', o = some s' → s'.inTx = false

variable (h : Served Session PgMessage (Network (txPeer read)))

def SimulatesTx (m : PgMessage)
    (x : Option Session × Network (txPeer read)) : Prop :=
  ∀ s, h.world.1 = some s → StepSimulates (clientOpen read h) s m h.world.2 x.1 x.2

/-! ### The condition -/

/-- The first word of a text says what its commands do to a transaction: outside a transaction BEGIN or START opens
one and no other text does; in a pinned transaction COMMIT, ROLLBACK or END ends it and no other text does; in one
that is not yet pinned no text ends it. -/
def TextFits (read : Str → List Command) (s : Session) (sql : Str) : Prop :=
  if s.inTx = false then
    if firstKeyword sql ∈ beginKeywords then Opens (read sql) else BeginFree (read sql)
  else if s.pin = none then EndFree (read sql)
  else if firstKeyword sql ∈ endKeywords then Closes (read sql)
  else EndFree (read sql)

instance (read : Str → List Command) (s : Session) (sql : Str) : Decidable (TextFits read s sql) :=
  inferInstanceAs (Decidable
    (if s.inTx = false then
      if firstKeyword sql ∈ beginKeywords then Opens (read sql) else BeginFree (read sql)
    else if s.pin = none then EndFree (read sql)
    else if firstKeyword sql ∈ endKeywords then Closes (read sql)
    else EndFree (read sql)))

/-- The message is a simple query whose first word says what it does to a transaction. -/
def FirstWordTells (m : PgMessage)
    (_ : Option Session × Network (txPeer read)) : Prop :=
  ∀ s, h.world.1 = some s → ∃ sql, querySQL m = some sql ∧ TextFits read s sql

/-! ### States of the connections -/

section States

variable {P : Peer} {w w' : Network P}

theorem Decided.states_eq {decide : Topology → RouteDecision × Option RouteError} {d : RouteDecision}
    {e : Option RouterError} (h : Decided decide w d e w') : w'.states = w.states := by
  rcases h with ⟨topo, -, -, rfl⟩ | ⟨txt, -, -, rfl⟩
  · rfl
  · rfl

variable {conn : Conn}

theorem Forwarded.wrote_before {b : Bool} (h : Forwarded w conn m b w') :
    Wrote (fun x => x.message = m ∧ x.before = w.states conn) w w' := by
  rcases h with ⟨c, hr⟩ | ⟨-, rfl⟩
  · refine ⟨[_], hr.written_eq, ?_⟩
    intro x hx
    rw [List.mem_singleton.1 hx]
    exact ⟨rfl, rfl⟩
  · exact wrote_of_eq rfl

/-- From `w` to `w'` the state of one connection changed, by a message. -/
def Receives (conn : Conn) (m : PgMessage) (w w' : Network P) : Prop :=
  (∃ c, w'.states conn = (P.receive c m (w.states conn)).1) ∧ ∀ c, c ≠ conn → w'.states c = w.states c

theorem receives_of_states {c : P.Choice}
    (h : w'.states = update w.states conn (P.receive c m (w.states conn)).1) : Receives conn m w w' := by
  refine ⟨⟨c, ?_⟩, ?_⟩
  · rw [h, update_self]
  · intro c' hne
    rw [h, update_of_ne hne]

theorem Forwarded.receives (h : Forwarded w conn m true w') : Receives conn m w w' := by
  rcases h with ⟨c, hr⟩ | ⟨hb, -⟩
  · exact receives_of_states (c := c) hr.states_eq
  · cases hb

theorem Begins.wrote_before (h : Begins s conn w w') :
    Wrote (fun x => x.message = s.pendingBegin ∧ x.before = w.states conn) w w' := by
  obtain ⟨c, hs⟩ := h
  refine ⟨[_], hs.written, ?_⟩
  intro x hx
  rw [List.mem_singleton.1 hx]
  exact ⟨rfl, rfl⟩

theorem Begins.receives (h : Begins s conn w w') : Receives conn s.pendingBegin w w' := by
  obtain ⟨c, hs⟩ := h
  exact receives_of_states (c := c) hs.states

end States

variable {addr : Str} {conn : Conn}

/-- A pool of idle connections grows by an idle one. -/
theorem Obtains.idle (h : Obtains s addr w conn s' w') (hs : s.Pooled w)
    (hid : ∀ a c, s.backends a = some c → w.states c = .idle) :
    w'.states conn = .idle ∧ ∀ a c, s'.backends a = some c → w'.states c = .idle := by
  rcases h with ⟨hc, rfl, rfl⟩ | ⟨hn, rfl, rfl, rfl⟩
  · exact ⟨hid addr conn hc, hid⟩
  · have hw : (w.connect addr).states ⟨addr, w.opened⟩ = TxStatus.idle := update_self ..
    refine ⟨hw, ?_⟩
    intro a c hc
    by_cases ha : a = addr
    · subst ha
      rw [Session.addBackend_backends, update_self] at hc
      cases hc
      exact hw
    · rw [Session.addBackend_backends, update_of_ne ha] at hc
      have hne : c ≠ ⟨addr, w.opened⟩ := by
        rintro rfl
        exact absurd (hs.opened a _ hc) (lt_irrefl _)
      exact (update_of_ne hne _ _).trans (hid a c hc)

/-! ### Steps -/

structure TxInvariant (isOpen : Bool) (s : Session) (w : Network (txPeer read)) : Prop where
  client : isOpen = s.inTx
  others : OthersIdle s w
  pinned : ∀ conn, s.pin = some conn → w.states conn ≠ .idle
  held : s.inTx → s.pin = none → ∃ sql, querySQL s.pendingBegin = some sql ∧ Opens (read sql)

theorem pin_eq_none_of_inTx (h : s.inTx = false) : s.pin = none := by
  simp [Session.pin, h]

theorem inTx_of_pin (h : s.pin = some conn) : s.inTx := by
  by_contra hne
  rw [pin_eq_none_of_inTx (by simpa using hne)] at h
  cases h

variable {isOpen : Bool}

/-- Without a pin no pooled connection has a transaction. -/
theorem TxInvariant.pool_idle (hv : TxInvariant isOpen s w) (hpin : s.pin = none) :
    ∀ a c, s.backends a = some c → w.states c = .idle :=
  fun a c hc => hv.others a c hc (by simp [hpin])

theorem TxInvariant.congr (hv : TxInvariant isOpen s w) (hs : s.Pooled w)
    (hsta : ∀ c : Conn, c.id < w.opened → w'.states c = w.states c) (ho : leavesOpen isOpen (read sql) = isOpen) :
    TxInvariant (leavesOpen isOpen (read sql)) s w' where
  client := ho.trans hv.client
  others addr conn hc hpin := by rw [hsta conn (hs.opened addr conn hc), hv.others addr conn hc hpin]
  pinned conn hpin := by
    have htx : s.txBackend = some conn := by
      rw [Session.pin, inTx_of_pin hpin] at hpin
      exact hpin
    rw [hsta conn (hs.opened _ conn (hs.tx conn htx))]
    exact hv.pinned conn hpin
  held := hv.held

variable {b : Bool}

/-- Step lemma for a pinned session: the server's transaction is the client's. -/
theorem simulates_pinned (hl : querySQL m = some sql) (hv : TxInvariant isOpen s w)
    (hf : TextFits read s sql) (hpin : s.pin = some conn) (hfwd : Forwarded w conn m b w') :
    Wrote (InPlace isOpen s m) w w' ∧
      (b → TxInvariant (leavesOpen isOpen (read sql)) (s.afterPinned (firstKeyword sql)) w') := by
  have hin := inTx_of_pin hpin
  have ho : isOpen := hv.client.trans hin
  have hb := hv.pinned conn hpin
  refine ⟨hfwd.wrote_before.mono ?_, ?_⟩
  · rintro y ⟨hmsg, hbf⟩
    exact .inr ⟨hmsg, iff_of_false (by rwa [hbf]) (by simp [ho])⟩
  · rintro rfl
    obtain ⟨⟨oks, hs⟩, hsm⟩ := hfwd.receives
    rw [receive_query hl] at hs
    rw [TextFits, if_neg (by simp [hin]), if_neg (by simp [hpin])] at hf
    unfold Session.afterPinned
    split at hf
    · rename_i hkw
      rw [if_pos hkw]
      refine ⟨leavesOpen_of_closes hf _, ?_, ?_, ?_⟩
      · intro addr c hc _
        by_cases hcc : c = conn
        · subst hcc
          exact hs.trans (runCommands_of_closes hf _)
        · rw [hsm c hcc]
          exact hv.others addr c hc (by simpa [hpin] using Ne.symm hcc)
      · intro c hc
        cases hc
      · intro h
        cases h
    · rename_i hkw
      rw [if_neg hkw]
      refine ⟨?_, ?_, ?_, ?_⟩
      · rw [ho, leavesOpen_of_endFree hf, hin]
      · intro addr c hc hne
        have hcc : c ≠ conn := by
          rintro rfl
          exact hne hpin
        rw [hsm c hcc]
        exact hv.others addr c hc hne
      · intro c hc
        rw [hpin] at hc
        cases hc
        rw [hs]
        exact runCommands_of_open hf hb
      · intro _ hn
        rw [hpin] at hn
        cases hn

variable {w₁ w₂ : Network (txPeer read)}

/-- Outside a transaction a routed text leaves its server idle. -/
theorem simulates_routed
    (hl : querySQL m = some sql) (hs : s.Pooled w) (hv : TxInvariant isOpen s w) (hin : s.inTx = false)
    (hf : BeginFree (read sql)) (ht₁ : w₁.states = w.states) (hop₁ : w₁.opened = w.opened)
    (hcn : Obtains s addr w₁ conn s' w₂) (hfwd : Forwarded w₂ conn m b w') :
    Wrote (InPlace isOpen s m) w₂ w' ∧ (b → TxInvariant (leavesOpen isOpen (read sql)) s' w') := by
  have ho : isOpen = false := hv.client.trans hin
  have hpo : s.Pooled w₁ := hs.congr rfl (.inl rfl) hop₁.ge
  have hid := hv.pool_idle (pin_eq_none_of_inTx hin)
  rw [← ht₁] at hid
  obtain ⟨hcd, hp⟩ := hcn.idle hpo hid
  have hin' : s'.inTx = false := hcn.inTx_eq.trans hin
  refine ⟨hfwd.wrote_before.mono ?_, ?_⟩
  · rintro y ⟨hmsg, hb⟩
    exact .inr ⟨hmsg, iff_of_true (hb.trans hcd) ho⟩
  · rintro rfl
    obtain ⟨⟨oks, hsta⟩, hsm⟩ := hfwd.receives
    rw [receive_query hl] at hsta
    refine ⟨?_, ?_, ?_, ?_⟩
    · rw [ho, leavesOpen_of_beginFree hf, hin']
    · intro a c hc _
      by_cases hcc : c = conn
      · subst hcc
        rw [hcd] at hsta
        exact hsta.trans (runCommands_of_idle hf)
      · rw [hsm c hcc]
        exact hp a c hc
    · intro c hc
      rw [pin_eq_none_of_inTx hin'] at hc
      cases hc
    · intro h
      rw [hin'] at h
      cases h

theorem simulates_begin {w₃ : Network (txPeer read)} (hs : s.Pooled w)
    (hv : TxInvariant isOpen s w) (hin : s.inTx) (hpin : s.pin = none) (ht₁ : w₁.states = w.states)
    (hop₁ : w₁.opened = w.opened) (hcn : Obtains s addr w₁ conn s' w₂) (hb : Begins s' conn w₂ w₃) :
    Wrote (InPlace isOpen s m) w₂ w₃ ∧ w₃.states conn ≠ .idle ∧
      ∀ a c, s'.backends a = some c → c ≠ conn → w₃.states c = .idle := by
  have hpo : s.Pooled w₁ := hs.congr rfl (.inl rfl) hop₁.ge
  have hid := hv.pool_idle hpin
  rw [← ht₁] at hid
  obtain ⟨hcd, hp⟩ := hcn.idle hpo hid
  have hh : s'.pendingBegin = s.pendingBegin := hcn.pendingBegin_eq
  refine ⟨hb.wrote_before.mono ?_, ?_, ?_⟩
  · rintro y ⟨hmsg, hf⟩
    exact .inl ⟨hin, hpin, by rw [hmsg, hh], by rw [hf, hcd]⟩
  · obtain ⟨sql, hl, ho⟩ := hv.held hin hpin
    obtain ⟨oks, hsta⟩ := hb.receives.1
    rw [hh, receive_query hl, hcd] at hsta
    rw [hsta]
    exact runCommands_of_opens ho
  · intro a c hc hne
    rw [hb.receives.2 c hne]
    exact hp a c hc

/-- The first routed text of a transaction takes the BEGIN along. -/
theorem simulates_pinnedNow {w₃ : Network (txPeer read)}
    (hl : querySQL m = some sql) (hs : s.Pooled w) (hv : TxInvariant isOpen s w) (hin : s.inTx)
    (hpin : s.pin = none) (hf : EndFree (read sql)) (ht₁ : w₁.states = w.states)
    (hop₁ : w₁.opened = w.opened) (hcn : Obtains s addr w₁ conn s' w₂) (hb : Begins s' conn w₂ w₃)
    (hfwd : Forwarded w₃ conn m b w') :
    Wrote (InPlace isOpen s m) w₂ w' ∧
      (b → TxInvariant (leavesOpen isOpen (read sql)) { s' with txBackend := some conn } w') := by
  have ho : isOpen := hv.client.trans hin
  have hin' : s'.inTx := hcn.inTx_eq.trans hin
  obtain ⟨hw, hbs, hh⟩ := simulates_begin (m := m) hs hv hin hpin ht₁ hop₁ hcn hb
  refine ⟨hw.trans (hfwd.wrote_before.mono ?_), ?_⟩
  · rintro y ⟨hmsg, hbf⟩
    exact .inr ⟨hmsg, iff_of_false (by rwa [hbf]) (by simp [ho])⟩
  · rintro rfl
    obtain ⟨⟨oks, hsta⟩, hsm⟩ := hfwd.receives
    rw [receive_query hl] at hsta
    have hpin' : Session.pin { s' with txBackend := some conn } = some conn := by simp [Session.pin, hin']
    refine ⟨?_, ?_, ?_, ?_⟩
    · rw [ho, leavesOpen_of_endFree hf]
      exact hin'.symm
    · intro a c hc hne
      have hcc : c ≠ conn := by
        rintro rfl
        exact hne hpin'
      rw [hsm c hcc]
      exact hh a c hc hcc
    · intro c hc
      rw [hpin'] at hc
      cases hc
      rw [hsta]
      exact runCommands_of_open hf hbs
    · intro _ hn
      rw [hpin'] at hn
      cases hn

/-- Step lemma: if its first word tells what a text does, the session simulates one transaction. -/
theorem QueryOutcome.simulates {o : Option Session} (hl : querySQL m = some sql) (hs : s.Pooled w)
    (hv : TxInvariant isOpen s w) (hf : TextFits read s sql) (h : QueryOutcome cfg s m sql w o w') :
    Wrote (InPlace isOpen s m) w w' ∧ ∀ s', o = some s' → TxInvariant (leavesOpen isOpen (read sql)) s' w' := by
  have hfr : s.inTx = false → firstKeyword sql ∉ beginKeywords → BeginFree (read sql) := by
    intro hin hkw
    rwa [TextFits, if_pos hin, if_neg hkw] at hf
  have hef : s.inTx → s.pin = none → EndFree (read sql) := by
    intro hin hpin
    rwa [TextFits, if_neg (by simp [hin]), if_pos hpin] at hf
  -- a query that is not executed
  have hk : s.pin = none → (s.inTx = false → firstKeyword sql ∉ beginKeywords) →
      leavesOpen isOpen (read sql) = isOpen := by
    intro hpin hkw
    rw [hv.client]
    cases hin : s.inTx with
    | true => exact leavesOpen_of_endFree (hef hin hpin)
    | false => exact leavesOpen_of_beginFree (hfr hin (hkw hin))
  cases h with
  | pinned hpin hfwd =>
    obtain ⟨hwr, hn⟩ := simulates_pinned hl hv hf hpin hfwd
    refine ⟨hwr, ?_⟩
    intro s' ho
    obtain ⟨hb, rfl⟩ := alive_eq_some ho
    exact hn hb
  | began hpin hin hkw hms hsd =>
    refine ⟨wrote_of_eq hsd.written, ?_⟩
    intro s' ho
    obtain ⟨-, rfl⟩ := alive_eq_some ho
    rw [TextFits, if_pos hin, if_pos hkw] at hf
    refine ⟨leavesOpen_of_opens hf _, ?_, ?_, fun _ _ => ⟨sql, hl, hf⟩⟩
    · intro addr c hc _
      rw [hsd.states]
      exact hv.pool_idle hpin addr c hc
    · intro c hc
      cases hc
  | refused hpin hkw hd hsd =>
    refine ⟨wrote_of_eq (hsd.written.trans hd.written_eq), ?_⟩
    rintro s' ⟨⟩
    exact hv.congr hs (fun c _ => by rw [hsd.states, hd.states_eq]) (hk hpin hkw)
  | scattered hpin hin hkw hr hd hsc hsca =>
    refine ⟨?_, ?_⟩
    · obtain ⟨new, hw, hnw⟩ := hsca.written
      refine ⟨new, by rw [hw, hd.written_eq], ?_⟩
      intro y hy
      obtain ⟨hmsg, -, hbf, -⟩ := hnw y hy
      have hQ : m.type = 'Q' := querySQL_type hl
      exact .inr ⟨by rw [hmsg, ← hQ], iff_of_true hbf (hv.client.trans hin)⟩
    · rintro s' ⟨⟩
      refine hv.congr hs ?_ (hk hpin fun _ => hkw)
      intro c hc
      rw [hsca.states c (by rw [hd.opened_eq]; exact hc), hd.states_eq]
  | unreachable hpin hd hms hsd =>
    exact ⟨wrote_of_eq (hsd.written.trans hd.written_eq), nofun⟩
  | routed hpin hin hkw hd hcn hfwd =>
    obtain ⟨hwr, hn⟩ := simulates_routed hl hs hv hin (hfr hin hkw) hd.states_eq hd.opened_eq
      hcn hfwd
    refine ⟨(wrote_of_eq (hcn.written_eq.1.trans hd.written_eq)).trans hwr, ?_⟩
    intro s' ho
    obtain ⟨hb, rfl⟩ := alive_eq_some ho
    exact hn hb
  | pinFailed hpin hin hd hcn hbg hms hsd =>
    refine ⟨(wrote_of_eq (hcn.written_eq.1.trans hd.written_eq)).trans ?_, nofun⟩
    rcases hbg with hbg | rfl
    · exact (simulates_begin hs hv hin hpin hd.states_eq hd.opened_eq hcn hbg).1.trans
        (wrote_of_eq hsd.written)
    · exact wrote_of_eq hsd.written
  | pinnedNow hpin hin hd hcn hbg hfwd =>
    obtain ⟨hwr, hn⟩ := simulates_pinnedNow hl hs hv hin hpin (hef hin hpin) hd.states_eq
      hd.opened_eq hcn hbg hfwd
    refine ⟨(wrote_of_eq (hcn.written_eq.1.trans hd.written_eq)).trans hwr, ?_⟩
    intro s' ho
    obtain ⟨hb, rfl⟩ := alive_eq_some ho
    exact hn hb

/-- In every run of simple queries whose first words tell, the session and its backends agree on transactions. -/
theorem session_simulates_tx {h : Served Session PgMessage (Network (txPeer read))}
    (hrun : IsSessionRun (txPeer read) cfg h) (htells : h.Steps FirstWordTells) : h.Steps SimulatesTx := by
  have hini : TxInvariant false ({} : Session) ({} : Network (txPeer read)) := by
    refine ⟨rfl, ?_, ?_, ?_⟩
    · intro addr conn hc
      cases hc
    · intro conn hpin
      cases hpin
    · intro hin
      cases hin
  refine hrun.steps (fun h s => TxInvariant (clientOpen read h) s h.world.2) hini ?_ htells
  intro h s m x hsn hv ht hs htells
  obtain ⟨sql, hl, hf⟩ := htells s hs
  have hQ := querySQL_type hl
  have hste : Wrote (InPlace (clientOpen read h) s m) h.world.2 x.2 ∧
      ∀ s', x.1 = some s' → TxInvariant (leavesOpen (clientOpen read h) (read sql)) s' x.2 := by
    obtain ⟨o, w'⟩ := x
    cases ht with
    | query hl' ht =>
      rw [hl] at hl'
      cases hl'
      exact ht.simulates hl hsn.pooled hv hf
    | buffered het =>
      rw [hQ] at het
      exact absurd het (by decide)
    | batch hsy =>
      rw [hQ] at hsy
      exact absurd hsy (by decide)
    | ended hms hsd => exact ⟨wrote_of_eq hsd.written, nofun⟩
  refine ⟨?_, ?_⟩
  · intro s' hs'
    rw [hs] at hs'
    cases hs'
    refine ⟨fun s' ho => (hste.2 s' ho).others, hste.1, ?_⟩
    intro hin hpin sql' hl' he
    -- a text that fits does not end a transaction that is not pinned
    rw [hl] at hl'
    cases hl'
    rw [TextFits, if_neg (by simp [hin]), if_pos hpin] at hf
    rcases he with he | he
    · exact absurd (by simp [he]) hf.1
    · exact absurd (by simp [he]) hf.2
  · intro s' ho
    have hcl : clientOpen read (h.step m x) = leavesOpen (clientOpen read h) (read sql) := by
      rw [clientOpen, hl]
    rw [hcl]
    exact hste.2 s' ho

/-! ### Fixed runs -/

def commandOf : List Str → Command
  | [] => .other
  | w :: ws =>
    if w ∈ beginKeywords then .begin
    else if w = "commit" ∨ w = "end" then .commit
    else if w = "abort" then .rollback
    else if w = str "rollback" then if str "to" ∈ ws then .rollbackTo else .rollback
    else if w = "savepoint" then .savepoint
    else .other

def readText (sql : Str) : List Command :=
  ((((tokenize sql).map fun t => toLower t.text).splitOn (str ";")).filter (· ≠ [])).map commandOf

def firstWordTells (m : PgMessage) : Bool :=
  match h.world.1, querySQL m with
  | none, _ => true
  | some _, none => false
  | some s, some sql => TextFits read s sql

theorem firstWordTells_eq_true {h : Served Session PgMessage (Network (txPeer read))}
    {x : Option Session × Network (txPeer read)} (hc : firstWordTells h m) : FirstWordTells h m x := by
  intro s hs
  unfold firstWordTells at hc
  rw [hs] at hc
  cases hl : querySQL m with
  | none =>
    rw [hl] at hc
    cases hc
  | some sql =>
    rw [hl] at hc
    exact ⟨sql, rfl, of_decide_eq_true hc⟩

def txAnswers (n : Nat) : List (RouterChoice (txPeer readText)) :=
  answersWith ([] : List Bool) (twoTenants false) n

/-- An UPDATE in a transaction. -/
theorem session_simulates_tx_update : ∃ h, IsSessionRun (txPeer readText) primaries h ∧ h.Steps FirstWordTells ∧
    h.Steps SimulatesTx ∧ h.world.2.written.map (fun y => (y.message, (y.before : TxStatus))) =
      [(queryMessage "BEGIN", .idle), (updateA, .active), (queryMessage "COMMIT", .active)] := by
  refine exists_sessionRun_check firstWordTells_eq_true session_simulates_tx
    [(queryMessage "BEGIN", txAnswers 2), (updateA, txAnswers 7), (queryMessage "COMMIT", txAnswers 3)] ?_
  decide +kernel

/-- A COMMIT before any routed query does not end the transaction of the session.  After a ROLLBACK TO SAVEPOINT the
session is outside a transaction while its backend is in one, and the next query of the client's transaction is
executed outside it. -/
theorem session_loses_tx :
    (∃ h, IsSessionRun (txPeer readText) primaries h ∧ (h.messages, h.world.1.map Session.inTx) =
      ([queryMessage "BEGIN", queryMessage "COMMIT"], some true)) ∧
    ∃ h, IsSessionRun (txPeer readText) primaries h ∧
      (h.world.1.map Session.inTx, (h.world.2.states ⟨"primary/shard-0", 0⟩ : TxStatus),
        h.world.2.written.map fun y => (y.message, (y.before : TxStatus))) =
      (some false, .active, [(queryMessage "BEGIN", .idle), (updateA, .active),
        (queryMessage "ROLLBACK TO SAVEPOINT p", .active), (updateB, .idle)]) := by
  refine ⟨?_, ?_⟩
  · refine exists_sessionRun [(queryMessage "BEGIN", txAnswers 2), (queryMessage "COMMIT", txAnswers 3)] ?_
    decide +kernel
  · refine exists_sessionRun [(queryMessage "BEGIN", txAnswers 2), (updateA, txAnswers 7),
      (queryMessage "ROLLBACK TO SAVEPOINT p", txAnswers 3), (updateB, txAnswers 5)] ?_
    decide +kernel

end PostgresOperator
