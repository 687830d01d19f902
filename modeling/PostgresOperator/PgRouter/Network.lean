import PostgresOperator.PgRouter.Session

/-!
# The surroundings of a session

A topology provider that may return another topology each time, backends that react to
every message in a way left open (`Peer`), and calls that may fail.  A failed write may or may not have reached the
backend.  All writes to backends and to the client are recorded.

For every part of the session that the handlers share there is one lemma that says how it can end.
-/

namespace PostgresOperator

open Go Calls List Function

/-! ### The network -/

/-- The other end of a backend connection: its state, and how it reacts to a message. -/
structure Peer where
  State : Type
  Choice : Type
  init : State
  receive : Choice → PgMessage → State → State × List PgMessage

/-- A message that was written to a backend, with the state of the backend before it and the topology that the session
had observed last. -/
structure Write (P : Peer) where
  conn : Conn
  message : PgMessage
  before : P.State
  seen : Option Topology

structure Network (P : Peer) where
  states : Conn → P.State := fun _ => P.init
  /-- Replies that were not yet read. -/
  queues : Conn → List PgMessage := fun _ => []
  /-- The number of connections opened so far. -/
  opened : Nat := 0
  /-- What the provider returned, the last answer first. -/
  observed : List (Except Str Topology) := []
  written : List (Write P) := []
  sent : List ToClient := []

/-- How a call is answered.  A write with no `peer` is lost; one with a `peer` and without `ok` is carried out and
answered with an error.  Without `ok` only the first `taken` replies can be read. -/
structure RouterChoice (P : Peer) where
  ok : Bool := true
  error : Str := []
  topology : Option Topology := none
  peer : Option P.Choice := none
  taken : Nat := 0

variable {P : Peer}

namespace Network

def observe (w : Network P) (r : Except Str Topology) : Network P := { w with observed := r :: w.observed }

def seen (w : Network P) : Option Topology := w.observed.findSome? Except.toOption

def connect (w : Network P) (addr : Str) : Network P :=
  { w with
    states := update w.states ⟨addr, w.opened⟩ P.init
    queues := update w.queues ⟨addr, w.opened⟩ []
    opened := w.opened + 1 }

def deliver (w : Network P) (c : P.Choice) (conn : Conn) (m : PgMessage) : Network P :=
  { w with
    states := update w.states conn (P.receive c m (w.states conn)).1
    queues := update w.queues conn (w.queues conn ++ (P.receive c m (w.states conn)).2)
    written := w.written ++ [⟨conn, m, w.states conn, w.seen⟩] }

def send (w : Network P) (m : ToClient) : Network P := { w with sent := w.sent ++ [m] }

theorem connect_states_self (w : Network P) (addr : Str) : (w.connect addr).states ⟨addr, w.opened⟩ = P.init :=
  update_self ..

theorem connect_states_of_ne {w : Network P} {addr : Str} {c : Conn} (h : c ≠ ⟨addr, w.opened⟩) :
    (w.connect addr).states c = w.states c := update_of_ne h _ _

end Network

def splitReady : List PgMessage → List PgMessage × List PgMessage
  | [] => ([], [])
  | m :: ms => if m.type = 'Z' then ([m], ms) else ((m :: (splitReady ms).1), (splitReady ms).2)

def routerAnswer (c : RouterChoice P) : (r : RouterReq) → Network P → r.Res × Network P
  | .current, w =>
    match c.topology with
    | some topo => (.ok topo, w.observe (.ok topo))
    | none => (.error c.error, w.observe (.error c.error))
  | .connect addr, w => if c.ok then (.ok ⟨addr, w.opened⟩, w.connect addr) else (.error c.error, w)
  | .write conn m, w =>
    match c.peer with
    | some p => (if c.ok then .ok () else .error c.error, w.deliver p conn m)
    | none => (.error c.error, w)
  | .replies conn, w =>
    let (ready, rest) := splitReady (w.queues conn)
    (⟨if c.ok then ready else ready.take c.taken, c.error⟩, { w with queues := update w.queues conn rest })
  | .send m, w => (c.ok, w.send m)

variable (P) in
def routerService : Service routerCalls (Network P) where
  Choice := RouterChoice P
  answer := fun c r w => routerAnswer c r w
  Event := Empty
  happen := fun e _ => nomatch e

/-! ### How the calls end -/

/-- From `w` to `w'` nothing happened but that `ms` were sent to the client and replies were read. -/
structure Says (w : Network P) (ms : List ToClient) (w' : Network P) : Prop where
  states : w'.states = w.states
  opened : w'.opened = w.opened
  observed : w'.observed = w.observed
  written : w'.written = w.written
  sent : w'.sent = w.sent ++ ms

theorem Says.refl (w : Network P) : Says w [] w := ⟨rfl, rfl, rfl, rfl, by simp⟩

theorem Says.trans {w w₁ w₂ : Network P} {ms ms' : List ToClient} (h : Says w ms w₁) (h' : Says w₁ ms' w₂) :
    Says w (ms ++ ms') w₂ :=
  ⟨h'.states.trans h.states, h'.opened.trans h.opened, h'.observed.trans h.observed, h'.written.trans h.written,
    by rw [h'.sent, h.sent, append_assoc]⟩

def ToClient.IsRelayed (x : ToClient) : Prop := ∃ m, x = .relayed m

def ToClient.IsError (x : ToClient) : Prop := ∃ code text cause, x = .error code text cause

def ToClient.IsReady (x : ToClient) : Prop := ∃ status, x = .own ⟨'Z', status⟩

def failedReady : ToClient := .own ⟨'Z', ['E']⟩

def Untroubled (ms : List ToClient) : Prop := ∀ x ∈ ms, ¬x.IsError ∧ x ≠ failedReady

theorem Untroubled.append {ms ms' : List ToClient} (h : Untroubled ms) (h' : Untroubled ms') :
    Untroubled (ms ++ ms') := by
  intro x hx
  rcases mem_append.1 hx with hx | hx
  · exact h x hx
  · exact h' x hx

theorem untroubled_own {m : PgMessage} (hm : m ≠ ⟨'Z', ['E']⟩) : Untroubled [.own m] := by
  intro x hx
  rw [mem_singleton] at hx
  subst hx
  refine ⟨?_, ?_⟩
  · rintro ⟨code, text, cause, h⟩
    cases h
  · intro h
    exact hm (ToClient.own.inj h)

def Relays (w w' : Network P) : Prop := ∃ ms, (∀ x ∈ ms, x.IsRelayed) ∧ Says w ms w'

theorem Relays.refl (w : Network P) : Relays w w := ⟨[], by simp, .refl w⟩

theorem Relays.trans {w w₁ w₂ : Network P} (h : Relays w w₁) (h' : Relays w₁ w₂) : Relays w w₂ := by
  obtain ⟨ms, hms, hs⟩ := h
  obtain ⟨ms', hms', hs'⟩ := h'
  refine ⟨ms ++ ms', ?_, hs.trans hs'⟩
  intro x hx
  rcases mem_append.1 hx with hx | hx
  · exact hms x hx
  · exact hms' x hx

section Calls

variable {w w' : Network P}

theorem ends_current {r : Except Str Topology} (h : Ends (routerService P) current w r w') : w' = w.observe r := by
  obtain ⟨c, h⟩ := ends_call.1 h
  obtain ⟨rfl, rfl⟩ := ends_pure.1 h
  change (routerAnswer c .current w).2 = w.observe (routerAnswer c .current w).1
  simp only [routerAnswer]
  split
  · rfl
  · rfl

theorem ends_connect {addr : Str} {r : Except Str Conn} (h : Ends (routerService P) (connect addr) w r w') :
    (∃ e, r = .error e ∧ w' = w) ∨ r = .ok ⟨addr, w.opened⟩ ∧ w' = w.connect addr := by
  obtain ⟨c, h⟩ := ends_call.1 h
  obtain ⟨rfl, rfl⟩ := ends_pure.1 h
  change (∃ e, (routerAnswer c (.connect addr) w).1 = _ ∧ (routerAnswer c (.connect addr) w).2 = _) ∨
    (routerAnswer c (.connect addr) w).1 = _ ∧ (routerAnswer c (.connect addr) w).2 = _
  simp only [routerAnswer]
  split
  · exact .inr ⟨rfl, rfl⟩
  · exact .inl ⟨_, rfl, rfl⟩

variable {conn : Conn}

/-- A write that reports an error may still have arrived. -/
theorem ends_writeConn {m : PgMessage} {r : Except Str Unit} (h : Ends (routerService P) (writeConn conn m) w r w') :
    (∃ c, w' = w.deliver c conn m) ∨ (∃ e, r = .error e) ∧ w' = w := by
  obtain ⟨c, h⟩ := ends_call.1 h
  obtain ⟨rfl, rfl⟩ := ends_pure.1 h
  change (∃ p, (routerAnswer c (.write conn m) w).2 = _) ∨
    (∃ e, (routerAnswer c (.write conn m) w).1 = _) ∧ (routerAnswer c (.write conn m) w).2 = _
  simp only [routerAnswer]
  split
  · rename_i p _
    exact .inl ⟨p, rfl⟩
  · exact .inr ⟨⟨_, rfl⟩, rfl⟩

theorem ends_replies {r : Replies} (h : Ends (routerService P) (replies conn) w r w') : Says w [] w' := by
  obtain ⟨c, h⟩ := ends_call.1 h
  obtain ⟨-, rfl⟩ := ends_pure.1 h
  exact ⟨rfl, rfl, rfl, rfl, by rw [append_nil]; rfl⟩

variable {b : Bool}

theorem ends_send {m : ToClient} (h : Ends (routerService P) (send m) w b w') : Says w [m] w' := by
  obtain ⟨c, h⟩ := ends_call.1 h
  obtain ⟨-, rfl⟩ := ends_pure.1 h
  exact ⟨rfl, rfl, rfl, rfl, rfl⟩

theorem ends_writePgError {code text : String} {cause : Option RouterError} {u : Unit}
    (h : Ends (routerService P) (writePgError code text cause) w u w') :
    Says w [.error (str code) (str text) cause] w' := by
  obtain ⟨b, w₁, hs, hp⟩ := ends_bind.1 h
  obtain ⟨-, rfl⟩ := ends_pure.1 hp
  exact ends_send hs

/-! ### Relaying and forwarding -/

theorem ends_relay {n : Nat} {ms : List PgMessage} (h : Ends (routerService P) (relay n ms) w b w') :
    Relays w w' := by
  induction ms generalizing n w with
  | nil =>
    obtain ⟨-, rfl⟩ := ends_pure.1 h
    exact .refl _
  | cons m ms ih =>
    unfold relay at h
    split at h
    · exact ih h
    · obtain ⟨ok, w₁, hs, h⟩ := ends_bind.1 h
      have ho : Relays w w₁ := ⟨[.relayed m], by simp [ToClient.IsRelayed], ends_send hs⟩
      split at h
      · split at h
        · obtain ⟨-, rfl⟩ := ends_pure.1 h
          exact ho
        · exact ho.trans (ih h)
      · obtain ⟨-, rfl⟩ := ends_pure.1 h
        exact ho

theorem ends_relayExtended {n : Nat} (h : Ends (routerService P) (relayExtended conn n) w b w') : Relays w w' := by
  obtain ⟨r, w₁, hr, h⟩ := ends_bind.1 h
  exact Relays.trans ⟨[], by simp, ends_replies hr⟩ (ends_relay h)

/-- A query was written to a connection and its replies passed on (`b = true`), or something failed on the way. -/
def Forwarded (w : Network P) (conn : Conn) (m : PgMessage) (b : Bool) (w' : Network P) : Prop :=
  (∃ c, Relays (w.deliver c conn m) w') ∨ b = false ∧ w' = w

/-- The message arrives or the session learns that it may not have. -/
theorem ends_execAndRelay {m : PgMessage} (h : Ends (routerService P) (execAndRelay conn m) w b w') :
    Forwarded w conn m b w' := by
  obtain ⟨r, w₁, hw, hk⟩ := ends_bind.1 h
  rcases ends_writeConn hw with ⟨c, rfl⟩ | ⟨⟨e, rfl⟩, rfl⟩
  · left
    refine ⟨c, ?_⟩
    split at hk
    · obtain ⟨-, rfl⟩ := ends_pure.1 hk
      exact .refl _
    · exact ends_relayExtended hk
  · right
    exact ends_pure.1 hk

def Delivers (conn : Conn) : List PgMessage → Network P → Network P → Prop
  | [], w, w' => w' = w
  | m :: ms, w, w' => ∃ c, Delivers conn ms (w.deliver c conn m) w'

/-- A batch arrives up to the first write that fails. -/
theorem ends_writeAll {ms : List PgMessage} (h : Ends (routerService P) (writeAll conn ms) w b w') :
    ∃ pre, pre <+: ms ∧ Delivers conn pre w w' ∧ (b → pre = ms) := by
  induction ms generalizing w with
  | nil =>
    obtain ⟨rfl, rfl⟩ := ends_pure.1 h
    exact ⟨[], prefix_refl _, rfl, fun _ => rfl⟩
  | cons m ms ih =>
    obtain ⟨r, w₁, hw, hk⟩ := ends_bind.1 h
    rcases ends_writeConn hw with ⟨c, rfl⟩ | ⟨⟨e, rfl⟩, rfl⟩
    · split at hk
      · obtain ⟨rfl, rfl⟩ := ends_pure.1 hk
        exact ⟨[m], by simp, ⟨c, rfl⟩, by simp⟩
      · obtain ⟨pre, hp, hd, ha⟩ := ih hk
        refine ⟨m :: pre, (prefix_cons_inj m).2 hp, ⟨c, hd⟩, ?_⟩
        intro hb
        rw [ha hb]
    · obtain ⟨rfl, rfl⟩ := ends_pure.1 hk
      exact ⟨[], nil_prefix, rfl, by simp⟩

/-! ### Routing and backends -/

def Decided (decide : Topology → RouteDecision × Option RouteError) (w : Network P) (d : RouteDecision)
    (e : Option RouterError) (w' : Network P) : Prop :=
  (∃ topo, d = (decide topo).1 ∧ e = (decide topo).2.map .route ∧ w' = w.observe (.ok topo)) ∨
    ∃ txt, e = some (.provider txt) ∧ d = {} ∧ w' = w.observe (.error txt)

/-- A decision is taken on the topology that is current at that moment. -/
theorem ends_withTopology {decide : Topology → RouteDecision × Option RouteError}
    {x : RouteDecision × Option RouterError} (h : Ends (routerService P) (withTopology decide) w x w') :
    Decided decide w x.1 x.2 w' := by
  obtain ⟨r, w₁, hc, hk⟩ := ends_bind.1 h
  cases ends_current hc
  cases r with
  | error e =>
    obtain ⟨rfl, rfl⟩ := ends_pure.1 hk
    exact .inr ⟨e, rfl, rfl, rfl⟩
  | ok topo =>
    obtain ⟨rfl, rfl⟩ := ends_pure.1 hk
    exact .inl ⟨topo, rfl, rfl, rfl⟩

/-- The session got the connection `conn` for an address: one it had, or a new one. -/
def Obtains (s : Session) (addr : Str) (w : Network P) (conn : Conn) (s' : Session) (w' : Network P) : Prop :=
  (s.backends addr = some conn ∧ s' = s ∧ w' = w) ∨
    s.backends addr = none ∧ conn = ⟨addr, w.opened⟩ ∧ s' = s.addBackend addr conn ∧ w' = w.connect addr

/-- A pooled connection is used again; only a new address is dialled. -/
theorem ends_backendFor {s : Session} {addr : Str} {r : Except Str (Conn × Session)}
    (h : Ends (routerService P) (backendFor s addr) w r w') :
    (∃ e, r = .error e ∧ s.backends addr = none ∧ w' = w) ∨
      ∃ conn s', r = .ok (conn, s') ∧ Obtains s addr w conn s' w' := by
  unfold backendFor at h
  split at h
  · rename_i c hc
    obtain ⟨rfl, rfl⟩ := ends_pure.1 h
    exact .inr ⟨c, s, rfl, Or.inl ⟨hc, rfl, rfl⟩⟩
  · rename_i hc
    obtain ⟨r', w₁, hcn, hk⟩ := ends_bind.1 h
    rcases ends_connect hcn with ⟨e, rfl, rfl⟩ | ⟨rfl, rfl⟩
    · obtain ⟨rfl, rfl⟩ := ends_pure.1 hk
      exact .inl ⟨e, rfl, hc, rfl⟩
    · obtain ⟨rfl, rfl⟩ := ends_pure.1 hk
      exact .inr ⟨_, _, rfl, Or.inr ⟨hc, rfl, rfl, rfl⟩⟩

def Begins (s : Session) (conn : Conn) (w w' : Network P) : Prop :=
  ∃ c, Says (w.deliver c conn s.pendingBegin) [] w'

theorem ends_pinTo {s : Session} {r : Except BeginError Session} (h : Ends (routerService P) (pinTo s conn) w r w') :
    (∃ e, r = .error e ∧ (Begins s conn w w' ∨ w' = w)) ∨
      r = .ok { s with txBackend := some conn } ∧ Begins s conn w w' := by
  obtain ⟨x, w₁, hw, hk⟩ := ends_bind.1 h
  rcases ends_writeConn hw with ⟨c, rfl⟩ | ⟨⟨e, rfl⟩, rfl⟩
  · split at hk
    · obtain ⟨rfl, rfl⟩ := ends_pure.1 hk
      exact .inl ⟨_, rfl, Or.inl ⟨c, .refl _⟩⟩
    · obtain ⟨y, w₂, hd, hk⟩ := ends_bind.1 hk
      obtain ⟨z, w₃, hr, hp⟩ := ends_bind.1 hd
      have hs := ends_replies hr
      obtain ⟨-, rfl⟩ := ends_pure.1 hp
      split at hk
      · obtain ⟨rfl, rfl⟩ := ends_pure.1 hk
        exact .inl ⟨_, rfl, Or.inl ⟨c, hs⟩⟩
      · obtain ⟨rfl, rfl⟩ := ends_pure.1 hk
        exact .inr ⟨rfl, c, hs⟩
  · obtain ⟨rfl, rfl⟩ := ends_pure.1 hk
    exact .inl ⟨_, rfl, Or.inr rfl⟩

end Calls

end PostgresOperator
