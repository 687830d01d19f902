import PostgresOperator.Calls.Loop
import PostgresOperator.PgRouter.SessionRun

/-!
# One ReadyForQuery for each request

The backends answer a Query and a Sync with messages of which the last one is a ReadyForQuery.  What is sent to the
client can fail for one reason only, which is the router's own: `writePgError` sets a write deadline of two seconds on
the client connection, and nothing clears it.  Writes after the deadline fail, and `scatterQuery` goes on without
them.

In every run without such a late write, whatever else fails on the way, a Query or a Sync after which the session goes
on is answered by messages that end with the only ReadyForQuery among them, and no reply is left unread
(`one_ready_per_request`).
-/

namespace PostgresOperator

open Go Calls PgMessage List Function

variable {P : Peer} {cfg : RouterConfig} {s s' : Session} {conn : Conn} {w w' w₁ : Network P} {k : Nat}

/-! ### Lists that end with the one element of a kind -/

/-- The last element satisfies `p`, and no other does. -/
def EndsOnce {α : Type} (p : α → Bool) (l : List α) : Prop :=
  ∃ body z, l = body ++ [z] ∧ p z ∧ ∀ x ∈ body, p x = false

section

variable {α : Type} {p : α → Bool} {l pre : List α} {x : α}

theorem EndsOnce.append (hp : ∀ x ∈ pre, p x = false) (h : EndsOnce p l) : EndsOnce p (pre ++ l) := by
  obtain ⟨body, z, rfl, hz, hb⟩ := h
  refine ⟨pre ++ body, z, (append_assoc ..).symm, hz, ?_⟩
  intro x hx
  rcases mem_append.1 hx with hx | hx
  · exact hp x hx
  · exact hb x hx

theorem endsOnce_singleton (h : p x) : EndsOnce p [x] := ⟨[], x, rfl, h, by simp⟩

/-- A list that ends with its only match has one match. -/
theorem EndsOnce.countP (h : EndsOnce p l) : l.countP p = 1 := by
  obtain ⟨body, z, rfl, hz, hb⟩ := h
  have hn : body.countP p = 0 := countP_eq_zero.2 fun x hx => by simp [hb x hx]
  simp [hn, hz]

end

/-! ### Requests and ReadyForQuery -/

def PgMessage.isRequest (m : PgMessage) : Bool := m.type = 'Q' || m.type = 'S'

variable {m : PgMessage}

theorem PgMessage.isRequest_of_parse (h : m.type = 'P') : m.isRequest = false := by
  rw [isRequest, h]
  rfl

def PgMessage.isReady (m : PgMessage) : Bool := m.type = 'Z'

def ToClient.isReady : ToClient → Bool
  | .own m | .relayed m => m.isReady
  | .error .. => false

/-- The backends answer every Query and every Sync with messages that end with one ReadyForQuery, and send it at no
other time. -/
def Peer.Answers (P : Peer) : Prop := ∀ c m st,
  if m.isRequest then EndsOnce PgMessage.isReady (P.receive c m st).2 else ∀ x ∈ (P.receive c m st).2,
    x.isReady = false

theorem splitReady_of_endsOnce {ms : List PgMessage} (h : EndsOnce isReady ms) : (splitReady ms).2 = [] := by
  obtain ⟨body, z, rfl, hz, hb⟩ := h
  induction body with
  | nil =>
    have hz : z.type = 'Z' := by simpa [isReady] using hz
    simp [splitReady, hz]
  | cons m body ih =>
    have hm : m.type ≠ 'Z' := by simpa [isReady] using hb m (by simp)
    simpa [splitReady, hm] using ih fun x hx => hb x (by simp [hx])

variable (P) in
/-- The surroundings of a session whose client takes every message. -/
def listeningService : Service routerCalls (Network P) where
  Choice := RouterChoice P
  answer := fun c r w => match r with
    | .send m => (true, w.send m)
    | r => routerAnswer c r w
  Event := Empty
  happen := fun e _ => nomatch e

/-! ### What is sent and what is left unread -/

/-- From `w` to `w'` the messages `ms` are sent to the client, and of the first `k` connections those without unread
replies stay so. -/
structure Tells (k : Nat) (w : Network P) (ms : List ToClient) (w' : Network P) : Prop where
  opened : w.opened ≤ w'.opened
  queues : ∀ c, c.id < k → w.queues c = [] → w'.queues c = []
  sent : w'.sent = w.sent ++ ms

theorem Tells.refl (w : Network P) : Tells k w [] w := ⟨le_rfl, fun _ _ h => h, by simp⟩

variable {ms : List ToClient}

theorem Tells.trans {w₂ : Network P} {ms' : List ToClient} (h : Tells k w ms w₁) (h' : Tells k w₁ ms' w₂) :
    Tells k w (ms ++ ms') w₂ :=
  ⟨h.opened.trans h'.opened, fun c hc hw => h'.queues c hc (h.queues c hc hw), by rw [h'.sent, h.sent, append_assoc]⟩

theorem Tells.mono {j : Nat} (h : Tells k w ms w') (hj : j ≤ k) : Tells j w ms w' :=
  ⟨h.opened, fun c hc => h.queues c (hc.trans_le hj), h.sent⟩

def Replied (w w' : Network P) : Prop := ∃ out, Tells w.opened w out w' ∧ EndsOnce ToClient.isReady out

theorem Replied.after (h : Replied w₁ w') (hw : Tells w.opened w ms w₁) (hms : ∀ x ∈ ms, x.isReady = false) :
    Replied w w' := by
  obtain ⟨out, ht, ho⟩ := h
  exact ⟨ms ++ out, hw.trans (ht.mono hw.opened), ho.append hms⟩

def Idle (conn : Conn) (w : Network P) : Prop := conn.id < w.opened ∧ w.queues conn = []

/-- Talking to the client leaves an idle connection idle. -/
theorem Idle.tells (h : Idle conn w) (hw : Tells w.opened w ms w') : Idle conn w' :=
  ⟨h.1.trans_le hw.opened, hw.queues conn h.1 h.2⟩

/-- The connections of the session are idle, and it holds messages of the right types. -/
structure Session.Drained (s : Session) (w : Network P) : Prop where
  backends : ∀ addr conn, s.backends addr = some conn → Idle conn w
  pinned : ∀ conn, s.txBackend = some conn → Idle conn w
  begins : s.inTx → s.pendingBegin.isRequest
  parses : ∀ name st, s.stmts name = some st → st.parseMsg.isRequest = false
  buffer : ∀ m ∈ s.extBuf, m.isRequest = false

theorem Session.Drained.tells (h : s.Drained w) (hw : Tells w.opened w ms w') : s.Drained w' where
  backends addr conn hc := (h.backends addr conn hc).tells hw
  pinned conn hc := (h.pinned conn hc).tells hw
  begins := h.begins
  parses := h.parses
  buffer := h.buffer

def Answered (w : Network P) (o : Option Session) (w' : Network P) : Prop :=
  ∀ s', o = some s' → s'.Drained w' ∧ Replied w w'

theorem answered_none : Answered w none w' := fun _ h => nomatch h

/-- What is said before the answer does not count, as long as it is no ReadyForQuery. -/
theorem Answered.after {o : Option Session} (h : Answered w₁ o w') (hw : Tells w.opened w ms w₁)
    (hms : ∀ x ∈ ms, x.isReady = false) : Answered w o w' := fun s' hs => ⟨(h s' hs).1, (h s' hs).2.after hw hms⟩

theorem Session.Drained.answered (h : s.Drained w) (hw : Replied w w') : Answered w (some s) w' := by
  rintro _ ⟨⟩
  obtain ⟨out, ht, ho⟩ := hw
  exact ⟨h.tells ht, out, ht, ho⟩

/-! ### The calls -/

theorem after_send (m : ToClient) : After (listeningService P) (send m) w fun b w' => b ∧ Tells w.opened w [m] w' :=
  after_call fun _ => after_pure ⟨rfl, le_rfl, fun _ _ h => h, rfl⟩

theorem after_writePgError (code text : String) (cause : Option RouterError) :
    After (listeningService P) (writePgError code text cause) w fun _ w' =>
      ∃ m, m.isReady = false ∧ Tells w.opened w [m] w' :=
  (after_send _).bind fun _ _ h => after_pure ⟨_, rfl, h.2⟩

theorem after_sendReady (status : Char) : After (listeningService P) (sendReady status) w fun b w' => b ∧
    Replied w w' :=
  (after_send _).mono fun _ _ h => ⟨h.1, _, h.2, endsOnce_singleton rfl⟩

theorem after_current : After (listeningService P) current w fun _ w' => Tells w.opened w [] w' := by
  refine after_call fun c => after_pure ?_
  change Tells w.opened w [] (routerAnswer c .current w).2
  simp only [routerAnswer]
  split
  · exact ⟨le_rfl, fun _ _ h => h, by simp [Network.observe]⟩
  · exact ⟨le_rfl, fun _ _ h => h, by simp [Network.observe]⟩

theorem after_connect (addr : Str) : After (listeningService P) (connect addr) w fun r w' =>
    Tells w.opened w [] w' ∧ ∀ conn, r = .ok conn → Idle conn w' ∧ conn.id = w.opened := by
  refine after_call fun c => after_pure ?_
  change Tells _ w [] (routerAnswer c (.connect addr) w).2 ∧ ∀ conn, (routerAnswer c (.connect addr) w).1 = _ →
    Idle conn (routerAnswer c (.connect addr) w).2 ∧ _
  simp only [routerAnswer]
  split
  · refine ⟨⟨Nat.le_succ _, ?_, by simp [Network.connect]⟩, ?_⟩
    · intro c hc hw
      have hne : c ≠ ⟨addr, w.opened⟩ := by
        rintro rfl
        exact lt_irrefl _ hc
      simpa [Network.connect, update_of_ne hne] using hw
    · rintro _ ⟨⟩
      exact ⟨⟨Nat.lt_succ_self _, by simp [Network.connect]⟩, rfl⟩
  · refine ⟨.refl _, ?_⟩
    intro conn hok
    cases hok

theorem after_writeConn (m : PgMessage) : After (listeningService P) (writeConn conn m) w fun r w' =>
    (∃ c, w' = w.deliver c conn m) ∨ r ≠ .ok () ∧ w' = w := by
  refine after_call fun c => after_pure ?_
  change (∃ p, (routerAnswer c (.write conn m) w).2 = _) ∨ (routerAnswer c (.write conn m) w).1 ≠ _ ∧
    (routerAnswer c (.write conn m) w).2 = w
  simp only [routerAnswer]
  split
  · exact .inl ⟨_, rfl⟩
  · refine .inr ⟨?_, rfl⟩
    intro hok
    cases hok

/-- A request was written to the connection: its replies are unread, and end with the one ReadyForQuery. -/
structure Asked (conn : Conn) (w w' : Network P) : Prop where
  opened : w'.opened = w.opened
  sent : w'.sent = w.sent
  queues : ∀ c, c ≠ conn → w'.queues c = w.queues c
  ready : (splitReady (w'.queues conn)).2 = []

theorem after_replies (h : Asked conn w w₁) :
    After (listeningService P) (replies conn) w₁ fun _ w' => Tells w.opened w [] w' := by
  refine after_call fun c => after_pure ⟨h.opened.ge, ?_, h.sent.trans (append_nil _).symm⟩
  intro c _ hc
  by_cases hcn : c = conn
  · subst hcn
    exact (update_self ..).trans h.ready
  · exact (update_of_ne hcn ..).trans ((h.queues c hcn).trans hc)

section

variable (hP : P.Answers)
include hP

/-- A batch with its Sync at the end asks the server for one ReadyForQuery. -/
theorem after_writeAll {ms : List PgMessage} (hms : EndsOnce isRequest ms)
    (hcn : ∀ x ∈ w.queues conn, x.isReady = false) :
    After (listeningService P) (writeAll conn ms) w fun b w' => b → Asked conn w w' := by
  obtain ⟨body, z, rfl, hz, hbd⟩ := hms
  have hq (c : P.Choice) (m : PgMessage) (w : Network P) :
      (w.deliver c conn m).queues conn = w.queues conn ++ (P.receive c m (w.states conn)).2 := update_self ..
  induction body generalizing w with
  | nil =>
    refine (after_writeConn z).bind fun r w₁ hr => ?_
    rcases hr with ⟨c, rfl⟩ | ⟨hr, rfl⟩
    · have hp := hP c z (w.states conn)
      rw [if_pos hz] at hp
      have ha : Asked conn w (w.deliver c conn z) := by
        refine ⟨rfl, rfl, fun c' hc => update_of_ne hc .., ?_⟩
        rw [hq]
        exact splitReady_of_endsOnce (hp.append hcn)
      split
      · exact after_pure fun h => nomatch h
      · exact after_pure fun _ => ha
    · split
      · exact after_pure fun h => nomatch h
      · exact absurd rfl hr
  | cons m body ih =>
    refine (after_writeConn m).bind fun r w₁ hr => ?_
    rcases hr with ⟨c, rfl⟩ | ⟨hr, rfl⟩
    · split
      · exact after_pure fun h => nomatch h
      · have hp := hP c m (w.states conn)
        rw [if_neg (by simp [hbd m (by simp)])] at hp
        refine (ih ?_ fun x hx => hbd x (by simp [hx])).mono ?_
        · intro x hx
          rw [hq] at hx
          rcases mem_append.1 hx with hx | hx
          · exact hcn x hx
          · exact hp x hx
        · intro b w' ha hb
          have h := ha hb
          exact ⟨h.opened, h.sent, fun c' hc => (h.queues c' hc).trans (update_of_ne hc ..), h.ready⟩
    · split
      · exact after_pure fun h => nomatch h
      · exact absurd rfl hr

end

/-! ### Relaying and pinning -/

theorem after_relay (n : Nat) (ms : List PgMessage) : After (listeningService P) (relay n ms) w fun b w' =>
    b → Replied w w' := by
  induction ms generalizing n w with
  | nil => exact after_pure fun h => nomatch h
  | cons m ms ih =>
    unfold relay
    split
    · exact ih _
    · refine (after_send _).bind fun ok w₁ hs => ?_
      obtain ⟨rfl, ht⟩ := hs
      rw [if_pos rfl]
      split
      · rename_i hm
        exact after_pure fun _ => ⟨_, ht, endsOnce_singleton (by simpa [ToClient.isReady, isReady] using hm)⟩
      · rename_i hm
        refine (ih n).mono fun b w' hr hb => (hr hb).after ht ?_
        simpa [ToClient.isReady, isReady] using hm

/-- The relay ends with the ReadyForQuery that was asked for. -/
theorem after_relayExtended (n : Nat) (h : Asked conn w w₁) :
    After (listeningService P) (relayExtended conn n) w₁ fun b w' =>
    b → Replied w w' :=
  (after_replies h).bind fun _ _ hr => (after_relay n _).mono fun _ _ hrs hb => (hrs hb).after hr (by simp)

/-- One request, one ReadyForQuery relayed. -/
theorem after_execAndRelay (hP : P.Answers) (hm : m.isRequest) (hc : Idle conn w) :
    After (listeningService P) (execAndRelay conn m) w fun b w' => b → Replied w w' := by
  have hq : ∀ x ∈ w.queues conn, x.isReady = false := by simp [hc.2]
  have hw := after_writeAll hP (endsOnce_singleton hm) hq
  intro b w' he
  obtain ⟨r, w₁, hr, he⟩ := ends_bind.1 he
  split at he
  · obtain ⟨rfl, -⟩ := ends_pure.1 he
    exact fun h => nomatch h
  · have ha : Asked conn w w₁ := hw true w₁ (ends_bind.2 ⟨_, w₁, hr, ends_pure.2 ⟨rfl, rfl⟩⟩) rfl
    exact after_relayExtended 0 ha b w' he

/-- The held BEGIN is answered to nobody: its ReadyForQuery is consumed. -/
theorem after_pinTo (hP : P.Answers) (hm : s.pendingBegin.isRequest) (hc : Idle conn w) :
    After (listeningService P) (pinTo s conn) w fun r w' =>
      ∀ s', r = .ok s' → s' = { s with txBackend := some conn } ∧ Tells w.opened w [] w' := by
  have hq : ∀ x ∈ w.queues conn, x.isReady = false := by simp [hc.2]
  have hw := after_writeAll hP (endsOnce_singleton hm) hq
  intro r w' he
  obtain ⟨x, w₁, hx, he⟩ := ends_bind.1 he
  split at he
  · obtain ⟨rfl, -⟩ := ends_pure.1 he
    exact fun _ h => nomatch h
  · have ha : Asked conn w w₁ := hw true w₁ (ends_bind.2 ⟨_, w₁, hx, ends_pure.2 ⟨rfl, rfl⟩⟩) rfl
    obtain ⟨y, w₂, hd, he⟩ := ends_bind.1 he
    obtain ⟨z, w₃, hr, hp⟩ := ends_bind.1 hd
    obtain ⟨-, rfl⟩ := ends_pure.1 hp
    have ht : Tells w.opened w [] w₂ := after_replies ha _ _ hr
    split at he
    · obtain ⟨rfl, -⟩ := ends_pure.1 he
      exact fun _ h => nomatch h
    · obtain ⟨rfl, rfl⟩ := ends_pure.1 he
      rintro _ ⟨⟩
      exact ⟨rfl, ht⟩

theorem after_backendFor (addr : Str) (hs : s.Drained w) :
    After (listeningService P) (backendFor s addr) w fun r w' =>
    Tells w.opened w [] w' ∧ ∀ conn s', r = .ok (conn, s') → s'.Drained w' ∧ Idle conn w' ∧ s'.inTx = s.inTx := by
  unfold backendFor
  split
  · rename_i conn hc
    refine after_pure ⟨.refl w, ?_⟩
    rintro _ _ ⟨⟩
    exact ⟨hs, hs.backends addr conn hc, rfl⟩
  · refine (after_connect addr).bind fun r w₁ hr => ?_
    obtain ⟨ht, hid⟩ := hr
    split
    · exact after_pure ⟨ht, nofun⟩
    · rename_i conn
      have hc : Idle conn w₁ := (hid conn rfl).1
      have hs' := hs.tells ht
      refine after_pure ⟨ht, ?_⟩
      rintro _ _ ⟨⟩
      refine ⟨⟨?_, hs'.pinned, hs'.begins, hs'.parses, hs'.buffer⟩, hc, rfl⟩
      intro addr' conn' h
      rw [Session.addBackend_backends] at h
      by_cases ha : addr' = addr
      · subst ha
        rw [update_self] at h
        cases h
        exact hc
      · rw [update_of_ne ha] at h
        exact hs'.backends addr' conn' h

theorem Session.Drained.pin (hs : s.Drained w) (h : s.pin = some conn) : Idle conn w := by
  unfold Session.pin at h
  split at h
  · exact hs.pinned conn h
  · cases h

theorem Session.Drained.pinned_to (hs : s.Drained w) (hc : Idle conn w) :
    Session.Drained { s with txBackend := some conn } w :=
  ⟨hs.backends, fun _ h => by cases h; exact hc, hs.begins, hs.parses, hs.buffer⟩

theorem after_backendForRouted (hP : P.Answers) (d : RouteDecision) (hs : s.Drained w) :
    After (listeningService P) (backendForRouted s d) w fun r w' =>
      ∀ conn s', r = .ok (conn, s') → Tells w.opened w [] w' ∧ s'.Drained w' ∧ Idle conn w' := by
  unfold backendForRouted
  split
  · rename_i conn hpin
    refine after_pure ?_
    rintro _ _ ⟨⟩
    exact ⟨.refl w, hs, hs.pin hpin⟩
  · refine (after_backendFor _ hs).bind fun r w₁ hr => ?_
    obtain ⟨ht, hr⟩ := hr
    split
    · exact after_pure nofun
    · rename_i conn s₁
      obtain ⟨hs₁, hc, hin⟩ := hr conn s₁ rfl
      split
      · rename_i htx
        refine (after_pinTo hP (hs₁.begins htx) hc).bind fun r w₂ hr => ?_
        split
        · exact after_pure nofun
        · exact after_pure nofun
        · rename_i s₂
          obtain ⟨rfl, ht'⟩ := hr s₂ rfl
          refine after_pure ?_
          rintro _ _ ⟨⟩
          exact ⟨ht.trans (ht'.mono ht.opened), (hs₁.pinned_to hc).tells ht', hc.tells ht'⟩
      · refine after_pure ?_
        rintro _ _ ⟨⟩
        exact ⟨ht, hs₁, hc⟩

/-! ### Answers of the router's own -/

theorem after_queryError (code text : String) (cause : Option RouterError) (hs : s.Drained w) :
    After (listeningService P) (queryError s code text cause) w (Answered w) := by
  refine (after_writePgError code text cause).bind fun _ w₁ h => ?_
  obtain ⟨m, hm, ht⟩ := h
  refine (after_sendReady _).bind fun _ w₂ h => after_pure ?_
  exact hs.answered (h.2.after ht (by simpa using hm))

theorem after_sendReadyIdle (hs : s.Drained w) : After (listeningService P) (sendReadyIdle s) w (Answered w) := by
  refine (after_sendReady _).bind fun b w₁ h => ?_
  rw [if_pos h.1]
  exact after_pure (hs.answered h.2)

theorem after_extError (code : String) (text : Str) (cause : Option RouterError) (hs : s.Drained w) :
    After (listeningService P) (extError s code text cause) w (Answered w) := by
  refine (after_send _).bind fun _ w₁ h => ?_
  exact (after_sendReadyIdle (hs.tells h.2)).mono fun _ _ ha => ha.after h.2 (forall_mem_singleton.2 rfl)

theorem after_synthExtendedAcks (batch : List PgMessage) (hs : s.Drained w) :
    After (listeningService P) (synthExtendedAcks s batch) w (Answered w) := by
  induction batch generalizing s w with
  | nil => exact after_sendReadyIdle hs
  | cons m batch ih =>
    unfold synthExtendedAcks
    split
    · refine (after_send _).bind fun b w₁ h => ?_
      rw [if_pos h.1]
      exact (ih (hs.tells h.2)).mono fun _ _ ha => ha.after h.2 (forall_mem_singleton.2 rfl)
    · split
      · refine (after_send _).bind fun b w₁ h => ?_
        rw [if_pos h.1]
        have hc : (s.handleClose m).Drained w₁ := by
          have hs' := hs.tells h.2
          unfold Session.handleClose
          split
          · exact hs'
          · rename_i name _
            refine ⟨hs'.backends, hs'.pinned, hs'.begins, ?_, hs'.buffer⟩
            intro name' st hst
            by_cases hn : name' = name
            · simp [hn] at hst
            · exact hs'.parses name' st (by simpa [update_of_ne hn] using hst)
        exact (ih hc).mono fun _ _ ha => ha.after h.2 (forall_mem_singleton.2 rfl)
      · exact ih hs

/-! ### Scatter -/

theorem after_scatterOne (m : PgMessage) (backend : Str) :
    After (listeningService P) (scatterOne m backend) w fun _ w' => Tells w.opened w [] w' := by
  refine (after_connect backend).bind fun r w₁ hr => ?_
  obtain ⟨ht, hcn⟩ := hr
  split
  · exact after_pure ht
  · rename_i conn
    have hid : conn.id = w.opened := (hcn conn rfl).2
    refine (after_writeConn _).bind fun r w₂ hr => ?_
    have ht₂ : Tells w.opened w [] w₂ := by
      rcases hr with ⟨c, rfl⟩ | ⟨-, rfl⟩
      · refine ⟨ht.opened, ?_, ht.sent⟩
        intro c hc hw
        have hne : c ≠ conn := by
          rintro rfl
          omega
        exact (update_of_ne hne ..).trans (ht.queues c hc hw)
      · exact ht
    split
    · exact after_pure ht₂
    · have hrd : After (listeningService P) (replies conn) w₂ fun _ w' => Tells w.opened w [] w' := by
        refine after_call fun c => after_pure ⟨ht₂.opened, ?_, ht₂.sent⟩
        intro c hc hw
        have hne : c ≠ conn := by
          rintro rfl
          omega
        exact (update_of_ne hne ..).trans (ht₂.queues c hc hw)
      refine hrd.bind fun r w₃ h₃ => ?_
      split
      · exact after_pure h₃
      · exact after_pure h₃

theorem after_scatterEach (m : PgMessage) (shards : List (Str × Str)) :
    After (listeningService P) (scatterEach m shards) w fun _ w' => Tells w.opened w [] w' := by
  induction shards generalizing w with
  | nil => exact after_pure (.refl w)
  | cons x shards ih =>
    refine (after_scatterOne m x.2).bind fun r w₁ h₁ => ?_
    exact ih.bind fun rs w₂ h₂ => after_pure (h₁.trans (h₂.mono h₁.opened))

theorem after_scatterClientError (text : Str) (cause : Option RouterError) :
    After (listeningService P) (scatterClientError text cause) w fun _ w' => Replied w w' := by
  refine (after_send _).bind fun _ w₁ h => (after_sendReady _).bind fun _ w₂ h' => after_pure ?_
  exact h'.2.after h.2 (forall_mem_singleton.2 rfl)

theorem after_sendWhile (ms : List ToClient) :
    After (listeningService P) (sendWhile ms) w fun b w' => b ∧ Tells w.opened w ms w' := by
  induction ms generalizing w with
  | nil => exact after_pure ⟨rfl, .refl w⟩
  | cons m ms ih =>
    refine (after_send m).bind fun b w₁ h => ?_
    rw [if_pos h.1]
    exact ih.mono fun _ _ h' => ⟨h'.1, h.2.trans (h'.2.mono h.2.opened)⟩

/-- A scatter answers with one ReadyForQuery of the router's own, however many shards it asks. -/
theorem after_scatterQuery (m : PgMessage) :
    After (listeningService P) (scatterQuery cfg m) w fun _ w' => Replied w w' := by
  have hs : After (listeningService P) (allShards cfg) w fun _ w' => Tells w.opened w [] w' := by
    refine after_current.bind fun r w₁ h => ?_
    split
    · exact after_pure h
    · exact after_pure h
  refine hs.bind fun r w₁ h₁ => ?_
  have hf (text : Str) (cause : Option RouterError) {w₂ : Network P} (h₂ : Tells w.opened w [] w₂) :
      After (listeningService P) (scatterClientError text cause) w₂ fun _ w' => Replied w w' :=
    (after_scatterClientError text cause).mono fun _ _ h => h.after h₂ (by simp)
  split
  · exact hf _ _ h₁
  · exact hf _ _ h₁
  · refine (after_scatterEach m _).bind fun rs w₂ h₂ => ?_
    have h₂ : Tells w.opened w [] w₂ := h₁.trans (h₂.mono h₁.opened)
    split
    · exact hf _ _ h₂
    · refine (after_send _).bind fun _ w₃ h₃ => (after_sendReady _).bind fun _ w₄ h₄ => after_pure ?_
      exact (h₄.2.after h₃.2 (forall_mem_singleton.2 rfl)).after h₂ (by simp)
    · refine (after_sendWhile _).bind fun b w₃ h₃ => ?_
      rw [if_pos h₃.1]
      refine (after_send _).bind fun _ w₄ h₄ => (after_sendReady _).bind fun _ w₅ h₅ => after_pure ?_
      refine ((h₅.2.after h₄.2 (forall_mem_singleton.2 rfl)).after h₃.2 ?_).after h₂ (by simp)
      intro x hx
      rcases mem_append.1 hx with hx | hx
      · obtain ⟨rd, -, rfl⟩ := mem_map.1 hx
        rfl
      · obtain ⟨r, -, rfl⟩ := mem_map.1 hx
        rfl

/-! ### Queries -/

theorem after_goOn {p : RouterM Bool} (hs : s.Drained w)
    (hp : After (listeningService P) p w₁ fun b w' => b → Replied w w') :
    After (listeningService P) (do if ← p then pure (some s) else pure none) w₁ (Answered w) := by
  refine hp.bind fun b w₂ hb => ?_
  split
  · rename_i ht
    exact after_pure (hs.answered (hb ht))
  · exact after_pure answered_none

theorem after_forwardQuery (hP : P.Answers) (hm : m.isRequest) (d : RouteDecision)
    (hs : s.Drained w) : After (listeningService P) (forwardQuery s m d) w (Answered w) := by
  refine (after_backendFor d.backend hs).bind fun r w₁ hr => ?_
  obtain ⟨ht, hr⟩ := hr
  split
  · exact (after_writePgError _ _ _).bind fun _ _ _ => after_pure answered_none
  · rename_i conn s₁
    obtain ⟨hs₁, hc, -⟩ := hr conn s₁ rfl
    split
    · rename_i htx
      refine (after_pinTo hP (hs₁.begins htx) hc).bind fun r w₂ hr => ?_
      split
      · exact after_pure answered_none
      · exact (after_writePgError _ _ _).bind fun _ _ _ => after_pure answered_none
      · rename_i s₂
        obtain ⟨rfl, ht'⟩ := hr s₂ rfl
        have hs₂ := (hs₁.pinned_to hc).tells ht'
        refine (after_goOn hs₂ (after_execAndRelay hP hm (hc.tells ht'))).mono fun _ _ ha => ?_
        exact (ha.after ht' (by simp)).after ht (by simp)
    · exact (after_goOn hs₁ (after_execAndRelay hP hm hc)).mono fun _ _ ha => ha.after ht (by simp)

theorem after_withTopology (decide : Topology → RouteDecision × Option RouteError) :
    After (listeningService P) (withTopology decide) w fun _ w' => Tells w.opened w [] w' := by
  refine after_current.bind fun r w₁ h => ?_
  split
  · exact after_pure h
  · exact after_pure h

theorem after_routedQuery (hP : P.Answers) (hm : m.isRequest) (sql : Str) (d : RouteDecision)
    (e : Option RouterError) (hs : s.Drained w) :
    After (listeningService P) (routedQuery cfg s m sql d e) w (Answered w) := by
  unfold routedQuery
  split
  · split
    · exact after_queryError _ _ _ hs
    · split
      · exact after_queryError _ _ _ hs
      · exact (after_scatterQuery m).bind fun _ _ h => after_pure (hs.answered h)
  · split
    · exact after_queryError _ _ _ hs
    · exact after_queryError _ _ _ hs
    · exact after_queryError _ _ _ hs
    · exact after_forwardQuery hP hm d hs

/-- A simple query is answered once, on each of its paths. -/
theorem after_handleSimpleQuery (hP : P.Answers) (hm : m.isRequest) (hs : s.Drained w) :
    After (listeningService P) (handleSimpleQuery cfg s m) w (Answered w) := by
  unfold handleSimpleQuery
  split
  · exact (after_writePgError _ _ _).bind fun _ _ _ => after_pure answered_none
  · rename_i sql _
    split
    · rename_i conn hpin
      have he : (s.afterPinned (firstKeyword sql)).Drained w := by
        unfold Session.afterPinned
        split
        · exact ⟨hs.backends, nofun, nofun, hs.parses, hs.buffer⟩
        · exact hs
      exact after_goOn he (after_execAndRelay hP hm (hs.pin hpin))
    · split
      · have hb : Session.Drained { s with inTx := true, pendingBegin := m, txBackend := none } w :=
          ⟨hs.backends, nofun, fun _ => hm, hs.parses, hs.buffer⟩
        have hbg : After (listeningService P) fabricateBegin w fun b w' => b → Replied w w' := by
          refine (after_send _).bind fun b w₁ h => ?_
          rw [if_pos h.1]
          exact (after_sendReady _).mono fun _ _ h' _ => h'.2.after h.2 (forall_mem_singleton.2 rfl)
        exact after_goOn hb hbg
      · refine (after_withTopology _).bind fun x w₁ h => ?_
        exact (after_routedQuery hP hm sql x.1 x.2 (hs.tells h)).mono fun _ _ ha => ha.after h (by simp)

/-! ### Batches -/

theorem after_registerAll (batch : List PgMessage) (hs : s.Drained w) :
    After (listeningService P) (registerAll s batch) w fun s' w' => Tells w.opened w [] w' ∧ s'.Drained w' := by
  induction batch generalizing s w with
  | nil => exact after_pure ⟨.refl w, hs⟩
  | cons m batch ih =>
    unfold registerAll
    split
    · rename_i hP
      have ho : After (listeningService P) (registerParse s m) w fun s' w' => Tells w.opened w [] w' ∧
          s'.Drained w' := by
        unfold registerParse
        split
        · exact after_pure ⟨.refl w, hs⟩
        · refine After.bind (Q := fun _ w' => Tells w.opened w [] w') ?_ fun col w₁ h => after_pure ⟨h, ?_⟩
          · refine after_current.bind fun r w₁ h => ?_
            split
            · exact after_pure h
            · exact after_pure h
          · have hs' := hs.tells h
            refine ⟨hs'.backends, hs'.pinned, hs'.begins, ?_, hs'.buffer⟩
            intro name st hst
            rw [Session.register_stmts] at hst
            by_cases hn : name = parseStmtName m
            · subst hn
              rw [update_self] at hst
              cases hst
              exact isRequest_of_parse hP
            · rw [update_of_ne hn] at hst
              exact hs'.parses name st hst
      refine ho.bind fun s₁ w₁ h₁ => (ih h₁.2).mono fun s₂ w₂ h₂ => ⟨?_, h₂.2⟩
      exact h₁.1.trans (h₂.1.mono h₁.1.opened)
    · exact ih hs

theorem Session.Drained.markPrepared (hs : s.Drained w) (names : List Str) : (s.markPrepared conn names).Drained w :=
  ⟨hs.backends, hs.pinned, hs.begins, hs.parses, hs.buffer⟩

structure IsBatch (batch : List PgMessage) : Prop where
  once : EndsOnce PgMessage.isRequest batch
  sync : ∀ m ∈ batch, m.isRequest → m.type = 'S'

variable {batch : List PgMessage}

/-- An injected Parse leaves a batch a batch. -/
theorem IsBatch.execMessages (h : IsBatch batch) {injected : Option Pstmt}
    (hj : ∀ st ∈ injected, st.parseMsg.isRequest = false) :
    EndsOnce isRequest (execMessages injected batch) := by
  refine EndsOnce.append ?_ (endsOnce_singleton rfl)
  intro m hm
  simp only [mem_append, mem_map, Option.mem_toList, parsesOf, othersOf, mem_filter,
    decide_eq_true_eq] at hm
  rcases hm with (⟨st, hst, rfl⟩ | ⟨-, hm⟩) | ⟨hmm, -, hS⟩
  · exact hj st hst
  · exact isRequest_of_parse hm
  · exact eq_false_of_ne_true fun hr => hS (h.sync m hmm hr)

theorem after_forwardBatch (hP : P.Answers) (hbt : IsBatch batch) (name : Str) {st : Pstmt}
    (hst : st.parseMsg.isRequest = false) (hs : s.Drained w) (hc : Idle conn w) :
    After (listeningService P) (forwardBatch s conn batch name st) w (Answered w) := by
  have hj : ∀ st' ∈ s.injected conn batch name st, st'.parseMsg.isRequest = false := by
    intro st' hst'
    unfold Session.injected at hst'
    split at hst'
    · cases hst'
    · cases hst'
      exact hst
  refine (after_writeAll hP (hbt.execMessages hj) (by simp [hc.2])).bind fun b w₁ hb => ?_
  split
  · rename_i ht
    exact after_goOn (hs.markPrepared _) (after_relayExtended _ (hb ht))
  · exact after_pure answered_none

theorem after_runExtendedExec (hP : P.Answers) (hb : IsBatch batch) (bind : PgMessage)
    (hs : s.Drained w) : After (listeningService P) (runExtendedExec cfg s batch bind) w (Answered w) := by
  unfold runExtendedExec
  split
  · exact after_extError _ _ _ hs
  · rename_i st hst
    have hrt : After (listeningService P) (routeBind cfg st bind) w fun _ w' => Tells w.opened w [] w' := by
      unfold routeBind
      split
      · split
        · exact after_pure (.refl w)
        · exact (after_withTopology _).bind fun _ _ h => after_pure h
      · exact (after_withTopology _).bind fun _ _ h => after_pure h
    refine hrt.bind fun r w₁ h => ?_
    have hs₁ := hs.tells h
    have he (code : String) (text : Str) (cause : Option RouterError) :
        After (listeningService P) (extError s code text cause) w₁ (Answered w) :=
      (after_extError code text cause hs₁).mono fun _ _ ha => ha.after h (by simp)
    split
    · exact he _ _ _
    · split
      · exact he _ _ _
      · split
        · exact he _ _ _
        · refine (after_backendForRouted hP _ hs₁).bind fun r w₂ hr => ?_
          split
          · exact (after_writePgError _ _ _).bind fun _ _ _ => after_pure answered_none
          · rename_i conn s₂
            obtain ⟨h₂, hs₂, hc⟩ := hr conn s₂ rfl
            refine (after_forwardBatch hP hb _ (hs.parses _ st hst) hs₂ hc).mono fun _ _ ha => ?_
            exact (ha.after h₂ (by simp)).after h (by simp)

theorem after_describeBackend (hs : s.Drained w) : After (listeningService P) (describeBackend cfg s) w fun r w' =>
    Tells w.opened w [] w' ∧ ∀ conn s', r = .ok (conn, s') → s'.Drained w' ∧ Idle conn w' := by
  unfold describeBackend
  split
  · rename_i conn hpin
    refine after_pure ⟨.refl w, ?_⟩
    rintro _ _ ⟨⟩
    exact ⟨hs, hs.pin hpin⟩
  · have ha : After (listeningService P) (anyShard cfg) w fun _ w' => Tells w.opened w [] w' := by
      refine after_current.bind fun r w₁ h => ?_
      split
      · exact after_pure h
      · split
        · exact after_pure h
        · exact after_pure h
    refine ha.bind fun r w₁ h => ?_
    split
    · exact after_pure ⟨h, nofun⟩
    · refine (after_backendFor _ (hs.tells h)).bind fun r w₂ hr => ?_
      have h₂ := h.trans (hr.1.mono h.opened)
      split
      · exact after_pure ⟨h₂, nofun⟩
      · rename_i x
        refine after_pure ⟨h₂, ?_⟩
        rintro conn s' ⟨⟩
        exact ⟨(hr.2 conn s' rfl).1, (hr.2 conn s' rfl).2.1⟩

theorem after_runDescribeOnly (hP : P.Answers) (hbt : IsBatch batch) (hs : s.Drained w) :
    After (listeningService P) (runDescribeOnly cfg s batch) w (Answered w) := by
  refine (after_describeBackend hs).bind fun r w₁ hr => ?_
  obtain ⟨h, hr⟩ := hr
  split
  · exact (after_extError _ _ _ (hs.tells h)).mono fun _ _ ha => ha.after h (by simp)
  · rename_i conn s₁
    obtain ⟨hs₁, hc⟩ := hr conn s₁ rfl
    refine (after_writeAll hP hbt.once (by simp [hc.2])).bind fun b w₂ hb => ?_
    split
    · rename_i ht
      have hm : (s₁.markPrepared conn ((parsesOf batch).map parseStmtName)).Drained w₁ := hs₁.markPrepared _
      have hgo := after_goOn hm (after_relayExtended 0 (hb ht))
      exact hgo.mono fun _ _ ha => ha.after h (by simp)
    · exact after_pure answered_none

/-- A batch is answered once, on each of its paths. -/
theorem after_runBatch (hP : P.Answers) (hb : IsBatch batch) (hs : s.Drained w) :
    After (listeningService P) (runBatch cfg s batch) w (Answered w) := by
  refine (after_registerAll batch hs).bind fun s₁ w₁ h => ?_
  obtain ⟨h, hs₁⟩ := h
  split
  · exact (after_runExtendedExec hP hb _ hs₁).mono fun _ _ ha => ha.after h (by simp)
  · split
    · exact (after_runDescribeOnly hP hb hs₁).mono fun _ _ ha => ha.after h (by simp)
    · exact (after_synthExtendedAcks batch hs₁).mono fun _ _ ha => ha.after h (by simp)

/-! ### Messages -/

/-- The spec of one message: requests are answered once, the others not at all, and no answer is left over. -/
theorem after_serveMessage (hP : P.Answers) (m : PgMessage) (hs : s.Drained w) :
    After (listeningService P) (serveMessage cfg s m) w fun o w' =>
      ∀ s', o = some s' → s'.Drained w' ∧ if m.isRequest then Replied w w' else w' = w := by
  unfold serveMessage
  have hsto {o : Option Session} {w' : Network P} (ho : o = none) :
      ∀ s', o = some s' → s'.Drained w' ∧ if m.isRequest then Replied w w' else w' = w := by
    subst ho
    exact nofun
  split
  · exact after_pure (hsto rfl)
  · split
    · rename_i hQ
      have hm : m.isRequest := by simp [isRequest, hQ]
      simp only [hm, if_true]
      exact after_handleSimpleQuery hP hm hs
    · rename_i hQ
      split
      · rename_i he
        have hm : m.isRequest = false := by
          have hS : m.type ≠ 'S' := fun h => absurd (h ▸ he) (by decide)
          simp [isRequest, hQ, hS]
        refine after_pure ?_
        rintro _ ⟨⟩
        rw [hm]
        refine ⟨⟨hs.backends, hs.pinned, hs.begins, hs.parses, ?_⟩, rfl⟩
        intro x hx
        rcases mem_append.1 hx with hx | hx
        · exact hs.buffer x hx
        · rw [mem_singleton.1 hx]
          exact hm
      · split
        · rename_i hS
          have hm : m.isRequest := by simp [isRequest, hS]
          have hb : IsBatch (s.extBuf ++ [m]) := by
            refine ⟨(endsOnce_singleton hm).append hs.buffer, ?_⟩
            intro x hx hr
            rcases mem_append.1 hx with hx | hx
            · rw [hs.buffer x hx] at hr
              cases hr
            · rw [mem_singleton.1 hx]
              exact hS
          simp only [hm, if_true]
          exact after_runBatch hP hb ⟨hs.backends, hs.pinned, hs.begins, hs.parses, by simp⟩
        · exact (after_send _).bind fun _ _ _ => after_pure (hsto rfl)

/-! ### The write deadline -/

/-- The surroundings of a session with a clock, in milliseconds, and the write deadline of the client connection;
`late` if something was written to the client after it. -/
structure Clocked (P : Peer) where
  net : Network P := {}
  now : Nat := 0
  deadline : Option Nat := none
  late : Bool := false

def Clocked.pass (w : Clocked P) (ms : Nat) : Clocked P := { w with now := w.now + ms }

/-- A write to the client.  An ErrorResponse of `writePgError` is written after the deadline was set anew; any other
message fails when the deadline has passed. -/
def Clocked.send (w : Clocked P) (m : ToClient) : Bool × Clocked P :=
  match m with
  | .error .. => (true, { w with net := w.net.send m, deadline := some (w.now + 2000) })
  | _ =>
    if w.deadline.any (· ≤ w.now) then (false, { w with late := true }) else (true, { w with net := w.net.send m })

variable (P) in
/-- The surroundings of a session whose client reads everything, with the time that passes before a call is
answered. -/
def clockedService : Service routerCalls (Clocked P) where
  Choice := RouterChoice P × Nat
  answer := fun c r w => match r with
    | .send m => (w.pass c.2).send m
    | r => ((routerAnswer c.1 r w.net).1, { w.pass c.2 with net := (routerAnswer c.1 r w.net).2 })
  Event := Empty
  happen := fun e _ => nomatch e

theorem Clocked.send_inTime {w : Clocked P} {m : ToClient} (h : (w.send m).2.late = false) :
    w.late = false ∧ (w.send m).1 = true ∧ (w.send m).2.net = w.net.send m := by
  unfold Clocked.send at h ⊢
  split at h
  · exact ⟨h, rfl, rfl⟩
  · split at h
    · cases h
    · rename_i hp
      rw [if_neg hp]
      exact ⟨h, rfl, rfl⟩

/-- Without a late write the clock makes no difference. -/
theorem ends_listening {α : Type} {p : RouterM α} {w w' : Clocked P} {a : α} (h : Ends (clockedService P) p w a w')
    (hl : w'.late = false) : w.late = false ∧ Ends (listeningService P) p w.net a w'.net := by
  induction p generalizing w with
  | pure b =>
    obtain ⟨rfl, rfl⟩ := ends_pure.1 h
    exact ⟨hl, ends_pure.2 ⟨rfl, rfl⟩⟩
  | call r k ih =>
    obtain ⟨c, hk⟩ := ends_call.1 h
    obtain ⟨hl', hk'⟩ := ih _ hk
    cases r with
    | send m =>
      obtain ⟨hlw, hb, hn⟩ := Clocked.send_inTime (w := w.pass c.2) hl'
      refine ⟨hlw, ends_call.2 ⟨c.1, ?_⟩⟩
      change Ends _ (k ((w.pass c.2).send m).1) ((w.pass c.2).send m).2.net a w'.net at hk'
      rw [hn, hb] at hk'
      exact hk'
    | current | connect | write | replies => exact ⟨hl', ends_call.2 ⟨c.1, hk'⟩⟩

/-! ### Runs -/

/-- What a message does if the session goes on: a Query or a Sync is answered by messages that end with the one
ReadyForQuery among them, any other message by none, and no reply of a backend is left unread. -/
def OneReady : StepProp Session PgMessage (Clocked P) := fun _ w m o w' => ∀ s', o = some s' →
  (if m.isRequest then ∃ out, w'.net.sent = w.net.sent ++ out ∧ EndsOnce ToClient.isReady out
    else w'.net.sent = w.net.sent) ∧
    ∀ conn, (∃ addr, s'.backends addr = some conn) ∨ s'.txBackend = some conn → w'.net.queues conn = []

/-- The step wrote nothing to the client after the deadline. -/
def InTime : StepProp Session PgMessage (Clocked P) := fun _ _ _ _ w' => w'.late = false

def Balanced (h : Served Session PgMessage (Clocked P)) (s : Session) : Prop :=
  s.Drained h.world.2.net ∧ h.world.2.net.sent.countP ToClient.isReady = h.messages.countP PgMessage.isRequest

/-- Step lemma: each message keeps the answers in balance with the requests. -/
theorem Balanced.step (hP : P.Answers) {h : Served Session PgMessage (Clocked P)}
    {x : Option Session × Clocked P} (hv : Balanced h s)
    (he : Ends (listeningService P) (serveMessage cfg s m) h.world.2.net x.1 x.2.net) :
    OneReady s h.world.2 m x.1 x.2 ∧ ∀ s', x.1 = some s' → Balanced (h.step m x) s' := by
  have ha := after_serveMessage hP m hv.1 _ _ he
  refine ⟨?_, ?_⟩
  · intro s' hs'
    obtain ⟨hd, hs⟩ := ha s' hs'
    refine ⟨?_, ?_⟩
    · split at hs
      · rename_i hm
        obtain ⟨out, ht, ho⟩ := hs
        rw [if_pos hm]
        exact ⟨out, ht.sent, ho⟩
      · rename_i hm
        rw [if_neg hm, hs]
    · rintro conn (⟨addr, hc⟩ | hc)
      · exact (hd.backends addr conn hc).2
      · exact (hd.pinned conn hc).2
  · intro s' hs'
    obtain ⟨hd, hs⟩ := ha s' hs'
    refine ⟨hd, ?_⟩
    change x.2.net.sent.countP _ = (h.messages ++ [m]).countP _
    rw [countP_append, ← hv.2]
    split at hs
    · rename_i hm
      obtain ⟨out, ht, ho⟩ := hs
      rw [ht.sent, countP_append, ho.countP]
      simp [hm]
    · rename_i hm
      rw [hs]
      simp [hm]

/-- As long as a session is open, and nothing was written to the client after the deadline of an earlier error, every
Query and every Sync has been answered by one ReadyForQuery, at the end of what was sent for it. -/
theorem one_ready_per_request (hP : P.Answers) (cfg : RouterConfig) {h : Served Session PgMessage (Clocked P)}
    (hrun : (serveMessage cfg).IsRun (clockedService P) {} {} h) (hintime : h.Always InTime) :
    h.Always OneReady ∧ (h.world.1 ≠ none →
      h.world.2.net.sent.countP ToClient.isReady = h.messages.countP PgMessage.isRequest) := by
  have hini : Session.Drained {} ({} : Network P) := ⟨nofun, nofun, nofun, nofun, nofun⟩
  have hstep : ∀ (h : Served Session PgMessage (Clocked P)) s m x, h.world.1 = some s → Balanced h s →
      Ends (clockedService P) (serveMessage cfg s m) h.world.2 x.1 x.2 →
      (∀ s, h.world.1 = some s → InTime s h.world.2 m x.1 x.2) →
      (∀ s, h.world.1 = some s → OneReady s h.world.2 m x.1 x.2) ∧ ∀ s', x.1 = some s' →
        Balanced (h.step m x) s' := by
    intro h s m x hs hv he hl
    obtain ⟨hr, hb⟩ := hv.step hP (ends_listening he (hl s hs)).2
    refine ⟨?_, hb⟩
    intro s₁ hs₁
    rwa [← Option.some.inj (hs.symm.trans hs₁)]
  obtain ⟨hste, hv⟩ := Server.IsRun.steps Balanced ⟨hini, rfl⟩ hstep hrun hintime
  refine ⟨hste, fun ho => ?_⟩
  obtain ⟨s, hs⟩ := Option.ne_none_iff_exists'.1 ho
  exact (hv s hs).2

theorem readyPeer_answers : readyPeer.Answers := by
  intro c m st
  by_cases hm : m.type = 'Q' ∨ m.type = 'S'
  · simpa [isRequest, readyPeer, hm] using endsOnce_singleton rfl
  · simp [isRequest, readyPeer, hm]

def updateAll : PgMessage := queryMessage "UPDATE orders SET v = 1"

/-- An UPDATE without a routing key, which is refused, and after `ms` milliseconds a SELECT of all shards. -/
def refusedThenScattered (ms : Nat) : List (PgMessage × List (RouterChoice readyPeer × Nat)) :=
  [(updateAll, (answers (twoTenants false) 3).map (·, 0)),
    (selectAll, ({ topology := some (twoTenants false) }, ms) :: (answers (twoTenants false) 9).map (·, 0))]

def replayClocked (ms : Nat) : Option (Served Session PgMessage (Clocked readyPeer)) :=
  (serveMessage primaries).replay (clockedService readyPeer) (.start (some {}, {})) (refusedThenScattered ms)

/-- One second after the refused UPDATE the deadline has not passed. -/
theorem one_ready_per_request_second : ∃ h : Served Session PgMessage (Clocked readyPeer),
    (serveMessage primaries).IsRun (clockedService readyPeer) {} {} h ∧ h.Always InTime ∧ h.Always OneReady ∧
      h.messages = [updateAll, selectAll] ∧ h.world.2.net.sent.countP ToClient.isReady = 2 := by
  obtain ⟨h, hr, hf⟩ := Option.map_eq_some_iff.1 (show (replayClocked 1000).map (fun h =>
    (decide (h.Steps fun _ _ x => x.2.late = false), h.messages, h.world.2.net.sent.countP ToClient.isReady)) =
      some (true, [updateAll, selectAll], 2) by decide +kernel)
  simp only [Prod.mk.injEq, decide_eq_true_eq] at hf
  obtain ⟨hl, hs, hc⟩ := hf
  have hn := Server.isRun_replay Server.isRun_start hr
  have hi : h.Always InTime := hl.mono fun _ _ _ h _ _ => h
  exact ⟨h, hn, hi, (one_ready_per_request readyPeer_answers primaries hn hi).1, hs, hc⟩

/-- Three seconds after the refused UPDATE the deadline has passed: nothing of the answer to the SELECT is sent, and
the session goes on. -/
theorem second_request_not_answered : ∃ h : Served Session PgMessage (Clocked readyPeer),
    (serveMessage primaries).IsRun (clockedService readyPeer) {} {} h ∧ h.world.1.isSome ∧
      h.messages = [updateAll, selectAll] ∧ h.world.2.net.sent.countP ToClient.isReady = 1 := by
  obtain ⟨h, hr, hf⟩ := Option.map_eq_some_iff.1 (show (replayClocked 3000).map (fun h =>
    (h.world.1.isSome, h.messages, h.world.2.net.sent.countP ToClient.isReady)) =
      some (true, [updateAll, selectAll], 1) by decide +kernel)
  simp only [Prod.mk.injEq] at hf
  exact ⟨h, Server.isRun_replay Server.isRun_start hr, hf.1, hf.2.1, hf.2.2⟩

end PostgresOperator
