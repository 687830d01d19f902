import PostgresOperator.PgRouter.Network

/-!
# What a message can lead to

`QueryOutcome` and `BatchOutcome` list how a simple query and an extended batch can end, with what was written to
which connection and the state of the session afterwards.

`ends_serveMessage` is the only statement about the code of the handlers that the later modules need.  It is put
together from one lemma for each handler, and these from the lemmas of `Network.lean`.
-/

namespace PostgresOperator

open Go Calls List Option Function

variable {P : Peer} {cfg : RouterConfig} {w w' : Network P}

/-! ### Scatter -/

/-- Queries with the text of `m` were written to connections opened for them, and nothing else reached a backend. -/
structure Scattered (cfg : RouterConfig) (m : PgMessage) (w w' : Network P) : Prop where
  states : ∀ c : Conn, c.id < w.opened → w'.states c = w.states c
  opened : w.opened ≤ w'.opened
  observed : ∃ rs, w'.observed = rs ++ w.observed
  written : ∃ new, w'.written = w.written ++ new ∧ ∀ x ∈ new, x.message = ⟨'Q', m.payload⟩ ∧
    w.opened ≤ x.conn.id ∧ x.before = P.init ∧ x.seen = w'.seen ∧ ∃ shard, cfg.write shard = .ok x.conn.addr
  sent : ∃ ms, w'.sent = w.sent ++ ms ∧ failedReady ∉ ms

theorem Says.scattered {ms : List ToClient} (h : Says w ms w') (hms : failedReady ∉ ms) (m : PgMessage) :
    Scattered cfg m w w' where
  states c _ := by rw [h.states]
  opened := h.opened.ge
  observed := ⟨[], h.observed⟩
  written := ⟨[], by rw [h.written, append_nil], by simp⟩
  sent := ⟨ms, h.sent, hms⟩

theorem scattered_refl (m : PgMessage) (w : Network P) : Scattered cfg m w w := (Says.refl w).scattered (by simp) m

variable {m : PgMessage} {w₁ : Network P}

theorem Scattered.trans {w₂ : Network P} (h : Scattered cfg m w w₁) (h' : Scattered cfg m w₁ w₂)
    (hobs : w₂.observed = w₁.observed) : Scattered cfg m w w₂ where
  states c hc := by rw [h'.states c (by have := h.opened; omega), h.states c hc]
  opened := h.opened.trans h'.opened
  observed := by rw [hobs]; exact h.observed
  written := by
    obtain ⟨new, hw, hn⟩ := h.written
    obtain ⟨new', hw', hn'⟩ := h'.written
    refine ⟨new ++ new', by rw [hw', hw, append_assoc], ?_⟩
    intro x hx
    rcases mem_append.1 hx with hx | hx
    · obtain ⟨hm, hid, hb, hs, ha⟩ := hn x hx
      exact ⟨hm, hid, hb, hs.trans (by rw [Network.seen, Network.seen, hobs]), ha⟩
    · obtain ⟨hm, hid, hr⟩ := hn' x hx
      exact ⟨hm, h.opened.trans hid, hr⟩
  sent := by
    obtain ⟨ms, hs, hms⟩ := h.sent
    obtain ⟨ms', hs', hms'⟩ := h'.sent
    refine ⟨ms ++ ms', by rw [hs', hs, append_assoc], ?_⟩
    rw [mem_append]
    rintro (hx | hx)
    · exact hms hx
    · exact hms' hx

theorem ends_scatterOne {shard backend : Str} (hs : cfg.write shard = .ok backend)
    {r : Except Str ShardResult} (h : Ends (routerService P) (scatterOne m backend) w r w') :
    Scattered cfg m w w' ∧ w'.observed = w.observed := by
  have hsl : Scattered cfg m w w ∧ w.observed = w.observed := ⟨scattered_refl m w, rfl⟩
  obtain ⟨x, w₁, hcn, hk⟩ := ends_bind.1 h
  rcases ends_connect hcn with ⟨e, rfl, rfl⟩ | ⟨rfl, rfl⟩
  · obtain ⟨-, rfl⟩ := ends_pure.1 hk
    exact hsl
  · -- the connection is new, so no state of an old one changes
    have hne : ∀ c : Conn, c.id < w.opened → c ≠ ⟨backend, w.opened⟩ := by
      rintro c hc rfl
      exact absurd hc (lt_irrefl _)
    have ho : Scattered cfg m w (w.connect backend) :=
      ⟨fun c hc => update_of_ne (hne c hc) _ _, Nat.le_succ _, ⟨[], rfl⟩, ⟨[], by simp [Network.connect], by simp⟩,
        ⟨[], by simp [Network.connect], by simp⟩⟩
    obtain ⟨y, w₂, hw, hk⟩ := ends_bind.1 hk
    rcases ends_writeConn hw with ⟨c, rfl⟩ | ⟨⟨e, rfl⟩, rfl⟩
    · have hwr : Scattered cfg m w ((w.connect backend).deliver c ⟨backend, w.opened⟩ ⟨'Q', m.payload⟩) := by
        refine ⟨fun c' hc' => ?_, Nat.le_succ _, ⟨[], rfl⟩, ⟨[_], rfl, ?_⟩,
          ⟨[], by simp [Network.connect, Network.deliver], by simp⟩⟩
        · exact (update_of_ne (hne c' hc') _ _).trans (update_of_ne (hne c' hc') _ _)
        · intro x hx
          rw [mem_singleton] at hx
          subst hx
          exact ⟨rfl, le_refl _, update_self .., rfl, shard, hs⟩
      split at hk
      · obtain ⟨-, rfl⟩ := ends_pure.1 hk
        exact ⟨hwr, rfl⟩
      · obtain ⟨z, w₃, hr, hk⟩ := ends_bind.1 hk
        have hsd := ends_replies hr
        have hw' : w' = w₃ := by
          split at hk
          · exact (ends_pure.1 hk).2
          · exact (ends_pure.1 hk).2
        subst hw'
        exact ⟨hwr.trans (hsd.scattered (by simp) m) hsd.observed, hsd.observed⟩
    · obtain ⟨-, rfl⟩ := ends_pure.1 hk
      exact ⟨ho, rfl⟩

theorem ends_scatterEach {shards : List (Str × Str)}
    (hs : ∀ x ∈ shards, cfg.write x.1 = .ok x.2) {rs : List (Str × Except Str ShardResult)}
    (h : Ends (routerService P) (scatterEach m shards) w rs w') :
      Scattered cfg m w w' ∧ w'.observed = w.observed := by
  induction shards generalizing w rs with
  | nil =>
    obtain ⟨-, rfl⟩ := ends_pure.1 h
    exact ⟨scattered_refl m _, rfl⟩
  | cons x shards ih =>
    obtain ⟨r, w₁, ho, hk⟩ := ends_bind.1 h
    obtain ⟨rs', w₂, hr, hk⟩ := ends_bind.1 hk
    obtain ⟨-, rfl⟩ := ends_pure.1 hk
    obtain ⟨h₁, hobs₁⟩ := ends_scatterOne (hs x (by simp)) ho
    obtain ⟨h₂, hobs₂⟩ := ih (fun y hy => hs y (by simp [hy])) hr
    exact ⟨h₁.trans h₂ hobs₂, hobs₂.trans hobs₁⟩

theorem mem_allShardsLoop {write : BackendResolver} {seen : List Str} {rs : List ShardRangeEntry}
    {shards : List (Str × Str)} (h : allShardsLoop write seen rs = some shards) :
    ∀ x ∈ shards, write x.1 = .ok x.2 := by
  induction rs generalizing seen shards with
  | nil =>
    cases h
    simp
  | cons r rs ih =>
    unfold allShardsLoop at h
    split at h
    · exact ih h
    · split at h
      · cases h
      · rename_i backend hb
        obtain ⟨rest, hr, rfl⟩ := map_eq_some_iff.1 h
        intro x hx
        rcases mem_cons.1 hx with rfl | hx
        · exact hb
        · exact ih hr x hx

theorem ends_sendWhile {ms : List ToClient} {b : Bool} (h : Ends (routerService P) (sendWhile ms) w b w') :
    ∃ ms', ms' ⊆ ms ∧ Says w ms' w' := by
  induction ms generalizing w with
  | nil =>
    obtain ⟨-, rfl⟩ := ends_pure.1 h
    exact ⟨[], by simp, .refl _⟩
  | cons m ms ih =>
    obtain ⟨ok, w₁, hs, hk⟩ := ends_bind.1 h
    split at hk
    · obtain ⟨ms', hb, hms'⟩ := ih hk
      exact ⟨_, cons_subset_cons m hb, (ends_send hs).trans hms'⟩
    · obtain ⟨-, rfl⟩ := ends_pure.1 hk
      exact ⟨[m], by simp, ends_send hs⟩

theorem ends_send_two {m m' : ToClient} {u : Unit} (h : Ends (routerService P) (do
      let _ ← send m
      let _ ← send m'
      pure ()) w u w') : Says w [m, m'] w' := by
  obtain ⟨b, w₁, h₁, hk⟩ := ends_bind.1 h
  obtain ⟨b', w₂, h₂, hk⟩ := ends_bind.1 hk
  obtain ⟨-, rfl⟩ := ends_pure.1 hk
  exact (ends_send h₁).trans (ends_send h₂)

/-- A scatter writes to fresh connections to the primaries only, and none of the session's is touched. -/
theorem ends_scatterQuery {u : Unit} (h : Ends (routerService P) (scatterQuery cfg m) w u w') :
    Scattered cfg m w w' := by
  obtain ⟨shards, w₁, ha, hk⟩ := ends_bind.1 h
  -- what follows the question for the shards keeps the topology
  suffices hr : Scattered cfg m w w₁ ∧ Scattered cfg m w₁ w' ∧ w'.observed = w₁.observed from
    hr.1.trans hr.2.1 hr.2.2
  obtain ⟨r, w₂, hc, hp⟩ := ends_bind.1 ha
  have hsh : Scattered cfg m w w₁ ∧ ∀ l, shards = some l → ∀ x ∈ l, cfg.write x.1 = .ok x.2 := by
    cases ends_current hc
    have hob : Scattered cfg m w (w.observe r) :=
      ⟨fun _ _ => rfl, le_refl _, ⟨[r], rfl⟩, ⟨[], by simp [Network.observe], by simp⟩,
        ⟨[], by simp [Network.observe], by simp⟩⟩
    cases r with
    | error e =>
      obtain ⟨rfl, rfl⟩ := ends_pure.1 hp
      exact ⟨hob, fun l hl => by cases hl⟩
    | ok topo =>
      obtain ⟨rfl, rfl⟩ := ends_pure.1 hp
      exact ⟨hob, fun l hl => mem_allShardsLoop hl⟩
  refine ⟨hsh.1, ?_⟩
  have hsd : ∀ {w₃ w₄ : Network P} {ms : List ToClient}, Scattered cfg m w₁ w₃ ∧ w₃.observed = w₁.observed →
      Says w₃ ms w₄ →
      failedReady ∉ ms → Scattered cfg m w₁ w₄ ∧ w₄.observed = w₁.observed := by
    intro w₃ w₄ ms h₃ h₄ hms
    exact ⟨h₃.1.trans (h₄.scattered hms m) h₄.observed, h₄.observed.trans h₃.2⟩
  have hs : Scattered cfg m w₁ w₁ ∧ w₁.observed = w₁.observed := ⟨scattered_refl m _, rfl⟩
  have hid : ∀ {x : ToClient}, x ≠ failedReady → failedReady ∉ [x, .own ⟨'Z', ['I']⟩] := by
    intro x hx hm
    rcases mem_cons.1 hm with h | h
    · exact hx h.symm
    · exact absurd (mem_singleton.1 h) (by decide)
  have hcm : ∀ p, ToClient.own ⟨'C', p⟩ ≠ failedReady := by
    intro p h
    exact absurd (PgMessage.mk.inj (ToClient.own.inj h)).1 (by decide)
  split at hk
  · exact hsd hs (ends_send_two hk) (hid nofun)
  · exact hsd hs (ends_send_two hk) (hid nofun)
  · obtain ⟨rs, w₃, he, hk⟩ := ends_bind.1 hk
    have h₃ := ends_scatterEach (hsh.2 _ rfl) he
    split at hk
    · exact hsd h₃ (ends_send_two hk) (hid nofun)
    · exact hsd h₃ (ends_send_two hk) (hid nofun)
    · obtain ⟨ok, w₄, hw, hk⟩ := ends_bind.1 hk
      obtain ⟨ms, hb, hms⟩ := ends_sendWhile hw
      have h₄ := hsd h₃ hms fun hm => by
        have ha := hb hm
        simp [failedReady] at ha
      split at hk
      · exact hsd h₄ (ends_send_two hk) (hid (hcm _))
      · obtain ⟨-, rfl⟩ := ends_pure.1 hk
        exact h₄

/-! ### Simple queries -/

def alive (b : Bool) (s : Session) : Option Session := if b then some s else none

variable {s : Session} {o : Option Session}

theorem ends_alive {p : RouterM Bool}
    (h : Ends (routerService P) (do if ← p then pure (some s) else pure none) w o w') :
    ∃ b, o = alive b s ∧ Ends (routerService P) p w b w' := by
  obtain ⟨b, w₁, hp, hk⟩ := ends_bind.1 h
  cases b with
  | true =>
    obtain ⟨rfl, rfl⟩ := ends_pure.1 hk
    exact ⟨true, rfl, hp⟩
  | false =>
    obtain ⟨rfl, rfl⟩ := ends_pure.1 hk
    exact ⟨false, rfl, hp⟩

inductive QueryOutcome (cfg : RouterConfig) (s : Session) (m : PgMessage) (sql : Str) (w : Network P) :
    Option Session → Network P → Prop
  /-- The transaction is pinned to a connection, and the query is sent there. -/
  | pinned {conn : Conn} {b : Bool} {w' : Network P} (hpin : s.pin = some conn) (hfwd : Forwarded w conn m b w') :
    QueryOutcome cfg s m sql w (alive b (s.afterPinned (firstKeyword sql))) w'
  | began {b : Bool} {ms : List ToClient} {w' : Network P} (hpin : s.pin = none) (hin : s.inTx = false)
      (hkw : firstKeyword sql ∈ beginKeywords) (hms : Untroubled ms) (hsaid : Says w ms w') :
    QueryOutcome cfg s m sql w (alive b { s with inTx := true, pendingBegin := m, txBackend := none }) w'
  | refused {d : RouteDecision} {e : RouterError} {w₁ w' : Network P} {code text : Str} {cause : Option RouterError}
      (hpin : s.pin = none) (hkw : s.inTx = false → firstKeyword sql ∉ beginKeywords)
      (hdecided : Decided (fun t => (cfg.router t).route sql) w d (some e) w₁)
      (hsaid : Says w₁ [.error code text cause, .own ⟨'Z', [byte (if s.inTx then 'E' else 'I')]⟩] w') :
    QueryOutcome cfg s m sql w (some s) w'
  | scattered {d : RouteDecision} {e : Option RouterError} {w₁ w' : Network P} (hpin : s.pin = none)
    (hin : s.inTx = false)
      (hkw : firstKeyword sql ∉ beginKeywords) (hread : isReadOnlyQuery sql)
        (hdecided : Decided (fun t => (cfg.router t).route sql) w d e w₁)
      (hscatter : d.scatter) (hscattered : Scattered cfg m w₁ w') :
    QueryOutcome cfg s m sql w (some s) w'
  /-- There is no connection to the backend of the decision. -/
  | unreachable {d : RouteDecision} {w₁ w' : Network P} {ms : List ToClient} (hpin : s.pin = none)
      (hdecided : Decided (fun t => (cfg.router t).route sql) w d none w₁) (hms : ∀ x ∈ ms, ¬x.IsReady)
      (hsaid : Says w₁ ms w') :
    QueryOutcome cfg s m sql w none w'
  /-- The query is sent to the backend of the decision. -/
  | routed {d : RouteDecision} {w₁ w₂ w' : Network P} {conn : Conn} {s₁ : Session} {b : Bool} (hpin : s.pin = none)
      (hin : s.inTx = false) (hkw : firstKeyword sql ∉ beginKeywords)
      (hdecided : Decided (fun t => (cfg.router t).route sql) w d none w₁)
      (hconn : Obtains s d.backend w₁ conn s₁ w₂) (hfwd : Forwarded w₂ conn m b w') :
    QueryOutcome cfg s m sql w (alive b s₁) w'
  /-- The BEGIN could not be carried out on the backend of the decision. -/
  | pinFailed {d : RouteDecision} {w₁ w₂ w₃ w' : Network P} {conn : Conn} {s₁ : Session} {ms : List ToClient}
      (hpin : s.pin = none) (hin : s.inTx)
      (hdecided : Decided (fun t => (cfg.router t).route sql) w d none w₁)
      (hconn : Obtains s d.backend w₁ conn s₁ w₂) (hbegin : Begins s₁ conn w₂ w₃ ∨ w₃ = w₂)
      (hms : ∀ x ∈ ms, ¬x.IsReady) (hsaid : Says w₃ ms w') :
    QueryOutcome cfg s m sql w none w'
  /-- The transaction is pinned to the backend of the decision, and the query is sent there. -/
  | pinnedNow {d : RouteDecision} {w₁ w₂ w₃ w' : Network P} {conn : Conn} {s₁ : Session} {b : Bool}
      (hpin : s.pin = none) (hin : s.inTx)
      (hdecided : Decided (fun t => (cfg.router t).route sql) w d none w₁)
      (hconn : Obtains s d.backend w₁ conn s₁ w₂) (hbegin : Begins s₁ conn w₂ w₃) (hfwd : Forwarded w₃ conn m b w') :
    QueryOutcome cfg s m sql w (alive b { s₁ with txBackend := some conn }) w'

theorem Obtains.inTx_eq {s' : Session} {addr : Str} {conn : Conn} (h : Obtains s addr w conn s' w') :
    s'.inTx = s.inTx := by
  rcases h with ⟨-, rfl, -⟩ | ⟨-, -, rfl, -⟩
  · rfl
  · rfl

variable {cause : Option RouterError}

theorem ends_queryError {code text : String} (h : Ends (routerService P) (queryError s code text cause) w o w') :
    o = some s ∧ Says w
      [.error (str code) (str text) cause, .own ⟨'Z', [byte (if s.inTx then 'E' else 'I')]⟩] w' := by
  obtain ⟨u, w₁, he, hk⟩ := ends_bind.1 h
  obtain ⟨b, w₂, hs, hk⟩ := ends_bind.1 hk
  obtain ⟨rfl, rfl⟩ := ends_pure.1 hk
  exact ⟨rfl, (ends_writePgError he).trans (ends_send hs)⟩

theorem error_not_ready {code text : Str} : ∀ x ∈ [ToClient.error code text cause], ¬x.IsReady := by
  intro x hx
  rw [mem_singleton] at hx
  subst hx
  rintro ⟨status, h⟩
  cases h

variable {sql : Str} {d : RouteDecision}

/-- The outcomes of a query that was routed to one shard. -/
theorem ends_forwardQuery (hpin : s.pin = none) (hkw : s.inTx = false → firstKeyword sql ∉ beginKeywords)
    (hd : Decided (fun t => (cfg.router t).route sql) w d none w₁)
    (h : Ends (routerService P) (forwardQuery s m d) w₁ o w') : QueryOutcome cfg s m sql w o w' := by
  obtain ⟨r, w₂, hbc, hk⟩ := ends_bind.1 h
  rcases ends_backendFor hbc with ⟨e, rfl, -, rfl⟩ | ⟨conn, s₁, rfl, hc⟩
  · obtain ⟨u, w₃, hr, hk⟩ := ends_bind.1 hk
    obtain ⟨rfl, rfl⟩ := ends_pure.1 hk
    exact .unreachable hpin hd error_not_ready (ends_writePgError hr)
  · have hit := hc.inTx_eq
    simp only at hk
    split at hk
    · rename_i hin
      rw [hit] at hin
      obtain ⟨x, w₃, hpt, hk⟩ := ends_bind.1 hk
      rcases ends_pinTo hpt with ⟨e, rfl, hb⟩ | ⟨rfl, hb⟩
      · cases e with
        | write e =>
          obtain ⟨rfl, rfl⟩ := ends_pure.1 hk
          exact .pinFailed hpin hin hd hc hb (by simp) (.refl _)
        | drain e =>
          obtain ⟨u, w₄, hr, hk⟩ := ends_bind.1 hk
          obtain ⟨rfl, rfl⟩ := ends_pure.1 hk
          exact .pinFailed hpin hin hd hc hb error_not_ready (ends_writePgError hr)
      · obtain ⟨b, rfl, he⟩ := ends_alive hk
        exact .pinnedNow hpin hin hd hc hb (ends_execAndRelay he)
    · rename_i hin
      rw [hit, Bool.not_eq_true] at hin
      obtain ⟨b, rfl, he⟩ := ends_alive hk
      exact .routed hpin hin (hkw hin) hd hc (ends_execAndRelay he)

theorem Decided.ne_none_of_scatter {e : Option RouterError}
    (h : Decided (fun t => (cfg.router t).route sql) w d e w₁) (hs : d.scatter) : ∃ e', e = some e' := by
  rcases h with ⟨topo, rfl, rfl, -⟩ | ⟨txt, rfl, -, -⟩
  · cases hr : ((cfg.router topo).route sql).2 with
    | some e => exact ⟨_, rfl⟩
    | none =>
      have hro : RoutedTo (cfg.router topo) sql ((cfg.router topo).route sql).1 :=
        routedTo_of_route (Prod.ext rfl hr)
      rw [hro.scatter] at hs
      cases hs
  · exact ⟨_, rfl⟩

/-- Every end of `handleSimpleQuery` is one of the outcomes of a simple query. -/
theorem ends_handleSimpleQuery (hl : querySQL m = some sql)
    (h : Ends (routerService P) (handleSimpleQuery cfg s m) w o w') :
    QueryOutcome cfg s m sql w o w' := by
  unfold handleSimpleQuery at h
  simp only [hl] at h
  split at h
  · rename_i conn hpin
    obtain ⟨b, rfl, he⟩ := ends_alive h
    exact .pinned hpin (ends_execAndRelay he)
  · rename_i hpin
    split at h
    · rename_i hb
      have hin : s.inTx = false := by simpa using hb.1
      obtain ⟨b, rfl, hf⟩ := ends_alive h
      obtain ⟨ok, w₁, hs, hk⟩ := ends_bind.1 hf
      have hC : Untroubled [.own ⟨'C', cstring "BEGIN"⟩] := untroubled_own (by decide)
      split at hk
      · exact .began hpin hin hb.2 (hC.append (untroubled_own (by decide))) ((ends_send hs).trans (ends_send hk))
      · obtain ⟨rfl, rfl⟩ := ends_pure.1 hk
        exact .began hpin hin hb.2 hC (ends_send hs)
    · rename_i hn
      have hkw : s.inTx = false → firstKeyword sql ∉ beginKeywords := by
        intro hin hm
        exact hn ⟨by simp [hin], hm⟩
      obtain ⟨⟨d, e⟩, w₁, hr, hk⟩ := ends_bind.1 h
      have hd := ends_withTopology hr
      simp only at hk hd
      unfold routedQuery at hk
      split at hk
      · rename_i hsca
        obtain ⟨e', rfl⟩ := hd.ne_none_of_scatter hsca
        split at hk
        · obtain ⟨rfl, hsd⟩ := ends_queryError hk
          exact .refused hpin hkw hd hsd
        · rename_i hrd
          split at hk
          · obtain ⟨rfl, hsd⟩ := ends_queryError hk
            exact .refused hpin hkw hd hsd
          · rename_i hin
            obtain ⟨u, w₂, hsc, hk⟩ := ends_bind.1 hk
            obtain ⟨rfl, rfl⟩ := ends_pure.1 hk
            have hin : s.inTx = false := by simpa using hin
            exact .scattered hpin hin (hkw hin) (by simpa using hrd) hd hsca (ends_scatterQuery hsc)
      · split at hk
        · obtain ⟨rfl, hsd⟩ := ends_queryError hk
          exact .refused hpin hkw hd hsd
        · obtain ⟨rfl, hsd⟩ := ends_queryError hk
          exact .refused hpin hkw hd hsd
        · obtain ⟨rfl, hsd⟩ := ends_queryError hk
          exact .refused hpin hkw hd hsd
        · exact ends_forwardQuery hpin hkw hd hk

/-! ### Extended batches -/

structure Watches (w w' : Network P) : Prop where
  states : w'.states = w.states
  opened : w'.opened = w.opened
  observed : ∃ rs, w'.observed = rs ++ w.observed
  written : w'.written = w.written
  sent : w'.sent = w.sent

theorem Watches.refl (w : Network P) : Watches w w := ⟨rfl, rfl, ⟨[], rfl⟩, rfl, rfl⟩

theorem watches_observe (w : Network P) (r : Except Str Topology) : Watches w (w.observe r) :=
  ⟨rfl, rfl, ⟨[r], rfl⟩, rfl, rfl⟩

theorem Watches.trans {w₂ : Network P} (h : Watches w w₁) (h' : Watches w₁ w₂) : Watches w w₂ := by
  obtain ⟨rs, hrs⟩ := h.observed
  obtain ⟨rs', hrs'⟩ := h'.observed
  exact ⟨h'.states.trans h.states, h'.opened.trans h.opened, ⟨rs' ++ rs, by rw [hrs', hrs, append_assoc]⟩,
    h'.written.trans h.written, h'.sent.trans h.sent⟩

/-- The column that a Parse is read with: that of the topology, or the empty one if the provider fails. -/
def columnOf : Except Str Topology → Str
  | .error _ => []
  | .ok topo => topo.spec.vindex.column

def Session.afterParse (s : Session) (m : PgMessage) (r : Except Str Topology) : Session :=
  match parseSQL m with
  | none => s
  | some sql => s.register ⟨parseStmtName m, sql, (extractParamRef sql (columnOf r)).getD 0, m⟩

def Registers : Session → List PgMessage → Network P → Session → Network P → Prop
  | s, [], w, s', w' => s' = s ∧ w' = w
  | s, m :: ms, w, s', w' =>
    if m.type = 'P' then
      ∃ r, Registers (s.afterParse m r) ms (if parseSQL m = none then w else w.observe r) s' w'
    else Registers s ms w s' w'

variable {ms : List PgMessage}

/-- Registering takes one topology per Parse and writes nothing. -/
theorem ends_registerAll {s' : Session} (h : Ends (routerService P) (registerAll s ms) w s' w') :
    Registers s ms w s' w' := by
  induction ms generalizing s w with
  | nil => exact ends_pure.1 h
  | cons m ms ih =>
    unfold registerAll at h
    unfold Registers
    split at h
    · rename_i hP
      rw [if_pos hP]
      obtain ⟨s₁, w₁, hp, hk⟩ := ends_bind.1 h
      have hr := ih hk
      unfold registerParse at hp
      split at hp
      · rename_i hn
        obtain ⟨rfl, rfl⟩ := ends_pure.1 hp
        refine ⟨.error [], ?_⟩
        rw [Session.afterParse, hn, if_pos rfl]
        exact hr
      · rename_i sql hs
        obtain ⟨col, w₂, hcol, hpr⟩ := ends_bind.1 hp
        obtain ⟨rfl, rfl⟩ := ends_pure.1 hpr
        obtain ⟨r, w₃, hc, hcol⟩ := ends_bind.1 hcol
        cases ends_current hc
        have hco : col = columnOf r ∧ w₁ = w.observe r := by
          cases r with
          | error e => exact ends_pure.1 hcol
          | ok topo => exact ends_pure.1 hcol
        obtain ⟨rfl, rfl⟩ := hco
        refine ⟨r, ?_⟩
        rw [Session.afterParse, hs, if_neg (by simp)]
        exact hr
    · rename_i hP
      rw [if_neg hP]
      exact ih h

def BindDecided (cfg : RouterConfig) (st : Pstmt) (bind : PgMessage) (w : Network P) (d : RouteDecision)
    (e : Option RouterError) (w' : Network P) : Prop :=
  (0 < st.paramIdx ∧ ∃ ps key, bindParams bind = some ps ∧ ps[st.paramIdx - 1]? = some (some key) ∧
    Decided (fun t => cfg.keyDecision t key (isReadOnlyQuery st.sql)) w d e w') ∨
    st.paramIdx = 0 ∧ Decided (fun t => (cfg.router t).route st.sql) w d e w'

variable {bind : PgMessage}

theorem ends_routeBind {st : Pstmt} {r : Option (RouteDecision × Option RouterError)}
    (h : Ends (routerService P) (routeBind cfg st bind) w r w') :
    (r = none ∧ 0 < st.paramIdx ∧ (∀ ps key, bindParams bind = some ps → ps[st.paramIdx - 1]? ≠ some (some key)) ∧
      w' = w) ∨ ∃ d e, r = some (d, e) ∧ BindDecided cfg st bind w d e w' := by
  unfold routeBind at h
  split at h
  · rename_i hx
    split at h
    · rename_i hn
      obtain ⟨rfl, rfl⟩ := ends_pure.1 h
      refine .inl ⟨rfl, hx, ?_, rfl⟩
      intro ps key hps hkey
      rw [hps, bind_some, hkey] at hn
      cases hn
    · rename_i key hkey
      obtain ⟨⟨d, e⟩, w₁, hr, hk⟩ := ends_bind.1 h
      obtain ⟨rfl, rfl⟩ := ends_pure.1 hk
      obtain ⟨ps, hps, hj⟩ := bind_eq_some_iff.1 hkey
      exact .inr ⟨d, e, rfl, Or.inl ⟨hx, ps, key, hps, join_eq_some_iff.1 hj, ends_withTopology hr⟩⟩
  · rename_i hx
    obtain ⟨⟨d, e⟩, w₁, hr, hk⟩ := ends_bind.1 h
    obtain ⟨rfl, rfl⟩ := ends_pure.1 hk
    exact .inr ⟨d, e, rfl, Or.inr ⟨by omega, ends_withTopology hr⟩⟩

/-- The connection for a batch: the pinned one, one for the address, or one to which the transaction is pinned now. -/
inductive GotBackend (s : Session) (addr : Str) (w : Network P) : Conn → Session → Network P → Prop
  | pinned {conn : Conn} (hpin : s.pin = some conn) : GotBackend s addr w conn s w
  | plain {conn : Conn} {s' : Session} {w' : Network P} (hpin : s.pin = none) (hin : s.inTx = false)
      (hconn : Obtains s addr w conn s' w') : GotBackend s addr w conn s' w'
  | pinnedNow {conn : Conn} {s₁ : Session} {w₁ w' : Network P} (hpin : s.pin = none) (hin : s.inTx)
      (hconn : Obtains s addr w conn s₁ w₁) (hbegin : Begins s₁ conn w₁ w') :
    GotBackend s addr w conn { s₁ with txBackend := some conn } w'

/-- No connection was got; a BEGIN may have been written. -/
inductive LostBackend (s : Session) (addr : Str) (w : Network P) : Network P → Prop
  | unreachable : LostBackend s addr w w
  | pinFailed {conn : Conn} {s₁ : Session} {w₁ w' : Network P} (hpin : s.pin = none) (hin : s.inTx)
      (hconn : Obtains s addr w conn s₁ w₁) (hbegin : Begins s₁ conn w₁ w' ∨ w' = w₁) : LostBackend s addr w w'

theorem ends_backendForRouted {r : Except Str (Conn × Session)}
    (h : Ends (routerService P) (backendForRouted s d) w r w') :
    (∃ e, r = .error e ∧ LostBackend s d.backend w w') ∨
      ∃ conn s', r = .ok (conn, s') ∧ GotBackend s d.backend w conn s' w' := by
  unfold backendForRouted at h
  split at h
  · rename_i conn hpin
    obtain ⟨rfl, rfl⟩ := ends_pure.1 h
    exact .inr ⟨conn, s, rfl, .pinned hpin⟩
  · rename_i hpin
    obtain ⟨x, w₁, hbc, hk⟩ := ends_bind.1 h
    rcases ends_backendFor hbc with ⟨e, rfl, -, rfl⟩ | ⟨conn, s₁, rfl, hc⟩
    · obtain ⟨rfl, rfl⟩ := ends_pure.1 hk
      exact .inl ⟨e, rfl, .unreachable⟩
    · have hit := hc.inTx_eq
      simp only at hk
      split at hk
      · rename_i hin
        rw [hit] at hin
        obtain ⟨y, w₂, hpt, hk⟩ := ends_bind.1 hk
        rcases ends_pinTo hpt with ⟨e, rfl, hb⟩ | ⟨rfl, hb⟩
        · cases e with
          | write e =>
            obtain ⟨rfl, rfl⟩ := ends_pure.1 hk
            exact .inl ⟨e, rfl, .pinFailed hpin hin hc hb⟩
          | drain e =>
            obtain ⟨rfl, rfl⟩ := ends_pure.1 hk
            exact .inl ⟨e, rfl, .pinFailed hpin hin hc hb⟩
        · obtain ⟨rfl, rfl⟩ := ends_pure.1 hk
          exact .inr ⟨conn, _, rfl, .pinnedNow hpin hin hc hb⟩
      · rename_i hin
        rw [hit, Bool.not_eq_true] at hin
        obtain ⟨rfl, rfl⟩ := ends_pure.1 hk
        exact .inr ⟨conn, s₁, rfl, .plain hpin hin hc⟩

/-- Messages were written to a connection and the replies passed on (`b = true`), or the session ended after some of
them. -/
def ForwardedAll (w : Network P) (conn : Conn) (ms : List PgMessage) (b : Bool) (w' : Network P) : Prop :=
  ∃ pre w₁, pre <+: ms ∧ Delivers conn pre w w₁ ∧ Relays w₁ w' ∧ (b → pre = ms)

theorem ends_writeAll_relay {conn : Conn} {n : Nat} (h : Ends (routerService P) (do
      if ← writeAll conn ms then
        if ← relayExtended conn n then pure (some s) else pure none
      else pure none) w o w') : ∃ b, o = alive b s ∧ ForwardedAll w conn ms b w' := by
  obtain ⟨ok, w₁, hw, hk⟩ := ends_bind.1 h
  obtain ⟨pre, hp, hd, ha⟩ := ends_writeAll hw
  cases ok with
  | true =>
    obtain ⟨b, rfl, hr⟩ := ends_alive hk
    exact ⟨b, rfl, pre, w₁, hp, hd, ends_relayExtended hr, fun _ => ha rfl⟩
  | false =>
    obtain ⟨rfl, rfl⟩ := ends_pure.1 hk
    exact ⟨false, rfl, pre, _, hp, hd, .refl _, by simp⟩

def Session.idleStatus (s : Session) : ToClient := .own ⟨'Z', [byte (if s.inTx then 'T' else 'I')]⟩

theorem ends_sendReadyIdle
    (h : Ends (routerService P) (sendReadyIdle s) w o w') : ∃ b, o = alive b s ∧ Says w [s.idleStatus] w' := by
  obtain ⟨b, rfl, hs⟩ := ends_alive h
  exact ⟨b, rfl, ends_send hs⟩

theorem ends_extError {code : String} {text : Str} (h : Ends (routerService P) (extError s code text cause) w o w') :
    ∃ b, o = alive b s ∧ Says w [.error (str code) text cause, s.idleStatus] w' := by
  obtain ⟨ok, w₁, hs, hk⟩ := ends_bind.1 h
  obtain ⟨b, rfl, hr⟩ := ends_sendReadyIdle hk
  exact ⟨b, rfl, (ends_send hs).trans hr⟩

inductive BatchRefused (cfg : RouterConfig) (s : Session) (bind : PgMessage) (w : Network P) : Network P → Prop
  | unknown (hst : s.stmts (bindStmtName bind) = none) : BatchRefused cfg s bind w w
  | noParameter {st : Pstmt} (hst : s.stmts (bindStmtName bind) = some st) (hidx : 0 < st.paramIdx)
      (hparam : ∀ ps key, bindParams bind = some ps → ps[st.paramIdx - 1]? ≠ some (some key)) :
    BatchRefused cfg s bind w w
  | notRouted {st : Pstmt} {d : RouteDecision} {e : RouterError} {w' : Network P}
      (hst : s.stmts (bindStmtName bind) = some st) (hdecided : BindDecided cfg st bind w d (some e) w') :
    BatchRefused cfg s bind w w'

theorem BatchRefused.watches (h : BatchRefused cfg s bind w w') : Watches w w' := by
  have hc : ∀ {decide d e}, Decided decide w d e w' → Watches w w' := by
    rintro decide d e (⟨topo, -, -, rfl⟩ | ⟨txt, -, -, rfl⟩)
    · exact watches_observe _ _
    · exact watches_observe _ _
  cases h with
  | unknown => exact .refl _
  | noParameter => exact .refl _
  | notRouted hst hd =>
    rcases hd with ⟨-, ps, key, -, -, hd⟩ | ⟨-, hd⟩
    · exact hc hd
    · exact hc hd

/-- Why a batch with a Describe and without a Bind is answered with an error: the provider failed, or there is no
address of a shard, or no connection to it. -/
def DescribeRefused (cfg : RouterConfig) (s : Session) (w w' : Network P) : Prop :=
  (∃ txt, w' = w.observe (.error txt)) ∨ ∃ topo, w' = w.observe (.ok topo) ∧
    ∀ shard addr, topo.anyShard = .ok shard → cfg.write shard = .ok addr → s.backends addr = none

theorem DescribeRefused.watches (h : DescribeRefused cfg s w w') : Watches w w' := by
  rcases h with ⟨txt, rfl⟩ | ⟨topo, rfl, -⟩
  · exact watches_observe _ _
  · exact watches_observe _ _

inductive BatchOutcome (cfg : RouterConfig) (s : Session) (batch : List PgMessage) (w : Network P) :
    Option Session → Network P → Prop
  | refused {bind : PgMessage} {w₁ w' : Network P} {b : Bool} {code text : Str} {cause : Option RouterError}
      (hbind : batch.find? (fun m => m.type = byte 'B') = some bind) (hwhy : BatchRefused cfg s bind w w₁)
      (hsaid : Says w₁ [.error code text cause, s.idleStatus] w') :
    BatchOutcome cfg s batch w (alive b s) w'
  | lost {bind : PgMessage} {st : Pstmt} {d : RouteDecision} {w₁ w₂ w' : Network P} {ms : List ToClient}
      (hbind : batch.find? (fun m => m.type = byte 'B') = some bind) (hst : s.stmts (bindStmtName bind) = some st)
      (hdecided : BindDecided cfg st bind w d none w₁) (hlost : LostBackend s d.backend w₁ w₂)
      (hms : ∀ x ∈ ms, ¬x.IsReady) (hsaid : Says w₂ ms w') :
    BatchOutcome cfg s batch w none w'
  | executed {bind : PgMessage} {st : Pstmt} {d : RouteDecision} {w₁ w₂ w' : Network P} {conn : Conn} {s₁ : Session}
      {b : Bool} (hbind : batch.find? (fun m => m.type = byte 'B') = some bind)
      (hst : s.stmts (bindStmtName bind) = some st) (hdecided : BindDecided cfg st bind w d none w₁)
      (hgot : GotBackend s d.backend w₁ conn s₁ w₂)
      (hfwd : ForwardedAll w₂ conn (execMessages (s₁.injected conn batch (bindStmtName bind) st) batch) b w') :
    BatchOutcome cfg s batch w
      (alive b (s₁.markPrepared conn (((s₁.injected conn batch (bindStmtName bind) st).toList.map fun _ =>
        bindStmtName bind) ++ (parsesOf batch).map parseStmtName))) w'
  | describeRefused {w₁ w' : Network P} {b : Bool} {code text : Str} {cause : Option RouterError}
      (hbind : batch.find? (fun m => m.type = byte 'B') = none) (hdesc : ∃ m ∈ batch, m.type = byte 'D')
      (hpin : s.pin = none) (hwhy : DescribeRefused cfg s w w₁)
      (hsaid : Says w₁ [.error code text cause, s.idleStatus] w') :
    BatchOutcome cfg s batch w (alive b s) w'
  | described {w₁ w' : Network P} {conn : Conn} {s₁ : Session} {b : Bool}
      (hbind : batch.find? (fun m => m.type = byte 'B') = none) (hdesc : ∃ m ∈ batch, m.type = byte 'D')
      (hgot : (s.pin = some conn ∧ s₁ = s ∧ w₁ = w) ∨ (s.pin = none ∧ ∃ topo shard addr, topo.anyShard = .ok shard ∧
        cfg.write shard = .ok addr ∧ Obtains s addr (w.observe (.ok topo)) conn s₁ w₁))
      (hfwd : ForwardedAll w₁ conn batch b w') :
    BatchOutcome cfg s batch w (alive b (s₁.markPrepared conn ((parsesOf batch).map parseStmtName))) w'
  /-- Parse and Close are answered by the router. -/
  | acked {w' : Network P} {b : Bool} {ms : List ToClient}
      (hbind : batch.find? (fun m => m.type = byte 'B') = none) (hdesc : ∀ m ∈ batch, m.type ≠ byte 'D')
      (hms : Untroubled ms) (hsaid : Says w ms w') :
    BatchOutcome cfg s batch w
      (alive b ((batch.filter fun m => m.type = byte 'C').foldl Session.handleClose s)) w'

theorem untroubled_idleStatus (s : Session) : Untroubled [s.idleStatus] := by
  unfold Session.idleStatus
  split
  · exact untroubled_own (by decide)
  · exact untroubled_own (by decide)

theorem ends_synthExtendedAcks (h : Ends (routerService P) (synthExtendedAcks s ms) w o w') :
    ∃ b out, o = alive b ((ms.filter fun m => m.type = byte 'C').foldl Session.handleClose s) ∧ Untroubled out ∧
      Says w out w' := by
  induction ms generalizing s w with
  | nil =>
    obtain ⟨b, rfl, hsd⟩ := ends_sendReadyIdle h
    exact ⟨b, _, rfl, untroubled_idleStatus s, hsd⟩
  | cons m ms ih =>
    unfold synthExtendedAcks at h
    split at h
    · rename_i hP
      have hC : m.type ≠ 'C' := by rw [hP]; decide
      have ho : Untroubled [.own ⟨'1', []⟩] := untroubled_own (by decide)
      obtain ⟨ok, w₁, hs, hk⟩ := ends_bind.1 h
      rw [filter_cons_of_neg (by simpa using hC)]
      cases ok with
      | true =>
        obtain ⟨b, out, rfl, ht, hsd⟩ := ih hk
        exact ⟨b, _, rfl, ho.append ht, (ends_send hs).trans hsd⟩
      | false =>
        obtain ⟨rfl, rfl⟩ := ends_pure.1 hk
        exact ⟨false, _, rfl, ho, ends_send hs⟩
    · split at h
      · rename_i hC
        have ho : Untroubled [.own ⟨'3', []⟩] := untroubled_own (by decide)
        obtain ⟨ok, w₁, hs, hk⟩ := ends_bind.1 h
        rw [filter_cons_of_pos (by simpa using hC), foldl_cons]
        cases ok with
        | true =>
          obtain ⟨b, out, rfl, ht, hsd⟩ := ih hk
          exact ⟨b, _, rfl, ho.append ht, (ends_send hs).trans hsd⟩
        | false =>
          obtain ⟨rfl, rfl⟩ := ends_pure.1 hk
          exact ⟨false, _, rfl, ho, ends_send hs⟩
      · rename_i hC
        rw [filter_cons_of_neg (by simpa using hC)]
        exact ih h

/-- What it takes to route by a key: no block for a writer, an owner, and an address for it. -/
theorem keyDecision_none {topo : Topology} {key : Str} {read : Bool} (h : cfg.keyDecision topo key read = (d, none)) :
    (read ∨ topo.spec.writeBlocked = false) ∧ topo.shard key = .ok d.shard ∧
      (if read then cfg.read.getD cfg.write else cfg.write) d.shard = .ok d.backend ∧ d.scatter = false := by
  unfold RouterConfig.keyDecision at h
  split at h
  · cases h
  · rename_i hb
    obtain ⟨hs, hc, -, hsc⟩ := decideShard_none h
    refine ⟨?_, hs, hc, hsc⟩
    cases read with
    | true => exact .inl rfl
    | false => exact .inr (by simpa using hb)

/-- A bind never goes to all shards. -/
theorem BindDecided.scatter_eq_false {st : Pstmt} (h : BindDecided cfg st bind w d none w') : d.scatter = false := by
  rcases h with ⟨-, ps, key, -, -, hd⟩ | ⟨-, hd⟩
  · rcases hd with ⟨topo, rfl, he, -⟩ | ⟨txt, he, -⟩
    · exact (keyDecision_none (Prod.ext rfl (map_eq_none_iff.1 he.symm))).2.2.2
    · cases he
  · cases hs : d.scatter with
    | false => rfl
    | true =>
      obtain ⟨e, he⟩ := hd.ne_none_of_scatter hs
      cases he

variable {batch : List PgMessage}

/-- Every end of a batch with a Bind is one of the outcomes of a batch. -/
theorem ends_runExtendedExec (hbn : batch.find? (fun m => m.type = byte 'B') = some bind)
    (h : Ends (routerService P) (runExtendedExec cfg s batch bind) w o w') : BatchOutcome cfg s batch w o w' := by
  unfold runExtendedExec at h
  split at h
  · rename_i hst
    obtain ⟨b, rfl, hs⟩ := ends_extError h
    exact .refused hbn (.unknown hst) hs
  · rename_i st hst
    obtain ⟨r, w₁, hr, hk⟩ := ends_bind.1 h
    rcases ends_routeBind hr with ⟨rfl, hx, hp, rfl⟩ | ⟨d, e, rfl, hd⟩
    · obtain ⟨b, rfl, hs⟩ := ends_extError hk
      exact .refused hbn (.noParameter hst hx hp) hs
    · simp only at hk
      split at hk
      · rename_i he
        subst he
        obtain ⟨b, rfl, hs⟩ := ends_extError hk
        exact .refused hbn (.notRouted hst hd) hs
      · cases e with
        | some e =>
          rw [if_pos (by simp)] at hk
          obtain ⟨b, rfl, hs⟩ := ends_extError hk
          exact .refused hbn (.notRouted hst hd) hs
        | none =>
          rw [if_neg (by simp [hd.scatter_eq_false])] at hk
          obtain ⟨x, w₂, hb, hk⟩ := ends_bind.1 hk
          rcases ends_backendForRouted hb with ⟨txt, rfl, hl⟩ | ⟨conn, s₁, rfl, hgot⟩
          · obtain ⟨u, w₃, her, hk⟩ := ends_bind.1 hk
            obtain ⟨rfl, rfl⟩ := ends_pure.1 hk
            exact .lost hbn hst hd hl error_not_ready (ends_writePgError her)
          · obtain ⟨b, rfl, hfwd⟩ := ends_writeAll_relay hk
            exact .executed hbn hst hd hgot hfwd

theorem ends_runDescribeOnly
    (hbn : batch.find? (fun m => m.type = byte 'B') = none) (hd : ∃ m ∈ batch, m.type = byte 'D')
    (h : Ends (routerService P) (runDescribeOnly cfg s batch) w o w') : BatchOutcome cfg s batch w o w' := by
  obtain ⟨r, w₁, hb, hk⟩ := ends_bind.1 h
  unfold describeBackend at hb
  split at hb
  · rename_i conn hpin
    obtain ⟨rfl, rfl⟩ := ends_pure.1 hb
    obtain ⟨b, rfl, hfwd⟩ := ends_writeAll_relay hk
    exact .described hbn hd (.inl ⟨hpin, rfl, rfl⟩) hfwd
  · rename_i hpin
    -- an error on the way is told to the client
    have hf : ∀ {e w₂}, r = .error e → DescribeRefused cfg s w w₂ → w₁ = w₂ → BatchOutcome cfg s batch w o w' := by
      rintro e w₂ rfl hwy rfl
      obtain ⟨b, rfl, hsd⟩ := ends_extError hk
      exact .describeRefused hbn hd hpin hwy hsd
    obtain ⟨x, w₂, hy, hb⟩ := ends_bind.1 hb
    obtain ⟨y, w₃, hcr, hy⟩ := ends_bind.1 hy
    cases ends_current hcr
    cases y with
    | error e =>
      obtain ⟨rfl, rfl⟩ := ends_pure.1 hy
      obtain ⟨hr, rfl⟩ := ends_pure.1 hb
      exact hf hr (.inl ⟨e, rfl⟩) rfl
    | ok topo =>
      simp only at hy
      split at hy
      · rename_i hs
        obtain ⟨rfl, rfl⟩ := ends_pure.1 hy
        obtain ⟨hr, rfl⟩ := ends_pure.1 hb
        refine hf hr (.inr ⟨topo, rfl, ?_⟩) rfl
        intro shard addr hy
        rw [hs] at hy
        cases hy
      · rename_i shard hs
        obtain ⟨rfl, rfl⟩ := ends_pure.1 hy
        cases ha : cfg.write shard with
        | error e =>
          rw [ha] at hb
          obtain ⟨hr, rfl⟩ := ends_pure.1 hb
          refine hf hr (.inr ⟨topo, rfl, ?_⟩) rfl
          intro shard' addr hy hw
          rw [hs] at hy
          cases hy
          rw [ha] at hw
          cases hw
        | ok addr =>
          rw [ha] at hb
          obtain ⟨z, w₄, hfr, hb⟩ := ends_bind.1 hb
          rcases ends_backendFor hfr with ⟨e, rfl, hn, rfl⟩ | ⟨conn, s₁, rfl, hc⟩
          · obtain ⟨hr, rfl⟩ := ends_pure.1 hb
            refine hf hr (.inr ⟨topo, rfl, ?_⟩) rfl
            intro shard' addr' hy hw
            rw [hs] at hy
            cases hy
            rw [ha] at hw
            cases hw
            exact hn
          · obtain ⟨rfl, rfl⟩ := ends_pure.1 hb
            obtain ⟨b, rfl, hfwd⟩ := ends_writeAll_relay hk
            exact .described hbn hd (.inr ⟨hpin, topo, shard, addr, hs, ha, hc⟩) hfwd

/-- A batch is first registered, then executed, described or acknowledged. -/
theorem ends_runBatch (h : Ends (routerService P) (runBatch cfg s batch) w o w') :
    ∃ s₁ w₁, Registers s batch w s₁ w₁ ∧ BatchOutcome cfg s₁ batch w₁ o w' := by
  obtain ⟨s₁, w₁, hreg, hk⟩ := ends_bind.1 h
  refine ⟨s₁, w₁, ends_registerAll hreg, ?_⟩
  split at hk
  · rename_i bind hb
    exact ends_runExtendedExec hb hk
  · rename_i hb
    split at hk
    · rename_i hd
      refine ends_runDescribeOnly hb ?_ hk
      simpa using hd
    · rename_i hd
      obtain ⟨b, out, rfl, ho, hs⟩ := ends_synthExtendedAcks hk
      refine .acked hb ?_ ho hs
      simpa using hd

/-! ### Messages -/

inductive MessageOutcome (cfg : RouterConfig) (s : Session) (m : PgMessage) (w : Network P) :
    Option Session → Network P → Prop
  | query {sql : Str} {o : Option Session} {w' : Network P} (hsql : querySQL m = some sql)
      (h : QueryOutcome cfg s m sql w o w') : MessageOutcome cfg s m w o w'
  | buffered (hext : m.type ∈ extendedTypes) : MessageOutcome cfg s m w (some { s with extBuf := s.extBuf ++ [m] }) w
  | batch {s₁ : Session} {o : Option Session} {w₁ w' : Network P} (hsync : m.type = 'S')
      (hreg : Registers { s with extBuf := [] } (s.extBuf ++ [m]) w s₁ w₁)
      (h : BatchOutcome cfg s₁ (s.extBuf ++ [m]) w₁ o w') : MessageOutcome cfg s m w o w'
  | ended {ms : List ToClient} {w' : Network P} (hms : ∀ x ∈ ms, ¬x.IsReady) (hsaid : Says w ms w') :
    MessageOutcome cfg s m w none w'

/-- The spec of the session loop's body: one message, one outcome. -/
theorem ends_serveMessage (h : Ends (routerService P) (serveMessage cfg s m) w o w') :
    MessageOutcome cfg s m w o w' := by
  unfold serveMessage at h
  split at h
  · obtain ⟨rfl, rfl⟩ := ends_pure.1 h
    exact .ended (by simp) (.refl _)
  · split at h
    · rename_i hq
      have hl : ∃ sql, querySQL m = some sql := by
        unfold querySQL
        rw [if_neg (by simp [hq])]
        split
        · exact ⟨_, rfl⟩
        · exact ⟨_, rfl⟩
      obtain ⟨sql, hl⟩ := hl
      exact .query hl (ends_handleSimpleQuery hl h)
    · split at h
      · rename_i he
        obtain ⟨rfl, rfl⟩ := ends_pure.1 h
        exact .buffered he
      · split at h
        · rename_i hsy
          obtain ⟨s₁, w₁, hreg, hb⟩ := ends_runBatch h
          exact .batch hsy hreg hb
        · obtain ⟨b, w₁, hs, hk⟩ := ends_bind.1 h
          obtain ⟨rfl, rfl⟩ := ends_pure.1 hk
          exact .ended error_not_ready (ends_send hs)

end PostgresOperator
