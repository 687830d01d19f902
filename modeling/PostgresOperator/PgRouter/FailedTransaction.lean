import PostgresOperator.PgRouter.SessionRun

/-!
# Failed transactions

The router reports the status of a failed transaction with a byte and keeps no record of it.
`transaction_stays_failed` says in which runs the transaction stays failed all the same: no batch inside a transaction
may be refused, since the extended path reports another byte, and after a failure no query may be one that can be
routed.
-/

namespace PostgresOperator

open Go Calls List

variable {P : Peer} {cfg : RouterConfig} {s s' : Session} {m : PgMessage} {w w' : Network P}

/-! ### Answers -/

def Said (φ : List ToClient → Prop) (w w' : Network P) : Prop := ∃ new, w'.sent = w.sent ++ new ∧ φ new

inductive Answer (cfg : RouterConfig) (s : Session) (m : PgMessage) (w : Network P) (o : Option Session)
    (w' : Network P)
    (new : List ToClient) : Prop
  /-- There is no error of the router's own. -/
  | quiet (h : Untroubled new)
  | fatal (ho : o = none) (h : ∀ x ∈ new, ¬x.IsReady)
  | scatter (hin : s.inTx = false) (h : failedReady ∉ new)
  | refusedQuery {code text : Str} {cause : Option RouterError} (hpin : s.pin = none) (ho : o = some s)
      (h : new = [.error code text cause, .own ⟨'Z', [byte (if s.inTx then 'E' else 'I')]⟩])
  | refusedBatch {bind : PgMessage} {s₁ : Session} {w₁ w₂ : Network P} {code text : Str} {cause : Option RouterError}
      (hsync : m.type = byte 'S') (hbind : (s.extBuf ++ [m]).find? (fun m => m.type = byte 'B') = some bind)
      (hreg : Registers { s with extBuf := [] } (s.extBuf ++ [m]) w s₁ w₁) (hwhy : BatchRefused cfg s₁ bind w₁ w₂)
      (hobs : w'.observed = w₂.observed) (h : new = [.error code text cause, s₁.idleStatus])
  | refusedDescribe {s₁ : Session} {w₁ w₂ : Network P} {code text : Str} {cause : Option RouterError}
      (hsync : m.type = byte 'S') (hbind : (s.extBuf ++ [m]).find? (fun m => m.type = byte 'B') = none)
      (hdesc : ∃ x ∈ s.extBuf ++ [m], x.type = 'D') (hpin : s.pin = none)
      (hreg : AfterRegister { s with extBuf := [] } (s.extBuf ++ [m]) w s₁ w₁) (hwhy : DescribeRefused cfg s₁ w₁ w₂)
      (hobs : w'.observed = w₂.observed) (hopened : w'.opened = w.opened)
        (h : new = [.error code text cause, s₁.idleStatus])

theorem untroubled_nil : Untroubled [] := by
  intro x hx
  cases hx

/-- Relaying adds no message of the router's own. -/
theorem Relays.said (h : Relays w w') : Said Untroubled w w' := by
  obtain ⟨ms, hms, hs⟩ := h
  refine ⟨ms, hs.sent, ?_⟩
  intro x hx
  obtain ⟨y, rfl⟩ := hms x hx
  refine ⟨?_, nofun⟩
  rintro ⟨code, text, cause, heq⟩
  cases heq

variable {conn : Conn}

theorem Forwarded.said {b : Bool} (h : Forwarded w conn m b w') : Said Untroubled w w' := by
  rcases h with ⟨c, hr⟩ | ⟨-, rfl⟩
  · exact hr.said
  · exact ⟨[], by simp, untroubled_nil⟩

theorem Delivers.sent_eq {ms : List PgMessage} (h : Delivers conn ms w w') : w'.sent = w.sent := by
  induction ms generalizing w with
  | nil => rw [h]
  | cons m ms ih =>
    obtain ⟨c, h⟩ := h
    exact (ih h).trans rfl

theorem ForwardedAll.said {ms : List PgMessage} {b : Bool} (h : ForwardedAll w conn ms b w') :
    Said Untroubled w w' := by
  obtain ⟨pre, w₁, -, hd, hr, -⟩ := h
  obtain ⟨new, hs, hn⟩ := hr.said
  exact ⟨new, by rw [hs, hd.sent_eq], hn⟩

variable {addr : Str}

theorem Obtains.sent_eq (h : Obtains s addr w conn s' w') : w'.sent = w.sent := by
  rcases h with ⟨-, -, rfl⟩ | ⟨-, -, -, rfl⟩
  · rfl
  · rfl

theorem Begins.sent_eq (h : Begins s conn w w') : w'.sent = w.sent := by
  obtain ⟨c, hs⟩ := h
  rw [hs.sent, append_nil]
  rfl

variable {d : RouteDecision}

theorem Decided.sent_eq {decide : Topology → RouteDecision × Option RouteError}
    {e : Option RouterError} (h : Decided decide w d e w') : w'.sent = w.sent := by
  rcases h with ⟨topo, -, -, rfl⟩ | ⟨txt, -, -, rfl⟩
  · rfl
  · rfl

theorem BindDecided.sent_eq {st : Pstmt} {bind : PgMessage} {e : Option RouterError}
    (h : BindDecided cfg st bind w d e w') : w'.sent = w.sent := by
  rcases h with ⟨-, ps, key, -, -, hd⟩ | ⟨-, hd⟩
  · exact hd.sent_eq
  · exact hd.sent_eq

theorem Said.mono {φ ψ : List ToClient → Prop} (h : Said φ w w') (hφ : ∀ new, φ new → ψ new) : Said ψ w w' := by
  obtain ⟨new, hs, hn⟩ := h
  exact ⟨new, hs, hφ new hn⟩

variable {w₁ : Network P}

theorem Said.of_eq {φ : List ToClient → Prop} (h : Said φ w₁ w') (hw : w₁.sent = w.sent) : Said φ w w' := by
  obtain ⟨new, hs, hn⟩ := h
  exact ⟨new, by rw [hs, hw], hn⟩

variable {o : Option Session}

/-- What a simple query is answered, by outcome. -/
theorem QueryOutcome.answer {sql : Str} (h : QueryOutcome cfg s m sql w o w') :
    Said (Answer cfg s m w o w') w w' := by
  cases h with
  | pinned hpin hfwd => exact hfwd.said.mono fun _ => .quiet
  | began hpin hin hkw hms hsd => exact ⟨_, hsd.sent, .quiet hms⟩
  | refused hpin hkw hd hsd => exact ⟨_, by rw [hsd.sent, hd.sent_eq], .refusedQuery hpin rfl rfl⟩
  | scattered hpin hin hkw hr hd hsc hsca =>
    obtain ⟨ms, hs, hms⟩ := hsca.sent
    exact ⟨ms, by rw [hs, hd.sent_eq], .scatter hin hms⟩
  | unreachable hpin hd hms hsd => exact ⟨_, by rw [hsd.sent, hd.sent_eq], .fatal rfl hms⟩
  | routed hpin hin hkw hd hc hfwd =>
    exact (hfwd.said.of_eq (hc.sent_eq.trans hd.sent_eq)).mono fun _ => .quiet
  | pinFailed hpin hin hd hc hb hms hsd =>
    refine ⟨_, ?_, .fatal rfl hms⟩
    rw [hsd.sent, ← hd.sent_eq, ← hc.sent_eq]
    rcases hb with hb | rfl
    · rw [hb.sent_eq]
    · rfl
  | pinnedNow hpin hin hd hc hb hfwd =>
    exact (hfwd.said.of_eq (hb.sent_eq.trans (hc.sent_eq.trans hd.sent_eq))).mono fun _ => .quiet

theorem GotBackend.sent_eq (h : GotBackend s addr w conn s' w') : w'.sent = w.sent := by
  cases h with
  | pinned => rfl
  | plain _ _ hc => exact hc.sent_eq
  | pinnedNow _ _ hc hb => exact hb.sent_eq.trans hc.sent_eq

theorem LostBackend.sent_eq (h : LostBackend s addr w w') : w'.sent = w.sent := by
  cases h with
  | unreachable => rfl
  | pinFailed _ _ hc hb =>
    rcases hb with hb | rfl
    · exact hb.sent_eq.trans hc.sent_eq
    · exact hc.sent_eq

variable {s₁ : Session}

theorem BatchOutcome.answer (hsy : m.type = 'S') (hreg : Registers { s with extBuf := [] } (s.extBuf ++ [m]) w s₁ w₁)
    (h : BatchOutcome cfg s₁ (s.extBuf ++ [m]) w₁ o w') : Said (Answer cfg s m w o w') w₁ w' := by
  cases h with
  | refused hb hw hs =>
    exact ⟨_, by rw [hs.sent, hw.watches.sent], .refusedBatch hsy hb hreg hw hs.observed rfl⟩
  | lost hb hst hdc hl hms hs =>
    exact ⟨_, by rw [hs.sent, hl.sent_eq, hdc.sent_eq], .fatal rfl hms⟩
  | executed hb hst hdc hgot hfwd =>
    exact (hfwd.said.of_eq (hgot.sent_eq.trans hdc.sent_eq)).mono fun _ => .quiet
  | describeRefused hb hd hpin hw hs =>
    have ha := hreg.after
    refine ⟨_, by rw [hs.sent, hw.watches.sent], .refusedDescribe hsy hb hd ?_ ha hw hs.observed ?_ rfl⟩
    · rw [← hpin, ha.pin_eq]
      rfl
    · rw [hs.opened, hw.watches.opened, ha.watches.opened]
  | described hb hd hgot hfwd =>
    refine (hfwd.said.of_eq ?_).mono fun _ => .quiet
    rcases hgot with ⟨-, -, rfl⟩ | ⟨-, topo, shard, addr, -, -, hc⟩
    · rfl
    · exact hc.sent_eq
  | acked hb hd hms hs => exact ⟨_, hs.sent, .quiet hms⟩

/-- The answer to a message, for every kind of message. -/
theorem MessageOutcome.answer (h : MessageOutcome cfg s m w o w') : Said (Answer cfg s m w o w') w w' := by
  cases h with
  | query hl h => exact h.answer
  | buffered => exact ⟨[], by simp, .quiet untroubled_nil⟩
  | batch hs hreg h => exact (h.answer hs hreg).of_eq hreg.after.watches.sent
  | ended hms hsd => exact ⟨_, hsd.sent, .fatal rfl hms⟩

/-! ### The law -/

section Law

variable (ends : Str → Bool)

/-- The client was told that its transaction failed and has not ended it since.  `ends` says which texts end a
transaction. -/
def Failed : Served Session PgMessage (Network P) → Prop
  | .start _ => False
  | .step h m x => Said (failedReady ∈ ·) h.world.2 x.2 ∨ Failed h ∧ (querySQL m).any ends = false

def Executes (m : PgMessage) : Prop := m.type = 'Q' ∨ m.type = 'E'

/-- With an error of the router comes the status of a failed transaction and no other, unless the session ends. -/
def ErrorsFailed (o : Option Session) (new : List ToClient) : Prop :=
  (∃ x ∈ new, x.IsError) → (∀ x ∈ new, x.IsReady → x = failedReady) ∧ (o ≠ none → failedReady ∈ new)

/-- Nothing is executed in a failed transaction, and every error inside a transaction makes it fail. -/
def StaysFailed (h : Served Session PgMessage (Network P)) (_ : PgMessage) (x : Option Session × Network P) : Prop :=
  ∀ s, h.world.1 = some s → (Failed ends h → Wrote (fun y => ¬Executes y.message) h.world.2 x.2) ∧
    (s.inTx → Said (ErrorsFailed x.1) h.world.2 x.2)

/-! ### The condition -/

def DescribeReaches (cfg : RouterConfig) (s : Session) (w w' : Network P) : Prop :=
  ∃ topo shard addr, w'.observed.head? = some (.ok topo) ∧ topo.anyShard = .ok shard ∧ cfg.write shard = .ok addr ∧
    (s.backends addr ≠ none ∨ w.opened < w'.opened)

/-- Inside a transaction the first Bind of a batch is routed and a batch with a Describe finds a backend.  After a
failure a query cannot be routed, no batch has a Bind, and one with a Describe has no Execute. -/
def FailureKept (cfg : RouterConfig) (h : Served Session PgMessage (Network P)) (m : PgMessage)
    (x : Option Session × Network P) :
    Prop :=
  ∀ s, h.world.1 = some s → s.inTx →
    (m.type = byte 'S' → ∀ bind, (s.extBuf ++ [m]).find? (fun m => m.type = byte 'B') = some bind →
      (∃ d, BindRoutes cfg s m bind h.world.2 x.2 d)) ∧
    (m.type = 'S' → s.pin = none → (∀ y ∈ s.extBuf, y.type ≠ 'B') → (∃ y ∈ s.extBuf, y.type = 'D') →
      DescribeReaches cfg s h.world.2 x.2) ∧
    (Failed ends h →
      (∀ sql topo, querySQL m = some sql → x.2.observed = .ok topo :: h.world.2.observed →
        ((cfg.router topo).route sql).2 ≠ none) ∧
      (m.type = 'S' → (∀ y ∈ s.extBuf, y.type ≠ 'B') ∧
        ((∃ y ∈ s.extBuf, y.type = 'D') → ∀ y ∈ s.extBuf, y.type ≠ 'E')))

end Law

/-! ### Refused batches -/

theorem Registers.observed_length {batch : List PgMessage} (h : Registers s batch w s' w') :
    w'.observed.length = w.observed.length +
      (batch.filter fun m => m.type = byte 'P' ∧ parseSQL m ≠ none).length := by
  induction batch generalizing s w with
  | nil =>
    obtain ⟨-, rfl⟩ := h
    simp
  | cons m ms ih =>
    unfold Registers at h
    split at h
    · rename_i hP
      obtain ⟨r, h⟩ := h
      have hr := ih h
      by_cases hn : parseSQL m = none
      · rw [if_pos hn] at hr
        rw [hr, filter_cons_of_neg (by simp [hn])]
      · rw [if_neg hn] at hr
        rw [hr, filter_cons_of_pos (by simp [hP, hn]), length_cons, Network.observe, length_cons]
        omega
    · rename_i hP
      rw [ih h, filter_cons_of_neg (by simp [hP])]

variable {w₂ : Network P}

/-- Registering a batch depends on the topologies it observes alone. -/
theorem Registers.unique {batch : List PgMessage} {s₂ : Session}
    (h₁ : Registers s batch w s₁ w₁) (h₂ : Registers s batch w s₂ w₂) (hobs : w₁.observed = w₂.observed) :
      s₁ = s₂ := by
  induction batch generalizing s w with
  | nil => exact h₁.1.trans h₂.1.symm
  | cons m ms ih =>
    unfold Registers at h₁ h₂
    split at h₁
    · rename_i hP
      rw [if_pos hP] at h₂
      obtain ⟨r₁, h₁⟩ := h₁
      obtain ⟨r₂, h₂⟩ := h₂
      by_cases hn : parseSQL m = none
      · have ha : ∀ r, s.afterParse m r = s := by
          intro r
          simp [Session.afterParse, hn]
        rw [ha, if_pos hn] at h₁ h₂
        exact ih h₁ h₂
      · rw [if_neg hn] at h₁ h₂
        obtain ⟨rs₁, hrs₁⟩ := h₁.after.watches.observed
        obtain ⟨rs₂, hrs₂⟩ := h₂.after.watches.observed
        rw [hrs₁, hrs₂] at hobs
        have ht : r₁ :: w.observed = r₂ :: w.observed := (append_inj' hobs rfl).2
        cases ht
        exact ih h₁ h₂
    · rename_i hP
      rw [if_neg hP] at h₂
      exact ih h₁ h₂

/-- A bind that was routed under a topology is not refused under the same one. -/
theorem BindRoutes.not_refused {bind : PgMessage}
    (h : BindRoutes cfg s m bind w w' d) (hreg : Registers { s with extBuf := [] } (s.extBuf ++ [m]) w s₁ w₁)
    (hw : BatchRefused cfg s₁ bind w₁ w₂) (hobs : w'.observed = w₂.observed) : False := by
  obtain ⟨s₃, w₃, st, topo, hreg₃, hst, hobs₃, hd⟩ := h
  have hl : w₃.observed.length = w₁.observed.length := by rw [hreg₃.observed_length, hreg.observed_length]
  -- without a decision the provider is not asked
  have ha : w₂ ≠ w₁ := by
    rintro rfl
    rw [hobs₃] at hobs
    have := congrArg length hobs
    rw [length_cons] at this
    omega
  cases hw with
  | unknown => exact ha rfl
  | noParameter => exact ha rfl
  | notRouted hst₁ hc =>
    rcases hc.decision with ⟨txt, -, rfl⟩ | ⟨topo₁, x, rfl, hx, -, he⟩
    · rw [hobs₃] at hobs
      cases head_eq_of_cons_eq hobs
    · rw [hobs₃] at hobs
      obtain ⟨ht, htl⟩ := cons.inj hobs
      cases ht
      cases hreg₃.unique hreg htl
      rw [hst] at hst₁
      cases hst₁
      rw [hd] at hx
      cases hx
      cases he

theorem mem_extBuf {x : PgMessage} (hs : m.type = 'S') (hx : x ∈ s.extBuf ++ [m]) (ht : x.type ≠ 'S') :
    x ∈ s.extBuf := by
  rcases mem_append.1 hx with hx | hx
  · exact hx
  · rw [mem_singleton.1 hx] at ht
    exact absurd hs ht

theorem no_bind
    (hb : (s.extBuf ++ [m]).find? (fun m => m.type = byte 'B') = none) : ∀ y ∈ s.extBuf, y.type ≠ byte 'B' := by
  intro y hy
  have := find?_eq_none.1 hb y (mem_append_left _ hy)
  simpa using this

theorem some_describe (hs : m.type = 'S') (hd : ∃ x ∈ s.extBuf ++ [m], x.type = 'D') :
    ∃ y ∈ s.extBuf, y.type = 'D' := by
  obtain ⟨y, hy, hD⟩ := hd
  exact ⟨y, mem_extBuf hs hy (by rw [hD]; decide), hD⟩

theorem DescribeReaches.not_refused (h : DescribeReaches cfg s w w')
    (hb : s₁.backends = s.backends) (hy : DescribeRefused cfg s₁ w₁ w₂) (hobs : w'.observed = w₂.observed)
    (ho : w'.opened = w.opened) : False := by
  obtain ⟨topo, shard, addr, hh, ha, hw, hc⟩ := h
  rw [hobs] at hh
  rcases hy with ⟨txt, rfl⟩ | ⟨topo₁, rfl, hn⟩
  · cases hh
  · cases hh
    rcases hc with hc | hc
    · rw [← hb] at hc
      exact hc (hn shard addr ha hw)
    · omega

/-! ### Steps -/

theorem errorsFailed_of_untroubled {new : List ToClient} (h : Untroubled new) : ErrorsFailed o new := by
  rintro ⟨x, hx, he⟩
  exact absurd he (h x hx).1

variable {ends : Str → Bool} {h : Served Session PgMessage (Network P)} {x : Option Session × Network P}

/-- Step lemma: in a transaction an error of the router is followed by the failed status. -/
theorem MessageOutcome.errorsFailed (hou : MessageOutcome cfg s m h.world.2 x.1 x.2) (hs : h.world.1 = some s)
    (hc : FailureKept ends cfg h m x) (hin : s.inTx) : Said (ErrorsFailed x.1) h.world.2 x.2 := by
  obtain ⟨hb, hds, -⟩ := hc s hs hin
  obtain ⟨new, hsn, ha⟩ := hou.answer
  refine ⟨new, hsn, ?_⟩
  cases ha with
  | quiet h => exact errorsFailed_of_untroubled h
  | fatal ho h => exact fun _ => ⟨fun x hx hr => absurd hr (h x hx), fun hne => absurd ho hne⟩
  | scatter ht => rw [hin] at ht; cases ht
  | refusedQuery hpin ho h =>
    subst h
    rw [hin, if_pos rfl]
    refine fun _ => ⟨?_, fun _ => by simp [failedReady]⟩
    intro x hx hr
    rcases mem_cons.1 hx with rfl | hx
    · obtain ⟨status, heq⟩ := hr
      cases heq
    · exact mem_singleton.1 hx
  | refusedBatch hsy hbn hreg hw hobs =>
    obtain ⟨d, hro⟩ := hb hsy _ hbn
    exact (hro.not_refused hreg hw hobs).elim
  | refusedDescribe hsy hbn hd hpin hreg hw hobs hop =>
    have hre := hds hsy hpin (no_bind hbn) (some_describe hsy hd)
    exact (hre.not_refused hreg.backends hw hobs hop).elim

theorem QueryOutcome.still_failed {sql : Str} (h : QueryOutcome cfg s m sql w o w')
    (hin : s.inTx) (hpin : s.pin = none)
    (hr : ∀ topo, w'.observed = .ok topo :: w.observed → ((cfg.router topo).route sql).2 ≠ none) :
    w'.written = w.written ∧ ∀ s', o = some s' → s' = s := by
  have hn : ∀ {d : RouteDecision} {w₁ : Network P}, Decided (fun t => (cfg.router t).route sql) w d none w₁ →
      w'.observed = w₁.observed → False := by
    rintro d w₁ (⟨topo, -, he, rfl⟩ | ⟨txt, he, -⟩) hobs
    · exact hr topo hobs (Option.map_eq_none_iff.1 he.symm)
    · cases he
  have ht : s.inTx ≠ false := by simp [hin]
  cases h with
  | pinned hpin' => rw [hpin] at hpin'; cases hpin'
  | began _ hin' | scattered _ hin' | routed _ hin' => exact absurd hin' ht
  | refused _ _ hd hs =>
    refine ⟨?_, fun s' ho => (Option.some.inj ho).symm⟩
    rw [hs.written]
    rcases hd with ⟨topo, -, -, rfl⟩ | ⟨txt, -, -, rfl⟩
    · rfl
    · rfl
  | unreachable _ hd _ hs => exact (hn hd hs.observed).elim
  | pinFailed _ _ hd hc hb _ hs =>
    refine (hn hd ?_).elim
    rw [hs.observed, ← hc.written_eq.2]
    rcases hb with hb | rfl
    · exact hb.observed_eq
    · rfl
  | pinnedNow _ _ hd hc hb hfwd =>
    refine (hn hd ?_).elim
    rw [hfwd.observed_eq, hb.observed_eq, hc.written_eq.2]

theorem BatchOutcome.still_failed (hsy : m.type = 'S')
    (h : BatchOutcome cfg s₁ (s.extBuf ++ [m]) w o w') (hs : s.Buffers) (hin : s₁.inTx) (hpin : s₁.pin = none)
    (hB : ∀ y ∈ s.extBuf, y.type ≠ 'B')
    (hE : (∃ y ∈ s.extBuf, y.type = 'D') → ∀ y ∈ s.extBuf, y.type ≠ 'E') :
    Wrote (fun y => ¬Executes y.message) w w' ∧ ∀ s', o = some s' → s'.inTx ∧ s'.pin = none := by
  have hn : ∀ {bind}, (s.extBuf ++ [m]).find? (fun m => m.type = byte 'B') ≠ some bind := by
    intro bind hb
    have ht : bind.type = byte 'B' := by simpa using find?_some hb
    exact hB bind (mem_extBuf hsy (mem_of_find?_eq_some hb) (by rw [ht]; decide)) ht
  cases h with
  | refused hb | lost hb | executed hb => exact absurd hb hn
  | describeRefused _ _ _ hw hsd =>
    refine ⟨wrote_of_eq (hsd.written.trans hw.watches.written), ?_⟩
    intro s' ho
    obtain ⟨-, rfl⟩ := alive_eq_some ho
    exact ⟨hin, hpin⟩
  | described _ hd hgot hfwd =>
    rcases hgot with ⟨hpin', -⟩ | ⟨-, topo, shard, addr, -, -, hc⟩
    · rw [hpin] at hpin'
      cases hpin'
    · refine ⟨(wrote_of_eq hc.written_eq.1).trans (hfwd.wrote.mono ?_), ?_⟩
      · rintro y ⟨-, hy, -⟩
        rcases mem_append.1 hy with hy | hy
        · rintro (hQ | hE')
          · have he := hs _ hy
            rw [hQ] at he
            exact absurd he (by decide)
          · exact hE (some_describe hsy hd) _ hy hE'
        · rw [mem_singleton.1 hy, Executes, hsy]
          decide
      · intro s' ho
        obtain ⟨-, rfl⟩ := alive_eq_some ho
        exact ⟨hc.inTx_eq.trans hin, hc.pin_eq.trans hpin⟩
  | acked _ _ _ hsd =>
    refine ⟨wrote_of_eq hsd.written, ?_⟩
    intro s' ho
    obtain ⟨-, rfl⟩ := alive_eq_some ho
    obtain ⟨stmts, heq, -⟩ := foldl_handleClose s₁ ((s.extBuf ++ [m]).filter fun m => m.type = 'C')
    rw [heq]
    exact ⟨hin, hpin⟩

/-- Step lemma: a failed transaction stays failed until it ends. -/
theorem MessageOutcome.still_failed (ht : MessageOutcome cfg s m h.world.2 x.1 x.2) (hsn : s.Sound h.world.2)
    (hs : h.world.1 = some s) (hc : FailureKept ends cfg h m x) (hf : Failed ends h) (hin : s.inTx)
    (hpin : s.pin = none) :
    Wrote (fun y => ¬Executes y.message) h.world.2 x.2 ∧ ∀ s', x.1 = some s' → s'.inTx ∧ s'.pin = none := by
  obtain ⟨hr, hb⟩ := (hc s hs hin).2.2 hf
  obtain ⟨o, w'⟩ := x
  cases ht with
  | query hl ht =>
    obtain ⟨hwr, hsm⟩ := ht.still_failed hin hpin fun topo => hr _ topo hl
    refine ⟨wrote_of_eq hwr, ?_⟩
    intro s' ho
    rw [hsm s' ho]
    exact ⟨hin, hpin⟩
  | buffered =>
    refine ⟨wrote_of_eq rfl, ?_⟩
    rintro s' ⟨⟩
    exact ⟨hin, hpin⟩
  | batch hsy hreg ht =>
    have ha := hreg.after
    obtain ⟨hB, hE⟩ := hb hsy
    obtain ⟨hw, hk⟩ := ht.still_failed hsy hsn.buffers (ha.inTx.trans hin)
      (ha.pin_eq.trans hpin) hB hE
    exact ⟨(wrote_of_eq ha.watches.written).trans hw, hk⟩
  | ended hms hsd => exact ⟨wrote_of_eq hsd.written, nofun⟩

/-- A session that told its client `E` is in a transaction that no backend has. -/
theorem Answer.failed {new : List ToClient} (h : Answer cfg s m w o w' new)
    (hm : failedReady ∈ new) (ho : o = some s') : s'.inTx ∧ s'.pin = none := by
  have hid : ∀ {s₁ : Session} {code text : Str} {cause : Option RouterError},
      failedReady ∉ [.error code text cause, s₁.idleStatus] := by
    intro s₁ code text cause hm
    rcases mem_cons.1 hm with heq | hm
    · cases heq
    · have heq := mem_singleton.1 hm
      unfold Session.idleStatus at heq
      split at heq
      · exact absurd heq (by decide)
      · exact absurd heq (by decide)
  cases h with
  | quiet h => exact absurd rfl (h _ hm).2
  | fatal ho' =>
    rw [ho] at ho'
    cases ho'
  | scatter _ h => exact absurd hm h
  | refusedQuery hpin ho' h =>
    rw [ho] at ho'
    cases ho'
    refine ⟨?_, hpin⟩
    subst h
    rcases mem_cons.1 hm with heq | hm
    · cases heq
    · have heq := mem_singleton.1 hm
      cases hin : s.inTx with
      | true => rfl
      | false =>
        rw [hin] at heq
        exact absurd heq (by decide)
  | refusedBatch _ _ _ _ _ h | refusedDescribe _ _ _ _ _ _ _ _ h =>
    subst h
    exact absurd hm hid

/-- In every run whose steps meet the condition a failed transaction stays failed. -/
theorem transaction_stays_failed {ends : Str → Bool} {h : Served Session PgMessage (Network P)}
    (hrun : IsSessionRun P cfg h) (hkept : h.Steps (FailureKept ends cfg)) : h.Steps (StaysFailed ends) := by
  refine hrun.steps (fun h s => Failed ends h → s.inTx ∧ s.pin = none) nofun ?_ hkept
  intro h s m x hso hv ht hs hc
  refine ⟨?_, ?_⟩
  · intro s' hs'
    rw [hs] at hs'
    cases hs'
    refine ⟨?_, ht.errorsFailed hs hc⟩
    intro hf
    obtain ⟨hin, hpin⟩ := hv hf
    exact (ht.still_failed hso hs hc hf hin hpin).1
  · rintro s' ho (⟨new, hsn, hm⟩ | ⟨hf, -⟩)
    · obtain ⟨new', hsn', ha⟩ := ht.answer
      rw [hsn] at hsn'
      cases append_cancel_left hsn'
      exact ha.failed hm ho
    · obtain ⟨hin, hpin⟩ := hv hf
      exact (ht.still_failed hso hs hc hf hin hpin).2 s' ho

def endsTransaction (sql : Str) : Bool := firstKeyword sql ∈ str "abort" :: endKeywords

def keylessError : ToClient :=
  .error "0A000" "cannot scatter a keyless query inside a transaction" none

def beganAnswer : List ToClient := [.own ⟨'C', cstring "BEGIN"⟩, .own ⟨'Z', ['T']⟩]

private def queryKept (cfg : RouterConfig) (h : Served Session PgMessage (Network P)) (m : PgMessage)
    (x : Option Session × Network P) : Bool :=
  m.type = 'Q' && match h.world.1, x.2.observed with
    | some s, .ok topo :: _ =>
      !s.inTx || decide (∀ sql ∈ querySQL m, ((cfg.router topo).route sql).2 ≠ none)
    | _, _ => true

theorem failureKept_of_queryKept (hk : queryKept cfg h m x) : FailureKept ends cfg h m x := by
  unfold queryKept at hk
  rw [Bool.and_eq_true, decide_eq_true_eq] at hk
  obtain ⟨hQ, hk⟩ := hk
  have hsy : m.type ≠ 'S' := by
    rw [hQ]
    decide
  intro s hs hin
  refine ⟨fun hS => absurd hS hsy, fun hS => absurd hS hsy, fun _ => ⟨?_, fun hS => absurd hS hsy⟩⟩
  intro sql topo hl hobs
  rw [hs, hobs] at hk
  simp only [hin, Bool.not_true, Bool.false_or, decide_eq_true_eq] at hk
  exact hk sql hl

/-- A query without a key fails a transaction, and a second one finds it failed. -/
theorem transaction_stays_failed_keyless : ∃ h, IsSessionRun readyPeer primaries h ∧
    h.Steps (FailureKept endsTransaction primaries) ∧ h.Steps (StaysFailed endsTransaction) ∧
    h.world.2.sent = beganAnswer ++ [keylessError, failedReady, keylessError, failedReady] := by
  refine exists_sessionRun_check failureKept_of_queryKept transaction_stays_failed
    [(queryMessage "BEGIN", answers (twoTenants false) 2), (selectAll, answers (twoTenants false) 3),
      (selectAll, answers (twoTenants false) 3)] ?_
  decide +kernel

/-- After the status of a failed transaction an UPDATE with a key is executed and its COMMIT forwarded; and a batch
that is refused inside a transaction is answered with the status of one that is fine. -/
theorem transaction_goes_on_after_failure :
    (∃ h, IsSessionRun readyPeer primaries h ∧ (h.world.2.sent, h.world.2.written.map Write.message) =
      (beganAnswer ++ [keylessError, failedReady, .relayed ⟨'Z', ['I']⟩, .relayed ⟨'Z', ['I']⟩],
        [queryMessage "BEGIN", updateA, queryMessage "COMMIT"])) ∧
    ∃ h, IsSessionRun readyPeer primaries h ∧ h.world.2.sent = beganAnswer ++
      [.error "26000" "prepared statement not found: u" none, .own ⟨'Z', ['T']⟩] := by
  refine ⟨?_, ?_⟩
  · refine exists_sessionRun
      [(queryMessage "BEGIN", answers (twoTenants false) 2), (selectAll, answers (twoTenants false) 3),
        (updateA, answers (twoTenants false) 7), (queryMessage "COMMIT", answers (twoTenants false) 3)] ?_
    decide +kernel
  · refine exists_sessionRun [(queryMessage "BEGIN", answers (twoTenants false) 2), (bindMessage "u" ["a"], []),
      (syncMessage, answers (twoTenants false) 2)] ?_
    decide +kernel

end PostgresOperator
