import PostgresOperator.PgRouter.SessionRun

/-!
# Shards, the write-block and replicas

Three laws about what a session forwards.  They hold where the router looks at every statement it forwards; it looks
at one statement for a pinned transaction and at one for a batch.

* `forwarded_to_own_shard`: outside a pinned transaction a query, or the first Bind of a batch, goes to a backend of
  the shard of its routing key.
* `write_block_held`: while writes are blocked only read-only statements are forwarded.
* `replica_gets_no_write`: only read-only statements go to a replica.
-/

namespace PostgresOperator

open Go Calls Session RouterConfig Option List

variable {P : Peer} {cfg : RouterConfig} {s s' : Session} {m : PgMessage} {w w' : Network P}

/-! ### What a step forwards -/

def carriedSQL (sqls : Str → Option Str) (m : PgMessage) : Option Str :=
  if m.type = 'Q' then querySQL m
  else if m.type = 'P' then parseSQL m
  else if m.type = 'B' then sqls (bindStmtName m)
  else none

def ReadOnlyMessage (sqls : Str → Option Str) (m : PgMessage) : Prop :=
  ∀ sql, carriedSQL sqls m = some sql → isReadOnlyQuery sql

instance (sqls : Str → Option Str) (m : PgMessage) : Decidable (ReadOnlyMessage sqls m) :=
  decidable_of_iff ((carriedSQL sqls m).all isReadOnlyQuery) (by
    unfold ReadOnlyMessage
    cases carriedSQL sqls m with
    | none => simp
    | some sql => simp)

namespace Session

def sqlsIn (s : Session) (m : PgMessage) : Str → Option Str :=
  if m.type = 'S' then sqlsAfter s.sqls (s.extBuf ++ [m]) else s.sqls

def forwards (s : Session) (m : PgMessage) : List PgMessage :=
  if m.type = 'Q' then s.heldBegin ++ [m]
  else if m.type = 'S' then
    if (s.extBuf ++ [m]).any fun x => x.type = 'B' then s.heldBegin ++ (s.extBuf ++ [m])
    else if (s.extBuf ++ [m]).any fun x => x.type = 'D' then s.extBuf ++ [m]
    else []
  else []

def firstBind (s : Session) (m : PgMessage) : Option PgMessage :=
  if m.type = 'S' then (s.extBuf ++ [m]).find? fun x => x.type = 'B' else none

def routedSQL (s : Session) (m : PgMessage) : Option Str :=
  if m.type = 'Q' then if s.pin = none then querySQL m else none
  else (s.firstBind m).bind fun bind => s.sqlsIn m (bindStmtName bind)

end Session

theorem sync_ne_query (hs : m.type = 'S') : m.type ≠ 'Q' := by
  rw [hs]
  decide

variable {sql : Str}

theorem routedSQL_query (hs : querySQL m = some sql) : s.routedSQL m = if s.pin = none then some sql else none := by
  rw [routedSQL, if_pos (querySQL_type hs), hs]

variable {bind : PgMessage}

theorem routedSQL_batch (hs : m.type = 'S')
    (hb : (s.extBuf ++ [m]).find? (fun m => m.type = byte 'B') = some bind) :
    s.routedSQL m = sqlsAfter s.sqls (s.extBuf ++ [m]) (bindStmtName bind) := by
  rw [routedSQL, if_neg (sync_ne_query hs), firstBind, if_pos hs, hb, bind_some,
    sqlsIn, if_pos hs]

theorem routedSQL_describe (hs : m.type = 'S')
    (hb : (s.extBuf ++ [m]).find? (fun m => m.type = byte 'B') = none) : s.routedSQL m = none := by
  rw [routedSQL, if_neg (sync_ne_query hs), firstBind, if_pos hs, hb, bind_none]

theorem forwards_query (hs : querySQL m = some sql) : s.forwards m = s.heldBegin ++ [m] := by
  rw [forwards, if_pos (querySQL_type hs)]

theorem forwards_batch (hs : m.type = 'S')
    (hb : (s.extBuf ++ [m]).find? (fun m => m.type = byte 'B') = some bind) :
    s.forwards m = s.heldBegin ++ (s.extBuf ++ [m]) := by
  have ha : ((s.extBuf ++ [m]).any fun x => x.type = 'B') := by
    rw [List.any_eq_true]
    have hB := find?_some hb
    exact ⟨bind, mem_of_find?_eq_some hb, hB⟩
  rw [forwards, if_neg (sync_ne_query hs), if_pos hs, if_pos ha]

theorem forwards_describe (hs : m.type = byte 'S') (hb : (s.extBuf ++ [m]).find? (fun m => m.type = byte 'B') = none)
    (hd : ∃ x ∈ s.extBuf ++ [m], x.type = 'D') : s.forwards m = s.extBuf ++ [m] := by
  have hB : ((s.extBuf ++ [m]).any fun x => x.type = 'B') = false := by
    rw [find?_eq_none] at hb
    rw [List.any_eq_false]
    exact hb
  have hD : ((s.extBuf ++ [m]).any fun x => x.type = 'D') := by
    obtain ⟨y, hy, hD⟩ := hd
    exact any_eq_true.2 ⟨y, hy, by simp [hD]⟩
  rw [forwards, if_neg (sync_ne_query hs), if_pos hs, hB, if_neg (by decide), if_pos hD]

theorem mem_heldBegin (hpin : s.pin = none) (hin : s.inTx) : s.pendingBegin ∈ s.heldBegin := by
  simp [heldBegin, hpin, hin]

variable {x : Write P}

/-- The router writes what the client sent, a bare Sync, or the Parse of the statement that is executed. -/
theorem Target.message (hs : s.Registered w) (h : Target cfg s m w' x) :
    x.message ∈ s.forwards m ∨ x.message = ⟨'S', []⟩ ∨
      ∃ sql, s.routedSQL m = some sql ∧ parseSQL x.message = some sql := by
  cases h with
  | pinnedQuery hl hpin hmsg =>
    left
    rw [forwards_query hl, hmsg]
    simp
  | query hl hpin hsn hobs hro ha hmsg =>
    left
    rw [forwards_query hl, mem_append, mem_singleton]
    rcases hmsg with hmsg | ⟨hin, hmsg⟩
    · exact .inr hmsg
    · rw [hmsg]
      exact .inl (mem_heldBegin hpin hin)
  | scatter hl hpin hr hobs hsc ha hmsg =>
    left
    rw [forwards_query hl, hmsg]
    simp
  | batch hsy hb hst ho hsn hobs hro hc hmsg =>
    rw [forwards_batch hsy hb, mem_append]
    rcases hmsg with hmsg | hmsg | hmsg | ⟨hpin, hin, hmsg⟩
    · exact .inl (.inr hmsg)
    · refine .inr (.inr ⟨_, (routedSQL_batch hsy hb).trans hst, ?_⟩)
      rw [hmsg]
      rcases ho with hold | ⟨hp, -⟩
      · exact (hs _ _ hold).1
      · exact hp
    · exact .inr (.inl hmsg)
    · rw [hmsg]
      exact .inl (.inl (mem_heldBegin hpin hin))
  | describe hsy hb hd hc hmsg =>
    left
    rw [forwards_describe hsy hb hd]
    exact hmsg

theorem routedSQL_readOnly (hf : ∀ y ∈ s.forwards m, ReadOnlyMessage (s.sqlsIn m) y)
    (hl : s.routedSQL m = some sql) : isReadOnlyQuery sql := by
  unfold routedSQL at hl
  split at hl
  · rename_i hQ
    split at hl
    · refine hf m ?_ sql ?_
      · rw [forwards_query hl]
        simp
      · rw [carriedSQL, if_pos hQ, hl]
    · cases hl
  · obtain ⟨bind, hb, hl⟩ := bind_eq_some_iff.1 hl
    unfold firstBind at hb
    split at hb
    · rename_i hs
      have hB : bind.type = 'B' := by simpa using find?_some hb
      refine hf bind ?_ sql ?_
      · rw [forwards_batch hs hb]
        exact mem_append_right _ (mem_of_find?_eq_some hb)
      · rw [carriedSQL, hB, if_neg (by decide), if_neg (by decide), if_pos rfl]
        exact hl
    · cases hb

/-- If all that is forwarded only reads, all that is written only reads. -/
theorem Target.readOnly (hs : s.Registered w) (h : Target cfg s m w' x)
    (hf : ∀ y ∈ s.forwards m, ReadOnlyMessage (s.sqlsIn m) y) : ReadOnlyMessage (s.sqlsIn m) x.message := by
  rcases h.message hs with hm | hsy | ⟨sql, hl, hp⟩
  · exact hf _ hm
  · intro sql hl
    rw [hsy] at hl
    cases hl
  · have hP : x.message.type = 'P' := by
      unfold parseSQL at hp
      by_contra hne
      rw [if_pos hne] at hp
      cases hp
    intro sql' hl'
    rw [carriedSQL, hP, if_neg (by decide), if_pos rfl, hp] at hl'
    cases hl'
    exact routedSQL_readOnly hf hl

/-! ### The write-block -/

/-- No statement that is not read-only is written while the topology observed last has writes blocked. -/
def HoldsBlock : StepProp Session PgMessage (Network P) := fun s w m _ w' =>
  Wrote (fun x => ∀ topo, x.seen = some topo → topo.spec.writeBlocked →
    ReadOnlyMessage (s.sqlsIn m) x.message) w w'

/-- While writes are blocked, everything that the step may forward is read-only, or the text by which it is routed is
not. -/
def BlockChecked : StepProp Session PgMessage (Network P) := fun s _ m _ w' =>
  ∀ topo, w'.seen = some topo → topo.spec.writeBlocked →
    (∀ x ∈ s.forwards m, ReadOnlyMessage (s.sqlsIn m) x) ∨ ∃ sql, s.routedSQL m = some sql ∧
      isReadOnlyQuery sql = false

variable {st : Pstmt} {topo : Topology} {d : RouteDecision}

theorem BindRouted.unblocked
    (h : BindRouted cfg st bind topo d) : isReadOnlyQuery st.sql ∨ topo.spec.writeBlocked = false := by
  rcases h with ⟨-, ps, key, -, -, hd⟩ | ⟨-, hd⟩
  · exact (keyDecision_none hd).1
  · exact hd.unblocked

/-- A statement that is routed while the block is seen only reads. -/
theorem Target.routed_readOnly (h : Target cfg s m w' x)
    (hs : x.seen = some topo) (hbl : topo.spec.writeBlocked)
    (hl : s.routedSQL m = some sql) : isReadOnlyQuery sql := by
  cases h with
  | pinnedQuery hq hpin hmsg =>
    rw [routedSQL_query hq, hpin, if_neg (by simp)] at hl
    cases hl
  | query hq hpin hs' hobs hro ha hmsg =>
    rw [routedSQL_query hq, if_pos hpin] at hl
    cases hl
    rw [hs] at hs'
    cases hs'
    rcases hro.unblocked with hr | ho
    · exact hr
    · exact absurd hbl (by rw [show topo.spec.writeBlocked = false from ho]; decide)
  | scatter hq hpin hr hobs hsc ha hmsg =>
    rw [routedSQL_query hq, if_pos hpin] at hl
    cases hl
    exact hr
  | batch hsy hb hst hor hs' hobs hro hc hmsg =>
    rw [routedSQL_batch hsy hb, hst] at hl
    cases hl
    rw [hs] at hs'
    cases hs'
    rcases hro.unblocked with hr | ho
    · exact hr
    · rw [ho] at hbl
      cases hbl
  | describe hsy hb hd hc hmsg =>
    rw [routedSQL_describe hsy hb] at hl
    cases hl

/-- In every run whose steps meet the condition the write-block holds. -/
theorem write_block_held {h : Served Session PgMessage (Network P)} (hrun : IsSessionRun P cfg h)
    (hchecked : h.Always BlockChecked) : h.Always HoldsBlock := by
  refine hrun.always ?_ hchecked
  intro s w m o w' hs ho hc
  refine (ho.targets hs.pooled.keyed).mono ?_
  rintro x ⟨hsn, ht⟩ topo hx hb
  rcases hc topo (by rw [← hsn, hx]) hb with hf | ⟨sql, hl, hn⟩
  · exact ht.readOnly hs.registered hf
  · rw [ht.routed_readOnly hx hb hl] at hn
    cases hn

/-- A read while writes are blocked. -/
theorem write_block_held_select : ∃ h, IsSessionRun readyPeer primaries h ∧ h.Always BlockChecked ∧
    h.Always HoldsBlock ∧ h.world.2.written.map
      (fun x => (x.message, x.seen)) = [(selectA, some (twoTenants true))] := by
  obtain ⟨x, hr, hx⟩ := exists_sessionStep readyPeer primaries selectA (answers (twoTenants true) 5)
    (fun x => x.2.written.map fun x => (x.message, x.seen)) [(selectA, some (twoTenants true))] (by decide +kernel)
  have hc : (Run.step (.start (some {}, {})) selectA x).Always BlockChecked := by
    refine ⟨trivial, ?_⟩
    rintro _ ⟨⟩ topo - -
    exact .inl (by decide +kernel)
  exact ⟨_, hr, hc, write_block_held hr hc, hx⟩

/-- With writes blocked all the time, an UPDATE in a transaction that a SELECT pinned is forwarded. -/
theorem write_block_passed :
    (twoTenants true).spec.writeBlocked ∧ (querySQL updateA).map isReadOnlyQuery = some false ∧
    ∃ h, IsSessionRun readyPeer primaries h ∧ h.world.2.written.map (fun x => (x.message, x.seen)) =
      [(queryMessage "BEGIN", some (twoTenants true)), (selectA, some (twoTenants true)),
        (updateA, some (twoTenants true))] := by
  refine ⟨rfl, by decide +kernel, ?_⟩
  refine exists_sessionRun
    [(queryMessage "BEGIN", answers (twoTenants true) 2), (selectA, answers (twoTenants true) 7),
    (updateA, answers (twoTenants true) 3)] ?_
  decide +kernel

/-! ### Replicas -/

def RouterConfig.ReadAddress (cfg : RouterConfig) (addr : Str) : Prop :=
  ∃ read shard, cfg.read = some read ∧ read shard = .ok addr

def RouterConfig.Apart (cfg : RouterConfig) : Prop := ∀ shard addr, cfg.write shard = .ok addr → ¬cfg.ReadAddress addr

/-- Only read-only statements are written to an address of the Read resolver. -/
def SparesReplicas (cfg : RouterConfig) : StepProp Session PgMessage (Network P) := fun s w m _ w' =>
  Wrote (fun x => cfg.ReadAddress x.conn.addr → ReadOnlyMessage (s.sqlsIn m) x.message) w w'

/-- Everything that the step may forward is read-only, or the resolvers are apart and the step goes to a primary: it
is in a transaction that is pinned to one, or the text by which it is routed is not read-only. -/
def PrimaryChosen (cfg : RouterConfig) : StepProp Session PgMessage (Network P) := fun s _ m _ _ =>
  (∀ x ∈ s.forwards m, ReadOnlyMessage (s.sqlsIn m) x) ∨
    cfg.Apart ∧ match s.pin with
      | some conn => ¬cfg.ReadAddress conn.addr
      | none => ∀ sql, s.routedSQL m = some sql → isReadOnlyQuery sql = false ∨ cfg.read = none

/-- A pinned session writes to its pin. -/
theorem Target.conn_eq (h : Target cfg s m w' x) {conn : Conn} (hpin : s.pin = some conn) : x.conn = conn := by
  cases h with
  | pinnedQuery _ hpin' =>
    rw [hpin] at hpin'
    cases hpin'
    rfl
  | query _ hpin' | scatter _ hpin' =>
    rw [hpin] at hpin'
    cases hpin'
  | batch _ _ _ _ _ _ _ hc | describe _ _ _ hc =>
    rcases hc with hpin' | ⟨hpin', -⟩
    · rw [hpin] at hpin'
      cases hpin'
      rfl
    · rw [hpin] at hpin'
      cases hpin'

theorem RoutedTo.resolved (h : RoutedTo (cfg.router topo) sql d) :
    (if isReadOnlyQuery sql then cfg.read.getD cfg.write else cfg.write) d.shard = .ok d.backend := by
  obtain ⟨pick, hp, hb⟩ := h.backend
  cases hrd : isReadOnlyQuery sql with
  | false =>
    rw [hrd] at hp
    cases hp
    exact hb
  | true =>
    rw [hrd] at hp
    cases hr : cfg.read with
    | none =>
      simp only [router, hr] at hp
      cases hp
      exact hb
    | some read =>
      simp only [router, hr] at hp
      cases hp
      exact hb

theorem BindRouted.resolved (h : BindRouted cfg st bind topo d) :
    (if isReadOnlyQuery st.sql then cfg.read.getD cfg.write else cfg.write) d.shard = .ok d.backend := by
  rcases h with ⟨-, ps, key, -, -, hd⟩ | ⟨-, hd⟩
  · exact (keyDecision_none hd).2.2.1
  · exact hd.resolved

/-- A text that may write is resolved by the resolver of primaries. -/
theorem Target.primary (h : Target cfg s m w' x) (hpin : s.pin = none)
    (hro : ∀ sql, s.routedSQL m = some sql → isReadOnlyQuery sql = false ∨ cfg.read = none) :
    ∃ shard, cfg.write shard = .ok x.conn.addr := by
  have hrs : ∀ {sql : Str} {d : RouteDecision}, s.routedSQL m = some sql →
      (if isReadOnlyQuery sql then cfg.read.getD cfg.write else cfg.write) d.shard = .ok d.backend →
      cfg.write d.shard = .ok d.backend := by
    intro sql d hl hbc
    rcases hro sql hl with hr | hr
    · simpa [hr] using hbc
    · simpa [hr] using hbc
  cases h with
  | pinnedQuery _ hpin' =>
    rw [hpin] at hpin'
    cases hpin'
  | query hl _ _ _ hd ha =>
    rw [ha]
    exact ⟨_, hrs (by rw [routedSQL_query hl, if_pos hpin]) hd.resolved⟩
  | scatter _ _ _ _ _ ha => exact ha
  | batch hs hb hst _ _ _ hd hc =>
    rcases hc with hpin' | ⟨-, ha⟩
    · rw [hpin] at hpin'
      cases hpin'
    · rw [ha]
      exact ⟨_, hrs ((routedSQL_batch hs hb).trans hst) hd.resolved⟩
  | describe _ _ _ hc =>
    rcases hc with hpin' | ⟨-, ha⟩
    · rw [hpin] at hpin'
      cases hpin'
    · exact ha

/-- In every run whose steps meet the condition only read-only statements go to a replica. -/
theorem replica_gets_no_write {h : Served Session PgMessage (Network P)} (hrun : IsSessionRun P cfg h)
    (hchosen : h.Always (PrimaryChosen cfg)) : h.Always (SparesReplicas cfg) := by
  refine hrun.always ?_ hchosen
  intro s w m o w' hs ho hc
  refine (ho.targets hs.pooled.keyed).mono ?_
  rintro x ⟨-, ht⟩ hr
  rcases hc with hf | ⟨ha, hc⟩
  · exact ht.readOnly hs.registered hf
  · exfalso
    split at hc
    · rename_i conn hpin
      rw [ht.conn_eq hpin] at hr
      exact hc hr
    · rename_i hpin
      obtain ⟨shard, hsh⟩ := ht.primary hpin hc
      exact ha shard _ hsh hr

/-- An UPDATE with a primary and a replica for every shard. -/
theorem replica_gets_no_write_update : ∃ h, IsSessionRun readyPeer primariesAndReplicas h ∧
    h.Always (PrimaryChosen primariesAndReplicas) ∧ h.Always (SparesReplicas primariesAndReplicas) ∧
    h.world.2.written.map (fun x => (x.conn.addr, x.message)) = [(str "primary/shard-0", updateA)] := by
  obtain ⟨x, hr, hx⟩ := exists_sessionStep readyPeer primariesAndReplicas updateA (answers (twoTenants false) 5)
    (fun x => x.2.written.map fun x => (x.conn.addr, x.message)) [(str "primary/shard-0", updateA)]
      (by decide +kernel)
  have ha : primariesAndReplicas.Apart := by
    rintro shard addr ⟨⟩ ⟨read, shard', ⟨⟩, had⟩
    have hh : some (byte 'r') = some (byte 'p') := congrArg head? (Except.ok.inj had)
    exact absurd hh (by decide)
  have hc : (Run.step (.start (some {}, {})) updateA x).Always (PrimaryChosen primariesAndReplicas) := by
    refine ⟨trivial, ?_⟩
    rintro _ ⟨⟩
    refine .inr ⟨ha, ?_⟩
    intro sql hs
    have hu : routedSQL {} updateA = some (str "UPDATE orders SET v = 1 WHERE tenant_id = 'a'") := by
      decide +kernel
    rw [hu] at hs
    cases hs
    exact .inl (by decide +kernel)
  exact ⟨_, hr, hc, replica_gets_no_write hr hc, hx⟩

/-- An UPDATE in a transaction that a SELECT pinned goes to the replica. -/
theorem replica_gets_update : (querySQL updateA).map isReadOnlyQuery = some false ∧
    ∃ h, IsSessionRun readyPeer primariesAndReplicas h ∧
      h.world.2.written.map (fun x => (x.conn.addr, x.message)) =
        [(str "replica/shard-0", queryMessage "BEGIN"), (str "replica/shard-0", selectA),
          ("replica/shard-0", updateA)] := by
  refine ⟨by decide +kernel, ?_⟩
  refine exists_sessionRun [(queryMessage "BEGIN", answers (twoTenants false) 2),
    (selectA, answers (twoTenants false) 7), (updateA, answers (twoTenants false) 3)] ?_
  decide +kernel

/-! ### Shards -/

def RouterConfig.Serves (cfg : RouterConfig) (shard addr : Str) : Prop :=
  cfg.write shard = .ok addr ∨ ∃ read, cfg.read = some read ∧ read shard = .ok addr

/-- The routing keys in a text: those of the rows of an INSERT with several rows, or the one of the extractor.  A read
of reference tables alone has none, since every shard has these tables. -/
def RouterConfig.keys (cfg : RouterConfig) (topo : Topology) (sql : Str) : List Str :=
  if isReadOnlyQuery sql && topo.referenceOnly sql then []
  else match matchInsertColumnAll sql topo.spec.vindex.column with
    | some (k :: k' :: ks) => k :: k' :: ks
    | _ => (cfg.extractor.extract sql topo.spec.vindex.column).toList

/-- The routing keys of a Bind: the parameter that the shard column is compared with, or the keys in the text. -/
def RouterConfig.bindKeys (cfg : RouterConfig) (topo : Topology) (sql : Str) (bind : PgMessage) : List Str :=
  match extractParamRef sql topo.spec.vindex.column with
  | some n => ((bindParams bind).bind fun ps => ps[n - 1]?.join).toList
  | none => cfg.keys topo sql

def RouterConfig.messageKeys (cfg : RouterConfig) (topo : Topology) (sqls : Str → Option Str) (m : PgMessage) :
    List Str :=
  if m.type = 'Q' then ((querySQL m).map (cfg.keys topo)).getD []
  else if m.type = 'B' then ((sqls (bindStmtName m)).map fun sql => cfg.bindKeys topo sql m).getD []
  else []

/-- The provider has always returned `topo`, before the step and in it. -/
def FixedTopology (topo : Topology) : StepProp Session PgMessage (Network P) := fun _ w _ _ w' =>
  (∀ r ∈ w.observed, r = .ok topo) ∧ ∀ r ∈ w'.observed, r = .ok topo

/-- The message by which the step is routed: the query, or the first Bind of the batch. -/
def Session.Routes (s : Session) (m x : PgMessage) : Prop := m.type = 'Q' ∧ x = m ∨ s.firstBind m = some x

/-- A step either pins nothing, and then no routed statement of a transaction that is not pinned was sent in it; or it
pins the transaction to the one connection to which it sent everything, with a routed statement. -/
def PinsRouted (s : Session) (m : PgMessage) (s' : Session) (w w' : Network P) : Prop :=
  (s'.pin = s.pin ∨ s'.pin = none) ∧ (s.inTx → s.pin = none → Wrote (fun x => ¬s.Routes m x.message) w w') ∨
    s.pin = none ∧ s.inTx ∧ ∃ conn new, s'.pin = some conn ∧ w'.written = w.written ++ new ∧
      (∀ x ∈ new, x.conn = conn) ∧ ∃ x ∈ new, s.Routes m x.message

/-- In a pinned transaction everything goes to its connection, and that is the one to which its first routed statement
was sent.  Otherwise a query, or the first Bind of a batch, goes to a backend of the shard that any of its routing
keys belongs to. -/
def KeepsShards (cfg : RouterConfig) (topo : Topology) : StepProp Session PgMessage (Network P) := fun s w m o w' =>
  Wrote (fun x => match s.pin with
    | some conn => x.conn = conn
    | none => s.Routes m x.message → ∀ key ∈ cfg.messageKeys topo (s.sqlsIn m) x.message, ∀ shard,
        topo.shard key = .ok shard → cfg.Serves shard x.conn.addr) w w' ∧
    ∀ s', o = some s' → PinsRouted s m s' w w'

theorem paramRefLoop_pos {col : Str} {ts : List Token} {n : Nat} (h : paramRefLoop col ts = some n) : 0 < n := by
  fun_induction paramRefLoop col ts with
  | case1 t t₁ t₂ t₃ ts hcol k hk hp =>
    cases h
    omega
  | case2 t t₁ t₂ t₃ ts hcol k hk hp ih => exact ih h
  | case3 t t₁ t₂ t₃ ts hcol hk ih => exact ih h
  | case4 t t₁ t₂ t₃ ts hcol ih => exact ih h
  | case5 => cases h

theorem extractParamRef_pos {col : Str} {n : Nat} (h : extractParamRef sql col = some n) : 0 < n := by
  unfold extractParamRef at h
  split at h
  · cases h
  · exact paramRefLoop_pos h

theorem serves_of_resolved {shard addr : Str}
    (h : (if isReadOnlyQuery sql then cfg.read.getD cfg.write else cfg.write) shard = .ok addr) :
    cfg.Serves shard addr := by
  split at h
  · cases hr : cfg.read with
    | none =>
      rw [hr] at h
      exact .inl h
    | some read =>
      rw [hr] at h
      exact .inr ⟨read, hr, h⟩
  · exact .inl h

variable {key : Str}

/-- A text that is routed goes to the shard of each key it names. -/
theorem RoutedTo.shard_of_keys (h : RoutedTo (cfg.router topo) sql d) (hkey : key ∈ cfg.keys topo sql) :
    topo.shard key = .ok d.shard := by
  unfold RouterConfig.keys at hkey
  cases h.reason with
  | reference hrd hrf =>
    rw [hrd, show topo.referenceOnly sql from hrf, if_pos (by decide)] at hkey
    cases hkey
  | rows hr hs =>
    split at hkey
    · cases hkey
    · change matchInsertColumnAll sql topo.spec.vindex.column = _ at hr
      simp only [hr] at hkey
      exact hs key hkey
  | key he hr hf hs =>
    cases he
    split at hkey
    · cases hkey
    · split at hkey
      · rename_i hr'
        exact absurd hr' (hr _ _ _)
      · change cfg.extractor.extract sql topo.spec.vindex.column = _ at hf
        rw [hf, toList_some, mem_singleton] at hkey
        rw [hkey]
        exact hs

/-- A text that goes to all shards names no key. -/
theorem keys_of_scatter (h : ((cfg.router topo).route sql).1.scatter) : cfg.keys topo sql = [] := by
  have hd : ∀ pick read shard, (decideShard pick read shard).1.scatter = false := by
    intro pick read shard
    unfold decideShard
    split
    · rfl
    · split
      · rfl
      · rfl
  unfold QueryRouter.route at h
  simp only at h
  split at h
  · cases h
  · split at h
    · cases h
    · split at h
      · rw [hd] at h
        cases h
      · rename_i hf
        change ¬(isReadOnlyQuery sql && topo.referenceOnly sql) at hf
        have hk (hr : ∀ k k' ks, matchInsertColumnAll sql topo.spec.vindex.column ≠ some (k :: k' :: ks))
            (hn : cfg.extractor.extract sql topo.spec.vindex.column = none) : cfg.keys topo sql = [] := by
          unfold RouterConfig.keys
          rw [if_neg hf]
          split
          · rename_i hr'
            exact absurd hr' (hr _ _ _)
          · rw [hn, toList_none]
        simp only [router] at h
        split at h
        · rw [hd] at h
          cases h
        · rename_i hr
          split at h
          · rename_i hn
            exact hk hr hn
          · rw [hd] at h
            cases h

/-- The same for a bind, whose key may be a parameter. -/
theorem BindRouted.shard_of_keys
    (h : BindRouted cfg st bind topo d) (hx : st.paramIdx = (extractParamRef st.sql topo.spec.vindex.column).getD 0)
    (hkey : key ∈ cfg.bindKeys topo st.sql bind) : topo.shard key = .ok d.shard := by
  unfold bindKeys at hkey
  rcases h with ⟨hs, ps, key', hps, hp, hd⟩ | ⟨hz, hd⟩
  · cases hr : extractParamRef st.sql topo.spec.vindex.column with
    | none =>
      rw [hr] at hx
      rw [hx] at hs
      cases hs
    | some n =>
      rw [hr, getD_some] at hx
      rw [hx] at hp
      simp only [hr, hps, bind_some, hp, join_some, toList_some, mem_singleton] at hkey
      rw [hkey]
      exact (keyDecision_none hd).2.1
  · cases hr : extractParamRef st.sql topo.spec.vindex.column with
    | none =>
      rw [hr] at hkey
      exact hd.shard_of_keys hkey
    | some n =>
      have hn := extractParamRef_pos hr
      rw [hr, getD_some] at hx
      omega

variable {sqls : Str → Option Str}

theorem messageKeys_query (hs : querySQL m = some sql) : cfg.messageKeys topo sqls m = cfg.keys topo sql := by
  rw [messageKeys, if_pos (querySQL_type hs), hs, map_some, getD_some]

theorem messageKeys_bind (hB : m.type = 'B') (hs : sqls (bindStmtName m) = some sql) :
    cfg.messageKeys topo sqls m = cfg.bindKeys topo sql m := by
  rw [messageKeys, hB, if_neg (by decide), if_pos rfl, hs, map_some, getD_some]

theorem firstBind_query (hs : querySQL m = some sql) : s.firstBind m = none := by
  rw [firstBind, if_neg]
  rw [querySQL_type hs]
  decide

theorem not_routes_of_sync (hs : m.type = 'S') (hb : (s.extBuf ++ [m]).find? (fun m => m.type = byte 'B') = none)
    {y : PgMessage} : ¬s.Routes m y := by
  rintro (⟨hQ, -⟩ | hf)
  · exact sync_ne_query hs hQ
  · rw [firstBind, if_pos hs, hb] at hf
    cases hf

/-- With a fixed topology, what is routed is written to the shard of its keys. -/
theorem Target.own_shard (hs : s.Registered w) (h : Target cfg s m w' x)
    (hbf : ∀ r ∈ w.observed, r = .ok topo) (hf : ∀ r ∈ w'.observed, r = .ok topo) (hpin : s.pin = none)
    (hx : s.Routes m x.message) {shard : Str}
    (hkey : key ∈ cfg.messageKeys topo (s.sqlsIn m) x.message) (hsh : topo.shard key = .ok shard) :
    cfg.Serves shard x.conn.addr := by
  cases h with
  | pinnedQuery _ hpin' =>
    rw [hpin] at hpin'
    cases hpin'
  | query hl _ _ hobs hd ha =>
    cases hf _ hobs
    rcases hx with ⟨-, hm⟩ | hb
    · rw [hm, messageKeys_query hl] at hkey
      rw [hd.shard_of_keys hkey] at hsh
      cases hsh
      rw [ha]
      exact serves_of_resolved hd.resolved
    · rw [firstBind_query hl] at hb
      cases hb
  | scatter hl _ _ hobs hsc _ hm =>
    cases hf _ hobs
    rw [hm, messageKeys_query hl, keys_of_scatter hsc] at hkey
    cases hkey
  | @batch bind st _ d hsy hb hst ho _ hobs hd hc =>
    cases hf _ hobs
    rcases hx with ⟨hQ, -⟩ | hfr
    · exact absurd hQ (sync_ne_query hsy)
    · rw [firstBind, if_pos hsy, hb] at hfr
      cases hfr
      have hix : st.paramIdx = (extractParamRef st.sql topo.spec.vindex.column).getD 0 := by
        rcases ho with hold | ⟨-, r, hr, hix⟩
        · obtain ⟨-, -, r, hr, hix⟩ := hs _ _ hold
          rw [hix, hbf r hr, columnOf]
        · rw [hix, hf r hr, columnOf]
      have hB : x.message.type = 'B' := by simpa using find?_some hb
      have hl : s.sqlsIn m (bindStmtName x.message) = some st.sql := by
        rw [sqlsIn, if_pos hsy]
        exact hst
      rw [messageKeys_bind hB hl] at hkey
      rw [hd.shard_of_keys hix hkey] at hsh
      cases hsh
      rcases hc with hpin' | ⟨-, ha⟩
      · rw [hpin] at hpin'
        cases hpin'
      · rw [ha]
        exact serves_of_resolved hd.resolved
  | describe hsy hb => exact absurd hx (not_routes_of_sync hsy hb)

/-! ### Pins -/

theorem pin_afterPinned (s : Session) (kw : Str) :
    (s.afterPinned kw).pin = s.pin ∨ (s.afterPinned kw).pin = none := by
  unfold Session.afterPinned
  split
  · exact .inr rfl
  · exact .inl rfl

theorem pinsRouted_of_quiet (hp : s'.pin = s.pin ∨ s'.pin = none)
    (hw : s.inTx → s.pin = none → Wrote (fun x => ¬s.Routes m x.message) w w') : PinsRouted s m s' w w' :=
  .inl ⟨hp, hw⟩

/-- The BEGIN that was held back and what follows it go to the connection that is pinned. -/
theorem pinsRouted_of_begins {w₁ w₂ : Network P} {s₁ : Session} {conn : Conn} (hpin : s.pin = none) (hin : s.inTx)
    (hp : s'.pin = some conn) (hw : w₁.written = w.written) (hb : Begins s₁ conn w₁ w₂) {new : List (Write P)}
    (hn : w'.written = w₂.written ++ new) (hc : ∀ x ∈ new, x.conn = conn) (hr : ∃ x ∈ new, s.Routes m x.message) :
    PinsRouted s m s' w w' := by
  obtain ⟨held, hheld, hconn⟩ := hb.wrote
  refine .inr ⟨hpin, hin, conn, held ++ new, hp, by rw [hn, hheld, hw, append_assoc], fun x hx => ?_, ?_⟩
  · rcases mem_append.1 hx with hx | hx
    · exact (hconn x hx).1
    · exact hc x hx
  · obtain ⟨x, hx, hrt⟩ := hr
    exact ⟨x, mem_append_right _ hx, hrt⟩

theorem Delivers.written {conn : Conn} {ms : List PgMessage} (h : Delivers conn ms w w') :
    ∃ new, w'.written = w.written ++ new ∧ new.map (·.message) = ms ∧ ∀ x ∈ new, x.conn = conn := by
  induction ms generalizing w with
  | nil => exact ⟨[], by rw [show w' = w from h, append_nil], rfl, by simp⟩
  | cons m ms ih =>
    obtain ⟨c, h⟩ := h
    obtain ⟨new, hw, hm, hc⟩ := ih h
    refine ⟨⟨conn, m, w.states conn, w.seen⟩ :: new, ?_, by rw [map_cons, hm], by simpa using hc⟩
    rw [hw]
    simp [Network.deliver]

theorem pin_of_inTx {s₁ : Session} (h : s₁.inTx) (conn : Conn) :
    ({ s₁ with txBackend := some conn } : Session).pin = some conn := by
  rw [pin, if_pos (show s₁.inTx from h)]

theorem bind_mem_execMessages {batch : List PgMessage} {bind : PgMessage} (injected : Option Pstmt)
    (hb : batch.find? (fun m => m.type = byte 'B') = some bind) : bind ∈ execMessages injected batch := by
  have hB : bind.type = 'B' := by simpa using find?_some hb
  have ho : bind ∈ othersOf batch := by
    refine mem_filter.2 ⟨mem_of_find?_eq_some hb, ?_⟩
    rw [hB]
    decide
  exact mem_append_left _ (mem_append_right _ ho)

theorem QueryOutcome.pinsRouted (hl : querySQL m = some sql) (h : QueryOutcome cfg s m sql w o w')
    (ho : o = some s') :
    PinsRouted s m s' w w' := by
  cases h with
  | pinned hpin =>
    obtain ⟨-, rfl⟩ := alive_eq_some ho
    exact pinsRouted_of_quiet (pin_afterPinned s _) fun _ hn => by rw [hpin] at hn; cases hn
  | began hpin hin _ _ hsd =>
    obtain ⟨-, rfl⟩ := alive_eq_some ho
    exact pinsRouted_of_quiet (.inr rfl) fun _ _ => wrote_of_eq hsd.written
  | refused _ _ hd hsd =>
    cases ho
    exact pinsRouted_of_quiet (.inl rfl) fun _ _ => wrote_of_eq (hsd.written.trans hd.written_eq)
  | scattered hpin hin =>
    cases ho
    exact pinsRouted_of_quiet (.inl rfl) fun ht => by rw [hin] at ht; cases ht
  | unreachable | pinFailed => cases ho
  | routed hpin hin _ _ hc =>
    obtain ⟨-, rfl⟩ := alive_eq_some ho
    exact pinsRouted_of_quiet (.inl hc.pin_eq) fun ht => by rw [hin] at ht; cases ht
  | @pinnedNow d w₁ w₂ w₃ _ conn s₁ b hpin hin hd hc hb hfwd =>
    obtain ⟨hok, rfl⟩ := alive_eq_some ho
    rcases hfwd with ⟨c, hr⟩ | ⟨hf, -⟩
    · have hp := pin_of_inTx (hc.inTx_eq.trans hin) conn
      exact pinsRouted_of_begins hpin hin hp (hc.written_eq.1.trans hd.written_eq) hb hr.written_eq (by simp)
        ⟨_, mem_singleton_self _, .inl ⟨querySQL_type hl, rfl⟩⟩
    · rw [hf] at hok
      cases hok

theorem BatchOutcome.pinsRouted {s₁ : Session} {w₁ : Network P} (hsy : m.type = 'S')
    (hreg : AfterRegister { s with extBuf := [] } (s.extBuf ++ [m]) w s₁ w₁)
    (h : BatchOutcome cfg s₁ (s.extBuf ++ [m]) w₁ o w') (ho : o = some s') : PinsRouted s m s' w w' := by
  have hpe : s₁.pin = s.pin := hreg.pin_eq
  have hit : s₁.inTx = s.inTx := hreg.inTx
  have hwe : w₁.written = w.written := hreg.watches.written
  cases h with
  | refused hb hwy hsd =>
    obtain ⟨-, rfl⟩ := alive_eq_some ho
    exact pinsRouted_of_quiet (.inl hpe) fun _ _ => wrote_of_eq (hsd.written.trans (hwy.watches.written.trans hwe))
  | lost => cases ho
  | @executed bind st d w₂ w₃ _ conn s₂ b hb hst hd hgot hfwd =>
    obtain ⟨hok, rfl⟩ := alive_eq_some ho
    cases hgot with
    | pinned hpin =>
      refine pinsRouted_of_quiet (.inl hpe) fun _ hn => ?_
      rw [← hpe, hpin] at hn
      cases hn
    | plain hpin hin hc =>
      refine pinsRouted_of_quiet (.inl (hc.pin_eq.trans hpe)) fun ht => ?_
      rw [← hit, hin] at ht
      cases ht
    | @pinnedNow s₃ w₄ _ hpin hin hc hbg =>
      obtain ⟨pre, w₅, -, hdl, hr, hpre⟩ := hfwd
      obtain rfl := hpre hok
      obtain ⟨new, hn, hm, hcn⟩ := hdl.written
      have hp := pin_of_inTx (hc.inTx_eq.trans hin) conn
      refine pinsRouted_of_begins (hpe ▸ hpin) (hit ▸ hin) hp
        (hc.written_eq.1.trans (hd.written_eq.trans hwe)) hbg (hr.written_eq.trans hn) hcn ?_
      obtain ⟨x, hx, rfl⟩ := mem_map.1 (hm ▸ bind_mem_execMessages _ hb)
      exact ⟨x, hx, .inr (by rw [firstBind, if_pos hsy, hb])⟩
  | describeRefused hb hd hpin hwy hsd =>
    obtain ⟨-, rfl⟩ := alive_eq_some ho
    exact pinsRouted_of_quiet (.inl hpe) fun _ _ => wrote_of_eq (hsd.written.trans (hwy.watches.written.trans hwe))
  | @described w₂ _ conn s₂ b hb hd hgot hfwd =>
    obtain ⟨-, rfl⟩ := alive_eq_some ho
    have hp : s₂.pin = s.pin ∧ w₂.written = w.written := by
      rcases hgot with ⟨-, rfl, rfl⟩ | ⟨-, topo, shard, addr, -, -, hc⟩
      · exact ⟨hpe, hwe⟩
      · exact ⟨hc.pin_eq.trans hpe, hc.written_eq.1.trans hwe⟩
    refine pinsRouted_of_quiet (.inl hp.1) fun _ _ => (wrote_of_eq hp.2).trans (hfwd.wrote.mono fun x _ => ?_)
    exact not_routes_of_sync hsy hb
  | acked hb hd hms hsd =>
    obtain ⟨-, rfl⟩ := alive_eq_some ho
    obtain ⟨stmts, heq, -⟩ := foldl_handleClose s₁ ((s.extBuf ++ [m]).filter fun m => m.type = 'C')
    refine pinsRouted_of_quiet (.inl ?_) fun _ _ => wrote_of_eq (hsd.written.trans hwe)
    rw [heq]
    exact hpe

/-- A session is pinned to the connection that its routed message went to. -/
theorem MessageOutcome.pinsRouted (h : MessageOutcome cfg s m w o w') (ho : o = some s') :
    PinsRouted s m s' w w' := by
  cases h with
  | query hl h => exact h.pinsRouted hl ho
  | buffered =>
    cases ho
    exact pinsRouted_of_quiet (.inl rfl) fun _ _ => wrote_of_eq rfl
  | batch hsy hreg h => exact h.pinsRouted hsy hreg.after ho
  | ended => cases ho

/-- In every run with a fixed topology statements keep to their shards. -/
theorem forwarded_to_own_shard {topo : Topology} {h : Served Session PgMessage (Network P)}
    (hrun : IsSessionRun P cfg h) (hfixed : h.Always (FixedTopology topo)) : h.Always (KeepsShards cfg topo) := by
  refine hrun.always ?_ hfixed
  rintro s w m o w' hs ho ⟨hb, ha⟩
  refine ⟨(ho.targets hs.pooled.keyed).mono ?_, fun s' => ho.pinsRouted⟩
  rintro x ⟨-, ht⟩
  cases hpin : s.pin with
  | some conn => exact ht.conn_eq hpin
  | none =>
    intro hx key hkey shard hsh
    exact ht.own_shard hs.registered hb ha hpin hx hkey hsh

def observesOnly (topo : Topology) (h : Served Session PgMessage (Network P)) (_ : PgMessage)
    (x : Option Session × Network P) : Bool :=
  (h.world.2.observed ++ x.2.observed).all fun r => r = .ok topo

theorem fixedTopology_of_observesOnly {h : Served Session PgMessage (Network P)} {x : Option Session × Network P}
    (hc : observesOnly topo h m x) (s : Session) (_ : h.world.1 = some s) :
      FixedTopology topo s h.world.2 m x.1 x.2 := by
  simp only [observesOnly, all_append, Bool.and_eq_true, List.all_eq_true, decide_eq_true_eq] at hc
  exact hc

/-- A transaction on the tenant `a` after an UPDATE of the tenant `b`. -/
theorem forwarded_to_own_shard_transaction : ∃ h, IsSessionRun readyPeer primaries h ∧
    h.Always (FixedTopology (twoTenants false)) ∧ h.Always (KeepsShards primaries (twoTenants false)) ∧
    h.world.2.written.map (fun x => (x.conn.addr, x.message)) =
      [(str "primary/shard-1", updateB), (str "primary/shard-0", queryMessage "BEGIN"),
        (str "primary/shard-0", selectA),
        (str "primary/shard-0", updateA)] := by
  refine exists_sessionRun_check fixedTopology_of_observesOnly forwarded_to_own_shard
    [(updateB, answers (twoTenants false) 5), (queryMessage "BEGIN", answers (twoTenants false) 2),
      (selectA, answers (twoTenants false) 7), (updateA, answers (twoTenants false) 3)] ?_
  decide +kernel

/-- The UPDATE of the tenant `b` goes to the shard of the tenant `a`: in a transaction that is pinned there, and as
the second Bind of a batch. -/
theorem forwarded_to_other_shard : (twoTenants false).shard "b" = .ok "shard-1" ∧
    (∃ h, IsSessionRun readyPeer primaries h ∧ h.world.2.written.map (fun x => (x.conn.addr, x.message)) =
      [(str "primary/shard-0", queryMessage "BEGIN"), (str "primary/shard-0", selectA),
        ("primary/shard-0", updateB)]) ∧
    ∃ h, IsSessionRun readyPeer primaries h ∧ h.world.2.written.map (fun x => (x.conn.addr, x.message)) =
      [(str "primary/shard-0", parseMessage "u" "UPDATE orders SET v = 1 WHERE tenant_id = $1"),
        ("primary/shard-0", bindMessage "u" ["a"]), ("primary/shard-0", bindMessage "u" ["b"]),
        ("primary/shard-0", syncMessage)] := by
  refine ⟨by decide +kernel, ?_, ?_⟩
  · refine exists_sessionRun [(queryMessage "BEGIN", answers (twoTenants false) 2),
      (selectA, answers (twoTenants false) 7), (updateB, answers (twoTenants false) 3)] ?_
    decide +kernel
  · refine exists_sessionRun [(parseMessage "u" "UPDATE orders SET v = 1 WHERE tenant_id = $1", []),
      (bindMessage "u" ["a"], []), (bindMessage "u" ["b"], []), (syncMessage, answers (twoTenants false) 9)] ?_
    decide +kernel

end PostgresOperator
