import PostgresOperator.PgRouter.Prepared

/-!
# The cache of prepared statements

A session remembers for every connection which names are prepared there.  `Coherent` says that the backend has these
statements with the texts that are registered.  The cache is right as long as no name is prepared twice in a session,
no Parse fails, and no statement is closed together with a Bind or a Describe.
-/

namespace PostgresOperator

open Go Calls Pg List Function

variable {cfg : RouterConfig} {s s' : Session} {m : PgMessage} {w w' : Network preparingPeer}

/-! ### The law -/

/-- A name that counts as prepared on a connection is prepared there, with the registered text. -/
def Coherent (s : Session) (w : Network preparingPeer) : Prop :=
  ∀ conn name, name ∈ s.backendStmts conn →
    ∃ sql, (w.states conn).stmts name = some sql ∧ ∀ st, s.stmts name = some st → st.sql = sql

def FreeParse (y : Write preparingPeer) : Prop :=
  ∀ name sql, opOf y.message = .parse name sql → name ≠ [] → y.before.stmts name = none

/-- After the step the cache is right, and no Parse that it sends names a statement that the backend has. -/
def CacheRight (h : Served Session PgMessage (Network preparingPeer)) (_ : PgMessage)
    (x : Option Session × Network preparingPeer) : Prop :=
  (∀ s', x.1 = some s' → Coherent s' x.2) ∧ Wrote FreeParse h.world.2 x.2

def parsedNames (ms : List PgMessage) : List Str := (parsesOf ms).map parseStmtName

/-- The message is not a simple query; a Parse has a name that was not used before, or none; a batch with a Bind or a
Describe closes no statement; and no Parse that reached a backend failed or was ignored there. -/
def NamesFresh (h : Served Session PgMessage (Network preparingPeer)) (m : PgMessage)
    (x : Option Session × Network preparingPeer) : Prop :=
  m.type ≠ 'Q' ∧ (m.type = 'P' → parseStmtName m ≠ [] → parseStmtName m ∉ parsedNames h.messages) ∧
    (∀ s, h.world.1 = some s → m.type = 'S' → (∃ y ∈ s.extBuf, y.type = 'B' ∨ y.type = 'D') →
      ∀ y ∈ s.extBuf, ∀ name, opOf y ≠ .close name) ∧
    ∀ y ∈ x.2.written, (x.2.states y.conn).lost = false

/-! ### Statements on a connection -/

variable {conn : Conn} {ms : List PgMessage}

/-- The server receives the operations of the messages in their order. -/
theorem Delivers.received (h : Delivers conn ms w w') :
    Received [] (ms.map opOf) (w.states conn) (w'.states conn) := by
  induction ms generalizing w with
  | nil => rw [show w' = w from h]; rfl
  | cons m ms ih =>
    obtain ⟨ok, h⟩ := h
    refine ⟨ok, ?_⟩
    rw [← states_deliver]
    exact ih h

theorem Delivers.states_of_ne {c : Conn} (h : Delivers conn ms w w') (hc : c ≠ conn) : w'.states c = w.states c := by
  induction ms generalizing w with
  | nil => rw [show w' = w from h]
  | cons m ms ih =>
    obtain ⟨ok, h⟩ := h
    exact (ih h).trans (update_of_ne hc _ _)

theorem Delivers.freeParse {pre : List PgMessage}
    (hf : NamesFree [] (w.states conn).stmts (ms.map opOf)) (hp : pre <+: ms) (h : Delivers conn pre w w') :
    Wrote FreeParse w w' := by
  induction pre generalizing ms w with
  | nil => exact wrote_of_eq (by rw [show w' = w from h])
  | cons m pre ih =>
    obtain ⟨rest, rfl⟩ := hp
    obtain ⟨ok, h⟩ := h
    have hfr : Wrote FreeParse w (w.deliver ok conn m) := by
      refine ⟨[⟨conn, m, w.states conn, w.seen⟩], rfl, ?_⟩
      intro y hy name sql hop hn
      rw [mem_singleton] at hy
      subst hy
      refine hf.1 name ?_ hn
      rw [cons_append, map_cons, show opOf m = _ from hop, parseNames_parse]
      exact mem_cons_self ..
    refine hfr.trans (ih ?_ (prefix_append pre rest) h)
    rw [states_deliver]
    exact NamesFree.tail hf

theorem foldl_means (hk : KeepsStatements (ms.map opOf))
    (texts : Str → Option Str) : (ms.map opOf).foldl (Op.means []) texts = sqlsAfter texts ms := by
  induction ms generalizing texts with
  | nil => rfl
  | cons m ms ih =>
    have hr : KeepsStatements (ms.map opOf) := fun o ho => hk o (mem_cons_of_mem _ ho)
    rw [map_cons, foldl_cons, ih hr, sqlsAfter]
    cases hs : parseSQL m with
    | some sql => rw [opOf_of_parseSQL hs]; rfl
    | none =>
      have hm : (opOf m).means [] texts = texts := by
        obtain ⟨hc, hq⟩ := hk (opOf m) (mem_cons_self ..)
        cases hop : opOf m with
        | parse name sql =>
          have hP : m.type = 'P' := opOf_isParse.1 (by rw [hop]; trivial)
          rw [opOf, if_pos hP, hs] at hop
          cases hop
        | close name => exact absurd hop (hc name)
        | query => exact absurd hop hq
        | _ => rfl
      rw [hm]

variable {name : Str}

theorem sqlsAfter_of_notMem (hn : name ∉ registeredNames ms)
    (texts : Str → Option Str) : sqlsAfter texts ms name = texts name := by
  induction ms generalizing texts with
  | nil => rfl
  | cons m ms ih =>
    cases hs : parseSQL m with
    | none =>
      rw [registeredNames_of_none hs] at hn
      rw [sqlsAfter, hs]
      exact ih hn texts
    | some sql =>
      rw [registeredNames_of_some hs, mem_cons, not_or] at hn
      rw [sqlsAfter, hs]
      exact (ih hn.2 _).trans (update_of_ne hn.1 _ _)

theorem sqlsAfter_of_mem (hn : name ∈ registeredNames ms) : ∃ sql, ∀ texts, sqlsAfter texts ms name = some sql := by
  induction ms with
  | nil => cases hn
  | cons m ms ih =>
    by_cases hr : name ∈ registeredNames ms
    · obtain ⟨sql, hs⟩ := ih hr
      refine ⟨sql, fun texts => ?_⟩
      rw [sqlsAfter]
      cases parseSQL m with
      | none => exact hs _
      | some _ => exact hs _
    · cases hs : parseSQL m with
      | none =>
        rw [registeredNames_of_none hs] at hn
        exact absurd hn hr
      | some sql =>
        rw [registeredNames_of_some hs, mem_cons] at hn
        have heq := hn.resolve_right hr
        subst heq
        refine ⟨sql, fun texts => ?_⟩
        rw [sqlsAfter, hs]
        exact (sqlsAfter_of_notMem hr _).trans (update_self ..)

/-! ### The cache and the backends -/

/-- The cache is right, and for the connections of the pool it has every statement with a name. -/
structure CacheMatches (s : Session) (w : Network preparingPeer) : Prop where
  opened : ∀ conn name, name ∈ s.backendStmts conn → conn.id < w.opened
  coherent : Coherent s w
  complete : ∀ addr conn, s.backends addr = some conn → ∀ name, name ≠ [] → (w.states conn).stmts name ≠ none →
    name ∈ s.backendStmts conn

theorem CacheMatches.congr (hs : CacheMatches s w) (hb : s'.backends = s.backends)
    (hc : s'.backendStmts = s.backendStmts) (hm : ∀ name st, s'.stmts name = some st → s.stmts name = some st)
    (hsta : w'.states = w.states) (ho : w'.opened = w.opened) : CacheMatches s' w' where
  opened conn name h := by
    rw [ho]
    exact hs.opened conn name (by rwa [hc] at h)
  coherent conn name h := by
    rw [hc] at h
    obtain ⟨sql, hl, hst⟩ := hs.coherent conn name h
    exact ⟨sql, by rw [hsta, hl], fun st h => hst st (hm name st h)⟩
  complete addr conn hcn name hn h := by
    rw [hb] at hcn
    rw [hsta] at h
    rw [hc]
    exact hs.complete addr conn hcn name hn h

variable {batch : List PgMessage}

/-- Registering fresh names keeps the cache right. -/
theorem AfterRegister.cacheMatches (h : AfterRegister s batch w s' w') (hs : CacheMatches s w)
    (hf : ∀ conn, ∀ name ∈ registeredNames batch, name ≠ [] → name ∉ s.backendStmts conn) : CacheMatches s' w' where
  opened conn name hn := by
    rw [h.watches.opened]
    exact hs.opened conn name ((h.backendStmts conn name).1 hn).1
  coherent conn name hn := by
    obtain ⟨hold, ht⟩ := (h.backendStmts conn name).1 hn
    obtain ⟨sql, hl, hst⟩ := hs.coherent conn name hold
    refine ⟨sql, by rw [h.watches.states, hl], ?_⟩
    intro st hst'
    rcases h.stmts name st hst' with hreg | ⟨hm, hp, rfl, -⟩
    · exact hst st hreg
    · exact absurd (mem_map_of_mem (mem_filter.2 ⟨hm, by simp [hp]⟩)) ht
  complete addr conn hc name hn hsm := by
    rw [h.backends] at hc
    rw [h.watches.states] at hsm
    have hold := hs.complete addr conn hc name hn hsm
    exact (h.backendStmts conn name).2 ⟨hold, fun hm => hf conn name hm hn hold⟩

variable {addr : Str}

theorem Obtains.backendStmts_eq (h : Obtains s addr w conn s' w') : s'.backendStmts = s.backendStmts := by
  rcases h with ⟨-, rfl, -⟩ | ⟨-, -, rfl, -⟩
  · rfl
  · rfl

/-- So does a new connection, whose server has no statement. -/
theorem Obtains.cacheMatches (h : Obtains s addr w conn s' w') (hp : s.Pooled w)
    (hs : CacheMatches s w) : CacheMatches s' w' := by
  rcases h with ⟨-, rfl, rfl⟩ | ⟨-, rfl, rfl, rfl⟩
  · exact hs
  · have hne : ∀ {c : Conn}, c.id < w.opened → c ≠ ⟨addr, w.opened⟩ := by
      rintro c hc rfl
      exact absurd hc (lt_irrefl _)
    refine ⟨fun c name h => (hs.opened c name h).trans (Nat.lt_succ_self _), ?_, ?_⟩
    · intro c name h
      obtain ⟨sql, hl, hst⟩ := hs.coherent c name h
      exact ⟨sql, by rw [Network.connect_states_of_ne (hne (hs.opened c name h)), hl], hst⟩
    · intro a c hc name hn hm
      by_cases ha : a = addr
      · subst ha
        rw [Session.addBackend_backends, update_self] at hc
        cases hc
        rw [Network.connect_states_self] at hm
        exact absurd rfl hm
      · rw [Session.addBackend_backends, update_of_ne ha] at hc
        rw [Network.connect_states_of_ne (hne (hp.opened a c hc))] at hm
        exact hs.complete a c hc name hn hm

/-- Messages that are sent to a connection of the pool, which close nothing and whose Parses have distinct names that
the cache does not have. -/
structure Preparing (s : Session) (conn : Conn) (ms : List PgMessage) : Prop where
  pooled : ∃ addr, s.backends addr = some conn
  keeps : KeepsStatements (ms.map opOf)
  notCached : ∀ name ∈ registeredNames ms, name ∉ s.backendStmts conn
  distinct : (registeredNames ms).Pairwise fun a b => a = b → a = []
  sqls : ∀ name ∈ registeredNames ms, ∀ texts, sqlsAfter texts ms name = s.sqls name

/-- A batch that is prepared parses no name that the server has. -/
theorem Preparing.namesFree (h : Preparing s conn ms) (hs : CacheMatches s w) :
    NamesFree [] (w.states conn).stmts (ms.map opOf) := by
  obtain ⟨addr, hc⟩ := h.pooled
  rw [NamesFree, parseNames_map_opOf]
  refine ⟨?_, h.distinct⟩
  intro name hn hne
  by_contra hm
  exact h.notCached name hn (hs.complete addr conn hc name hne hm)

/-- After a batch has arrived whole, the cache holds its names as well. -/
theorem Preparing.cacheMatches {names : List Str} (h : Preparing s conn ms)
    (hs : CacheMatches s w) (hp : s.Pooled w) (hnm : ∀ name, name ∈ names ↔ name ∈ parsedNames ms)
    (hd : Delivers conn ms w w') (hl : (w'.states conn).lost = false) :
    CacheMatches (s.markPrepared conn names) w' := by
  have hrc := hd.received
  -- every Parse could be read
  have hr : ∀ name, name ∈ names ↔ name ∈ registeredNames ms := by
    intro name
    rw [hnm]
    refine ⟨?_, fun h => registeredNames_subset ms h⟩
    intro hn
    obtain ⟨x, hx, rfl⟩ := mem_map.1 hn
    obtain ⟨hm, hP⟩ := mem_filter.1 hx
    refine mem_map_of_mem (mem_filter.2 ⟨hm, ?_⟩)
    by_contra hsl
    have hb : opOf x = .badParse := by
      rw [opOf, if_pos (by simpa using hP), show parseSQL x = none by simpa using hsl]
    have hm : Op.badParse ∈ ms.map opOf := by
      rw [← hb]
      exact mem_map_of_mem hm
    rw [hrc.lost_of_badParse hm] at hl
    cases hl
  have hstmts : (w'.states conn).stmts = sqlsAfter (w.states conn).stmts ms := by
    rw [hrc.stmts_eq hl (h.namesFree hs) h.keeps, foldl_means h.keeps]
  have hcc : ∀ c name, name ∈ (s.markPrepared conn names).backendStmts c ↔
      c = conn ∧ name ∈ registeredNames ms ∨ name ∈ s.backendStmts c := by
    intro c name
    rw [Session.markPrepared_backendStmts]
    by_cases hc : c = conn
    · subst hc
      simp [hr]
    · simp [hc]
  obtain ⟨addr, hcn⟩ := h.pooled
  refine ⟨?_, ?_, ?_⟩
  · intro c name hn
    rw [hd.opened_eq]
    rcases (hcc c name).1 hn with ⟨rfl, -⟩ | hold
    · exact hp.opened addr c hcn
    · exact hs.opened c name hold
  · intro c name hn
    by_cases hw : c = conn ∧ name ∈ registeredNames ms
    · obtain ⟨rfl, hm⟩ := hw
      obtain ⟨sql, hsl⟩ := sqlsAfter_of_mem hm
      refine ⟨sql, by rw [hstmts, hsl], ?_⟩
      intro st hst
      have hreg := h.sqls name hm (fun _ => none)
      rw [hsl, Session.sqls, show s.stmts name = some st from hst] at hreg
      exact (Option.some.inj hreg).symm
    · obtain ⟨sql, hsl, hst⟩ := hs.coherent c name (((hcc c name).1 hn).resolve_left hw)
      refine ⟨sql, ?_, hst⟩
      by_cases hc : c = conn
      · subst hc
        rw [hstmts, sqlsAfter_of_notMem (fun hm => hw ⟨rfl, hm⟩), hsl]
      · rw [hd.states_of_ne hc, hsl]
  · intro a c hc name hn hsm
    rw [hcc]
    by_cases heq : c = conn
    · subst heq
      by_cases hm : name ∈ registeredNames ms
      · exact .inl ⟨rfl, hm⟩
      · rw [hstmts, sqlsAfter_of_notMem hm] at hsm
        exact .inr (hs.complete a c hc name hn hsm)
    · rw [hd.states_of_ne heq] at hsm
      exact .inr (hs.complete a c hc name hn hsm)

/-! ### The messages of a batch -/

theorem registeredNames_append (ms ms' : List PgMessage) :
    registeredNames (ms ++ ms') = registeredNames ms ++ registeredNames ms' := by
  simp [registeredNames, filter_append]

theorem parsedNames_append (ms ms' : List PgMessage) :
    parsedNames (ms ++ ms') = parsedNames ms ++ parsedNames ms' := by
  simp [parsedNames, parsesOf, filter_append]

theorem sqlsAfter_append (texts : Str → Option Str) (ms ms' : List PgMessage) :
    sqlsAfter texts (ms ++ ms') = sqlsAfter (sqlsAfter texts ms) ms' := by
  induction ms generalizing texts with
  | nil => rfl
  | cons m ms ih =>
    rw [cons_append, sqlsAfter, sqlsAfter]
    cases parseSQL m with
    | none => exact ih texts
    | some sql => exact ih _

theorem sqlsAfter_filter {p : PgMessage → Bool} (hp : ∀ x, (parseSQL x).isSome → p x)
    (texts : Str → Option Str) (ms : List PgMessage) : sqlsAfter texts (ms.filter p) = sqlsAfter texts ms := by
  induction ms generalizing texts with
  | nil => rfl
  | cons m ms ih =>
    cases hs : parseSQL m with
    | some sql =>
      rw [filter_cons_of_pos (hp m (by simp [hs])), sqlsAfter, sqlsAfter, hs]
      exact ih _
    | none =>
      rw [sqlsAfter, hs]
      cases hpm : p m with
      | true =>
        rw [filter_cons_of_pos hpm, sqlsAfter, hs]
        exact ih texts
      | false =>
        rw [filter_cons_of_neg (by simp [hpm])]
        exact ih texts

theorem registeredNames_filter {p : PgMessage → Bool} (hp : ∀ x, (parseSQL x).isSome → p x) (ms : List PgMessage) :
    registeredNames (ms.filter p) = registeredNames ms := by
  rw [registeredNames, registeredNames, filter_filter]
  congr 1
  refine filter_congr fun x _ => ?_
  cases hs : (parseSQL x).isSome with
  | false => rfl
  | true => rw [hp x hs]; rfl

theorem isParse_of_isSome (x : PgMessage) (h : (parseSQL x).isSome) : decide (x.type = 'P') := by
  by_contra hP
  rw [parseSQL_of_type_ne (by simpa using hP)] at h
  cases h

theorem registeredNames_sublist (ms : List PgMessage) : (registeredNames ms).Sublist (parsedNames ms) := by
  rw [← registeredNames_filter isParse_of_isSome]
  exact filter_sublist.map _

theorem registeredNames_others (h : ∀ x ∈ ms, x.type ≠ 'P') : registeredNames ms = [] := by
  rw [registeredNames, filter_eq_nil_iff.2 fun x hx => by simp [parseSQL_of_type_ne (h x hx)]]
  rfl

theorem othersOf_not_parse : ∀ x ∈ othersOf ms ++ [⟨byte 'S', []⟩], x.type ≠ byte 'P' := by
  intro x hx
  rcases mem_append.1 hx with hx | hx
  · have hb := (mem_filter.1 hx).2
    simp only [decide_eq_true_eq] at hb
    exact hb.1
  · rw [mem_singleton.1 hx]
    decide

theorem parsedNames_single {sql : Str} (h : parseSQL m = some sql) : parsedNames [m] = [parseStmtName m] := by
  rw [parsedNames, parsesOf,
    filter_cons_of_pos (p := fun m : PgMessage => decide (m.type = 'P')) (isParse_of_isSome m (by simp [h]))]
  rfl

theorem mem_injected {st st' : Pstmt}
    (h : st' ∈ s.injected conn batch name st) : st' = st ∧ name ∉ parsedNames batch ++ s.backendStmts conn := by
  unfold Session.injected at h
  split at h
  · cases h
  · rename_i hn
    exact ⟨(Option.some.inj h).symm, hn⟩

theorem registeredNames_execMessages (injected : Option Pstmt) (ms : List PgMessage) :
    registeredNames (execMessages injected ms) = registeredNames
      (injected.toList.map Pstmt.parseMsg) ++ registeredNames ms := by
  rw [execMessages, append_assoc _ (othersOf ms), registeredNames_append, registeredNames_append,
    registeredNames_others othersOf_not_parse, append_nil, parsesOf, registeredNames_filter isParse_of_isSome]

theorem sqlsAfter_execMessages (texts : Str → Option Str) (injected : Option Pstmt) (ms : List PgMessage) :
    sqlsAfter texts (execMessages injected ms) = sqlsAfter
      (sqlsAfter texts (injected.toList.map Pstmt.parseMsg)) ms := by
  have ho : ∀ texts, sqlsAfter texts (othersOf ms ++ [⟨'S', []⟩]) = texts := by
    intro texts
    funext name
    refine sqlsAfter_of_notMem ?_ texts
    rw [registeredNames_others othersOf_not_parse]
    exact not_mem_nil
  rw [execMessages, append_assoc _ (othersOf ms), sqlsAfter_append, ho, sqlsAfter_append, parsesOf,
    sqlsAfter_filter isParse_of_isSome]

theorem parsedNames_execMessages (injected : Option Pstmt) (ms : List PgMessage) :
    parsedNames (execMessages injected ms) = parsedNames (injected.toList.map Pstmt.parseMsg) ++ parsedNames ms := by
  have hp : parsedNames (parsesOf ms) = parsedNames ms := by simp [parsedNames, parsesOf]
  have ho : parsedNames (othersOf ms ++ [⟨'S', []⟩]) = [] := by
    rw [parsedNames, parsesOf, filter_eq_nil_iff.2 fun x hx => by simpa using othersOf_not_parse x hx]
    rfl
  rw [execMessages, append_assoc _ (othersOf ms), parsedNames_append, ho, append_nil, parsedNames_append,
    hp]

/-! ### Batches -/

theorem opOf_ne_query (h : m.type ∈ extendedTypes) : opOf m ≠ .query := by
  have hQ : m.type ≠ 'Q' := by
    intro hQ
    rw [hQ] at h
    exact absurd h (by decide)
  unfold opOf
  split
  · split <;> exact nofun
  · split_ifs
    · exact nofun
    · cases stmtTarget m <;> exact nofun
    · cases stmtTarget m <;> exact nofun
    · exact nofun
    · exact nofun

theorem opOf_sync (h : m.type = 'S') : opOf m = .sync := by
  rw [opOf, h]
  rfl

structure BatchKept (s : Session) (batch : List PgMessage) (s' : Session) (w' : Network preparingPeer) : Prop where
  cache : CacheMatches s' w'
  inTx : s'.inTx = s.inTx
  stmts : ∀ name st, s'.stmts name = some st → s.stmts name = some st
  cached : ∀ conn name, name ∈ s'.backendStmts conn →
    name ∈ s.backendStmts conn ∨ name ∈ parsedNames batch ∨ ∃ st, s.stmts name = some st

/-- A session that has registered the Parses of a batch: the batch has distinct names, none of them in a cache, and
the statements have the texts of the last Parses. -/
structure BatchReady (s : Session) (batch : List PgMessage) (w : Network preparingPeer) : Prop where
  cache : CacheMatches s w
  pooled : s.Pooled w
  registered : s.Registered w
  idle : s.inTx = false
  distinct : (parsedNames batch).Pairwise fun a b => a = b → a = []
  notCached : ∀ conn, ∀ name ∈ registeredNames batch, name ∉ s.backendStmts conn
  sqls : ∀ name ∈ registeredNames batch, ∀ texts, sqlsAfter texts batch name = s.sqls name

theorem BatchReady.preparing (hs : BatchReady s batch w) (hcn : Obtains s addr w conn s' w') (injected : Option Pstmt)
    (hk : KeepsStatements (ms.map opOf))
    (hnm : registeredNames ms = registeredNames (injected.toList.map Pstmt.parseMsg) ++ registeredNames batch)
    (hsq : ∀ texts, sqlsAfter texts ms = sqlsAfter (sqlsAfter texts (injected.toList.map Pstmt.parseMsg)) batch)
    (hj : ∀ st ∈ injected, s.stmts (parseStmtName st.parseMsg) = some st ∧ parseSQL st.parseMsg = some st.sql ∧
      parseStmtName st.parseMsg ∉ parsedNames batch ++ s.backendStmts conn) : Preparing s' conn ms := by
  have hc := hcn.backendStmts_eq
  have hm : s'.sqls = s.sqls := by
    funext name
    rw [Session.sqls, Session.sqls, hcn.stmts_eq]
  have hp : (registeredNames batch).Pairwise fun a b => a = b → a = [] :=
    hs.distinct.sublist (registeredNames_sublist batch)
  have hpo : ∃ addr, s'.backends addr = some conn := ⟨conn.addr, (hcn.pooled hs.pooled).2⟩
  cases injected with
  | none =>
    rw [show registeredNames (Option.toList none |>.map Pstmt.parseMsg) = [] from rfl, nil_append] at hnm
    refine ⟨hpo, hk, ?_, by rwa [hnm], ?_⟩
    · intro name hn
      rw [hc]
      exact hs.notCached conn name (by rwa [hnm] at hn)
    · intro name hn texts
      rw [hnm] at hn
      rw [hsq, hm]
      exact hs.sqls name hn _
  | some st =>
    obtain ⟨hst, hl, ht⟩ := hj st rfl
    rw [mem_append, not_or] at ht
    have ho : registeredNames (Option.toList (some st) |>.map Pstmt.parseMsg) = [parseStmtName st.parseMsg] :=
      registeredNames_of_some hl
    rw [ho, singleton_append] at hnm
    have hnr : parseStmtName st.parseMsg ∉ registeredNames batch :=
      fun h => ht.1 ((registeredNames_sublist batch).subset h)
    refine ⟨hpo, hk, ?_, ?_, ?_⟩
    · intro name hn
      rw [hc]
      rw [hnm] at hn
      rcases mem_cons.1 hn with rfl | hn
      · exact ht.2
      · exact hs.notCached conn name hn
    · rw [hnm, pairwise_cons]
      refine ⟨?_, hp⟩
      rintro name hn rfl
      exact absurd hn hnr
    · intro name hn texts
      rw [hsq, hm]
      rw [hnm] at hn
      by_cases hmm : name ∈ registeredNames batch
      · exact hs.sqls name hmm _
      · have heq := (mem_cons.1 hn).resolve_right hmm
        subst heq
        rw [sqlsAfter_of_notMem hnr, Session.sqls, hst]
        change sqlsAfter texts [st.parseMsg] _ = some st.sql
        rw [sqlsAfter, hl]
        exact update_self ..

theorem Delivers.mem_written (h : Delivers conn ms w w') (hms : ms ≠ []) : ∃ y ∈ w'.written, y.conn = conn := by
  cases ms with
  | nil => exact absurd rfl hms
  | cons m ms =>
    obtain ⟨ok, h⟩ := h
    obtain ⟨new, hw, -⟩ := h.wrote
    refine ⟨⟨conn, m, w.states conn, w.seen⟩, ?_, rfl⟩
    rw [hw]
    exact mem_append_left _ (mem_append_right _ (mem_singleton_self _))

theorem Preparing.forwarded {b : Bool} (h : Preparing s conn ms)
    (hs : CacheMatches s w) (hp : s.Pooled w) (hms : ms ≠ []) (hfwd : ForwardedAll w conn ms b w')
    (hl : ∀ y ∈ w'.written, (w'.states y.conn).lost = false) :
    Wrote FreeParse w w' ∧ (b → ∀ names, (∀ name, name ∈ names ↔ name ∈ parsedNames ms) →
      CacheMatches (s.markPrepared conn names) w') := by
  obtain ⟨pre, w₁, hpr, hd, hr, ha⟩ := hfwd
  refine ⟨(hd.freeParse (h.namesFree hs) hpr).trans (wrote_of_eq hr.written_eq), ?_⟩
  intro hb names hn
  rw [ha hb] at hd
  have hc : CacheMatches (s.markPrepared conn names) w₁ := by
    refine h.cacheMatches hs hp hn hd ?_
    obtain ⟨y, hy, rfl⟩ := hd.mem_written hms
    rw [← hr.states_eq]
    exact hl y (by rwa [hr.written_eq])
  exact hc.congr rfl rfl (fun _ _ h => h) hr.states_eq hr.opened_eq

theorem CacheMatches.kept (hs : CacheMatches s w) (hb : s'.backends = s.backends)
    (hc : s'.backendStmts = s.backendStmts) (hm : ∀ name st, s'.stmts name = some st → s.stmts name = some st)
    (hin : s'.inTx = s.inTx) (hsta : w'.states = w.states) (ho : w'.opened = w.opened) :
    BatchKept s batch s' w' :=
  ⟨hs.congr hb hc hm hsta ho, hin, hm, fun conn name h => .inl (by rwa [hc] at h)⟩

theorem BatchReady.forwarded {b : Bool}
    {w₁ : Network preparingPeer} {s₁ : Session} (hs : BatchReady s batch w) (injected : Option Pstmt)
    (hcn : Obtains s addr w conn s₁ w₁) (hp : Preparing s₁ conn ms) (hms : ms ≠ [])
    (hnm : parsedNames ms = parsedNames (injected.toList.map Pstmt.parseMsg) ++ parsedNames batch)
    (hnc : ∀ st ∈ injected, s.stmts (parseStmtName st.parseMsg) = some st)
    (hfwd : ForwardedAll w₁ conn ms b w') (hl : ∀ y ∈ w'.written, (w'.states y.conn).lost = false) :
    Wrote FreeParse w w' ∧ ∀ names, (∀ name, name ∈ names ↔ name ∈ parsedNames ms) →
      ∀ s', alive b (s₁.markPrepared conn names) = some s' → BatchKept s batch s' w' := by
  obtain ⟨hw, hcc⟩ := hp.forwarded (hcn.cacheMatches hs.pooled hs.cache) (hcn.pooled hs.pooled).1 hms hfwd hl
  refine ⟨(wrote_of_eq hcn.written_eq.1).trans hw, ?_⟩
  intro names hsm s' hs'
  obtain ⟨hb, rfl⟩ := alive_eq_some hs'
  refine ⟨hcc hb names hsm, hcn.inTx_eq, fun name st hst => by rwa [← hcn.stmts_eq], ?_⟩
  intro c name hn
  have hold := hcn.backendStmts_eq
  rw [Session.markPrepared_backendStmts] at hn
  by_cases hc : c = conn
  · subst hc
    rw [update_self, mem_append, hsm, hnm, hold, mem_append] at hn
    rcases hn with (hj | hbt) | hn
    · obtain ⟨x, hx, rfl⟩ := mem_map.1 hj
      obtain ⟨st, hst, rfl⟩ := mem_map.1 (mem_filter.1 hx).1
      exact .inr (.inr ⟨st, hnc st (Option.mem_toList.1 hst)⟩)
    · exact .inr (.inl hbt)
    · exact .inl hn
  · rw [update_of_ne hc, hold] at hn
    exact .inl hn

theorem BatchReady.watches (hs : BatchReady s batch w) (hw : Watches w w') : BatchReady s batch w' :=
  { hs with
    cache := hs.cache.congr rfl rfl (fun _ _ h => h) hw.states hw.opened
    pooled := hs.pooled.congr rfl (.inl rfl) hw.opened.ge
    registered := hs.registered.congr (fun _ _ h => h) hw.observed }

theorem keepsStatements (he : ∀ x ∈ batch, x.type ∈ extendedTypes ∨ x.type = 'S')
    (hc : ∀ y ∈ batch, ∀ name, opOf y ≠ .close name) : KeepsStatements (batch.map opOf) := by
  intro o ho
  obtain ⟨x, hx, rfl⟩ := mem_map.1 ho
  refine ⟨hc x hx, ?_⟩
  rcases he x hx with hx | hx
  · exact opOf_ne_query hx
  · rw [opOf_sync hx]
    exact nofun

theorem keepsStatements_execMessages {injected : Option Pstmt}
    (hb : KeepsStatements (batch.map opOf)) (hj : ∀ st ∈ injected, parseSQL st.parseMsg = some st.sql) :
    KeepsStatements ((execMessages injected batch).map opOf) := by
  intro o ho
  obtain ⟨x, hx, rfl⟩ := mem_map.1 ho
  simp only [execMessages, mem_append, mem_map, mem_singleton, parsesOf, othersOf, mem_filter] at hx
  rcases hx with ((⟨st, hst, rfl⟩ | hx) | hx) | rfl
  · rw [opOf_of_parseSQL (hj st (Option.mem_toList.1 hst))]
    simp
  · exact hb _ (mem_map_of_mem hx.1)
  · exact hb _ (mem_map_of_mem hx.1)
  · rw [opOf_sync rfl]
    simp

/-- A batch of fresh names keeps the cache right, whatever becomes of it. -/
theorem BatchOutcome.kept {o : Option Session} (hs : BatchReady s batch w)
    (hne : batch ≠ []) (ht : ∀ x ∈ batch, x.type ∈ extendedTypes ∨ x.type = 'S')
    (hc : (∃ y ∈ batch, y.type = 'B' ∨ y.type = 'D') → ∀ y ∈ batch, ∀ name, opOf y ≠ .close name)
    (hl : ∀ y ∈ w'.written, (w'.states y.conn).lost = false) (h : BatchOutcome cfg s batch w o w') :
    Wrote FreeParse w w' ∧ ∀ s', o = some s' → BatchKept s batch s' w' := by
  have hpin : s.pin = none := by rw [Session.pin, hs.idle]; rfl
  have hB : ∀ {bind : PgMessage}, batch.find? (fun m => m.type = byte 'B') = some bind →
      KeepsStatements (batch.map opOf) := by
    intro bind hb
    refine keepsStatements ht (hc ⟨bind, mem_of_find?_eq_some hb, Or.inl ?_⟩)
    simpa using find?_some hb
  cases h with
  | refused hb hwy hsd =>
    refine ⟨wrote_of_eq (hsd.written.trans hwy.watches.written), ?_⟩
    intro s' ho
    obtain ⟨-, rfl⟩ := alive_eq_some ho
    exact hs.cache.kept rfl rfl (fun _ _ h => h) rfl (hsd.states.trans hwy.watches.states)
      (hsd.opened.trans hwy.watches.opened)
  | lost hb hst hdc hl hms hsd =>
    refine ⟨wrote_of_eq ?_, fun s' ho => by cases ho⟩
    rcases hdc.decision with ⟨txt, he, -⟩ | ⟨topo, y, rfl, -⟩
    · cases he
    cases hl with
    | unreachable => exact hsd.written
    | pinFailed _ hin =>
      rw [hs.idle] at hin
      cases hin
  | @executed bind st d w₁ w₂ _ conn s₁ b hb hst hdc hgot hfwd =>
    rcases hdc.decision with ⟨txt, he, -⟩ | ⟨topo, y, rfl, -⟩
    · cases he
    have hobs := watches_observe w (.ok topo)
    cases hgot with
    | pinned h =>
      rw [hpin] at h
      cases h
    | pinnedNow _ hin =>
      rw [hs.idle] at hin
      cases hin
    | plain _ _ hcn =>
      obtain ⟨hsl, hn, -⟩ := hs.registered _ _ hst
      have hj : ∀ st' ∈ s₁.injected conn batch (bindStmtName bind) st, st' = st ∧
          bindStmtName bind ∉ parsedNames batch ++ s.backendStmts conn := by
        intro st' hst'
        rw [← hcn.backendStmts_eq]
        exact mem_injected hst'
      have hr := hs.watches hobs
      have hp : Preparing s₁ conn (execMessages (s₁.injected conn batch (bindStmtName bind) st) batch) := by
        refine hr.preparing hcn _ (keepsStatements_execMessages (hB hb) ?_) (registeredNames_execMessages _ _)
          (fun texts => sqlsAfter_execMessages texts _ _) ?_
        · intro st' hst'
          rw [(hj st' hst').1]
          exact hsl
        · intro st' hst'
          obtain ⟨rfl, hnt⟩ := hj st' hst'
          exact ⟨by rw [hn, hst], hsl, by rwa [hn]⟩
      obtain ⟨hw, hk⟩ := hr.forwarded _ hcn hp (by simp [execMessages]) (parsedNames_execMessages _ _)
        (fun st' hst' => by rw [(hj st' hst').1, hn, hst]) hfwd hl
      refine ⟨(wrote_of_eq hobs.written).trans hw, fun s' ho => hk _ ?_ s' ho⟩
      intro name
      rw [parsedNames_execMessages, mem_append, mem_append]
      refine or_congr ?_ Iff.rfl
      cases hcs : s₁.injected conn batch (bindStmtName bind) st with
      | none => rfl
      | some st' =>
        obtain ⟨rfl, -⟩ := hj st' hcs
        rw [show (Option.toList (some st')).map Pstmt.parseMsg = [st'.parseMsg] from rfl, parsedNames_single hsl, hn]
        rfl
  | describeRefused hb hd _ hwy hsd =>
    refine ⟨wrote_of_eq (hsd.written.trans hwy.watches.written), ?_⟩
    intro s' ho
    obtain ⟨-, rfl⟩ := alive_eq_some ho
    exact hs.cache.kept rfl rfl (fun _ _ h => h) rfl (hsd.states.trans hwy.watches.states)
      (hsd.opened.trans hwy.watches.opened)
  | @described w₁ _ conn s₁ b hb hd hgot hfwd =>
    rcases hgot with ⟨h, -⟩ | ⟨-, topo, shard, addr, -, -, hcn⟩
    · rw [hpin] at h
      cases h
    obtain ⟨y, hy, hD⟩ := hd
    have hobs := watches_observe w (.ok topo)
    have hr := hs.watches hobs
    have hp : Preparing s₁ conn batch :=
      hr.preparing hcn none (keepsStatements ht (hc ⟨y, hy, Or.inr hD⟩)) rfl (fun _ => rfl) (by simp)
    obtain ⟨hw, hk⟩ := hr.forwarded none hcn hp hne rfl (by simp) hfwd hl
    exact ⟨(wrote_of_eq hobs.written).trans hw, fun s' ho => hk _ (fun _ => Iff.rfl) s' ho⟩
  | acked hb hd hms hsd =>
    refine ⟨wrote_of_eq hsd.written, ?_⟩
    intro s' ho
    obtain ⟨-, rfl⟩ := alive_eq_some ho
    obtain ⟨stmts, heq, hm⟩ := foldl_handleClose s (batch.filter fun m => m.type = 'C')
    rw [heq]
    exact hs.cache.kept rfl rfl hm rfl hsd.states hsd.opened

/-! ### Runs -/

/-- Besides a right cache: all names that are cached, registered or waiting were parsed before, and the names that
wait for a Sync are distinct and in no cache. -/
structure CacheInvariant (h : Served Session PgMessage (Network preparingPeer)) (s : Session) : Prop where
  cache : CacheMatches s h.world.2
  idle : s.inTx = false
  cached : ∀ conn name, name ∈ s.backendStmts conn → name ∈ parsedNames h.messages
  known : ∀ name st, s.stmts name = some st → name ∈ parsedNames h.messages
  waiting : parsedNames s.extBuf ⊆ parsedNames h.messages
  fresh : ∀ conn, ∀ name ∈ parsedNames s.extBuf, name ≠ [] → name ∉ s.backendStmts conn
  distinct : (parsedNames s.extBuf).Pairwise fun a b => a = b → a = []

variable {h : Served Session PgMessage (Network preparingPeer)} {x : Option Session × Network preparingPeer}

theorem mem_parsedNames_step (hn : name ∈ parsedNames h.messages) : name ∈ parsedNames (h.step m x).messages := by
  rw [Run.messages, parsedNames_append]
  exact mem_append_left _ hn

theorem CacheInvariant.buffered (hv : CacheInvariant h s)
    (hf : m.type = 'P' → parseStmtName m ≠ [] → parseStmtName m ∉ parsedNames h.messages) :
    CacheInvariant (h.step m (some { s with extBuf := s.extBuf ++ [m] }, h.world.2))
      { s with extBuf := s.extBuf ++ [m] } := by
  -- the name of the message is new, or it has none
  have ho : ∀ name ∈ parsedNames [m], name ≠ [] → name ∉ parsedNames h.messages := by
    intro name hn
    obtain ⟨x, hx, rfl⟩ := mem_map.1 hn
    obtain ⟨hm, hP⟩ := mem_filter.1 hx
    rw [mem_singleton.1 hm] at hP ⊢
    exact hf (by simpa using hP)
  refine ⟨hv.cache.congr rfl rfl (fun _ _ h => h) rfl rfl, hv.idle,
    fun conn name hn => mem_parsedNames_step (hv.cached conn name hn),
    fun name st hst => mem_parsedNames_step (hv.known name st hst), ?_, ?_, ?_⟩
  · rw [parsedNames_append, Run.messages, parsedNames_append]
    exact append_subset.2
      ⟨fun _ hn => mem_append_left _ (hv.waiting hn), subset_append_right _ _⟩
  · intro conn name hn hne
    rw [parsedNames_append] at hn
    rcases mem_append.1 hn with hn | hn
    · exact hv.fresh conn name hn hne
    · exact fun hm => ho name hn hne (hv.cached conn name hm)
  · rw [parsedNames_append]
    refine pairwise_append.2 ⟨hv.distinct, ?_, ?_⟩
    · rw [parsedNames, parsesOf]
      cases hP : decide (m.type = 'P') with
      | true => simp [hP]
      | false => simp [hP]
    · rintro name hn _ hn' rfl
      by_contra hne
      exact ho name hn' hne (hv.waiting hn)

/-- Step lemma for a Sync, which runs the batch. -/
theorem CacheInvariant.runs_batch {s₁ : Session} {w₁ : Network preparingPeer} (hv : CacheInvariant h s)
    (hsn : s.Sound h.world.2) (hsy : m.type = 'S') (hf : NamesFresh h m x) (hs : h.world.1 = some s)
    (hreg : AfterRegister { s with extBuf := [] } (s.extBuf ++ [m]) h.world.2 s₁ w₁)
    (hb : BatchOutcome cfg s₁ (s.extBuf ++ [m]) w₁ x.1 x.2) :
    Wrote FreeParse h.world.2 x.2 ∧ ∀ s', x.1 = some s' → CacheInvariant (h.step m x) s' := by
  have hnm : parsedNames (s.extBuf ++ [m]) = parsedNames s.extBuf := by
    have hP : m.type ≠ 'P' := by rw [hsy]; decide
    simp [parsedNames, parsesOf, filter_append, hP]
  have hsb := (registeredNames_sublist (s.extBuf ++ [m])).subset
  rw [hnm] at hsb
  have hr : BatchReady s₁ (s.extBuf ++ [m]) w₁ := by
    refine ⟨hreg.cacheMatches (hv.cache.congr rfl rfl (fun _ _ h => h) rfl rfl) ?_,
      hsn.pooled.congr hreg.backends (.inl hreg.txBackend) hreg.watches.opened.ge,
      hreg.registered (hsn.registered.congr (fun _ _ h => h) ⟨[], rfl⟩), hreg.inTx.trans hv.idle, ?_, ?_, ?_⟩
    · intro conn name hn hne
      exact hv.fresh conn name (hsb hn) hne
    · rw [hnm]
      exact hv.distinct
    · intro conn name hn hm
      exact ((hreg.backendStmts conn name).1 hm).2 hn
    · intro name hn texts
      obtain ⟨sql, hl⟩ := sqlsAfter_of_mem hn
      rw [hreg.sqls, hl, hl]
  have he : ∀ x ∈ s.extBuf ++ [m], x.type ∈ extendedTypes ∨ x.type = 'S' := by
    intro x hx
    rcases mem_append.1 hx with hx | hx
    · exact .inl (hsn.buffers x hx)
    · exact .inr (by rw [mem_singleton.1 hx, hsy])
  have hc : (∃ y ∈ s.extBuf ++ [m], y.type = 'B' ∨ y.type = 'D') →
      ∀ y ∈ s.extBuf ++ [m], ∀ name, opOf y ≠ .close name := by
    rintro ⟨y, hy, hBD⟩ z hz
    have hy : y ∈ s.extBuf := by
      rcases mem_append.1 hy with hy | hy
      · exact hy
      · rw [mem_singleton.1 hy, hsy] at hBD
        exact absurd hBD (by decide)
    rcases mem_append.1 hz with hz | hz
    · exact hf.2.2.1 s hs hsy ⟨y, hy, hBD⟩ z hz
    · rw [mem_singleton.1 hz, opOf_sync hsy]
      simp
  obtain ⟨hw, hkp⟩ := hb.kept hr (by simp) he hc hf.2.2.2
  refine ⟨(wrote_of_eq hreg.watches.written).trans hw, ?_⟩
  intro s' ho
  have hk := hkp s' ho
  have hbf : s'.extBuf = [] := (hb.extBuf_eq ho).trans hreg.extBuf
  have hkn : ∀ name st, s₁.stmts name = some st → name ∈ parsedNames h.messages := by
    intro name st hst
    rcases hreg.stmts name st hst with hold | ⟨hm, hl, rfl, -⟩
    · exact hv.known name st hold
    · exact hv.waiting (hsb (mem_map_of_mem (mem_filter.2 ⟨hm, by simp [hl]⟩)))
  refine ⟨hk.cache, hk.inTx.trans hr.idle, ?_, ?_,
    by simp [hbf, parsedNames, parsesOf], by simp [hbf, parsedNames, parsesOf],
    by simp [hbf, parsedNames, parsesOf]⟩
  · intro conn name hn
    refine mem_parsedNames_step ?_
    rcases hk.cached conn name hn with hold | hnw | ⟨st, hst⟩
    · exact hv.cached conn name ((hreg.backendStmts conn name).1 hold).1
    · rw [hnm] at hnw
      exact hv.waiting hnw
    · exact hkn name st hst
  · intro name st hst
    exact mem_parsedNames_step (hkn name st (hk.stmts name st hst))

theorem cacheInvariant_init : CacheInvariant (.start (some {}, {})) {} where
  cache :=
    { opened := fun _ _ h => by cases h
      coherent := fun _ _ h => by cases h
      complete := fun _ _ h => by cases h }
  idle := rfl
  cached _ _ h := by cases h
  known _ _ h := by cases h
  waiting := by simp [parsedNames, parsesOf]
  fresh _ _ h := by cases h
  distinct := by simp [parsedNames, parsesOf]

/-- In every run of extended batches that prepares every name once, closes no statement together with a Bind or a
Describe, and loses no Parse, the cache is right after every step. -/
theorem cache_coherent {h : Served Session PgMessage (Network preparingPeer)}
    (hrun : IsSessionRun preparingPeer cfg h)
    (hfresh : h.Steps NamesFresh) : h.Steps CacheRight := by
  refine IsSessionRun.steps CacheInvariant cacheInvariant_init ?_ hrun hfresh
  rintro h s m ⟨o, w'⟩ hsn hv ht hs hφ
  -- the first half of the law is part of the invariant afterwards
  suffices hste : Wrote FreeParse h.world.2 w' ∧ ∀ s', o = some s' → CacheInvariant (h.step m (o, w')) s' from
    ⟨⟨fun s' ho => (hste.2 s' ho).cache.coherent, hste.1⟩, hste.2⟩
  cases ht with
  | query hl => exact absurd (querySQL_type hl) hφ.1
  | buffered he =>
    refine ⟨wrote_of_eq rfl, ?_⟩
    intro s' ho
    cases ho
    exact hv.buffered hφ.2.1
  | batch hsy hreg hb => exact hv.runs_batch hsn hsy hφ hs hreg.after hb
  | ended hms hsd => exact ⟨wrote_of_eq hsd.written, fun s' ho => by cases ho⟩

def namesFresh (h : Served Session PgMessage (Network preparingPeer)) (m : PgMessage)
    (x : Option Session × Network preparingPeer) : Bool :=
  m.type ≠ 'Q' && (m.type ≠ 'P' || parseStmtName m ∉ parsedNames h.messages) &&
    (h.world.1.all fun s => s.extBuf.all fun y => y.type ≠ 'C') &&
    x.2.written.all fun y => !(x.2.states y.conn).lost

theorem namesFresh_of_check (hc : namesFresh h m x) : NamesFresh h m x := by
  simp only [namesFresh, Bool.and_eq_true, Bool.or_eq_true, decide_eq_true_eq, all_eq_true, Bool.not_eq_true'] at hc
  obtain ⟨⟨⟨hQ, hP⟩, hC⟩, hl⟩ := hc
  refine ⟨hQ, fun ht _ => hP.resolve_left (fun h => h ht), ?_, hl⟩
  intro s hs hsy hBD y hy name hop
  rw [hs] at hC
  have hy : y.type ≠ 'C' := by
    simpa using all_eq_true.1 hC y hy
  unfold opOf at hop
  split at hop
  · split at hop
    · cases hop
    · cases hop
  · split_ifs at hop
    · cases hr : stmtTarget y with
      | none => rw [hr] at hop; cases hop
      | some n => rw [hr] at hop; cases hop

/-- An UPDATE that is prepared once is executed on both shards. -/
theorem cache_coherent_update : ∃ h, IsSessionRun preparingPeer primaries h ∧ h.Steps NamesFresh ∧
    h.Steps CacheRight ∧
    h.world.2.written.map (fun y => (y.conn.addr, y.message)) =
      [(str "primary/shard-0", updateTenant "p"), (str "primary/shard-0", bindMessage "p" ["a"]),
        ("primary/shard-0", syncMessage), ("primary/shard-1", updateTenant "p"),
        ("primary/shard-1", bindMessage "p" ["b"]), ("primary/shard-1", syncMessage)] := by
  refine exists_sessionRun_check namesFresh_of_check cache_coherent
    [(updateTenant "p", []), (syncMessage, prepareAnswers 3), (bindMessage "p" ["a"], []),
      (syncMessage, prepareAnswers 8),
      (bindMessage "p" ["b"], []), (syncMessage, prepareAnswers 8)] ?_
  decide +kernel

/-- After the client has closed a statement, a Parse of its name is sent to the backend that still has it.  And a
statement whose Parse fails counts as prepared. -/
theorem cache_incoherent : (∃ h, IsSessionRun preparingPeer primaries h ∧
      h.world.2.written.map (fun y => (y.message, y.before.stmts "p")) =
      [(updateTenant "p", none), (bindMessage "p" ["a"], some (str "UPDATE orders SET v = 1 WHERE tenant_id = $1")),
        (syncMessage, some "UPDATE orders SET v = 1 WHERE tenant_id = $1"),
        (deleteTenant "p", some "UPDATE orders SET v = 1 WHERE tenant_id = $1"),
        (bindMessage "p" ["a"], some "UPDATE orders SET v = 1 WHERE tenant_id = $1"),
        (syncMessage, some "UPDATE orders SET v = 1 WHERE tenant_id = $1")]) ∧
    ∃ h, IsSessionRun preparingPeer primaries h ∧
      (h.messages, h.world.1.map fun s => s.backendStmts ⟨"primary/shard-0", 0⟩,
        (h.world.2.states ⟨"primary/shard-0", 0⟩).stmts "p") =
      ([updateTenant "p", bindMessage "p" ["a"], syncMessage], some [str "p"], none) := by
  refine ⟨?_, ?_⟩
  · refine exists_sessionRun [(updateTenant "p", []), (bindMessage "p" ["a"], []), (syncMessage, prepareAnswers 10),
      (⟨'C', 'S' :: cstring "p"⟩, []), (syncMessage, prepareAnswers 2),
      (deleteTenant "p", []), (bindMessage "p" ["a"], []), (syncMessage, prepareAnswers 8)] ?_
    decide +kernel
  · refine exists_sessionRun [(updateTenant "p", []), (bindMessage "p" ["a"], []),
      (syncMessage, prepareAnswers 3 ++ answersWith false (twoTenants false) 1 ++ prepareAnswers 5)] ?_
    decide +kernel

end PostgresOperator
