import PostgresOperator.Calls.Reactive
import PostgresOperator.PgRouter.Wire

/-!
# A session of the router

The session of `cmd/pg-router` that routes every query of a client: `persession.go` (simple queries and transactions),
`extsession.go` (the extended protocol), `scattermode.go` and the `queryRouter` of `querymode.go`.  A handler is a
program that calls the topology provider, the dialer, the backend connections and the client connection.

The messages that come back on a connection up to a ReadyForQuery are the answer to one call, and opening a connection
stands for dialing, the startup message and the authentication.  The shards of a scatter are asked one after the
other.
-/

namespace PostgresOperator

open Go Calls Function

/-! ### Calls -/

/-- A backend connection: the address it was opened to, and a number of its own. -/
structure Conn where
  addr : Str
  id : Nat
  deriving DecidableEq

/-- An error of the topology provider, of the routing, or of a connection. -/
inductive RouterError
  | provider (e : Str)
  | route (e : RouteError)
  | io (e : Str)
  deriving DecidableEq

/-- What is written to the client: a message of the router's own, one that it passes on, or the ErrorResponse of
`writePgError`, whose text ends with the text of `cause`. -/
inductive ToClient
  | own (m : PgMessage)
  | relayed (m : PgMessage)
  | error (code text : Str) (cause : Option RouterError)
  deriving DecidableEq

/-- What is read from a connection: messages up to a ReadyForQuery, and the error of the read if there is none. -/
structure Replies where
  messages : List PgMessage
  error : Str := []

inductive RouterReq
  /-- `provider.Current` -/
  | current
  | connect (addr : Str)
  | write (conn : Conn) (m : PgMessage)
  | replies (conn : Conn)
  | send (m : ToClient)

def RouterReq.Res : RouterReq → Type
  | .current => Except Str Topology
  | .connect _ => Except Str Conn
  | .write _ _ => Except Str Unit
  | .replies _ => Replies
  | .send _ => Bool

def routerCalls : Interface where
  Req := RouterReq
  Res := RouterReq.Res
  failed := fun {r} a => match r, a with
    | .current, .error _ => true
    | .connect _, .error _ => true
    | .write _ _, .error _ => true
    | .send _, false => true
    | _, _ => false

abbrev RouterM := Prog routerCalls

def current : RouterM (Except Str Topology) := .call (I := routerCalls) .current .pure

def connect (addr : Str) : RouterM (Except Str Conn) := .call (I := routerCalls) (.connect addr) .pure

variable (conn : Conn) (cfg : RouterConfig) (s : Session) (c : Conn) (st : Pstmt) (batch : List PgMessage)

def writeConn (m : PgMessage) : RouterM (Except Str Unit) :=
  .call (I := routerCalls) (.write conn m) .pure

def replies (conn : Conn) : RouterM Replies := .call (I := routerCalls) (.replies conn) .pure

def send (m : ToClient) : RouterM Bool := .call (I := routerCalls) (.send m) .pure

/-- `writePgError`, of which the message is what the session decides.  It also sets a write deadline of two seconds on
the client connection, which nothing clears.  That is part of the surroundings: in `routerService` any write to the
client may fail, in `clockedService` those after the deadline do. -/
def writePgError (code text : String) (cause : Option RouterError := none) : RouterM Unit := do
  let _ ← send (.error (str code) (str text) cause)
  pure ()

def sendReady (status : Char) : RouterM Bool := send (.own ⟨'Z', [byte status]⟩)

/-! ### Routing -/

/-- `queryRouter`, without the topology provider.  `merge` is `mergeScatterRows`, which puts the rows of a scatter
together. -/
structure RouterConfig where
  extractor : Extractor := .auto
  write : BackendResolver
  read : Option BackendResolver := none
  merge : Str → Option PgMessage → List PgMessage → List PgMessage := fun _ _ rows => rows

def RouterConfig.router (topo : Topology) : QueryRouter :=
  { topology := topo, extractor := some cfg.extractor, write := some cfg.write, read := cfg.read }

def RouterConfig.keyDecision (topo : Topology) (key : Str) (read : Bool) :
    RouteDecision × Option RouteError :=
  if !read && topo.spec.writeBlocked then ({}, some .writeBlocked)
  else decideShard (if read then cfg.read.getD cfg.write else cfg.write) read (topo.shard key)

def withTopology (decide : Topology → RouteDecision × Option RouteError) :
    RouterM (RouteDecision × Option RouterError) := do
  match ← current with
  | .error e => pure ({}, some (.provider e))
  | .ok topo => pure ((decide topo).1, (decide topo).2.map .route)

def routeSQL (sql : Str) : RouterM (RouteDecision × Option RouterError) :=
  withTopology fun topo => (cfg.router topo).route sql

def routeKey (key : Str) (read : Bool) : RouterM (RouteDecision × Option RouterError) :=
  withTopology fun topo => cfg.keyDecision topo key read

def shardColumn : RouterM Str := do
  match ← current with
  | .error _ => pure []
  | .ok topo => pure topo.spec.vindex.column

def anyShard (cfg : RouterConfig) : RouterM (Except RouterError Str) := do
  match ← current with
  | .error e => pure (.error (.provider e))
  | .ok topo =>
    match topo.anyShard with
    | .error e => pure (.error (.route e))
    | .ok shard => pure ((cfg.write shard).mapError fun e => .route (.backend e))

def allShardsLoop (write : BackendResolver) : List Str → List ShardRangeEntry → Option (List (Str × Str))
  | _, [] => some []
  | seen, r :: rs =>
    if r.shard = [] ∨ r.shard ∈ seen then allShardsLoop write seen rs
    else match write r.shard with
      | .error _ => none
      | .ok backend => (allShardsLoop write (r.shard :: seen) rs).map ((r.shard, backend) :: ·)

def allShards : RouterM (Option (List (Str × Str))) := do
  match ← current with
  | .error _ => pure none
  | .ok topo => pure (allShardsLoop cfg.write [] topo.spec.ranges)

/-! ### Relaying -/

/-- The loop of `execAndRelay` and `relayExtended`: the replies are passed on up to ReadyForQuery, without the first
`swallow` ParseCompletes. -/
def relay : Nat → List PgMessage → RouterM Bool
  | _, [] => pure false
  | swallow, m :: ms =>
    if m.type = '1' ∧ 0 < swallow then relay (swallow - 1) ms
    else do
      if ← send (.relayed m) then
        if m.type = 'Z' then pure true else relay swallow ms
      else pure false

def relayExtended (swallow : Nat) : RouterM Bool := do
  relay swallow (← replies conn).messages

def execAndRelay (m : PgMessage) : RouterM Bool := do
  match ← writeConn conn m with
  | .error _ => pure false
  | .ok _ => relayExtended conn 0

def drainLoop (error : Str) : List PgMessage → Except Str Unit
  | [] => .error error
  | m :: ms =>
    if m.type = 'E' then .error ("backend error: " ++ m.payload)
    else if m.type = 'Z' then .ok ()
    else drainLoop error ms

def drainResponse : RouterM (Except Str Unit) := do
  let r ← replies conn
  pure (drainLoop r.error r.messages)

/-! ### Scatter -/

structure ShardResult where
  rowDesc : Option PgMessage := none
  rows : List PgMessage := []
  errMsg : Option PgMessage := none

def readQueryResult : ShardResult → List PgMessage → Option ShardResult
  | _, [] => none
  | r, m :: ms =>
    if m.type = 'T' then readQueryResult { r with rowDesc := r.rowDesc.or (some m) } ms
    else if m.type = 'D' then readQueryResult { r with rows := r.rows ++ [m] } ms
    else if m.type = 'E' then readQueryResult { r with errMsg := some m } ms
    else if m.type = 'Z' then some r
    else readQueryResult r ms

def scatterOne (query : PgMessage) (backend : Str) : RouterM (Except Str ShardResult) := do
  match ← connect backend with
  | .error e => pure (.error e)
  | .ok conn =>
    match ← writeConn conn ⟨'Q', query.payload⟩ with
    | .error e => pure (.error e)
    | .ok _ =>
      let r ← replies conn
      match readQueryResult {} r.messages with
      | none => pure (.error r.error)
      | some result => pure (.ok result)

def scatterEach (query : PgMessage) :
    List (Str × Str) → RouterM (List (Str × Except Str ShardResult))
  | [] => pure []
  | (shard, backend) :: shards => do
    let r ← scatterOne query backend
    let rs ← scatterEach query shards
    pure ((shard, r) :: rs)

inductive Gathered
  | failed (shard : Str) (e : Str)
  | backendError (m : PgMessage)
  | rows (rowDesc : Option PgMessage) (rows : List PgMessage)

def gather : Option PgMessage → List PgMessage → List (Str × Except Str ShardResult) → Gathered
  | rowDesc, rows, [] => .rows rowDesc rows
  | _, _, (shard, .error e) :: _ => .failed shard e
  | rowDesc, rows, (_, .ok r) :: rs =>
    match r.errMsg with
    | some m => .backendError m
    | none => gather (rowDesc.or r.rowDesc) (rows ++ r.rows) rs

def sendWhile : List ToClient → RouterM Bool
  | [] => pure true
  | m :: ms => do if ← send m then sendWhile ms else pure false

def queryOf (m : PgMessage) : Str :=
  (trimSpace (m.payload.rdropWhile (· = 0))).rdropWhile (· ∈ str "; \t\r\n")

def scatterClientError (text : Str) (cause : Option RouterError) : RouterM Unit := do
  let _ ← send (.error "08006" text cause)
  let _ ← sendReady 'I'
  pure ()

def scatterQuery (m : PgMessage) : RouterM Unit := do
  match ← allShards cfg with
  | none | some [] => scatterClientError "scatter: no shards available" none
  | some shards =>
    match gather none [] (← scatterEach m shards) with
    | .failed shard e => scatterClientError ("scatter: shard " ++ shard ++ ": ") (some (.io e))
    | .backendError em => do
      let _ ← send (.relayed ⟨'E', em.payload⟩)
      let _ ← sendReady 'I'
      pure ()
    | .rows rowDesc rows => do
      let rows := cfg.merge (queryOf m) rowDesc rows
      let head := rowDesc.toList.map fun rd => ToClient.relayed ⟨'T', rd.payload⟩
      if ← sendWhile (head ++ rows.map fun r => .relayed ⟨'D', r.payload⟩) then
        let _ ← send (.own ⟨'C', cstring ("SELECT " ++ itoa rows.length)⟩)
        let _ ← sendReady 'I'
        pure ()
      else pure ()

/-! ### The state of a session -/

/-- `pstmt`: a prepared statement of the client.  `paramIdx` is the number of the parameter with the routing key, or
0. -/
structure Pstmt where
  name : Str
  sql : Str
  paramIdx : Nat
  parseMsg : PgMessage
  deriving DecidableEq

structure Session where
  backends : Str → Option Conn := fun _ => none
  inTx : Bool := false
  /-- A BEGIN that was answered and is not yet sent to a backend. -/
  pendingBegin : PgMessage := ⟨0, []⟩
  txBackend : Option Conn := none
  extBuf : List PgMessage := []
  stmts : Str → Option Pstmt := fun _ => none
  /-- The names that count as prepared on a backend connection. -/
  backendStmts : Conn → List Str := fun _ => []

namespace Session

def pin : Option Conn := if s.inTx then s.txBackend else none

def addBackend (backend : Str) (c : Conn) : Session :=
  { s with backends := update s.backends backend (some c) }

def register : Session :=
  { s with
    stmts := update s.stmts st.name (some st)
    backendStmts := fun c => (s.backendStmts c).filter (· ≠ st.name) }

def markPrepared (names : List Str) : Session :=
  { s with backendStmts := update s.backendStmts c (names ++ s.backendStmts c) }

@[simp] theorem addBackend_backends (backend : Str) (c : Conn) :
    (s.addBackend backend c).backends = update s.backends backend (some c) := rfl

@[simp] theorem register_stmts :
    (s.register st).stmts = update s.stmts st.name (some st) := rfl

@[simp] theorem register_backendStmts (c : Conn) :
    (s.register st).backendStmts c = (s.backendStmts c).filter (· ≠ st.name) := rfl

@[simp] theorem markPrepared_backendStmts (names : List Str) :
    (s.markPrepared c names).backendStmts = update s.backendStmts c (names ++ s.backendStmts c) := rfl

def handleClose (m : PgMessage) : Session :=
  match closeStmtName m with
  | none => s
  | some name => { s with stmts := update s.stmts name none }

end Session

def queryError (code text : String) (cause : Option RouterError := none) : RouterM (Option Session) := do
  writePgError code text cause
  let _ ← sendReady (if s.inTx then 'E' else 'I')
  pure (some s)

def sendReadyIdle : RouterM (Option Session) := do
  if ← sendReady (if s.inTx then 'T' else 'I') then pure (some s) else pure none

def extError (code : String) (text : Str) (cause : Option RouterError := none) :
    RouterM (Option Session) := do
  let _ ← send (.error (str code) text cause)
  sendReadyIdle s

/-! ### Backends -/

def backendFor (backend : Str) : RouterM (Except Str (Conn × Session)) := do
  match s.backends backend with
  | some c => pure (.ok (c, s))
  | none =>
    match ← connect backend with
    | .error e => pure (.error e)
    | .ok c => pure (.ok (c, s.addBackend backend c))

inductive BeginError
  | write (e : Str)
  | drain (e : Str)

def pinTo (conn : Conn) : RouterM (Except BeginError Session) := do
  match ← writeConn conn s.pendingBegin with
  | .error e => pure (.error (.write e))
  | .ok _ =>
    match ← drainResponse conn with
    | .error e => pure (.error (.drain e))
    | .ok _ => pure (.ok { s with txBackend := some conn })

def backendForRouted (d : RouteDecision) : RouterM (Except Str (Conn × Session)) := do
  match s.pin with
  | some conn => pure (.ok (conn, s))
  | none =>
    match ← backendFor s d.backend with
    | .error e => pure (.error e)
    | .ok (conn, s) =>
      if s.inTx then
        match ← pinTo s conn with
        | .error (.write e) | .error (.drain e) => pure (.error e)
        | .ok s => pure (.ok (conn, s))
      else pure (.ok (conn, s))

def describeBackend : RouterM (Except RouterError (Conn × Session)) := do
  match s.pin with
  | some conn => pure (.ok (conn, s))
  | none =>
    match ← anyShard cfg with
    | .error e => pure (.error e)
    | .ok backend =>
      match ← backendFor s backend with
      | .error e => pure (.error (.io e))
      | .ok x => pure (.ok x)

/-! ### Simple queries -/

def fabricateBegin : RouterM Bool := do
  if ← send (.own ⟨'C', cstring "BEGIN"⟩) then sendReady 'T' else pure false

def endKeywords : List Str := ["commit", "rollback", "end"]

def beginKeywords : List Str := ["begin", "start"]

def Session.afterPinned (kw : Str) : Session :=
  if kw ∈ endKeywords then { s with inTx := false, txBackend := none } else s

def forwardQuery (m : PgMessage) (d : RouteDecision) : RouterM (Option Session) := do
  match ← backendFor s d.backend with
  | .error e => do
    writePgError "08006" "backend: " (some (.io e))
    pure none
  | .ok (conn, s) =>
    if s.inTx then
      match ← pinTo s conn with
      | .error (.write _) => pure none
      | .error (.drain e) => do
        writePgError "08006" "tx begin: " (some (.io e))
        pure none
      | .ok s => do if ← execAndRelay conn m then pure (some s) else pure none
    else do if ← execAndRelay conn m then pure (some s) else pure none

def routedQuery (m : PgMessage) (sql : Str)
    (d : RouteDecision) (e : Option RouterError) : RouterM (Option Session) :=
  if d.scatter then
    if !isReadOnlyQuery sql then queryError s "0A000" "cannot scatter a keyless write query"
    else if s.inTx then queryError s "0A000" "cannot scatter a keyless query inside a transaction"
    else do
      scatterQuery cfg m
      pure (some s)
  else match e with
    | some (.route .writeBlocked) => queryError s "25006" "" e
    | some (.route .crossShardInsert) => queryError s "0A000" "" e
    | some e => queryError s "08006" "routing failed: " (some e)
    | none => forwardQuery s m d

def handleSimpleQuery (m : PgMessage) : RouterM (Option Session) :=
  match querySQL m with
  | none => do
    writePgError "08P01" "could not parse query"
    pure none
  | some sql =>
    match s.pin with
    | some conn => do
      if ← execAndRelay conn m then pure (some (s.afterPinned (firstKeyword sql))) else pure none
    | none =>
      if !s.inTx ∧ firstKeyword sql ∈ beginKeywords then do
        if ← fabricateBegin then pure (some { s with inTx := true, pendingBegin := m, txBackend := none })
        else pure none
      else do
        let (d, e) ← routeSQL cfg sql
        routedQuery cfg s m sql d e

/-! ### Extended batches -/

def registerParse (m : PgMessage) : RouterM Session := do
  match parseSQL m with
  | none => pure s
  | some sql =>
    let col ← shardColumn
    pure (s.register ⟨parseStmtName m, sql, (extractParamRef sql col).getD 0, m⟩)

def registerAll (s : Session) : List PgMessage → RouterM Session
  | [] => pure s
  | m :: ms =>
    if m.type = 'P' then do registerAll (← registerParse s m) ms
    else registerAll s ms

/-- The routing of a Bind; `none` if its parameter cannot be read. -/
def routeBind (bind : PgMessage) :
    RouterM (Option (RouteDecision × Option RouterError)) :=
  if 0 < st.paramIdx then
    match (bindParams bind).bind fun ps => ps[st.paramIdx - 1]?.join with
    | none => pure none
    | some key => do return some (← routeKey cfg key (isReadOnlyQuery st.sql))
  else do return some (← routeSQL cfg st.sql)

def writeAll (conn : Conn) : List PgMessage → RouterM Bool
  | [] => pure true
  | m :: ms => do
    match ← writeConn conn m with
    | .error _ => pure false
    | .ok _ => writeAll conn ms

def parsesOf : List PgMessage := batch.filter fun m => m.type = 'P'

def othersOf : List PgMessage :=
  batch.filter fun m => m.type ≠ 'P' ∧ m.type ≠ 'S'

/-- What `runExtendedExec` writes: the Parse of the statement of the first Bind if it is to be injected, the Parses,
the other messages, and a Sync. -/
def execMessages (injected : Option Pstmt) (batch : List PgMessage) : List PgMessage :=
  injected.toList.map Pstmt.parseMsg ++ parsesOf batch ++ othersOf batch ++ [⟨'S', []⟩]

/-- The statement of the first Bind, if the connection does not have it and the batch does not prepare it. -/
def Session.injected (conn : Conn) (batch : List PgMessage) (name : Str) (st : Pstmt) : Option Pstmt :=
  if name ∈ (parsesOf batch).map parseStmtName ++ s.backendStmts conn then none else some st

def forwardBatch (conn : Conn) (batch : List PgMessage) (name : Str) (st : Pstmt) :
    RouterM (Option Session) := do
  let injected := s.injected conn batch name st
  let s := s.markPrepared conn ((injected.toList.map fun _ => name) ++ (parsesOf batch).map parseStmtName)
  if ← writeAll conn (execMessages injected batch) then
    if ← relayExtended conn injected.toList.length then pure (some s) else pure none
  else pure none

def runExtendedExec (bind : PgMessage) :
    RouterM (Option Session) := do
  match s.stmts (bindStmtName bind) with
  | none => extError s "26000" ("prepared statement not found: " ++ bindStmtName bind)
  | some st =>
    match ← routeBind cfg st bind with
    | none => extError s "08006" "could not extract routing parameter from Bind"
    | some (d, e) =>
      if e = some (.route .writeBlocked) then extError s "25006" [] e
      else if e ≠ none ∨ d.scatter then
        extError s "08006" "extended routing failed (no routing key; extended scatter unsupported)"
      else
        match ← backendForRouted s d with
        | .error e => do
          writePgError "08006" "backend: " (some (.io e))
          pure none
        | .ok (conn, s) => forwardBatch s conn batch (bindStmtName bind) st

def runDescribeOnly : RouterM (Option Session) := do
  match ← describeBackend cfg s with
  | .error e => extError s "08006" "describe-round: " (some e)
  | .ok (conn, s) =>
    let s := s.markPrepared conn ((parsesOf batch).map parseStmtName)
    if ← writeAll conn batch then
      if ← relayExtended conn 0 then pure (some s) else pure none
    else pure none

def synthExtendedAcks (s : Session) : List PgMessage → RouterM (Option Session)
  | [] => sendReadyIdle s
  | m :: ms =>
    if m.type = 'P' then do
      if ← send (.own ⟨'1', []⟩) then synthExtendedAcks s ms else pure none
    else if m.type = 'C' then do
      if ← send (.own ⟨'3', []⟩) then synthExtendedAcks (s.handleClose m) ms else pure none
    else synthExtendedAcks s ms

def runBatch : RouterM (Option Session) := do
  let s ← registerAll s batch
  match batch.find? fun m => m.type = byte 'B' with
  | some bind => runExtendedExec cfg s batch bind
  | none =>
    if batch.any fun m => m.type = 'D' then runDescribeOnly cfg s batch
    else synthExtendedAcks s batch

def handleExtendedBatch : RouterM (Option Session) :=
  runBatch cfg { s with extBuf := [] } s.extBuf

/-! ### The session loop -/

def hexByte (c : UInt8) : Str :=
  let digit (n : Nat) : UInt8 := if n < 10 then '0' + UInt8.ofNat n else 'a' + UInt8.ofNat (n - 10)
  [digit (c.toNat / 16), digit (c.toNat % 16)]

/-- `%q` of a byte, as of the character with that number. -/
def quoteByte (c : UInt8) : Str :=
  let escaped : Str :=
    if c = '\'' then "\\'"
    else if c = '\\' then "\\\\"
    else if c = 7 then "\\a"
    else if c = 8 then "\\b"
    else if c = 9 then "\\t"
    else if c = 10 then "\\n"
    else if c = 11 then "\\v"
    else if c = 12 then "\\f"
    else if c = 13 then "\\r"
    else if c < 0x20 ∨ c = 0x7f then "\\x" ++ hexByte c
    else if c < 0x7f then [c]
    else if c < 0xa0 ∨ c = 0xa0 ∨ c = 0xad then "\\u00" ++ hexByte c
    else if c < 0xc0 then [0xc2, c]
    else [0xc3, c - 0x40]
  byte '\'' :: escaped ++ [byte '\'']

def extendedTypes : List UInt8 := "PBDECH"

/-- One round of the loop of `runPerQuerySession`; `none` ends the session. -/
def serveMessage : Server routerCalls Session PgMessage := fun s m =>
  if m.type = 'X' then pure none
  else if m.type = 'Q' then handleSimpleQuery cfg s m
  else if m.type ∈ extendedTypes then pure (some { s with extBuf := s.extBuf ++ [m] })
  else if m.type = 'S' then handleExtendedBatch cfg { s with extBuf := s.extBuf ++ [m] }
  else do
    let _ ← send (.error "0A000"
      ("message type " ++ quoteByte m.type ++ " not supported in per-query mode") none)
    pure none

end PostgresOperator
