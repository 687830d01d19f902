import PostgresOperator.Router.Extractor
import PostgresOperator.Router.Vindex

/-!
# Where a query goes

`QueryRouter.Route` of `internal/router/query_router.go` with the reference tables of `reference.go`.  Go returns a
decision and an error side by side; for a query without a routing key both are set.
-/

namespace PostgresOperator

open Go

/-! ### The topology -/

structure Topology where
  cluster : Str := []
  keyspace : Str := []
  spec : ShardRangeSpec
  deriving DecidableEq

/-- `tableNameAt` on the tokens from the position on: of a name with a schema, the part after the dot. -/
def tableNameAt : List Token → Str
  | [] => []
  | t :: ts =>
    if t.kind ≠ .ident then []
    else match ts with
      | dot :: name :: _ => if dot = sym "." ∧ name.kind = .ident then name.text else t.text
      | _ => t.text

def tablesLoop : List Str → List Token → List Str
  | seen, t :: t' :: ts =>
    let name :=
      if t.kind = .ident ∧ toLower t.text ∈ [str "from", str "join", str "into", str "update"] then
        tableNameAt (t' :: ts)
      else []
    if name = [] ∨ toLower name ∈ seen then tablesLoop seen (t' :: ts)
    else name :: tablesLoop (toLower name :: seen) (t' :: ts)
  | _, _ => []

def extractTables (query : Str) : List Str := tablesLoop [] (tokenize query)

def Topology.isReferenceTable (t : Topology) (name : Str) : Bool := t.spec.referenceTables.any (equalFold · name)

def Topology.referenceOnly (t : Topology) (query : Str) : Bool :=
  let tables := extractTables query
  tables ≠ [] && tables.all t.isReferenceTable

/-! ### Routing -/

inductive RouteError
  | writeBlocked
  | noRoutingKey
  | crossShardInsert
  | noResolver
  | noExtractor
  | noShards
  | resolve (e : ResolveError)
  | backend (e : Str)
  deriving DecidableEq

def Topology.shard (t : Topology) (key : Str) : Except RouteError Str :=
  (resolveShard t.spec key).mapError .resolve

def Topology.anyShard (t : Topology) : Except RouteError Str :=
  match t.spec.ranges with
  | [] => .error .noShards
  | r :: _ => .ok r.shard

/-- `BackendResolver`: the address of a shard, or an error text. -/
abbrev BackendResolver := Str → Except Str Str

inductive Extractor
  | regex
  | parser
  | auto
  deriving DecidableEq

def Extractor.extract : Extractor → Str → Str → Option Str
  | .regex => regexExtract
  | .parser => parserExtract
  | .auto => autoExtract

structure RouteDecision where
  shard : Str := []
  backend : Str := []
  read : Bool := false
  scatter : Bool := false
  deriving DecidableEq

structure QueryRouter where
  topology : Topology
  extractor : Option Extractor
  write : Option BackendResolver
  read : Option BackendResolver

def decideShard (pick : BackendResolver) (read : Bool) (shard : Except RouteError Str) :
    RouteDecision × Option RouteError :=
  match shard with
  | .error e => ({}, some e)
  | .ok shard =>
    match pick shard with
    | .error e => ({}, some (.backend e))
    | .ok backend => ({ shard, backend, read }, none)

/-- The loop over the keys after the first one: all of them belong to `first`. -/
def allOn (t : Topology) (first : Str) : List Str → Except RouteError Str
  | [] => .ok first
  | k :: ks =>
    match t.shard k with
    | .error e => .error e
    | .ok s => if s ≠ first then .error .crossShardInsert else allOn t first ks

def rowsShard (t : Topology) (k : Str) (ks : List Str) : Except RouteError Str :=
  match t.shard k with
  | .error e => .error e
  | .ok first => allOn t first ks

def QueryRouter.route (qr : QueryRouter) (query : Str) : RouteDecision × Option RouteError :=
  let read := isReadOnlyQuery query
  if !read && qr.topology.spec.writeBlocked then ({}, some .writeBlocked)
  else
    match (if read then qr.read.or qr.write else qr.write) with
    | none => ({}, some .noResolver)
    | some pick =>
      if read && qr.topology.referenceOnly query then decideShard pick read qr.topology.anyShard
      else match qr.extractor with
        | none => ({}, some .noExtractor)
        | some ext =>
          let col := qr.topology.spec.vindex.column
          match matchInsertColumnAll query col with
          | some (k :: k' :: ks) => decideShard pick read (rowsShard qr.topology k (k' :: ks))
          | _ =>
            match ext.extract query col with
            | none => ({ read, scatter := true }, some .noRoutingKey)
            | some key => decideShard pick read (qr.topology.shard key)

/-! ### What a decision with a shard says -/

theorem allOn_eq_ok {t : Topology} {first s : Str} {ks : List Str} (h : allOn t first ks = .ok s) :
    s = first ∧ ∀ k ∈ ks, t.shard k = .ok first := by
  induction ks with
  | nil =>
    cases h
    simp
  | cons k ks ih =>
    unfold allOn at h
    split at h
    · cases h
    · rename_i s' hk
      split at h
      · cases h
      · rename_i hne
        rw [not_not] at hne
        subst hne
        obtain ⟨rfl, hks⟩ := ih h
        refine ⟨rfl, ?_⟩
        intro x hx
        rcases List.mem_cons.1 hx with rfl | hx
        · exact hk
        · exact hks x hx

/-- A multi-row insert is routed only if all its keys are on one shard. -/
theorem rowsShard_eq_ok {t : Topology} {s k : Str} {ks : List Str} (h : rowsShard t k ks = .ok s) :
    ∀ x ∈ k :: ks, t.shard x = .ok s := by
  unfold rowsShard at h
  split at h
  · cases h
  · rename_i first hk
    obtain ⟨rfl, hks⟩ := allOn_eq_ok h
    intro x hx
    rcases List.mem_cons.1 hx with rfl | hx
    · exact hk
    · exact hks x hx

theorem decideShard_none {pick : BackendResolver} {read : Bool} {shard : Except RouteError Str} {d : RouteDecision}
    (h : decideShard pick read shard = (d, none)) :
    shard = .ok d.shard ∧ pick d.shard = .ok d.backend ∧ d.read = read ∧ d.scatter = false := by
  unfold decideShard at h
  split at h
  · cases h
  · split at h
    · cases h
    · rename_i shard backend hp
      cases h
      exact ⟨rfl, hp, rfl, rfl⟩

/-- How a query got its shard: as a read of reference tables, by the keys of several rows, or by one key. -/
inductive ShardReason (qr : QueryRouter) (query shard : Str) : Prop
  | reference (hread : isReadOnlyQuery query) (href : qr.topology.referenceOnly query)
      (h : qr.topology.anyShard = .ok shard)
  | rows {k k' : Str} {ks : List Str}
      (hrows : matchInsertColumnAll query qr.topology.spec.vindex.column = some (k :: k' :: ks))
      (h : ∀ x ∈ k :: k' :: ks, qr.topology.shard x = .ok shard)
  | key {ext : Extractor} {key : Str} (hext : qr.extractor = some ext)
      (hrows : ∀ k k' ks, matchInsertColumnAll query qr.topology.spec.vindex.column ≠ some (k :: k' :: ks))
      (hkey : ext.extract query qr.topology.spec.vindex.column = some key) (h : qr.topology.shard key = .ok shard)

structure RoutedTo (qr : QueryRouter) (query : Str) (d : RouteDecision) : Prop where
  unblocked : isReadOnlyQuery query ∨ qr.topology.spec.writeBlocked = false
  backend : ∃ pick, (if isReadOnlyQuery query then qr.read.or qr.write else qr.write) = some pick ∧
    pick d.shard = .ok d.backend
  read : d.read = isReadOnlyQuery query
  scatter : d.scatter = false
  reason : ShardReason qr query d.shard

/-- What a routing decision without an error says. -/
theorem routedTo_of_route {qr : QueryRouter} {query : Str} {d : RouteDecision} (h : qr.route query = (d, none)) :
    RoutedTo qr query d := by
  unfold QueryRouter.route at h
  simp only at h
  split at h
  · cases h
  · rename_i hb
    have ho : isReadOnlyQuery query ∨ qr.topology.spec.writeBlocked = false := by
      cases hr : isReadOnlyQuery query with
      | true => exact .inl rfl
      | false => exact .inr (by simpa [hr] using hb)
    split at h
    · cases h
    · rename_i pick hp
      have hc : ∀ shard, decideShard pick (isReadOnlyQuery query) shard = (d, none) →
          (shard = .ok d.shard → ShardReason qr query d.shard) → RoutedTo qr query d := by
        intro shard hd hre
        obtain ⟨hs, hbc, hr, hsc⟩ := decideShard_none hd
        exact ⟨ho, ⟨pick, hp, hbc⟩, hr, hsc, hre hs⟩
      split at h
      · rename_i hf
        rw [Bool.and_eq_true] at hf
        exact hc _ h (.reference hf.1 hf.2)
      · split at h
        · cases h
        · rename_i ext he
          split at h
          · rename_i k k' ks hrw
            exact hc _ h fun hs => .rows hrw (rowsShard_eq_ok hs)
          · rename_i hrw
            split at h
            · cases h
            · rename_i key hkey
              exact hc _ h (.key he hrw hkey)

end PostgresOperator
