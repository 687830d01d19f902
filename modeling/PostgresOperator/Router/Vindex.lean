import PostgresOperator.Go.Strconv
import PostgresOperator.Router.Hash
import Mathlib.Data.List.Sort

/-!
# Key to shard

`ResolveShard` of `internal/router/vindex.go` and the consistent-hash ring of `internal/router/vindex_consistent.go`.
For the hash and the range vindex the entries are tried in order and the first one that contains the key decides; an
entry whose bound cannot be read ends the search with an error.
-/

namespace PostgresOperator

open Go List

/-- The errors of `ResolveShard`.  The first two wrap `ErrVindexUnsupported`, the next two `ErrVindexNoMatch`. -/
inductive ResolveError
  | unsupportedType (type : VindexType)
  | unsupportedFunction (fn : VindexHashFunction)
  | noMatch (hash : Option UInt32) (key : Str)
  | noShards
  | invalidBound (entry : ShardRangeEntry) (bound : Str)
  deriving DecidableEq

/-- `parseHashBound`: hexadecimal with a prefix or decimal, else bare hexadecimal, in 32 bits. -/
def parseHashBound (s : Str) : Option UInt32 :=
  match parseUint s 0 32 with
  | some v => some (UInt32.ofNat v)
  | none => (parseUint s 16 32).map UInt32.ofNat

/-! ### First match over the entries -/

/-- Whether an entry of a hash vindex contains the hash value `h`. -/
def hashContains (h : UInt32) (r : ShardRangeEntry) : Except ResolveError Bool :=
  match parseHashBound r.lo with
  | none => .error (.invalidBound r r.lo)
  | some lo =>
    match parseHashBound r.hi with
    | none => .error (.invalidBound r r.hi)
    | some hi => .ok (decide (lo ≤ h ∧ h ≤ hi))

variable (key : Str) (spec : ShardRangeSpec)

def rangeContains (r : ShardRangeEntry) : Except ResolveError Bool :=
  .ok (decide (r.lo ≤ key ∧ key ≤ r.hi))

def firstMatch (contains : ShardRangeEntry → Except ResolveError Bool) :
    List ShardRangeEntry → Except ResolveError (Option Str)
  | [] => .ok none
  | r :: rs => match contains r with
    | .error e => .error e
    | .ok true => .ok (some r.shard)
    | .ok false => firstMatch contains rs

/-- A range list sends a key to the shard of `e`: every entry before `e` was read and does not contain the key, and
`e` contains it. -/
def FirstMeets (contains : ShardRangeEntry → Except ResolveError Bool) (rs : List ShardRangeEntry)
    (e : ShardRangeEntry) : Prop :=
  ∃ pre post, rs = pre ++ e :: post ∧ (∀ r ∈ pre, contains r = .ok false) ∧ contains e = .ok true

variable {contains : ShardRangeEntry → Except ResolveError Bool}

theorem firstMatch_append {pre : List ShardRangeEntry} (h : ∀ r ∈ pre, contains r = .ok false)
    (rs : List ShardRangeEntry) :
    firstMatch contains (pre ++ rs) = firstMatch contains rs := by
  induction pre with
  | nil => rfl
  | cons r pre ih =>
    rw [cons_append, firstMatch, h r (by simp)]
    exact ih fun x hx => h x (by simp [hx])

/-- The search returns the first entry that contains the key, and errors before it are not passed over. -/
theorem firstMatch_eq_some_iff {rs : List ShardRangeEntry} {s : Str} :
    firstMatch contains rs = .ok (some s) ↔ ∃ e, FirstMeets contains rs e ∧ e.shard = s := by
  constructor
  · intro h
    induction rs with
    | nil => simp [firstMatch] at h
    | cons r rs ih =>
      cases hr : contains r with
      | error e => simp [firstMatch, hr] at h
      | ok b =>
        cases b with
        | true =>
          simp only [firstMatch, hr, Except.ok.injEq, Option.some.injEq] at h
          exact ⟨r, ⟨[], rs, rfl, by simp, hr⟩, h⟩
        | false =>
          simp only [firstMatch, hr] at h
          obtain ⟨e, ⟨pre, post, rfl, hp, he⟩, hs⟩ := ih h
          refine ⟨e, ⟨r :: pre, post, rfl, ?_, he⟩, hs⟩
          intro x hx
          rcases mem_cons.1 hx with rfl | hx
          · exact hr
          · exact hp x hx
  · rintro ⟨e, ⟨pre, post, rfl, hp, he⟩, rfl⟩
    rw [firstMatch_append hp, firstMatch, he]

theorem firstMeets_append {as bs : List ShardRangeEntry} {e : ShardRangeEntry} : FirstMeets contains (as ++ bs) e ↔
      FirstMeets contains as e ∨ (∀ r ∈ as, contains r = .ok false) ∧ FirstMeets contains bs e := by
  constructor
  · rintro ⟨pre, post, heq, hp, he⟩
    rcases append_eq_append_iff.1 heq with ⟨mid, rfl, rfl⟩ | ⟨mid, rfl, hm⟩
    · right
      exact ⟨fun r hr => hp r (by simp [hr]), mid, post, rfl, fun r hr => hp r (by simp [hr]), he⟩
    · cases mid with
      | nil =>
        right
        rw [append_nil] at *
        exact ⟨hp, [], post, hm.symm, by simp, he⟩
      | cons x mid =>
        left
        simp only [cons_append, List.cons.injEq] at hm
        obtain ⟨rfl, rfl⟩ := hm
        exact ⟨pre, mid, rfl, hp, he⟩
  · rintro (⟨pre, post, rfl, hp, he⟩ | ⟨has, pre, post, rfl, hp, he⟩)
    · exact ⟨pre, post ++ bs, by simp, hp, he⟩
    · refine ⟨as ++ pre, post, by simp, ?_, he⟩
      intro r hr
      rcases mem_append.1 hr with hr | hr
      · exact has r hr
      · exact hp r hr

def resolveHash (key : Str) : Except ResolveError Str :=
  match hashKey spec.vindex.function key with
  | none => .error (.unsupportedFunction spec.vindex.function)
  | some h => match firstMatch (hashContains h) spec.ranges with
    | .error e => .error e
    | .ok none => .error (.noMatch (some h) key)
    | .ok (some s) => .ok s

def resolveRange (key : Str) : Except ResolveError Str :=
  match firstMatch (rangeContains key) spec.ranges with
  | .error e => .error e
  | .ok none => .error (.noMatch none key)
  | .ok (some s) => .ok s

/-! ### The consistent-hash ring -/

def defaultVirtualNodes : Nat := 128

structure ChPoint where
  hash : UInt32
  shard : Str
  deriving DecidableEq

/-- The comparison that `NewConsistentHashRing` sorts by, read as "not after". -/
def ChPoint.le (p q : ChPoint) : Prop := p.hash < q.hash ∨ p.hash = q.hash ∧ p.shard ≤ q.shard

instance : DecidableRel ChPoint.le := fun p q => by unfold ChPoint.le; infer_instance

structure ConsistentHashRing where
  points : List ChPoint
  deriving DecidableEq

def distinctShards : List Str → List ShardRangeEntry → List Str
  | _, [] => []
  | seen, r :: rs =>
    if r.shard ≠ [] ∧ r.shard ∉ seen then r.shard :: distinctShards (r.shard :: seen) rs
    else distinctShards seen rs

def vnodes (v : VindexSpec) : Nat := if v.virtualNodes ≤ 0 then defaultVirtualNodes else v.virtualNodes.toNat

def ringPoints (hash : Str → UInt32) (n : Nat) (shards : List Str) : List ChPoint :=
  shards.flatMap fun s => (range n).map fun v => ⟨hash (s ++ byte ':' :: itoaNat v), s⟩

def newConsistentHashRing : Except ResolveError ConsistentHashRing :=
  match distinctShards [] spec.ranges with
  | [] => .error .noShards
  | shards => match spec.vindex.function with
    | .other s h => .error (.unsupportedFunction (.other s h))
    | fn => .ok ⟨(ringPoints (fun s => (hashKey fn s).getD 0) (vnodes spec.vindex) shards).insertionSort ChPoint.le⟩

/-- `sort.Search` over the points: the first point at or after `h`. -/
def ringSearch (h : UInt32) (points : List ChPoint) : Option ChPoint := points.find? fun p => decide (h ≤ p.hash)

/-- `Lookup`: the first virtual node clockwise from `h`, the first one of the ring after the last. -/
def ConsistentHashRing.lookup (r : ConsistentHashRing) (h : UInt32) : Str :=
  match ringSearch h r.points with
  | some p => p.shard
  | none => match r.points with
    | p :: _ => p.shard
    | [] => []

abbrev RingCache := List (Str × ConsistentHashRing)

def ringFingerprint : Str :=
  spec.vindex.function.toGo ++ byte '|' :: itoa spec.vindex.virtualNodes ++ byte '|' ::
    join (byte ',') ((distinctShards [] spec.ranges).insertionSort (· ≤ ·))

/-- `resolveConsistentHash` in a process with the ring cache `cache`; the second part is the cache it leaves. -/
def resolveConsistentHash (cache : RingCache) (spec : ShardRangeSpec) (key : Str) :
    Except ResolveError Str × RingCache :=
  let finish (ring : ConsistentHashRing) (cache : RingCache) : Except ResolveError Str × RingCache :=
    match hashKey spec.vindex.function key with
    | none => (.error (.unsupportedFunction spec.vindex.function), cache)
    | some h => (.ok (ring.lookup h), cache)
  match cache.lookup (ringFingerprint spec) with
  | some ring => finish ring cache
  | none => match newConsistentHashRing spec with
    | .error e => (.error e, cache)
    | .ok ring => finish ring ((ringFingerprint spec, ring) :: cache)

/-! ### `ResolveShard` -/

def resolveShardIn (cache : RingCache) (spec : ShardRangeSpec) (key : Str) :
    Except ResolveError Str × RingCache :=
  match spec.vindex.type with
  | .hash => (resolveHash spec key, cache)
  | .range => (resolveRange spec key, cache)
  | .consistentHash => resolveConsistentHash cache spec key
  | .lookup => (.error (.unsupportedType .lookup), cache)
  | .other s h => (.error (.unsupportedType (.other s h)), cache)

def resolveShard (key : Str) : Except ResolveError Str :=
  (resolveShardIn [] spec key).1

def entryContains (v : VindexSpec) (key : Str) (r : ShardRangeEntry) : Except ResolveError Bool :=
  match v.type with
  | .hash => match hashKey v.function key with
    | none => .error (.unsupportedFunction v.function)
    | some h => hashContains h r
  | .range => rangeContains key r
  | t => .error (.unsupportedType t)

def VindexType.IsInterval (t : VindexType) : Prop := t = .hash ∨ t = .range

theorem resolveShard_eq_ok_iff {spec : ShardRangeSpec} (hv : spec.vindex.type.IsInterval) {key s : Str} :
    resolveShard spec key = .ok s ↔ ∃ e, FirstMeets (entryContains spec.vindex key) spec.ranges e ∧ e.shard = s := by
  rw [← firstMatch_eq_some_iff]
  rcases hv with hv | hv
  · simp only [resolveShard, resolveShardIn, hv, resolveHash]
    cases hk : hashKey spec.vindex.function key with
    | none => cases hr : spec.ranges <;> simp [firstMatch, entryContains, hv, hk]
    | some h =>
      have hc : entryContains spec.vindex key = hashContains h := by
        funext r
        simp [entryContains, hv, hk]
      rw [hc]
      rcases hf : firstMatch (hashContains h) spec.ranges with e | _ | s' <;> simp [hf]
  · have hc : entryContains spec.vindex key = rangeContains key := by
      funext r
      simp [entryContains, hv]
    simp only [resolveShard, resolveShardIn, hv, resolveRange, hc]
    rcases hf : firstMatch (rangeContains key) spec.ranges with e | _ | s' <;> simp

end PostgresOperator
