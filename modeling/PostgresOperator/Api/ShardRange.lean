import PostgresOperator.Go.Strings

/-!
# The `ShardRange` resource

The part of `api/v1alpha1/shardrange_types.go` that the router and the resharding controller read.  A string type with
an enumeration marker has one constructor for every value of the enumeration and one for any other string, since the
Go code has a `default` branch for these.
-/

namespace PostgresOperator

open Go

def vindexTypeNames : List Str := ["hash", "range", "consistent-hash", "lookup"]

inductive VindexType
  | hash
  | range
  | consistentHash
  | lookup
  | other (name : Str) (h : name ∉ vindexTypeNames)
  deriving DecidableEq

def VindexType.toGo : VindexType → Str
  | .hash => "hash"
  | .range => "range"
  | .consistentHash => "consistent-hash"
  | .lookup => "lookup"
  | .other s _ => s

def VindexType.ofGo (s : Str) : VindexType :=
  if h : s ∈ vindexTypeNames then
    if s = "hash" then .hash
    else if s = "range" then .range
    else if s = "consistent-hash" then .consistentHash
    else .lookup
  else .other s h

@[simp] theorem VindexType.ofGo_toGo (t : VindexType) : VindexType.ofGo t.toGo = t := by
  cases t with
  | hash => decide
  | range => decide
  | consistentHash => decide
  | lookup => decide
  | other s h => simp [toGo, ofGo, h]

def vindexHashFunctionNames : List Str := ["murmur3", "fnv", "crc32"]

theorem nil_not_mem_vindexHashFunctionNames : [] ∉ vindexHashFunctionNames := by decide

inductive VindexHashFunction
  | murmur3
  | fnv
  | crc32
  | other (name : Str) (h : name ∉ vindexHashFunctionNames)
  deriving DecidableEq

def VindexHashFunction.toGo : VindexHashFunction → Str
  | .murmur3 => "murmur3"
  | .fnv => "fnv"
  | .crc32 => "crc32"
  | .other s _ => s

def VindexHashFunction.ofGo (s : Str) : VindexHashFunction :=
  if h : s ∈ vindexHashFunctionNames then
    if s = "murmur3" then .murmur3
    else if s = "fnv" then .fnv
    else .crc32
  else .other s h

@[simp] theorem VindexHashFunction.ofGo_toGo (f : VindexHashFunction) : VindexHashFunction.ofGo f.toGo = f := by
  cases f with
  | murmur3 => decide
  | fnv => decide
  | crc32 => decide
  | other s h => simp [toGo, ofGo, h]

/-- `VindexSpec`, without the reference of a lookup vindex, which no router function reads. -/
structure VindexSpec where
  type : VindexType
  column : Str := []
  function : VindexHashFunction := .other [] nil_not_mem_vindexHashFunctionNames
  virtualNodes : Int := 0
  deriving DecidableEq

/-- `ShardRangeEntry`: the keys from `lo` to `hi`, both included, belong to `shard`. -/
structure ShardRangeEntry where
  lo : Str
  hi : Str
  shard : Str
  deriving DecidableEq, Repr

structure ShardRangeSpec where
  cluster : Str := []
  keyspace : Str := []
  vindex : VindexSpec
  ranges : List ShardRangeEntry
  referenceTables : List Str := []
  writeBlocked : Bool := false
  deriving DecidableEq

end PostgresOperator
