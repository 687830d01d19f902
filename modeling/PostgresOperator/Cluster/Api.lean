import PostgresOperator.Go.Strings

/-!
# Clusters and their shards

`PostgresCluster` as far as its controller reads it for failover and for the repair of members: the last status it
wrote, and what it reports of every shard.  Points in time and durations are in nanoseconds.
-/

namespace PostgresOperator.Cluster

open Go

def second : Int := 1000000000

def minute : Int := 60 * second

structure ShardEndpoint where
  pod : Str
  endpoint : Str := []
  ready : Bool := false
  lagBytes : Int := 0
  reason : Str := []
  message : Str := []
  deriving DecidableEq

structure ShardStatus where
  name : Str
  ordinal : Int
  primary : Option ShardEndpoint := none
  replicas : List ShardEndpoint := []
  sizeBytes : Int := 0
  deriving DecidableEq

inductive ClusterPhase
  | provisioning
  | ready
  | degraded
  | hibernated
  deriving DecidableEq

/-- `PostgresCluster`; `ns` is its namespace, `replica` is `spec.replica.enabled` if `spec.replica` is there, `phase`
and `shards` are those of the last status.  The name of a namespace is a DNS label. -/
structure PostgresCluster where
  ns : Str
  name : Str
  replica : Option Bool := none
  phase : ClusterPhase := .provisioning
  shards : List ShardStatus := []
  annotations : Str → Option Str := fun _ => none
  ns_noSlash : byte '/' ∉ ns

def standaloneReplicaEnabled (cluster : PostgresCluster) : Bool := cluster.replica = some true

def ShardStatus.Down (shard : ShardStatus) : Prop := ∀ p, shard.primary = some p → p.ready = false

instance (shard : ShardStatus) : Decidable shard.Down :=
  match h : shard.primary with
  | none => isTrue fun p hp => by rw [h] at hp; cases hp
  | some p =>
    decidable_of_iff (p.ready = false) ⟨fun hr q hq => by rw [h] at hq; cases hq; exact hr, fun hd => hd p h⟩

def ShardStatus.Promotable (shard : ShardStatus) : Prop := shard.Down ∧ ∃ r ∈ shard.replicas, r.ready

instance (shard : ShardStatus) : Decidable shard.Promotable := inferInstanceAs (Decidable (_ ∧ _))

theorem default_noSlash : byte '/' ∉ str "default" := by decide +kernel

theorem firstPod_ne : str "demo-shard-0-0" ≠ [] := by decide +kernel

theorem secondPod_ne : str "demo-shard-0-1" ≠ [] := by decide +kernel

def demoCluster : PostgresCluster where
  ns := "default"
  name := "demo"
  phase := .ready
  ns_noSlash := default_noSlash

end PostgresOperator.Cluster
