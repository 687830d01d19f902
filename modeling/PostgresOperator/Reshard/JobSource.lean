import PostgresOperator.Backup.Reconcile
import PostgresOperator.Go.Decimal
import PostgresOperator.Reshard.Reconcile

/-!
# The member that the Jobs work on

The Jobs that move rows connect to the member `-0` of the source shard, and the Job of a restore mounts the volume of
the member `-0`.  After a failover the primary may be another member; the names are those of the primary only as long
as it is the first member.
-/

namespace PostgresOperator

open Go Calls

def memberPodName (cluster : Str) (ordinal : Int) (m : Nat) : Str :=
  shardStatefulSetName cluster ordinal ++ "-" ++ itoaNat m

def sourceOrdinal (shardID : Str) : Option Int := (shardOrdinalText shardID).bind fun text => parseInt text 10 32

def podDSN (cluster ns : Str) (ordinal : Int) (pod : Str) : Str :=
  internalShardDSN (pod ++ "." ++ shardServiceName cluster ordinal ++ "." ++ ns ++ ".svc.cluster.local")

def ReadsFrom (cluster ns : Str) (ordinal : Int) (pod : Str) (job : BatchJob) : Prop :=
  job.env.lookup (str "PGROUTER_SOURCE_DSN") = some (podDSN cluster ns ordinal pod)

/-- Every Job that is made for the shard works on the pod: the Jobs of all modes of a `ShardSplitJob` with the shard
as its source, and the Job of an offline restore. -/
structure JobsActOn (cluster : Cluster.PostgresCluster) (ordinal : Int) (pod : Str) : Prop where
  reshard : ∀ (op : Operator) (ssj : ShardSplitJob) (mode : ReshardMode) (source : Str) (rest : List Str),
    op.ns = cluster.ns → ssj.spec.cluster = cluster.name → ssj.spec.sources = source :: rest →
      sourceOrdinal source = some ordinal →
    (reconcileModeJobs op ssj mode).Only fun r => ∀ name job, r = Req.createJob name job →
      ReadsFrom cluster.name cluster.ns ordinal pod job
  restore : ∀ (bj : Backup.BackupJob) (sts : Backup.StatefulSet) (name : Str) (command : List Str) (job : Backup.Job),
    sts.name = shardStatefulSetName cluster.name ordinal →
      Backup.buildSidecarRestoreJob bj sts name command = .ok job →
    job.claimName = some ("data-" ++ pod)

theorem only_modeJobsLoop {op : Operator} {ssj : ShardSplitJob} {mode : ReshardMode} {vindex : KeyspaceVindex}
    {srcDNS : Str} (ts : List ShardSplitTarget) (allDone : Bool) :
    (modeJobsLoop op ssj mode vindex srcDNS ts allDone).Only fun r => ∀ name job, r = Req.createJob name job →
      job.env.lookup (str "PGROUTER_SOURCE_DSN") = some (internalShardDSN srcDNS) := by
  induction ts generalizing allDone with
  | nil =>
    cases allDone with
    | false => trivial
    | true => exact Prog.Only.request (fun _ _ h => (nomatch h)) fun _ => trivial
  | cons t ts ih =>
    refine .request (fun _ _ h => (nomatch h)) ?_
    rintro (e | none | job)
    · trivial
    · refine .request ?_ ?_
      · rintro name job ⟨⟩
        rfl
      · rintro (e | ⟨⟩)
        · trivial
        · exact ih false
    · show Prog.Only _ (ite _ _ _)
      split
      · exact ih allDone
      split
      · trivial
      · exact ih false

/-- The address of the source has the member number 0 in it, whoever is primary. -/
theorem sourceShardPodDNS_eq (cluster ns : Str) {source : Str} {ordinal : Int}
    (h : sourceOrdinal source = some ordinal) :
    sourceShardPodDNS cluster ns source = some
      (memberPodName cluster ordinal 0 ++ "." ++ shardServiceName cluster ordinal ++
      "." ++ ns ++ ".svc.cluster.local") := by
  obtain ⟨text, ht, hp⟩ := Option.bind_eq_some_iff.1 h
  have hz : "-0" = "-" ++ itoaNat 0 := by decide
  simp [sourceShardPodDNS, ht, hp, memberPodName, hz]

theorem jobsActOn_first (cluster : Cluster.PostgresCluster) (ordinal : Int) :
    JobsActOn cluster ordinal (memberPodName cluster.name ordinal 0) where
  reshard := by
    intro op ssj mode source rest hns hc hs ho
    have hd := sourceShardPodDNS_eq cluster.name cluster.ns ho
    unfold reconcileModeJobs
    rw [hs]
    refine Prog.Only.bind ?_ ?_
    · refine .request (fun _ _ h => (nomatch h)) ?_
      rintro (e | ranges)
      · trivial
      · dsimp only
        split <;> trivial
    · rintro (e | vindex)
      · trivial
      · dsimp only
        rw [hc, hns, hd]
        exact only_modeJobsLoop _ _
  restore := by
    intro bj sts name command job hsts hb
    unfold Backup.buildSidecarRestoreJob at hb
    split at hb
    · cases hb
    · cases hb
      have hz : itoa 0 = itoaNat 0 := rfl
      simp [Backup.statefulSetDataPVCName, memberPodName, hsts, hz]

private def restoreDemo : Backup.BackupJob :=
  { ns := "default", name := "pitr", spec := { cluster := "demo", tool := "pgbackrest", type := .restore } }

private def demoStatefulSet (cluster : Cluster.PostgresCluster) (ordinal : Int) : Backup.StatefulSet :=
  ⟨shardStatefulSetName cluster.name ordinal, some 0, [⟨"postgres", "pg"⟩]⟩

/-- The Jobs of every shard work on its Ready primary, whichever member that is. -/
def JobsActOnPrimaries (cluster : Cluster.PostgresCluster) : Prop :=
  ∀ shard ∈ cluster.shards, ∀ p m, shard.primary = some p → p.ready →
    p.pod = memberPodName cluster.name shard.ordinal m → JobsActOn cluster shard.ordinal p.pod

/-- The Jobs work on the primaries exactly if every Ready primary is the first member of its shard. -/
theorem jobsActOnPrimaries_iff (cluster : Cluster.PostgresCluster) : JobsActOnPrimaries cluster ↔
    ∀ shard ∈ cluster.shards, ∀ p m, shard.primary = some p → p.ready →
      p.pod = memberPodName cluster.name shard.ordinal m → m = 0 := by
  constructor
  · intro h shard hs p m hpr hr hp
    have ha := h shard hs p m hpr hr hp
    have hf := (jobsActOn_first cluster shard.ordinal).restore restoreDemo
      (demoStatefulSet cluster shard.ordinal) [] [] _ rfl rfl
    have hrs := ha.restore restoreDemo (demoStatefulSet cluster shard.ordinal) [] [] _ rfl rfl
    have hn := Option.some.inj (hrs.symm.trans hf)
    rw [hp, List.append_cancel_left_eq, memberPodName, memberPodName, List.append_cancel_left_eq] at hn
    exact itoaNat_injective hn
  · intro h shard hs p m hpr hr hp
    obtain rfl := h shard hs p m hpr hr hp
    rw [hp]
    exact jobsActOn_first cluster shard.ordinal

def failedOver : Cluster.PostgresCluster where
  ns := "ns"
  name := "demo"
  shards := [{ name := "shard-0", ordinal := 0, primary := some { pod := "demo-shard-0-1", ready := true } }]
  ns_noSlash := by decide

def splitDemo : ShardSplitJob where
  uid := 1
  spec :=
    { cluster := "demo"
      keyspace := "k"
      sources := ["shard-0"]
      targets := [{ shardID := "a", ranges := [] }] }

def splitRange : ShardRangeSpec := { cluster := "demo", keyspace := "k", vindex := { type := .hash }, ranges := [] }

/-- The Jobs of every mode read from another member than the primary, and a restore would be done on the volume of the
member that was the primary before. -/
theorem jobs_act_on_former_primary : ¬ JobsActOnPrimaries failedOver ∧
    (∀ mode, ¬ (reconcileModeJobs demoOperator splitDemo mode).Only fun r => ∀ name job, r = Req.createJob name job →
      ReadsFrom "demo" "ns" 0 "demo-shard-0-1" job) ∧
    ∃ job, Backup.buildSidecarRestoreJob restoreDemo (demoStatefulSet failedOver 0) [] [] = .ok job ∧
      job.claimName = some (str "data-demo-shard-0-0") := by
  refine ⟨?_, ?_, _, rfl, by decide⟩
  · rw [jobsActOnPrimaries_iff]
    intro h
    exact absurd (h _ List.mem_cons_self _ 1 rfl rfl (by decide)) (by decide)
  · intro mode h
    -- the keyspace is found and there is no Job yet
    have hc := ((h.2 (.ok [⟨[], { spec := splitRange, resourceVersion := 0 }⟩])).2 (.ok none)).1 _ _ rfl
    revert hc
    unfold ReadsFrom
    cases mode <;> decide +kernel

end PostgresOperator
