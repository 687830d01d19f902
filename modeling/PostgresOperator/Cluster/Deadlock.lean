import PostgresOperator.Cluster.Guard
import PostgresOperator.Cluster.Partition

/-!
# A shard whose members are all fenced

`Execute` takes the fence off the pod that it promotes, so that a shard whose members are all fenced can recover, and
the failback guard lets such a pod pass.  The aggregation of the status comes before both of them.  It calls every
fenced member not ready, whatever the pod reports, and the failover takes its candidate from the ready replicas only.
So once the claims are listed no candidate is ever found, and the way out that `Execute` and the guard leave open is
not reached (`deadlock_never_recovered`).
-/

namespace PostgresOperator.Cluster

open Go Aggregation List

variable {codec : Codec} {cluster : PostgresCluster}

theorem replicas_status (v : ShardView) (codec : Codec) (cluster : PostgresCluster) :
    (v.status codec cluster).replicas = (v.aggregation codec cluster).aggregateShardStatusMatching.replicas := by
  unfold ShardView.status
  cases v.kind with
  | ordinal ord ready =>
    dsimp only
    unfold withFallback
    split <;> rfl
  | named shardID => rfl

/-- The status of the shard leads to a candidate, and the guard lets it pass. -/
def Recovers (codec : Codec) (cluster : PostgresCluster) (v : ShardView) (reads : GuardReads) : Prop :=
  ∃ c, (clusterFailoverDecision cluster [v.status codec cluster]).2.failed ∧
    (clusterFailoverDecision cluster [v.status codec cluster]).2.promotionCandidate = some c ∧
    (shouldSkipFencedCandidate codec reads c.pod).1 = false

/-- A candidate is a ready replica of the status. -/
theorem candidate_ready {v : ShardView} {c : ShardEndpoint}
    (hfa : (clusterFailoverDecision cluster [v.status codec cluster]).2.failed)
    (hc : (clusterFailoverDecision cluster [v.status codec cluster]).2.promotionCandidate = some c) :
    c ∈ (v.aggregation codec cluster).aggregateShardStatusMatching.replicas ∧ c.ready := by
  obtain ⟨shard, hf, hdc⟩ := firstDown_of_failed hfa
  have hd := down_of_firstDown hf
  obtain rfl : shard = v.status codec cluster := by simpa using mem_of_find?_eq_some hf
  rw [hdc, detectPrimaryFailure_candidate hd] at hc
  have hb := selectPromotionCandidate_best hc
  rw [← replicas_status]
  exact ⟨hb.1, hb.2.1⟩

/-- A shard whose members are all fenced never leads to a candidate that is not skipped, whichever of its pods are
ready, whatever they report and whatever the guard reads. -/
theorem deadlock_never_recovered (codec : Codec) (cluster : PostgresCluster) (v : ShardView) (reads : GuardReads)
    (claims : ClaimList) (hview : v.pvcs = some claims.items)
    (hfenced : ∀ pod ∈ (v.aggregation codec cluster).members,
      ∃ pvc ∈ claims.items, pvc.name = dataPvc pod.name ∧ pvc.fenced) : ¬ Recovers codec cluster v reads := by
  rintro ⟨c, hfa, hc, -⟩
  obtain ⟨hm, hr⟩ := candidate_ready hfa hc
  obtain ⟨pod, hp, -, hs, rfl⟩ := (mem_replicas _).1 hm
  obtain ⟨pvc, hpc, hn, hpf⟩ := hfenced pod hp
  have hpo : (v.aggregation codec cluster).podFenced pod := by
    refine any_eq_true.2 ⟨pvc, ?_, ?_⟩
    · change pvc ∈ v.pvcs.getD []
      rwa [hview]
    · simp only [PersistentVolumeClaim.fenced] at hpf
      simp [hpf, hn, dataPvc]
  rw [listed_ready_of_fenced hpo hs] at hr
  cases hr

def standbyPod (name : String) (h : str name ≠ [] := by decide +kernel) : Pod where
  name := str name
  labels key := if key = shardIDLabelKey then "shard-0" else []
  annotations key := if key = annotationKey then some "standby" else none
  name_ne := h

def standbyCodec : Codec where
  unmarshalStatus raw := if raw = "standby" then some { role := .replica, ready := true, walLsnBytes := -1 } else none
  parseTime _ := none
  formatTime _ := []

def fencedShard (pvcs : Option (List PersistentVolumeClaim)) (readyReplicas : Option Int) : ShardView where
  kind := .ordinal 0 readyReplicas
  pods := some ⟨[standbyPod "demo-shard-0-0" firstPod_ne, standbyPod "demo-shard-0-1" secondPod_ne],
    by decide +kernel⟩
  pvcs
  now := 0

def fencedClaims : ClaimList := ⟨[fencedClaim "demo-shard-0-0", fencedClaim "demo-shard-0-1"], by decide +kernel⟩

def fencedReads : GuardReads where
  list := .ok fencedClaims.items
  get name :=
    if name = "demo-shard-0-0" then .ok (standbyPod "demo-shard-0-0" firstPod_ne)
    else .ok (standbyPod "demo-shard-0-1" secondPod_ne)

/-- Two members that report to be ready standbys, both fenced. -/
theorem deadlock_never_recovered_demo :
    ¬ Recovers standbyCodec demoCluster (fencedShard (some fencedClaims.items) none) fencedReads := by
  have hm : ((fencedShard (some fencedClaims.items) none).aggregation standbyCodec demoCluster).members =
      [standbyPod "demo-shard-0-0", standbyPod "demo-shard-0-1"] := by rfl
  refine deadlock_never_recovered standbyCodec demoCluster _ fencedReads fencedClaims rfl ?_
  intro pod hp
  rw [hm] at hp
  rcases mem_cons.1 hp with rfl | hp
  · exact ⟨fencedClaim "demo-shard-0-0", by simp [fencedClaims], rfl, by decide +kernel⟩
  · rw [mem_singleton.1 hp]
    exact ⟨fencedClaim "demo-shard-0-1", by simp [fencedClaims], rfl, by decide +kernel⟩

/-- With an answer to the list of claims there is no candidate: either no member is ready, or the fallback calls the
primary ready. -/
theorem deadlock_not_recovered : (clusterFailoverDecision demoCluster
      [(fencedShard (some fencedClaims.items) none).status standbyCodec demoCluster]).2.promotionCandidate = none ∧
    (clusterFailoverDecision demoCluster
      [(fencedShard (some fencedClaims.items) (some 2)).status standbyCodec demoCluster]).2.failed = false := by
  decide +kernel

end PostgresOperator.Cluster
