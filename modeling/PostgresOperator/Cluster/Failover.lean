import Mathlib.Data.Prod.Lex
import PostgresOperator.Cluster.Api

/-!
# The decision to fail over

`failover/detection.go`, which finds a shard without a ready primary and the replica to promote, and the part of
`Reconcile` that looks for the first such shard of a cluster and promotes only after a failure has lasted for a while
(`shouldPromoteAfterDebounce`).
-/

namespace PostgresOperator.Cluster

open Go List Option

/-! ### One shard -/

inductive FailureReason
  | none
  | noPrimary
  | primaryNotReady
  | noEligibleReplica
  deriving DecidableEq

inductive FailureMessage
  | none
  /-- shard %q has no primary endpoint reported (instance manager heartbeat absent) -/
  | noPrimary (shard : Str)
  /-- shard %q primary pod %q readiness=false -/
  | notReady (shard pod : Str)
  /-- The message before it, and: no eligible replica for promotion (manual intervention required) -/
  | manual (m : FailureMessage)
  deriving DecidableEq

structure Decision where
  failed : Bool := false
  reason : FailureReason := .none
  message : FailureMessage := .none
  promotionCandidate : Option ShardEndpoint := none
  deriving DecidableEq

/-- The loop of `SelectPromotionCandidate`. -/
def selectLoop : Option ShardEndpoint → List ShardEndpoint → Option ShardEndpoint
  | best, [] => best
  | best, r :: rs =>
    if !r.ready then selectLoop best rs
    else match best with
      | none => selectLoop (some r) rs
      | some b =>
        if r.lagBytes < b.lagBytes then selectLoop (some r) rs
        else if r.lagBytes = b.lagBytes ∧ r.pod < b.pod then selectLoop (some r) rs
        else selectLoop (some b) rs

variable (replicas : List ShardEndpoint) (shards : List ShardStatus) (o : Observation)

def selectPromotionCandidate : Option ShardEndpoint := selectLoop none replicas

def failedDecision (reason : FailureReason) (message : FailureMessage) : Decision :=
  match selectPromotionCandidate replicas with
  | none => { failed := true, reason := .noEligibleReplica, message := .manual message }
  | some c => { failed := true, reason, message, promotionCandidate := some c }

def detectPrimaryFailure (shard : ShardStatus) : Decision :=
  match shard.primary with
  | some p =>
    if p.ready then {} else failedDecision shard.replicas .primaryNotReady (.notReady shard.name p.pod)
  | none => failedDecision shard.replicas .noPrimary (.noPrimary shard.name)

def ShardEndpoint.rank (r : ShardEndpoint) : Int ×ₗ Str := toLex (r.lagBytes, r.pod)

/-- `c` is a ready replica of the lowest rank. -/
def BestReplica (c : ShardEndpoint) : Prop :=
  c ∈ replicas ∧ c.ready ∧ ∀ r ∈ replicas, r.ready → c.rank ≤ r.rank

/-- The loop returns the best of what it has seen. -/
theorem selectLoop_spec (best : Option ShardEndpoint) (rs : List ShardEndpoint) :
    (selectLoop best rs = none ↔ best = none ∧ ∀ r ∈ rs, r.ready = false) ∧
      ∀ c, selectLoop best rs = some c → (best = some c ∨ c ∈ rs ∧ c.ready) ∧
        (∀ b, best = some b → c.rank ≤ b.rank) ∧ ∀ r ∈ rs, r.ready → c.rank ≤ r.rank := by
  induction rs generalizing best with
  | nil =>
    refine ⟨by simp [selectLoop], ?_⟩
    intro c hc
    have hbs : best = some c := hc
    subst hbs
    exact ⟨.inl rfl, by rintro b ⟨⟩; exact le_rfl, by simp⟩
  | cons r rs ih =>
    unfold selectLoop
    cases hr : r.ready with
    | false =>
      obtain ⟨hn, hsm⟩ := ih best
      simp only [Bool.not_false, if_true]
      refine ⟨?_, ?_⟩
      · simp [hn, hr]
      · intro c hc
        obtain ⟨hf, hbs, hrs⟩ := hsm c hc
        refine ⟨?_, hbs, ?_⟩
        · rcases hf with h | h
          · exact .inl h
          · exact .inr ⟨mem_cons_of_mem _ h.1, h.2⟩
        · intro x hx hrd
          rcases mem_cons.1 hx with rfl | hx
          · rw [hr] at hrd
            cases hrd
          · exact hrs x hx hrd
    | true =>
      -- the new best is at most the old one and at most `r`
      have hs : ∀ b, (b = r ∨ best = some b) → (∀ b', best = some b' → b.rank ≤ b'.rank) → b.rank ≤ r.rank →
          (selectLoop (some b) rs = none ↔ best = none ∧ ∀ x ∈ r :: rs, x.ready = false) ∧
            ∀ c, selectLoop (some b) rs = some c → (best = some c ∨ c ∈ r :: rs ∧ c.ready) ∧
              (∀ b', best = some b' → c.rank ≤ b'.rank) ∧ ∀ x ∈ r :: rs, x.ready → c.rank ≤ x.rank := by
        intro b hb hle hlr
        obtain ⟨hn, hsm⟩ := ih (some b)
        refine ⟨?_, ?_⟩
        · refine iff_of_false (fun h => by simpa using hn.1 h) ?_
          rintro ⟨-, ha⟩
          rw [ha r (mem_cons_self ..)] at hr
          cases hr
        · intro c hc
          obtain ⟨hf, hbs, hrs⟩ := hsm c hc
          have hcb := hbs b rfl
          refine ⟨?_, fun b' hb' => hcb.trans (hle b' hb'), ?_⟩
          · rcases hf with h | h
            · cases h
              rcases hb with rfl | hb
              · exact .inr ⟨mem_cons_self .., hr⟩
              · exact .inl hb
            · exact .inr ⟨mem_cons_of_mem _ h.1, h.2⟩
          · intro x hx hrd
            rcases mem_cons.1 hx with rfl | hx
            · exact hcb.trans hlr
            · exact hrs x hx hrd
      simp only [Bool.not_true, Bool.false_eq_true, if_false]
      cases best with
      | none => exact hs r (.inl rfl) (by simp) le_rfl
      | some b =>
        simp only
        split
        · rename_i hl
          refine hs r (.inl rfl) ?_ le_rfl
          rintro b' ⟨⟩
          exact (Prod.Lex.toLex_lt_toLex.2 (.inl hl)).le
        · rename_i hl
          split
          · rename_i hp
            refine hs r (.inl rfl) ?_ le_rfl
            rintro b' ⟨⟩
            exact (Prod.Lex.toLex_lt_toLex.2 (.inr hp)).le
          · rename_i hp
            refine hs b (.inr rfl) (by rintro b' ⟨⟩; exact le_rfl) ?_
            refine Prod.Lex.toLex_le_toLex.2 ?_
            rcases lt_or_eq_of_le (not_lt.1 hl) with h | h
            · exact .inl h
            · exact .inr ⟨h, not_lt.1 fun hlt => hp ⟨h.symm, hlt⟩⟩

theorem selectPromotionCandidate_eq_none {replicas : List ShardEndpoint} :
    selectPromotionCandidate replicas = none ↔ ∀ r ∈ replicas, r.ready = false := by
  rw [selectPromotionCandidate, (selectLoop_spec none replicas).1]
  simp

/-- The candidate is ready, and no ready replica is better. -/
theorem selectPromotionCandidate_best {replicas : List ShardEndpoint} {c : ShardEndpoint}
    (h : selectPromotionCandidate replicas = some c) : BestReplica replicas c := by
  obtain ⟨hf, -, hrs⟩ := (selectLoop_spec none replicas).2 c h
  obtain ⟨hm, hr⟩ := hf.resolve_left (by simp)
  exact ⟨hm, hr, hrs⟩

theorem failedDecision_spec (reason : FailureReason) (message : FailureMessage) :
    (failedDecision replicas reason message).failed ∧
      (failedDecision replicas reason message).promotionCandidate = selectPromotionCandidate replicas := by
  unfold failedDecision
  cases selectPromotionCandidate replicas with
  | none => exact ⟨rfl, rfl⟩
  | some c => exact ⟨rfl, rfl⟩

variable {shard : ShardStatus}

/-- A failure is reported exactly for a shard that is down. -/
theorem detectPrimaryFailure_failed : (detectPrimaryFailure shard).failed ↔ shard.Down := by
  unfold detectPrimaryFailure ShardStatus.Down
  cases shard.primary with
  | none => simp [(failedDecision_spec ..).1]
  | some p => cases hp : p.ready <;> simp [hp, (failedDecision_spec ..).1]

theorem detectPrimaryFailure_candidate (h : shard.Down) :
    (detectPrimaryFailure shard).promotionCandidate = selectPromotionCandidate shard.replicas := by
  unfold detectPrimaryFailure
  cases hp : shard.primary with
  | none => exact (failedDecision_spec ..).2
  | some p => simp [h p hp, (failedDecision_spec ..).2]

/-! ### The cluster -/

/-- The loop of `clusterFailoverDecision`. -/
def failoverLoop : List ShardStatus → Str × Decision
  | [] => ([], {})
  | shard :: shards =>
    if (detectPrimaryFailure shard).failed then (shard.name, detectPrimaryFailure shard) else failoverLoop shards

def clusterFailoverDecision (cluster : PostgresCluster) (shards : List ShardStatus) : Str × Decision :=
  if standaloneReplicaEnabled cluster then ([], {}) else failoverLoop shards

abbrev Pending := Str → Option Int

def failoverDebounceThreshold : Int := 8 * second

def shouldPromoteAfterDebounce (pending : Pending) (key : Str) (failed canStart : Bool) (now : Int) :
    Bool × Pending :=
  if !failed then (false, Function.update pending key none)
  else match pending key with
    | none => (false, if canStart then Function.update pending key (some now) else pending)
    | some first => (failoverDebounceThreshold ≤ now - first, pending)

def PostgresCluster.key (cluster : PostgresCluster) : Str := cluster.ns ++ "/" ++ cluster.name

/-- What `Reconcile` has before it decides on a failover: the cluster as it was read, the status of its shards, the
answer of `shouldSkipFencedCandidate`, and the time. -/
structure Observation where
  cluster : PostgresCluster
  shards : List ShardStatus
  skipFenced : Bool := false
  now : Int

namespace Observation

def decision : Str × Decision := clusterFailoverDecision o.cluster o.shards

def detected : Bool := o.decision.2.failed && o.decision.2.promotionCandidate.isSome

/-- The failover part of `Reconcile`: `failoverPending` afterwards, and the shard and decision with which
`executeClusterPromotion` is called. -/
def failover (pending : Pending) (o : Observation) : Pending × Option (Str × Decision) :=
  let r := shouldPromoteAfterDebounce pending o.cluster.key o.detected (o.cluster.phase = .ready) o.now
  (r.2, if r.1 && !o.skipFenced then some o.decision else none)

end Observation

def firstDown : Option ShardStatus := shards.find? fun shard => shard.Down

variable {shards : List ShardStatus}

theorem down_of_firstDown (h : firstDown shards = some shard) : shard.Down := by
  simpa using find?_some h

theorem failoverLoop_eq :
    failoverLoop shards = ((firstDown shards).map fun shard => (shard.name, detectPrimaryFailure shard)).getD
      ([], {}) := by
  induction shards with
  | nil => rfl
  | cons shard shards ih =>
    unfold failoverLoop firstDown
    by_cases h : shard.Down
    · rw [if_pos (detectPrimaryFailure_failed.2 h), find?_cons_of_pos (by simpa using h)]
      rfl
    · rw [if_neg (fun hf => h (detectPrimaryFailure_failed.1 hf)), find?_cons_of_neg (by simpa using h)]
      exact ih

variable {cluster : PostgresCluster}

/-- The decision is about the first shard that is down. -/
theorem clusterFailoverDecision_eq (hc : standaloneReplicaEnabled cluster = false)
    (h : firstDown shards = some shard) :
    clusterFailoverDecision cluster shards = (shard.name, detectPrimaryFailure shard) := by
  rw [clusterFailoverDecision, hc, if_neg (by simp), failoverLoop_eq, h]
  rfl

theorem firstDown_of_failed (h : (clusterFailoverDecision cluster shards).2.failed) :
    ∃ shard, firstDown shards = some shard ∧
      clusterFailoverDecision cluster shards = (shard.name, detectPrimaryFailure shard) := by
  unfold clusterFailoverDecision at h ⊢
  split at h
  · cases h
  · rename_i hc
    rw [failoverLoop_eq] at h
    cases hf : firstDown shards with
    | none =>
      rw [hf] at h
      cases h
    | some shard => exact ⟨shard, rfl, by rw [if_neg hc, failoverLoop_eq, hf]; rfl⟩

/-! ### Promotable shards -/

def FindsCandidate (cluster : PostgresCluster) (shards : List ShardStatus) : Prop :=
  ∃ shard ∈ shards, ∃ c, (clusterFailoverDecision cluster shards).1 = shard.name ∧
    (clusterFailoverDecision cluster shards).2.failed ∧ shard.Down ∧
    (clusterFailoverDecision cluster shards).2.promotionCandidate = some c ∧ BestReplica shard.replicas c

def KeepsWindow (cluster : PostgresCluster) (shards : List ShardStatus) : Prop :=
  ∀ pending first skipFenced now, pending cluster.key = some first →
    (Observation.failover pending { cluster, shards, skipFenced, now }).1 cluster.key = some first

theorem selectPromotionCandidate_isSome (h : shard.Down) :
    (selectPromotionCandidate shard.replicas).isSome ↔ shard.Promotable := by
  rw [← not_iff_not, Bool.not_eq_true, isSome_eq_false_iff, isNone_iff_eq_none,
    selectPromotionCandidate_eq_none]
  simp [ShardStatus.Promotable, h]

theorem detected_iff {o : Observation} (hc : standaloneReplicaEnabled o.cluster = false)
    (h : firstDown o.shards = some shard) : o.detected ↔ shard.Promotable := by
  have hd := down_of_firstDown h
  rw [Observation.detected, Observation.decision, clusterFailoverDecision_eq hc h, Bool.and_eq_true,
    detectPrimaryFailure_failed, detectPrimaryFailure_candidate hd, selectPromotionCandidate_isSome hd]
  exact ⟨fun h => h.2, fun h => ⟨hd, h⟩⟩

/-- How an observation changes the pending failovers, cluster by cluster. -/
theorem failover_pending (pending : Pending) (o : Observation) (key : Str) : (o.failover pending).1 key =
      if key ≠ o.cluster.key then pending key
      else if o.detected then (pending key).or (if o.cluster.phase = .ready then some o.now else none)
      else none := by
  unfold Observation.failover shouldPromoteAfterDebounce
  by_cases hkey : key = o.cluster.key
  · subst hkey
    cases o.detected with
    | false => simp
    | true =>
      cases hp : pending o.cluster.key with
      | none => by_cases hr : o.cluster.phase = .ready <;> simp [hp, hr]
      | some first => simp [hp]
  · cases o.detected with
    | false => simp [hkey]
    | true =>
      cases hp : pending o.cluster.key with
      | none => by_cases hr : o.cluster.phase = .ready <;> simp [hkey, hr]
      | some first => simp [hkey]

theorem keepsWindow_iff :
    KeepsWindow cluster shards ↔ ∀ skipFenced now, Observation.detected { cluster, shards, skipFenced, now } := by
  constructor
  · intro h skipFenced now
    have hk := h (fun _ => some 0) 0 skipFenced now rfl
    rw [failover_pending] at hk
    by_contra hn
    simp [hn] at hk
  · intro h pending first skipFenced now hp
    rw [failover_pending]
    simp [h, hp]

/-- For a cluster with a promotable shard: a candidate is found and a pending failure stays pending exactly if the
first shard that is down is promotable. -/
theorem failover_not_blocked_iff (cluster : PostgresCluster) (shards : List ShardStatus)
    (hcluster : standaloneReplicaEnabled cluster = false) (hshards : ∃ shard ∈ shards, shard.Promotable) :
    FindsCandidate cluster shards ∧ KeepsWindow cluster shards ↔ ∀ shard ∈ firstDown shards, shard.Promotable := by
  obtain ⟨shard₀, hm₀, hd₀, -⟩ := hshards
  obtain ⟨shard, hf⟩ : ∃ shard, firstDown shards = some shard := by
    rw [← isSome_iff_exists, firstDown, find?_isSome]
    exact ⟨shard₀, hm₀, by simpa using hd₀⟩
  have hd := down_of_firstDown hf
  have hk : KeepsWindow cluster shards ↔ shard.Promotable := by
    rw [keepsWindow_iff]
    have ht : ∀ skipFenced now, Observation.detected { cluster, shards, skipFenced, now } ↔ shard.Promotable :=
      fun skipFenced now => detected_iff hcluster hf
    simp only [ht, forall_const]
  constructor
  · rintro ⟨-, hw⟩ x hx
    rw [mem_def, hf] at hx
    cases hx
    exact hk.1 hw
  · intro h
    have hp := h shard hf
    obtain ⟨c, hc⟩ := isSome_iff_exists.1 ((selectPromotionCandidate_isSome hd).2 hp)
    refine ⟨⟨shard, mem_of_find?_eq_some hf, c, ?_⟩, hk.2 hp⟩
    rw [clusterFailoverDecision_eq hcluster hf]
    exact ⟨rfl, detectPrimaryFailure_failed.2 hd, hd, (detectPrimaryFailure_candidate hd).trans hc,
      selectPromotionCandidate_best hc⟩

def downShard (name : String) (replicas : List ShardEndpoint) : ShardStatus where
  name := str name
  ordinal := 0
  primary := some { pod := str (name ++ "-0") }
  replicas

def readyReplica (pod : String) (lagBytes : Int) : ShardEndpoint := { pod := str pod, ready := true, lagBytes }

theorem failover_not_blocked_iff_demo :
    (FindsCandidate demoCluster [downShard "shard-0" [readyReplica "shard-0-2" 8, readyReplica "shard-0-1" 8]] ∧
      KeepsWindow demoCluster [downShard "shard-0" [readyReplica "shard-0-2" 8, readyReplica "shard-0-1" 8]]) ∧
      (clusterFailoverDecision demoCluster
        [downShard "shard-0" [readyReplica "shard-0-2" 8, readyReplica "shard-0-1" 8]]).2.promotionCandidate =
          some (readyReplica "shard-0-1" 8) := by
  refine ⟨(failover_not_blocked_iff demoCluster _ rfl (by decide +kernel)).2 ?_, by decide +kernel⟩
  rintro shard ⟨⟩
  decide +kernel

/-- A shard without a ready replica hides the next one, which is promotable, and ends a failure that is pending. -/
theorem failover_blocked : (downShard "shard-1" [readyReplica "shard-1-1" 0]).Promotable ∧
    (clusterFailoverDecision demoCluster
      [downShard "shard-0" [], downShard "shard-1" [readyReplica "shard-1-1" 0]]).2.promotionCandidate = none ∧
    (Observation.failover (fun _ => some 0)
      { cluster := demoCluster, shards := [downShard "shard-0" [], downShard "shard-1" [readyReplica "shard-1-1" 0]],
        now := 10 * second }).1 demoCluster.key = none := by
  decide +kernel

end PostgresOperator.Cluster
