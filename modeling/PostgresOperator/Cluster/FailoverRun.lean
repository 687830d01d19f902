import PostgresOperator.Calls.History
import PostgresOperator.Cluster.Failover

/-!
# Promotions and the failures before them

The Reconciles of all clusters one after the other, since the start of the operator.  `failoverPending` holds one time
for each cluster, which is set by the failure of one shard and may be found by the failure of another.  While the
shard stays the same, that time is the beginning of a failure of the shard that is promoted.
-/

namespace PostgresOperator.Cluster

open Go Calls List Option

def pendingAfter (obs : List Observation) : Pending :=
  obs.foldl (fun pending o => (o.failover pending).1) fun _ => none

@[simp] theorem pendingAfter_append_singleton (obs : List Observation) (o : Observation) :
    pendingAfter (obs ++ [o]) = (o.failover (pendingAfter obs)).1 := by
  simp [pendingAfter]

namespace Observation

def SameCluster (x o : Observation) : Prop := x.cluster.ns = o.cluster.ns ∧ x.cluster.name = o.cluster.name

instance (x o : Observation) : Decidable (x.SameCluster o) := inferInstanceAs (Decidable (_ ∧ _))

def Failed (o : Observation) (name : Str) : Prop :=
  ∃ shard ∈ o.shards, shard.name = name ∧ (detectPrimaryFailure shard).failed

def previous (before : List Observation) (o : Observation) : Option Observation :=
  (before.filter fun x => x.SameCluster o).getLast?

end Observation

def InTime (before : List Observation) (o : Observation) : Prop := ∀ x ∈ before, x.now ≤ o.now

instance (before : List Observation) (o : Observation) : Decidable (InTime before o) :=
  inferInstanceAs (Decidable (∀ x ∈ before, x.now ≤ o.now))

/-- From a time at least `failoverDebounceThreshold` before `o` on, the shard had failed in every Reconcile of the
cluster up to `o`. -/
def SustainedFailure (before : List Observation) (o : Observation) (name : Str) : Prop :=
  ∃ t₀ earlier later, t₀ + failoverDebounceThreshold ≤ o.now ∧ before = earlier ++ later ∧
    (∀ x ∈ earlier, x.now ≤ t₀) ∧
    ∀ x ∈ later ++ [o], x.SameCluster o → x.Failed name

/-- While a failure of the cluster is pending, a failure that could be promoted is one of the same shard as in the
Reconcile before. -/
def SameFailure (before : List Observation) (o : Observation) : Prop :=
  (pendingAfter before o.cluster.key).isSome → o.detected →
    ∀ last ∈ o.previous before, ∀ a ∈ firstDown last.shards, ∀ b ∈ firstDown o.shards, a.name = b.name

instance (before : List Observation) (o : Observation) : Decidable (SameFailure before o) :=
  inferInstanceAs (Decidable (_ → _ → ∀ last ∈ o.previous before, ∀ a ∈ firstDown last.shards,
    ∀ b ∈ firstDown o.shards, a.name = b.name))

/-! ### Clusters and keys -/

variable {o : Observation}

theorem sameCluster_iff {x : Observation} : x.SameCluster o ↔ x.cluster.key = o.cluster.key := by
  constructor
  · rintro ⟨hns, hn⟩
    rw [PostgresCluster.key, PostgresCluster.key, hns, hn]
  · intro h
    have hs : str "/" = [byte '/'] := by decide +kernel
    rw [PostgresCluster.key, PostgresCluster.key, hs, append_assoc, append_assoc] at h
    exact append_sep_inj x.cluster.ns_noSlash o.cluster.ns_noSlash h

/-! ### The failure that is pending -/

theorem Observation.failed_of_detected (h : o.detected) :
    ∃ shard, firstDown o.shards = some shard ∧ o.decision.1 = shard.name ∧ o.Failed shard.name := by
  obtain ⟨hfa, -⟩ := Bool.and_eq_true_iff.1 h
  obtain ⟨shard, hf, hd⟩ := firstDown_of_failed hfa
  refine ⟨shard, hf, by rw [Observation.decision, hd], shard, mem_of_find?_eq_some hf, rfl, ?_⟩
  exact detectPrimaryFailure_failed.2 (down_of_firstDown hf)

def Names (name : Str) (x : Observation) : Prop := x.detected ∧ x.decision.1 = name

/-- The failure that is pending since `first` began with a Reconcile of the cluster, before which none was later than
`first`, and all Reconciles of the cluster from there on have named one shard. -/
def PendingSince (obs : List Observation) (key : Str) (first : Int) (name : Str) : Prop :=
  ∃ earlier start later, obs = earlier ++ start :: later ∧ start.cluster.key = key ∧ (∀ x ∈ earlier, x.now ≤ first) ∧
    ∀ x ∈ start :: later, x.cluster.key = key → Names name x

variable {obs : List Observation} {name : Str} {first : Int}

/-- A window stays open while the same shard is named. -/
theorem PendingSince.append {key : Str} (h : PendingSince obs key first name)
    (ho : o.cluster.key = key → Names name o) :
    PendingSince (obs ++ [o]) key first name := by
  obtain ⟨earlier, start, later, rfl, hkey, hn, ha⟩ := h
  refine ⟨earlier, start, later ++ [o], by simp, hkey, hn, ?_⟩
  intro x hx hxk
  rw [← cons_append, mem_append, mem_singleton] at hx
  rcases hx with hx | rfl
  · exact ha x hx hxk
  · exact ho hxk

theorem PendingSince.previous (h : PendingSince obs o.cluster.key first name) :
    ∃ last ∈ o.previous obs, Names name last := by
  obtain ⟨earlier, start, later, rfl, hkey, -, ha⟩ := h
  have hs : start ∈ (start :: later).filter fun x => x.SameCluster o := by
    simpa using sameCluster_iff.2 hkey
  obtain ⟨last, hl⟩ : ∃ last, ((start :: later).filter fun x => x.SameCluster o).getLast? = some last :=
    isSome_iff_exists.1 (getLast?_isSome.2 (ne_nil_of_mem hs))
  have hm := mem_filter.1 (mem_of_getLast? hl)
  refine ⟨last, ?_, ha last hm.1 (sameCluster_iff.1 (by simpa using hm.2))⟩
  rw [Observation.previous, filter_append, mem_def, getLast?_append, hl]
  rfl

theorem SameFailure.names
    (h : SameFailure obs o) (hd : o.detected) (hp : pendingAfter obs o.cluster.key = some first)
    (hs : PendingSince obs o.cluster.key first name) : Names name o := by
  obtain ⟨last, hl, hld, hn⟩ := hs.previous
  obtain ⟨a, ha, han, -⟩ := Observation.failed_of_detected hld
  obtain ⟨b, hb, hbn, -⟩ := Observation.failed_of_detected hd
  have hab : a.name = b.name := h (by rw [hp]; rfl) hd last hl a ha b hb
  exact ⟨hd, by rw [hbn, ← hab, ← han, hn]⟩

def PendingInvariant (obs : List Observation) : Prop :=
  ∀ key first, pendingAfter obs key = some first → ∃ name, PendingSince obs key first name

/-- Step lemma: an observation in time keeps the record of pending failovers sound. -/
theorem PendingInvariant.append (hv : PendingInvariant obs)
    (ht : InTime obs o) (hsm : SameFailure obs o) : PendingInvariant (obs ++ [o]) := by
  intro key first hf
  rw [pendingAfter_append_singleton, failover_pending] at hf
  by_cases hkey : key = o.cluster.key
  · subst hkey
    cases hd : o.detected with
    | false => simp [hd] at hf
    | true =>
      cases hp : pendingAfter obs o.cluster.key with
      | none =>
        -- the failure begins here
        have hn : o.now = first := by
          by_cases hr : o.cluster.phase = .ready <;> simp_all
        exact ⟨o.decision.1, obs, o, [], rfl, rfl, hn ▸ ht, by simp [Names, hd]⟩
      | some first' =>
        have hold : first' = first := by simpa [hd, hp] using hf
        subst hold
        obtain ⟨name, hs⟩ := hv _ _ hp
        exact ⟨name, hs.append fun _ => hsm.names hd hp hs⟩
  · rw [if_pos hkey] at hf
    obtain ⟨name, hs⟩ := hv key first hf
    exact ⟨name, hs.append fun h => absurd h.symm hkey⟩

/-- A promotion needs a window that has been open long enough. -/
theorem pending_of_promotion {pending : Pending} {d : Decision} (h : (o.failover pending).2 = some (name, d)) :
    o.detected ∧ o.decision.1 = name ∧
      ∃ first, pending o.cluster.key = some first ∧ first + failoverDebounceThreshold ≤ o.now := by
  obtain ⟨hpr, hc⟩ := ite_some_none_eq_some.1 h
  obtain ⟨hd, -⟩ := Bool.and_eq_true_iff.1 hpr
  unfold shouldPromoteAfterDebounce at hd
  cases ht : o.detected with
  | false => simp [ht] at hd
  | true =>
    cases hp : pending o.cluster.key with
    | none => simp [ht, hp] at hd
    | some first =>
      have hl : failoverDebounceThreshold ≤ o.now - first := by simpa [ht, hp] using hd
      exact ⟨rfl, by rw [hc], first, rfl, by omega⟩

/-- A window that has been open for the threshold shows a sustained failure. -/
theorem PendingSince.sustained (h : PendingSince obs o.cluster.key first name) (ho : Names name o)
    (hl : first + failoverDebounceThreshold ≤ o.now) : SustainedFailure obs o name := by
  obtain ⟨earlier, start, later, rfl, -, ht, ha⟩ := h
  refine ⟨first, earlier, start :: later, hl, rfl, ht, ?_⟩
  intro x hx hc
  have hn : Names name x := by
    rcases mem_append.1 hx with hx | hx
    · exact ha x hx (sameCluster_iff.1 hc)
    · rw [mem_singleton.1 hx]
      exact ho
  obtain ⟨shard, -, hd, hf⟩ := Observation.failed_of_detected hn.1
  rwa [← hn.2, hd]

/-- Every promotion follows a sustained failure of the shard that is promoted. -/
theorem promotion_after_sustained_failure (obs : List Observation) (htimes : EachStep InTime obs)
    (hsame : EachStep SameFailure obs) :
    EachStep (fun before o => ∀ name d, (o.failover (pendingAfter before)).2 = some (name, d) →
      SustainedFailure before o name) obs := by
  have hb : EachStep (fun before o => InTime before o ∧ SameFailure before o) obs := fun i => ⟨htimes i, hsame i⟩
  refine (EachStep.of_invariant PendingInvariant ?_ ?_ hb).1
  · intro key first hf
    cases hf
  · rintro before o hv ⟨ht, hsame⟩
    refine ⟨?_, hv.append ht hsame⟩
    intro name d hpr
    obtain ⟨hd, hnm, first, hp, hl⟩ := pending_of_promotion hpr
    obtain ⟨name', hs⟩ := hv _ _ hp
    have hn := hsame.names hd hp hs
    have heq : name' = name := hn.2.symm.trans hnm
    subst heq
    exact hs.sustained hn hl

def readyShard (name : String) : ShardStatus where
  name := str name
  ordinal := 0
  primary := some { pod := str (name ++ "-0"), ready := true }

def twoShards (down₀ down₁ : Bool) (seconds : Int) : Observation where
  cluster := demoCluster
  shards := [if down₀ then downShard "shard-0" [readyReplica "shard-0-1" 0] else readyShard "shard-0",
    if down₁ then downShard "shard-1" [readyReplica "shard-1-1" 0] else readyShard "shard-1"]
  now := seconds * second

theorem promotion_after_sustained_failure_demo :
    ((twoShards true false 9).failover (pendingAfter [twoShards true false 0, twoShards true false 5])).2.map
      Prod.fst =
        some (str "shard-0") ∧
      SustainedFailure [twoShards true false 0, twoShards true false 5] (twoShards true false 9) "shard-0" := by
  have hp : ((twoShards true false 9).failover (pendingAfter [twoShards true false 0, twoShards true false 5])).2 =
      some (twoShards true false 9).decision := by
    decide +kernel
  have hn : (twoShards true false 9).decision.1 = "shard-0" := by decide +kernel
  refine ⟨by rw [hp, map_some, hn], ?_⟩
  rw [← hn]
  exact promotion_after_sustained_failure [twoShards true false 0, twoShards true false 5, twoShards true false 9]
    (by decide +kernel) (by decide +kernel) ⟨2, by decide⟩ _ _ hp

/-- The second shard is promoted four seconds after its failure, nine after that of the first one, which is over. -/
theorem promotion_after_other_failure : ((twoShards false true 9).failover
      (pendingAfter [twoShards true false 0, twoShards true false 2, twoShards false true 5])).2.map Prod.fst =
        some (str "shard-1") ∧
      ¬SustainedFailure [twoShards true false 0, twoShards true false 2, twoShards false true 5]
        (twoShards false true 9)
        "shard-1" := by
  refine ⟨by decide +kernel, ?_⟩
  rintro ⟨t₀, earlier, later, hln, hs, he, hl⟩
  have hm : twoShards true false 2 ∈ earlier ++ later := by
    rw [← hs]
    simp
  rcases mem_append.1 hm with hm | hm
  · -- the failure of the second shard would have to begin after two seconds
    have ht := (Int.add_le_add_right (he _ hm) _).trans hln
    revert ht
    decide +kernel
  · obtain ⟨shard, hsh, hn, hd⟩ := hl (twoShards true false 2) (mem_append_left _ hm) (by decide)
    revert shard
    decide +kernel

end PostgresOperator.Cluster
