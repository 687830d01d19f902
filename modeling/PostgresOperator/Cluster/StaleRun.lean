import PostgresOperator.Calls.History
import PostgresOperator.Cluster.Reachable

/-!
# Outages and reseedings

The Reconciles of a cluster in which `reconcileStaleReplicas` is called, one after the other.  A member is reseeded
because it is not ready now and its pod is old; for how long it has not been ready is not recorded anywhere.  The age
of the pod stands for the length of the outage only if a pod that is not ready has never been ready, and if the
Reconciles have watched it for long enough (`Unbroken`).  That an outage then goes back to the creation of the pod is
an induction over the run: each Reconcile says so of the one before it.
-/

namespace PostgresOperator.Cluster

open Go Calls List

/-- A Reconcile in which `reconcileStaleReplicas` is called: the status of the shards, the time, and when the pods
that are there were created. -/
structure StaleReconcile where
  shards : List ShardStatus
  now : Int
  created : Str → Option Int

namespace StaleReconcile

/-- `reconcileStaleReplicas` deletes the claim or the pod of a member, for some annotations of the cluster and some
answers of the API server. -/
def Deletes (codec : Codec) (x : StaleReconcile) (pod : Str) : Prop :=
  ∃ annotations r w, Ends (podApi x.created x.now) (reconcileStaleReplicas codec x.now annotations x.shards) {} r w ∧
    ((∃ shard, (shard, dataPvc pod) ∈ w.pvcs) ∨ ∃ shard, (shard, pod) ∈ w.pods)

variable (x : StaleReconcile) (pod : Str)

/-- The status lists the member with this readiness. -/
def Observed (ready : Bool) : Prop :=
  ∃ ss ∈ x.shards, ∃ e ∈ ss.primary.toList ++ ss.replicas, e.pod = pod ∧ e.ready = ready

/-- The status lists the member, and not as ready. -/
def Down : Prop := x.Observed pod false ∧ ¬ x.Observed pod true

def Suspects : Prop :=
  pod ≠ [] ∧ ∃ ss ∈ x.shards, (readyPrimary ss).isSome ∧ ∃ e ∈ ss.replicas, e.pod = pod ∧ e.ready = false

instance (x : StaleReconcile) (pod : Str) (ready : Bool) : Decidable (x.Observed pod ready) :=
  inferInstanceAs (Decidable (∃ ss ∈ x.shards, ∃ e ∈ ss.primary.toList ++ ss.replicas, e.pod = pod ∧ e.ready = ready))

instance (x : StaleReconcile) (pod : Str) : Decidable (x.Down pod) := inferInstanceAs (Decidable (_ ∧ _))

instance (x : StaleReconcile) (pod : Str) : Decidable (x.Suspects pod) :=
  inferInstanceAs (Decidable (pod ≠ [] ∧ ∃ ss ∈ x.shards, (readyPrimary ss).isSome ∧
    ∃ e ∈ ss.replicas, e.pod = pod ∧ e.ready = false))

end StaleReconcile

/-- The member is not ready in `o`, and some Reconcile at least `staleStandbyReseedTimeout` before it and all since
then have observed it as not ready. -/
def SustainedOutage (before : List StaleReconcile) (o : StaleReconcile) (pod : Str) : Prop :=
  o.Observed pod false ∧ ∃ x ∈ before, staleStandbyReseedTimeout ≤ o.now - x.now ∧
    ∀ y ∈ before, x.now ≤ y.now → y.Down pod

/-- What a Reconcile finds agrees with the one before it, as far as the pods that are not ready go. -/
structure Unbroken (before : List StaleReconcile) (o : StaleReconcile) : Prop where
  /-- Time does not run backwards. -/
  later : ∀ prev ∈ before.getLast?, prev.now ≤ o.now
  /-- A pod that is not ready, and is older than the Reconcile before, was there and not ready in that one too. -/
  lasts : ∀ prev ∈ before.getLast?, ∀ pod t, o.Observed pod false → o.created pod = some t → t ≤ prev.now →
    prev.created pod = some t ∧ prev.Down pod
  /-- A suspect whose pod is old was there in a Reconcile that is `staleStandbyReseedTimeout` ago. -/
  watched : ∀ pod t, o.Suspects pod → o.created pod = some t → staleStandbyReseedTimeout ≤ o.now - t →
    ∃ x ∈ before, t ≤ x.now ∧ staleStandbyReseedTimeout ≤ o.now - x.now

/-- A standby is deleted if it is suspected and its pod is older than the timeout. -/
theorem StaleReconcile.deletes_iff {codec : Codec} {o : StaleReconcile} {pod : Str} :
    o.Deletes codec pod ↔ o.Suspects pod ∧ ∃ t ∈ o.created pod, staleStandbyReseedTimeout ≤ o.now - t := by
  constructor
  · rintro ⟨annotations, r, w, he, hl⟩
    have hem : Done.Within (staleCause o.shards o.now) {} := ⟨by simp, by simp⟩
    have hw := after_reconcileStaleReplicas (grows_staleCause _ _) (fun _ _ _ h => h) _ hem r _ (ends_anyApi he)
    have hc : ∃ shard, staleCause o.shards o.now w.read shard pod := by
      rcases hl with ⟨shard, hm⟩ | ⟨shard, hm⟩
      · obtain ⟨pod', hd', hc⟩ := hw.pvcs _ hm
        rw [dataPvc_inj hd']
        exact ⟨shard, hc⟩
      · exact ⟨shard, hw.pods _ hm⟩
    obtain ⟨-, hne, ss, hss, -, hp, ⟨rep, hrp, hr, hd⟩, obj, hrd, hold⟩ := hc
    have hcr := after_podApi _ (by simp) r w he _ hrd
    exact ⟨⟨hne, ss, hss, hp, rep, hrp, hd, hr⟩, _, hcr, hold⟩
  · rintro ⟨⟨hne, ss, hss, hp, rep, hrp, rfl, hr⟩, t, hcr, hold⟩
    obtain ⟨primary, hp⟩ := Option.isSome_iff_exists.1 hp
    obtain ⟨r, w, he, hm⟩ :=
      reaches_reconcileStaleReplicas codec hss hp hrp hr hne hcr hold {}
    exact ⟨noAnnotations, r, w, he, .inl ⟨_, hm⟩⟩

theorem StaleReconcile.Suspects.observed {x : StaleReconcile} {pod : Str} (h : x.Suspects pod) :
    x.Observed pod false := by
  obtain ⟨-, ss, hss, -, e, he, hr⟩ := h
  exact ⟨ss, hss, e, mem_append_right _ he, hr⟩

/-- The invariant of a run: the last Reconcile is the latest, and a pod that is down in it has been down in all that
came after its creation. -/
def DownSinceCreation (before : List StaleReconcile) : Prop :=
  ∀ last ∈ before.getLast?, (∀ y ∈ before, y.now ≤ last.now) ∧
    ∀ pod t, last.Down pod → last.created pod = some t → ∀ y ∈ before, t ≤ y.now → y.Down pod

theorem Unbroken.down_since_creation {before : List StaleReconcile} {o : StaleReconcile} (h : Unbroken before o)
    (hi : DownSinceCreation before) {pod : Str} {t : Int} (ho : o.Observed pod false) (hc : o.created pod = some t) :
    ∀ y ∈ before, t ≤ y.now → y.Down pod := by
  intro y hy ht
  obtain ⟨prev, hp⟩ := Option.isSome_iff_exists.1 (getLast?_isSome.2 (ne_nil_of_mem hy))
  obtain ⟨hle, hd⟩ := hi prev hp
  obtain ⟨hcp, hdp⟩ := h.lasts prev hp pod t ho hc (ht.trans (hle y hy))
  exact hd pod t hdp hcp y hy ht

/-- Step lemma: an unbroken series keeps what is down counted from its creation. -/
theorem DownSinceCreation.step {before : List StaleReconcile} {o : StaleReconcile} (hi : DownSinceCreation before)
    (h : Unbroken before o) : DownSinceCreation (before ++ [o]) := by
  intro last hl
  obtain rfl : o = last := by simpa using hl
  refine ⟨?_, ?_⟩
  · intro y hy
    rcases mem_append.1 hy with hy | hy
    · obtain ⟨prev, hp⟩ := Option.isSome_iff_exists.1 (getLast?_isSome.2 (ne_nil_of_mem hy))
      exact ((hi prev hp).1 y hy).trans (h.later prev hp)
    · rw [mem_singleton.1 hy]
  · intro pod t hd hc y hy ht
    rcases mem_append.1 hy with hy | hy
    · exact h.down_since_creation hi hd.1 hc y hy ht
    · rwa [mem_singleton.1 hy]

/-- In a run in which a pod that is not ready has never been ready and is watched for long enough, members are
reseeded only after a sustained outage. -/
theorem reseeded_after_sustained_outage (codec : Codec) (history : List StaleReconcile)
    (h : EachStep Unbroken history) :
    EachStep (fun before o => ∀ pod, o.Deletes codec pod → SustainedOutage before o pod) history := by
  refine (EachStep.of_invariant DownSinceCreation (by rintro _ ⟨⟩) ?_ h).1
  intro before o hi hu
  refine ⟨?_, hi.step hu⟩
  intro pod hd
  obtain ⟨hs, t, hc, hold⟩ := StaleReconcile.deletes_iff.1 hd
  obtain ⟨x, hx, htx, hxo⟩ := hu.watched pod t hs hc hold
  refine ⟨hs.observed, x, hx, hxo, ?_⟩
  intro y hy hxy
  exact hu.down_since_creation hi hs.observed hc y hy (htx.trans hxy)

def standbyShard (ready : Bool) : ShardStatus where
  name := "shard-0"
  ordinal := 0
  primary := some { pod := "demo-shard-0-0", ready := true }
  replicas := [{ pod := "demo-shard-0-1", ready }]

def standbyReconcile (ready : Bool) (seconds : Int) : StaleReconcile where
  shards := [standbyShard ready]
  now := seconds * second
  created _ := some 0

/-- A member that is not ready ten seconds and ten minutes after its pod was created is reseeded the second time. -/
theorem reseeded_after_sustained_outage_demo :
    (standbyReconcile false 600).Deletes demoCodec "demo-shard-0-1" ∧
      SustainedOutage [standbyReconcile false 10] (standbyReconcile false 600) "demo-shard-0-1" := by
  have hm : ∀ {seconds pod}, (standbyReconcile false seconds).Observed pod false → pod = "demo-shard-0-1" := by
    rintro seconds pod ⟨ss, hss, e, he, rfl, hr⟩
    rw [mem_singleton.1 hss] at he
    rcases mem_cons.1 he with rfl | he
    · cases hr
    · rw [mem_singleton.1 he]
  have hd : (standbyReconcile false 600).Deletes demoCodec "demo-shard-0-1" :=
    StaleReconcile.deletes_iff.2 ⟨by decide +kernel, 0, rfl, by decide +kernel⟩
  have h₁ : Unbroken [] (standbyReconcile false 10) := by
    refine ⟨by simp, by simp, ?_⟩
    rintro pod t - ⟨⟩ hold
    exact absurd hold (by decide +kernel)
  have h₂ : Unbroken [standbyReconcile false 10] (standbyReconcile false 600) := by
    refine ⟨?_, ?_, ?_⟩
    · rintro prev ⟨⟩
      decide +kernel
    · rintro prev ⟨⟩ pod t ho ⟨⟩ -
      rw [hm ho]
      exact ⟨rfl, by decide +kernel⟩
    · rintro pod t - ⟨⟩ -
      exact ⟨_, mem_singleton_self _, by decide +kernel, by decide +kernel⟩
  have h : EachStep Unbroken [standbyReconcile false 10, standbyReconcile false 600] :=
    eachStep_append_singleton (l := [_]).2 ⟨eachStep_append_singleton (l := []).2 ⟨eachStep_nil, h₁⟩, h₂⟩
  exact ⟨hd, reseeded_after_sustained_outage demoCodec _ h ⟨1, by decide⟩ _ hd⟩

/-- A member that was ready five seconds ago is reseeded, since its pod is ten minutes old. -/
theorem reseeded_after_five_seconds :
    (standbyReconcile true 600).Observed "demo-shard-0-1" true ∧
      (standbyReconcile false 605).Deletes demoCodec "demo-shard-0-1" ∧
      ¬SustainedOutage [standbyReconcile true 600] (standbyReconcile false 605) "demo-shard-0-1" := by
  refine ⟨by decide +kernel, StaleReconcile.deletes_iff.2 ⟨by decide +kernel, 0, rfl, by decide +kernel⟩, ?_⟩
  rintro ⟨-, x, hx, hold, -⟩
  rw [mem_singleton.1 hx] at hold
  exact absurd hold (by decide +kernel)

end PostgresOperator.Cluster
