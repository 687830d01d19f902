import PostgresOperator.Cluster.Reachable

/-!
# The last good copy

Which pods and claims the API server lists, and how old the pods are, decides whether a Reconcile can delete the
volume of a member while no other member of the shard is a ready primary by its own report.  The status of a shard may
have a ready primary without such a report in two ways: it is a target of a resharding, or no pod counts as primary
and the StatefulSet has a ready replica.  What saves the other members then is that they are ready, or that their pods
are young.
-/

namespace PostgresOperator.Cluster

open Go Calls Aggregation List Option

/-- What a Reconcile reads up to the reseedings; `stopped` is `databasePodsStopped`.  A shard is there once. -/
structure ReconcileView where
  cluster : PostgresCluster
  stopped : Bool := false
  shards : List ShardView
  shards_nodup : (shards.map fun v => v.kind.shardID).Nodup

namespace ReconcileView

def shardStatuses (x : ReconcileView) (codec : Codec) : List ShardStatus :=
  x.shards.map fun v => v.status codec x.cluster

def reseed (x : ReconcileView) (codec : Codec) (annotations : Annotations) : Reseed Unit :=
  if standaloneReplicaEnabled x.cluster || x.stopped then pure ()
  else reseedMembers codec annotations (x.shardStatuses codec)

end ReconcileView

namespace Aggregation

variable (g : Aggregation)

/-- Another pod of the shard has itself reported to be primary, and is ready. -/
def HasOtherPrimary (pod : Str) : Prop :=
  ∃ q ∈ g.members, q.name ≠ pod ∧ g.reportsPrimary q ∧ (g.listed q).ready

instance (pod : Str) : Decidable (g.HasOtherPrimary pod) :=
  inferInstanceAs (Decidable (∃ q ∈ g.members, q.name ≠ pod ∧ g.reportsPrimary q ∧ (g.listed q).ready))

/-- Under this primary the member is not reseeded: it is ready or its pod is young, and it is not marked as rogue. -/
def Spared (created : Str → Option Int) (now : Int) (primary : Str) (p : Pod) : Prop :=
  ((g.listed p).ready ∨ ∀ t ∈ created p.name, now - t < staleStandbyReseedTimeout) ∧
    ((g.listed p).reason = roguePrimaryReason → p.name = primary)

end Aggregation

/-- The shard has no ready primary without a report, or every member is spared or has another primary beside it. -/
def ShardView.Trusted (v : ShardView) (codec : Codec) (cluster : PostgresCluster) (created : Str → Option Int)
    (now : Int) : Prop :=
  let g := v.aggregation codec cluster
  match g.candidate with
  | some c => g.reportsPrimary c ∨ ∀ p ∈ g.members, p.name ≠ c.name → g.silentTarget p = false →
      g.Spared created now c.name p ∨ g.HasOtherPrimary p.name
  | none => ∀ ord readyReplicas, v.kind = .ordinal ord readyReplicas → primaryReady readyReplicas →
      (∃ p ∈ g.members, (g.listed p).ready) ∨
        ∀ p ∈ g.members, g.Spared created now (fallbackEndpoint cluster ord).1 p

/-- Whatever the API server answers, only claims of pods of a shard are deleted that has another ready primary by its
own report, and which are not those of its primary. -/
def KeepsGoodCopy (codec : Codec) (x : ReconcileView) (created : Str → Option Int) (now : Int) : Prop :=
  ∀ annotations w, Ends (podApi created now) (x.reseed codec annotations) {} () w → ∀ d ∈ w.pvcs,
    ∃ v ∈ x.shards, v.kind.shardID = d.1 ∧ ∃ p ∈ (v.aggregation codec x.cluster).members, d.2 = dataPvc p.name ∧
      (v.aggregation codec x.cluster).HasOtherPrimary p.name ∧
      ∀ e, (v.status codec x.cluster).primary = some e → e.pod ≠ p.name

/-! ### The status of a shard -/

section Status

variable {v : ShardView} {codec : Codec} {cluster : PostgresCluster}

theorem withFallback_name (cluster : PostgresCluster) (ord : Int) (ready : Bool) (s : ShardStatus) :
    (withFallback cluster ord ready s).name = s.name ∧ (withFallback cluster ord ready s).replicas = s.replicas := by
  unfold withFallback
  split
  · exact ⟨rfl, rfl⟩
  · exact ⟨rfl, rfl⟩

theorem status_name :
    (v.status codec cluster).name = v.kind.shardID ∧
      (v.status codec cluster).replicas = (v.aggregation codec cluster).aggregateShardStatusMatching.replicas := by
  have hn : (v.aggregation codec cluster).aggregateShardStatusMatching.name = v.kind.shardID := by
    unfold aggregateShardStatusMatching
    split <;> rfl
  unfold ShardView.status
  cases hk : v.kind with
  | ordinal ord readyReplicas =>
    obtain ⟨hn', hr⟩ := withFallback_name cluster ord (primaryReady readyReplicas)
      (v.aggregation codec cluster).aggregateShardStatusMatching
    exact ⟨by rw [hn', hn, hk], hr⟩
  | named shardID => exact ⟨by rw [hn, hk], rfl⟩

/-- The status names the candidate as primary. -/
theorem status_primary_of_some {c : Pod} (h : (v.aggregation codec cluster).candidate = some c) :
    (v.status codec cluster).primary = some ((v.aggregation codec cluster).listed c) := by
  have hp := ((v.aggregation codec cluster).aggregate_of_candidate_eq_some h).1
  unfold ShardView.status
  cases v.kind with
  | ordinal ord readyReplicas => simp [withFallback, hp, c.name_ne]
  | named shardID => exact hp

theorem readyPrimary_status_of_none (hc : standaloneReplicaEnabled cluster = false)
    (h : (v.aggregation codec cluster).candidate = none) {pod : Str} :
    (readyPrimary (v.status codec cluster)).map ShardEndpoint.pod = some pod ↔
      ∃ ord readyReplicas, v.kind = .ordinal ord readyReplicas ∧ primaryReady readyReplicas ∧
        (∀ p ∈ (v.aggregation codec cluster).members, ((v.aggregation codec cluster).listed p).ready = false) ∧
        (fallbackEndpoint cluster ord).1 = pod := by
  obtain ⟨hp, hr⟩ := (v.aggregation codec cluster).aggregate_of_candidate_eq_none h
  have hn : hasReadyReplica (v.aggregation codec cluster).aggregateShardStatusMatching.replicas = false ↔
      ∀ p ∈ (v.aggregation codec cluster).members, ((v.aggregation codec cluster).listed p).ready = false := by
    simp [hasReadyReplica, hr]
  rw [← hn]
  unfold ShardView.status
  cases v.kind with
  | ordinal ord readyReplicas =>
    simp [withFallback, hp, hc, readyPrimary, fallbackPrimaryReady, filter_some, and_assoc]
  | named shardID => simp [readyPrimary, hp]

variable {created : Str → Option Int} {now : Int}

/-- What makes a loop reseed a replica under this primary. -/
def Reseeded (created : Str → Option Int) (now : Int) (primary : Str) (rep : ShardEndpoint) : Prop :=
  rep.ready = false ∧ (∃ t ∈ created rep.pod, staleStandbyReseedTimeout ≤ now - t) ∨
    rep.reason = roguePrimaryReason ∧ rep.pod ≠ primary

/-- A pod is spared if and only if no cause to reseed it is listed. -/
theorem spared_iff {g : Aggregation} {p : Pod} {primary : Str} :
    g.Spared created now primary p ↔ ¬ Reseeded created now primary (g.listed p) := by
  unfold Spared Reseeded
  rw [listed_pod]
  cases (g.listed p).ready <;> simp [imp_iff_not_or]

theorem ShardView.Trusted.hasOtherPrimary (hcl : standaloneReplicaEnabled cluster = false)
    (h : v.Trusted codec cluster created now) {primary : ShardEndpoint}
    (hr : readyPrimary (v.status codec cluster) = some primary) {rep : ShardEndpoint}
    (hrp : rep ∈ (v.status codec cluster).replicas) (hb : Reseeded created now primary.pod rep) :
    ∃ p ∈ (v.aggregation codec cluster).members, rep.pod = p.name ∧
      (v.aggregation codec cluster).HasOtherPrimary p.name ∧
      ∀ e, (v.status codec cluster).primary = some e → e.pod ≠ p.name := by
  rw [status_name.2] at hrp
  obtain ⟨p, hp, hn, hs, rfl⟩ := (mem_replicas _).1 hrp
  refine ⟨p, hp, listed_pod .., ?_⟩
  unfold ShardView.Trusted at h
  cases hc : (v.aggregation codec cluster).candidate with
  | none =>
    have hrp : (readyPrimary (v.status codec cluster)).map ShardEndpoint.pod = some primary.pod := by rw [hr]; rfl
    obtain ⟨ord, readyReplicas, hk, hpr, hnn, hpod⟩ := (readyPrimary_status_of_none hcl hc).1 hrp
    simp only [hc] at h
    rcases h ord readyReplicas hk hpr with ⟨q, hq, hqr⟩ | hs
    · rw [hnn q hq] at hqr
      cases hqr
    · rw [hpod] at hs
      exact absurd hb (spared_iff.1 (hs p hp))
  | some c =>
    have hn := hn c hc
    have hpr := status_primary_of_some hc
    obtain ⟨hcr, rfl⟩ : ((v.aggregation codec cluster).listed c).ready ∧
        (v.aggregation codec cluster).listed c = primary := by
      simpa [readyPrimary, hpr, filter_some] using hr
    simp only [hc] at h
    refine ⟨?_, ?_⟩
    · rcases h with hre | h
      · -- the candidate is the other primary
        exact ⟨c, mem_of_find?_eq_some hc, hn.symm, hre, hcr⟩
      · rw [listed_pod] at hb
        exact (h p hp hn hs).resolve_left fun hsp => spared_iff.1 hsp hb
    · intro e he
      rw [hpr] at he
      cases he
      rw [listed_pod]
      exact hn.symm

theorem ShardView.exists_of_not_trusted (hcl : standaloneReplicaEnabled cluster = false)
    (h : ¬v.Trusted codec cluster created now) :
    ∃ primary, readyPrimary (v.status codec cluster) = some primary ∧ ∃ rep ∈ (v.status codec cluster).replicas,
      rep.pod ≠ [] ∧ Reseeded created now primary.pod rep ∧
        ¬(v.aggregation codec cluster).HasOtherPrimary rep.pod := by
  unfold ShardView.Trusted at h
  cases hc : (v.aggregation codec cluster).candidate with
  | none =>
    simp only [hc] at h
    push Not at h
    obtain ⟨ord, readyReplicas, hk, hpr, hnn, p, hp, hsp⟩ := h
    have hnn' : ∀ p ∈ (v.aggregation codec cluster).members, ((v.aggregation codec cluster).listed p).ready =
        false := by
      intro p hp
      simpa using hnn p hp
    obtain ⟨primary, hpri, hpod⟩ := Option.map_eq_some_iff.1
      ((readyPrimary_status_of_none hcl hc).2 ⟨ord, readyReplicas, hk, hpr, hnn', rfl⟩)
    refine ⟨primary, hpri, (v.aggregation codec cluster).listed p, ?_, ?_, ?_, ?_⟩
    · rw [status_name.2, ((v.aggregation codec cluster).aggregate_of_candidate_eq_none hc).2]
      exact mem_map_of_mem hp
    · rw [listed_pod]
      exact p.name_ne
    · rw [hpod]
      exact not_not.1 (spared_iff.not.1 hsp)
    · rintro ⟨q, hq, -, -, hr⟩
      rw [hnn' q hq] at hr
      cases hr
  | some c =>
    simp only [hc] at h
    push Not at h
    obtain ⟨hrp, p, hp, hn, hsi, hb, ht⟩ := h
    have hs : (v.aggregation codec cluster).silentTarget c := by
      have hfn : ((v.aggregation codec cluster).counts c || (v.aggregation codec cluster).silentTarget c) := by
        simpa using find?_some hc
      simpa [counts, hrp] using hfn
    refine ⟨(v.aggregation codec cluster).listed c, ?_, (v.aggregation codec cluster).listed p, ?_, ?_, ?_, ?_⟩
    · rw [readyPrimary, status_primary_of_some hc, filter_some,
        if_pos ((v.aggregation codec cluster).listed_ready_of_silentTarget hs)]
    · rw [status_name.2]
      exact (((v.aggregation codec cluster).aggregate_of_candidate_eq_some hc).2 _).2 ⟨p, hp, hn, hsi, rfl⟩
    · rw [listed_pod]
      exact p.name_ne
    · rw [listed_pod]
      exact not_not.1 (spared_iff.not.1 hb)
    · rw [listed_pod]
      exact ht

end Status

/-! ### The condition -/

variable {created : Str → Option Int} {now : Int}

theorem reaches_reseedMembers (codec : Codec) {shards : List ShardStatus} {ss : ShardStatus} (hss : ss ∈ shards)
    {primary : ShardEndpoint} (hp : readyPrimary ss = some primary) {rep : ShardEndpoint} (hrp : rep ∈ ss.replicas)
    (hd : rep.pod ≠ []) (hb : Reseeded created now primary.pod rep) :
    ∃ w, Ends (podApi created now) (reseedMembers codec noAnnotations shards) {} () w ∧
      (ss.name, dataPvc rep.pod) ∈ w.pvcs := by
  suffices h : Reaches (podApi created now) (reseedMembers codec noAnnotations shards) {}
      fun _ w => (ss.name, dataPvc rep.pod) ∈ w.pvcs by
    obtain ⟨⟨⟩, w, he, hm⟩ := h
    exact ⟨w, he, hm⟩
  have hl : (podApi created now).Lasting fun w => (ss.name, dataPvc rep.pod) ∈ w.pvcs := lasting_pvcs _
  refine (reaches_request (quiet created now)).bind ?_
  rintro _ w ⟨⟩
  rcases hb with ⟨hr, t, hc, hold⟩ | ⟨hre, hne⟩
  · refine (reaches_reconcileStaleReplicas codec hss hp hrp hr hd hc hold _).bind ?_
    intro a w' hw'
    exact reaches_lasting hl _ hw'
  · refine (reaches_reconcileStaleReplicas_pass codec shards _).bind ?_
    rintro _ w₁ rfl
    refine (reaches_request (quiet created now)).bind ?_
    rintro _ w₂ ⟨⟩
    refine (reaches_reconcileRoguePrimaries codec hss hp hrp hre hd hne _).bind ?_
    intro a w' hw'
    exact reaches_pure hw'

/-- The cause of a reseeding: `Reseeded`, as far as the pods have been read. -/
def reseedCause (shards : List ShardStatus) (now : Int) : Cause := fun read shard name =>
  ∃ ss ∈ shards, ss.name = shard ∧ ∃ primary, readyPrimary ss = some primary ∧ ∃ rep ∈ ss.replicas, rep.pod = name ∧
    (rep.ready = false ∧ (∃ pod, (name, pod) ∈ read ∧ staleStandbyReseedTimeout ≤ now - pod.creationTimestamp) ∨
      rep.reason = roguePrimaryReason ∧ name ≠ primary.pod)

theorem grows_reseedCause (shards : List ShardStatus) (now : Int) : (reseedCause shards now).Grows := by
  rintro read pod shard name ⟨ss, hss, hn, primary, hp, rep, hrp, hd, hb⟩
  refine ⟨ss, hss, hn, primary, hp, rep, hrp, hd, hb.imp_left ?_⟩
  rintro ⟨hr, obj, ho, hold⟩
  exact ⟨hr, obj, mem_append_left _ ho, hold⟩

/-- Whatever is deleted has a cause in the status. -/
theorem after_reseedMembers (codec : Codec) (annotations : Annotations) (shards : List ShardStatus) :
    After (podApi created now) (reseedMembers codec annotations shards) {}
      fun _ w => w.Within (reseedCause shards now) := by
  have hg := grows_reseedCause shards now
  have he : Done.Within (reseedCause shards now) {} := ⟨by simp, by simp⟩
  -- the clock is read twice, and stands at `now` both times
  have hnow : ∀ w, After (podApi created now) timeNow w fun t w' => t = now ∧ w' = w := by
    rintro w t w' h
    obtain ⟨c, hc⟩ := after_request (I := ReseedApi) (r := .now) t w' h
    cases hc
    exact ⟨c.2.1, rfl⟩
  refine (hnow _).bind ?_
  rintro t _ ⟨rfl, rfl⟩
  refine After.bind (Q := fun _ w => w.Within (reseedCause shards t)) ?_ ?_
  · intro r w hr
    refine after_reconcileStaleReplicas hg ?_ annotations he r w (ends_anyApi hr)
    rintro read shard name ⟨-, ss, hss, hn, hp, ⟨rep, hrp, hr, hd⟩, hold⟩
    obtain ⟨primary, hp⟩ := isSome_iff_exists.1 hp
    exact ⟨ss, hss, hn, primary, hp, rep, hrp, hd, .inl ⟨hr, hold⟩⟩
  intro r w hw
  refine (hnow w).bind ?_
  rintro t _ ⟨rfl, rfl⟩
  refine After.bind (Q := fun _ w => w.Within (reseedCause shards t)) ?_ fun _ w' hw' => after_pure hw'
  intro r' w' hr
  refine after_reconcileRoguePrimaries hg ?_ r.1 hw r' w' (ends_anyApi hr)
  rintro read shard name ⟨ss, hss, hn, primary, hp, hne, rep, hrp, hre, hd⟩
  exact ⟨ss, hss, hn, primary, hp, rep, hrp, hd, .inr ⟨hre, hne⟩⟩

/-- A claim that was deleted belongs to a pod that was reseeded. -/
theorem reseeded_of_deleted {codec : Codec} {annotations : Annotations} {shards : List ShardStatus} {w : Done}
    (he : Ends (podApi created now) (reseedMembers codec annotations shards) {} () w) {d : Str × Str}
    (hd : d ∈ w.pvcs) :
    ∃ ss ∈ shards, ss.name = d.1 ∧ ∃ primary, readyPrimary ss = some primary ∧ ∃ rep ∈ ss.replicas,
      d.2 = dataPvc rep.pod ∧ Reseeded created now primary.pod rep := by
  obtain ⟨pod, hpc, ss, hss, hn, primary, hpr, rep, hr, rfl, hb⟩ :=
    (after_reseedMembers codec annotations _ _ _ he).pvcs d hd
  refine ⟨ss, hss, hn, primary, hpr, rep, hr, hpc, hb.imp_left ?_⟩
  rintro ⟨hre, obj, ho, hold⟩
  exact ⟨hre, _, after_podApi _ (by simp) () w he _ ho, hold⟩

/-- A Reconcile at this time, with pods of these ages, keeps a good copy whatever the API server answers exactly if
all shards can be trusted, or if it reseeds nothing. -/
theorem good_copy_kept_iff (codec : Codec) (x : ReconcileView) (created : Str → Option Int) (now : Int) :
    KeepsGoodCopy codec x created now ↔ standaloneReplicaEnabled x.cluster ∨ x.stopped ∨
      ∀ v ∈ x.shards, v.Trusted codec x.cluster created now := by
  by_cases hs : (standaloneReplicaEnabled x.cluster || x.stopped)
  · have hnt : KeepsGoodCopy codec x created now := by
      intro annotations w he d hd
      rw [ReconcileView.reseed, if_pos hs] at he
      obtain ⟨-, rfl⟩ := ends_pure.1 he
      cases hd
    have hc := Bool.or_eq_true_iff.1 hs
    exact ⟨fun _ => hc.imp_right .inl, fun _ => hnt⟩
  · obtain ⟨hcl, hsto⟩ : standaloneReplicaEnabled x.cluster = false ∧ x.stopped = false := by
      simpa using hs
    rw [hcl, hsto]
    simp only [Bool.false_eq_true, false_or]
    constructor
    · intro h v hv
      by_contra ht
      obtain ⟨primary, hpr, rep, hr, hpd, hb, hnn⟩ := ShardView.exists_of_not_trusted hcl ht
      have hss : v.status codec x.cluster ∈ x.shardStatuses codec := mem_map_of_mem hv
      obtain ⟨w, he, hm⟩ := reaches_reseedMembers codec hss hpr hr hpd hb
      have he' : Ends (podApi created now) (x.reseed codec noAnnotations) {} () w := by
        rw [ReconcileView.reseed, if_neg hs]
        exact he
      obtain ⟨v', hv', hid, p, -, hpc, ho, -⟩ := h noAnnotations w he' _ hm
      -- the shard of the deletion is `v`, since each is there once
      have hvv : v' = v := inj_on_of_nodup_map x.shards_nodup hv' hv (hid.trans status_name.1)
      subst hvv
      rw [← dataPvc_inj hpc] at ho
      exact hnn ho
    · intro ht annotations w he d hd
      rw [ReconcileView.reseed, if_neg hs] at he
      obtain ⟨ss, hss, hn, primary, hpr, rep, hr, hpc, hb⟩ := reseeded_of_deleted he hd
      obtain ⟨v, hv, rfl⟩ := mem_map.1 hss
      obtain ⟨p, hp, hrp, ho, hne⟩ := (ht v hv).hasOtherPrimary hcl hpr hr hb
      exact ⟨v, hv, status_name.1.symm.trans hn, p, hp, by rw [hpc, hrp], ho, hne⟩

def silentPod : Pod where
  name := "demo-shard-0-0"
  labels key := if key = "postgres.keiailab.io/shard" then "0" else []
  conditions := [⟨"Ready", "True"⟩]
  name_ne := firstPod_ne

def lonelyShard : ShardView where
  kind := .ordinal 0 (some 1)
  pods := some ⟨[silentPod], by decide +kernel⟩
  pvcs := some [⟨"data-demo-shard-0-0", fun _ => []⟩]
  now := 20 * minute

def lonelyReconcile : ReconcileView where
  cluster := demoCluster
  shards := [lonelyShard]
  shards_nodup := by decide +kernel

def oldPod (name : Str) : Except ApiError Pod :=
  if h : name = [] then .error (.notFound name) else .ok { name, name_ne := h }

/-- All pods are there and were created at the beginning, and every request succeeds. -/
def oldPods : (podApi (fun _ => some 0) (20 * minute)).Choice where
  val
    | .now => 20 * minute
    | .mark _ => ()
    | .getPod name => oldPod name
    | .getNode _ => .ok []
    | .patchAnnotations annotations => .ok annotations
    | .getPvc _ | .deletePvc _ | .deletePod _ _ | .clearFinalizers _ => .ok ()
  property := by
    refine ⟨rfl, ?_⟩
    intro name pod h
    change oldPod name = .ok pod at h
    unfold oldPod at h
    split at h
    · cases h
    · cases h
      rfl

/-- The claim of the only pod, which is twenty minutes old, is deleted, and the same Reconcile calls it the ready
primary. -/
theorem only_copy_deleted :
    (lonelyShard.status demoCodec demoCluster).primary.map (fun e => (e.pod, e.ready)) = some
    (str "demo-shard-0-0", true) ∧
    ¬(lonelyShard.aggregation demoCodec demoCluster).HasOtherPrimary "demo-shard-0-0" ∧
    ∃ w, Ends (podApi (fun _ => some 0) (20 * minute)) (lonelyReconcile.reseed demoCodec noAnnotations) {} () w ∧
      (str "shard-0", dataPvc (str "demo-shard-0-0")) ∈ w.pvcs := by
  refine ⟨by decide +kernel, by decide +kernel, _, ends_eval oldPods _ _, ?_⟩
  decide +kernel

end PostgresOperator.Cluster
