import PostgresOperator.Calls.History
import PostgresOperator.Cluster.Guard
import PostgresOperator.Instance.Bootstrap

/-!
# The one empty database of a shard

The members of a shard start with the endpoint that the operator has put into the template of their StatefulSet, from
the status that it had recorded then.  A member makes an empty database exactly if it is the first member, without
data, and that status did not name another member as primary (`script_eq_initdb_iff`).

So after a bootstrap the danger is a first member without data.  The shard is `settled` against it when the recorded
primary, the template and the pod of the first member all name another member.  Every step keeps it so if the steps
are `careful`: the data of the first member is not deleted before the shard is settled, and as long as it is missing
the cluster is not stopped, and what a Reconcile observes of the shard does not make the first member its primary.  A
lapse of the observation does no harm, since the last primary is kept.  A reseeding after a failover is not careful:
it deletes the data of the old primary before the template names the new one.
-/

namespace PostgresOperator.Cluster

open Go Calls Instance Option Function

/-! ### The endpoint -/

def recordedEndpoint (cluster : PostgresCluster) (ord : Int) : Option Str :=
  cluster.shards.findSome? fun shard =>
    if shard.ordinal ≠ ord then none
    else shard.primary.bind fun p =>
      if p.endpoint ≠ [] then some p.endpoint
      else if p.pod ≠ [] then some (defaultEndpoint p.pod (shardServiceName cluster.name ord) cluster.ns)
      else none

def primaryEndpointForShard (cluster : PostgresCluster) (ord replicas : Int) (source : Option Str) (stopped : Bool) :
    Str :=
  match source with
  | some endpoint => endpoint
  | none =>
    if stopped then []
    else match recordedEndpoint cluster ord with
      | some endpoint => endpoint
      | none =>
        if 0 < replicas then
          defaultEndpoint (memberPod (shardStatefulSetName cluster.name ord) 0)
            (shardServiceName cluster.name ord) cluster.ns
        else []

structure Template where
  cluster : PostgresCluster
  replicas : Int
  source : Option Str := none
  stopped : Bool := false

def Template.env (t : Template) (ord : Int) (n : Nat) : BootEnv where
  podName := memberPod (shardStatefulSetName t.cluster.name ord) n
  primaryEndpoint := primaryEndpointForShard t.cluster ord t.replicas t.source t.stopped
  memberCount := if t.stopped then 0 else 1 + t.replicas
  replicaCluster := t.source.isSome

/-- The endpoint that the template was rendered with is that of another member than the first. -/
def Template.namesOther (t : Template) (ord : Int) : Bool :=
  !t.stopped && (recordedEndpoint t.cluster ord).any fun e =>
    !primaryIsSelf (memberPod (shardStatefulSetName t.cluster.name ord) 0) e

/-! ### The members -/

/-- The shard: the recorded status, the template, the template that each pod was made from, the members with a PGDATA,
and whether a member has ever completed a bootstrap. -/
structure ShardData where
  cluster : PostgresCluster
  template : Option Template := none
  pod : Nat → Option Template := fun _ => none
  initialised : Nat → Bool := fun _ => false
  bootstrapped : Bool := false

inductive MemberStep
  /-- A Reconcile updates the StatefulSet. -/
  | render (replicas : Int) (source : Option Str) (stopped : Bool)
  /-- A Reconcile records what it has observed of the shard, among other shards. -/
  | record (stopped primaryReady : Bool) (observed : ShardStatus) (before after : List ShardStatus)
  | createPod (n : Nat)
  /-- The claim of the member is deleted. -/
  | deleteData (n : Nat)
  /-- The init container runs; `copied` says whether a pg_basebackup would succeed. -/
  | boot (n : Nat) (copied : Bool)

namespace ShardData

variable (ord : Int) (w : ShardData)

def complete (n : Nat) : ShardData := { w with initialised := update w.initialised n true, bootstrapped := true }

/-- What the script does in the pod of the member, if there is one. -/
def script (n : Nat) : Option Bootstrap :=
  (w.pod n).map fun t => bootstrap (t.env ord n) { version := w.initialised n }

def step : MemberStep → ShardData
  | .render replicas source stopped => { w with template := some { cluster := w.cluster, replicas, source, stopped } }
  | .record stopped primaryReady observed before after =>
    let entry := if stopped then { name := observed.name, ordinal := ord }
      else withFallback w.cluster ord primaryReady observed
    { w with cluster := { w.cluster with shards := before ++ entry :: after } }
  | .createPod n => { w with pod := update w.pod n w.template }
  | .deleteData n => { w with initialised := update w.initialised n false }
  | .boot n copied =>
    match w.script ord n with
    | some .basebackup => if copied then w.complete n else w
    | some .initdb => w.complete n
    | _ => w

def after (steps : List MemberStep) : ShardData := steps.foldl (fun w s => w.step ord s) w

/-- An empty database is made only if no member has ever completed a bootstrap. -/
def InitdbFirst (s : MemberStep) : Prop := ∀ n copied, s = .boot n copied → w.script ord n = some .initdb →
    w.bootstrapped = false

/-- After a bootstrap, the first member has no data. -/
def emptied : Bool := w.bootstrapped && !w.initialised 0

/-- A primary of the shard that is another member than the first, with its endpoint. -/
def isOther (p : ShardEndpoint) : Bool :=
  p.pod ≠ [] && p.endpoint ≠ [] && !primaryIsSelf (memberPod (shardStatefulSetName w.cluster.name ord) 0) p.endpoint

/-- After this observation the recorded primary is another member than the first if it was before: where nothing is
observed the last one is kept, but not in a standalone replica. -/
def keepsOther : Option ShardEndpoint → Bool
  | some p => if p.pod = [] then !standaloneReplicaEnabled w.cluster else w.isOther ord p
  | none => !standaloneReplicaEnabled w.cluster

/-- The first member cannot make an empty database: the recorded primary is another member, and so is the one that the
template and its pod name, if they do not name an external source. -/
def settled : Bool :=
  ((w.cluster.shards.find? fun s => s.ordinal = ord).bind ShardStatus.primary).any (w.isOther ord) &&
    w.template.all (fun t => t.source.isSome || t.namesOther ord) &&
    (w.pod 0).all fun t => t.source.isSome || t.namesOther ord

/-- The step keeps the shard settled while the first member has no data, and does not delete them before it is. -/
def careful : MemberStep → Bool
  | .render _ source stopped => !w.emptied || source.isSome || !stopped
  | .record stopped _ observed before _ =>
    !w.emptied ||
      !stopped && observed.ordinal = ord && before.all (fun s => s.ordinal ≠ ord) && w.keepsOther ord observed.primary
  | .createPod _ => true
  | .deleteData n => n ≠ 0 || !w.bootstrapped || !w.initialised 0 || w.settled ord
  -- before any bootstrap there is nothing in the shard to copy from
  | .boot n copied => n = 0 || !copied || w.bootstrapped || w.initialised 0 || w.settled ord

end ShardData

/-! ### When the script makes an empty database -/

theorem primaryIsSelf_default (pod svc ns : Str) : primaryIsSelf pod (defaultEndpoint pod svc ns) := by
  have hp : str ".svc.cluster.local:5432" = str ".svc.cluster.local" ++ byte ':' :: str "5432" := by decide +kernel
  have hc : byte ':' ∉ str "5432" := by decide +kernel
  have hs : splitLast ':' (defaultEndpoint pod svc ns) =
      some (pod ++ str "." ++ svc ++ str "." ++ ns ++ str ".svc.cluster.local", str "5432") := by
    rw [defaultEndpoint, hp, ← List.append_assoc]
    exact splitLast_append _ hc
  have hne : defaultEndpoint pod svc ns ≠ [] := by
    intro hn
    rw [hn] at hs
    cases hs
  simp [primaryIsSelf, primaryHost, hs, hne]

variable {ord : Int}

theorem recordedEndpoint_ne_nil {cluster : PostgresCluster} {e : Str} (h : recordedEndpoint cluster ord = some e) :
    e ≠ [] := by
  obtain ⟨shard, -, hs⟩ := List.exists_of_findSome?_eq_some h
  split at hs
  · cases hs
  obtain ⟨p, -, hp⟩ := bind_eq_some_iff.1 hs
  split at hp
  · cases hp
    assumption
  split at hp
  · cases hp
    simp [defaultEndpoint, str]
  · cases hp

theorem podOrdinal_memberPod {sts : Str} {n : Nat} : podOrdinal (memberPod sts n) = "0" ↔ n = 0 := by
  have hz : "0" = itoaNat 0 := by decide
  rw [podOrdinal, splitLast_memberPod, hz]
  exact itoaNat_injective.eq_iff

theorem Template.not_namesOther {t : Template} (hs : t.source = none) :
    t.namesOther ord = false ↔ (t.env ord 0).primaryEndpoint = [] ∨
      primaryIsSelf (t.env ord 0).podName (t.env ord 0).primaryEndpoint := by
  cases hsto : t.stopped with
  | true => simp [Template.namesOther, Template.env, primaryEndpointForShard, hs, hsto]
  | false =>
    cases hr : recordedEndpoint t.cluster ord with
    | some e =>
      have hne := recordedEndpoint_ne_nil hr
      simp [Template.namesOther, Template.env, primaryEndpointForShard, hs, hsto, hr, hne]
    | none =>
      have hn : t.namesOther ord = false := by simp [Template.namesOther, hr]
      refine iff_of_true hn ?_
      by_cases hp : 0 < t.replicas
      · refine .inr ?_
        simp only [Template.env, primaryEndpointForShard, hs, hsto, hr, hp]
        exact primaryIsSelf_default _ _ _
      · exact .inl (by simp [Template.env, primaryEndpointForShard, hs, hsto, hr, hp])

/-- Only member 0 runs `initdb`, on an empty volume, and only if no one else is named as primary. -/
theorem script_eq_initdb_iff {w : ShardData} {n : Nat} : w.script ord n = some .initdb ↔
    n = 0 ∧ ∃ t, w.pod 0 = some t ∧ w.initialised 0 = false ∧ t.source = none ∧ t.namesOther ord = false := by
  unfold ShardData.script
  constructor
  · intro h
    obtain ⟨t, ht, hini⟩ := map_eq_some_iff.1 h
    obtain ⟨hd, hr, he, hz⟩ := bootstrap_eq_initdb_iff.1 hini
    obtain rfl := podOrdinal_memberPod.1 hz
    have hs : t.source = none := by simpa [Template.env] using hr
    exact ⟨rfl, t, ht, hd, hs, (Template.not_namesOther hs).2 he⟩
  · rintro ⟨rfl, t, ht, hd, hs, hn⟩
    rw [ht, map_some, Option.some.injEq, bootstrap_eq_initdb_iff]
    exact ⟨hd, by simp [Template.env, hs], (Template.not_namesOther hs).1 hn, podOrdinal_memberPod.2 rfl⟩

/-! ### The invariant -/

namespace ShardData

variable {w : ShardData} {s : MemberStep}

theorem settled_iff : w.settled ord ↔
    (∃ s p, w.cluster.shards.find? (fun s => s.ordinal = ord) = some s ∧ s.primary = some p ∧ w.isOther ord p) ∧
      (∀ t ∈ w.template, t.source.isSome ∨ t.namesOther ord) ∧ ∀ t ∈ w.pod 0, t.source.isSome ∨ t.namesOther ord := by
  simp only [settled, Bool.and_eq_true, Option.any_eq_true, Option.all_eq_true, bind_eq_some_iff, Bool.or_eq_true,
    and_assoc]
  refine and_congr ?_ Iff.rfl
  constructor
  · rintro ⟨p, ⟨s, hs, hp⟩, ho⟩
    exact ⟨s, p, hs, hp, ho⟩
  · rintro ⟨s, p, hs, hp, ho⟩
    exact ⟨p, ⟨s, hs, hp⟩, ho⟩

theorem isOther_iff {p : ShardEndpoint} : w.isOther ord p ↔ p.pod ≠ [] ∧ p.endpoint ≠ [] ∧
    primaryIsSelf (memberPod (shardStatefulSetName w.cluster.name ord) 0) p.endpoint = false := by
  simp [isOther, and_assoc]

/-- What `primaryEndpointForShard` and the fallback of the status make of a recorded primary that is another
member. -/
theorem recorded_of_isOther {p : ShardEndpoint} {e : ShardStatus}
    (he : w.cluster.shards.find? (fun s => s.ordinal = ord) = some e) (hp : e.primary = some p)
    (h : w.isOther ord p) :
    recordedEndpoint w.cluster ord = some p.endpoint ∧ fallbackEndpoint w.cluster ord = (p.pod, p.endpoint) := by
  obtain ⟨hd, hne, -⟩ := isOther_iff.1 h
  obtain ⟨hord, before, after, hsh, hb⟩ := List.find?_eq_some_iff_append.1 he
  have ho : e.ordinal = ord := by simpa using hord
  have hb' : ∀ s ∈ before, s.ordinal ≠ ord := fun s hs => by simpa using hb s hs
  constructor
  · unfold recordedEndpoint
    rw [hsh, List.findSome?_append, List.findSome?_eq_none_iff.2 fun s hs => if_pos (hb' s hs)]
    simp [ho, hp, hne]
  · unfold fallbackEndpoint
    rw [hsh, List.findSome?_append, List.findSome?_eq_none_iff.2 fun s hs => by simp [hb' s hs]]
    simp [ho, hp, hd, hne, Option.filter]

theorem withFallback_of_unnamed {cluster : PostgresCluster} {primaryReady : Bool} {observed : ShardStatus}
    {pod endpoint : Str} (hst : standaloneReplicaEnabled cluster = false)
    (hn : observed.primary.all fun p => p.pod = []) (hfb : fallbackEndpoint cluster ord = (pod, endpoint)) :
    withFallback cluster ord primaryReady observed = { observed with
      primary := some { pod, endpoint, ready := fallbackPrimaryReady primaryReady observed.replicas } } := by
  unfold withFallback
  rw [hn, hst, Bool.not_false, Bool.and_self, if_pos rfl, hfb]

theorem withFallback_of_named {cluster : PostgresCluster} {primaryReady : Bool} {observed : ShardStatus}
    {p : ShardEndpoint} (hop : observed.primary = some p) (hp : p.pod ≠ []) :
    withFallback cluster ord primaryReady observed = observed := by
  unfold withFallback
  rw [hop, if_neg (by simp [hp])]

/-- A status that keeps another primary keeps the shard settled. -/
theorem settled_record (hs : w.settled ord) {observed : ShardStatus} {before after : List ShardStatus}
    {primaryReady : Bool}
    (ho : observed.ordinal = ord) (hb : ∀ s ∈ before, s.ordinal ≠ ord)
    (hp : w.keepsOther ord observed.primary) :
    (w.step ord (.record false primaryReady observed before after)).settled ord := by
  obtain ⟨⟨e, q, he, hq, hqo⟩, ht, hpod⟩ := settled_iff.1 hs
  obtain ⟨-, hfb⟩ := recorded_of_isOther he hq hqo
  refine settled_iff.2 ⟨?_, ht, hpod⟩
  have hfind : ∀ entry : ShardStatus, entry.ordinal = ord →
      (before ++ entry :: after).find? (fun s => s.ordinal = ord) = some entry := by
    intro entry hentry
    rw [List.find?_append, List.find?_eq_none.2 fun s hs => by simpa using hb s hs]
    simp [hentry]
  have hkept : standaloneReplicaEnabled w.cluster = false → (observed.primary.all fun p => p.pod = []) →
      ∃ s p, (before ++ withFallback w.cluster ord primaryReady observed :: after).find? (fun s => s.ordinal = ord) =
        some s ∧
        s.primary = some p ∧ w.isOther ord p := by
    intro hst hn
    rw [withFallback_of_unnamed hst hn hfb]
    exact ⟨_, _, hfind _ ho, rfl, hqo⟩
  cases hop : observed.primary with
  | none =>
    rw [hop] at hp
    exact hkept (by simpa [keepsOther] using hp) (by rw [hop]; rfl)
  | some p =>
    rw [hop] at hp
    simp only [keepsOther] at hp
    split at hp
    · rename_i hpe
      exact hkept (by simpa using hp) (by rw [hop]; simpa using hpe)
    · rename_i hpe
      refine ⟨observed, p, ?_, hop, hp⟩
      change (before ++ withFallback w.cluster ord primaryReady observed :: after).find? _ = _
      rw [withFallback_of_named hop hpe]
      exact hfind observed ho

/-- A template that is rendered from a settled record names the other primary. -/
theorem settled_render (hs : w.settled ord) {replicas : Int} {source : Option Str} {stopped : Bool}
    (h : source.isSome ∨ stopped = false) : (w.step ord (.render replicas source stopped)).settled ord := by
  obtain ⟨⟨e, q, he, hq, hqo⟩, ht, hpod⟩ := settled_iff.1 hs
  refine settled_iff.2 ⟨⟨e, q, he, hq, hqo⟩, ?_, hpod⟩
  rintro t ⟨⟩
  refine h.imp_right ?_
  rintro rfl
  simp [Template.namesOther, (recorded_of_isOther he hq hqo).1, (isOther_iff.1 hqo).2.2]

theorem settled_deleteData {n : Nat} (hi : w.emptied → w.settled ord) (hc : w.careful ord (.deleteData n)) :
    (w.step ord (.deleteData n)).emptied → (w.step ord (.deleteData n)).settled ord := by
  intro he
  by_cases hn : n = 0
  · subst hn
    have hb : w.bootstrapped := (Bool.and_eq_true_iff.1 he).1
    change w.settled ord
    cases hd : w.initialised 0 with
    | false => exact hi (by simp [emptied, hb, hd])
    | true => simpa [careful, hb, hd] using hc
  · have he' : w.emptied := by simpa [emptied, step, update_of_ne (Ne.symm hn)] using he
    exact hi he'

/-- A member other than the first gets data only once the first has had some, or the shard is settled. -/
theorem settled_complete {n : Nat} (hi : w.emptied → w.settled ord) (hn : n ≠ 0)
    (hb : w.bootstrapped ∨ w.settled ord ∨ w.initialised 0) :
    (w.complete n).emptied → (w.complete n).settled ord := by
  intro he
  have hd : w.initialised 0 = false := by simpa [emptied, complete, update_of_ne (Ne.symm hn)] using he
  rcases hb with hb | hs | hd'
  · exact hi (by simp [emptied, hb, hd])
  · exact hs
  · rw [hd] at hd'
    cases hd'

theorem settled_boot {n : Nat} {copied : Bool} (hi : w.emptied → w.settled ord)
    (hc : w.careful ord (.boot n copied)) :
    (w.step ord (.boot n copied)).emptied → (w.step ord (.boot n copied)).settled ord := by
  have hzero : ¬ (w.complete 0).emptied := by simp [emptied, complete]
  unfold step
  dsimp only
  split
  · rename_i hs
    split
    · rename_i hcp
      by_cases hn : n = 0
      · subst hn
        exact fun he => absurd he hzero
      · refine settled_complete hi hn ?_
        simp only [careful, hn, hcp, decide_false, Bool.not_true, Bool.false_or, Bool.or_eq_true] at hc
        tauto
    · exact hi
  · rename_i hs
    obtain ⟨rfl, -⟩ := script_eq_initdb_iff.1 hs
    exact fun he => absurd he hzero
  · exact hi

/-- A step that is careful keeps the shard settled as long as the first member has no data. -/
theorem settled_step (hi : w.emptied → w.settled ord) (hc : w.careful ord s) :
    (w.step ord s).emptied → (w.step ord s).settled ord := by
  cases s with
  | render replicas source stopped =>
    intro he
    have he' : w.emptied := he
    refine settled_render (hi he') ?_
    simpa [careful, he'] using hc
  | record stopped primaryReady observed before after =>
    intro he
    have he' : w.emptied := he
    simp only [careful, he', Bool.not_true, Bool.false_or, Bool.and_eq_true, Bool.not_eq_true', decide_eq_true_eq,
      List.all_eq_true] at hc
    obtain ⟨⟨⟨rfl, ho⟩, hb⟩, hp⟩ := hc
    exact settled_record (hi he') ho hb hp
  | createPod n =>
    intro he
    obtain ⟨hr, ht, hpod⟩ := settled_iff.1 (hi he)
    refine settled_iff.2 ⟨hr, ht, ?_⟩
    by_cases hn : n = 0
    · subst hn
      simpa [step] using ht
    · simpa [step, update_of_ne (Ne.symm hn)] using hpod
  | deleteData n => exact settled_deleteData hi hc
  | boot n copied => exact settled_boot hi hc

/-- While the record is settled, an emptied volume is not initialised again. -/
theorem initdbFirst_of_settled (hi : w.emptied → w.settled ord) : w.InitdbFirst ord s := by
  rintro n copied rfl hs
  obtain ⟨rfl, t, ht, hd, hso, hn⟩ := script_eq_initdb_iff.1 hs
  by_contra hb
  have he : w.emptied := by simpa [emptied, hd] using hb
  rcases (settled_iff.1 (hi he)).2.2 t ht with h | h
  · rw [hso] at h
    cases h
  · rw [hn] at h
    cases h

end ShardData

/-- In every run whose steps are careful, an empty database is made only before any bootstrap. -/
theorem initialised_once (ord : Int) (cluster : PostgresCluster) (steps : List MemberStep)
    (h : EachStep (fun before s => (ShardData.after ord { cluster } before).careful ord s) steps) :
    EachStep (fun before s => (ShardData.after ord { cluster } before).InitdbFirst ord s) steps := by
  refine (EachStep.of_invariant (fun before => (ShardData.after ord { cluster } before).emptied →
    (ShardData.after ord { cluster } before).settled ord) (by rintro ⟨⟩) ?_ h).1
  intro before s hi hc
  refine ⟨ShardData.initdbFirst_of_settled hi, ?_⟩
  rw [ShardData.after, List.foldl_append]
  exact ShardData.settled_step hi hc

def shardPrimary (pod endpoint : String) : ShardStatus where
  name := "shard-0"
  ordinal := 0
  primary := some { pod := str pod, endpoint := str endpoint, ready := true }

def twoMembersUp : List MemberStep :=
  [.render 1 none false, .createPod 0, .boot 0 true,
    .record false true
    (shardPrimary "demo-shard-0-0" "demo-shard-0-0.demo-shard-0-headless.default.svc.cluster.local:5432") [] [],
    .render 1 none false, .createPod 1, .boot 1 true]

/-- The second member is promoted, recorded and rendered, the first one gets a pod from that template, and only then
is its data deleted.  In between the status lapses.  It is seeded from the second member. -/
theorem initialised_once_handover :
    let steps := twoMembersUp ++
      [.record false true
        (shardPrimary "demo-shard-0-1" "demo-shard-0-1.demo-shard-0-headless.default.svc.cluster.local:5432") [] [],
        .render 1 none false, .createPod 0, .deleteData 0,
        .record false true { name := "shard-0", ordinal := 0 } [] [],
        .render 1 none false, .boot 0 true]
    EachStep (fun before s => (ShardData.after 0 { cluster := demoCluster } before).InitdbFirst 0 s) steps ∧
      (ShardData.after 0 { cluster := demoCluster } steps).initialised 0 :=
  ⟨initialised_once 0 demoCluster _ (by decide +kernel), by decide +kernel⟩

/-- Two members; the first fails, the second is promoted, and the data of the first is deleted before the template is
updated. -/
def failoverSteps : List MemberStep := twoMembersUp ++ [.deleteData 0, .createPod 0, .boot 0 true]

/-- The second member has the data, and the first makes an empty database again. -/
theorem reseeded_member_is_initialised_again :
    ¬ EachStep (fun before s => (ShardData.after 0 { cluster := demoCluster } before).InitdbFirst 0 s) failoverSteps ∧
      (ShardData.after 0 { cluster := demoCluster } (failoverSteps.take 9)).initialised 1 := by
  refine ⟨fun h => ?_, by decide +kernel⟩
  have hf : (ShardData.after 0 { cluster := demoCluster } (failoverSteps.take 9)).script 0 0 = some .initdb ∧
      (ShardData.after 0 { cluster := demoCluster } (failoverSteps.take 9)).bootstrapped := by decide +kernel
  have hfr := h ⟨9, by decide⟩ 0 true rfl hf.1
  exact absurd (hfr.symm.trans hf.2) nofun

end PostgresOperator.Cluster
