import PostgresOperator.Reshard.Reconcile

/-!
# The resharding protocol

What the controller may do to the objects of the API server, and when: one step for each kind of request that changes
something, with the condition under which it is made.  A condition speaks of the present world or of what the job has
seen earlier in the run while its status was what it is now.  It is this protocol, and not the code of `Reconcile`,
that the safety properties follow from; `Refinement.lean` shows that `Reconcile` keeps to it.

`Act` lists the requests of a job, `Transition` the changes of its status with what has to be done before each, and
`ProtocolStep` adds the events of the cluster.  A `Protocol` is a history all of whose steps are such.

Two facts hold whoever makes a step.  No Job is deleted and none that has succeeded is taken back
(`ProtocolStep.grows`), so what a job waited for stays done.  A `ShardRange` never returns to an earlier version
(`ProtocolStep.rangeAges`), so an update made with a version that was read is refused, or nothing has changed since
(`Protocol.rangeOf_past`).
-/

namespace PostgresOperator

open Go Calls

abbrev Hist := Run (Label Str Req) World

/-! ### What is read off a world -/

variable (n : Str) (w : World) (ssj : ShardSplitJob) (op : Operator) (h : Hist)

/-- The job `n` is stored as `ssj`, up to the annotations, which users edit. -/
def Loaded (w : World) : Prop :=
  ∃ a, w.splitJobs.lookup n = some { ssj with annotations := a }

def World.rangeOf (spec : ShardSplitJobSpec) : Option (Σ _ : Str, ShardRange) :=
  w.shardRanges.entries.find? (inKeyspace spec)

def writeBlocked (spec : ShardSplitJobSpec) (w : World) : Bool := (w.rangeOf spec).any fun e => e.2.spec.writeBlocked

def jobSucceeded (name : Str) : Bool := (w.jobs.lookup name).any fun job => decide (0 < job.succeeded)

def JobsDone (spec : ShardSplitJobSpec) (mode : ReshardMode) (w : World) : Prop :=
  ∀ t ∈ spec.targets, jobSucceeded w (reshardJobName spec.cluster t.shardID mode)

def SourcesExcluded (spec : ShardSplitJobSpec) (w : World) : Prop :=
  ∀ s ∈ spec.sources, s ∉ activeShards spec w.shardRanges.entries

def SourceOrdinal (spec : ShardSplitJobSpec) (srcDNS : Str) : Prop :=
  ∃ src, spec.sources.head? = some src ∧ sourceShardPodDNS spec.cluster op.ns src = some srcDNS

/-- The effect of an update of a `ShardRange` that the API server accepts. -/
def World.setRange (name : Str) (sr : ShardRange) : World :=
  { w with shardRanges := w.shardRanges.replace name ⟨sr.resourceVersion + 1, sr.spec⟩ }

def World.addJob (name : Str) (job : BatchJob) : World := { w with jobs := w.jobs.insert name job }

def World.setStatus (n : Str) (ssj : ShardSplitJob) (st : ShardSplitJobStatus) : World :=
  { w with splitJobs := w.splitJobs.replace n { ssj with status := st } }

/-! ### Conditions -/

def Seen (φ : World → Prop) (h : Hist) : Prop :=
  h.Past fun w => Loaded n ssj w ∧ φ w

def ModePhase : ReshardMode → Prop
  | .copy => ssj.status.phase = .initialCopy ∧ ssj.spec.online = false
  | .cdcSetup | .cdcFinalize => ssj.status.phase = .cdcCatchup ∧ ssj.spec.online
  | .delete => ssj.status.phase = .cleanup
  | .cdcAbort => (ssj.status.phase = .failed ∨ ssj.status.phase = .aborted) ∧ ssj.spec.online

/-- The Jobs of a mode may be made: a `cdc-finalize` Job only behind the write-block, after every `cdc-setup` Job. -/
def ModeGuard (mode : ReshardMode) (h : Hist) : Prop :=
  ModePhase ssj mode ∧ (mode = .cdcFinalize →
    JobsDone ssj.spec .cdcSetup h.world ∧ Seen n ssj (fun w => writeBlocked ssj.spec w) h)

def BlockGuard (w : World) : Prop :=
  (ssj.status.phase = .cdcCatchup ∧ ssj.spec.online ∧ JobsDone ssj.spec .cdcSetup w) ∨
    (ssj.status.phase = .cutover ∧ ssj.spec.allowForwardOnly = false)

def ReleaseGuard (w : World) : Prop :=
  ModePhase ssj .cdcAbort ∧ JobsDone ssj.spec .cdcAbort w

def SwitchStep (spec : ShardSplitJobSpec) (w w' : World) : Prop :=
  ∃ name sr, w.rangeOf spec = some ⟨name, sr⟩ ∧
    w'.rangeOf spec = some ⟨name, sr.resourceVersion + 1, splitRouting sr.spec spec⟩

def Switched (spec : ShardSplitJobSpec) (h : Hist) : Prop := h.SomeStep fun h' _ w => SwitchStep spec h'.world w

/-- A request of job `n` on `ShardRange`s was answered with an error while the status was that of `ssj`. -/
def RangeCallFailed : Prop :=
  h.SomeStep fun h' l _ => Loaded n ssj h'.world ∧
    (l = .call n .listShardRanges false ∨ ∃ name sr, l = .call n (.updateShardRange name sr) false)

def PhaseDone (n : Str) (ssj : ShardSplitJob) (h : Hist) : Prop :=
  match ssj.status.phase with
  | .initialCopy => ssj.spec.online = false → JobsDone ssj.spec .copy h.world
  | .cdcCatchup => ssj.spec.online → JobsDone ssj.spec .cdcSetup h.world ∧
      JobsDone ssj.spec .cdcFinalize h.world ∧ Seen n ssj (fun w => writeBlocked ssj.spec w) h
  | .cutover => ssj.spec.allowForwardOnly = false → Seen n ssj (fun w => writeBlocked ssj.spec w) h
  | .routingUpdate => Switched ssj.spec h ∧ Seen n ssj (fun w => writeBlocked ssj.spec w = false) h
  | .cleanup => JobsDone ssj.spec .delete h.world ∧ ∃ srcDNS, SourceOrdinal op ssj.spec srcDNS
  | _ => True

/-- A phase with a failure exit of its own fails for its own reasons; the RoutingUpdate phase fails when the keyspace
has no `ShardRange` or a request on it failed. -/
def PhaseFails : FailureReason → Prop
  | .bootstrap _ => ssj.status.phase = .bootstrap
  | .jobs _ => ssj.status.phase = .initialCopy ∨ ssj.status.phase = .cdcCatchup ∨ ssj.status.phase = .cleanup
  | .routing _ => ssj.status.phase = .routingUpdate ∧
      (Seen n ssj (fun w => w.rangeOf ssj.spec = none) h ∨ RangeCallFailed n ssj h)
  | .adopt _ _ => ssj.status.phase = .promote
  | _ => False

/-- The cleanup after a failure is complete: no `cdc-setup` Job was there, or the cleanup Jobs have succeeded and the
write-block was seen off. -/
def CleanupDone : Prop :=
  (∀ t ∈ ssj.spec.targets,
      Seen n ssj (fun w => w.jobs.lookup (reshardJobName ssj.spec.cluster t.shardID .cdcSetup) = none) h) ∨
    Seen n ssj (fun w => writeBlocked ssj.spec w = false) h

inductive Transition (op : Operator) (n : Str) (ssj : ShardSplitJob) (h : Hist) : ShardSplitJobStatus → Prop
  | unsupported (reason : FailureReason) (t : Nat) (hphase : ssj.status.phase ∉ [.completed, .failed, .aborted])
      (hreason : unsupportedSplitSpecReason ssj.spec = some reason) :
      Transition op n ssj h (failedStatus ssj reason t)
  | hold (hphase : ssj.status.phase = .new) :
      Transition op n ssj h { ssj.status with phase := .pending, observedGeneration := ssj.generation }
  | advance (next : ShardSplitPhase) (failure : Option FailureReason) (t : Nat)
      (hnext : nextPhase ssj.spec ssj.status.phase = (next, failure)) (hne : next ≠ ssj.status.phase)
      (hdone : PhaseDone op n ssj h) : Transition op n ssj h (advancedStatus ssj next failure t)
  | fail (reason : FailureReason) (t : Nat) (hreason : PhaseFails n ssj h reason) :
      Transition op n ssj h (failedStatus ssj reason t)
  | cleanup (status : Bool) (reason : AbortCleanupReason) (failure : Option JobsFailure)
      (hphase : ModePhase ssj .cdcAbort) (hstatus : status → CleanupDone n ssj h) :
      Transition op n ssj h (setAbortCleanupCondition ssj status reason failure)

/-! ### Steps -/

/-- The requests that job `n` may make after the run `h`, and the world that each leaves. -/
inductive Act (op : Operator) (n : Str) (h : Hist) : Req → World → Prop
  | idle (r : Req) (hr : ∀ m, r ≠ .mark m) : Act op n h r h.world
  | jobsDone (ssj : ShardSplitJob) (mode : ReshardMode) (hl : Loaded n ssj h.world)
      (hdone : JobsDone ssj.spec mode h.world) : Act op n h (.mark (.jobsDone mode)) h.world
  | blocked (ssj : ShardSplitJob) (hl : Loaded n ssj h.world) (hguard : BlockGuard ssj h.world)
      (hseen : Seen n ssj (fun w => writeBlocked ssj.spec w) h) : Act op n h (.mark .blocked) h.world
  | status (ssj : ShardSplitJob) (st : ShardSplitJobStatus) (hl : h.world.splitJobs.lookup n = some ssj)
      (htrans : Transition op n ssj h st) :
      Act op n h (.updateStatus n st) (h.world.setStatus n ssj st)
  | create (ssj : ShardSplitJob) (mode : ReshardMode) (t : ShardSplitTarget) (vindex : KeyspaceVindex)
      (srcDNS : Str) (hl : Loaded n ssj h.world) (ht : t ∈ ssj.spec.targets) (hguard : ModeGuard n ssj mode h)
      (hsrc : SourceOrdinal op ssj.spec srcDNS)
      (hvindex : h.Past fun w => ∃ e, w.rangeOf ssj.spec = some e ∧ vindex = keyspaceVindexOf e.2.spec)
      (hnone : h.world.jobs.lookup (reshardJobName ssj.spec.cluster t.shardID mode) = none) :
      Act op n h (.createJob (reshardJobName ssj.spec.cluster t.shardID mode)
          (buildReshardJob op ssj (modeJobParams op ssj.spec mode vindex srcDNS t.shardID)))
        (h.world.addJob (reshardJobName ssj.spec.cluster t.shardID mode)
          (buildReshardJob op ssj (modeJobParams op ssj.spec mode vindex srcDNS t.shardID)))
  | block (ssj : ShardSplitJob) (name : Str) (sr : ShardRange) (hl : Loaded n ssj h.world)
      (hguard : BlockGuard ssj h.world) (hrange : h.world.rangeOf ssj.spec = some ⟨name, sr⟩)
      (hoff : sr.spec.writeBlocked = false) :
      Act op n h (.updateShardRange name { sr with spec := { sr.spec with writeBlocked := true } })
        (h.world.setRange name { sr with spec := { sr.spec with writeBlocked := true } })
  | release (ssj : ShardSplitJob) (name : Str) (sr : ShardRange) (hl : Loaded n ssj h.world)
      (hguard : ReleaseGuard ssj h.world) (hrange : h.world.rangeOf ssj.spec = some ⟨name, sr⟩)
      (hon : sr.spec.writeBlocked) :
      Act op n h (.updateShardRange name { sr with spec := { sr.spec with writeBlocked := false } })
        (h.world.setRange name { sr with spec := { sr.spec with writeBlocked := false } })
  | switch (ssj : ShardSplitJob) (name : Str) (sr : ShardRange) (hl : Loaded n ssj h.world)
      (hphase : ssj.status.phase = .routingUpdate) (hrange : h.world.rangeOf ssj.spec = some ⟨name, sr⟩) :
      Act op n h (.updateShardRange name { sr with spec := splitRouting sr.spec ssj.spec })
        (h.world.setRange name { sr with spec := splitRouting sr.spec ssj.spec })
  | provision (ssj : ShardSplitJob) (name : Str) (sts : StatefulSet) (hl : Loaded n ssj h.world)
      (hphase : ssj.status.phase = .bootstrap) (hlabels : sts.labels.shardID = none)
      (htemplate : sts.templateLabels.shardID = none) :
      Act op n h (.applyStatefulSet name sts)
        { h.world with statefulSets := h.world.statefulSets.insert name sts }
  | adoptSet (ssj : ShardSplitJob) (t : ShardSplitTarget) (sts : StatefulSet) (hl : Loaded n ssj h.world)
      (hphase : ssj.status.phase = .promote) (ht : t ∈ ssj.spec.targets)
      (hseen : Seen n ssj (SourcesExcluded ssj.spec) h) (name : Str)
      (hsts : h.world.statefulSets.lookup name = some sts) :
      Act op n h (.patchStatefulSet name t.shardID)
        { h.world with statefulSets := h.world.statefulSets.replace name (sts.ensureShardID t.shardID) }
  | adoptPod (ssj : ShardSplitJob) (t : ShardSplitTarget) (pod : Pod) (hl : Loaded n ssj h.world)
      (hphase : ssj.status.phase = .promote) (ht : t ∈ ssj.spec.targets)
      (hseen : Seen n ssj (SourcesExcluded ssj.spec) h) (name : Str) (hpod : h.world.pods.lookup name = some pod) :
      Act op n h (.patchPod name t.shardID)
        { h.world with pods := h.world.pods.replace name (pod.ensureShardID t.shardID) }

def ProtocolStep : Label Str Req → World → Prop
  | .env, w => ∃ e, happen e h.world = some w
  | .call n r _, w => Act op n h r w

def Protocol : Prop := h.Steps (ProtocolStep op)

/-! ### What no step undoes -/

def BatchJob.template (job : BatchJob) : BatchJob := { job with succeeded := 0, failed := false }

def Grows (w' : World) : Prop :=
  ∀ name job, w.jobs.lookup name = some job →
    ∃ job', w'.jobs.lookup name = some job' ∧ job'.template = job.template ∧ (0 < job.succeeded → 0 < job'.succeeded)

theorem Grows.refl (w : World) : Grows w w := fun _ job h => ⟨job, h, rfl, id⟩

variable {w w' : World} {name : Str}

theorem Grows.jobSucceeded (hg : Grows w w') (h : jobSucceeded w name) : jobSucceeded w' name := by
  obtain ⟨job, hj, hs⟩ := (Option.any_eq_true _ _).1 h
  obtain ⟨job', hj', _, hs'⟩ := hg name job hj
  exact (Option.any_eq_true _ _).2 ⟨job', hj', by simpa using hs' (by simpa using hs)⟩

variable {spec : ShardSplitJobSpec}

/-- Data movement that is done stays done. -/
theorem Grows.jobsDone (hg : Grows w w') {mode : ReshardMode} (h : JobsDone spec mode w) : JobsDone spec mode w' :=
  fun t ht => hg.jobSucceeded (h t ht)

theorem finish_grows {job job' : BatchJob} {ok : Bool} (h : job.finish ok = some job') :
    job'.template = job.template ∧ (0 < job.succeeded → 0 < job'.succeeded) := by
  unfold BatchJob.finish at h
  split at h
  · cases h
  · split at h <;> cases h
    · exact ⟨rfl, fun _ => Nat.one_pos⟩
    · exact ⟨rfl, id⟩

/-- The cluster finishes Jobs, but takes none back. -/
theorem happen_grows {e : ClusterEvent} (h : happen e w = some w') : Grows w w' := by
  intro name job₀ hb₀
  rcases (happen_cases h).2.1 with hs | ⟨n, job, job', ok, hb, hf, hj⟩
  · exact ⟨job₀, by rwa [hs], rfl, id⟩
  · rw [hj]
    by_cases hn : name = n
    · subst hn
      rw [hb] at hb₀
      cases hb₀
      exact ⟨job', Store.lookup_replace_self hb job', finish_grows hf⟩
    · exact ⟨job₀, by rwa [Store.lookup_replace_of_ne _ hn], rfl, id⟩

variable {op : Operator} {h : Hist} {l : Label Str Req}

/-- No step deletes a Job or changes its template: what has succeeded stays succeeded. -/
theorem ProtocolStep.grows (hs : ProtocolStep op h l w) : Grows h.world w := by
  cases l with
  | env =>
    obtain ⟨e, he⟩ := hs
    exact happen_grows he
  | call n r ok =>
    cases hs with
    | create ssj mode t vindex srcDNS hl ht hg hsrc hv hn =>
      intro name job hj
      exact ⟨job, (Store.lookup_insert_iff hn).2 (.inr hj), rfl, id⟩
    | _ => exact Grows.refl _

/-! ### The status of a job -/

theorem happen_loaded {e : ClusterEvent} (h : happen e w = some w') {n : Str}
    {ssj : ShardSplitJob} (hl : Loaded n ssj w) : Loaded n ssj w' := by
  obtain ⟨a, ha⟩ := hl
  rcases (happen_cases h).2.2 with hs | ⟨m, uid, a', spec, hn, -, hj⟩ | ⟨m, ssj', a', hsj', hj⟩
  · exact ⟨a, by rwa [hs]⟩
  · exact ⟨a, by rw [hj]; exact (Store.lookup_insert_iff hn).2 (.inr ha)⟩
  · unfold Loaded
    rw [hj]
    by_cases hm : n = m
    · subst hm
      rw [ha] at hsj'
      cases hsj'
      exact ⟨a', Store.lookup_replace_self ha _⟩
    · exact ⟨a, (Store.lookup_replace_of_ne _ hm _).trans ha⟩

/-- Only the job itself writes its status. -/
theorem ProtocolStep.loaded (hs : ProtocolStep op h l w)
    {n : Str} (hn : ∀ st ok, l ≠ .call n (.updateStatus n st) ok) {ssj : ShardSplitJob}
    (hl : Loaded n ssj h.world) : Loaded n ssj w := by
  cases l with
  | env =>
    obtain ⟨e, he⟩ := hs
    exact happen_loaded he hl
  | call m r ok =>
    cases hs with
    | status ssj' st hl' ht =>
      have hm : n ≠ m := by
        rintro rfl
        exact hn st ok rfl
      obtain ⟨a, ha⟩ := hl
      exact ⟨a, (Store.lookup_replace_of_ne _ hm _).trans ha⟩
    | _ => exact hl

/-! ### The `ShardRange` of a keyspace -/

theorem inKeyspace_eq {spec' : ShardSplitJobSpec} {e : Σ _ : Str, ShardRange}
    (h : inKeyspace spec e) (h' : inKeyspace spec' e) : inKeyspace spec = inKeyspace spec' := by
  simp only [inKeyspace, decide_eq_true_eq] at h h'
  funext e'
  simp only [inKeyspace, ← h.1, ← h.2, ← h'.1, ← h'.2]

variable {sr : ShardRange}

theorem rangeOf_setRange (h : w.rangeOf spec = some ⟨name, sr⟩) (sr' : ShardRange)
    (hsr : sr'.spec.cluster = sr.spec.cluster ∧ sr'.spec.keyspace = sr.spec.keyspace) (spec' : ShardSplitJobSpec) :
    (w.setRange name sr').rangeOf spec' =
      if inKeyspace spec' ⟨name, sr⟩ then some ⟨name, sr'.resourceVersion + 1, sr'.spec⟩ else w.rangeOf spec' := by
  have hs : inKeyspace spec ⟨name, sr⟩ := List.find?_some h
  have hn : ∀ s : ShardSplitJobSpec,
      inKeyspace s ⟨name, sr'.resourceVersion + 1, sr'.spec⟩ = inKeyspace s ⟨name, sr⟩ := by
    intro s
    simp only [inKeyspace, hsr.1, hsr.2]
  by_cases hk : inKeyspace spec' ⟨name, sr⟩
  · rw [if_pos hk]
    rw [World.rangeOf, inKeyspace_eq hs hk] at h
    exact Store.find_replace_self h ((hn spec').trans hk)
  · rw [if_neg hk]
    exact Store.find_replace_of_not (Store.lookup_of_find h) hk (by rwa [hn])

theorem writeBlocked_setRange {sr' : ShardRange} (h : w.rangeOf spec = some ⟨name, sr⟩)
    (hsr : sr'.spec.cluster = sr.spec.cluster ∧ sr'.spec.keyspace = sr.spec.keyspace) :
    writeBlocked spec (w.setRange name sr') = sr'.spec.writeBlocked := by
  rw [writeBlocked, rangeOf_setRange h sr' hsr, if_pos (List.find?_some h)]
  rfl

def RangeAges (spec : ShardSplitJobSpec) (w w' : World) : Prop :=
  w'.rangeOf spec = w.rangeOf spec ∨
    ∃ name sr sr', w.rangeOf spec = some ⟨name, sr⟩ ∧ w'.rangeOf spec = some ⟨name, sr'⟩ ∧
      sr.resourceVersion < sr'.resourceVersion

/-- An update under a keyspace's own labels gives its `ShardRange` a newer version and keeps the others. -/
theorem setRange_ages (h : w.rangeOf spec = some ⟨name, sr⟩) {new : ShardRangeSpec}
    (hn : new.cluster = sr.spec.cluster ∧ new.keyspace = sr.spec.keyspace) (spec' : ShardSplitJobSpec) :
    RangeAges spec' w (w.setRange name { sr with spec := new }) := by
  have hs := rangeOf_setRange h { sr with spec := new } hn spec'
  by_cases hin : inKeyspace spec' ⟨name, sr⟩
  · rw [if_pos hin] at hs
    have hold : w.rangeOf spec' = some ⟨name, sr⟩ := by
      rw [World.rangeOf, inKeyspace_eq hin (List.find?_some h)]
      exact h
    exact .inr ⟨name, sr, _, hold, hs, Nat.lt_succ_self _⟩
  · rw [if_neg hin] at hs
    exact .inl hs

/-- Whatever is written to a `ShardRange` comes with a new resource version. -/
theorem ProtocolStep.rangeAges (hs : ProtocolStep op h l w) (spec : ShardSplitJobSpec) :
    RangeAges spec h.world w := by
  cases l with
  | env =>
    obtain ⟨e, he⟩ := hs
    refine .inl ?_
    rw [World.rangeOf, World.rangeOf, (happen_cases he).1]
  | call n r ok =>
    cases hs with
    | block ssj name sr hl hg hr hoff => exact setRange_ages hr (by exact ⟨rfl, rfl⟩) spec
    | release ssj name sr hl hg hr hon => exact setRange_ages hr (by exact ⟨rfl, rfl⟩) spec
    | switch ssj name sr hl hp hr => exact setRange_ages hr (by exact ⟨rfl, rfl⟩) spec
    | _ => exact .inl rfl

/-- A version that was read either is still the stored one or is outdated, so that an update with it fails. -/
theorem Protocol.rangeOf_past (hp : Protocol op h) (hps : h.Past fun w => w.rangeOf spec = some ⟨name, sr⟩) :
    ∃ sr', h.world.rangeOf spec = some ⟨name, sr'⟩ ∧ (sr' = sr ∨ sr.resourceVersion < sr'.resourceVersion) := by
  induction h with
  | start w => exact ⟨sr, hps, .inl rfl⟩
  | step h l w ih =>
    rcases hps with hps | hw
    · obtain ⟨sr₁, h₁, ha⟩ := ih hp.1 hps
      rcases hp.2.rangeAges spec with hs | ⟨name', sr₂, sr₃, h₂, h₃, hlt⟩
      · exact ⟨sr₁, hs.trans h₁, ha⟩
      · rw [h₁] at h₂
        cases h₂
        refine ⟨sr₃, h₃, .inr ?_⟩
        rcases ha with rfl | ha
        · exact hlt
        · exact ha.trans hlt
    · exact ⟨sr, hw, .inl rfl⟩

end PostgresOperator
