import PostgresOperator.Reshard.SingleJob

/-!
# Whose Job it is

`reconcileModeJobs` looks for a Job by its name, which is made of the cluster, the mode and the shard ID of a target,
and takes what it finds.  The Job that counts for a `ShardSplitJob` is its own as long as no new `ShardSplitJob` is
created whose Jobs would have a name that is already taken.
-/

namespace PostgresOperator

open Go Calls List

variable {op : Operator} {n : Str} {spec : ShardSplitJobSpec} {h : Hist} {l : Label Str Req} {w : World}

def jobNames (spec : ShardSplitJobSpec) : List Str :=
  [ReshardMode.copy, .delete, .cdcSetup, .cdcFinalize, .cdcAbort].flatMap fun mode =>
    spec.targets.map fun t => reshardJobName spec.cluster t.shardID mode

variable {name : Str}

theorem mem_jobNames :
    name ∈ jobNames spec ↔ ∃ mode, ∃ t ∈ spec.targets, reshardJobName spec.cluster t.shardID mode = name := by
  simp only [jobNames, mem_flatMap, mem_map]
  refine exists_congr fun mode => and_iff_right ?_
  cases mode <;> simp

/-- The job was built from `ssj` for the target `t` in a mode, with the vindex of the keyspace as it was read. -/
def BuiltFrom (op : Operator) (ssj : ShardSplitJob) (mode : ReshardMode) (t : ShardSplitTarget) (h : Hist)
    (job : BatchJob) : Prop :=
  ∃ vindex srcDNS, VindexSeen ssj.spec vindex h ∧ SourceOrdinal op ssj.spec srcDNS ∧
    job.template = buildReshardJob op ssj (modeJobParams op ssj.spec mode vindex srcDNS t.shardID)

/-- A `ShardSplitJob` is created only when the names of its Jobs are names neither of Jobs that are there nor of Jobs
that another `ShardSplitJob` may have. -/
def CreatedFresh (h : Hist) (_ : Label Str Req) (w : World) : Prop :=
  ∀ e ∈ w.splitJobs.entries, h.world.splitJobs.lookup e.1 = none → ∀ name ∈ jobNames e.2.spec,
    h.world.jobs.lookup name = none ∧ ∀ e' ∈ w.splitJobs.entries, e'.1 ≠ e.1 → name ∉ jobNames e'.2.spec

instance (h : Hist) (l : Label Str Req) (w : World) : Decidable (CreatedFresh h l w) :=
  inferInstanceAs (Decidable (∀ e ∈ w.splitJobs.entries, h.world.splitJobs.lookup e.1 = none →
    ∀ name ∈ jobNames e.2.spec, h.world.jobs.lookup name = none ∧
      ∀ e' ∈ w.splitJobs.entries, e'.1 ≠ e.1 → name ∉ jobNames e'.2.spec))

/-! ### The invariant -/

/-- Every Job under a name of a `ShardSplitJob` was built from it, and no two of them share a name. -/
structure OwnJobs (op : Operator) (h : Hist) : Prop where
  built : ∀ n ssj, h.world.splitJobs.lookup n = some ssj → ∀ mode, ∀ t ∈ ssj.spec.targets, ∀ job,
    h.world.jobs.lookup (reshardJobName ssj.spec.cluster t.shardID mode) = some job → BuiltFrom op ssj mode t h job
  apart : ∀ n ssj m ssj', h.world.splitJobs.lookup n = some ssj → h.world.splitJobs.lookup m = some ssj' →
    ∀ name ∈ jobNames ssj.spec, name ∈ jobNames ssj'.spec → n = m

variable {ssj : ShardSplitJob}

/-- A `ShardSplitJob` was there before with the same UID and spec, or is created by this step. -/
theorem ProtocolStep.job_origin (hs : ProtocolStep op h l w) (hj : w.splitJobs.lookup n = some ssj) :
    (∃ ssj₀, h.world.splitJobs.lookup n = some ssj₀ ∧ ssj₀.uid = ssj.uid ∧ ssj₀.spec = ssj.spec) ∨
      h.world.splitJobs.lookup n = none := by
  cases hold : h.world.splitJobs.lookup n with
  | none => exact .inr rfl
  | some ssj₀ =>
    refine .inl ⟨ssj₀, rfl, ?_⟩
    rcases hs.job_cases hold with ⟨a, ha⟩ | ⟨st, -, rfl⟩
    · rw [hj] at ha
      cases ha
      exact ⟨rfl, rfl⟩
    · have hn := lookup_setStatus hold st
      rw [hj] at hn
      cases hn
      exact ⟨rfl, rfl⟩

variable {mode : ReshardMode} {t : ShardSplitTarget} {job : BatchJob}

theorem BuiltFrom.congr {ssj' : ShardSplitJob}
    (hb : BuiltFrom op ssj mode t h job) (hu : ssj.uid = ssj'.uid) (hs : ssj.spec = ssj'.spec) :
    BuiltFrom op ssj' mode t h job := by
  unfold BuiltFrom buildReshardJob at hb ⊢
  rwa [← hu, ← hs]

theorem BuiltFrom.step {job' : BatchJob} (hb : BuiltFrom op ssj mode t h job) (hj : job'.template = job.template) :
    BuiltFrom op ssj mode t (h.step l w) job' := by
  obtain ⟨vindex, srcDNS, hv, hsrc, hbl⟩ := hb
  exact ⟨vindex, srcDNS, .inl hv, hsrc, hj.trans hbl⟩

theorem CreatedFresh.free (hc : CreatedFresh h l w) (hs : w.splitJobs.lookup n = some ssj)
    (hnn : h.world.splitJobs.lookup n = none) (hn : name ∈ jobNames ssj.spec) :
    h.world.jobs.lookup name = none ∧
      ∀ m ssj', w.splitJobs.lookup m = some ssj' → m ≠ n → name ∉ jobNames ssj'.spec := by
  obtain ⟨hj, ho⟩ := hc ⟨n, ssj⟩ (AList.mem_lookup_iff.1 hs) hnn name hn
  exact ⟨hj, fun m ssj' hs' hm => ho ⟨m, ssj'⟩ (AList.mem_lookup_iff.1 hs') hm⟩

/-- Two jobs share no Job name, now that the new one has brought only free names. -/
theorem OwnJobs.apart_step (hI : OwnJobs op h) (hs : ProtocolStep op h l w) (hc : CreatedFresh h l w)
    {m : Str} {ssj' : ShardSplitJob} (hj : w.splitJobs.lookup n = some ssj)
    (hj' : w.splitJobs.lookup m = some ssj') (hn : name ∈ jobNames ssj.spec)
    (hn' : name ∈ jobNames ssj'.spec) : n = m := by
  by_contra hne
  rcases hs.job_origin hj with ⟨ssj₀, hj₀, -, hsp⟩ | hw
  · rcases hs.job_origin hj' with ⟨ssj₁, hj₁, -, hsp'⟩ | hw'
    · rw [← hsp] at hn
      rw [← hsp'] at hn'
      exact hne (hI.apart n ssj₀ m ssj₁ hj₀ hj₁ name hn hn')
    · exact (hc.free hj' hw' hn').2 n ssj hj hne hn
  · exact (hc.free hj hw hn).2 m ssj' hj' (Ne.symm hne) hn'

/-- A Job under one of a job's names was built from that job. -/
theorem OwnJobs.built_step (hI : OwnJobs op h) (hs : ProtocolStep op h l w) (hc : CreatedFresh h l w)
    (hj : w.splitJobs.lookup n = some ssj)
    (ht : t ∈ ssj.spec.targets)
    (hjb : w.jobs.lookup (reshardJobName ssj.spec.cluster t.shardID mode) = some job) :
    BuiltFrom op ssj mode t (h.step l w) job := by
  have hn : reshardJobName ssj.spec.cluster t.shardID mode ∈ jobNames ssj.spec :=
    mem_jobNames.2 ⟨mode, t, ht, rfl⟩
  cases hold : h.world.jobs.lookup (reshardJobName ssj.spec.cluster t.shardID mode) with
  | some job₀ =>
    -- an old Job belongs to an old `ShardSplitJob`
    rcases hs.job_origin hj with ⟨ssj₀, hj₀, hu, hsp⟩ | hw
    · rw [← hsp] at ht hold
      have hb := hI.built n ssj₀ hj₀ mode t ht job₀ hold
      obtain ⟨job', hjb', hm, -⟩ := hs.grows _ job₀ hold
      rw [hsp, hjb] at hjb'
      cases hjb'
      exact (hb.congr hu hsp).step hm
    · rw [(hc.free hj hw hn).1] at hold
      cases hold
  | none =>
    -- a new Job belongs to the one that made it
    obtain ⟨m, ok, ssj₁, mode', t', vindex, srcDNS, -, ⟨a, ha⟩, ht', -, hsrc, hv, heq, hb⟩ := hs.created hold hjb
    obtain ⟨ssj₂, hj₂, hu, hsp⟩ : ∃ ssj₂, w.splitJobs.lookup m = some ssj₂ ∧ ssj₁.uid = ssj₂.uid ∧
        ssj₁.spec = ssj₂.spec := by
      rcases hs.job_cases ha with ⟨a', ha'⟩ | ⟨st, -, rfl⟩
      · exact ⟨_, ha', rfl, rfl⟩
      · exact ⟨_, lookup_setStatus ha st, rfl, rfl⟩
    rw [hsp] at ht' heq
    obtain rfl := hI.apart_step hs hc hj hj₂ hn (mem_jobNames.2 ⟨mode', t', ht', heq.symm⟩)
    obtain rfl : ssj₂ = ssj := Option.some.inj (hj₂.symm.trans hj)
    obtain ⟨rfl, hsh⟩ := reshardJobName_inj heq
    have ho : BuiltFrom op ssj₁ mode t h job := ⟨vindex, srcDNS, hv, hsrc, by rw [hb, hsh]; rfl⟩
    exact (ho.congr hu hsp).step rfl

/-- The run lemma: starting without jobs, every Job belongs to the only job that has its name. -/
theorem Protocol.ownJobs (hp : Protocol op h) (hnn : h.first.splitJobs = ∅) (hc : h.Steps CreatedFresh) :
    OwnJobs op h := by
  induction h with
  | start w =>
    have he : ∀ n ssj, (Run.start w : Hist).world.splitJobs.lookup n ≠ some ssj := by
      intro n ssj
      rw [show (Run.start w : Hist).world.splitJobs = ∅ from hnn]
      simp
    exact ⟨fun n ssj hs => absurd hs (he n ssj), fun n ssj _ _ hs => absurd hs (he n ssj)⟩
  | step h l w ih =>
    have hI := ih hp.1 hnn hc.1
    exact ⟨fun n ssj hs mode t ht job hj => hI.built_step hp.2 hc.2 hs ht hj,
      fun n ssj m ssj' hs hs' name hn hn' => hI.apart_step hp.2 hc.2 hs hs' hn hn'⟩

/-- Each target of the `ShardSplitJob` that makes the step has a Job of its own that has succeeded, if the step is the
report of `reconcileModeJobs` that it is done. -/
def OwnJobsCounted (op : Operator) (h : Hist) (l : Label Str Req) (_ : World) : Prop :=
  ∀ n mode ok ssj, l = .call n (.mark (.jobsDone mode)) ok → h.world.splitJobs.lookup n = some ssj →
    ∀ t ∈ ssj.spec.targets, ∃ job,
      h.world.jobs.lookup (reshardJobName ssj.spec.cluster t.shardID mode) = some job ∧ 0 < job.succeeded ∧
        BuiltFrom op ssj mode t h job

theorem OwnJobs.counted (hI : OwnJobs op h) (hs : ProtocolStep op h l w) : OwnJobsCounted op h l w := by
  rintro n mode ok ssj rfl hj t ht
  cases hs with
  | idle r hr => exact absurd rfl (hr _)
  | jobsDone ssj' mode hl hd =>
    rw [← (hl.eq hj).1] at hd
    obtain ⟨job, hb, hc⟩ := (Option.any_eq_true _ _).1 (hd t ht)
    exact ⟨job, hb, by simpa using hc, hI.built n ssj hj mode t ht job hb⟩

theorem Protocol.ownJobsCounted (hp : Protocol op h) (hn : h.first.splitJobs = ∅) (hc : h.Steps CreatedFresh) :
    h.Steps (OwnJobsCounted op) := by
  induction h with
  | start w => trivial
  | step h l w ih => exact ⟨ih hp.1 hn hc.1, (Protocol.ownJobs hp.1 hn hc.1).counted hp.2⟩

/-- Whenever `reconcileModeJobs` reports that it is done, a Job that was built from the `ShardSplitJob` itself has
succeeded for each of its targets, in the runs in which `ShardSplitJob`s are created with free names. -/
theorem mode_jobs_own (op : Operator) (w₀ : World) (s : Threads Api World Str)
    (hs : Threads.Reachable apiServer (reconcileThread op) w₀ s) (hnone : w₀.splitJobs = ∅)
    (hfresh : s.run.Steps CreatedFresh) : s.run.Steps (OwnJobsCounted op) := by
  rw [← hs.first] at hnone
  exact (reachable_protocol op hs).ownJobsCounted hnone hfresh

def foreignDone : Hist → Bool
  | .step h (.call n (.mark (.jobsDone mode)) _) _ =>
    (h.world.splitJobs.lookup n).any fun ssj => ssj.spec.targets.any fun t =>
      (h.world.jobs.lookup (reshardJobName ssj.spec.cluster t.shardID mode)).any fun job => job.owner != ssj.uid
  | _ => false

theorem not_ownJobsCounted_of_foreignDone (hf : foreignDone h) : ¬ h.Steps (OwnJobsCounted op) := by
  unfold foreignDone at hf
  split at hf
  · rename_i h n mode ok w
    intro hs
    obtain ⟨ssj, hsj, hr⟩ := (Option.any_eq_true _ _).1 hf
    obtain ⟨t, ht, hj⟩ := any_eq_true.1 hr
    obtain ⟨job, hl, ho⟩ := (Option.any_eq_true _ _).1 hj
    obtain ⟨job', hj', -, vindex, srcDNS, -, -, hb⟩ := hs.2 n mode ok ssj rfl hsj t ht
    obtain rfl : job' = job := Option.some.inj (hj'.symm.trans hl)
    have hn : job'.template.owner = ssj.uid := by rw [hb]; rfl
    exact absurd hn (by simpa [BatchJob.template] using ho)
  · cases hf

def namesakeSpec : ShardSplitJobSpec := { demoSpec false with keyspace := "other" }

def twoKeyspaces : World :=
  let w := demoWorld (demoSpec false)
  { w with
    splitJobs := ∅
    shardRanges := w.shardRanges.insert "sr2" ⟨1, { oneShard .hash with keyspace := "other" }⟩ }

def firstCopyEvents : List (Event apiServer Str) :=
  .env (.createShardSplitJob "j" 1 {} (demoSpec false)) :: [3, 3, 9, 4].flatMap (pass "j") ++
    finishDemo .copy true :: pass "j" 6

theorem firstCopyEvents_run : (runFrom demoOperator twoKeyspaces firstCopyEvents).isSome := by decide +kernel

def firstCopyState : Threads Api World Str :=
  (runFrom demoOperator twoKeyspaces firstCopyEvents).get firstCopyEvents_run

theorem mode_jobs_own_firstCopy : twoKeyspaces.splitJobs = ∅ ∧ firstCopyState.run.Steps CreatedFresh ∧
      firstCopyState.run.Steps (OwnJobsCounted demoOperator) := by
  have hf : firstCopyState.run.Steps CreatedFresh := by decide +kernel
  exact ⟨rfl, hf, mode_jobs_own demoOperator twoKeyspaces firstCopyState (runFrom_reachable firstCopyEvents_run) rfl
    hf⟩

def namesakeEvents : List (Event apiServer Str) :=
  .env (.createShardSplitJob "k" 2 {} namesakeSpec) :: [3, 3, 9].flatMap (pass "k") ++
    .start "k" :: replicate 4 (.call "k" .done)

/-- The copy Job of job `j` counts for job `k` of the other keyspace: nothing was copied for `k`, and its copy is
done. -/
theorem mode_jobs_of_namesake : ∃ s, Threads.Reachable apiServer (reconcileThread demoOperator) twoKeyspaces s ∧
      twoKeyspaces.splitJobs = ∅ ∧ ¬ s.run.Steps (OwnJobsCounted demoOperator) := by
  have hr : (runFrom demoOperator twoKeyspaces (firstCopyEvents ++ namesakeEvents)).any
      (fun s => foreignDone s.run) := by decide +kernel
  obtain ⟨s, hs, hf⟩ := (Option.any_eq_true _ _).1 hr
  exact ⟨s, ⟨_, hs⟩, rfl, not_ownJobsCounted_of_foreignDone hf⟩

end PostgresOperator
