import PostgresOperator.Reshard.PhaseOrder

/-!
# Any number of jobs

Runs in which any number of `ShardSplitJob`s are reconciled at the same time, with requests that fail, answers that
are lost and restarts of the operator: no update of a `ShardRange` is lost, and a Job is created once and stays as it
was created.
-/

namespace PostgresOperator

open Go Calls

variable {op : Operator} {h : Hist} {l : Label Str Req} {w : World} {n name : Str} {ssj : ShardSplitJob}

/-! ### Updates of a `ShardRange` -/

/-- What a job may make of the `ShardRange` of its keyspace, and when. -/
inductive RangeEdit (ssj : ShardSplitJob) (w : World) (old : ShardRangeSpec) : ShardRangeSpec → Prop
  | block (hguard : BlockGuard ssj w) (hoff : old.writeBlocked = false) :
    RangeEdit ssj w old { old with writeBlocked := true }
  | release (hguard : ReleaseGuard ssj w)
    (hon : old.writeBlocked) : RangeEdit ssj w old { old with writeBlocked := false }
  | switch (hphase : ssj.status.phase = .routingUpdate) : RangeEdit ssj w old (splitRouting old ssj.spec)

/-- The `ShardRange` stays, or a job replaces the version that is stored by an edit of this version. -/
def RangeStep (name : Str) (h : Hist) (l : Label Str Req) (w : World) : Prop :=
  w.shardRanges.lookup name = h.world.shardRanges.lookup name ∨
    ∃ n r ok ssj sr new, l = .call n r ok ∧ Loaded n ssj h.world ∧ h.world.rangeOf ssj.spec = some ⟨name, sr⟩ ∧
      RangeEdit ssj h.world sr.spec new ∧ w.shardRanges.lookup name = some ⟨sr.resourceVersion + 1, new⟩

theorem rangeStep_setRange {r : Req} {ok : Bool} {name' : Str} {sr : ShardRange} {new : ShardRangeSpec}
    (hl : Loaded n ssj h.world)
    (hr : h.world.rangeOf ssj.spec = some ⟨name', sr⟩) (he : RangeEdit ssj h.world sr.spec new) :
    RangeStep name h (.call n r ok) (h.world.setRange name' { sr with spec := new }) := by
  by_cases hn : name = name'
  · subst hn
    exact .inr ⟨n, r, ok, ssj, sr, new, rfl, hl, hr, he, Store.lookup_replace_self (Store.lookup_of_find hr) _⟩
  · exact .inl (Store.lookup_replace_of_ne _ hn _)

/-- No update of a `ShardRange` is lost: every change is an edit of the version that it replaces, by a job that may
make it now. -/
theorem no_update_lost (op : Operator) (name : Str) (w₀ : World) (s : Threads Api World Str)
    (hs : Threads.Reachable apiServer (reconcileThread op) w₀ s) : s.run.Steps (RangeStep name) := by
  refine (reachable_protocol op hs).mono fun h l w hs => ?_
  cases l with
  | env =>
    obtain ⟨e, he⟩ := hs
    refine .inl ?_
    rw [(happen_cases he).1]
  | call n r ok =>
    cases hs with
    | block ssj name' sr hl hg hr hoff => exact rangeStep_setRange hl hr (.block hg hoff)
    | release ssj name' sr hl hg hr hon => exact rangeStep_setRange hl hr (.release hg hon)
    | switch ssj name' sr hl hp hr => exact rangeStep_setRange hl hr (.switch hp)
    | _ => exact .inl rfl

theorem no_update_lost_completed : onlineCompleted.run.Steps (RangeStep "sr") ∧
    (onlineCompleted.run.world.shardRanges.lookup (str "sr")).map ShardRange.resourceVersion = some 3 :=
  ⟨no_update_lost demoOperator "sr" _ _ (runFrom_reachable onlineEvents_run), by decide +kernel⟩

/-! ### Jobs -/

/-- Jobs are never lost and never rewritten. -/
theorem Protocol.grows (hp : Protocol op h) {job : BatchJob} (hps : h.Past fun w => w.jobs.lookup name = some job) :
    ∃ job', h.world.jobs.lookup name = some job' ∧ job'.template = job.template ∧
      (0 < job.succeeded → 0 < job'.succeeded) := by
  induction h with
  | start w => exact ⟨job, hps, rfl, id⟩
  | step h l w ih =>
    rcases hps with hps | hw
    · obtain ⟨job₁, h₁, ht, hd⟩ := ih hp.1 hps
      obtain ⟨job₂, h₂, ht', hd'⟩ := hp.2.grows name job₁ h₁
      exact ⟨job₂, h₂, ht'.trans ht, hd' ∘ hd⟩
    · exact ⟨job, hw, rfl, id⟩

/-- If the Job appears in the step, it was never there before, and a job that has the target and may make Jobs of this
mode now has created it. -/
def CreatedOnce (name : Str) (h : Hist) (l : Label Str Req) (w : World) : Prop :=
  CreationStep name h.world w → (∀ job, ¬ h.Past fun w => w.jobs.lookup name = some job) ∧ ∃ n job ok ssj mode t,
    l = .call n (.createJob name job) ok ∧ Loaded n ssj h.world ∧ t ∈ ssj.spec.targets ∧ ModeGuard n ssj mode h ∧
    name = reshardJobName ssj.spec.cluster t.shardID mode

/-- A name that a Job has had is never used for a creation again. -/
theorem Protocol.createdOnce (hp : Protocol op h) (name : Str) : h.Steps (CreatedOnce name) := by
  induction h with
  | start w => trivial
  | step h l w ih =>
    refine ⟨ih hp.1, fun hc => ⟨fun job hps => ?_, ?_⟩⟩
    · obtain ⟨job', hj, -⟩ := Protocol.grows hp.1 hps
      exact absurd (hj.symm.trans hc.1) (by simp)
    · obtain ⟨job, hj⟩ := Option.ne_none_iff_exists'.1 hc.2
      obtain ⟨n, ok, ssj, mode, t, vindex, srcDNS, hl, hld, ht, hg, -, -, hn, -⟩ := hp.2.created hc.1 hj
      exact ⟨n, job, ok, ssj, mode, t, hl, hld, ht, hg, hn⟩

/-- A Job is created at most once, whichever jobs have its name.  It is not changed or deleted afterwards, and that it
has succeeded stays so. -/
theorem job_created_once (op : Operator) (name : Str) (w₀ : World) (s : Threads Api World Str)
    (hs : Threads.Reachable apiServer (reconcileThread op) w₀ s) : s.run.Steps (CreatedOnce name) ∧
      ∀ job, (s.run.Past fun w => w.jobs.lookup name = some job) → ∃ job', s.run.world.jobs.lookup name = some job' ∧
        job'.template = job.template ∧ (0 < job.succeeded → 0 < job'.succeeded) :=
  ⟨(reachable_protocol op hs).createdOnce name, fun _ => (reachable_protocol op hs).grows⟩

theorem job_created_once_completed : onlineCompleted.run.Steps (CreatedOnce (reshardJobName "demo" "t0" .delete)) ∧
    jobSucceeded onlineCompleted.run.world (reshardJobName "demo" "t0" .delete) :=
  ⟨(job_created_once demoOperator _ _ onlineCompleted (runFrom_reachable onlineEvents_run)).1, by decide +kernel⟩

end PostgresOperator
