import PostgresOperator.Reshard.PhaseOrder

/-!
# The write-block of a job that runs alone

A job sets the write-block in CDCCatchup or Cutover and releases it with the switch of the ranges or, when it runs
online and has failed, after its cleanup Jobs.  `BlockHeld` says what is known while the keyspace is blocked; from it
follows which ends of a job leave the keyspace open for writes.
-/

namespace PostgresOperator

open Go Calls List Option

variable {op : Operator} {n : Str} {spec : ShardSplitJobSpec} {h : Hist} {l : Label Str Req} {w : World}

/-! ### The steps that touch the write-block -/

variable {name : Str}

theorem writeBlocked_setRange_other {spec' : ShardSplitJobSpec} {sr : ShardRange}
    {new : ShardRangeSpec} (hr : w.rangeOf spec = some ⟨name, sr⟩)
    (hn : new.cluster = sr.spec.cluster ∧ new.keyspace = sr.spec.keyspace) :
    writeBlocked spec' (w.setRange name { sr with spec := new }) =
      if inKeyspace spec' ⟨name, sr⟩ then new.writeBlocked else writeBlocked spec' w := by
  rw [writeBlocked, rangeOf_setRange hr { sr with spec := new } hn]
  split <;> rfl

/-- A keyspace gets blocked only by a job that is about to move or switch its data. -/
theorem ProtocolStep.blocks (hs : ProtocolStep op h l w) (hoff : writeBlocked spec h.world = false)
    (hon : writeBlocked spec w) :
    ∃ m r ok ssj, l = .call m r ok ∧ Loaded m ssj h.world ∧ BlockGuard ssj h.world := by
  cases l with
  | env =>
    obtain ⟨e, he⟩ := hs
    rw [writeBlocked, World.rangeOf, (happen_cases he).1] at hon
    exact absurd (hoff.symm.trans hon) (by decide)
  | call m r ok =>
    cases hs with
    | block ssj name sr hl hg hr _ => exact ⟨m, _, ok, ssj, rfl, hl, hg⟩
    | release ssj name sr hl hg hr _ =>
      rw [writeBlocked_setRange_other hr (by exact ⟨rfl, rfl⟩), hoff] at hon
      simp at hon
    | switch ssj name sr hl hp hr =>
      rw [writeBlocked_setRange_other hr (by exact ⟨rfl, rfl⟩), hoff] at hon
      simp [splitRouting] at hon
    | _ => exact absurd (hoff.symm.trans hon) (by decide)

/-! ### The late phases -/

def ShardSplitPhase.late : ShardSplitPhase → Bool
  | .routingUpdate | .cleanup | .promote | .completed | .failed | .aborted => true
  | _ => false

variable {ssj : ShardSplitJob} {st : ShardSplitJobStatus}

/-- A job that has come to its switch or has ended never goes back. -/
theorem Transition.late (ht : Transition op n ssj h st) (hl : ssj.status.phase.late) : st.phase.late := by
  cases ht with
  | unsupported | fail => rfl
  | hold hp =>
    rw [hp] at hl
    cases hl
  | advance next failure t hn hne hd =>
    cases hp : ssj.status.phase with
    | new | pending | snapshotWAL | bootstrap | initialCopy | cdcCatchup | cutover =>
      rw [hp] at hl
      cases hl
    | _ =>
      rw [hp] at hn
      cases hn
      rfl
  | cleanup => exact hl

theorem BlockGuard.not_late (hg : BlockGuard ssj w) : ssj.status.phase.late = false := by
  rcases hg with ⟨hp, -⟩ | ⟨hp, -⟩ <;> rw [hp] <;> rfl

theorem BlockGuard.phase_mem (hg : BlockGuard ssj w) : ssj.status.phase ∈ [.cdcCatchup, .cutover] := by
  rcases hg with ⟨hp, -⟩ | ⟨hp, -⟩ <;> simp [hp]

def IsLate (n : Str) (w : World) : Prop := ∃ ssj, Loaded n ssj w ∧ ssj.status.phase.late

theorem ProtocolStep.isLate (hs : ProtocolStep op h l w) (hlt : IsLate n h.world) : IsLate n w := by
  obtain ⟨ssj, ⟨a, ha⟩, hp⟩ := hlt
  rcases hs.job_cases ha with hl | ⟨st, ht, rfl⟩
  · exact ⟨_, hl, hp⟩
  · exact ⟨{ ssj with status := st }, ⟨a, lookup_setStatus ha st⟩, ht.late hp⟩

theorem IsLate.of_loaded (hlt : IsLate n w) (hl : Loaded n ssj w) : ssj.status.phase.late := by
  obtain ⟨ssj', ⟨a, ha⟩, hp⟩ := hlt
  rw [← (hl.eq ha).2]
  exact hp

/-- What a late job keeps from step to step holds from then on. -/
theorem Protocol.late_stays {ψ : World → Prop} (hp : Protocol op h) (ho : OnlyJob n h)
    (hψ : ∀ h l w, ProtocolStep op h l w → byJob n l → IsLate n h.world → ψ h.world → ψ w)
    (hps : h.Past fun w => IsLate n w ∧ ψ w) : IsLate n h.world ∧ ψ h.world := by
  induction h with
  | start w => exact hps
  | step h l w ih =>
    rcases hps with hps | hw
    · obtain ⟨hl, hh⟩ := ih hp.1 ho.1 hps
      exact ⟨hp.2.isLate hl, hψ h l w hp.2 ho.2 hl hh⟩
    · exact hw

/-- A late job that runs alone does not set the block again. -/
theorem unblocked_step (hs : ProtocolStep op h l w) (hby : byJob n l) (hlt : IsLate n h.world)
    (hoff : writeBlocked spec h.world = false) : writeBlocked spec w = false := by
  by_contra hon
  obtain ⟨m, r, ok, ssj, rfl, hl, hg⟩ := hs.blocks hoff (by simpa using hon)
  obtain rfl : m = n := by simpa [byJob] using hby
  exact absurd (hlt.of_loaded hl) (by simp [hg.not_late])

theorem Protocol.rangeOf_stays_none (hp : Protocol op h) (hps : h.Past fun w => w.rangeOf spec = none) :
    h.world.rangeOf spec = none := by
  induction h with
  | start w => exact hps
  | step h l w ih =>
    rcases hps with hps | hw
    · have hn := ih hp.1 hps
      rcases hp.2.rangeAges spec with hsm | ⟨name, sr, -, hs, -⟩
      · exact hsm.trans hn
      · rw [hn] at hs
        cases hs
    · exact hw

def NoSetup (n : Str) (spec : ShardSplitJobSpec) (t : ShardSplitTarget) (w : World) : Prop :=
  (∃ ssj, w.splitJobs.lookup n = some ssj ∧ ssj.spec = spec) ∧
    w.jobs.lookup (reshardJobName spec.cluster t.shardID .cdcSetup) = none

/-- A late job creates no replication any more. -/
theorem noSetup_step (hs : ProtocolStep op h l w) (hby : byJob n l) (hlt : IsLate n h.world)
    {t : ShardSplitTarget} (hno : NoSetup n spec t h.world) : NoSetup n spec t w := by
  obtain ⟨⟨ssj₀, hj₀, rfl⟩, hnn⟩ := hno
  refine ⟨?_, ?_⟩
  · rcases hs.job_cases hj₀ with ⟨a, ha⟩ | ⟨st, -, rfl⟩
    · exact ⟨_, ha, rfl⟩
    · exact ⟨_, lookup_setStatus hj₀ st, rfl⟩
  by_contra hsm
  obtain ⟨job, hb⟩ := ne_none_iff_exists'.1 hsm
  obtain ⟨m, ok, ssj, mode, t', vindex, srcDNS, rfl, hl, -, hg, -, -, hn, -⟩ := hs.created hnn hb
  obtain rfl : m = n := by simpa [byJob] using hby
  rw [(hl.eq hj₀).1] at hn
  obtain ⟨rfl, -⟩ := reshardJobName_inj hn
  have hp : ssj.status.phase = .cdcCatchup := hg.1.1
  have := hlt.of_loaded hl
  rw [hp] at this
  cases this

/-! ### While the keyspace is blocked -/

/-- A request on `ShardRange`s was answered with an error while job `n` was in RoutingUpdate. -/
def RoutingCallFailed (n : Str) (h : Hist) : Prop :=
  h.SomeStep fun h' l _ => (∃ ssj, Loaded n ssj h'.world ∧ ssj.status.phase = .routingUpdate) ∧
    (l = .call n .listShardRanges false ∨ ∃ name sr, l = .call n (.updateShardRange name sr) false)

/-- What is known when the keyspace is blocked and the status of the job is `st`. -/
structure BlockHeld (n : Str) (spec : ShardSplitJobSpec) (st : ShardSplitJobStatus) (h : Hist) : Prop where
  accepted : GateAccepts spec
  phase : st.phase ∈ [.cdcCatchup, .cutover, .routingUpdate, .failed]
  setup : spec.online → JobsDone spec .cdcSetup h.world
  offline : spec.online = false →
    (st.phase = .cutover ∨ st.phase = .routingUpdate) ∧ spec.allowForwardOnly = false ∨ RoutingCallFailed n h
  unclean : abortCleanupCompleted st = false

/-- What is known while the block is set survives the requests of the job. -/
theorem BlockHeld.step (hb : BlockHeld n spec st h) (hs : ProtocolStep op h l w) :
    BlockHeld n spec st (h.step l w) where
  accepted := hb.accepted
  phase := hb.phase
  setup ho := hs.grows.jobsDone (hb.setup ho)
  offline ho := (hb.offline ho).imp_right .inl
  unclean := hb.unclean

theorem Protocol.no_cleanup_condition (hp : Protocol op h) (hf : FreshJob n spec h.first)
    (hs : h.world.splitJobs.lookup n = some ssj) (hph : ssj.status.phase ∉ [.failed, .aborted]) :
    ssj.status.abortCleanup = none := by
  refine (Protocol.status_rule
    (I := fun st _ => st.phase ∉ ([.failed, .aborted] : List ShardSplitPhase) → st.abortCleanup = none)
    (fun w _ => rfl) (fun h l w ssj _ _ _ _ hI => hI) (fun h l w ssj st _ _ _ _ ht _ hI hph => ?_)
    hp hf hs).2 hph
  cases ht with
  | unsupported | fail => exact absurd hph (by simp [failedStatus])
  | hold hw => exact hI (by simp [hw])
  | advance next failure t hn hne hd =>
    refine hI fun hold => ?_
    simp only [mem_cons, not_mem_nil, or_false] at hold
    rcases hold with hold | hold <;> rw [hold] at hn hne <;> cases hn <;> exact hne rfl
  | cleanup status reason failure hm hsta => exact absurd hm.1 (by simpa [setAbortCleanupCondition] using hph)

theorem blockHeld_of_guard (hp : Protocol op h) (hfr : FreshJob n spec h.first)
    (hs : h.world.splitJobs.lookup n = some ssj) (hg : BlockGuard ssj h.world) :
    BlockHeld n spec ssj.status h := by
  obtain ⟨rfl, hf⟩ := hp.phaseFacts hfr hs
  have hc : ssj.status.phase ∉ [.failed, .aborted] → abortCleanupCompleted ssj.status = false := fun hph => by
    simp [abortCleanupCompleted, hp.no_cleanup_condition hfr hs hph]
  rcases hg with ⟨hph, hon, hd⟩ | ⟨hph, hfwd⟩
  · rw [hph] at hf
    exact ⟨hf.accepted (by decide), by simp [hph], fun _ => hd, fun ho => absurd (hon.symm.trans ho) (by decide),
      hc (by simp [hph])⟩
  · rw [hph] at hf
    exact ⟨hf.accepted (by decide), by simp [hph], fun ho => (hf.caughtUp (by decide) ho).1,
      fun _ => .inl ⟨.inl hph, hfwd⟩, hc (by simp [hph])⟩

theorem BlockHeld.routingCallFailed {reason : FailureReason} (hp : Protocol op h)
    (hon : writeBlocked ssj.spec h.world) (hb : BlockHeld n ssj.spec ssj.status h)
    (ho : ssj.spec.online = false) (hre : PhaseFails n ssj h reason) : RoutingCallFailed n h := by
  rcases hb.offline ho with ⟨hph, -⟩ | hf
  · cases reason with
    | routing e =>
      obtain ⟨hu, hn | hcl⟩ := hre
      · -- a `ShardRange` that was missing is still missing, so it does not block anything
        have hnw := hp.rangeOf_stays_none (hn.mono fun w hw => hw.2)
        rw [writeBlocked, hnw] at hon
        cases hon
      · exact hcl.mono fun h' l w hc => ⟨⟨ssj, hc.1, hu⟩, hc.2⟩
    | bootstrap e | adopt id e =>
      rw [show ssj.status.phase = _ from hre] at hph
      simp at hph
    | jobs f =>
      rcases hre with hr | hr | hr <;> rw [hr] at hph <;> simp at hph
    | _ => exact hre.elim
  · exact hf

theorem not_jobsDone_of_seen (hp : Protocol op h) (ho : OnlyJob n h)
    (hlt : ssj.status.phase.late) (hr : ssj.spec.targets ≠ [])
    (hsn : ∀ t ∈ ssj.spec.targets,
      Seen n ssj (fun w => w.jobs.lookup (reshardJobName ssj.spec.cluster t.shardID .cdcSetup) = none) h) :
    ¬ JobsDone ssj.spec .cdcSetup h.world := by
  intro hd
  obtain ⟨t, ht⟩ := exists_mem_of_ne_nil _ hr
  have hno : IsLate n h.world ∧ NoSetup n ssj.spec t h.world := by
    refine hp.late_stays ho (fun _ _ _ hs hby hl hno => noSetup_step hs hby hl hno) ((hsn t ht).mono ?_)
    rintro w ⟨⟨a, ha⟩, hn⟩
    exact ⟨⟨ssj, ⟨a, ha⟩, hlt⟩, ⟨_, ha, rfl⟩, hn⟩
  have := hd t ht
  rw [jobSucceeded, hno.2.2] at this
  cases this

/-- It survives the transitions that are made while the block is still set. -/
theorem BlockHeld.transition (hp : Protocol op h)
    (hol : OnlyJob n h) (hon : writeBlocked ssj.spec h.world) (hb : BlockHeld n ssj.spec ssj.status h)
    (ht : Transition op n ssj h st) : BlockHeld n ssj.spec st h := by
  obtain ⟨hdr, hso, -⟩ := gateAccepts_iff.1 hb.accepted
  -- a late phase in which the keyspace was open would have left it open
  have hsn : ssj.status.phase.late → ¬ Seen n ssj (fun w => writeBlocked ssj.spec w = false) h := by
    intro hlt hsn
    have hop : IsLate n h.world ∧ writeBlocked ssj.spec h.world = false :=
      hp.late_stays hol (fun _ _ _ hs hby hl hoff => unblocked_step hs hby hl hoff)
        (hsn.mono fun w hw => ⟨⟨ssj, hw.1, hlt⟩, hw.2⟩)
    exact absurd (hon.symm.trans hop.2) (by decide)
  cases ht with
  | unsupported reason t hph hr => simp [unsupportedSplitSpecReason, hdr, hso] at hr
  | hold hph => exact absurd hb.phase (by simp [hph])
  | advance next failure t hn hne hd =>
    have hph := hb.phase
    simp only [mem_cons, not_mem_nil, or_false] at hph
    rcases hph with hph | hph | hph | hph
    · rw [hph] at hn
      cases hn
      exact ⟨hb.accepted, by simp [advancedStatus], hb.setup,
        fun ho => .inr ((hb.offline ho).resolve_left (by simp [hph])), hb.unclean⟩
    · rw [hph, nextPhase] at hn
      cases hfwd : ssj.spec.allowForwardOnly with
      | false =>
        rw [hfwd] at hn
        cases hn
        exact ⟨hb.accepted, by simp [advancedStatus], hb.setup, fun _ => .inl ⟨.inr rfl, hfwd⟩, hb.unclean⟩
      | true =>
        rw [hfwd] at hn
        cases hn
        exact ⟨hb.accepted, by simp [advancedStatus], hb.setup,
          fun ho => .inr ((hb.offline ho).resolve_left (by simp [hfwd])), hb.unclean⟩
    · simp only [PhaseDone, hph] at hd
      exact absurd hd.2 (hsn (by rw [hph]; rfl))
    · rw [hph] at hn hne
      cases hn
      exact absurd rfl hne
  | fail reason t hr =>
    refine ⟨hb.accepted, by simp [failedStatus], hb.setup, fun ho => .inr ?_, hb.unclean⟩
    exact hb.routingCallFailed hp hon ho hr
  | cleanup status reason failure hm hsta =>
    refine ⟨hb.accepted, hb.phase, hb.setup, hb.offline, ?_⟩
    cases status with
    | false => rfl
    | true =>
      have hlt : ssj.status.phase.late := by
        rcases hm.1 with hph | hph <;> rw [hph] <;> rfl
      rcases hsta rfl with hse | hoff
      · exact absurd (hb.setup hm.2) (not_jobsDone_of_seen hp hol hlt hb.accepted.targets_ne_nil hse)
      · exact absurd hoff (hsn hlt)

/-- The run lemma: `BlockHeld` holds whenever the keyspace of the job is blocked. -/
theorem Protocol.blockHeld (hp : Protocol op h) (ho : OnlyJob n h) (hf : FreshJob n spec h.first)
    (hop : writeBlocked spec h.first = false)
    (hj : h.world.splitJobs.lookup n = some ssj) (hon : writeBlocked spec h.world) :
    BlockHeld n spec ssj.status h := by
  refine (Protocol.status_rule (I := fun st h => OnlyJob n h → writeBlocked spec h.first = false →
    writeBlocked spec h.world → BlockHeld n spec st h) (fun w _ hoff hon => ?_)
    (fun h l w ssj hp hf hj hs hI ho hop hon => ?_)
    (fun h l w ssj st hp hf hj hs ht hw hI ho hop hon => ?_) hp hf hj).2 ho hop hon
  · exact absurd (hoff.symm.trans hon) (by decide)
  · cases hold : writeBlocked spec h.world with
    | true => exact (hI ho.1 hop hold).step hp.2
    | false =>
      obtain ⟨m, r, ok, ssj', rfl, hl, hg⟩ := hp.2.blocks hold hon
      obtain rfl : m = n := by simpa [byJob] using ho.2
      refine BlockHeld.step (blockHeld_of_guard hp.1 hf hj ?_) hp.2
      obtain ⟨hs', hsta⟩ := hl.eq hj
      simpa only [BlockGuard, hs', hsta] using hg
  · subst hs hw
    exact BlockHeld.step (BlockHeld.transition hp.1 ho.1 hon (hI ho.1 hop hon) ht) hp.2

/-! ### One more `Reconcile` -/

section Eval

variable {α : Type}

@[simp] theorem eval_getShardSplitJob (f : Except ApiError (Option ShardSplitJob) → Kube α) :
    (getShardSplitJob n >>= f).eval exec w = (f (.ok (w.splitJobs.lookup n))).eval exec w := rfl

@[simp] theorem eval_getJob (f : Except ApiError (Option BatchJob) → Kube α) :
    (getJob n >>= f).eval exec w = (f (.ok (w.jobs.lookup n))).eval exec w := rfl

@[simp] theorem eval_listShardRanges (f : Except ApiError (List (Σ _ : Str, ShardRange)) → Kube α) :
    (listShardRanges >>= f).eval exec w = (f (.ok w.shardRanges.entries)).eval exec w := rfl

theorem eval_createJob {job : BatchJob} (hn : w.jobs.lookup n = none) (f : Except ApiError Unit → Kube α) :
    (createJob n job >>= f).eval exec w = (f (.ok ())).eval exec (w.addJob n job) := by
  show (f (exec (.createJob n job) w).1).eval exec (exec (.createJob n job) w).2 = _
  simp only [exec, hn]
  rfl

theorem eval_updateShardRange {sr : ShardRange} (hsr : w.shardRanges.lookup n = some sr) (sr' : ShardRange)
    (hrv : sr'.resourceVersion = sr.resourceVersion) (f : Except ApiError Unit → Kube α) :
    (updateShardRange n sr' >>= f).eval exec w = (f (.ok ())).eval exec (w.setRange n sr') := by
  show (f (exec (.updateShardRange n sr') w).1).eval exec (exec (.updateShardRange n sr') w).2 = _
  simp only [exec, hsr, hrv, if_true]
  simp only [World.setRange, hrv]

end Eval

/-- A program deletes no Job, so one that exists is found by the next program. -/
theorem eval_jobs_ne_none {α : Type} (p : Kube α) (hw : w.jobs.lookup name ≠ none) :
    (p.eval exec w).2.jobs.lookup name ≠ none := by
  induction p generalizing w with
  | pure a => exact hw
  | call r k ih =>
    refine ih _ ?_
    cases r with
    | createJob name' job =>
      simp only [exec]
      split
      · exact hw
      · by_cases hn : name = name' <;> simp [hn, hw]
    | updateStatus | updateShardRange | patchStatefulSet | patchPod =>
      simp only [exec]
      repeat' split
      all_goals exact hw
    | _ => exact hw

theorem anyJobExists_eval {names : List Str} (hm : name ∈ names)
    (hj : w.jobs.lookup name ≠ none) : (anyJobExists names).eval exec w = (.ok true, w) := by
  induction names with
  | nil => cases hm
  | cons a names ih =>
    simp only [anyJobExists, eval_getJob]
    cases ha : w.jobs.lookup a with
    | some job => rfl
    | none =>
      refine ih ((mem_cons.1 hm).resolve_left ?_)
      rintro rfl
      exact hj ha

variable {ssj : ShardSplitJob} {mode : ReshardMode} {vindex : KeyspaceVindex} {srcDNS : Str}

/-- With all Jobs done and no failures the loop reports so. -/
theorem modeJobsLoop_eval_done {ts : List ShardSplitTarget}
    (hd : ∀ t ∈ ts, jobSucceeded w (reshardJobName ssj.spec.cluster t.shardID mode)) :
    (modeJobsLoop op ssj mode vindex srcDNS ts true).eval exec w = (.ok .done, w) := by
  induction ts with
  | nil => rfl
  | cons t ts ih =>
    obtain ⟨job, hj, hs⟩ := (any_eq_true _ _).1 (hd t mem_cons_self)
    have hp : 0 < job.succeeded := by simpa using hs
    simp only [modeJobsLoop, eval_getJob, hj, if_pos hp]
    exact ih fun t' ht' => hd t' (mem_cons_of_mem _ ht')

/-- A missing Job is created, if those that exist have succeeded. -/
theorem modeJobsLoop_eval_creates {ts : List ShardSplitTarget} {t : ShardSplitTarget} (ht : t ∈ ts) (allDone : Bool)
    (hn : w.jobs.lookup (reshardJobName ssj.spec.cluster t.shardID mode) = none)
    (hr : ∀ t ∈ ts, ∀ job, w.jobs.lookup (reshardJobName ssj.spec.cluster t.shardID mode) = some job →
      0 < job.succeeded) :
    ∃ name, w.jobs.lookup name = none ∧
      ((modeJobsLoop op ssj mode vindex srcDNS ts allDone).eval exec w).2.jobs.lookup name ≠ none := by
  induction ts with
  | nil => cases ht
  | cons a ts ih =>
    simp only [modeJobsLoop, eval_getJob]
    cases ha : w.jobs.lookup (reshardJobName ssj.spec.cluster a.shardID mode) with
    | none =>
      rw [eval_createJob ha]
      refine ⟨_, ha, eval_jobs_ne_none _ ?_⟩
      simp [World.addJob]
    | some job =>
      simp only [if_pos (hr a mem_cons_self job ha)]
      refine ih ((mem_cons.1 ht).resolve_left ?_) fun t' ht' => hr t' (mem_cons_of_mem _ ht')
      rintro rfl
      rw [hn] at ha
      cases ha

theorem setWriteBlock_eval_release (hon : writeBlocked spec w) :
    ∃ w', (setWriteBlock spec false).eval exec w = (.ok (), w') ∧ writeBlocked spec w' = false := by
  obtain ⟨⟨name, sr⟩, hr, hb⟩ := (any_eq_true _ _).1 hon
  have hf : w.shardRanges.entries.find? (inKeyspace spec) = some ⟨name, sr⟩ := hr
  refine ⟨w.setRange name { sr with spec := { sr.spec with writeBlocked := false } }, ?_, ?_⟩
  · simp only [setWriteBlock, eval_listShardRanges, hf, show sr.spec.writeBlocked from hb]
    rw [if_neg (by decide), eval_updateShardRange (Store.lookup_of_find hr) _ (by rfl)]
    rfl
  · exact writeBlocked_setRange hr ⟨rfl, rfl⟩

theorem keyspaceVindex_eval {sr : ShardRange} (hr : w.rangeOf spec = some ⟨name, sr⟩) :
    (keyspaceVindex spec).eval exec w = (.ok (keyspaceVindexOf sr.spec), w) := by
  simp only [keyspaceVindex, eval_listShardRanges,
    show w.shardRanges.entries.find? (inKeyspace spec) = some ⟨name, sr⟩ from hr]
  rfl

theorem reconcileModeJobs_eval (mode : ReshardMode) (hr : w.rangeOf ssj.spec ≠ none)
    (hsrc : SourceOrdinal op ssj.spec srcDNS) :
    ∃ vindex, (reconcileModeJobs op ssj mode).eval exec w =
      (modeJobsLoop op ssj mode vindex srcDNS ssj.spec.targets true).eval exec w := by
  obtain ⟨⟨name, sr⟩, hs⟩ := ne_none_iff_exists'.1 hr
  obtain ⟨src, hh, hd⟩ := hsrc
  refine ⟨keyspaceVindexOf sr.spec, ?_⟩
  cases hso : ssj.spec.sources with
  | nil =>
    rw [hso] at hh
    cases hh
  | cons a rest =>
    rw [hso] at hh
    cases hh
    simp only [reconcileModeJobs, hso, Prog.eval_bind, keyspaceVindex_eval hs, hd]

/-- Without failures the cleanup of a blocked keyspace either creates a Job or releases the block. -/
theorem reconcileAbortCleanup_eval (ho : ssj.spec.online) (hon : writeBlocked ssj.spec w)
    (hs : JobsDone ssj.spec .cdcSetup w) (htr : ssj.spec.targets ≠ [])
    (hsrc : SourceOrdinal op ssj.spec srcDNS)
    (ha : ∀ t ∈ ssj.spec.targets, ∀ job,
      w.jobs.lookup (reshardJobName ssj.spec.cluster t.shardID .cdcAbort) = some job → 0 < job.succeeded) :
    (∃ name, w.jobs.lookup name = none ∧ ((reconcileAbortCleanup op ssj).eval exec w).2.jobs.lookup name ≠ none) ∨
      ((reconcileAbortCleanup op ssj).eval exec w).2.shardRanges ≠ w.shardRanges := by
  obtain ⟨t₀, ht₀⟩ := exists_mem_of_ne_nil _ htr
  obtain ⟨job, hj, -⟩ := (any_eq_true _ _).1 (hs t₀ ht₀)
  have hsta : (cdcJobsStarted ssj).eval exec w = (.ok true, w) := by
    refine anyJobExists_eval (mem_flatMap.2 ⟨.cdcSetup, by simp, mem_map.2 ⟨t₀, ht₀, rfl⟩⟩) ?_
    rw [hj]
    exact some_ne_none _
  have hr : w.rangeOf ssj.spec ≠ none := fun hn => by simp [writeBlocked, hn] at hon
  obtain ⟨vindex, hl⟩ := reconcileModeJobs_eval .cdcAbort hr hsrc
  unfold reconcileAbortCleanup
  rw [if_neg (by simp [ho]), Prog.eval_bind, hsta]
  simp only [Prog.eval_bind, hl]
  by_cases hal : JobsDone ssj.spec .cdcAbort w
  · right
    obtain ⟨w', hrl, hoff⟩ := setWriteBlock_eval_release hon
    simp only [modeJobsLoop_eval_done hal, Prog.eval_bind, hrl]
    intro heq
    change w'.shardRanges = w.shardRanges at heq
    rw [writeBlocked, World.rangeOf, heq] at hoff
    exact absurd (hon.symm.trans hoff) (by decide)
  · left
    have hm : ∃ t ∈ ssj.spec.targets,
        w.jobs.lookup (reshardJobName ssj.spec.cluster t.shardID .cdcAbort) = none := by
      by_contra hno
      push Not at hno
      refine hal fun t ht => ?_
      obtain ⟨job, hj⟩ := ne_none_iff_exists'.1 (hno t ht)
      simp [jobSucceeded, hj, ha t ht job hj]
    obtain ⟨t, ht, hn⟩ := hm
    obtain ⟨name, hb, haf⟩ := modeJobsLoop_eval_creates ht true hn ha
    exact ⟨name, hb, eval_jobs_ne_none _ haf⟩

theorem saveStatus_eval (st : ShardSplitJobStatus) (res : CtrlResult) :
    ((saveStatus n st res).eval exec w).2.jobs = w.jobs ∧
      ((saveStatus n st res).eval exec w).2.shardRanges = w.shardRanges := by
  have hu : ((updateStatus n st).eval exec w).2.jobs = w.jobs ∧
      ((updateStatus n st).eval exec w).2.shardRanges = w.shardRanges := by
    show (exec (.updateStatus n st) w).2.jobs = w.jobs ∧ (exec (.updateStatus n st) w).2.shardRanges = w.shardRanges
    simp only [exec]
    split <;> exact ⟨rfl, rfl⟩
  rw [saveStatus, Prog.eval_bind]
  split <;> exact hu

theorem reconcileTerminalAbortCleanup_eval (op : Operator) (n : Str) (w : World)
    (hu : abortCleanupCompleted ssj.status = false) :
    ((reconcileTerminalAbortCleanup op n ssj).eval exec w).2.jobs =
    ((reconcileAbortCleanup op ssj).eval exec w).2.jobs ∧
      ((reconcileTerminalAbortCleanup op n ssj).eval exec w).2.shardRanges =
        ((reconcileAbortCleanup op ssj).eval exec w).2.shardRanges := by
  unfold reconcileTerminalAbortCleanup
  rw [if_neg (by simp [hu]), Prog.eval_bind]
  split
  · exact ⟨rfl, rfl⟩
  · exact saveStatus_eval _ _
  · exact saveStatus_eval _ _
  · exact saveStatus_eval _ _

/-- A job that has failed online with its keyspace blocked is not left alone by one more `Reconcile`, unless a
`cdc-abort` Job is unfinished or has failed. -/
theorem reconcile_eval_ne (hsj : w.splitJobs.lookup n = some ssj)
    (hp : ssj.status.phase = .failed ∨ ssj.status.phase = .aborted) (ho : ssj.spec.online)
    (hu : abortCleanupCompleted ssj.status = false) (hon : writeBlocked ssj.spec w)
    (hs : JobsDone ssj.spec .cdcSetup w) (ht : ssj.spec.targets ≠ [])
    (hsrc : SourceOrdinal op ssj.spec srcDNS)
    (hab : ∀ t ∈ ssj.spec.targets, ∀ job,
      w.jobs.lookup (reshardJobName ssj.spec.cluster t.shardID .cdcAbort) = some job → 0 < job.succeeded) :
    ((reconcile op n).eval exec w).2 ≠ w := by
  have htr : (reconcile op n).eval exec w = (reconcileTerminalAbortCleanup op n ssj).eval exec w := by
    rcases hp with hp | hp <;> simp only [reconcile, eval_getShardSplitJob, hsj, hp, ho, if_true]
  intro heq
  obtain ⟨hj, hr⟩ := reconcileTerminalAbortCleanup_eval op n w hu
  rw [← htr, heq] at hj hr
  rcases reconcileAbortCleanup_eval ho hon hs ht hsrc hab with hne | hne
  · obtain ⟨name, hb, ha⟩ := hne
    rw [← hj] at ha
    exact ha hb
  · exact hne hr.symm

/-! ### The release of the write-block -/

def ShardSplitJob.failedOrAborted (ssj : ShardSplitJob) : Prop :=
  ssj.status.phase = .failed ∨ ssj.status.phase = .aborted

instance (ssj : ShardSplitJob) : Decidable ssj.failedOrAborted :=
  inferInstanceAs (Decidable (ssj.status.phase = .failed ∨ ssj.status.phase = .aborted))

def AbortJobsDone (spec : ShardSplitJobSpec) (w : World) : Prop :=
  ∀ t ∈ spec.targets,
    (w.jobs.lookup (reshardJobName spec.cluster t.shardID .cdcAbort)).all (fun job => decide (0 < job.succeeded))

instance (spec : ShardSplitJobSpec) (w : World) : Decidable (AbortJobsDone spec w) :=
  inferInstanceAs (Decidable
    (∀ t ∈ spec.targets, (w.jobs.lookup (reshardJobName spec.cluster t.shardID .cdcAbort)).all
    (fun job => decide (0 < job.succeeded))))

/-- One more `Reconcile` of job `n`, with every request carried out, changes nothing. -/
def Settled (op : Operator) (n : Str) (w : World) : Prop := ((reconcile op n).eval exec w).2 = w

instance (op : Operator) (n : Str) (w : World) : Decidable (Settled op n w) :=
  inferInstanceAs (Decidable (((reconcile op n).eval exec w).2 = w))

/-- A job that runs alone on a keyspace that is open for writes leaves it open when it ends.  This holds of every job
that is completed; of a job that has failed online, once nothing is left to do and no cleanup Job is unfinished or
failed; and of one that has failed offline, unless a request on `ShardRange`s failed in RoutingUpdate. -/
theorem write_block_released (op : Operator) (n : Str) (spec : ShardSplitJobSpec) (w₀ : World)
    (s : Threads Api World Str) (hs : Threads.Reachable apiServer (reconcileThread op) w₀ s)
    (hfresh : FreshJob n spec w₀) (hopen : writeBlocked spec w₀ = false) (honly : OnlyJob n s.run)
    (ssj : ShardSplitJob) (hssj : s.run.world.splitJobs.lookup n = some ssj) :
    (ssj.status.phase = .completed → writeBlocked spec s.run.world = false) ∧
    (ssj.failedOrAborted → spec.online → AbortJobsDone spec s.run.world → Settled op n s.run.world →
      writeBlocked spec s.run.world = false) ∧
    (ssj.failedOrAborted → spec.online = false → ¬ RoutingCallFailed n s.run →
      writeBlocked spec s.run.world = false) := by
  have hp := reachable_protocol op hs
  rw [← hs.first] at hfresh hopen
  have hh : writeBlocked spec s.run.world ≠ false → BlockHeld n spec ssj.status s.run := fun hon =>
    hp.blockHeld honly hfresh hopen hssj (by simpa using hon)
  refine ⟨fun hph => ?_, fun hph hon ha hset => ?_, fun hph hoff hcl => ?_⟩
  · by_contra hbl
    have := (hh hbl).phase
    simp [hph] at this
  · by_contra hbl
    have hb := hh hbl
    obtain ⟨rfl, -⟩ := hp.phaseFacts hfresh hssj
    obtain ⟨t, ht⟩ := exists_mem_of_ne_nil _ hb.accepted.targets_ne_nil
    -- a `cdc-setup` Job was made, so the source is an ordinal shard
    have hj : s.run.world.jobs.lookup (reshardJobName ssj.spec.cluster t.shardID .cdcSetup) ≠ none := by
      intro hn
      have := hb.setup hon t ht
      simp [jobSucceeded, hn] at this
    obtain ⟨srcDNS, hsrc⟩ := ((hp.creation honly hfresh ht hj).mono fun _ _ _ hc => hc.2.2.2.1).of_const
    exact reconcile_eval_ne hssj hph hon hb.unclean (by simpa using hbl) (hb.setup hon)
      hb.accepted.targets_ne_nil hsrc (fun t ht job hj => by simpa [hj] using ha t ht) hset
  · by_contra hbl
    rcases (hh hbl).offline hoff with ⟨he, -⟩ | hf
    · rcases hph with hph | hph <;> simp [hph] at he
    · exact hcl hf

def abortEvents : List (Event apiServer Str) :=
  [3, 3, 9, 3, 4].flatMap (pass "j") ++ finishDemo .cdcSetup true ::
    pass "j" 10 ++ finishDemo .cdcFinalize false :: [10, 6].flatMap (pass "j")

def abortRun (ok : Bool) : List (Event apiServer Str) :=
  abortEvents ++ finishDemo .cdcAbort ok :: pass "j" (if ok then 8 else 5)

theorem abortRun_isSome (ok : Bool) : (runFrom demoOperator (demoWorld (demoSpec true)) (abortRun ok)).isSome := by
  cases ok <;> decide +kernel

def abortState (ok : Bool) : Threads Api World Str :=
  (runFrom demoOperator (demoWorld (demoSpec true)) (abortRun ok)).get (abortRun_isSome ok)

theorem write_block_released_aborted :
    ∃ ssj, (abortState true).run.world.splitJobs.lookup (str "j") = some ssj ∧ ssj.failedOrAborted ∧
      Settled demoOperator "j" (abortState true).run.world ∧
      writeBlocked (demoSpec true) (abortState true).run.world = false := by
  have hf : ((abortState true).run.world.splitJobs.lookup (str "j")).any (fun ssj => decide ssj.failedOrAborted) =
      true := by decide +kernel
  obtain ⟨ssj, hs, hp⟩ := (any_eq_true _ _).1 hf
  have ht : Settled demoOperator "j" (abortState true).run.world := by decide +kernel
  refine ⟨ssj, hs, of_decide_eq_true hp, ht, ?_⟩
  exact (write_block_released demoOperator "j" (demoSpec true) (demoWorld (demoSpec true)) (abortState true)
    (runFrom_reachable (abortRun_isSome true)) (demo_fresh true) (by decide) (by decide +kernel) ssj hs).2.1
    (of_decide_eq_true hp) rfl (by decide +kernel) ht

def routingFailedEvents : List (Event apiServer Str) :=
  [3, 3, 9, 4].flatMap (pass "j") ++ finishDemo .copy true :: [6, 3, 6].flatMap (pass "j") ++
    [.start "j", .call "j" .done, .call "j" (.failed (.other "timeout")), .call "j" .done,
      .call "j" .done, .stop "j"]

/-- A run of job `j` alone, from a keyspace that is open, ends in Failed with the keyspace blocked and nothing left to
do. -/
def LeavesBlocked (spec : ShardSplitJobSpec) (es : List (Event apiServer Str)) : Bool :=
  !writeBlocked spec (demoWorld spec) && (runFrom demoOperator (demoWorld spec) es).any fun s =>
    decide (OnlyJob "j" s.run) &&
      (s.run.world.splitJobs.lookup (str "j")).any (fun ssj => decide (ssj.status.phase = .failed)) &&
      decide (Settled demoOperator "j" s.run.world) && writeBlocked spec s.run.world

/-- A failed `cdc-abort` Job leaves the keyspace of an online job blocked, and a failed listing that of an offline
one. -/
theorem write_block_left : FreshJob "j" (demoSpec true) (demoWorld (demoSpec true)) ∧
      LeavesBlocked (demoSpec true) (abortRun false) ∧
      FreshJob "j" (demoSpec false) (demoWorld (demoSpec false)) ∧
      LeavesBlocked (demoSpec false) routingFailedEvents :=
  ⟨demo_fresh true, by decide +kernel, demo_fresh false, by decide +kernel⟩

end PostgresOperator
