import PostgresOperator.Reshard.SingleJob

/-!
# The order of the phases

What holds at each change of the keyspace along a run of one job, whatever calls fail and wherever the operator
crashes: the ranges are switched behind the data movement and the write-block, the source is cleaned after the switch,
and the targets get their operational identity last.  The invariant is `PhaseFacts`: what is known of a job that has
reached a phase.  All of it is monotone, so it survives that a phase is executed again.
-/

namespace PostgresOperator

open Go Calls List

variable {op : Operator} {n : Str} {spec : ShardSplitJobSpec} {h : Hist} {l : Label Str Req} {w : World}

def ShardSplitPhase.rank : ShardSplitPhase → Nat
  | .new | .pending | .failed | .aborted => 0
  | .snapshotWAL => 1
  | .bootstrap => 2
  | .initialCopy => 3
  | .cdcCatchup => 4
  | .cutover => 5
  | .routingUpdate => 6
  | .cleanup => 7
  | .promote => 8
  | .completed => 9

structure PhaseFacts (op : Operator) (spec : ShardSplitJobSpec) (p : ShardSplitPhase) (h : Hist) : Prop where
  accepted : 1 ≤ p.rank → GateAccepts spec
  copied : 4 ≤ p.rank → spec.online = false → JobsDone spec .copy h.world
  caughtUp : 5 ≤ p.rank → spec.online → JobsDone spec .cdcSetup h.world ∧ JobsDone spec .cdcFinalize h.world
  blocked : 6 ≤ p.rank → h.Past fun w => writeBlocked spec w
  switched : 7 ≤ p.rank → Switched spec h
  deleted : 8 ≤ p.rank → JobsDone spec .delete h.world ∧ ∃ srcDNS, SourceOrdinal op spec srcDNS

variable {p : ShardSplitPhase}

/-- What is known of a phase survives every step of anyone. -/
theorem PhaseFacts.step (hf : PhaseFacts op spec p h) (hs : ProtocolStep op h l w) :
    PhaseFacts op spec p (h.step l w) where
  accepted := hf.accepted
  copied hr ho := hs.grows.jobsDone (hf.copied hr ho)
  caughtUp hr ho := ⟨hs.grows.jobsDone (hf.caughtUp hr ho).1, hs.grows.jobsDone (hf.caughtUp hr ho).2⟩
  blocked hr := .inl (hf.blocked hr)
  switched hr := .inl (hf.switched hr)
  deleted hr := ⟨hs.grows.jobsDone (hf.deleted hr).1, (hf.deleted hr).2⟩

theorem phaseFacts_of_rank_zero (hp : p.rank = 0) : PhaseFacts op spec p h := by
  constructor <;> (intro hr; omega)

variable {next : ShardSplitPhase} {failure : Option FailureReason}

theorem rank_nextPhase (hn : nextPhase spec p = (next, failure)) : next.rank ≤ p.rank + 1 := by
  have hg : (pendingGate spec).1.rank ≤ 1 := by
    unfold pendingGate
    split
    · simp [ShardSplitPhase.rank]
    · split
      · simp [ShardSplitPhase.rank]
      · split <;> simp [ShardSplitPhase.rank]
  obtain rfl : (nextPhase spec p).1 = next := by rw [hn]
  cases p with
  | new | pending => simpa [nextPhase, ShardSplitPhase.rank] using hg
  | cutover =>
    simp only [nextPhase]
    split <;> simp [ShardSplitPhase.rank]
  | _ => simp [nextPhase, ShardSplitPhase.rank]

theorem gateAccepts_of_nextPhase (hn : pendingGate spec = (next, failure)) (hr : 1 ≤ next.rank) :
    GateAccepts spec := by
  unfold GateAccepts nextPhase
  revert hn
  unfold pendingGate
  split
  · rintro ⟨⟩
    exact absurd hr (by decide)
  · split
    · rintro ⟨⟩
      exact absurd hr (by decide)
    · split
      · rintro ⟨⟩
        exact absurd hr (by decide)
      · exact fun _ => rfl

variable {ssj : ShardSplitJob}

/-- A phase that has done its work hands over what the next one rests on. -/
theorem PhaseFacts.advance
    (hf : PhaseFacts op ssj.spec ssj.status.phase h) (hn : nextPhase ssj.spec ssj.status.phase = (next, failure))
    (hd : PhaseDone op n ssj h) : PhaseFacts op ssj.spec next h := by
  have hrn := rank_nextPhase hn
  -- a fact of the next phase is one of the present phase, or the present phase has just established it
  cases hp : ssj.status.phase with
  | initialCopy =>
    rw [hp] at hf hrn
    simp only [PhaseDone, hp] at hd
    change next.rank ≤ 4 at hrn
    exact ⟨fun _ => hf.accepted (by decide), fun _ ho => hd ho, by omega, by omega, by omega, by omega⟩
  | cdcCatchup =>
    rw [hp] at hf hrn
    simp only [PhaseDone, hp] at hd
    change next.rank ≤ 5 at hrn
    exact ⟨fun _ => hf.accepted (by decide), fun _ => hf.copied (by decide),
      fun _ ho => ⟨(hd ho).1, (hd ho).2.1⟩, by omega, by omega, by omega⟩
  | cutover =>
    rw [hp] at hf hrn hn
    simp only [PhaseDone, hp] at hd
    change next.rank ≤ 6 at hrn
    refine ⟨fun _ => hf.accepted (by decide), fun _ => hf.copied (by decide), fun _ => hf.caughtUp (by decide),
      fun hr => ?_, by omega, by omega⟩
    cases hfwd : ssj.spec.allowForwardOnly with
    | false => exact (hd hfwd).mono fun w hw => hw.2
    | true =>
      simp only [nextPhase, hfwd, if_true, Prod.mk.injEq] at hn
      rw [← hn.1] at hr
      exact absurd hr (by decide)
  | routingUpdate =>
    rw [hp] at hf hrn
    simp only [PhaseDone, hp] at hd
    change next.rank ≤ 7 at hrn
    exact ⟨fun _ => hf.accepted (by decide), fun _ => hf.copied (by decide), fun _ => hf.caughtUp (by decide),
      fun _ => hf.blocked (by decide), fun _ => hd.1, by omega⟩
  | cleanup =>
    rw [hp] at hf
    simp only [PhaseDone, hp] at hd
    exact ⟨fun _ => hf.accepted (by decide), fun _ => hf.copied (by decide), fun _ => hf.caughtUp (by decide),
      fun _ => hf.blocked (by decide), fun _ => hf.switched (by decide), fun _ => hd⟩
  | promote | completed =>
    rw [hp] at hf
    exact ⟨fun _ => hf.accepted (by decide), fun _ => hf.copied (by decide), fun _ => hf.caughtUp (by decide),
      fun _ => hf.blocked (by decide), fun _ => hf.switched (by decide), fun _ => hf.deleted (by decide)⟩
  | new | pending =>
    rw [hp] at hn hrn
    replace hrn : next.rank ≤ 3 := hrn.trans (by decide)
    refine ⟨fun hr => ?_, by omega, by omega, by omega, by omega, by omega⟩
    exact gateAccepts_of_nextPhase hn hr
  | snapshotWAL | bootstrap =>
    rw [hp] at hf hrn
    replace hrn : next.rank ≤ 3 := hrn.trans (by decide)
    exact ⟨fun _ => hf.accepted (by decide), by omega, by omega, by omega, by omega, by omega⟩
  | failed | aborted =>
    rw [hp] at hn
    cases hn
    exact phaseFacts_of_rank_zero rfl

/-- The run lemma: in every reachable state the phase of the job vouches for its past. -/
theorem Protocol.phaseFacts (hp : Protocol op h) (hfr : FreshJob n spec h.first)
    (hj : h.world.splitJobs.lookup n = some ssj) : ssj.spec = spec ∧ PhaseFacts op spec ssj.status.phase h := by
  refine Protocol.status_rule (I := fun st h => PhaseFacts op spec st.phase h) (fun w => phaseFacts_of_rank_zero rfl)
    (fun h l w ssj hp _ _ _ hf => hf.step hp.2) (fun h l w ssj st hp _ _ hs ht _ hf => ?_) hp hfr hj
  subst hs
  cases ht with
  | unsupported | hold | fail => exact phaseFacts_of_rank_zero rfl
  | advance next failure t hn hne hd => exact (hf.advance hn hd).step hp.2
  | cleanup status reason failure hph hsta => exact hf.step hp.2

/-! ### The ranges stay while the targets are promoted -/

theorem Loaded.phase_eq {ssj' : ShardSplitJob} (hl : Loaded n ssj h.world)
    (hs : h.world.splitJobs.lookup n = some ssj') : ssj.status.phase = ssj'.status.phase := by
  rw [(hl.eq hs).2]

theorem Transition.phase_late {st : ShardSplitJobStatus} (ht : Transition op n ssj h st)
    (hph : ssj.status.phase ∈ [.promote, .completed, .failed]) :
    st.phase = .completed ∨ st.phase = .failed := by
  cases ht with
  | unsupported | fail => exact .inr rfl
  | hold hw =>
    rw [hw] at hph
    simp at hph
  | advance next failure t hn hne hd =>
    simp only [mem_cons, not_mem_nil, or_false] at hph
    rcases hph with hp | hp | hp
    · rw [hp] at hn
      simp only [nextPhase, Prod.mk.injEq] at hn
      exact .inl hn.1.symm
    · rw [hp] at hn hne
      simp only [nextPhase, Prod.mk.injEq] at hn
      exact absurd hn.1.symm hne
    · rw [hp] at hn hne
      simp only [nextPhase, Prod.mk.injEq] at hn
      exact absurd hn.1.symm hne
  | cleanup status reason failure hp hs =>
    rcases hp.1 with hp | hp
    · exact .inr hp
    · rw [hp] at hph
      simp at hph

theorem shardRanges_of_promote (hs : ProtocolStep op h l w) (hby : byJob n l)
    (hj : h.world.splitJobs.lookup n = some ssj) (hp : ssj.status.phase = .promote) :
    w.shardRanges = h.world.shardRanges := by
  cases l with
  | env =>
    obtain ⟨e, he⟩ := hs
    exact (happen_cases he).1
  | call m r ok =>
    obtain rfl : m = n := by simpa [byJob] using hby
    cases hs with
    | block ssj' name sr hl hgr hr hoff =>
      have := hl.phase_eq hj
      rcases hgr with ⟨hg, -⟩ | ⟨hg, -⟩ <;> rw [hg, hp] at this <;> cases this
    | release ssj' name sr hl hgr hr hon =>
      have := hl.phase_eq hj
      rcases hgr.1.1 with hg | hg <;> rw [hg, hp] at this <;> cases this
    | switch ssj' name sr hl hg hr =>
      have := hl.phase_eq hj
      rw [hg, hp] at this
      cases this
    | _ => rfl

/-- Once the sources are seen excluded in Promote, they stay excluded until the job ends. -/
theorem Protocol.excluded (hp : Protocol op h) (ho : OnlyJob n h) (hf : FreshJob n spec h.first)
    (hj : h.world.splitJobs.lookup n = some ssj)
    (hps : h.Past fun w => (∃ ssj, Loaded n ssj w ∧ ssj.status.phase = .promote) ∧ SourcesExcluded spec w) :
    (ssj.status.phase = .promote ∧ SourcesExcluded spec h.world) ∨
      ssj.status.phase = .completed ∨ ssj.status.phase = .failed := by
  induction h generalizing ssj with
  | start w =>
    obtain ⟨⟨ssj', hl, hph⟩, hex⟩ := hps
    exact .inl ⟨by rw [← Loaded.phase_eq (h := .start w) hl hj, hph], hex⟩
  | step h l w ih =>
    rcases hps with hps | ⟨⟨ssj', hl, hph⟩, hex⟩
    · obtain ⟨ssj₀, hj₀, -⟩ := Protocol.job_exists hp.1 hf
      have hlt := ih hp.1 ho.1 hf hj₀ hps
      rcases hp.2.job_cases hj₀ with hl | ⟨st, ht, hw⟩
      · have hs : ssj.status.phase = ssj₀.status.phase := by rw [(hl.eq hj).2]
        rw [hs]
        rcases hlt with ⟨hph, hex⟩ | he
        · refine .inl ⟨hph, ?_⟩
          show SourcesExcluded spec w
          unfold SourcesExcluded
          rw [shardRanges_of_promote hp.2 ho.2 hj₀ hph]
          exact hex
        · exact .inr he
      · have hj' : w.splitJobs.lookup n = some { ssj₀ with status := st } := by
          rw [hw]
          exact lookup_setStatus hj₀ st
        obtain rfl : { ssj₀ with status := st } = ssj := Option.some.inj (hj'.symm.trans hj)
        refine .inr (ht.phase_late ?_)
        rcases hlt with ⟨hph, -⟩ | hph | hph <;> simp [hph]
    · exact .inl ⟨by rw [(hl.eq hj).2, hph], hex⟩

/-! ### The steps that change the keyspace -/

def RangesChange (w w' : World) : Prop :=
  ∃ name, (w.shardRanges.lookup name).map (·.spec.ranges) ≠ (w'.shardRanges.lookup name).map (·.spec.ranges)

def DataMoved (spec : ShardSplitJobSpec) (w : World) : Prop :=
  (spec.online = false → JobsDone spec .copy w) ∧
    (spec.online → JobsDone spec .cdcSetup w ∧ JobsDone spec .cdcFinalize w)

def BlockSet (spec : ShardSplitJobSpec) (h : Hist) : Prop :=
  writeBlocked spec h.first ∨
    h.SomeStep fun h' _ w => writeBlocked spec h'.world = false ∧ writeBlocked spec w

theorem blockSet_of_past (hp : h.Past fun w => writeBlocked spec w) : BlockSet spec h := by
  refine hp.first_or_someStep.imp_right fun hs => ?_
  simpa [Bool.not_eq_true] using hs

theorem setRange_ranges {name name' : Str} {sr : ShardRange} {new : ShardRangeSpec}
    (hr : w.rangeOf spec = some ⟨name, sr⟩) (hw : new.ranges = sr.spec.ranges) :
    ((w.setRange name { sr with spec := new }).shardRanges.lookup name').map (·.spec.ranges) =
      (w.shardRanges.lookup name').map (·.spec.ranges) := by
  unfold World.setRange
  by_cases hn : name' = name
  · subst hn
    simp [Store.lookup_replace, Store.lookup_of_find hr, hw]
  · simp [Store.lookup_replace, hn]

/-- Ranges change in one phase only. -/
theorem ProtocolStep.rangesChange (hs : ProtocolStep op h l w) (hby : byJob n l)
    (hc : RangesChange h.world w) : ∃ ssj, Loaded n ssj h.world ∧ ssj.status.phase = .routingUpdate := by
  obtain ⟨name, hne⟩ := hc
  cases l with
  | env =>
    obtain ⟨e, he⟩ := hs
    rw [(happen_cases he).1] at hne
    exact absurd rfl hne
  | call m r ok =>
    obtain rfl : m = n := by simpa [byJob] using hby
    cases hs with
    | block ssj name' sr hl hg hr hoff => exact absurd (setRange_ranges hr (by rfl)).symm hne
    | release ssj name' sr hl hg hr hon => exact absurd (setRange_ranges hr (by rfl)).symm hne
    | switch ssj name' sr hl hp hr => exact ⟨ssj, hl, hp⟩
    | _ => exact absurd rfl hne

inductive LabelSite
  | statefulSet
  | podTemplate
  | pod
  deriving DecidableEq, Repr

def World.shardIDLabel (w : World) (name : Str) : LabelSite → Option Str
  | .statefulSet => (w.statefulSets.lookup name).bind (·.labels.shardID)
  | .podTemplate => (w.statefulSets.lookup name).bind (·.templateLabels.shardID)
  | .pod => (w.pods.lookup name).bind (·.labels.shardID)

/-- Some StatefulSet, pod template or pod gets an operational shard ID. -/
def GainsShardID (w w' : World) : Prop :=
  ∃ name site, w'.shardIDLabel name site ≠ none ∧ w'.shardIDLabel name site ≠ w.shardIDLabel name site

/-- A pod gets the identity of a target only in Promote, after the sources were seen excluded. -/
theorem Act.gainsShardID {r : Req} (ha : Act op n h r w) (hg : GainsShardID h.world w) :
    ∃ ssj, Loaded n ssj h.world ∧ ssj.status.phase = .promote ∧ Seen n ssj (SourcesExcluded ssj.spec) h := by
  obtain ⟨name, site, hw, hne⟩ := hg
  cases ha with
  | provision ssj name' sts hl hp hb hm =>
    -- a StatefulSet of the Bootstrap phase has no shard ID, and nothing else changes
    exfalso
    by_cases hn : name = name'
    · subst hn
      cases site with
      | statefulSet => simp [World.shardIDLabel, hb] at hw
      | podTemplate => simp [World.shardIDLabel, hm] at hw
      | pod => exact hne rfl
    · cases site <;> simp [World.shardIDLabel, hn] at hne
  | adoptSet ssj t sts hl hp ht hs => exact ⟨ssj, hl, hp, hs⟩
  | adoptPod ssj t pod hl hp ht hs => exact ⟨ssj, hl, hp, hs⟩
  | _ => exact absurd rfl hne

def SourceUnnamed (spec : ShardSplitJobSpec) (w : World) : Prop :=
  ∀ s ∈ spec.sources, ∀ e ∈ w.shardRanges.entries, inKeyspace spec e → ∀ r ∈ e.2.spec.ranges, r.shard ≠ s

theorem ne_nil_of_sourceShardPodDNS {cluster ns src dns : Str}
    (hd : sourceShardPodDNS cluster ns src = some dns) : src ≠ [] := by
  rintro rfl
  simp [sourceShardPodDNS, shardOrdinalText, str] at hd

theorem SourcesExcluded.sourceUnnamed (hex : SourcesExcluded spec w) (hg : GateAccepts spec) {srcDNS : Str}
    (hsrc : SourceOrdinal op spec srcDNS) : SourceUnnamed spec w := by
  obtain ⟨src, hh, hd⟩ := hsrc
  obtain ⟨src', hso⟩ := length_eq_one_iff.1 (gateAccepts_iff.1 hg).2.1
  rintro s hs e he hin r hr rfl
  have hne : r.shard ≠ [] := by
    rw [hso] at hh hs
    cases hh
    rw [mem_singleton.1 hs]
    exact ne_nil_of_sourceShardPodDNS hd
  refine hex _ hs ?_
  simp only [activeShards, mem_flatMap, mem_filter, mem_map]
  exact ⟨e, ⟨he, hin⟩, ⟨r, hr, rfl⟩, by simpa using hne⟩

/-! ### Phase-order safety -/

def CreationStep (name : Str) (w w' : World) : Prop := w.jobs.lookup name = none ∧ w'.jobs.lookup name ≠ none

/-- A Job that exists was created in a phase in which its mode is allowed. -/
theorem Protocol.creation (hp : Protocol op h) (ho : OnlyJob n h) (hf : FreshJob n spec h.first)
    {mode : ReshardMode} {t : ShardSplitTarget} (ht : t ∈ spec.targets)
    (hj : h.world.jobs.lookup (reshardJobName spec.cluster t.shardID mode) ≠ none) :
    h.SomeStep fun h' _ w => CreationStep (reshardJobName spec.cluster t.shardID mode) h'.world w ∧
      Protocol op h' ∧ FreshJob n spec h'.first ∧ (∃ srcDNS, SourceOrdinal op spec srcDNS) ∧
        ∃ ssj, h'.world.splitJobs.lookup n = some ssj ∧ ssj.spec = spec ∧ ModeGuard n ssj mode h' := by
  induction h with
  | start w => exact absurd (hf.2 mode t ht) hj
  | step h l w ih =>
    by_cases hold : h.world.jobs.lookup (reshardJobName spec.cluster t.shardID mode) = none
    · obtain ⟨job, hj'⟩ := Option.ne_none_iff_exists'.1 hj
      obtain ⟨m, ok, ssj, mode', t', vindex, srcDNS, hl, hld, -, hg, hsrc, -, hn, -⟩ :=
        hp.2.created hold hj'
      obtain rfl : m = n := by simpa [byJob, hl] using ho.2
      obtain ⟨ssj₀, hsj₀, hs⟩ := Protocol.job_exists hp.1 hf
      obtain ⟨hs', hsta⟩ := hld.eq hsj₀
      rw [← hs', hs] at hn hsrc
      obtain ⟨rfl, -⟩ := reshardJobName_inj hn
      refine .inr ⟨⟨hold, hj⟩, hp.1, hf, ⟨srcDNS, hsrc⟩, { ssj with annotations := ssj₀.annotations }, ?_,
        by rw [← hs, hs'], hg⟩
      obtain ⟨a, ha⟩ := hld
      rw [hsj₀] at ha ⊢
      cases ha
      rfl
    · exact .inl (ih hp.1 ho.1 hf hold)

/-- What holds of each step of the job under the invariants holds of all its steps. -/
theorem Protocol.steps {ok : Hist → Label Str Req → World → Prop} (hp : Protocol op h)
    (ho : OnlyJob n h) (hf : FreshJob n spec h.first)
    (hok : ∀ h l w, Protocol op h → OnlyJob n h → FreshJob n spec h.first → ProtocolStep op h l w →
      byJob n l → ok h l w) : h.Steps ok := by
  induction h with
  | start w => trivial
  | step h l w ih => exact ⟨ih hp.1 ho.1 hf, hok h l w hp.1 ho.1 hf hp.2 ho.2⟩

theorem rangesChange_ok (hp : Protocol op h) (hfr : FreshJob n spec h.first) (hs : ProtocolStep op h l w)
    (hby : byJob n l) (hc : RangesChange h.world w) : DataMoved spec h.world ∧ BlockSet spec h := by
  obtain ⟨ssj, hl, hph⟩ := hs.rangesChange hby hc
  obtain ⟨ssj₀, hj₀, -⟩ := hp.job_exists hfr
  obtain ⟨-, hf⟩ := hp.phaseFacts hfr hj₀
  rw [(hl.eq hj₀).2, hph] at hf
  exact ⟨⟨hf.copied (by decide), hf.caughtUp (by decide)⟩, blockSet_of_past (hf.blocked (by decide))⟩

theorem gainsShardID_ok (hp : Protocol op h) (ho : OnlyJob n h) (hfr : FreshJob n spec h.first)
    {r : Req} (ha : Act op n h r w) (hg : GainsShardID h.world w) :
    JobsDone spec .delete h.world ∧ SourceUnnamed spec h.world := by
  obtain ⟨ssj, hl, hph, hsn⟩ := ha.gainsShardID hg
  obtain ⟨ssj₀, hj₀, hs⟩ := hp.job_exists hfr
  obtain ⟨-, hf⟩ := hp.phaseFacts hfr hj₀
  obtain ⟨hs', hsta⟩ := hl.eq hj₀
  rw [hsta, hph] at hf
  have hex : SourcesExcluded spec h.world := by
    have hps : h.Past fun w => (∃ ssj, Loaded n ssj w ∧ ssj.status.phase = .promote) ∧ SourcesExcluded spec w :=
      hsn.mono fun w hw => ⟨⟨ssj, hw.1, hph⟩, by rw [← hs, hs']; exact hw.2⟩
    rcases hp.excluded ho hfr hj₀ hps with ⟨-, hex⟩ | he | he
    · exact hex
    · rw [hsta, hph] at he
      cases he
    · rw [hsta, hph] at he
      cases he
  obtain ⟨hd, srcDNS, hsrc⟩ := hf.deleted (by decide)
  exact ⟨hd, hex.sourceUnnamed (hf.accepted (by decide)) hsrc⟩

/-- Phase-order safety of a job that runs alone.  Ranges change only when the data of every target was moved and a
step before had set the write-block; a `cdc-finalize` Job was created when every `cdc-setup` Job had succeeded and the
write-block had been set, and a `delete` Job when the ranges had been switched; an operational shard ID is given when
every `delete` Job has succeeded and the ranges do not name the source. -/
theorem reshard_phase_order (op : Operator) (n : Str) (spec : ShardSplitJobSpec) (w₀ : World)
    (s : Threads Api World Str) (hs : Threads.Reachable apiServer (reconcileThread op) w₀ s)
    (hfresh : FreshJob n spec w₀) (honly : OnlyJob n s.run) :
    (s.run.Steps fun h _ w => RangesChange h.world w → DataMoved spec h.world ∧ BlockSet spec h) ∧
    (∀ t ∈ spec.targets, s.run.world.jobs.lookup (reshardJobName spec.cluster t.shardID .cdcFinalize) ≠ none →
      s.run.SomeStep fun h _ w =>
        CreationStep (reshardJobName spec.cluster t.shardID .cdcFinalize) h.world w ∧
          JobsDone spec .cdcSetup h.world ∧ BlockSet spec h) ∧
    (∀ t ∈ spec.targets, s.run.world.jobs.lookup (reshardJobName spec.cluster t.shardID .delete) ≠ none →
      s.run.SomeStep fun h _ w =>
        CreationStep (reshardJobName spec.cluster t.shardID .delete) h.world w ∧ Switched spec h) ∧
    (s.run.Steps fun h l w => l ≠ .env → GainsShardID h.world w →
      JobsDone spec .delete h.world ∧ SourceUnnamed spec h.world) := by
  have hp := reachable_protocol op hs
  have hfr : FreshJob n spec s.run.first := by rwa [hs.first]
  refine ⟨?_, fun t ht hj => ?_, fun t ht hj => ?_, ?_⟩
  · exact hp.steps honly hfr fun h l w hp _ hfr hs hby => rangesChange_ok hp hfr hs hby
  · refine (hp.creation honly hfr ht hj).mono fun h l w hc => ?_
    obtain ⟨hste, -, -, -, ssj, -, rfl, hgr⟩ := hc
    obtain ⟨hse, hsn⟩ := hgr.2 rfl
    exact ⟨hste, hse, blockSet_of_past (hsn.mono fun w hw => hw.2)⟩
  · refine (hp.creation honly hfr ht hj).mono fun h l w hc => ?_
    obtain ⟨hste, hp, hfr, -, ssj, hsj, -, hgr⟩ := hc
    obtain ⟨-, hf⟩ := hp.phaseFacts hfr hsj
    rw [show ssj.status.phase = .cleanup from hgr.1] at hf
    exact ⟨hste, hf.switched (by decide)⟩
  · refine hp.steps honly hfr fun h l w hp honly hfr hs hby hl hg => ?_
    cases l with
    | env => exact absurd rfl hl
    | call m r ok =>
      obtain rfl : m = n := by simpa [byJob] using hby
      exact gainsShardID_ok hp honly hfr hs hg

def onlineEvents : List (Event apiServer Str) :=
  [3, 3, 9, 3, 4].flatMap (pass "j") ++ finishDemo .cdcSetup true ::
    pass "j" 10 ++ finishDemo .cdcFinalize true ::
    [11, 5, 5, 4].flatMap (pass "j") ++ finishDemo .delete true :: [6, 10].flatMap (pass "j")

theorem onlineEvents_run : (runFrom demoOperator (demoWorld (demoSpec true)) onlineEvents).isSome := by
  decide +kernel

def onlineCompleted : Threads Api World Str :=
  (runFrom demoOperator (demoWorld (demoSpec true)) onlineEvents).get onlineEvents_run

theorem reshard_phase_order_completed :
    (onlineCompleted.run.world.splitJobs.lookup (str "j")).map (·.status.phase) = some .completed ∧
      (onlineCompleted.run.Steps fun h _ w => RangesChange h.world w →
        DataMoved (demoSpec true) h.world ∧ BlockSet (demoSpec true) h) :=
  ⟨by decide +kernel,
    (reshard_phase_order demoOperator "j" (demoSpec true) _ onlineCompleted
      (runFrom_reachable onlineEvents_run) (demo_fresh true) (by decide +kernel)).1⟩

end PostgresOperator
