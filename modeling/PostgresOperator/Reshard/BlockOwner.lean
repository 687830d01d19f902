import PostgresOperator.Reshard.WriteBlock

/-!
# One write-block for several jobs

The write-block of a keyspace is one flag that every job of the keyspace sets and clears.  A job holds it from the
moment it has set it until it switches the ranges or ends.  The flag has no owner: another job that switches its own
ranges clears it.  It stays set for the holder in the runs in which a job clears it only while no other job of the
keyspace is between CDCCatchup and the switch.
-/

namespace PostgresOperator

open Go Calls List

variable {op : Operator} {n : Str} {spec : ShardSplitJobSpec} {h : Hist} {l : Label Str Req} {w : World}

/-! ### Holding the write-block -/

def ShardSplitPhase.blocking (p : ShardSplitPhase) : Bool := p ∈ [.cdcCatchup, .cutover, .routingUpdate]

def ended (n : Str) (w : World) : Bool :=
  (w.splitJobs.lookup n).any fun ssj => decide (ssj.status.phase ∈ [.completed, .failed, .aborted])

/-- The step takes the ranges of the keyspace to the targets of `spec`. -/
def switches (spec : ShardSplitJobSpec) (w w' : World) : Bool :=
  (w.rangeOf spec).any fun e =>
    decide (w'.rangeOf spec = some ⟨e.1, e.2.resourceVersion + 1, splitRouting e.2.spec spec⟩)

/-- Job `n` sets the write-block: it turns it on, or it finds that it is on. -/
def setsBlock (n : Str) (spec : ShardSplitJobSpec) (w : World) : Label Str Req → World → Bool
  | .env, _ => false
  | .call m r _, w' => m == n && (r == .mark .blocked || !writeBlocked spec w && writeBlocked spec w')

def switchesBy (n : Str) (spec : ShardSplitJobSpec) (w : World) : Label Str Req → World → Bool
  | .env, _ => false
  | .call m _ _, w' => m == n && switches spec w w'

/-- Job `n` has set the write-block and has neither switched the ranges nor ended since. -/
def holdsBlock (n : Str) (spec : ShardSplitJobSpec) : Hist → Bool
  | .start _ => false
  | .step h l w =>
    (setsBlock n spec h.world l w || holdsBlock n spec h) && !switchesBy n spec h.world l w && !ended n w

/-- A job clears the write-block of a keyspace only while no other job of the keyspace relies on it. -/
def ReleasesAlone (h : Hist) (l : Label Str Req) (_ : World) : Prop :=
  match l with
  | .call m (.updateShardRange name sr) _ => sr.spec.writeBlocked = false →
      ∀ e ∈ h.world.splitJobs.entries, e.1 ≠ m → inKeyspace e.2.spec ⟨name, sr⟩ →
        e.2.status.phase.blocking = false
  | _ => True

instance (h : Hist) (l : Label Str Req) (w : World) : Decidable (ReleasesAlone h l w) := by
  unfold ReleasesAlone
  split <;> infer_instance

/-! ### The steps that clear the write-block -/

theorem switches_of_switchStep {w w' : World} (h : SwitchStep spec w w') : switches spec w w' := by
  obtain ⟨name, sr, hold, hn⟩ := h
  simp [switches, hold, hn]

/-- The block is cleared by an update of the `ShardRange` that some job of the keyspace is entitled to. -/
theorem ProtocolStep.opens (hs : ProtocolStep op h l w) (hon : writeBlocked spec h.world)
    (hoff : writeBlocked spec w = false) :
    ∃ m name sr ok ssj, l = .call m (.updateShardRange name sr) ok ∧ sr.spec.writeBlocked = false ∧
      inKeyspace spec ⟨name, sr⟩ ∧ Loaded m ssj h.world ∧
      (ReleaseGuard ssj h.world ∨ ssj.status.phase = .routingUpdate ∧ SwitchStep ssj.spec h.world w) := by
  cases l with
  | env =>
    obtain ⟨e, he⟩ := hs
    rw [writeBlocked, World.rangeOf, (happen_cases he).1] at hoff
    exact absurd (hoff.symm.trans hon) (by decide)
  | call m r ok =>
    cases hs with
    | block ssj name sr hl hg hr _ =>
      rw [writeBlocked_setRange_other hr (by exact ⟨rfl, rfl⟩), hon] at hoff
      simp at hoff
    | release ssj name sr hl hg hr _ =>
      refine ⟨m, _, _, ok, ssj, rfl, rfl, ?_, hl, .inl hg⟩
      rw [writeBlocked_setRange_other hr (by exact ⟨rfl, rfl⟩), hon] at hoff
      simpa [inKeyspace] using hoff
    | switch ssj name sr hl hp hr =>
      refine ⟨m, _, _, ok, ssj, rfl, rfl, ?_, hl, .inr ⟨hp, name, sr, hr, ?_⟩⟩
      · rw [writeBlocked_setRange_other hr (by exact ⟨rfl, rfl⟩), hon] at hoff
        exact decide_eq_true (by simpa [inKeyspace, splitRouting] using hoff)
      · rw [rangeOf_setRange hr _ (by exact ⟨rfl, rfl⟩), if_pos (find?_some hr)]
    | _ => exact absurd (hoff.symm.trans hon) (by decide)

variable {ssj : ShardSplitJob}

/-- In the runs considered, that job is the holder itself. -/
theorem ProtocolStep.opens_own (hs : ProtocolStep op h l w) (ha : ReleasesAlone h l w)
    (hj : h.world.splitJobs.lookup n = some ssj) (hph : ssj.status.phase.blocking)
    (hon : writeBlocked ssj.spec h.world) (hoff : writeBlocked ssj.spec w = false) :
    ssj.status.phase = .routingUpdate ∧ switchesBy n ssj.spec h.world l w := by
  obtain ⟨m, name, sr, ok, ssj', rfl, hc, hin, hl, hg⟩ := hs.opens hon hoff
  by_cases hm : m = n
  · subst hm
    obtain ⟨hsp, hsta⟩ := hl.eq hj
    rw [← hsp, ← hsta] at hg
    rcases hg with ⟨⟨hf, -⟩, -⟩ | ⟨hu, hsw⟩
    · rw [← hsta] at hf
      rcases hf with hp | hp <;> rw [hp] at hph <;> cases hph
    · exact ⟨hu, by simp [switchesBy, switches_of_switchStep hsw]⟩
  · have := ha hc ⟨n, ssj⟩ (AList.mem_lookup_iff.1 hj) (Ne.symm hm) hin
    exact absurd (hph.symm.trans this) (by decide)

/-! ### The holder -/

theorem Protocol.isLate_stays (hp : Protocol op h) (hps : h.Past (IsLate n)) : IsLate n h.world := by
  induction h with
  | start w => exact hps
  | step h l w ih => exact hps.elim (fun hps => hp.2.isLate (ih hp.1 hps)) id

def InBlock (n : Str) (spec : ShardSplitJobSpec) (w : World) : Prop :=
  ∃ ssj, w.splitJobs.lookup n = some ssj ∧ ssj.spec = spec ∧ ssj.status.phase ∈ [.cdcCatchup, .cutover]

theorem Transition.from_block {st : ShardSplitJobStatus} (ht : Transition op n ssj h st)
    (hph : ssj.status.phase ∈ [.cdcCatchup, .cutover]) :
    st.phase = .cutover ∨ st.phase = .routingUpdate ∨ st.phase = .failed := by
  simp only [mem_cons, not_mem_nil, or_false] at hph
  cases ht with
  | unsupported | fail => exact .inr (.inr rfl)
  | hold hw => rw [hw] at hph; simp at hph
  | advance next failure t hn hne hd =>
    rcases hph with hph | hph
    · rw [hph] at hn
      cases hn
      exact .inl rfl
    · rw [hph, nextPhase] at hn
      split at hn <;> cases hn
      · exact .inr (.inr rfl)
      · exact .inr (.inl rfl)
  | cleanup status reason failure hm hs =>
    rcases hm.1 with hp | hp <;> rw [hp] at hph <;> simp at hph

/-- The block that a job set stays until the job is late. -/
theorem Protocol.block_stays (hp : Protocol op h) (hal : h.Steps ReleasesAlone)
    (hps : h.Past fun w => InBlock n spec w ∧ writeBlocked spec w) :
    IsLate n h.world ∨ InBlock n spec h.world ∧ writeBlocked spec h.world := by
  induction h with
  | start w => exact .inr hps
  | step h l w ih =>
    rcases hps with hps | hw
    · rcases ih hp.1 hal.1 hps with hl | ⟨⟨ssj, hs, rfl, hph⟩, hon⟩
      · exact .inl (hp.2.isLate hl)
      · rcases hp.2.job_cases hs with ⟨a, ha⟩ | ⟨st, ht, rfl⟩
        · refine .inr ⟨⟨_, ha, rfl, hph⟩, ?_⟩
          by_contra hoff
          have hb : ssj.status.phase.blocking := by
            simp only [mem_cons, not_mem_nil, or_false] at hph
            rcases hph with hph | hph <;> rw [hph] <;> rfl
          obtain ⟨hu, -⟩ := hp.2.opens_own hal.2 hs hb hon (by simpa using hoff)
          simp [hu] at hph
        · have hn := lookup_setStatus hs st
          rcases ht.from_block hph with hst | hst | hst
          · exact .inr ⟨⟨_, hn, rfl, by simp [hst]⟩, hon⟩
          · exact .inl ⟨_, .of_lookup hn, by rw [hst]; rfl⟩
          · exact .inl ⟨_, .of_lookup hn, by rw [hst]; rfl⟩
    · exact .inr hw

structure Holding (n : Str) (spec : ShardSplitJobSpec) (h : Hist) : Prop where
  blocked : writeBlocked spec h.world
  job : ∃ ssj, h.world.splitJobs.lookup n = some ssj ∧ ssj.spec = spec ∧ ssj.status.phase.blocking
  early : ¬ h.Past fun w => IsLate n w ∧ writeBlocked spec w = false

theorem holding_of_inBlock (hp : Protocol op h) (hin : InBlock n spec h.world)
    (hon : writeBlocked spec h.world) : Holding n spec h := by
  obtain ⟨ssj, hj, hs, hph⟩ := hin
  simp only [mem_cons, not_mem_nil, or_false] at hph
  refine ⟨hon, ⟨ssj, hj, hs, ?_⟩, fun hps => ?_⟩
  · rcases hph with hph | hph <;> rw [hph] <;> rfl
  · have hl := (hp.isLate_stays (hps.mono fun _ hw => hw.1)).of_loaded (.of_lookup hj)
    rcases hph with hph | hph <;> rw [hph] at hl <;> cases hl

theorem inBlock_of_mark (hp : Protocol op h) (hal : h.Steps ReleasesAlone)
    (hs : ∀ ssj, w.splitJobs.lookup n = some ssj → ssj.spec = spec) (ha : Act op n h (.mark .blocked) w) :
    InBlock n spec w ∧ writeBlocked spec w := by
  cases ha with
  | idle r hr => exact absurd rfl (hr .blocked)
  | blocked ssj hl hg hsn =>
    obtain rfl : ssj.spec = spec := by
      obtain ⟨a, ha⟩ := hl
      have hsto := hs _ ha
      exact hsto
    have hps : h.Past fun w => InBlock n ssj.spec w ∧ writeBlocked ssj.spec w := by
      refine hsn.mono fun w hw => ⟨?_, hw.2⟩
      obtain ⟨⟨a, ha⟩, -⟩ := hw
      exact ⟨_, ha, rfl, hg.phase_mem⟩
    rcases hp.block_stays hal hps with hlt | hin
    · exact absurd (hlt.of_loaded hl) (by simp [hg.not_late])
    · exact hin

theorem inBlock_of_blocks {r : Req} {ok : Bool} (hs : ProtocolStep op h (.call n r ok) w)
    (hsp : ∀ ssj, w.splitJobs.lookup n = some ssj → ssj.spec = spec) (hoff : writeBlocked spec h.world = false)
    (hon : writeBlocked spec w) : InBlock n spec w := by
  obtain ⟨m, r', ok', ssj, hl, ⟨a, ha⟩, hg⟩ := hs.blocks hoff hon
  cases hl
  rcases hs.job_cases ha with ⟨a', ha'⟩ | ⟨st, -, rfl⟩
  · exact ⟨_, ha', hsp _ ha', hg.phase_mem⟩
  · exact absurd (hoff.symm.trans hon) (by decide)

theorem holding_of_sets (hp : Protocol op (h.step l w)) (ha : h.Steps ReleasesAlone)
    (hsp : ∀ ssj, w.splitJobs.lookup n = some ssj → ssj.spec = spec)
    (hs : setsBlock n spec h.world l w) : Holding n spec (h.step l w) := by
  cases l with
  | env => cases hs
  | call m r ok =>
    simp only [setsBlock, Bool.and_eq_true, Bool.or_eq_true, beq_iff_eq, Bool.not_eq_true'] at hs
    obtain ⟨rfl, rfl | ⟨hoff, hon⟩⟩ := hs
    · obtain ⟨hin, hon⟩ := inBlock_of_mark hp.1 ha hsp hp.2
      exact holding_of_inBlock hp hin hon
    · exact holding_of_inBlock hp (inBlock_of_blocks hp.2 hsp hoff hon) hon

theorem Transition.from_blocking {st : ShardSplitJobStatus}
    (ht : Transition op n ssj h st) (hph : ssj.status.phase.blocking)
    (he : ¬ h.Past fun w => IsLate n w ∧ writeBlocked ssj.spec w = false) :
    st.phase.blocking ∨ st.phase = .failed := by
  cases ht with
  | unsupported | fail => exact .inr rfl
  | hold hnw =>
    rw [hnw] at hph
    cases hph
  | advance next failure t hn hne hd =>
    simp only [ShardSplitPhase.blocking, mem_cons, not_mem_nil, or_false, decide_eq_true_eq] at hph
    rcases hph with hph | hph | hph
    · rw [hph] at hn
      cases hn
      exact .inl rfl
    · rw [hph, nextPhase] at hn
      split at hn <;> cases hn
      · exact .inr rfl
      · exact .inl rfl
    · -- to leave RoutingUpdate the job has seen its keyspace open there
      simp only [PhaseDone, hph] at hd
      exact absurd (hd.2.mono fun w hw => ⟨⟨ssj, hw.1, by rw [hph]; rfl⟩, hw.2⟩) he
  | cleanup status reason failure hm hs =>
    rcases hm.1 with hp | hp <;> rw [hp] at hph <;> cases hph

/-- A holder keeps the block until it switches its ranges or ends. -/
theorem Holding.step (hh : Holding n spec h) (hp : Protocol op (h.step l w)) (hal : ReleasesAlone h l w)
    (hsw : switchesBy n spec h.world l w = false) (he : ended n w = false) : Holding n spec (h.step l w) := by
  obtain ⟨ssj, hs, rfl, hph⟩ := hh.job
  have hon : writeBlocked ssj.spec w := by
    by_contra hoff
    obtain ⟨-, ho⟩ := hp.2.opens_own hal hs hph hh.blocked (by simpa using hoff)
    exact absurd (hsw.symm.trans ho) (by decide)
  refine ⟨hon, ?_, ?_⟩
  · rcases hp.2.job_cases hs with ⟨a, ha⟩ | ⟨st, ht, rfl⟩
    · exact ⟨_, ha, rfl, hph⟩
    · have hn := lookup_setStatus hs st
      rcases ht.from_blocking hph hh.early with hst | hst
      · exact ⟨_, hn, rfl, hst⟩
      · simp [ended, hn, hst] at he
  · rintro (hps | ⟨-, hoff⟩)
    · exact hh.early hps
    · exact absurd (hoff.symm.trans hon) (by decide)

/-- The run lemma for holders. -/
theorem Protocol.holding (hp : Protocol op h) (ha : h.Steps ReleasesAlone)
    (hs : ∀ ssj, h.world.splitJobs.lookup n = some ssj → ssj.spec = spec) (hh : holdsBlock n spec h) :
    Holding n spec h := by
  induction h with
  | start w => cases hh
  | step h l w ih =>
    simp only [holdsBlock, Bool.and_eq_true, Bool.or_eq_true, Bool.not_eq_true'] at hh
    obtain ⟨⟨hse | hh, hsw⟩, he⟩ := hh
    · exact holding_of_sets hp ha.1 hs hse
    · refine (ih hp.1 ha.1 (fun ssj hj => ?_) hh).step hp ha.2 hsw he
      obtain ⟨ssj', hj', -, hs'⟩ := hp.job_stays (.inl (Run.past_of_world ⟨ssj, hj, rfl, rfl⟩))
      rw [← hs', hs ssj' hj']

/-- The write-block is exclusive in the runs in which jobs clear it alone: while a job holds the write-block of its
keyspace, the keyspace refuses writes, whatever the other jobs do. -/
theorem write_block_exclusive (op : Operator) (w₀ : World) (s : Threads Api World Str)
    (hs : Threads.Reachable apiServer (reconcileThread op) w₀ s) (halone : s.run.Steps ReleasesAlone)
    (n : Str) (ssj : ShardSplitJob) (hssj : s.run.world.splitJobs.lookup n = some ssj)
    (hholds : holdsBlock n ssj.spec s.run) : writeBlocked ssj.spec s.run.world := by
  have hsp : ∀ ssj', s.run.world.splitJobs.lookup n = some ssj' → ssj'.spec = ssj.spec := fun ssj' hssj' => by
    rw [Option.some.inj (hssj'.symm.trans hssj)]
  exact ((reachable_protocol op hs).holding halone hsp hholds).blocked

def rivalSpec : ShardSplitJobSpec where
  cluster := "demo"
  keyspace := "default"
  sources := ["shard-0"]
  targets := [{ shardID := "t1", ranges := [⟨"0x00000000", "0xffffffff", "t1"⟩] }]

def rivalWorld : World :=
  let w := demoWorld (demoSpec false)
  { w with
    splitJobs := w.splitJobs.insert "k" { uid := 2, spec := rivalSpec }
    pods := w.pods.insert "demo-rsd-t1-0" ⟨⟨some ("demo", "t1"), none⟩, false, true, some true⟩ }

def holderEvents : List (Event apiServer Str) :=
  [3, 3, 9, 4].flatMap (pass "j") ++ finishDemo .copy true :: [6, 3, 6].flatMap (pass "j")

def rivalEvents : List (Event apiServer Str) :=
  [3, 3, 9, 4].flatMap (pass "k") ++
    .env (.finishJob (reshardJobName "demo" "t1" .copy) true) :: [6, 3, 5, 5].flatMap (pass "k")

theorem holderEvents_run : (runFrom demoOperator rivalWorld holderEvents).isSome := by decide +kernel

def holderState : Threads Api World Str := (runFrom demoOperator rivalWorld holderEvents).get holderEvents_run

theorem write_block_exclusive_holder : ∃ ssj, holderState.run.world.splitJobs.lookup (str "j") = some ssj ∧
      holdsBlock (str "j") ssj.spec holderState.run ∧ writeBlocked ssj.spec holderState.run.world := by
  have hf : (holderState.run.world.splitJobs.lookup (str "j")).any (fun ssj =>
      holdsBlock (str "j") ssj.spec holderState.run) := by decide +kernel
  obtain ⟨ssj, hs, hh⟩ := (Option.any_eq_true _ _).1 hf
  exact ⟨ssj, hs, hh, write_block_exclusive demoOperator rivalWorld holderState
    (runFrom_reachable holderEvents_run) (by decide +kernel) "j" ssj hs hh⟩

/-- While job `j` holds the write-block in RoutingUpdate, job `k` switches its own ranges, and the keyspace accepts
writes. -/
theorem write_block_cleared_by_rival : (runFrom demoOperator rivalWorld (holderEvents ++ rivalEvents)).any (fun s =>
      (s.run.world.splitJobs.lookup (str "j")).any fun ssj =>
        holdsBlock "j" ssj.spec s.run && !writeBlocked ssj.spec s.run.world) := by
  decide +kernel

end PostgresOperator
