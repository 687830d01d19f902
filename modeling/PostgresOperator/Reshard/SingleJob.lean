import PostgresOperator.Reshard.Refinement

/-!
# Runs of one job

What the protocol says about one `ShardSplitJob` along a run: how its stored object changes from step to step, where
its Jobs come from, and what is known in each phase.

`Protocol.status_rule` is the induction that the later modules use: an invariant of the status and the past is shown
for the steps of the others and for each `Transition` of the job.  The demo cluster at the end serves for
runs on fixed inputs.
-/

namespace PostgresOperator

open Go Calls

def byJob (n : Str) : Label Str Req → Bool
  | .call m _ _ => m == n
  | .env => true

def OnlyJob (n : Str) (h : Hist) : Prop := h.Steps fun _ l _ => byJob n l

instance (n : Str) (h : Hist) : Decidable (OnlyJob n h) :=
  inferInstanceAs (Decidable (h.Steps fun _ l _ => byJob n l))

/-- Job `n` is new, and there is no Job under any of the names of its own. -/
def FreshJob (n : Str) (spec : ShardSplitJobSpec) (w : World) : Prop :=
  (∃ ssj, w.splitJobs.lookup n = some ssj ∧ ssj.spec = spec ∧ ssj.status = {}) ∧
    ∀ mode, ∀ t ∈ spec.targets, w.jobs.lookup (reshardJobName spec.cluster t.shardID mode) = none

variable {op : Operator} {n : Str} {spec : ShardSplitJobSpec} {h : Hist} {l : Label Str Req} {w : World}

/-! ### The object of the job -/

variable {ssj : ShardSplitJob}

/-- A step leaves the object of a job alone or is one of its transitions. -/
theorem ProtocolStep.job_cases (hs : ProtocolStep op h l w) (hj : h.world.splitJobs.lookup n = some ssj) :
    Loaded n ssj w ∨ ∃ st, Transition op n ssj h st ∧ w = h.world.setStatus n ssj st := by
  by_cases hn : ∀ st ok, l ≠ .call n (.updateStatus n st) ok
  · exact .inl (hs.loaded hn ⟨ssj.annotations, hj⟩)
  · push Not at hn
    obtain ⟨st, ok, rfl⟩ := hn
    cases hs with
    | idle => exact .inl ⟨ssj.annotations, hj⟩
    | status ssj' st hl ht =>
      rw [hj] at hl
      cases hl
      exact .inr ⟨st, ht, rfl⟩

theorem Loaded.of_lookup (hs : w.splitJobs.lookup n = some ssj) : Loaded n ssj w :=
  ⟨ssj.annotations, hs⟩

theorem Loaded.eq {ssj' : ShardSplitJob} (hl : Loaded n ssj w) (h : w.splitJobs.lookup n = some ssj') :
    ssj'.spec = ssj.spec ∧ ssj'.status = ssj.status := by
  obtain ⟨a, ha⟩ := hl
  rw [h] at ha
  cases ha
  exact ⟨rfl, rfl⟩

theorem lookup_setStatus (hs : w.splitJobs.lookup n = some ssj) (st : ShardSplitJobStatus) :
    (w.setStatus n ssj st).splitJobs.lookup n = some { ssj with status := st } :=
  Store.lookup_replace_self hs _

/-- A job keeps its UID and its spec. -/
theorem Protocol.job_stays (hp : Protocol op h) {uid : Nat}
    (hps : h.Past fun w => ∃ ssj, w.splitJobs.lookup n = some ssj ∧ ssj.uid = uid ∧ ssj.spec = spec) :
    ∃ ssj, h.world.splitJobs.lookup n = some ssj ∧ ssj.uid = uid ∧ ssj.spec = spec := by
  induction h with
  | start w => exact hps
  | step h l w ih =>
    rcases hps with hps | hw
    · obtain ⟨ssj, hj, hs⟩ := ih hp.1 hps
      rcases hp.2.job_cases hj with ⟨a, ha⟩ | ⟨st, -, rfl⟩
      · exact ⟨_, ha, hs⟩
      · exact ⟨_, lookup_setStatus hj st, hs⟩
    · exact hw

theorem Protocol.job_exists (hp : Protocol op h) (hf : FreshJob n spec h.first) :
    ∃ ssj, h.world.splitJobs.lookup n = some ssj ∧ ssj.spec = spec := by
  obtain ⟨⟨ssj, hj, hs, -⟩, -⟩ := hf
  obtain ⟨ssj', hj', -, hs'⟩ := hp.job_stays (Run.past_of_first ⟨ssj, hj, rfl, hs⟩)
  exact ⟨ssj', hj', hs'⟩

/-- Induction over the statuses of one job: an invariant of status and past has to survive the steps of others and the
transitions of the job. -/
theorem Protocol.status_rule {I : ShardSplitJobStatus → Hist → Prop} (hstart : ∀ w, I {} (.start w))
    (hk : ∀ h l w ssj, Protocol op (h.step l w) → FreshJob n spec h.first → h.world.splitJobs.lookup n = some ssj →
      ssj.spec = spec → I ssj.status h → I ssj.status (h.step l w))
    (hm : ∀ h l w ssj st, Protocol op (h.step l w) → FreshJob n spec h.first →
      h.world.splitJobs.lookup n = some ssj → ssj.spec = spec → Transition op n ssj h st →
      w = h.world.setStatus n ssj st → I ssj.status h → I st (h.step l w))
    (hp : Protocol op h) (hf : FreshJob n spec h.first)
    (hj : h.world.splitJobs.lookup n = some ssj) : ssj.spec = spec ∧ I ssj.status h := by
  induction h generalizing ssj with
  | start w =>
    obtain ⟨⟨ssj₀, hj₀, hs, hsta⟩, -⟩ := hf
    obtain rfl : ssj₀ = ssj := Option.some.inj (hj₀.symm.trans hj)
    rw [hsta]
    exact ⟨hs, hstart w⟩
  | step h l w ih =>
    obtain ⟨ssj₀, hj₀, -⟩ := Protocol.job_exists hp.1 hf
    obtain ⟨hs, hI⟩ := ih hp.1 hf hj₀
    rcases hp.2.job_cases hj₀ with hl | ⟨st, ht, hw⟩
    · obtain ⟨hs', hsta⟩ := hl.eq hj
      rw [hs', hsta]
      exact ⟨hs, hk h l w ssj₀ hp hf hj₀ hs hI⟩
    · have hj' : w.splitJobs.lookup n = some { ssj₀ with status := st } := by
        rw [hw]
        exact lookup_setStatus hj₀ st
      obtain rfl : { ssj₀ with status := st } = ssj := Option.some.inj (hj'.symm.trans hj)
      exact ⟨hs, hm h l w ssj₀ st hp hf hj₀ hs ht hw hI⟩

/-! ### Where a Job comes from -/

/-- A Job comes from `reconcileModeJobs` of some `ShardSplitJob`, with the vindex and the source that it read. -/
theorem ProtocolStep.created (hs : ProtocolStep op h l w) {name : Str} {job : BatchJob}
    (hnn : h.world.jobs.lookup name = none) (hb : w.jobs.lookup name = some job) :
    ∃ m ok ssj mode t vindex srcDNS, l = .call m (.createJob name job) ok ∧ Loaded m ssj h.world ∧
      t ∈ ssj.spec.targets ∧ ModeGuard m ssj mode h ∧ SourceOrdinal op ssj.spec srcDNS ∧
      VindexSeen ssj.spec vindex h ∧ name = reshardJobName ssj.spec.cluster t.shardID mode ∧
      job = buildReshardJob op ssj (modeJobParams op ssj.spec mode vindex srcDNS t.shardID) := by
  cases l with
  | env =>
    exfalso
    obtain ⟨e, he⟩ := hs
    rcases (happen_cases he).2.1 with hsm | ⟨m, job₀, job₁, ok, hb₀, -, hj⟩
    · rw [hsm, hnn] at hb
      cases hb
    · have hn : name ≠ m := by
        rintro rfl
        rw [hnn] at hb₀
        cases hb₀
      rw [hj, Store.lookup_replace_of_ne _ hn, hnn] at hb
      cases hb
  | call m r ok =>
    cases hs with
    | create ssj mode t vindex srcDNS hl ht hg hsrc hv hnn' =>
      rcases (Store.lookup_insert_iff hnn').1 hb with ⟨rfl, rfl⟩ | hb
      · exact ⟨m, ok, ssj, mode, t, vindex, srcDNS, rfl, hl, ht, hg, hsrc, hv, rfl, rfl⟩
      · rw [hnn] at hb
        cases hb
    | _ => cases (hnn.symm.trans hb : none = some job)

/-! ### Sample runs -/

def pass (n : Str) (calls : Nat) : List (Event apiServer Str) :=
  .start n :: List.replicate calls (.call n .done) ++ [.stop n]

def finishDemo (mode : ReshardMode) (ok : Bool) : Event apiServer Str :=
  .env (.finishJob (reshardJobName "demo" "t0" mode) ok)

def runFrom (op : Operator) (w : World) (es : List (Event apiServer Str)) : Option (Threads Api World Str) :=
  Threads.replay apiServer (reconcileThread op) (Threads.init w) es

theorem runFrom_reachable {w₀ : World} {es : List (Event apiServer Str)} (hs : (runFrom op w₀ es).isSome) :
    Threads.Reachable apiServer (reconcileThread op) w₀ ((runFrom op w₀ es).get hs) :=
  ⟨es, (Option.some_get hs).symm⟩

/-- A cluster with one shard whose target `t0` has a ready pod, and a new job `j` that moves all keys to `t0`. -/
def demoWorld (spec : ShardSplitJobSpec) : World where
  clock := 0
  splitJobs := AList.singleton "j" { uid := 1, spec }
  shardRanges := AList.singleton "sr" ⟨1, oneShard .hash⟩
  jobs := ∅
  clusters := AList.singleton "demo" ⟨[]⟩
  statefulSets := AList.singleton "demo-shard-0" ⟨⟨none, none⟩, ⟨none, none⟩, [(pgContainerName, "image")]⟩
  pods := AList.singleton "demo-rsd-t0-0" ⟨⟨some ("demo", "t0"), none⟩, false, true, some true⟩

def demoSpec (online : Bool) : ShardSplitJobSpec :=
  { oneTarget "0x00000000" "0xffffffff" with online }

theorem demo_fresh (online : Bool) : FreshJob "j" (demoSpec online) (demoWorld (demoSpec online)) :=
  ⟨⟨_, rfl, rfl, rfl⟩, fun _ _ _ => rfl⟩

end PostgresOperator
