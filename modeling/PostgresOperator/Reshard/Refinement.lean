import PostgresOperator.Reshard.Protocol

/-!
# `Reconcile` keeps to the protocol

The rely/guarantee proof that every request of `Reconcile`, however it turns out and whatever the other jobs and the
cluster do in between, is a step of the protocol.  Each function of the controller has one lemma: under a condition
`P` that the others keep, it makes only steps of the protocol, and what it reports is so.

The lemmas on single requests come first (`safe_read`, `safe_write`, `safe_updateShardRange`), then the functions
bottom up, then the phases (`safe_phaseWork`) and `safe_reconcile`.  `reachable_protocol` puts the threads together; a
change to one function of the controller touches its lemma here and nothing after it.
-/

namespace PostgresOperator

open Go Calls List

def Rely (op : Operator) (n : Str) (h h' : Hist) : Prop :=
  ∃ l w, h' = h.step l w ∧ ProtocolStep op h l w ∧ ∀ st ok, l ≠ .call n (.updateStatus n st) ok

def Guar (op : Operator) (n : Str) (h h' : Hist) : Prop :=
  ∃ r ok w, h' = h.step (.call n r ok) w ∧ Act op n h r w

abbrev jobSetting (op : Operator) (n : Str) : Setting Api Hist :=
  Threads.setting apiServer (Protocol op) (Rely op) (Guar op) n

variable {op : Operator} {n : Str} {ssj : ShardSplitJob} {α : Type}

/-! ### Conditions that the others keep -/

/-- A job's own object is safe from the others: they never write its status. -/
theorem stable_loaded (ssj : ShardSplitJob) : (jobSetting op n).Stable fun h => Loaded n ssj h.world := by
  rintro h _ ⟨l, w, rfl, hs, hn⟩ hl
  exact hs.loaded hn hl

theorem stable_jobsDone (spec : ShardSplitJobSpec) (mode : ReshardMode) :
    (jobSetting op n).Stable fun h => JobsDone spec mode h.world := by
  rintro h _ ⟨l, w, rfl, hs, -⟩ hd
  exact hs.grows.jobsDone hd

theorem stable_jobSucceeded (name : Str) : (jobSetting op n).Stable fun h => jobSucceeded h.world name := by
  rintro h _ ⟨l, w, rfl, hs, -⟩ hd
  exact hs.grows.jobSucceeded hd

theorem stable_past (φ : World → Prop) : (jobSetting op n).Stable fun h => h.Past φ := by
  rintro h _ ⟨l, w, rfl, -, -⟩ hp
  exact hp.step l w

theorem stable_someStep (ok : Hist → Label Str Req → World → Prop) :
    (jobSetting op n).Stable fun h => h.SomeStep ok := by
  rintro h _ ⟨l, w, rfl, -, -⟩ hp
  exact .inl hp

theorem stable_const (p : Prop) : (jobSetting op n).Stable fun _ => p := fun _ _ _ hp => hp

variable {P : Hist → Prop} {h : Hist}

theorem stable_imp {p : Prop} (hP : (jobSetting op n).Stable P) : (jobSetting op n).Stable fun h => p → P h :=
  Setting.Stable.forall fun _ => hP

theorem stable_or {P' : Hist → Prop} (hP : (jobSetting op n).Stable P) (hP' : (jobSetting op n).Stable P') :
    (jobSetting op n).Stable fun h => P h ∨ P' h :=
  fun h h' hr hp => hp.imp (hP h h' hr) (hP' h h' hr)

/-- The others keep the condition, and the job is the one that was read. -/
private structure Steady (op : Operator) (n : Str) (ssj : ShardSplitJob) (P : Hist → Prop) : Prop where
  stable : (jobSetting op n).Stable P
  loaded : ∀ h, P h → Loaded n ssj h.world

theorem steady_loaded (ssj : ShardSplitJob) : Steady op n ssj fun h => Loaded n ssj h.world :=
  ⟨stable_loaded ssj, fun _ => id⟩

/-- A stable fact may be carried along with the status that was loaded. -/
theorem Steady.and {P' : Hist → Prop} (hP : Steady op n ssj P) (h' : (jobSetting op n).Stable P') :
    Steady op n ssj fun h => P h ∧ P' h :=
  ⟨hP.stable.and h', fun h hp => hP.loaded h hp.1⟩

/-! ### Rules for the requests -/

section Rules

variable {r : Req}

theorem failed_of_fail {e : ApiError} {a : r.Res} (h : r.fail e = some a) : Api.failed (r := r) a := by
  cases r <;> cases h <;> rfl

variable (hP : (jobSetting op n).Stable P) (hw : P h)
include hP hw

/-- The rule for one request: if each of its outcomes is a step of the protocol, the program may make it. -/
theorem safe_request (hns : ∀ st, r ≠ .updateStatus n st)
    (ht : ∀ h c, P h → Protocol op h → Act op n h r (answer c r h.world).2) :
    Safe (jobSetting op n)
      (fun a h' => P h' ∧ Protocol op h' ∧ ∃ h c, P h ∧ Protocol op h ∧ a = (answer c r h.world).1 ∧
      h' = h.step (.call n r (!Api.failed (r := r) a)) (answer c r h.world).2) (Prog.request (I := Api) r) h := by
  refine safe_call P hP hw ?_
  rintro h a _ hv hp ⟨c, w, has, rfl⟩
  change answer c r h.world = (a, w) at has
  have ha := ht h c hp hv
  rw [has] at ha
  refine ⟨⟨r, _, w, rfl, ha⟩, fun hv' => ⟨hP h _ ⟨_, w, rfl, ha, ?_⟩ hp, hv', h, c, hp, hv, by rw [has], by rw [has]⟩⟩
  rintro st ok heq
  cases heq
  exact hns st rfl

/-- A read keeps what is known and returns what the world holds at that moment, or an error. -/
theorem safe_read (hr : ∀ w, (exec r w).2 = w) (hns : ∀ st, r ≠ .updateStatus n st) (hm : ∀ m, r ≠ .mark m) :
    Safe (jobSetting op n) (fun a h' => P h' ∧ (a = (exec r h'.world).1 ∨
      ∃ e h, r.fail e = some a ∧ P h ∧ h' = h.step (.call n r false) h.world)) (Prog.request (I := Api) r) h := by
  have hwr : ∀ c w, (answer c r w).2 = w := by
    intro c w
    cases c with
    | done => exact hr w
    | failed e =>
      simp only [answer]
      split
      · exact hr w
      · rfl
    | lost e =>
      simp only [answer]
      split <;> exact hr w
  have hc : ∀ c w, (answer c r w).1 = (exec r w).1 ∨ ∃ e, r.fail e = some (answer c r w).1 := by
    intro c w
    cases c with
    | done => exact .inl rfl
    | failed e | lost e =>
      simp only [answer]
      split
      · exact .inl rfl
      · rename_i a ha
        exact .inr ⟨e, ha⟩
  refine (safe_request hP hw hns fun h c _ _ => by rw [hwr]; exact .idle r hm).mono ?_
  rintro a h' ⟨hp', -, h, c, hp, -, rfl, rfl⟩
  rw [hwr] at hp' ⊢
  rcases hc c h.world with hv | ⟨e, he⟩
  · exact ⟨hp', .inl hv⟩
  · rw [failed_of_fail he] at hp' ⊢
    exact ⟨hp', .inr ⟨e, h, he, hp, rfl⟩⟩

theorem safe_now : Safe (jobSetting op n) (fun _ h => P h) now h :=
  (safe_read (r := .now) hP hw (fun _ => rfl) (by simp) (by simp)).mono fun _ _ h => h.1

theorem safe_getShardSplitJob (m : Str) : Safe (jobSetting op n)
    (fun a h => P h ∧ ∀ job, a = .ok job → job = h.world.splitJobs.lookup m) (getShardSplitJob m) h := by
  refine (safe_read (r := .getShardSplitJob m) hP hw (fun _ => rfl) (by simp) (by simp)).mono ?_
  rintro a h ⟨hp, ha | ⟨e, -, he, -⟩⟩
  · exact ⟨hp, fun job hj => Except.ok.inj (hj.symm.trans ha)⟩
  · exact ⟨hp, fun job hj => by cases he; cases hj⟩

theorem safe_getJob (name : Str) : Safe (jobSetting op n)
    (fun a h => P h ∧ ∀ job, a = .ok job → job = h.world.jobs.lookup name) (getJob name) h := by
  refine (safe_read (r := .getJob name) hP hw (fun _ => rfl) (by simp) (by simp)).mono ?_
  rintro a h ⟨hp, ha | ⟨e, -, he, -⟩⟩
  · exact ⟨hp, fun job hj => Except.ok.inj (hj.symm.trans ha)⟩
  · exact ⟨hp, fun job hj => by cases he; cases hj⟩

theorem safe_listShardRanges : Safe (jobSetting op n)
    (fun a h' => P h' ∧ match a with
      | .ok entries => entries = h'.world.shardRanges.entries
      | .error _ => ∃ h, P h ∧ h' = h.step (.call n .listShardRanges false) h.world) listShardRanges h := by
  refine (safe_read (r := .listShardRanges) hP hw (fun _ => rfl) (by simp) (by simp)).mono ?_
  rintro a h ⟨hp, rfl | ⟨e, h, he, hp₀, rfl⟩⟩
  · exact ⟨hp, rfl⟩
  · cases he
    exact ⟨hp, h, hp₀, rfl⟩

/-- A write that is a step of the protocol when it takes effect may also fail or lose its answer. -/
theorem safe_write (hns : ∀ st, r ≠ .updateStatus n st) (hm : ∀ m, r ≠ .mark m)
    (ha : ∀ h, P h → Act op n h r (exec r h.world).2) :
      Safe (jobSetting op n) (fun _ h => P h) (Prog.request (I := Api) r) h := by
  refine (safe_request hP hw hns fun h c hp _ => ?_).mono fun _ _ h => h.1
  cases c with
  | done => exact ha h hp
  | failed e =>
    simp only [answer]
    split
    · exact ha h hp
    · exact .idle r hm
  | lost e =>
    simp only [answer]
    split <;> exact ha h hp

theorem safe_idle (hns : ∀ st, r ≠ .updateStatus n st) (hm : ∀ m, r ≠ .mark m) (he : ∀ w, (exec r w).2 = w) :
    Safe (jobSetting op n) (fun _ h => P h) (Prog.request (I := Api) r) h :=
  safe_write hP hw hns hm fun h _ => by rw [he]; exact .idle r hm

theorem safe_mark {m : Mark} (ha : ∀ h, P h → Act op n h (.mark m) h.world) :
    Safe (jobSetting op n) (fun _ h => P h) (mark m) h := by
  refine (safe_request (r := .mark m) hP hw (by simp) fun h c hp _ => ?_).mono fun _ _ h => h.1
  cases c <;> exact ha h hp

omit hP hw in
/-- The optimistic lock: an update takes effect only on the version that was read. -/
theorem exec_updateShardRange (hp : Protocol op h) {name : Str} {spec : ShardSplitJobSpec}
    {sr : ShardRange} (hps : h.Past fun w => w.rangeOf spec = some ⟨name, sr⟩) (new : ShardRangeSpec) :
    (h.world.rangeOf spec = some ⟨name, sr⟩ ∧ exec (.updateShardRange name { sr with spec := new }) h.world =
        (.ok (), h.world.setRange name { sr with spec := new })) ∨
      exec (.updateShardRange name { sr with spec := new }) h.world = (.error (.conflict name), h.world) := by
  obtain ⟨sr', hr, ha⟩ := hp.rangeOf_past hps
  have hl := Store.lookup_of_find hr
  by_cases hrv : sr'.resourceVersion = sr.resourceVersion
  · obtain rfl : sr' = sr := ha.resolve_right (by omega)
    exact .inl ⟨hr, by simp only [exec, hl, if_true]; rfl⟩
  · exact .inr (by simp only [exec, hl, if_neg hrv])

/-- An update of a `ShardRange` needs its guard only for the case that the version is still the stored one. -/
theorem safe_updateShardRange {name : Str} {spec : ShardSplitJobSpec} {sr : ShardRange} {new : ShardRangeSpec}
    (hps : ∀ h, P h → h.Past fun w => w.rangeOf spec = some ⟨name, sr⟩)
    (ha : ∀ h, P h → h.world.rangeOf spec = some ⟨name, sr⟩ →
      Act op n h (.updateShardRange name { sr with spec := new }) (h.world.setRange name { sr with spec := new })) :
    Safe (jobSetting op n) (fun a h' => P h' ∧ match a with
      | .ok _ => ∃ (h : Hist) (ok : Bool), h.world.rangeOf spec = some ⟨name, sr⟩ ∧
        h' = h.step (.call n (.updateShardRange name { sr with spec := new }) ok)
        (h.world.setRange name { sr with spec := new })
      | .error _ => ∃ h w, P h ∧ h' = h.step (.call n (.updateShardRange name { sr with spec := new }) false) w)
      (updateShardRange name { sr with spec := new }) h := by
  refine (safe_request (r := .updateShardRange name { sr with spec := new }) hP hw (by simp) fun h c hp hpr =>
    ?_).mono ?_
  · rcases exec_updateShardRange hpr (hps h hp) new with ⟨hr, he⟩ | he
    · cases c with
      | done => simpa only [answer, he] using ha h hp hr
      | failed e => exact .idle _ (by simp)
      | lost e => simpa only [answer, Req.fail, he] using ha h hp hr
    · have hsm : (answer c (.updateShardRange name { sr with spec := new }) h.world).2 = h.world := by
        cases c <;> simp only [answer, Req.fail, he]
      rw [hsm]
      exact .idle _ (by simp)
  · rintro a h' ⟨hp', -, h, c, hp, hpr, rfl, rfl⟩
    refine ⟨hp', ?_⟩
    cases c with
    | done =>
      rcases exec_updateShardRange hpr (hps h hp) new with ⟨hr, he⟩ | he
      · simp only [answer, he]
        exact ⟨h, _, hr, rfl⟩
      · simp only [answer, he]
        exact ⟨h, _, hp, rfl⟩
    | failed e | lost e => exact ⟨h, _, hp, rfl⟩

theorem safe_updateStatus {st : ShardSplitJobStatus} (ht : ∀ h cur, P h → h.world.splitJobs.lookup n = some cur →
      Act op n h (.updateStatus n st) (h.world.setStatus n cur st)) :
    Safe (jobSetting op n) (fun _ _ => True) (updateStatus n st) h := by
  refine safe_call (r := (.updateStatus n st : Req)) P hP hw ?_
  rintro h a _ - hp ⟨c, w, ha, rfl⟩
  refine ⟨⟨_, _, w, rfl, ?_⟩, fun _ => trivial⟩
  have he : Act op n h (.updateStatus n st) (exec (.updateStatus n st) h.world).2 := by
    simp only [exec]
    split
    · exact .idle _ (by simp)
    · rename_i cur hc
      exact ht h cur hp hc
  change answer c (.updateStatus n st) h.world = (a, w) at ha
  obtain rfl : (answer c (.updateStatus n st) h.world).2 = w := by rw [ha]
  cases c with
  | done | lost e => exact he
  | failed e => exact .idle _ (by simp)

end Rules

/-! ### The `ShardRange` of the keyspace -/

def VindexSeen (spec : ShardSplitJobSpec) (v : KeyspaceVindex) (h : Hist) : Prop :=
  h.Past fun w => ∃ e, w.rangeOf spec = some e ∧ v = keyspaceVindexOf e.2.spec

def RoutingResult (n : Str) (ssj : ShardSplitJob) (h : Hist) : Except RangeError Unit → Prop
  | .ok () => Switched ssj.spec h ∧ Seen n ssj (fun w => writeBlocked ssj.spec w = false) h
  | .error _ => Seen n ssj (fun w => w.rangeOf ssj.spec = none) h ∨ RangeCallFailed n ssj h

section Functions

variable (hP : Steady op n ssj P) (hw : P h)
include hP hw

theorem safe_keyspaceVindex :
    Safe (jobSetting op n) (fun a h => P h ∧ ∀ v, a = .ok v → VindexSeen ssj.spec v h)
      (keyspaceVindex ssj.spec) h := by
  unfold keyspaceVindex
  refine (safe_listShardRanges hP.stable hw).except (fun e h hp => safe_pure ⟨hp.1, by simp⟩) ?_
  rintro _ h ⟨hp, rfl⟩
  dsimp only
  split
  · exact safe_pure ⟨hp, by simp⟩
  · rename_i name sr hf
    refine safe_pure ⟨hp, fun v hv => ?_⟩
    cases hv
    exact Run.past_of_world ⟨_, hf, rfl⟩

/-- A block that is reported as set was seen set while the status was what it is. -/
theorem safe_setWriteBlock_true (hg : ∀ h, P h → BlockGuard ssj h.world) :
    Safe (jobSetting op n)
      (fun a h => P h ∧ (a = .ok () → Seen n ssj (fun w => writeBlocked ssj.spec w) h))
      (setWriteBlock ssj.spec true) h := by
  -- both ways to success end in the mark, once the block was seen
  have hm : ∀ h, P h ∧ Seen n ssj (fun w => writeBlocked ssj.spec w) h →
      Safe (jobSetting op n) (fun (a : Except RangeError Unit) h => P h ∧
        (a = .ok () → Seen n ssj (fun w => writeBlocked ssj.spec w) h))
        (mark .blocked >>= fun _ => .pure (.ok ())) h := fun h hp =>
    (safe_mark (hP.stable.and (stable_past _)) hp fun h hp => .blocked ssj (hP.loaded h hp.1) (hg h hp.1) hp.2).bind
      fun _ h hp => safe_pure ⟨hp.1, fun _ => hp.2⟩
  unfold setWriteBlock
  refine (safe_listShardRanges hP.stable hw).except (fun e h hp => safe_pure ⟨hp.1, by simp⟩) ?_
  rintro _ h ⟨hp, rfl⟩
  dsimp only
  split
  · exact safe_pure ⟨hp, by simp⟩
  · rename_i name sr hf
    have hrn : h.world.rangeOf ssj.spec = some ⟨name, sr⟩ := hf
    split
    · rename_i hon
      exact hm h ⟨hp, Run.past_of_world ⟨hP.loaded h hp, by simp [writeBlocked, hrn, hon]⟩⟩
    · rename_i hoff
      have hps := hP.and (stable_past fun w => w.rangeOf ssj.spec = some ⟨name, sr⟩)
      refine (safe_updateShardRange hps.stable ⟨hp, Run.past_of_world hrn⟩ (fun h hp => hp.2) fun h hp hr =>
        .block ssj name sr (hP.loaded h hp.1) (hg h hp.1) hr (by simpa using hoff)).except
        (fun e h hp => safe_pure ⟨hp.1.1, by simp⟩) ?_
      rintro _ _ ⟨hp, h, ok, hr, rfl⟩
      exact hm _ ⟨hp.1, Run.past_of_world ⟨hP.loaded _ hp.1, writeBlocked_setRange hr (by exact ⟨rfl, rfl⟩)⟩⟩

theorem safe_setWriteBlock_false (hg : ∀ h, P h → ReleaseGuard ssj h.world) :
    Safe (jobSetting op n)
      (fun a h => P h ∧ (a = .ok () → Seen n ssj (fun w => writeBlocked ssj.spec w = false) h))
      (setWriteBlock ssj.spec false) h := by
  unfold setWriteBlock
  refine (safe_listShardRanges hP.stable hw).except (fun e h hp => safe_pure ⟨hp.1, by simp⟩) ?_
  rintro _ h ⟨hp, rfl⟩
  dsimp only
  split
  · exact safe_pure ⟨hp, by simp⟩
  · rename_i name sr hf
    have hrn : h.world.rangeOf ssj.spec = some ⟨name, sr⟩ := hf
    split
    · rename_i hoff
      exact safe_pure ⟨hp, fun _ => Run.past_of_world ⟨hP.loaded h hp, by simp [writeBlocked, hrn, hoff]⟩⟩
    · rename_i hon
      have hps := hP.and (stable_past fun w => w.rangeOf ssj.spec = some ⟨name, sr⟩)
      refine (safe_updateShardRange hps.stable ⟨hp, Run.past_of_world hrn⟩ (fun h hp => hp.2) fun h hp hr =>
        .release ssj name sr (hP.loaded h hp.1) (hg h hp.1) hr (by simpa using hon)).except
        (fun e h hp => safe_pure ⟨hp.1.1, by simp⟩) ?_
      rintro _ _ ⟨hp, h, ok, hr, rfl⟩
      exact safe_pure ⟨hp.1,
        fun _ => Run.past_of_world ⟨hP.loaded _ hp.1, writeBlocked_setRange hr (by exact ⟨rfl, rfl⟩)⟩⟩

/-- A switch that is reported as done has happened, and the keyspace was then seen open. -/
theorem safe_applyRouting (hphase : ssj.status.phase = .routingUpdate) :
    Safe (jobSetting op n) (fun a h => P h ∧ RoutingResult n ssj h a) (applyRouting ssj.spec) h := by
  unfold applyRouting
  refine (safe_listShardRanges hP.stable hw).except ?_ ?_
  · rintro e _ ⟨hp, h, hp₀, rfl⟩
    exact safe_pure ⟨hp, .inr (.inr ⟨hP.loaded h hp₀, .inl rfl⟩)⟩
  · rintro _ h ⟨hp, rfl⟩
    dsimp only
    split
    · rename_i hf
      exact safe_pure ⟨hp, .inl (Run.past_of_world ⟨hP.loaded h hp, hf⟩)⟩
    · rename_i name sr hf
      have hrn : h.world.rangeOf ssj.spec = some ⟨name, sr⟩ := hf
      have hps := hP.and (stable_past fun w => w.rangeOf ssj.spec = some ⟨name, sr⟩)
      refine (safe_updateShardRange hps.stable ⟨hp, Run.past_of_world hrn⟩ (fun h hp => hp.2) fun h hp hr =>
        .switch ssj name sr (hP.loaded h hp.1) hphase hr).except ?_ ?_
      · rintro e _ ⟨hp, h, w, hp₀, rfl⟩
        exact safe_pure ⟨hp.1, .inr (.inr ⟨hps.loaded h hp₀, .inr ⟨_, _, rfl⟩⟩)⟩
      · rintro _ _ ⟨hp, h, ok, hr, rfl⟩
        have ht := rangeOf_setRange hr { sr with spec := splitRouting sr.spec ssj.spec } ⟨rfl, rfl⟩ ssj.spec
        rw [if_pos (find?_some hr)] at ht
        exact safe_pure ⟨hp.1, .inr ⟨name, sr, hr, ht⟩,
          Run.past_of_world ⟨hP.loaded _ hp.1, writeBlocked_setRange hr (by exact ⟨rfl, rfl⟩)⟩⟩

/-! ### Data movement -/

/-- The Jobs of the targets that the loop has left behind have succeeded, as long as it may still report `done`. -/
private def LoopDone (spec : ShardSplitJobSpec) (mode : ReshardMode) (ts : List ShardSplitTarget) (allDone : Bool)
    (h : Hist) : Prop :=
  allDone → ∀ t ∈ spec.targets, t ∈ ts ∨ jobSucceeded h.world (reshardJobName spec.cluster t.shardID mode)

omit hP hw in
theorem stable_loopDone (spec : ShardSplitJobSpec) (mode : ReshardMode) (ts : List ShardSplitTarget)
    (allDone : Bool) : (jobSetting op n).Stable (LoopDone spec mode ts allDone) :=
  stable_imp (Setting.Stable.forall fun _ => stable_imp (stable_or (stable_const _) (stable_jobSucceeded _)))

omit hP hw in
theorem loopDone_false (spec : ShardSplitJobSpec) (mode : ReshardMode) (ts : List ShardSplitTarget) (h : Hist) :
    LoopDone spec mode ts false h := by simp [LoopDone]

/-- The loop reports `done` only if every target's Job has succeeded. -/
theorem safe_modeJobsLoop {mode : ReshardMode} {vindex : KeyspaceVindex} {srcDNS : Str}
    (hg : ∀ h, P h → ModeGuard n ssj mode h) (hv : ∀ h, P h → VindexSeen ssj.spec vindex h)
    (hsrc : SourceOrdinal op ssj.spec srcDNS) (ts : List ShardSplitTarget) (hts : ∀ t ∈ ts, t ∈ ssj.spec.targets)
    (allDone : Bool)
    (hl : LoopDone ssj.spec mode ts allDone h) :
    Safe (jobSetting op n) (fun a h => P h ∧ (a = .ok .done → JobsDone ssj.spec mode h.world))
      (modeJobsLoop op ssj mode vindex srcDNS ts allDone) h := by
  -- along the list of targets; `LoopDone` is the invariant of the loop
  induction ts generalizing h allDone with
  | nil =>
    unfold modeJobsLoop
    split
    · rename_i ha
      have hd : ∀ h, P h ∧ LoopDone ssj.spec mode [] allDone h → JobsDone ssj.spec mode h.world :=
        fun h hp t ht => (hp.2 ha t ht).resolve_left (by simp)
      exact (safe_mark (hP.stable.and (stable_loopDone _ _ _ _)) ⟨hw, hl⟩ fun h hp =>
        .jobsDone ssj mode (hP.loaded h hp.1) (hd h hp)).bind fun _ h hp => safe_pure ⟨hp.1, fun _ => hd h hp⟩
    · exact safe_pure ⟨hw, by simp⟩
  | cons t ts ih =>
    have hts' : ∀ t' ∈ ts, t' ∈ ssj.spec.targets := fun t' ht' => hts t' (mem_cons_of_mem _ ht')
    unfold modeJobsLoop
    refine (safe_getJob (hP.stable.and (stable_loopDone ssj.spec mode (t :: ts) allDone)) ⟨hw, hl⟩ _).except
      (fun e h hp => safe_pure ⟨hp.1.1, by simp⟩) fun job h hp => ?_
    cases hj : h.world.jobs.lookup (reshardJobName ssj.spec.cluster t.shardID mode) with
    | none =>
      obtain rfl := (hp.2 job rfl).trans hj
      refine (safe_write (r := .createJob _ _) hP.stable hp.1.1 (by simp) (by simp) fun h hp => ?_).except
        (fun e h hp => safe_pure ⟨hp, by simp⟩) fun _ h hp => ih hp hts' false (loopDone_false _ _ _ _)
      simp only [exec]
      split
      · exact .idle _ (by simp)
      · rename_i hn
        exact .create ssj mode t vindex srcDNS (hP.loaded h hp) (hts t mem_cons_self) (hg h hp) hsrc (hv h hp) hn
    | some found =>
      obtain rfl := (hp.2 job rfl).trans hj
      dsimp only
      split
      · rename_i hsc
        refine ih hp.1.1 hts' allDone fun ha t' ht' => ?_
        rcases hp.1.2 ha t' ht' with hm | hd
        · rcases mem_cons.1 hm with rfl | hm
          · exact .inr (by simp [jobSucceeded, hj, hsc])
          · exact .inl hm
        · exact .inr hd
      · split
        · exact safe_pure ⟨hp.1.1, by simp⟩
        · exact ih hp.1.1 hts' false (loopDone_false _ _ _ _)

theorem safe_reconcileModeJobs (mode : ReshardMode) (hg : ∀ h, P h → ModeGuard n ssj mode h) :
    Safe (jobSetting op n)
      (fun a h => P h ∧ (a = .ok .done → JobsDone ssj.spec mode h.world ∧ ∃ srcDNS, SourceOrdinal op ssj.spec srcDNS))
      (reconcileModeJobs op ssj mode) h := by
  unfold reconcileModeJobs
  split
  · exact safe_pure ⟨hw, by simp⟩
  · rename_i src rest hso
    refine (safe_keyspaceVindex hP hw).except (fun e h hp => safe_pure ⟨hp.1, by simp⟩) fun vindex h hp => ?_
    dsimp only
    split
    · exact safe_pure ⟨hp.1, by simp⟩
    · rename_i srcDNS hd
      have hsrc : SourceOrdinal op ssj.spec srcDNS := ⟨src, by simp [hso], hd⟩
      exact (safe_modeJobsLoop (hP.and (stable_past _)) ⟨hp.1, hp.2 vindex rfl⟩ (fun h hp => hg h hp.1)
        (fun h hp => hp.2) hsrc
        ssj.spec.targets (fun _ ht => ht) true fun _ t ht => .inl ht).mono fun a h hp =>
        ⟨hp.1.1, fun ha => ⟨hp.2 ha, srcDNS, hsrc⟩⟩

theorem safe_reconcileCDC (hphase : ssj.status.phase = .cdcCatchup) (ho : ssj.spec.online) :
    Safe (jobSetting op n)
      (fun a h => P h ∧
        (a = .ok .done → JobsDone ssj.spec .cdcSetup h.world ∧ JobsDone ssj.spec .cdcFinalize h.world ∧
        Seen n ssj (fun w => writeBlocked ssj.spec w) h))
      (reconcileCDC op ssj) h := by
  unfold reconcileCDC
  refine (safe_reconcileModeJobs hP hw .cdcSetup fun h _ => ⟨⟨hphase, ho⟩, by simp⟩).except
    (fun e h hp => safe_pure ⟨hp.1, by simp⟩) fun result h hp => ?_
  cases result with
  | waiting | failure f => exact safe_pure ⟨hp.1, by simp⟩
  | done =>
    have ht := hP.and (stable_jobsDone ssj.spec .cdcSetup)
    refine (safe_setWriteBlock_true ht ⟨hp.1, (hp.2 rfl).1⟩ fun h hp => .inl ⟨hphase, ho, hp.2⟩).except
      (fun e h hp => safe_pure ⟨hp.1.1, by simp⟩) fun _ h hp => ?_
    exact (safe_reconcileModeJobs (ht.and (stable_past _)) ⟨hp.1, hp.2 rfl⟩ .cdcFinalize fun h hp =>
      ⟨⟨hphase, ho⟩, fun _ => ⟨hp.1.2, hp.2⟩⟩).mono fun a h hp =>
      ⟨hp.1.1.1, fun ha => ⟨hp.1.1.2, (hp.2 ha).1, hp.1.2⟩⟩

/-! ### Cleanup after a failure -/

/-- The answer `false` means that each name was free at some moment of the search, not all at the same one. -/
theorem safe_anyJobExists (names : List Str) :
    Safe (jobSetting op n)
      (fun a h => P h ∧ (a = .ok false → ∀ name ∈ names, Seen n ssj (fun w => w.jobs.lookup name = none) h))
      (anyJobExists names) h := by
  induction names generalizing P h with
  | nil => exact safe_pure ⟨hw, by simp⟩
  | cons name names ih =>
    unfold anyJobExists
    refine (safe_getJob hP.stable hw _).except (fun e h hp => safe_pure ⟨hp.1, by simp⟩) fun job h hp => ?_
    cases job with
    | some job => exact safe_pure ⟨hp.1, by simp⟩
    | none =>
      have hn := (hp.2 none rfl).symm
      refine (ih (hP.and (stable_past fun w => Loaded n ssj w ∧ w.jobs.lookup name = none))
        ⟨hp.1, Run.past_of_world ⟨hP.loaded h hp.1, hn⟩⟩).mono fun a h hp => ⟨hp.1.1, fun ha name' hn' => ?_⟩
      rcases mem_cons.1 hn' with rfl | hn'
      · exact hp.1.2
      · exact hp.2 ha name' hn'

theorem safe_reconcileAbortCleanup (hphase : ModePhase ssj .cdcAbort) :
    Safe (jobSetting op n) (fun a h => P h ∧ (a = .ok .done → CleanupDone n ssj h))
      (reconcileAbortCleanup op ssj) h := by
  unfold reconcileAbortCleanup
  split
  · rename_i hoff
    rw [hphase.2] at hoff
    cases hoff
  · refine (safe_anyJobExists hP hw (cdcJobNames ssj.spec)).except
      (fun e h hp => safe_pure ⟨hp.1, by simp⟩) fun found h hp => ?_
    cases found with
    | false =>
      refine safe_pure ⟨hp.1, fun _ => .inl fun t ht => hp.2 rfl _ ?_⟩
      simp only [cdcJobNames, mem_flatMap, mem_map]
      exact ⟨.cdcSetup, by simp, t, ht, rfl⟩
    | true =>
      refine (safe_reconcileModeJobs hP hp.1 .cdcAbort fun h _ => ⟨hphase, by simp⟩).except
        (fun e h hp => safe_pure ⟨hp.1, by simp⟩) fun result h hp => ?_
      cases result with
      | waiting | failure f => exact safe_pure ⟨hp.1, by simp⟩
      | done =>
        exact (safe_setWriteBlock_false (hP.and (stable_jobsDone ssj.spec .cdcAbort)) ⟨hp.1, (hp.2 rfl).1⟩ fun h hp =>
          ⟨hphase, hp.2⟩).except (fun e h hp => safe_pure ⟨hp.1.1, by simp⟩) fun _ h hp =>
          safe_pure ⟨hp.1.1, fun _ => .inr (hp.2 rfl)⟩

/-! ### Targets -/

theorem safe_upsertTargets (hphase : ssj.status.phase = .bootstrap) (cluster image : Str)
    (ts : List ShardSplitTarget) :
    Safe (jobSetting op n) (fun _ h => P h) (upsertTargets cluster image ts) h := by
  induction ts generalizing h with
  | nil => exact safe_pure hw
  | cons t ts ih =>
    unfold upsertTargets
    refine (safe_idle hP.stable hw (by simp) (by simp) fun _ => rfl).except (fun e h hp => safe_pure hp) fun _ h hp =>
      ?_
    refine (safe_idle hP.stable hp (by simp) (by simp) fun _ => rfl).except (fun e h hp => safe_pure hp) fun _ h hp =>
      ?_
    exact (safe_write hP.stable hp (by simp) (by simp) fun h hp =>
      .provision ssj _ _ (hP.loaded h hp) hphase rfl rfl).except
      (fun e h hp => safe_pure hp) fun _ h hp => ih hp

theorem safe_reconcileBootstrapTargets (hphase : ssj.status.phase = .bootstrap) :
    Safe (jobSetting op n) (fun _ h => P h) (reconcileBootstrapTargets ssj) h := by
  unfold reconcileBootstrapTargets
  refine (safe_idle hP.stable hw (by simp) (by simp) fun _ => rfl).except
    (fun e h hp => safe_pure hp) fun cluster h hp => ?_
  cases cluster with
  | none => exact safe_pure hp
  | some cluster =>
    refine (safe_idle hP.stable hp (by simp) (by simp) fun _ => rfl).except
      (fun e h hp => safe_pure hp) fun sts h hp => ?_
    cases sts with
    | none => exact safe_pure hp
    | some sts =>
      dsimp only
      split
      · exact safe_pure hp
      · exact safe_upsertTargets hP hp hphase _ _ _

theorem safe_targetShardReadyForPromote (cluster id : Str) :
    Safe (jobSetting op n) (fun _ h => P h) (targetShardReadyForPromote cluster id) h := by
  unfold targetShardReadyForPromote
  refine (safe_idle hP.stable hw (by simp) (by simp) fun _ => rfl).except
    (fun e h hp => safe_pure hp) fun pods h hp => ?_
  dsimp only
  split
  · exact safe_pure hp
  · split <;> exact safe_pure hp

theorem safe_bootstrapTargetsReady (cluster : Str) (ts : List ShardSplitTarget) :
    Safe (jobSetting op n) (fun _ h => P h) (bootstrapTargetsReady cluster ts) h := by
  induction ts generalizing h with
  | nil => exact safe_pure hw
  | cons t ts ih =>
    refine (safe_targetShardReadyForPromote hP hw cluster t.shardID).except
      (fun e h hp => safe_pure hp) fun reason h hp => ?_
    cases reason with
    | some reason => exact safe_pure hp
    | none => exact ih hp

theorem safe_targetsReadyForPromote (cluster : Str) (active : List Str) (ts : List ShardSplitTarget) :
    Safe (jobSetting op n) (fun _ h => P h) (targetsReadyForPromote cluster active ts) h := by
  induction ts generalizing h with
  | nil => exact safe_pure hw
  | cons t ts ih =>
    unfold targetsReadyForPromote
    split
    · exact safe_pure hw
    · refine (safe_targetShardReadyForPromote hP hw cluster t.shardID).except
        (fun e h hp => safe_pure hp) fun reason h hp => ?_
      cases reason with
      | some reason => exact safe_pure hp
      | none => exact ih hp

theorem safe_activeShardRangeIDs :
    Safe (jobSetting op n) (fun a h => P h ∧ ∀ active, a = .ok active →
        Seen n ssj (fun w => active = activeShards ssj.spec w.shardRanges.entries) h)
      (activeShardRangeIDs ssj.spec) h := by
  unfold activeShardRangeIDs
  refine (safe_listShardRanges hP.stable hw).except (fun e h hp => safe_pure ⟨hp.1, by simp⟩) ?_
  rintro _ h ⟨hp, rfl⟩
  dsimp only
  split
  · refine safe_pure ⟨hp, fun active ha => ?_⟩
    cases ha
    exact Run.past_of_world ⟨hP.loaded h hp, rfl⟩
  · exact safe_pure ⟨hp, by simp⟩

theorem safe_sourceObservationExcluded (spec : ShardSplitJobSpec) :
    Safe (jobSetting op n) (fun _ h => P h) (sourceObservationExcluded spec) h := by
  unfold sourceObservationExcluded
  refine (safe_idle hP.stable hw (by simp) (by simp) fun _ => rfl).except
    (fun e h hp => safe_pure hp) fun cluster h hp => ?_
  cases cluster <;> exact safe_pure hp

/-- Promote goes on only after the sources were seen out of the ranges. -/
theorem safe_promotePreconditionsMet :
    Safe (jobSetting op n) (fun a h => P h ∧ (a = .ok none → Seen n ssj (SourcesExcluded ssj.spec) h))
      (promotePreconditionsMet ssj.spec) h := by
  unfold promotePreconditionsMet
  refine (safe_activeShardRangeIDs hP hw).except (fun e h hp => safe_pure ⟨hp.1, by simp⟩) fun active h hp => ?_
  dsimp only
  split
  · exact safe_pure ⟨hp.1, by simp⟩
  · rename_i hn
    have hsn : Seen n ssj (SourcesExcluded ssj.spec) h := by
      refine (hp.2 active rfl).mono fun w hw => ⟨hw.1, fun s hs hm => ?_⟩
      rw [← hw.2] at hm
      exact find?_eq_none.1 hn s hs (by simpa using hm)
    have hps := hP.and (stable_past fun w => Loaded n ssj w ∧ SourcesExcluded ssj.spec w)
    refine (safe_sourceObservationExcluded hps ⟨hp.1, hsn⟩ ssj.spec).except (fun e h hp => safe_pure ⟨hp.1, by simp⟩)
      fun reason h hp => ?_
    cases reason with
    | some reason => exact safe_pure ⟨hp.1, by simp⟩
    | none => exact (safe_targetsReadyForPromote hps hp _ _ _).mono fun a h hp => ⟨hp.1, fun _ => hp.2⟩

section Adopt

variable (hs : ∀ h, P h → Seen n ssj (SourcesExcluded ssj.spec) h) (hphase : ssj.status.phase = .promote)
include hs hphase

theorem safe_adoptPods {t : ShardSplitTarget} (ht : t ∈ ssj.spec.targets) (pods : List (Σ _ : Str, Pod)) :
    Safe (jobSetting op n) (fun _ h => P h) (adoptPods t.shardID pods) h := by
  induction pods generalizing h with
  | nil => exact safe_pure hw
  | cons e pods ih =>
    obtain ⟨name, pod⟩ := e
    unfold adoptPods
    split
    · exact ih hw
    · refine (safe_write hP.stable hw (by simp) (by simp) fun h hp => ?_).except
        (fun e h hp => safe_pure hp) fun _ h hp => ih hp
      simp only [exec]
      split
      · exact .idle _ (by simp)
      · rename_i pod hd
        exact .adoptPod ssj t pod (hP.loaded h hp) hphase ht (hs h hp) name hd

theorem safe_adoptTargetShardIdentity {t : ShardSplitTarget} (ht : t ∈ ssj.spec.targets) :
    Safe (jobSetting op n) (fun _ h => P h) (adoptTargetShardIdentity ssj.spec.cluster t.shardID) h := by
  unfold adoptTargetShardIdentity
  refine (safe_idle hP.stable hw (by simp) (by simp) fun _ => rfl).except (fun e h hp => safe_pure hp) fun sts h hp =>
    ?_
  cases sts with
  | none => exact safe_pure hp
  | some sts =>
    refine (safe_write hP.stable hp (by simp) (by simp) fun h hp => ?_).except
      (fun e h hp => safe_pure hp) fun _ h hp => ?_
    · simp only [exec]
      split
      · exact .idle _ (by simp)
      · rename_i sts hsts
        exact .adoptSet ssj t sts (hP.loaded h hp) hphase ht (hs h hp) _ hsts
    · exact (safe_idle hP.stable hp (by simp) (by simp) fun _ => rfl).except
        (fun e h hp => safe_pure hp) fun pods h hp =>
        safe_adoptPods hP hp hs hphase ht pods

theorem safe_reconcilePromote (ts : List ShardSplitTarget) (hts : ∀ t ∈ ts, t ∈ ssj.spec.targets) :
    Safe (jobSetting op n) (fun _ h => P h) (reconcilePromote ssj.spec.cluster ts) h := by
  induction ts generalizing h with
  | nil => exact safe_pure hw
  | cons t ts ih =>
    exact (safe_adoptTargetShardIdentity hP hw hs hphase (hts t mem_cons_self)).except
      (fun e h hp => safe_pure hp) fun _ h hp =>
      ih hp fun t' ht' => hts t' (mem_cons_of_mem _ ht')

end Adopt

end Functions

/-! ### Phases -/

variable {st : ShardSplitJobStatus}

theorem Transition.annotated (a : AutoSplitAnnotations)
    (ht : Transition op n ssj h st) : Transition op n { ssj with annotations := a } h st := by
  cases ht with
  | unsupported reason t hphase hr => exact .unsupported reason t hphase hr
  | hold hphase => exact .hold hphase
  | advance next failure t hn hne hd => exact .advance next failure t hn hne hd
  | fail reason t hr => exact .fail reason t (by cases reason <;> exact hr)
  | cleanup status reason failure hphase hsta => exact .cleanup status reason failure hphase hsta

section Phases

variable {Q : Hist → Prop} (hP : Steady op n ssj P) (hw : P h)
include hP hw

theorem safe_transition (ht : ∀ h, P h → Transition op n ssj h st) :
    Safe (jobSetting op n) (fun _ _ => True) (updateStatus n st) h := by
  refine safe_updateStatus hP.stable hw fun h cur hp hc => ?_
  obtain ⟨a, ha⟩ := hP.loaded h hp
  rw [hc] at ha
  cases ha
  exact .status _ st hc ((ht h hp).annotated a)

theorem safe_saveStatus {res : CtrlResult} (ht : ∀ h, P h → Transition op n ssj h st) :
    Safe (jobSetting op n) (fun _ _ => True) (saveStatus n st res) h :=
  (safe_transition hP hw ht).except (fun _ _ _ => trivial) fun _ _ _ => trivial

theorem safe_failPhase {reason : FailureReason} (hf : ∀ h, P h → PhaseFails n ssj h reason) :
    Safe (jobSetting op n) (fun a h => a = none → Q h) (failPhase n ssj reason) h :=
  (safe_now hP.stable hw).bind fun t h hp =>
    (safe_transition hP hp fun h hp => .fail reason t (hf h hp)).bind fun _ _ _ => safe_pure (by simp)

theorem safe_afterJobs
    (hphase : ssj.status.phase = .initialCopy ∨ ssj.status.phase = .cdcCatchup ∨ ssj.status.phase = .cleanup)
    (a : Except ReconcileError JobsResult) (ha : a = .ok .done → Q h) :
    Safe (jobSetting op n) (fun a h => a = none → Q h) (afterJobs n ssj a) h := by
  match a with
  | .error e => exact safe_pure (by simp)
  | .ok (.failure f) => exact safe_failPhase hP hw fun _ _ => hphase
  | .ok .waiting => exact safe_pure (by simp)
  | .ok .done => exact safe_pure fun _ => ha rfl

end Phases

section Work

variable {Q : Hist → Prop} (hw : Loaded n ssj h.world)
include hw

theorem safe_bootstrapPhase (hphase : ssj.status.phase = .bootstrap) (hQ : ∀ h, Loaded n ssj h.world → Q h) :
    Safe (jobSetting op n) (fun a h => a = none → Q h) (bootstrapPhase n ssj) h := by
  have hP : Steady op n ssj _ := steady_loaded ssj
  unfold bootstrapPhase
  refine (safe_reconcileBootstrapTargets hP hw hphase).except
    (fun e h hp => safe_failPhase hP hp fun _ _ => hphase) fun _ h hp => ?_
  refine (safe_bootstrapTargetsReady hP hp _ _).except (fun e h _ => safe_pure (by simp)) fun ready h hp => ?_
  cases ready with
  | false => exact safe_pure (by simp)
  | true => exact safe_pure fun _ => hQ h hp

theorem safe_cutoverPhase (hphase : ssj.status.phase = .cutover) (hfwd : ssj.spec.allowForwardOnly = false) :
    Safe (jobSetting op n) (fun a h => a = none →
        Seen n ssj (fun w => writeBlocked ssj.spec w) h ∧ Loaded n ssj h.world)
      (cutoverPhase ssj) h :=
  (safe_setWriteBlock_true (steady_loaded ssj) hw fun _ _ => .inr ⟨hphase, hfwd⟩).except
    (fun e h _ => safe_pure (by simp))
    fun _ h hp => safe_pure fun _ => ⟨hp.2 rfl, hp.1⟩

theorem safe_routingUpdatePhase (hphase : ssj.status.phase = .routingUpdate) :
    Safe (jobSetting op n) (fun a h => a = none → RoutingResult n ssj h (.ok ()) ∧ Loaded n ssj h.world)
      (routingUpdatePhase n ssj) h :=
  (safe_applyRouting (steady_loaded ssj) hw hphase).except (fun _ _ hp =>
    safe_failPhase ((steady_loaded ssj).and (stable_or (stable_past _) (stable_someStep _))) hp fun _ hp =>
    ⟨hphase, hp.2⟩)
    fun _ _ hp => safe_pure fun _ => ⟨hp.2, hp.1⟩

theorem safe_promotePhase (hphase : ssj.status.phase = .promote) (hQ : ∀ h, Loaded n ssj h.world → Q h) :
    Safe (jobSetting op n) (fun a h => a = none → Q h) (promotePhase n ssj) h := by
  have hP : Steady op n ssj _ := steady_loaded ssj
  unfold promotePhase
  refine (safe_promotePreconditionsMet hP hw).except (fun e h _ => safe_pure (by simp)) fun reason h hp => ?_
  cases reason with
  | some reason => exact safe_pure (by simp)
  | none =>
    exact (safe_reconcilePromote (hP.and (stable_past _)) ⟨hp.1, hp.2 rfl⟩ (fun _ hp => hp.2) hphase ssj.spec.targets
      fun _ => id).except (fun e h hp => safe_failPhase hP hp.1 fun _ _ => hphase) fun _ h hp => safe_pure fun _ =>
      hQ h hp.1

/-- A phase that lets `Reconcile` advance has done its work. -/
theorem safe_phaseWork :
    Safe (jobSetting op n) (fun a h => a = none → PhaseDone op n ssj h ∧ Loaded n ssj h.world)
      (phaseWork op n ssj) h := by
  have hP : Steady op n ssj _ := steady_loaded ssj
  unfold phaseWork PhaseDone
  cases hphase : ssj.status.phase with
  | bootstrap => exact safe_bootstrapPhase hw hphase fun h hl => ⟨trivial, hl⟩
  | initialCopy =>
    dsimp only
    unfold reconcileInitialCopy
    split
    · rename_i ho
      exact safe_pure fun _ => ⟨by simp [ho], hw⟩
    · rename_i hof
      exact (safe_reconcileModeJobs hP hw .copy fun _ _ => ⟨⟨hphase, by simpa using hof⟩, by simp⟩).bind fun a h hp =>
        safe_afterJobs hP hp.1 (.inl hphase) a fun ha => ⟨fun _ => (hp.2 ha).1, hp.1⟩
  | cdcCatchup =>
    dsimp only
    split
    · rename_i ho
      exact (safe_reconcileCDC hP hw hphase ho).bind fun a h hp =>
        safe_afterJobs hP hp.1 (.inr (.inl hphase)) a fun ha => ⟨fun _ => hp.2 ha, hp.1⟩
    · rename_i hof
      exact safe_pure fun _ => ⟨fun ho => absurd ho hof, hw⟩
  | cutover =>
    dsimp only
    split
    · rename_i hfwd
      exact safe_pure fun _ => ⟨by simp [hfwd], hw⟩
    · rename_i hfwd
      exact (safe_cutoverPhase hw hphase (by simpa using hfwd)).mono fun a h hp ha => ⟨fun _ => (hp ha).1, (hp ha).2⟩
  | routingUpdate => exact safe_routingUpdatePhase hw hphase
  | cleanup =>
    exact (safe_reconcileModeJobs hP hw .delete fun _ _ => ⟨hphase, by simp⟩).bind fun a h hp =>
      safe_afterJobs hP hp.1 (.inr (.inr hphase)) a fun ha => ⟨hp.2 ha, hp.1⟩
  | promote => exact safe_promotePhase hw hphase fun h hl => ⟨trivial, hl⟩
  | _ => exact safe_pure fun _ => ⟨trivial, hw⟩

omit hw in
theorem stable_phaseDone (ssj : ShardSplitJob) : (jobSetting op n).Stable (PhaseDone op n ssj) := by
  unfold PhaseDone
  cases ssj.status.phase with
  | initialCopy => exact stable_imp (stable_jobsDone _ _)
  | cdcCatchup => exact stable_imp ((stable_jobsDone _ _).and ((stable_jobsDone _ _).and (stable_past _)))
  | cutover => exact stable_imp (stable_past _)
  | routingUpdate => exact (stable_someStep _).and (stable_past _)
  | cleanup => exact (stable_jobsDone _ _).and (stable_const _)
  | _ => exact stable_const _

/-- The status moves on only behind a phase that is done. -/
theorem safe_advance (hd : PhaseDone op n ssj h) : Safe (jobSetting op n) (fun _ _ => True) (advance n ssj) h := by
  have hP : Steady op n ssj _ := (steady_loaded ssj).and (stable_phaseDone ssj)
  unfold advance
  dsimp only
  split
  · trivial
  · rename_i hne
    exact (safe_now hP.stable ⟨hw, hd⟩).bind fun t h hp => safe_saveStatus hP hp fun _ hp =>
      .advance _ _ t rfl hne hp.2

theorem safe_reconcileActive (hphase : ssj.status.phase ∉ [.completed, .failed, .aborted]) :
    Safe (jobSetting op n) (fun _ _ => True) (reconcileActive op n ssj) h := by
  have hP : Steady op n ssj _ := steady_loaded ssj
  unfold reconcileActive
  split
  · rename_i reason hr
    exact (safe_now hP.stable hw).bind fun t h hp => safe_saveStatus hP hp fun _ _ => .unsupported reason t hphase hr
  · split
    · split
      · rename_i hn
        exact safe_saveStatus hP hw fun _ _ => .hold hn
      · trivial
    · refine (safe_phaseWork hw).bind fun a h hp => ?_
      cases a with
      | some res => trivial
      | none => exact safe_advance (hp rfl).2 (hp rfl).1

theorem safe_reconcileTerminalAbortCleanup (hphase : ModePhase ssj .cdcAbort) :
    Safe (jobSetting op n) (fun _ _ => True) (reconcileTerminalAbortCleanup op n ssj) h := by
  have hP : Steady op n ssj _ := steady_loaded ssj
  unfold reconcileTerminalAbortCleanup
  split
  · trivial
  · refine (safe_reconcileAbortCleanup hP hw hphase).except (fun _ _ _ => trivial) fun result h hp => ?_
    cases result with
    | waiting | failure f => exact safe_saveStatus hP hp.1 fun _ _ => .cleanup _ _ _ hphase (by simp)
    | done =>
      have hd : (jobSetting op n).Stable (CleanupDone n ssj) :=
        stable_or (Setting.Stable.forall fun _ => Setting.Stable.forall fun _ => stable_past _) (stable_past _)
      exact safe_saveStatus (hP.and hd) ⟨hp.1, hp.2 rfl⟩ fun _ hp => .cleanup _ _ _ hphase fun _ => hp.2

end Work

/-- `Reconcile` makes only steps of the protocol, whatever it finds and whatever fails. -/
theorem safe_reconcile (h : Hist) : Safe (jobSetting op n) (fun _ _ => True) (reconcile op n) h := by
  unfold reconcile
  refine (safe_getShardSplitJob (stable_const True) trivial n).except (fun _ _ _ => trivial) fun job h hp => ?_
  cases job with
  | none => trivial
  | some ssj =>
    have hl : Loaded n ssj h.world := ⟨ssj.annotations, (hp.2 _ rfl).symm⟩
    dsimp only
    cases hphase : ssj.status.phase with
    | completed => trivial
    | failed =>
      dsimp only
      split
      · rename_i ho
        exact safe_reconcileTerminalAbortCleanup hl ⟨.inl hphase, ho⟩
      · trivial
    | aborted =>
      dsimp only
      split
      · rename_i ho
        exact safe_reconcileTerminalAbortCleanup hl ⟨.inr hphase, ho⟩
      · trivial
    | _ => exact safe_reconcileActive hl (by simp [hphase])

/-- The refinement: every interleaving of the reconciles of all jobs is a run of the protocol. -/
theorem reachable_protocol (op : Operator) {w : World} {s : Threads Api World Str}
    (hs : Threads.Reachable apiServer (reconcileThread op) w s) : Protocol op s.run := by
  refine (Threads.reachable_safe (Protocol op) (Rely op) (Guar op) ?_ ?_ ?_ trivial hs).1
  · intro h e w hp he
    exact ⟨⟨hp, e, he⟩, fun i => ⟨_, w, rfl, ⟨e, he⟩, by rintro st ok ⟨⟩⟩⟩
  · rintro i h _ hp ⟨r, ok, w, rfl, ha⟩
    refine ⟨⟨hp, ha⟩, fun j hj => ⟨_, w, rfl, ha, ?_⟩⟩
    rintro st ok' heq
    cases heq
    exact hj rfl
  · intro i h _
    exact (safe_reconcile h).bind fun _ _ _ => trivial

end PostgresOperator
