import PostgresOperator.Backup.Reconcile
import PostgresOperator.Calls.Crash

/-!
# The API server for backup jobs

The `BackupJob`s of a namespace, the values that the annotation `restore-in-progress` of each cluster has had, and the
Jobs. A request may fail without effect, or take effect and still be answered with an error.  Everything else that the
controller reads, and what the tools do, is answered in any way.
-/

namespace PostgresOperator.Backup

open Go Calls Function Option

def Job.finished (job : Job) : Bool := job.complete || job.failure.isSome

/-- The objects of a namespace; `owners` has the values of the annotation of each cluster, the last one first. -/
structure BackupWorld where
  job : Str → Option BackupJob
  owners : Str → List (Option Str) := fun _ => []
  runners : Str → Option Job := fun _ => none
  job_name : ∀ name bj, job name = some bj → bj.name = name
  runners_name : ∀ name job, runners name = some job → job.name = name

/-- How a request is answered: with which error, if any, and whether a failed write takes effect; which of the values
of the annotation is read, `0` for the last one; and what the rest of the answers is. -/
structure BackupChoice where
  failure : Option Str := none
  applied : Bool := false
  version : Nat := 0
  cluster : Cluster.PostgresCluster
  statefulSet : Option StatefulSet := none
  pods : List Pod := []
  time : Int := 0
  backup : Except Str BackupResult := .error []
  restored : Except Str Unit := .error []
  output : Except Str Str := .error []

/-- Somebody else writes a `BackupJob`, the status of a Job changes, or a Job is deleted. -/
inductive BackupEvent
  | touch (name : Str)
  | progress (name : Str) (conditions : List JobCondition) (completionTime : Option Int)
  | deleteJob (name : Str)

namespace BackupWorld

def owner (w : BackupWorld) (cluster : Str) : Str := ownerOf ((w.owners cluster).headD none)

def modifyJob (w : BackupWorld) (name : Str) (f : BackupJob → BackupJob) (hf : ∀ bj, (f bj).name = bj.name) :
    BackupWorld where
  job := update w.job name ((w.job name).map f)
  owners := w.owners
  runners := w.runners
  job_name := by
    intro n bj hbj
    by_cases hn : n = name
    · subst hn
      rw [update_self] at hbj
      obtain ⟨bj', hbj', rfl⟩ := Option.map_eq_some_iff.1 hbj
      rw [hf, w.job_name n bj' hbj']
    · rw [update_of_ne hn] at hbj
      exact w.job_name n bj hbj
  runners_name := w.runners_name

def setStatus (w : BackupWorld) (name : Str) (status : BackupJobStatus) : BackupWorld :=
  w.modifyJob name (fun bj => { bj with status, resourceVersion := bj.resourceVersion + 1 }) fun _ => rfl

def touch (w : BackupWorld) (name : Str) : BackupWorld :=
  w.modifyJob name (fun bj => { bj with resourceVersion := bj.resourceVersion + 1 }) fun _ => rfl

def setOwner (w : BackupWorld) (cluster : Str) (value : Option Str) : BackupWorld :=
  { w with owners := update w.owners cluster (value :: w.owners cluster) }

def addRunner (w : BackupWorld) (job : Job) : BackupWorld where
  job := w.job
  owners := w.owners
  runners := update w.runners job.name (some job)
  job_name := w.job_name
  runners_name := by
    intro name job' h
    by_cases hn : name = job.name
    · subst hn
      rw [update_self] at h
      rw [Option.some.inj h]
    · rw [update_of_ne hn] at h
      exact w.runners_name name job' h

def progress (w : BackupWorld) (name : Str) (conditions : List JobCondition) (completionTime : Option Int) :
    BackupWorld :=
  match w.runners name with
  | none => w
  | some job => if job.finished then w else w.addRunner { job with conditions, completionTime }

def deleteJob (w : BackupWorld) (name : Str) : BackupWorld where
  job := w.job
  owners := w.owners
  runners := update w.runners name none
  job_name := w.job_name
  runners_name := by
    intro n job h
    by_cases hn : n = name
    · subst hn
      rw [update_self] at h
      cases h
    · rw [update_of_ne hn] at h
      exact w.runners_name n job h

def readCluster (w : BackupWorld) (c : BackupChoice) (version : Nat) (name : Str) : Cluster.PostgresCluster :=
  { c.cluster with
    name
    annotations := update c.cluster.annotations restoreInProgressKey (((w.owners name).drop version).headD none) }

def orSame (w : BackupWorld) (c : BackupChoice) (w' : BackupWorld) : BackupWorld := if c.applied then w' else w

/-- The answer to a request, and the world after it; `stale` says that older values of the annotation may be read. -/
def answer (stale : Bool) (c : BackupChoice) (r : BackupReq) (w : BackupWorld) : r.Res × BackupWorld :=
  match r with
  | .getBackupJob name =>
    (match c.failure, w.job name with
      | some text, _ => .error (.other text)
      | none, none => .error (.notFound name)
      | none, some bj => .ok bj, w)
  | .getCluster name =>
    (match c.failure with
      | some text => .error (.other text)
      | none => .ok (w.readCluster c (if stale then c.version else 0) name), w)
  | .updateStatus name resourceVersion status =>
    match w.job name with
    | none => (.error (.notFound name), w)
    | some bj =>
      if bj.resourceVersion ≠ resourceVersion then (.error (.conflict name), w)
      else match c.failure with
        | some text => (.error (.other text), w.orSame c (w.setStatus name status))
        | none => (.ok (), w.setStatus name status)
  | .patchOwner cluster value =>
    match c.failure with
    | some text => (.error (.other text), w.orSame c (w.setOwner cluster value))
    | none => (.ok (), w.setOwner cluster value)
  | .getJob name =>
    (match c.failure, w.runners name with
      | some text, _ => .error (.other text)
      | none, none => .error (.notFound name)
      | none, some job => .ok job, w)
  | .createJob job =>
    if (w.runners job.name).isSome then (.error (.alreadyExists job.name), w)
    else match c.failure with
      | some text => (.error (.other text), w.orSame c (w.addRunner job))
      | none => (.ok (), w.addRunner job)
  | .getStatefulSet name =>
    (match c.failure, c.statefulSet with
      | some text, _ => .error (.other text)
      | none, none => .error (.notFound name)
      | none, some sts => .ok { sts with name }, w)
  | .updateStatefulSet _ _ => (match c.failure with
      | some text => .error (.other text)
      | none => .ok (), w)
  | .listPods _ _ => (match c.failure with
      | some text => .error (.other text)
      | none => .ok c.pods, w)
  | .now => (c.time, w)
  | .performBackup _ _ _ => (c.backup, w)
  | .restorePIT _ _ _ => (c.restored, w)
  | .exec _ _ => (c.output, w)

def happen (w : BackupWorld) : BackupEvent → BackupWorld
  | .touch name => w.touch name
  | .progress name conditions completionTime => w.progress name conditions completionTime
  | .deleteJob name => w.deleteJob name

end BackupWorld

abbrev backupApi (stale : Bool) : Service BackupApi BackupWorld where
  Choice := BackupChoice
  answer := BackupWorld.answer stale
  Event := BackupEvent
  happen e w := some (w.happen e)

/-! ### What a step can do -/

def BackupJob.static (bj : BackupJob) : BackupJob := { bj with status := {}, resourceVersion := 0 }

namespace BackupWorld

def phase (w : BackupWorld) (name : Str) : Option BackupJobPhase := (w.job name).map fun bj => bj.status.phase

def Ended (w : BackupWorld) (name : Str) : Prop := ∀ p, w.phase name = some p → p.terminal

variable {stale : Bool} {c : BackupChoice} {w : BackupWorld} {name : Str}

variable {r : BackupReq}

theorem job_answer (h : ∀ version status, r ≠ .updateStatus name version status) :
    (answer stale c r w).2.job name = w.job name := by
  cases r with
  | updateStatus n version status =>
    have hne : name ≠ n := fun hn => h version status (by rw [hn])
    have hs : (w.setStatus n status).job name = w.job name := update_of_ne hne ..
    simp only [answer]
    split
    · rfl
    split
    · rfl
    split
    · simp only [orSame]
      split
      · exact hs
      · rfl
    · exact hs
  | patchOwner cluster value =>
    simp only [answer]
    split
    · simp only [orSame]
      split <;> rfl
    · rfl
  | createJob job =>
    simp only [answer]
    split
    · rfl
    split
    · simp only [orSame]
      split <;> rfl
    · rfl
  | _ => rfl

def static (w : BackupWorld) (name : Str) : Option BackupJob := (w.job name).map BackupJob.static

variable {bj : BackupJob}

theorem job_of_getBackupJob (stale : Bool) (h : (answer stale c (.getBackupJob name) w).1 = .ok bj) :
    w.job name = some bj := by
  simp only [answer] at h
  split at h <;> cases h
  assumption

theorem runners_of_getJob (stale : Bool) {job : Job} (h : (answer stale c (.getJob name) w).1 = .ok job) :
    w.runners name = some job := by
  simp only [answer] at h
  split at h <;> cases h
  assumption

theorem name_of_getStatefulSet (stale : Bool) {sts : StatefulSet}
    (h : (answer stale c (.getStatefulSet name) w).1 = .ok sts) :
    sts.name = name := by
  simp only [answer] at h
  split at h <;> cases h
  rfl

theorem name_of_getCluster (stale : Bool) {cluster : Cluster.PostgresCluster}
    (h : (answer stale c (.getCluster name) w).1 = .ok cluster) : cluster.name = name := by
  simp only [answer] at h
  split at h <;> cases h
  rfl

theorem answer_updateStatus (stale : Bool) (c : BackupChoice) (name : Str) (version : Nat)
    (status : BackupJobStatus) :
    (answer stale c (.updateStatus name version status) w).2 = w ∨
      (answer stale c (.updateStatus name version status) w).2 = w.setStatus name status := by
  simp only [answer]
  split
  · exact .inl rfl
  split
  · exact .inl rfl
  split
  · simp only [orSame]
    split
    · exact .inr rfl
    · exact .inl rfl
  · exact .inr rfl

theorem phase_setStatus (status : BackupJobStatus) :
    (w.setStatus name status).phase name = (w.phase name).map fun _ => status.phase := by
  change (update w.job name ((w.job name).map _) name).map _ = _
  rw [update_self, phase, map_map, map_map]
  rfl

theorem ended_setStatus {status : BackupJobStatus} (h : status.phase.terminal) :
    (w.setStatus name status).Ended name := by
  intro p hp
  rw [phase_setStatus] at hp
  obtain ⟨_, -, rfl⟩ := map_eq_some_iff.1 hp
  exact h

variable {n : Str}

theorem unsaved_or_ended_updateStatus {version : Nat} {status : BackupJobStatus} {unsaved : Bool}
    (h : unsaved ∨ w.Ended name) (hsta : status.phase.terminal) :
    (if n = name ∧ (answer stale c (.updateStatus n version status) w).2.job n ≠ w.job n then false else unsaved) ∨
      (answer stale c (.updateStatus n version status) w).2.Ended name := by
  by_cases hn : n = name
  · subst hn
    rcases answer_updateStatus (w := w) stale c n version status with hs | ht
    · rw [hs, if_neg (by simp)]
      exact h
    · rw [ht]
      exact .inr (ended_setStatus hsta)
  · rw [if_neg fun ha => hn ha.1]
    refine h.imp_right fun he p hp => he p ?_
    rw [phase, job_answer (by rintro v st ⟨⟩; exact hn rfl)] at hp
    exact hp

theorem phase_happen (e : BackupEvent) : (w.happen e).phase name = w.phase name := by
  cases e with
  | touch n =>
    change (update w.job n ((w.job n).map _) name).map _ = _
    by_cases hn : name = n
    · subst hn
      rw [update_self, map_map]
      rfl
    · rw [update_of_ne hn]
      rfl
  | progress n conditions completionTime =>
    simp only [happen, progress]
    split
    · rfl
    · split <;> rfl
  | deleteJob n => rfl

theorem static_modifyJob {f : BackupJob → BackupJob} (hf : ∀ bj, (f bj).name = bj.name)
    (h : ∀ bj, (f bj).static = bj.static) :
    (w.modifyJob n f hf).static name = w.static name := by
  change (update w.job n ((w.job n).map f) name).map _ = _
  by_cases hn : name = n
  · subst hn
    rw [update_self, map_map, static]
    exact congrArg (Option.map · _) (funext h)
  · rw [update_of_ne hn]
    rfl

/-- No request changes more of a job than its status. -/
theorem static_answer (stale : Bool) (c : BackupChoice) (r : BackupReq) :
    (answer stale c r w).2.static name = w.static name := by
  by_cases hr : ∃ version status, r = .updateStatus name version status
  · obtain ⟨version, status, rfl⟩ := hr
    rcases answer_updateStatus (w := w) stale c name version status with h | h
    · rw [h]
    · rw [h]
      exact static_modifyJob _ fun _ => rfl
  · rw [static, job_answer fun version status h => hr ⟨version, status, h⟩, static]

theorem static_happen (e : BackupEvent) : (w.happen e).static name = w.static name := by
  cases e with
  | touch n =>
    unfold happen touch
    exact static_modifyJob _ fun _ => rfl
  | progress n conditions completionTime =>
    simp only [happen, progress]
    split
    · rfl
    · split <;> rfl
  | deleteJob n => rfl

theorem owners_answer (stale : Bool) (c : BackupChoice) (h : ∀ cluster value, r ≠ .patchOwner cluster value) :
    (answer stale c r w).2.owners = w.owners := by
  cases r with
  | patchOwner cluster value => exact absurd rfl (h cluster value)
  | updateStatus n version status =>
    rcases answer_updateStatus (w := w) stale c n version status with h | h <;> rw [h]
    rfl
  | createJob job =>
    simp only [answer]
    split
    · rfl
    split
    · simp only [orSame]
      split <;> rfl
    · rfl
  | _ => rfl

theorem answer_patchOwner (stale : Bool) (c : BackupChoice) (cluster : Str) (value : Option Str) :
    (answer stale c (.patchOwner cluster value) w).2 = w.setOwner cluster value ∨
      (answer stale c (.patchOwner cluster value) w).2 = w ∧
        ∃ e, (answer stale c (.patchOwner cluster value) w).1 = .error e := by
  simp only [answer]
  split
  · simp only [orSame]
    split
    · exact .inl rfl
    · exact .inr ⟨rfl, _, rfl⟩
  · exact .inl rfl

theorem owner_setOwner_self (cluster : Str) (value : Option Str) :
    (w.setOwner cluster value).owner cluster = ownerOf value := by
  simp [owner, setOwner]

theorem owner_setOwner_of_ne {cluster other : Str} (h : other ≠ cluster) (value : Option Str) :
    (w.setOwner cluster value).owner other = w.owner other := by
  simp [owner, setOwner, update_of_ne h]

theorem owners_happen (e : BackupEvent) : (w.happen e).owners = w.owners := by
  cases e with
  | touch n => rfl
  | progress n conditions completionTime =>
    simp only [happen, progress]
    split
    · rfl
    · split <;> rfl
  | deleteJob n => rfl

theorem runners_answer (stale : Bool) (c : BackupChoice) (h : ∀ job, r ≠ .createJob job) :
    (answer stale c r w).2.runners = w.runners := by
  cases r with
  | createJob job => exact absurd rfl (h job)
  | updateStatus n version status =>
    rcases answer_updateStatus (w := w) stale c n version status with h | h <;> rw [h]
    rfl
  | patchOwner cluster value =>
    rcases answer_patchOwner (w := w) stale c cluster value with h | ⟨h, -⟩ <;> rw [h]
    rfl
  | _ => rfl

/-- A Job is created only under a free name. -/
theorem answer_createJob (stale : Bool) (c : BackupChoice) (job : Job) : (answer stale c (.createJob job) w).2 = w ∨
      w.runners job.name = none ∧ (answer stale c (.createJob job) w).2 = w.addRunner job := by
  simp only [answer]
  split
  · exact .inl rfl
  rename_i hn
  have hn := not_isSome_iff_eq_none.1 hn
  split
  · simp only [orSame]
    split
    · exact .inr ⟨hn, rfl⟩
    · exact .inl rfl
  · exact .inr ⟨hn, rfl⟩

theorem runners_happen {e : BackupEvent} {job : Job} (h : (w.happen e).runners n = some job) :
    ∃ old, w.runners n = some old ∧ old.backupJob = job.backupJob ∧ old.claimName = job.claimName ∧
      (old.complete → job.complete) := by
  cases e with
  | touch m => exact ⟨job, h, rfl, rfl, id⟩
  | progress m conditions completionTime =>
    simp only [happen, progress] at h
    split at h
    · exact ⟨job, h, rfl, rfl, id⟩
    rename_i old hold
    split at h
    · exact ⟨job, h, rfl, rfl, id⟩
    rename_i hu
    change update w.runners old.name (some { old with conditions, completionTime }) n = some job at h
    rw [w.runners_name m old hold] at h
    by_cases hn : n = m
    · subst hn
      rw [update_self] at h
      cases h
      refine ⟨old, hold, rfl, rfl, fun hc => absurd ?_ hu⟩
      rw [Job.finished, hc, Bool.true_or]
    · rw [update_of_ne hn] at h
      exact ⟨job, h, rfl, rfl, id⟩
  | deleteJob m =>
    change update w.runners m none n = some job at h
    by_cases hn : n = m
    · subst hn
      rw [update_self] at h
      cases h
    · rw [update_of_ne hn] at h
      exact ⟨job, h, rfl, rfl, id⟩

theorem status_happen {e : BackupEvent} (h : (w.happen e).job name = some bj) :
    ∃ old, w.job name = some old ∧ bj.status = old.status := by
  cases e with
  | touch n =>
    change update w.job n ((w.job n).map _) name = some bj at h
    by_cases hn : name = n
    · subst hn
      rw [update_self] at h
      obtain ⟨old, hold, rfl⟩ := map_eq_some_iff.1 h
      exact ⟨old, hold, rfl⟩
    · rw [update_of_ne hn] at h
      exact ⟨bj, h, rfl⟩
  | progress n conditions completionTime =>
    simp only [happen, progress] at h
    split at h
    · exact ⟨bj, h, rfl⟩
    · split at h <;> exact ⟨bj, h, rfl⟩
  | deleteJob n => exact ⟨bj, h, rfl⟩

/-- A status changes only by an update of it. -/
theorem status_answer (stale : Bool) (c : BackupChoice) (h : (answer stale c r w).2.job name = some bj) :
    (∃ old, w.job name = some old ∧ bj.status = old.status) ∨
      ((w.job name).isSome ∧ ∃ version, r = .updateStatus name version bj.status) := by
  by_cases hr : ∃ version status, r = .updateStatus name version status
  · obtain ⟨version, status, rfl⟩ := hr
    rcases answer_updateStatus (w := w) stale c name version status with hs | ht
    · rw [hs] at h
      exact .inl ⟨bj, h, rfl⟩
    · rw [ht] at h
      change update w.job name ((w.job name).map _) name = some bj at h
      rw [update_self] at h
      obtain ⟨old, hold, rfl⟩ := map_eq_some_iff.1 h
      exact .inr ⟨by rw [hold]; rfl, version, rfl⟩
  · rw [job_answer fun version status heq => hr ⟨version, status, heq⟩] at h
    exact .inl ⟨bj, h, rfl⟩

end BackupWorld

def WritesResult : BackupReq → Prop
  | .now | .getBackupJob _ => True
  | .updateStatus _ _ status => status.phase.terminal
  | _ => False

theorem writesResult_returnStatus (q : Requeue) {bj : BackupJob} (h : bj.status.phase.terminal) :
    (returnStatus q bj).Only WritesResult :=
  only_returnStatus (fun _ => trivial) fun _ _ => h

def Plain : BackupReq → Prop
  | .patchOwner _ _ | .performBackup _ _ _ | .restorePIT _ _ _ | .exec _ _ => False
  | _ => True

theorem plain_returnStatus (q : Requeue) (bj : BackupJob) : (returnStatus q bj).Only Plain :=
  only_returnStatus (fun _ => trivial) fun _ _ => trivial

theorem plain_ended (bj : Int → BackupJob) : (timeNow >>= fun t => returnStatus .no (bj t)).Only Plain :=
  Prog.Only.request trivial fun _ => plain_returnStatus ..

theorem plain_reconcileRunnerJob (R : Reconciler) (bj : BackupJob) : (reconcileRunnerJob R bj).Only Plain := by
  unfold reconcileRunnerJob
  split
  · refine .request trivial ?_
    rintro (e | ⟨⟩)
    · dsimp only
      split
      · exact plain_returnStatus ..
      · trivial
    · exact plain_returnStatus ..
  refine .request trivial ?_
  rintro (e | runner)
  · dsimp only
    split
    · exact plain_ended _
    · trivial
  dsimp only
  split
  · exact plain_ended _
  split
  · exact plain_ended _
  · exact plain_returnStatus ..

/-! ### Runs of one job -/

/-- A Reconcile returns, the operator is stopped in it before a request, or something happens in between. -/
inductive ReconcileLabel
  | returned (r : Result)
  | stopped (r : BackupReq)
  | event (e : BackupEvent)

section Runs

variable {G : Type}

/-- One step of the Reconciles of one `BackupJob`; events may also happen in the middle of one. -/
def ReconcileStep (note : (r : BackupReq) → r.Res → BackupWorld → BackupWorld → G → G) (R : Reconciler) (name : Str)
    (x : BackupWorld × G) : ReconcileLabel → BackupWorld × G → Prop
  | .returned r, x' => Ends ((backupApi false).noting note).busy (reconcile R name) x r x'
  | .stopped r, x' => Stops ((backupApi false).noting note).busy (reconcile R name) x (some r) x'
  | .event e, x' => x' = (x.1.happen e, x.2)

/-- A run of the Reconciles of one `BackupJob`, with notes that begin with `g`. -/
def IsReconcileRun (note : (r : BackupReq) → r.Res → BackupWorld → BackupWorld → G → G) (R : Reconciler) (name : Str)
    (g : G)
    (h : Run ReconcileLabel (BackupWorld × G)) : Prop :=
  h.first.2 = g ∧ h.Steps fun h l x' => ReconcileStep note R name h.world l x'

variable {note : (r : BackupReq) → r.Res → BackupWorld → BackupWorld → G → G} {R : Reconciler} {name : Str}

variable {x : BackupWorld × G}

theorem noted_answer (c : BackupChoice) (r : BackupReq) : (((backupApi false).noting note).answer c r x).2.2 =
    note r (BackupWorld.answer false c r x.1).1 x.1 (BackupWorld.answer false c r x.1).2 x.2 := rfl

theorem noted_eq {c : BackupChoice} {r : BackupReq} {a : r.Res} {x' : BackupWorld × G}
    (hc : ((backupApi false).noting note).answer c r x = (a, x')) : x'.2 = note r a x.1 x'.1 x.2 := by
  obtain ⟨rfl, rfl⟩ := Prod.mk.inj hc
  rfl

variable {K : BackupWorld × G → Prop}

theorem kept_events (note : (r : BackupReq) → r.Res → BackupWorld → BackupWorld → G → G)
    (he : ∀ x e, K x → K (x.1.happen e, x.2)) (hx : K x) (es : List BackupEvent) :
    K (es.foldl (fun x e => (((backupApi false).noting note).happen e x).getD x) x) := by
  induction es generalizing x with
  | nil => exact hx
  | cons e es ih => exact ih (he x e hx)

/-- The rule for one request with the cluster's events before it. -/
theorem throughout_noted {C : BackupReq → BackupWorld × G → Prop} {r : BackupReq}
    (hC : C r x) (he : ∀ x e, K x → K (x.1.happen e, x.2)) (hx : K x) :
    Throughout ((backupApi false).noting note).busy C (Prog.request (I := BackupApi) r) x fun a x' =>
      ∃ c y, K y ∧ ((backupApi false).noting note).answer c r y = (a, x') := by
  refine (throughout_request hC).mono ?_
  rintro a x' ⟨c, hc⟩
  exact ⟨c.2, _, kept_events note he hx c.1, hc⟩

variable {h : Run ReconcileLabel (BackupWorld × G)}

/-- An invariant of the runs whose steps all end in `O`: it holds after a Reconcile from a world in which it holds,
and wherever that is stopped, if `O` does. -/
theorem IsReconcileRun.invariant {O : BackupWorld × G → Prop} {g : G}
    (hc : ∀ x, K x → Throughout ((backupApi false).noting note).busy (fun _ x' => O x' → K x') (reconcile R name) x
      fun _ x' => O x' → K x')
    (he : ∀ x e, K x → K (x.1.happen e, x.2))
    (hr : IsReconcileRun note R name g h) (hok : h.Steps fun _ _ x' => O x') (hf : K h.first) : K h.world := by
  obtain ⟨hg, hste⟩ := hr
  induction h with
  | start x => exact hf
  | step h l x ih =>
    have hx := ih hok.1 hf hg hste.1
    have hs := hste.2
    cases l with
    | returned r => exact (hc _ hx).ends hs hok.2
    | stopped r =>
      rcases (hc _ hx).stops hs with ⟨r', hr', hsto⟩ | ⟨hr', -⟩
      · exact hsto hok.2
      · cases hr'
    | event e =>
      rw [show x = (h.world.1.happen e, h.world.2) from hs]
      exact he _ e hx

theorem isReconcileRun_start (x : BackupWorld × G) : IsReconcileRun note R name x.2 (.start x) := ⟨rfl, trivial⟩

def andReconcile (note : (r : BackupReq) → r.Res → BackupWorld → BackupWorld → G → G) (R : Reconciler) (name : Str)
    (h : Run ReconcileLabel (BackupWorld × G)) (cs : List (List BackupEvent × BackupChoice)) :
    Option (Run ReconcileLabel (BackupWorld × G)) :=
  ((reconcile R name).play ((backupApi false).noting note).busy h.world cs).map fun x => h.step (.returned x.1) x.2

variable {h' : Run ReconcileLabel (BackupWorld × G)}

theorem IsReconcileRun.andReconcile {g : G} {cs : List (List BackupEvent × BackupChoice)}
    (hr : IsReconcileRun note R name g h)
    (hc : Backup.andReconcile note R name h cs = some h') : IsReconcileRun note R name g h' := by
  obtain ⟨x, hx, rfl⟩ := map_eq_some_iff.1 hc
  exact ⟨hr.1, hr.2, cs, hx⟩

def reconciles (note : (r : BackupReq) → r.Res → BackupWorld → BackupWorld → G → G) (R : Reconciler) (name : Str)
    (h : Run ReconcileLabel (BackupWorld × G)) : List (List (List BackupEvent × BackupChoice)) →
      Option (Run ReconcileLabel (BackupWorld × G))
  | [] => some h
  | cs :: rest => (andReconcile note R name h cs).bind fun h' => reconciles note R name h' rest

theorem IsReconcileRun.reconciles {g : G}
    {css : List (List (List BackupEvent × BackupChoice))} (hr : IsReconcileRun note R name g h)
    (hc : Backup.reconciles note R name h css = some h') : IsReconcileRun note R name g h' := by
  induction css generalizing h with
  | nil =>
    cases hc
    exact hr
  | cons cs css ih =>
    obtain ⟨h₁, hh₁, hc⟩ := bind_eq_some_iff.1 hc
    exact ih (hr.andReconcile hh₁) hc

theorem first_reconciles {css : List (List (List BackupEvent × BackupChoice))}
    (hc : reconciles note R name h css = some h') : h'.first = h.first := by
  induction css generalizing h with
  | nil =>
    cases hc
    rfl
  | cons cs css ih =>
    obtain ⟨h₁, hh₁, hc⟩ := bind_eq_some_iff.1 hc
    obtain ⟨x, -, rfl⟩ := map_eq_some_iff.1 hh₁
    have hf := ih hc
    exact hf

end Runs

/-! ### An example -/

theorem name_of_none (name : Str) (job : Job) (h : none = some job) : job.name = name := by cases h

def oneJob (bj : BackupJob) : BackupWorld where
  job name := if name = bj.name then some bj else none
  job_name := by
    intro name bj' h
    split at h <;> cases h
    exact Eq.symm (by assumption)
  runners_name := name_of_none

def demoCluster : Cluster.PostgresCluster where
  ns := "default"
  name := "demo"
  ns_noSlash := Cluster.default_noSlash

end PostgresOperator.Backup
