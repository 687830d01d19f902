import PostgresOperator.Backup.RestoreLock

/-!
# Restores exclude each other

The annotation `restore-in-progress` is a lock that is taken by a read and then a merge patch, and the read may be of
an older version of the cluster.  The requests of every Reconcile keep to a protocol (`LockStep`), whatever is read.
In the runs in which no patch takes the annotation from another restore, and no old version shows a restore its own
name, two restores never have Jobs on the same claim, and a Job is only created by the restore that the annotation
names (`restore_exclusive`).
-/

namespace PostgresOperator.Backup

open Go Calls BackupWorld List Option Function

def restoreClaim (cluster : Str) : Str := statefulSetDataPVCName (shardStatefulSetName cluster 0) 0

theorem restoreClaim_injective : Function.Injective restoreClaim := by
  intro a b h
  simp only [restoreClaim, statefulSetDataPVCName, shardStatefulSetName, append_assoc] at h
  exact append_cancel_right (append_cancel_left h)

def BackupWorld.AllComplete (w : BackupWorld) (name : Str) : Prop :=
  ∀ n job, w.runners n = some job → job.claimName.isSome → job.backupJob = name → job.complete

/-! ### Runs of many jobs -/

def noteSeen (r : BackupReq) (a : r.Res) (_ _ : BackupWorld) (seen : Str) : Str :=
  match r, a with
  | .getCluster _, .ok cluster => restoreOwner cluster
  | .getCluster _, .error _ => []
  | _, _ => seen

abbrev lockApi : Service BackupApi (BackupWorld × Str) := (backupApi true).noting noteSeen

abbrev LockHist := Run (Label Str BackupReq) (BackupWorld × Str)

def backupThread (R : Reconciler) (name : Str) : BackupProg Unit := do
  let _ ← reconcile R name
  pure ()

/-- A patch sets the annotation only when it is unset or has the own name, and a read that shows the own name is
current. -/
def Cautious (h : LockHist) (l : Label Str BackupReq) (x' : BackupWorld × Str) : Prop :=
  match l with
  | .call i (.patchOwner cluster (some _)) _ =>
    x'.1.owners cluster ≠ h.world.1.owners cluster → h.world.1.owner cluster = [] ∨ h.world.1.owner cluster = i
  | .call i (.getCluster cluster) _ => x'.2 = i → h.world.1.owner cluster = i
  | _ => True

instance (h : LockHist) (l : Label Str BackupReq) (x' : BackupWorld × Str) : Decidable (Cautious h l x') := by
  unfold Cautious
  split <;> infer_instance

/-! ### The protocol -/

section Protocol

variable (R : Reconciler)

def NamesRunner (i : Str) (status : BackupJobStatus) : Prop :=
  status.runnerJobName = [] ∨ status.runnerJobName = R.backupRunnerJobName i

def LockAct (i : Str) (h : LockHist) : BackupReq → Prop
  | .patchOwner _ (some value) => value = i ∧ trimSpace i = i ∧ i ≠ []
  | .patchOwner cluster none => h.Steps Cautious → h.world.1.owner cluster = i ∧ h.world.1.AllComplete i
  | .createJob job =>
    ∀ claim, job.claimName = some claim → job.backupJob = i ∧ i ≠ [] ∧ job.name = R.backupRunnerJobName i ∧
      ∃ cluster, claim = restoreClaim cluster ∧ (h.Steps Cautious → h.world.1.owner cluster = i)
  | .updateStatus n _ status => n = i ∧ NamesRunner R i status
  | _ => True

def LockStep (h : LockHist) (l : Label Str BackupReq) (x' : BackupWorld × Str) : Prop :=
  match l with
  | .call i r _ => LockAct R i h r ∧ ∃ c, x' = (lockApi.answer c r h.world).2
  | .env => ∃ e, x' = (h.world.1.happen e, h.world.2)

structure Unstarted (w : BackupWorld) : Prop where
  named : ∀ n bj, w.job n = some bj → trimSpace n = n ∧ n ≠ []
  noRunner : ∀ n bj, w.job n = some bj → bj.status.runnerJobName = []
  noJobs : ∀ n, w.runners n = none

def LockProtocol (h : LockHist) : Prop := Unstarted h.first.1 ∧ h.Steps (LockStep R)

/-- What holds in the runs of the protocol: the names are as the API server wants them, a status names the Job of its
`BackupJob` if any, a restore Job has the name that goes with its `BackupJob`, and while it is not complete the
annotation names that one. -/
structure Orderly (h : LockHist) : Prop where
  named : ∀ n bj, h.world.1.job n = some bj → trimSpace n = n ∧ n ≠ []
  runner : ∀ n bj, h.world.1.job n = some bj → NamesRunner R n bj.status
  jobs : ∀ n job, h.world.1.runners n = some job → job.claimName.isSome →
    n = R.backupRunnerJobName job.backupJob ∧ job.backupJob ≠ []
  held : h.Steps Cautious → ∀ n job claim, h.world.1.runners n = some job → job.claimName = some claim →
    job.complete = false →
    ∃ cluster, claim = restoreClaim cluster ∧ h.world.1.owner cluster = job.backupJob

end Protocol

section Steps

variable {R : Reconciler} {i : Str} {h : LockHist} {l : Label Str BackupReq} {x' : BackupWorld × Str}

theorem Unstarted.orderly {x : BackupWorld × Str} (hx : Unstarted x.1) : Orderly R (.start x) where
  named := hx.named
  runner n bj hbj := .inl (hx.noRunner n bj hbj)
  jobs n job hj := by cases (hx.noJobs n).symm.trans hj
  held _ n job _ hj := by cases (hx.noJobs n).symm.trans hj

/-- The status of a job is its own work, and names its own runner. -/
theorem LockStep.status {n : Str} {bj : BackupJob} (hs : LockStep R h l x') (hbj : x'.1.job n = some bj) :
    ∃ old, h.world.1.job n = some old ∧ (bj.status = old.status ∨ NamesRunner R n bj.status) := by
  cases l with
  | env =>
    obtain ⟨e, rfl⟩ := hs
    obtain ⟨old, hold, hsta⟩ := status_happen hbj
    exact ⟨old, hold, Or.inl hsta⟩
  | call i r ok =>
    obtain ⟨ha, c, rfl⟩ := hs
    rcases status_answer true c hbj with ⟨old, hold, hsta⟩ | ⟨hsm, version, rfl⟩
    · exact ⟨old, hold, Or.inl hsta⟩
    · obtain ⟨old, hold⟩ := isSome_iff_exists.1 hsm
      obtain ⟨rfl, hr⟩ := ha
      exact ⟨old, hold, Or.inr hr⟩

/-- A runner Job was there before, or this step creates it. -/
theorem LockStep.job {n : Str} {job : Job} (hs : LockStep R h l x') (hj : x'.1.runners n = some job) :
    (∃ old, h.world.1.runners n = some old ∧ old.backupJob = job.backupJob ∧ old.claimName = job.claimName ∧
      (old.complete → job.complete)) ∨
      ∃ i ok, l = .call i (.createJob job) ok ∧ n = job.name ∧ LockAct R i h (.createJob job) ∧
        x'.1.owners = h.world.1.owners := by
  cases l with
  | env =>
    obtain ⟨e, rfl⟩ := hs
    exact .inl (runners_happen hj)
  | call i r ok =>
    obtain ⟨ha, c, rfl⟩ := hs
    by_cases hr : ∃ job', r = .createJob job'
    · obtain ⟨job', rfl⟩ := hr
      rcases answer_createJob (w := h.world.1) true c job' with hsm | ⟨-, hd⟩
      · rw [show (lockApi.answer c (.createJob job') h.world).2.1 = h.world.1 from hsm] at hj
        exact .inl ⟨job, hj, rfl, rfl, id⟩
      · rw [show (lockApi.answer c (.createJob job') h.world).2.1 = h.world.1.addRunner job' from hd] at hj ⊢
        change update h.world.1.runners job'.name (some job') n = some job at hj
        by_cases hn : n = job'.name
        · subst hn
          rw [update_self] at hj
          cases hj
          exact .inr ⟨i, ok, rfl, rfl, ha, rfl⟩
        · rw [update_of_ne hn] at hj
          exact .inl ⟨job, hj, rfl, rfl, id⟩
    · rw [show (lockApi.answer c r h.world).2.1.runners = h.world.1.runners from
        runners_answer true c fun job' heq => hr ⟨job', heq⟩] at hj
      exact .inl ⟨job, hj, rfl, rfl, id⟩

/-- The annotation after a step of a run in which all were cautious: it is as before, or it was unset and is set, or
its owner has deleted it, whose Jobs are all complete. -/
theorem LockStep.owner (hste : LockStep R h l x') (hs : (h.step l x').Steps Cautious) (cluster : Str) :
    x'.1.owner cluster = h.world.1.owner cluster ∨
      ∃ i r ok, l = .call i r ok ∧ x'.1.runners = h.world.1.runners ∧
        (h.world.1.owner cluster = [] ∧ x'.1.owner cluster = i ∨
          h.world.1.owner cluster = i ∧ x'.1.owner cluster = [] ∧ h.world.1.AllComplete i) := by
  cases l with
  | env =>
    obtain ⟨e, rfl⟩ := hste
    refine .inl ?_
    rw [owner, owners_happen]
    rfl
  | call i r ok =>
    obtain ⟨ha, c, rfl⟩ := hste
    by_cases hr : ∃ cluster' value, r = .patchOwner cluster' value
    · obtain ⟨cluster', value, rfl⟩ := hr
      rcases answer_patchOwner (w := h.world.1) true c cluster' value with hset | ⟨hsm, -⟩
      · by_cases hc : cluster = cluster'
        · subst hc
          have hset' : (lockApi.answer c (.patchOwner cluster value) h.world).2.1 =
              h.world.1.setOwner cluster value := hset
          cases value with
          | some v =>
            obtain ⟨rfl, ht, -⟩ := ha
            have hn : (lockApi.answer c (.patchOwner cluster (some v)) h.world).2.1.owner cluster = v := by
              rw [hset', owner_setOwner_self]
              exact ht
            have hch : (lockApi.answer c (.patchOwner cluster (some v)) h.world).2.1.owners cluster ≠
                h.world.1.owners cluster := by
              rw [hset']
              simp [setOwner]
            rcases hs.2 hch with hu | ho
            · exact .inr ⟨v, _, ok, rfl, by rw [hset']; rfl, Or.inl ⟨hu, hn⟩⟩
            · exact .inl (hn.trans ho.symm)
          | none =>
            obtain ⟨ho, hl⟩ := ha hs.1
            refine .inr ⟨i, _, ok, rfl, by rw [hset']; rfl, Or.inr ⟨ho, ?_, hl⟩⟩
            rw [hset', owner_setOwner_self]
            rfl
        · refine .inl ?_
          rw [show (lockApi.answer c (.patchOwner cluster' value) h.world).2.1 = _ from hset]
          exact owner_setOwner_of_ne hc value
      · exact .inl (by rw [show (lockApi.answer c (.patchOwner cluster' value) h.world).2.1 = h.world.1 from hsm])
    · refine .inl ?_
      rw [owner, show (lockApi.answer c r h.world).2.1.owners = h.world.1.owners from
        owners_answer true c fun cluster' value heq => hr ⟨cluster', value, heq⟩]
      rfl

/-- What the protocol keeps about runners and owners. -/
theorem Orderly.step (hh : Orderly R h) (hs : LockStep R h l x') : Orderly R (h.step l x') where
  named n bj hbj := by
    obtain ⟨old, hold, -⟩ := hs.status hbj
    exact hh.named n old hold
  runner n bj hbj := by
    obtain ⟨old, hold, hsta | hr⟩ := hs.status hbj
    · unfold NamesRunner
      rw [hsta]
      exact hh.runner n old hold
    · exact hr
  jobs n job hj hc := by
    rcases hs.job hj with ⟨old, hold, hof, hsm, -⟩ | ⟨i, ok, rfl, rfl, ha, -⟩
    · rw [← hof]
      exact hh.jobs n old hold (hsm ▸ hc)
    · obtain ⟨claim, hc⟩ := isSome_iff_exists.1 hc
      obtain ⟨rfl, hne, hn, -⟩ := ha claim hc
      exact ⟨hn, hne⟩
  held hste n job claim hj hc hop := by
    rcases hs.job hj with ⟨old, hold, hof, hsm, hm⟩ | ⟨i, ok, rfl, rfl, ha, how⟩
    · have hoo : old.complete = false := by
        by_contra hd
        rw [hm (Bool.not_eq_false _ ▸ hd)] at hop
        cases hop
      obtain ⟨cluster, hcl, ho⟩ := hh.held hste.1 n old claim hold (hsm.trans hc) hoo
      refine ⟨cluster, hcl, ?_⟩
      rcases hs.owner hste cluster with hk | ⟨i, r, ok, rfl, -, ⟨hu, -⟩ | ⟨hown, -, hl⟩⟩
      · exact hk.trans (ho.trans hof)
      · exact absurd (ho.symm.trans hu) (hh.jobs n old hold (by rw [hsm, hc]; rfl)).2
      · have hd := hl n old hold (by rw [hsm, hc]; rfl) (ho.symm.trans hown)
        rw [hoo] at hd
        cases hd
    · obtain ⟨rfl, -, -, cluster, hcl, ho⟩ := ha claim hc
      refine ⟨cluster, hcl, ?_⟩
      change x'.1.owner cluster = job.backupJob
      rw [owner, how]
      exact ho hste.1

theorem LockProtocol.orderly (hh : LockProtocol R h) : Orderly R h := by
  obtain ⟨hf, hs⟩ := hh
  induction h with
  | start x => exact hf.orderly
  | step h l x ih => exact (ih hf hs.1).step hs.2

end Steps

/-! ### The Reconcile keeps to the protocol -/

section Rules

variable (R : Reconciler) (i : Str)

def LockRely (h h' : LockHist) : Prop := ∃ l x', h' = h.step l x' ∧ LockStep R h l x' ∧ ∀ r ok, l ≠ .call i r ok

def LockGuar (h h' : LockHist) : Prop := ∃ r ok x', h' = h.step (.call i r ok) x' ∧ LockStep R h (.call i r ok) x'

abbrev lockSetting : Setting BackupApi LockHist :=
  Threads.setting lockApi (LockProtocol R) (LockRely R) (LockGuar R) i

def Reads : BackupReq → Prop
  | .updateStatus _ _ _ | .patchOwner _ _ | .createJob _ => False
  | _ => True

structure Lasts (P : LockHist → Prop) : Prop where
  others : (lockSetting R i).Stable P
  reads : ∀ h r ok x', Reads r → LockStep R h (.call i r ok) x' → P h → P (h.step (.call i r ok) x')

def Holds (cluster : Str) (h : LockHist) : Prop := h.Steps Cautious → h.world.1.owner cluster = i

end Rules

theorem world_of_reads {r : BackupReq} (hr : Reads r) {c : lockApi.Choice} {x : BackupWorld × Str} :
    (lockApi.answer c r x).2.1 = x.1 := by
  cases r with
  | updateStatus | patchOwner | createJob => exact hr.elim
  | _ => rfl

section Safe

variable {R : Reconciler} {i : Str} {α : Type} {P P' : LockHist → Prop} {Q : α → LockHist → Prop} {h : LockHist}

theorem lasts_true : Lasts R i fun _ => True := ⟨fun _ _ _ _ => trivial, fun _ _ _ _ _ _ _ => trivial⟩

/-- Facts that last may be carried together. -/
theorem Lasts.and (hP : Lasts R i P) (hP' : Lasts R i P') : Lasts R i fun h => P h ∧ P' h where
  others := hP.others.and hP'.others
  reads h r ok x' hr hs hh := ⟨hP.reads h r ok x' hr hs hh.1, hP'.reads h r ok x' hr hs hh.2⟩

/-- The lock is not taken from its holder by the others. -/
theorem lasts_holds (hne : i ≠ []) (cluster : Str) : Lasts R i (Holds i cluster) where
  others := by
    rintro h _ ⟨l, x', rfl, hste, ho⟩ hh hs
    have hn := hh hs.1
    rcases hste.owner hs cluster with hk | ⟨j, r, ok, rfl, -, ⟨hu, -⟩ | ⟨hj, -, -⟩⟩
    · exact hk.trans hn
    · exact absurd (hn.symm.trans hu) hne
    · exact absurd (by rw [hj.symm.trans hn]) (ho r ok)
  reads := by
    rintro h r ok x' hr ⟨-, c, rfl⟩ hh hs
    change (lockApi.answer c r h.world).2.1.owner cluster = i
    rw [world_of_reads hr]
    exact hh hs.1

theorem lasts_allComplete : Lasts R i fun h => h.world.1.AllComplete i where
  others := by
    rintro h _ ⟨l, x', rfl, hs, ho⟩ hh n job hj hc hof
    rcases hs.job hj with ⟨old, hold, hso, hsm, hm⟩ | ⟨j, ok, rfl, -, ha, -⟩
    · exact hm (hh n old hold (hsm ▸ hc) (hso.trans hof))
    · obtain ⟨claim, hc⟩ := isSome_iff_exists.1 hc
      obtain ⟨rfl, -⟩ := ha claim hc
      exact absurd (by rw [hof]) (ho (.createJob job) ok)
  reads := by
    rintro h r ok x' hr ⟨-, c, rfl⟩ hh
    change (lockApi.answer c r h.world).2.1.AllComplete i
    rw [world_of_reads hr]
    exact hh

variable {r : BackupReq}

/-- The rule for one request: if it is a step of the protocol, it may be made. -/
theorem safe_act (hP : (lockSetting R i).Stable P) (hw : P h) (ha : ∀ h, P h → LockAct R i h r) :
    Safe (lockSetting R i) (fun a h' => ∃ h c, LockProtocol R h ∧ P h ∧ a = (lockApi.answer c r h.world).1 ∧
      h' = h.step (.call i r (!BackupApi.failed a)) (lockApi.answer c r h.world).2 ∧
      LockStep R h (.call i r (!BackupApi.failed a)) (lockApi.answer c r h.world).2)
      (Prog.request (I := BackupApi) r) h := by
  refine safe_call P hP hw ?_
  rintro h a _ hp hh ⟨c, x', hc, rfl⟩
  obtain ⟨rfl, rfl⟩ : (lockApi.answer c r h.world).1 = a ∧ (lockApi.answer c r h.world).2 = x' := by simp [hc]
  have hs : LockStep R h (.call i r (!BackupApi.failed (lockApi.answer c r h.world).1))
      (lockApi.answer c r h.world).2 :=
    ⟨ha h hh, c, rfl⟩
  exact ⟨⟨r, _, _, rfl, hs⟩, fun _ => ⟨h, c, hp, hh, rfl, rfl, hs⟩⟩

theorem Reads.act (hr : Reads r) (h : LockHist) : LockAct R i h r := by
  cases r with
  | updateStatus | patchOwner | createJob => exact hr.elim
  | _ => trivial

theorem safe_read (hP : Lasts R i P) (hr : Reads r) (hw : P h) :
    Safe (lockSetting R i) (fun a h => P h ∧ LockProtocol R h ∧ ∃ c, (lockApi.answer c r h.world).1 = a)
      (Prog.request (I := BackupApi) r) h := by
  refine (safe_act hP.others hw fun h _ => hr.act h).mono ?_
  rintro _ _ ⟨h, c, hp, hh, rfl, rfl, hs⟩
  have ha : (lockApi.answer c r (lockApi.answer c r h.world).2).1 = (lockApi.answer c r h.world).1 :=
    congrArg (fun w => (answer true c r w).1) (world_of_reads hr)
  exact ⟨hP.reads h r _ _ hr hs hh, ⟨hp.1, hp.2, hs⟩, c, ha⟩

abbrev Obeys (R : Reconciler) (i : Str) (p : BackupProg α) (h : LockHist) : Prop :=
  Safe (lockSetting R i) (fun _ _ => True) p h

theorem obeys_request (ha : ∀ h, LockAct R i h r) : Obeys R i (Prog.request (I := BackupApi) r) h :=
  (safe_act (P := fun _ => True) (fun _ _ _ _ => trivial) trivial fun h _ => ha h).mono fun _ _ _ => trivial

theorem obeys_read (hr : Reads r) : Obeys R i (Prog.request (I := BackupApi) r) h := obeys_request hr.act

end Safe

section Programs

variable {R : Reconciler} {i : Str} {bj : BackupJob} {h : LockHist}

structure IsOwn (R : Reconciler) (i : Str) (bj : BackupJob) : Prop where
  name : bj.name = i
  runner : NamesRunner R i bj.status
  trimmed : trimSpace i = i
  nonempty : i ≠ []

theorem obeys_statusUpdate {bj' : BackupJob} (hn : bj'.name = i) (hr : NamesRunner R i bj'.status) :
    Obeys R i (statusUpdate bj') h := by
  refine (obeys_request (by exact fun _ => ⟨hn, hr⟩)).except (fun e h _ => ?_) fun _ _ _ => trivial
  dsimp only
  split
  · trivial
  refine (safe_read lasts_true (by trivial) trivial).except (fun _ _ _ => trivial) ?_
  rintro fresh h ⟨-, -, c, hf⟩
  have hfn := h.world.1.job_name _ fresh (job_of_getBackupJob true hf)
  exact (obeys_request (by exact fun _ => ⟨hfn.trans hn, hr⟩)).except (fun _ _ _ => trivial) fun _ _ _ => trivial

theorem obeys_returnStatus {q : Requeue} {bj' : BackupJob} (hn : bj'.name = i) (hr : NamesRunner R i bj'.status) :
    Obeys R i (returnStatus q bj') h :=
  (obeys_statusUpdate hn hr).bind fun _ _ _ => trivial

section Own

variable (hbj : IsOwn R i bj)
include hbj

/-- A status that keeps the name of the runner may be stored. -/
theorem IsOwn.returns {q : Requeue} {bj' : BackupJob} (hn : bj'.name = bj.name)
    (hr : bj'.status.runnerJobName = bj.status.runnerJobName) : Obeys R i (returnStatus q bj') h :=
  obeys_returnStatus (hn.trans hbj.name) (by rw [NamesRunner, hr]; exact hbj.runner)

theorem IsOwn.starts {q : Requeue} {bj' : BackupJob} (hn : bj'.name = bj.name)
    (hr : bj'.status.runnerJobName = R.backupRunnerJobName bj.name) : Obeys R i (returnStatus q bj') h :=
  obeys_returnStatus (hn.trans hbj.name) (.inr (by rw [hr, hbj.name]))

theorem IsOwn.ends {ended : Int → BackupJob} (hn : ∀ t, (ended t).name = bj.name)
    (hr : ∀ t, (ended t).status.runnerJobName = bj.status.runnerJobName) :
    Obeys R i (timeNow >>= fun t => returnStatus .no (ended t)) h :=
  (obeys_read (by trivial)).bind fun t _ _ => hbj.returns (hn t) (hr t)

theorem obeys_reconcileRunnerJob : Obeys R i (reconcileRunnerJob R bj) h := by
  unfold reconcileRunnerJob
  split
  · refine (obeys_request (by rintro h claim ⟨⟩)).except (fun e h _ => ?_) fun _ _ _ => hbj.starts rfl rfl
    dsimp only
    split
    · exact hbj.starts rfl rfl
    · trivial
  refine (obeys_read (by trivial)).except (fun e h _ => ?_) fun runner h _ => ?_
  · dsimp only
    split
    · exact hbj.ends (fun _ => rfl) fun _ => rfl
    · trivial
  dsimp only
  split
  · refine hbj.ends (fun _ => ?_) fun _ => ?_
    · split <;> rfl
    · split <;> rfl
  split
  · exact hbj.ends (fun _ => rfl) fun _ => rfl
  · exact hbj.returns rfl rfl

variable {cluster : Cluster.PostgresCluster}

/-- The lock is given back only when the runners of the job are complete. -/
theorem obeys_finalize {runner : Job} (hhl : Holds i cluster.name h) (ha : h.world.1.AllComplete i) :
    Obeys R i (finalizeSidecarRestore bj cluster runner) h := by
  have hr : Obeys R i ( releaseClusterRestoreAnnotation bj cluster) h := by
    unfold releaseClusterRestoreAnnotation
    dsimp only
    split
    · trivial
    exact (safe_act ((lasts_holds hbj.nonempty cluster.name).and lasts_allComplete).others ⟨hhl, ha⟩
      (by exact fun _ hh hs => ⟨hh.1 hs, hh.2⟩)).mono fun _ _ _ => trivial
  refine hr.except (fun _ _ _ => trivial) fun _ h _ => ?_
  refine (obeys_read (by trivial)).except (fun _ _ _ => trivial) fun pods h _ => ?_
  dsimp only
  split
  · exact hbj.ends (fun _ => rfl) fun _ => rfl
  · exact hbj.ends (fun _ => rfl) fun _ => rfl
  · have hto : Obeys R i (restoreTimedOut runner) h := by
      unfold restoreTimedOut
      split
      · trivial
      · exact (obeys_read (by trivial)).bind fun _ _ _ => trivial
    refine hto.bind fun late h _ => ?_
    split
    · exact hbj.ends (fun _ => rfl) fun _ => rfl
    · exact hbj.returns rfl rfl

/-- A complete Job that the status names is the only restore Job of the `BackupJob`. -/
theorem LockProtocol.allComplete {runner : Job} (hh : LockProtocol R h) (hs : bj.status.runnerJobName ≠ [])
    (hr : h.world.1.runners bj.status.runnerJobName = some runner) (hm : runner.complete) :
    h.world.1.AllComplete i := by
  intro n job hj hc hof
  have hn := (hh.orderly.jobs n job hj hc).1
  have hsta : bj.status.runnerJobName = R.backupRunnerJobName i := hbj.runner.resolve_left hs
  rw [hof, ← hsta] at hn
  rw [hn, hr] at hj
  cases hj
  exact hm

variable {commands : BackupCommandPlugin}

/-- The runner is created only by the holder of the lock. -/
theorem obeys_reconcileRestoreJob {sts : StatefulSet} (hsts : sts.name = shardStatefulSetName cluster.name 0)
    (hhl : Holds i cluster.name h) : Obeys R i (reconcileRestoreJob R bj cluster commands sts) h := by
  have hl : Lasts R i (Holds i cluster.name) := lasts_holds hbj.nonempty cluster.name
  unfold reconcileRestoreJob
  split
  · split
    · exact hbj.returns rfl rfl
    dsimp only
    split
    · exact hbj.returns rfl rfl
    rename_i job hj
    unfold buildSidecarRestoreJob at hj
    split at hj <;> cases hj
    refine (safe_act hl.others hhl ?_).except (fun e h _ => ?_) fun _ _ _ => hbj.starts rfl rfl
    · rintro h hh claim ⟨⟩
      exact ⟨hbj.name, hbj.nonempty, by rw [hbj.name], cluster.name, by rw [hsts]; rfl, hh⟩
    · dsimp only
      split
      · exact hbj.starts rfl rfl
      · trivial
  rename_i hs
  refine (safe_read hl (by trivial) hhl).except (fun e h _ => ?_) ?_
  · dsimp only
    split
    · exact hbj.ends (fun _ => rfl) fun _ => rfl
    · trivial
  · rintro runner h ⟨hh, hp, c, hread⟩
    dsimp only
    split
    · rename_i hc
      exact obeys_finalize hbj hh (hp.allComplete hbj hs (runners_of_getJob true hread) hc)
    split
    · exact hbj.ends (fun _ => rfl) fun _ => rfl
    · exact hbj.returns rfl rfl

theorem obeys_reconcileStopped (hhl : Holds i cluster.name h) :
    Obeys R i (reconcileStopped R bj cluster commands) h := by
  have hl : Lasts R i (Holds i cluster.name) := lasts_holds hbj.nonempty cluster.name
  refine (safe_read hl (by trivial) hhl).except (fun e h _ => ?_) ?_
  · dsimp only
    split
    · exact hbj.returns rfl rfl
    · trivial
  · rintro sts h ⟨hh, -, c, hread⟩
    have hsts := name_of_getStatefulSet (w := h.world.1) true hread
    dsimp only
    split
    · exact (obeys_read (by trivial)).except (fun _ _ _ => trivial) fun _ _ _ => hbj.returns rfl rfl
    · refine (safe_read hl (by trivial) hh).except (fun _ _ _ => trivial) fun pods h hh => ?_
      dsimp only
      split
      · exact hbj.returns rfl rfl
      · exact obeys_reconcileRestoreJob hbj hsts hh.1

/-- A job that may go on holds the lock. -/
theorem safe_ensure (hread : restoreOwner cluster = i → Holds i cluster.name h) :
    Safe (lockSetting R i)
      (fun a h => ∀ cluster', a = .ok cluster' → cluster'.name = cluster.name ∧ Holds i cluster.name h)
      ( ensureClusterRestoreAnnotation bj cluster) h := by
  unfold ensureClusterRestoreAnnotation
  dsimp only
  split
  · rename_i ho
    rintro _ ⟨⟩
    exact ⟨rfl, hread (ho.trans hbj.name)⟩
  split
  · refine (obeys_statusUpdate ?_ ?_).bind fun _ _ _ => ?_
    · exact hbj.name
    · exact hbj.runner
    · rintro _ ⟨⟩
  · refine (safe_act (P := fun _ => True) (fun _ _ _ _ => trivial) trivial
      (by exact fun _ _ => ⟨hbj.name, hbj.trimmed, hbj.nonempty⟩)).except (fun e h _ => ?_) ?_
    · rintro _ ⟨⟩
    · rintro _ _ ⟨h, c, -, -, ha, rfl, -⟩ _ ⟨⟩
      refine ⟨rfl, fun _ => ?_⟩
      rcases answer_patchOwner (w := h.world.1) true c cluster.name (some bj.name) with hs | ⟨-, e, he⟩
      · change (answer true c (.patchOwner cluster.name (some bj.name)) h.world.1).2.owner cluster.name = i
        rw [hs, owner_setOwner_self, hbj.name]
        exact hbj.trimmed
      · cases he.symm.trans ha.symm

section Read

variable (hread : restoreOwner cluster = i → Holds i cluster.name h)
include hread

theorem obeys_reconcileSidecarRestore : Obeys R i (reconcileSidecarRestore R bj cluster commands) h := by
  refine (safe_ensure hbj hread).except (fun _ _ _ => trivial) fun cluster' h he => ?_
  obtain ⟨hn, hhl⟩ := he cluster' rfl
  rw [← hn] at hhl
  have hl : Lasts R i (Holds i cluster'.name) := lasts_holds hbj.nonempty cluster'.name
  have hr : Safe (lockSetting R i) (fun a h => Holds i cluster'.name h ∧ (a.isSome → h.world.1.AllComplete i))
      (completeRunner bj) h := by
    unfold completeRunner
    split
    · exact ⟨hhl, by rintro ⟨⟩⟩
    rename_i hs
    refine (safe_read hl (by trivial) hhl).except (fun e h hh => ⟨hh.1, by rintro ⟨⟩⟩) ?_
    rintro runner h ⟨hh, hp, c, hread⟩
    refine ⟨hh, fun hd => hp.allComplete hbj hs (runners_of_getJob true hread) ?_⟩
    by_contra ho
    rw [if_neg ho] at hd
    cases hd
  refine hr.bind ?_
  rintro (_ | runner) h ⟨hh, ha⟩
  · exact obeys_reconcileStopped hbj hh
  · exact obeys_finalize hbj hh (ha rfl)

theorem obeys_reconcileSidecar {plugin : BackupPlugin} : Obeys R i (reconcileSidecar R bj cluster plugin) h := by
  unfold reconcileSidecar
  split
  · exact hbj.returns rfl rfl
  split
  · exact obeys_reconcileSidecarRestore hbj hread
  split
  · exact hbj.returns rfl rfl
  split
  · exact hbj.returns rfl rfl
  split
  · exact hbj.returns rfl rfl
  refine (obeys_read (by trivial)).bind fun result h _ => (obeys_read (by trivial)).bind fun endedAt h _ => ?_
  split <;> exact hbj.returns rfl rfl

omit hread in
theorem obeys_reconcileRestore : Obeys R i (reconcileRestore bj) h := by
  refine (obeys_read (by trivial)).bind fun result h _ => (obeys_read (by trivial)).bind fun endedAt h _ => ?_
  split
  · exact hbj.returns rfl rfl
  · refine hbj.returns ?_ ?_
    · split <;> rfl
    · split <;> rfl

omit hread in
theorem obeys_performBackupJob : Obeys R i (performBackupJob bj) h := by
  refine (obeys_read (by trivial)).bind fun result h _ => (obeys_read (by trivial)).bind fun endedAt h _ => ?_
  split <;> exact hbj.returns rfl rfl

theorem obeys_reconcilePhase {plugin : Option BackupPlugin} : Obeys R i (reconcilePhase R bj cluster plugin) h := by
  unfold reconcilePhase
  split
  · exact hbj.returns rfl rfl
  · refine (obeys_read (by trivial)).bind fun now h _ => hbj.returns ?_ ?_
    · split <;> rfl
    · split <;> rfl
  · unfold reconcileRunning
    split
    · exact obeys_reconcileRunnerJob hbj
    · exact obeys_reconcileSidecar hbj hread
    · split
      · exact obeys_reconcileRestore hbj
      · exact obeys_performBackupJob hbj
    · trivial
  · trivial
  · trivial

theorem obeys_reconcileChecked : Obeys R i (reconcileChecked R bj cluster) h := by
  unfold reconcileChecked
  dsimp only
  split
  · exact hbj.returns rfl rfl
  split
  · exact obeys_reconcilePhase hbj hread
  split
  · exact hbj.returns rfl rfl
  split
  · exact hbj.returns rfl rfl
  · exact obeys_reconcilePhase hbj hread

end Read

omit hbj in
theorem seen_of_getCluster {c : lockApi.Choice} {name : Str} {x : BackupWorld × Str}
    (h : (lockApi.answer c (.getCluster name) x).1 = .ok cluster) :
    (lockApi.answer c (.getCluster name) x).2.2 = restoreOwner cluster := by
  have hn : (lockApi.answer c (.getCluster name) x).2.2 =
    noteSeen (.getCluster name) (lockApi.answer c (.getCluster name) x).1 x.1
      (lockApi.answer c (.getCluster name) x).2.1 x.2 := rfl
  rw [hn, h]
  rfl

/-- A cluster is read: when it shows the own name, and that is current, the annotation names the `BackupJob`. -/
theorem obeys_reconcileOpen : Obeys R i (reconcileOpen R bj) h := by
  refine (safe_act (P := fun _ => True) (fun _ _ _ _ => trivial) trivial (by exact fun _ _ => trivial)).except
    (fun e h _ => ?_) ?_
  · dsimp only
    split
    · exact hbj.returns rfl rfl
    · trivial
  · rintro cluster _ ⟨h, c, -, -, ha, rfl, -⟩
    refine obeys_reconcileChecked hbj fun ho hs => ?_
    rw [name_of_getCluster (w := h.world.1) true ha.symm]
    exact hs.2 ((seen_of_getCluster ha.symm).trans ho)

end Own

/-- `Reconcile` keeps to the protocol of the lock. -/
theorem obeys_reconcile : Obeys R i (reconcile R i) h := by
  refine (safe_read lasts_true (by trivial) trivial).except (fun e h _ => ?_) ?_
  · dsimp only
    split <;> trivial
  · rintro bj h ⟨-, hp, c, ha⟩
    dsimp only
    split
    · trivial
    have hj := job_of_getBackupJob true ha
    have ho := hp.orderly
    obtain ⟨ht, hne⟩ := ho.named i bj hj
    exact obeys_reconcileOpen ⟨h.world.1.job_name i bj hj, ho.runner i bj hj, ht, hne⟩

end Programs

/-- The refinement: all interleavings of the reconciles keep to it. -/
theorem reachable_lockProtocol (R : Reconciler) {x : BackupWorld × Str} (hx : Unstarted x.1)
    {s : Threads BackupApi (BackupWorld × Str) Str} (hs : Threads.Reachable lockApi (backupThread R) x s) :
    LockProtocol R s.run := by
  refine (Threads.reachable_safe (LockProtocol R) (LockRely R) (LockGuar R) ?_ ?_ ?_ ⟨hx, trivial⟩ hs).1
  · rintro h e x' hp he
    have hste : LockStep R h .env x' := ⟨e, (Option.some.inj he).symm⟩
    exact ⟨⟨hp.1, hp.2, hste⟩, fun i => ⟨_, x', rfl, hste, by rintro r ok ⟨⟩⟩⟩
  · rintro i h _ hp ⟨r, ok, x', rfl, hste⟩
    refine ⟨⟨hp.1, hp.2, hste⟩, fun j hj => ⟨_, x', rfl, hste, ?_⟩⟩
    rintro r' ok' heq
    cases heq
    exact hj rfl
  · intro i h _
    exact obeys_reconcile.bind fun _ _ _ => trivial

/-! ### Exclusion -/

/-- Two restore Jobs on one claim that are not complete are of the same `BackupJob`. -/
def BackupWorld.Exclusive (w : BackupWorld) : Prop :=
  ∀ n n' job job' claim, w.runners n = some job → w.runners n' = some job' → job.claimName = some claim →
    job'.claimName = some claim → job.complete = false → job'.complete = false → job.backupJob = job'.backupJob

/-- A restore Job is created for the cluster whose annotation names its `BackupJob`. -/
def CreatesAsOwner (h : LockHist) (l : Label Str BackupReq) (_ : BackupWorld × Str) : Prop :=
  ∀ i job ok claim, l = .call i (.createJob job) ok → job.claimName = some claim →
    ∃ cluster, claim = restoreClaim cluster ∧ h.world.1.owner cluster = job.backupJob

/-- In cautious runs one restore at a time works on a volume. -/
theorem LockProtocol.exclusive {R : Reconciler} {h : LockHist} (hh : LockProtocol R h) (hs : h.Steps Cautious) :
    h.world.1.Exclusive := by
  intro n n' job job' claim hj hj' hc hc' hop hop'
  obtain ⟨cluster, hcl, ho⟩ := hh.orderly.held hs n job claim hj hc hop
  obtain ⟨cluster', hcl', ho'⟩ := hh.orderly.held hs n' job' claim hj' hc' hop'
  obtain rfl := restoreClaim_injective (hcl.symm.trans hcl')
  exact ho.symm.trans ho'

theorem LockProtocol.createsAsOwner {R : Reconciler} {h : LockHist} (hh : LockProtocol R h) (hs : h.Steps Cautious) :
    h.Steps CreatesAsOwner := by
  obtain ⟨-, hp⟩ := hh
  induction h with
  | start x => trivial
  | step h l x ih =>
    refine ⟨ih hs.1 hp.1, ?_⟩
    rintro i job ok claim rfl hc
    obtain ⟨rfl, -, -, cluster, hcl, ho⟩ := hp.2.1 claim hc
    exact ⟨cluster, hcl, ho hs.1⟩

/-- In every run of any number of `BackupJob`s in which the annotation is only set when it is unset or has the own
name, and a read that shows the own name is current: at no time two `BackupJob`s have restore Jobs on the same claim
that are not complete, and a restore Job is only created while the annotation names its `BackupJob`. -/
theorem restore_exclusive (R : Reconciler) (w₀ : BackupWorld) (hw₀ : Unstarted w₀)
    (s : Threads BackupApi (BackupWorld × Str) Str) (hs : Threads.Reachable lockApi (backupThread R) (w₀, []) s)
    (hcautious : s.run.Steps Cautious) : s.run.world.1.Exclusive ∧ s.run.Steps CreatesAsOwner := by
  have hp := reachable_lockProtocol R hw₀ hs
  exact ⟨hp.exclusive hcautious, hp.createsAsOwner hcautious⟩

def pitrNamed (name : Str) : BackupJob := { pitr with name }

def rivals : BackupWorld where
  job name := if name = "pitr-a" ∨ name = "pitr-b" then some (pitrNamed name) else none
  job_name := by
    intro name bj h
    split at h <;> cases h
    rfl
  runners_name := name_of_none

theorem unstarted_rivals : Unstarted rivals := by
  have hnm : ∀ n ∈ [str "pitr-a", str "pitr-b"], trimSpace n = n ∧ n ≠ [] := by decide +kernel
  refine ⟨fun n bj hbj => ?_, fun n bj hbj => ?_, fun _ => rfl⟩
  · change (if n = "pitr-a" ∨ n = "pitr-b" then some (pitrNamed n) else none) = some bj at hbj
    split at hbj
    · rename_i hn
      exact hnm n (by simpa using hn)
    · cases hbj
  · change (if n = "pitr-a" ∨ n = "pitr-b" then some (pitrNamed n) else none) = some bj at hbj
    split at hbj <;> cases hbj
    rfl

def calls (i : Str) (n : Nat) : List (Event lockApi Str) := replicate n (.call i (restoreAnswer 0 []).2)

def pass (i : Str) (n : Nat) : List (Event lockApi Str) := .start i :: calls i n ++ [.stop i]

def rivalsRun (es : List (Event lockApi Str)) : Option (Threads BackupApi (BackupWorld × Str) Str) :=
  Threads.replay lockApi (backupThread commandPlugin) (Threads.init (rivals, [])) es

def oneAfterTheOther : List (Event lockApi Str) :=
  [3, 4, 7].flatMap (pass "pitr-a") ++ [3, 4, 3].flatMap (pass "pitr-b")

theorem restore_exclusive_demo : ∃ s, rivalsRun oneAfterTheOther = some s ∧
    (s.run.world.1.runners "pitr-a-runner").isSome ∧ s.run.world.1.phase "pitr-b" = some .failed ∧
    s.run.world.1.Exclusive ∧ s.run.Steps CreatesAsOwner := by
  have hf : (rivalsRun oneAfterTheOther).map (fun s => ((s.run.world.1.runners "pitr-a-runner").isSome,
      s.run.world.1.phase "pitr-b", decide (s.run.Steps Cautious))) =
      some (true, some .failed, true) := by decide +kernel
  obtain ⟨s, hs, hf⟩ := map_eq_some_iff.1 hf
  obtain ⟨hj, hf⟩ := Prod.mk.inj hf
  obtain ⟨hp, hc⟩ := Prod.mk.inj hf
  exact ⟨s, hs, hj, hp,
    restore_exclusive commandPlugin rivals unstarted_rivals s ⟨_, hs⟩ (of_decide_eq_true hc)⟩

/-- Both restores read the cluster without the annotation and patch it, and then both make their Jobs. -/
def bothAtOnce : List (Event lockApi Str) :=
  [3, 4].flatMap (pass "pitr-a") ++ [3, 4].flatMap (pass "pitr-b") ++
    .start "pitr-a" :: calls "pitr-a" 2 ++ .start "pitr-b" :: calls "pitr-b" 2 ++
    calls "pitr-a" 1 ++ calls "pitr-b" 1 ++ calls "pitr-a" 3 ++ calls "pitr-b" 3

def CreatesAsOther (h : LockHist) (l : Label Str BackupReq) (_ : BackupWorld × Str) : Prop :=
  match l with
  | .call _ (.createJob job) _ => job.claimName = some (restoreClaim "demo") ∧ h.world.1.owner "demo" ≠ job.backupJob
  | _ => False

instance (h : LockHist) (l : Label Str BackupReq) (x' : BackupWorld × Str) : Decidable (CreatesAsOther h l x') := by
  unfold CreatesAsOther
  split <;> infer_instance

def restoresFor (name : Str) (job : Job) : Bool :=
  job.backupJob = name && job.claimName = some (restoreClaim "demo") && job.complete = false

/-- Both rivals read the cluster before either of them sets the annotation. -/
theorem restore_not_exclusive : ∃ s, Threads.Reachable lockApi (backupThread commandPlugin) (rivals, []) s ∧
    ¬ s.run.world.1.Exclusive ∧ ¬ s.run.Steps CreatesAsOwner := by
  have hf : (rivalsRun bothAtOnce).any (fun s =>
      (s.run.world.1.runners "pitr-a-runner").any (restoresFor "pitr-a") &&
      (s.run.world.1.runners "pitr-b-runner").any (restoresFor "pitr-b") &&
      decide (s.run.SomeStep CreatesAsOther)) := by decide +kernel
  obtain ⟨s, hs, hf⟩ := (Option.any_eq_true _ _).1 hf
  simp only [Bool.and_eq_true, Option.any_eq_true, restoresFor, decide_eq_true_eq] at hf
  obtain ⟨⟨⟨job, hj, ⟨hof, hc⟩, ho⟩, job', hj', ⟨hof', hc'⟩, ho'⟩, hot⟩ := hf
  refine ⟨s, ⟨_, hs⟩, fun hex => ?_, fun ha => ?_⟩
  · have hsm := hex _ _ job job' _ hj hj' hc hc' ho ho'
    rw [hof, hof'] at hsm
    exact absurd hsm (by decide +kernel)
  · have hb := hot.and_steps ha
    have hn : s.run.SomeStep fun _ _ _ => False := by
      refine hb.mono fun h l x' hstep => ?_
      obtain ⟨hown, hste⟩ := hstep
      unfold CreatesAsOther at hste
      split at hste
      · obtain ⟨cluster, hcl, how⟩ := hown _ _ _ _ rfl hste.1
        obtain rfl := restoreClaim_injective hcl
        exact hste.2 how
      · exact hste
    exact hn.of_const

end PostgresOperator.Backup
