import PostgresOperator.Backup.SingleCall

/-!
# The annotation of a restore

A restore in the sidecar mode puts its name in the annotation `restore-in-progress` of the cluster at the start of
every Reconcile, and deletes it when the Job of the restore is complete, before it looks whether PostgreSQL starts.
The annotation is set once and deleted before the `BackupJob` ends, if that look decides the restore and nothing else
ends it (`lock_given_back`).
-/

namespace PostgresOperator.Backup

open Go Calls BackupWorld Option List Function Bool

/-! ### Notes -/

/-- Whether the annotation was deleted, and set again after that; the last Job that was read; whether the annotation
was deleted and nothing was decided since; whether the decision is not in the status; and whether an answer ended the
restore otherwise. -/
structure LockNote where
  released : Bool := false
  reacquired : Bool := false
  runner : Option Job := none
  pending : Bool := false
  unsaved : Bool := false
  trouble : Bool := false
  deriving DecidableEq

def LockNote.decided (g : LockNote) : LockNote := { g with pending := false, unsaved := true }

def Job.timedOut (job : Job) (now : Int) : Bool :=
  job.completionTime.any fun t => now - t > backupRestoreHealthTimeout

def noteLock (name : Str) (r : BackupReq) (a : r.Res) (w w' : BackupWorld) (g : LockNote) : LockNote :=
  match r, a with
  | .patchOwner cluster value, _ =>
    if w'.owners cluster = w.owners cluster then g
    else if value.isSome then { g with reacquired := g.reacquired || g.released }
    else { g with released := true, pending := true }
  | .getJob _, .ok job => { g with runner := some job, trouble := g.trouble || (!job.complete && job.failure.isSome) }
  | .getJob _, .error e => { g with trouble := g.trouble || isNotFound e }
  | .getStatefulSet _, .ok sts => { g with trouble := g.trouble || (postgresImageFromStatefulSet sts).isNone }
  | .getStatefulSet _, .error e => { g with trouble := g.trouble || isNotFound e }
  | .listPods _ _, .ok pods => if g.pending && (restorePrimaryPodHealth pods).isSome then g.decided else g
  | .now, t => if g.pending && g.runner.any fun job => job.timedOut t then g.decided else g
  | .updateStatus n _ _, _ => if n = name ∧ w'.job n ≠ w.job n then { g with unsaved := false } else g
  | _, _ => g

/-- Every Reconcile that deletes the annotation reads that the shard is ready or has crashed, or that the Job was
complete long ago, and writes its status.  No StatefulSet is missing or without an image, and no Job is missing or has
failed. -/
def Settled (x : BackupWorld × LockNote) : Prop := x.2.pending = false ∧ x.2.unsaved = false ∧ x.2.trouble = false

instance (x : BackupWorld × LockNote) : Decidable (Settled x) := by
  unfold Settled
  infer_instance

section Lock

variable (R : Reconciler) (name : Str)

def OwnsOnly (w : BackupWorld) : Prop :=
  ∀ cluster, w.owner cluster = name → ∃ bj, w.static name = some bj ∧ (restoreCommands R bj.spec).isSome ∧
    cluster = bj.spec.cluster

def HasCommand (w : BackupWorld) : Prop :=
  ∀ bj, w.static name = some bj → ∀ commands, restoreCommands R bj.spec = some commands →
    (commands.restoreCommand (clusterTarget bj) (targetTime bj)).isOk

structure LockInv (x : BackupWorld × LockNote) : Prop where
  once : x.2.reacquired = false
  released : x.2.released → x.1.Ended name
  ended : x.1.Ended name → ∀ cluster, x.1.owner cluster ≠ name
  owns : OwnsOnly R name x.1
  command : HasCommand R name x.1

/-- The annotation was not deleted, and the job `bj`, which was read, has not ended. -/
structure Restoring (bj : BackupJob) (x : BackupWorld × LockNote) : Prop where
  once : x.2.reacquired = false
  released : x.2.released = false
  running : ¬ x.1.Ended name
  read : x.1.static name = some bj.static
  owns : OwnsOnly R name x.1
  command : HasCommand R name x.1

structure Freed (x : BackupWorld × LockNote) : Prop where
  once : x.2.reacquired = false
  free : ∀ cluster, x.1.owner cluster ≠ name
  command : HasCommand R name x.1

end Lock

section Steps

variable {R : Reconciler} {name : Str} {bj : BackupJob} {x : BackupWorld × LockNote} {w w' : BackupWorld}

theorem OwnsOnly.congr (h : OwnsOnly R name w) (ho : w'.owners = w.owners) (hs : w'.static name = w.static name) :
    OwnsOnly R name w' := by
  intro cluster hc
  rw [owner, ho] at hc
  obtain ⟨bj, hbj, hr⟩ := h cluster hc
  exact ⟨bj, hs.trans hbj, hr⟩

theorem HasCommand.congr (h : HasCommand R name w) (hs : w'.static name = w.static name) : HasCommand R name w' := by
  intro bj hbj
  exact h bj (hs.symm.trans hbj)

theorem Restoring.lockInv (h : Restoring R name bj x) : LockInv R name x where
  once := h.once
  released hr := absurd (h.released.symm.trans hr) false_ne_true
  ended he := absurd he h.running
  owns := h.owns
  command := h.command

theorem Freed.owns (h : Freed R name x) : OwnsOnly R name x.1 := fun cluster hc => absurd hc (h.free cluster)

theorem Freed.lockInv (h : Freed R name x) (he : x.1.Ended name) : LockInv R name x :=
  ⟨h.once, fun _ => he, fun _ => h.free, h.owns, h.command⟩

theorem BackupWorld.ended_happen {e : BackupEvent} : (w.happen e).Ended name ↔ w.Ended name := by
  unfold BackupWorld.Ended
  rw [phase_happen]

theorem Restoring.happen (h : Restoring R name bj x) (e : BackupEvent) : Restoring R name bj (x.1.happen e, x.2) where
  once := h.once
  released := h.released
  running := fun he => h.running (ended_happen.1 he)
  read := (static_happen e).trans h.read
  owns := h.owns.congr (owners_happen e) (static_happen e)
  command := h.command.congr (static_happen e)

theorem Freed.happen (h : Freed R name x) (e : BackupEvent) : Freed R name (x.1.happen e, x.2) where
  once := h.once
  free := fun cluster => by
    rw [owner, owners_happen]
    exact h.free cluster
  command := h.command.congr (static_happen e)

variable {r : BackupReq}

theorem noteLock_of_noPatch (name : Str) (hr : NoPatch r) (a : r.Res) (w w' : BackupWorld) (g : LockNote) :
    (noteLock name r a w w' g).released = g.released ∧ (noteLock name r a w w' g).reacquired = g.reacquired := by
  unfold noteLock
  split
  · exact absurd rfl (hr _ _)
  all_goals first | exact ⟨rfl, rfl⟩ | (split <;> exact ⟨rfl, rfl⟩)

variable {g : LockNote}

theorem noteLock_acquire (name cluster owner : Str) (a : (BackupReq.patchOwner cluster (some owner)).Res)
    (w w' : BackupWorld) (hr : g.released = false) (ho : g.reacquired = false) :
    (noteLock name (.patchOwner cluster (some owner)) a w w' g).released = false ∧
      (noteLock name (.patchOwner cluster (some owner)) a w w' g).reacquired = false := by
  simp only [noteLock, isSome_some, if_true]
  split
  · exact ⟨hr, ho⟩
  · exact ⟨hr, by rw [ho, hr, Bool.or_false]⟩

theorem noteLock_updateStatus {n : Str} {version : Nat} {status : BackupJobStatus}
    {a : (BackupReq.updateStatus n version status).Res} :
    noteLock name (.updateStatus n version status) a w w' g =
      if n = name ∧ w'.job n ≠ w.job n then { g with unsaved := false } else g := rfl

theorem trouble_noteLock {a : r.Res} (h : g.trouble) : (noteLock name r a w w' g).trouble := by
  unfold noteLock
  split
  · split
    · exact h
    · split <;> exact h
  all_goals first | exact h | (split <;> exact h) | simp [h]

def Keeps (bj : BackupJob) : BackupReq → Prop
  | .patchOwner cluster value => cluster = bj.spec.cluster ∧ value = some bj.name
  | .updateStatus _ _ status => status.phase.terminal = false
  | _ => True

theorem BackupWorld.not_ended_setStatus {status : BackupJobStatus} (h : ¬ w.Ended name)
    (hs : status.phase.terminal = false) :
    ¬ (w.setStatus name status).Ended name := by
  intro he
  refine h fun p hp => ?_
  have hph : (w.setStatus name status).phase name = some status.phase := by
    rw [phase_setStatus, hp]
    rfl
  rw [he status.phase hph] at hs
  cases hs

theorem BackupWorld.ended_congr (h : w'.job name = w.job name) : w'.Ended name ↔ w.Ended name := by
  unfold BackupWorld.Ended phase
  rw [h]

/-- Step lemma: a request that keeps the lock leaves the job restoring. -/
theorem Restoring.answer (h : Restoring R name bj x) (hr : Keeps bj r)
    (hcmm : (restoreCommands R bj.spec).isSome) (c : BackupChoice) :
    Restoring R name bj (((backupApi false).noting (noteLock name)).answer c r x).2 := by
  have hsta : (BackupWorld.answer false c r x.1).2.static name = x.1.static name := static_answer false c r
  have hru : ¬ (BackupWorld.answer false c r x.1).2.Ended name := by
    by_cases hu : ∃ version status, r = .updateStatus name version status
    · obtain ⟨version, status, rfl⟩ := hu
      rcases answer_updateStatus (w := x.1) false c name version status with hs | ht
      · rw [hs]
        exact h.running
      · rw [ht]
        exact not_ended_setStatus h.running hr
    · rw [ended_congr (job_answer fun version status heq => hu ⟨version, status, heq⟩)]
      exact h.running
  by_cases hp : ∃ cluster value, r = .patchOwner cluster value
  · obtain ⟨cluster, value, rfl⟩ := hp
    obtain ⟨rfl, rfl⟩ := hr
    have hn := noteLock_acquire name bj.spec.cluster bj.name
      (BackupWorld.answer false c (.patchOwner bj.spec.cluster (some bj.name)) x.1).1 x.1
      (BackupWorld.answer false c (.patchOwner bj.spec.cluster (some bj.name)) x.1).2 h.released h.once
    refine ⟨hn.2, hn.1, hru, hsta.trans h.read, ?_, h.command.congr hsta⟩
    change OwnsOnly R name (BackupWorld.answer false c (.patchOwner bj.spec.cluster (some bj.name)) x.1).2
    intro cluster hc
    by_cases ho : cluster = bj.spec.cluster
    · exact ⟨bj.static, hsta.trans h.read, hcmm, ho⟩
    · rcases answer_patchOwner (w := x.1) false c bj.spec.cluster (some bj.name) with ht | ⟨hs, -⟩
      · rw [ht, owner_setOwner_of_ne ho] at hc
        obtain ⟨bj', hbj', hrs⟩ := h.owns cluster hc
        exact ⟨bj', hsta.trans hbj', hrs⟩
      · rw [hs] at hc ⊢
        exact h.owns cluster hc
  · have hno : NoPatch r := fun cluster value heq => hp ⟨cluster, value, heq⟩
    have hn := noteLock_of_noPatch name hno (BackupWorld.answer false c r x.1).1 x.1
      (BackupWorld.answer false c r x.1).2 x.2
    exact ⟨hn.2.trans h.once, hn.1.trans h.released, hru, hsta.trans h.read,
      h.owns.congr (owners_answer false c hno) hsta, h.command.congr hsta⟩

/-- Once the lock is given back, no other request takes it. -/
theorem Freed.answer (h : Freed R name x) (hr : NoPatch r) (c : BackupChoice) :
    Freed R name (((backupApi false).noting (noteLock name)).answer c r x).2 where
  once := (noteLock_of_noPatch name hr _ _ _ _).2.trans h.once
  free := fun cluster => by
    change ownerOf (((BackupWorld.answer false c r x.1).2.owners cluster).headD none) ≠ name
    rw [owners_answer false c hr]
    exact h.free cluster
  command := h.command.congr (static_answer false c r)

def Idle (R : Reconciler) (name : Str) (x : BackupWorld × LockNote) : Prop := Freed R name x ∧ x.2.released = false

def Undecided (R : Reconciler) (name : Str) (x : BackupWorld × LockNote) : Prop := Freed R name x ∧ x.2.pending

def Decided (R : Reconciler) (name : Str) (x : BackupWorld × LockNote) : Prop :=
  Freed R name x ∧ (x.2.unsaved ∨ x.1.Ended name)

def Kept (R : Reconciler) (name : Str) (x : BackupWorld × LockNote) : Prop := Settled x → LockInv R name x

theorem Restoring.kept (h : Restoring R name bj x) : Kept R name x := fun _ => h.lockInv

theorem Idle.kept (h : Idle R name x) : Kept R name x := fun _ =>
  ⟨h.1.once, fun hr => absurd (h.2.symm.trans hr) false_ne_true, fun _ => h.1.free, h.1.owns, h.1.command⟩

theorem Undecided.kept (h : Undecided R name x) : Kept R name x :=
  fun hs => absurd (hs.1.symm.trans h.2) false_ne_true

theorem Decided.kept (h : Decided R name x) : Kept R name x := by
  intro hs
  rcases h.2 with hu | he
  · exact absurd (hs.2.1.symm.trans hu) false_ne_true
  · exact h.1.lockInv he

theorem kept_of_trouble (h : x.2.trouble) : Kept R name x :=
  fun hs => absurd (hs.2.2.symm.trans h) false_ne_true

theorem Idle.answer (h : Idle R name x) (hr : NoPatch r) (c : BackupChoice) :
    Idle R name (((backupApi false).noting (noteLock name)).answer c r x).2 :=
  ⟨h.1.answer hr c, (noteLock_of_noPatch name hr _ _ _ _).1.trans h.2⟩

def UpdatesStatus : BackupReq → Prop
  | .getBackupJob _ | .updateStatus _ _ _ => True
  | _ => False

theorem Undecided.answer (h : Undecided R name x) (hr : UpdatesStatus r) (c : BackupChoice) :
    Undecided R name (((backupApi false).noting (noteLock name)).answer c r x).2 := by
  cases r with
  | getBackupJob n => exact ⟨h.1.answer (by rintro cluster value ⟨⟩) c, h.2⟩
  | updateStatus n version status =>
    refine ⟨h.1.answer (by rintro cluster value ⟨⟩) c, ?_⟩
    rw [noted_answer, noteLock_updateStatus]
    split <;> exact h.2
  | _ => exact hr.elim

theorem Decided.answer (h : Decided R name x) (hr : WritesResult r) (c : BackupChoice) :
    Decided R name (((backupApi false).noting (noteLock name)).answer c r x).2 := by
  cases r with
  | getBackupJob n => exact ⟨h.1.answer (by rintro cluster value ⟨⟩) c, h.2⟩
  | now =>
    refine ⟨h.1.answer (by rintro cluster value ⟨⟩) c, h.2.imp_left fun hu => ?_⟩
    rw [noted_answer]
    unfold noteLock
    dsimp only
    split
    · rfl
    · exact hu
  | updateStatus n version status =>
    refine ⟨h.1.answer (by rintro cluster value ⟨⟩) c, ?_⟩
    rw [noted_answer, noteLock_updateStatus, apply_ite LockNote.unsaved]
    exact unsaved_or_ended_updateStatus h.2 hr
  | _ => exact hr.elim

/-- Giving the lock back, once. -/
theorem Restoring.release (h : Restoring R name bj x) (hn : name ≠ []) (c : BackupChoice) :
    let x' := (((backupApi false).noting (noteLock name)).answer c (.patchOwner bj.spec.cluster none) x).2
    (Undecided R name x' ∧ x'.2.runner = x.2.runner) ∨
      Restoring R name bj x' ∧ ∃ e, (BackupWorld.answer false c (.patchOwner bj.spec.cluster none) x.1).1 =
        .error e := by
  intro x'
  have hsta : x'.1.static name = x.1.static name := static_answer false c _
  rcases answer_patchOwner (w := x.1) false c bj.spec.cluster none with ht | ⟨hs, he⟩
  · have hx' : x' = (x.1.setOwner bj.spec.cluster none, { x.2 with released := true, pending := true }) := by
      refine Prod.ext ht ?_
      rw [noted_answer, ht]
      simp [noteLock, setOwner]
    refine .inl ?_
    rw [hx'] at hsta ⊢
    refine ⟨⟨⟨h.once, fun cluster hc => ?_, h.command.congr hsta⟩, rfl⟩, rfl⟩
    by_cases ho : cluster = bj.spec.cluster
    · subst ho
      rw [owner_setOwner_self] at hc
      exact hn hc.symm
    · rw [owner_setOwner_of_ne ho] at hc
      obtain ⟨bj', hbj', -, rfl⟩ := h.owns cluster hc
      obtain rfl : bj' = bj.static := some.inj (hbj'.symm.trans h.read)
      exact ho rfl
  · have hx' : x' = x := by
      refine Prod.ext hs ?_
      rw [noted_answer, hs]
      simp [noteLock]
    rw [hx']
    exact .inr ⟨h, he⟩

end Steps

/-! ### The Reconcile -/

abbrev Safely {α : Type} (R : Reconciler) (name : Str) (p : BackupProg α) (x : BackupWorld × LockNote)
    (Q : α → BackupWorld × LockNote → Prop) : Prop :=
  Throughout ((backupApi false).noting (noteLock name)).busy (fun _ => Kept R name) p x Q

section Programs

variable {α : Type} {R : Reconciler} {name : Str} {bj : BackupJob} {x : BackupWorld × LockNote}

variable {p : BackupProg α}

/-- A program of requests that keep a state keeps it along its run, with the cluster's events between them. -/
theorem safely_of_only {φ : BackupReq → Prop} {K : BackupWorld × LockNote → Prop} (hp : p.Only φ)
    (hk : ∀ x, K x → Kept R name x) (hh : ∀ x e, K x → K (x.1.happen e, x.2))
    (ha : ∀ r c x, φ r → K x → K (((backupApi false).noting (noteLock name)).answer c r x).2) (hx : K x) :
    Safely R name p x fun _ => K :=
  hp.throughout (K := K) (fun _ x _ hx => hk x hx)
    (fun c r _ hr hx => ha r c.2 _ hr (kept_events (noteLock name) hh hx c.1)) hx

theorem safely_restoring (hp : p.Only (Keeps bj)) (hcmm : (restoreCommands R bj.spec).isSome)
    (hx : Restoring R name bj x) : Safely R name p x fun _ => Restoring R name bj :=
  safely_of_only hp (fun _ hx => hx.kept) (fun _ e hx => hx.happen e) (fun _ c _ hr hx => hx.answer hr hcmm c) hx

theorem safely_keeps (hcmm : (restoreCommands R bj.spec).isSome) (hx : Restoring R name bj x)
    (hp : p.Only (Keeps bj)) : Safely R name p x fun _ => Kept R name :=
  (safely_restoring hp hcmm hx).mono fun _ _ hx => hx.kept

theorem safely_idle (hp : p.Only NoPatch) (hx : Idle R name x) : Safely R name p x fun _ => Idle R name :=
  safely_of_only hp (fun _ hx => hx.kept) (fun _ e hx => ⟨hx.1.happen e, hx.2⟩) (fun _ c _ hr hx => hx.answer hr c) hx

theorem safely_undecided (hp : p.Only UpdatesStatus) (hx : Undecided R name x) :
    Safely R name p x fun _ => Undecided R name :=
  safely_of_only hp (fun _ hx => hx.kept) (fun _ e hx => ⟨hx.1.happen e, hx.2⟩) (fun _ c _ hr hx => hx.answer hr c) hx

theorem Decided.happen (h : Decided R name x) (e : BackupEvent) : Decided R name (x.1.happen e, x.2) :=
  ⟨h.1.happen e, h.2.imp_right ended_happen.2⟩

theorem safely_decided (hp : p.Only WritesResult) (hx : Decided R name x) :
    Safely R name p x fun _ => Decided R name :=
  safely_of_only hp (fun _ hx => hx.kept) (fun _ e hx => hx.happen e) (fun _ c _ hr hx => hx.answer hr c) hx

theorem safely_trouble (p : BackupProg α) (hx : x.2.trouble) : Safely R name p x fun _ => Kept R name := by
  refine (throughout_lasting (φ := fun x => x.2.trouble) ?_ (fun _ _ => kept_of_trouble) p hx).mono fun _ _ =>
    kept_of_trouble
  intro c r x hx
  exact trouble_noteLock
    (kept_events (noteLock name) (K := fun x : BackupWorld × LockNote => x.2.trouble) (fun _ _ hx => hx) hx c.1)

theorem writesResult_ended {ended : Int → BackupJob} (h : ∀ t, (ended t).status.phase.terminal) :
    (timeNow >>= fun t => returnStatus .no (ended t)).Only WritesResult :=
  Prog.Only.request trivial fun t => writesResult_returnStatus _ (h t)

theorem keeps_returnStatus {q : Requeue} {bj' : BackupJob} (h : bj'.status.phase.terminal = false) :
    (returnStatus q bj').Only (Keeps bj) :=
  only_returnStatus (fun _ => trivial) fun _ _ => h

theorem safely_listPods (cluster : Str) (ordinal : Int) (hx : Undecided R name x) (runner : Job)
    (hr : x.2.runner = some runner) :
    Safely R name (listPods cluster ordinal) x fun a x' =>
      match a with
      | .error _ => Kept R name x'
      | .ok pods =>
        if (restorePrimaryPodHealth pods).isSome then Decided R name x'
        else Undecided R name x' ∧ x'.2.runner = some runner := by
  refine (throughout_noted (K := fun x => Undecided R name x ∧ x.2.runner = some runner) hx.kept
    (fun _ e hx => ⟨⟨hx.1.1.happen e, hx.1.2⟩, hx.2⟩) ⟨hx, hr⟩).mono ?_
  rintro a x' ⟨c, y, ⟨hy, hr⟩, hc⟩
  have hf := hy.1.answer (r := .listPods cluster ordinal) (by rintro cluster value ⟨⟩) c
  rw [hc] at hf
  have hn := noted_eq hc
  cases a with
  | error e => exact Undecided.kept ⟨hf, by rw [show x'.2 = y.2 from hn, hy.2]⟩
  | ok pods =>
    have hl : x'.2 = if y.2.pending && (restorePrimaryPodHealth pods).isSome then y.2.decided else y.2 := hn
    rw [hy.2, Bool.true_and] at hl
    dsimp only
    split
    · rename_i hh
      rw [if_pos hh] at hl
      exact ⟨hf, Or.inl (by rw [hl]; rfl)⟩
    · rename_i hh
      rw [if_neg hh] at hl
      exact ⟨⟨hf, by rw [hl, hy.2]⟩, by rw [hl, hr]⟩

/-- A restore that has timed out is decided. -/
theorem safely_restoreTimedOut (hx : Undecided R name x) {runner : Job} (hr : x.2.runner = some runner) :
    Safely R name (restoreTimedOut runner) x fun late x' => if late then Decided R name x'
      else Undecided R name x' := by
  unfold restoreTimedOut
  split
  · exact hx
  rename_i t ht
  refine (throughout_noted (r := .now) (K := fun x => Undecided R name x ∧ x.2.runner = some runner) hx.kept
    (fun _ e hx => ⟨⟨hx.1.1.happen e, hx.1.2⟩, hx.2⟩) ⟨hx, hr⟩).bind ?_
  rintro (a : Int) x' ⟨c, y, ⟨hy, hr⟩, hc⟩
  have hf := hy.1.answer (r := .now) (by rintro cluster value ⟨⟩) c
  rw [hc] at hf
  have hn : x'.2 = if y.2.pending && y.2.runner.any fun job => job.timedOut a then y.2.decided else y.2 := noted_eq hc
  have hto : runner.timedOut a = decide (a - t > backupRestoreHealthTimeout) := by simp [Job.timedOut, ht]
  rw [hy.2, hr, Bool.true_and, any_some, hto] at hn
  change if decide (a - t > backupRestoreHealthTimeout) then Decided R name x' else Undecided R name x'
  split
  · rename_i hl
    rw [if_pos hl] at hn
    exact ⟨hf, Or.inl (by rw [hn]; rfl)⟩
  · rename_i hl
    rw [if_neg hl] at hn
    exact ⟨hf, by rw [hn, hy.2]⟩

theorem Restoring.name_eq (h : Restoring R name bj x) : bj.name = name := by
  obtain ⟨bj', hbj', hs⟩ := map_eq_some_iff.1 h.read
  rw [← x.1.job_name name bj' hbj']
  exact (congrArg BackupJob.name hs).symm

def IsHeld (name : Str) (bj : BackupJob) (cluster : Cluster.PostgresCluster) : Prop :=
  cluster.name = bj.spec.cluster ∧ restoreOwner cluster = name

variable {cluster : Cluster.PostgresCluster} (hx : Restoring R name bj x)
include hx

/-- The annotation is deleted, and then the restore is decided or the Reconcile is not settled. -/
theorem safely_finalize {runner : Job} (hn : name ≠ []) (hh : IsHeld name bj cluster)
    (hr : x.2.runner = some runner) :
    Safely R name (finalizeSidecarRestore bj cluster runner) x fun _ => Kept R name := by
  have hl : Safely R name ( releaseClusterRestoreAnnotation bj cluster) x fun a x' =>
      Kept R name x' ∧ (a = .ok () → Undecided R name x' ∧ x'.2.runner = some runner) := by
    unfold releaseClusterRestoreAnnotation
    dsimp only
    rw [hh.2, hx.name_eq, if_neg (by simp [hn]), hh.1]
    refine (throughout_noted (K := fun x => Restoring R name bj x ∧ x.2.runner = some runner) hx.kept
      (fun _ e hx => ⟨hx.1.happen e, hx.2⟩) ⟨hx, hr⟩).mono ?_
    rintro a x' ⟨c, y, ⟨hy, hr⟩, hc⟩
    obtain ⟨ha, rfl⟩ := Prod.mk.inj hc
    rcases hy.release hn c with ⟨hu, hsm⟩ | ⟨hs, e, he⟩
    · exact ⟨hu.kept, fun _ => ⟨hu, hsm.trans hr⟩⟩
    · refine ⟨hs.kept, fun hok => ?_⟩
      rw [← ha] at hok
      cases he.symm.trans hok
  have hen : ∀ {x : BackupWorld × LockNote} {ended : Int → BackupJob}, Decided R name x →
      (∀ t, (ended t).status.phase.terminal) →
      Safely R name (timeNow >>= fun t => returnStatus .no (ended t)) x fun _ => Kept R name := fun hx ht =>
    (safely_decided (writesResult_ended ht) hx).mono fun _ _ hx => hx.kept
  refine hl.except (fun _ _ hx => hx.1) fun _ x hu => ?_
  obtain ⟨hx, hr⟩ := hu.2 rfl
  refine (safely_listPods _ _ hx runner hr).except (fun _ _ hx => hx) fun pods x hx => ?_
  dsimp only at hx ⊢
  cases hhe : restorePrimaryPodHealth pods with
  | some ready =>
    rw [hhe] at hx
    cases ready <;> exact hen hx fun _ => rfl
  | none =>
    rw [hhe] at hx
    refine (safely_restoreTimedOut hx.1 hx.2).bind ?_
    rintro (_ | _) x hx
    · exact (safely_undecided (only_returnStatus (fun _ => trivial) fun _ _ => trivial) hx).mono fun _ _ hx => hx.kept
    · exact hen hx fun _ => rfl

section Commands

variable (hcmm : (restoreCommands R bj.spec).isSome)
include hcmm

theorem safely_request {r : BackupReq} (hr : Keeps bj r) :
    Safely R name (Prog.request (I := BackupApi) r) x fun a x' => Restoring R name bj x' ∧
      ∃ y c, ((backupApi false).noting (noteLock name)).answer c r y = (a, x') := by
  refine (throughout_noted (K := Restoring R name bj) hx.kept (fun _ e hx => hx.happen e) hx).mono ?_
  rintro a x' ⟨c, y, hy, hc⟩
  have hs := hy.answer hr hcmm c
  rw [hc] at hs
  exact ⟨hs, y, c, hc⟩

theorem safely_getJob (jobName : Str) :
    Safely R name (getJob jobName) x fun a x' => Restoring R name bj x' ∧
      match a with
      | .error e => isNotFound e → x'.2.trouble
      | .ok runner =>
        x'.2.runner = some runner ∧ (runner.complete = false → runner.failure.isSome → x'.2.trouble) := by
  refine (safely_request (r := .getJob jobName) hx hcmm trivial).mono ?_
  rintro a x' ⟨hx, y, c, hc⟩
  refine ⟨hx, ?_⟩
  rw [noted_eq hc]
  cases a with
  | error e => exact fun he => by simp [noteLock, he]
  | ok runner => exact ⟨rfl, fun hm hf => by simp [noteLock, hm, hf]⟩

theorem safely_getStatefulSet (stsName : Str) :
    Safely R name (getStatefulSet stsName) x fun a x' => Restoring R name bj x' ∧
      match a with
      | .error e => isNotFound e → x'.2.trouble
      | .ok sts => postgresImageFromStatefulSet sts = none → x'.2.trouble := by
  refine (safely_request (r := .getStatefulSet stsName) hx hcmm trivial).mono ?_
  rintro a x' ⟨hx, y, c, hc⟩
  refine ⟨hx, ?_⟩
  rw [noted_eq hc]
  cases a with
  | error e => exact fun he => by simp [noteLock, he]
  | ok sts => exact fun him => by simp [noteLock, him]

/-- The owner that is read is the owner that is stored. -/
theorem safely_getCluster :
    Safely R name (getCluster bj.spec.cluster) x fun a x' => Restoring R name bj x' ∧
      match a with
      | .error e => isNotFound e = false
      | .ok cluster => cluster.name = bj.spec.cluster ∧ restoreOwner cluster = x'.1.owner bj.spec.cluster := by
  refine (safely_request (r := .getCluster bj.spec.cluster) hx hcmm trivial).mono ?_
  rintro a x' ⟨hx, y, c, hc⟩
  refine ⟨hx, ?_⟩
  obtain ⟨ha, rfl⟩ := Prod.mk.inj hc
  change (BackupWorld.answer false c (.getCluster bj.spec.cluster) y.1).1 = a at ha
  simp only [BackupWorld.answer] at ha
  split at ha
  · rw [← ha]
    rfl
  · rw [← ha]
    refine ⟨rfl, ?_⟩
    change ownerOf (update c.cluster.annotations restoreInProgressKey _ restoreInProgressKey) = _
    rw [update_self]
    rfl

/-- If it succeeds, the cluster names the job as its owner. -/
theorem safely_ensure (hn : trimSpace name = name) (hc : cluster.name = bj.spec.cluster)
    (how : restoreOwner cluster = x.1.owner bj.spec.cluster) :
    Safely R name ( ensureClusterRestoreAnnotation bj cluster) x fun a x' =>
      match a with
      | .error _ => Kept R name x'
      | .ok cluster' => Restoring R name bj x' ∧ IsHeld name bj cluster' := by
  have hbj := hx.name_eq
  unfold ensureClusterRestoreAnnotation
  dsimp only
  split
  · rename_i hown
    exact ⟨hx, hc, hown.trans hbj⟩
  split
  · rename_i ho _
    have hf : ∀ other, x.1.owner other ≠ name := by
      intro other ho'
      obtain ⟨bj', hbj', -, rfl⟩ := hx.owns other ho'
      obtain rfl : bj' = bj.static := some.inj (hbj'.symm.trans hx.read)
      exact ho (how.trans (ho'.trans hbj.symm))
    have hid : Idle R name x := ⟨⟨hx.once, hf, hx.command⟩, hx.released⟩
    refine (safely_idle (only_statusUpdate (fun _ => ?_) fun _ _ => ?_) hid).bind fun _ _ hx => hx.kept
    · rintro cluster value ⟨⟩
    · rintro cluster value ⟨⟩
  · refine (safely_request hx hcmm (r := .patchOwner cluster.name (some bj.name)) ⟨hc, rfl⟩).except
      (fun _ _ hx => hx.1.kept) fun _ x hx => ⟨hx.1, hc, ?_⟩
    change trimSpace ((update cluster.annotations restoreInProgressKey (some bj.name) restoreInProgressKey).getD []) =
      name
    rw [update_self, hbj]
    exact hn

end Commands

section Running

variable {commands : BackupCommandPlugin} (hcmm : restoreCommands R bj.spec = some commands)
  (hru : bj.status.phase.terminal = false)
include hcmm hru

theorem safely_returnStatus {q : Requeue} {bj' : BackupJob} (h : bj'.status.phase = bj.status.phase) :
    Safely R name (returnStatus q bj') x fun _ => Kept R name :=
  safely_keeps (by rw [hcmm]; rfl) hx (keeps_returnStatus (by rw [h, hru]))

/-- Wherever the reconcile of the runner stops, the lock is as it should be. -/
theorem safely_reconcileRestoreJob {sts : StatefulSet} (hn : name ≠ []) (hh : IsHeld name bj cluster)
    (him : (postgresImageFromStatefulSet sts).isSome) :
    Safely R name (reconcileRestoreJob R bj cluster commands sts) x fun _ => Kept R name := by
  have his : (restoreCommands R bj.spec).isSome := by rw [hcmm]; rfl
  unfold reconcileRestoreJob
  split
  · have hc := hx.command bj.static hx.read commands hcmm
    split
    · rename_i e he
      rw [show commands.restoreCommand (clusterTarget bj.static) (targetTime bj.static) = .error e from he] at hc
      cases hc
    dsimp only
    obtain ⟨image, him⟩ := isSome_iff_exists.1 him
    simp only [buildSidecarRestoreJob, him]
    refine (safely_request (r := .createJob _) hx his trivial).except (fun e x hx => ?_)
      fun _ _ hx => safely_returnStatus hx.1 hcmm hru rfl
    dsimp only
    split
    · exact safely_returnStatus hx.1 hcmm hru rfl
    · exact hx.1.kept
  refine (safely_getJob hx his _).except (fun e x hx => ?_) fun runner x hx => ?_
  · dsimp only
    split
    · rename_i hm
      exact safely_trouble _ (hx.2 hm)
    · exact hx.1.kept
  obtain ⟨hx, hr⟩ := hx
  dsimp only
  split
  · exact safely_finalize hx hn hh hr.1
  rename_i hco
  split
  · rename_i failed hf
    exact safely_trouble _ (hr.2 (eq_false_iff.2 hco) (by rw [hf]; rfl))
  · exact safely_returnStatus hx hcmm hru rfl

theorem safely_reconcileStopped (hn : name ≠ []) (hh : IsHeld name bj cluster) :
    Safely R name (reconcileStopped R bj cluster commands) x fun _ => Kept R name := by
  have his : (restoreCommands R bj.spec).isSome := by rw [hcmm]; rfl
  refine (safely_getStatefulSet hx his _).except (fun e x hx => ?_) fun sts x hx => ?_
  · dsimp only
    split
    · rename_i hm
      exact safely_trouble _ (hx.2 hm)
    · exact hx.1.kept
  obtain ⟨hx, hr⟩ := hx
  dsimp only at hr ⊢
  cases him : postgresImageFromStatefulSet sts with
  | none => exact safely_trouble _ (hr him)
  | some image =>
    split
    · exact (safely_request (r := .updateStatefulSet _ _) hx his trivial).except (fun _ _ hx => hx.1.kept)
        fun _ _ hx => safely_returnStatus hx.1 hcmm hru rfl
    · refine (safely_request (r := .listPods cluster.name 0) hx his trivial).except
        (fun _ _ hx => hx.1.kept) fun pods x hx => ?_
      dsimp only
      split
      · exact safely_returnStatus hx.1 hcmm hru rfl
      · exact safely_reconcileRestoreJob hx.1 hcmm hru hn hh (by rw [him]; rfl)

theorem safely_reconcileSidecarRestore (hn : trimSpace name = name ∧ name ≠ []) (hc : cluster.name = bj.spec.cluster)
    (ho : restoreOwner cluster = x.1.owner bj.spec.cluster) :
    Safely R name (reconcileSidecarRestore R bj cluster commands) x fun _ => Kept R name := by
  have his : (restoreCommands R bj.spec).isSome := by rw [hcmm]; rfl
  refine (safely_ensure hx his hn.1 hc ho).except (fun _ _ hx => hx) ?_
  rintro cluster x ⟨hx, hh⟩
  have hrn : Safely R name (completeRunner bj) x fun a x' => Restoring R name bj x' ∧ ∀ runner, a = some runner →
      x'.2.runner = some runner := by
    unfold completeRunner
    split
    · exact ⟨hx, by rintro runner ⟨⟩⟩
    refine (safely_getJob hx his _).except (fun _ _ hx => ⟨hx.1, by rintro runner ⟨⟩⟩) fun runner x hx => ⟨hx.1, ?_⟩
    intro runner' hrn'
    split at hrn' <;> cases hrn'
    exact hx.2.1
  refine hrn.bind ?_
  rintro (_ | runner) x ⟨hx, hr⟩
  · exact safely_reconcileStopped hx hcmm hru hn.2 hh
  · exact safely_finalize hx hn.2 hh (hr runner rfl)

theorem safely_reconcileChecked (hn : trimSpace name = name ∧ name ≠ []) (hcl : cluster.name = bj.spec.cluster)
    (ho : restoreOwner cluster = x.1.owner bj.spec.cluster) :
    Safely R name (reconcileChecked R bj cluster) x fun _ => Kept R name := by
  have his : (restoreCommands R bj.spec).isSome := by rw [hcmm]; rfl
  have hc := hcmm
  unfold restoreCommands at hc
  split at hc
  case isFalse => cases hc
  rename_i hs
  obtain ⟨hv, hm, hr⟩ := hs
  obtain ⟨plugin, hplu, hp⟩ := bind_eq_some_iff.1 hc
  obtain ⟨plugins, hpl, hplu⟩ := bind_eq_some_iff.1 hplu
  unfold reconcileChecked
  dsimp only
  rw [if_neg (not_not.2 hv), if_neg (by rw [hm]; decide), hpl]
  dsimp only
  rw [hplu]
  dsimp only
  unfold reconcilePhase
  split
  · exact safely_keeps his hx (keeps_returnStatus rfl)
  · refine safely_keeps his hx (.request trivial fun now => keeps_returnStatus ?_)
    split <;> rfl
  · unfold reconcileRunning reconcileSidecar
    rw [hm]
    dsimp only
    rw [hp]
    dsimp only
    rw [if_pos hr]
    exact safely_reconcileSidecarRestore hx hcmm hru hn hcl ho
  · exact hx.kept
  · exact hx.kept

end Running

end Programs

/-! ### The Reconcile as a whole -/

section Reconcile

variable {R : Reconciler} {name : Str} {bj : BackupJob} {x : BackupWorld × LockNote}

theorem LockInv.restoring (h : LockInv R name x) (hbj : x.1.job name = some bj)
    (ho : bj.status.phase.terminal = false) :
    Restoring R name bj x := by
  have hru : ¬ x.1.Ended name := by
    intro he
    have ht := he bj.status.phase (by rw [phase, hbj]; rfl)
    rw [ho] at ht
    cases ht
  refine ⟨h.once, ?_, hru, by rw [static, hbj]; rfl, h.owns, h.command⟩
  exact eq_false_iff.2 fun hr => hru (h.released hr)

theorem Restoring.idle (h : Restoring R name bj x) (hcmm : restoreCommands R bj.spec = none) : Idle R name x := by
  refine ⟨⟨h.once, fun cluster hc => ?_, h.command⟩, h.released⟩
  obtain ⟨bj', hbj', hs, -⟩ := h.owns cluster hc
  obtain rfl : bj' = bj.static := some.inj (hbj'.symm.trans h.read)
  rw [show restoreCommands R bj.static.spec = none from hcmm] at hs
  cases hs

/-- The events of the cluster do not touch the lock. -/
theorem LockInv.happen (h : LockInv R name x) (e : BackupEvent) : LockInv R name (x.1.happen e, x.2) where
  once := h.once
  released := fun hr => ended_happen.2 (h.released hr)
  ended := fun he cluster => by
    rw [owner, owners_happen]
    exact h.ended (ended_happen.1 he) cluster
  owns := h.owns.congr (owners_happen e) (static_happen e)
  command := h.command.congr (static_happen e)

/-- One reconcile keeps the lock as it should be, if it is not stopped at the wrong moment. -/
theorem safely_reconcile (hn : trimSpace name = name ∧ name ≠ []) (hx : LockInv R name x) :
    Safely R name (reconcile R name) x fun _ => Kept R name := by
  refine (throughout_noted (r := .getBackupJob name) (K := LockInv R name) (fun _ => hx)
    (fun _ e hx => hx.happen e) hx).bind ?_
  rintro a x' ⟨c, y, hy, hc⟩
  obtain ⟨ha, rfl⟩ := Prod.mk.inj hc
  change Safely R name _ y _
  cases a with
  | error e =>
    dsimp only
    split <;> exact fun _ => hy
  | ok bj =>
    dsimp only
    split
    · exact fun _ => hy
    rename_i ho
    have ho' := eq_false_iff.2 ho
    have hr := hy.restoring (job_of_getBackupJob false ha) ho'
    cases hcmm : restoreCommands R bj.spec with
    | none =>
      exact (safely_idle (noPatch_reconcileOpen hcmm) (hr.idle hcmm)).mono fun _ _ hx => hx.kept
    | some commands =>
      have his : (restoreCommands R bj.spec).isSome := by rw [hcmm]; rfl
      refine (safely_getCluster hr his).except (fun e x hx => ?_)
        fun cluster x hx => safely_reconcileChecked hx.1 hcmm ho' hn hx.2.1 hx.2.2
      dsimp only at hx ⊢
      rw [if_neg (by rw [hx.2]; decide)]
      exact hx.1.kept

end Reconcile

/-- In every run of the Reconciles of one `BackupJob` from a world without its name in an annotation, in which every
step is settled and the command of the restore can be made: the annotation is not set again after it was deleted, and
when the job has ended no annotation has its name. -/
theorem lock_given_back {R : Reconciler} {name : Str} {h : Run ReconcileLabel (BackupWorld × LockNote)}
    (hname : trimSpace name = name ∧ name ≠ []) (hrun : IsReconcileRun (noteLock name) R name {} h)
    (hfirst : ∀ cluster, h.first.1.owner cluster ≠ name) (hcommand : HasCommand R name h.first.1)
    (hok : h.Steps fun _ _ x' => Settled x') :
    h.world.2.reacquired = false ∧ (h.world.1.Ended name → ∀ cluster, h.world.1.owner cluster ≠ name) := by
  have hv : LockInv R name h.world := by
    refine hrun.invariant (K := LockInv R name) (O := Settled) (fun x hx => safely_reconcile hname hx)
      (fun x e hx => hx.happen e) hok ⟨?_, ?_, fun _ => hfirst, ?_, hcommand⟩
    · rw [hrun.1]
    · rw [hrun.1]
      rintro ⟨⟩
    · exact fun cluster hc => absurd hc (hfirst cluster)
  exact ⟨hv.once, hv.ended⟩

def pitr : BackupJob where
  ns := "default"
  name := "pitr"
  spec :=
    { cluster := "demo"
      tool := "pgbackrest"
      type := .restore
      restore := some { targetTime := some 0 }
      executionMode := .sidecar }

def commandPlugin : Reconciler where
  plugins := some fun _ => some ⟨some
    { backupCommand := fun _ _ => .error [],
      restoreCommand := fun _ _ => .ok ["pgbackrest", "restore"],
      parseBackupResult := fun _ _ => ⟨[], 0⟩ }⟩
  hash := fun _ => []

def restoreAnswer (replicas : Int) (containers : Pod) : List BackupEvent × BackupChoice :=
  ([], { cluster := demoCluster,
         statefulSet := some { name := [], replicas := some replicas, containers := [⟨"postgres", "postgres:18"⟩] },
         pods := if containers = [] then [] else [containers] })

def runnerEnds (condition : Str) : List BackupEvent × BackupChoice :=
  ([.progress "pitr-runner" [{ type := condition, status := "True" }] (some 0)], (restoreAnswer 0 []).2)

def restoreBegins : List (List (List BackupEvent × BackupChoice)) :=
  [replicate 3 (restoreAnswer 3 []), replicate 4 (restoreAnswer 3 []), replicate 6 (restoreAnswer 3 []),
    replicate 6 (restoreAnswer 0 [])]

def restoreRun (last : List (List (List BackupEvent × BackupChoice))) :
    Option (Run ReconcileLabel (BackupWorld × LockNote)) :=
  reconciles (noteLock pitr.name) commandPlugin pitr.name (.start (oneJob pitr, {})) (restoreBegins ++ last)

theorem isReconcileRun_pitr :
    IsReconcileRun (noteLock pitr.name) commandPlugin pitr.name {} (.start (oneJob pitr, {})) :=
  isReconcileRun_start _

def readyRun : Option (Run ReconcileLabel (BackupWorld × LockNote)) :=
  restoreRun [runnerEnds "Complete" :: replicate 6 (restoreAnswer 0 [⟨"postgres", true, none, 0⟩])]

theorem hasCommand_pitr : HasCommand commandPlugin pitr.name (oneJob pitr) := by
  intro bj _ commands hcmm
  unfold restoreCommands at hcmm
  split at hcmm <;> cases hcmm
  rfl

theorem lock_given_back_demo : ∃ h, readyRun = some h ∧ h.world.1.phase pitr.name = some .succeeded ∧
    h.world.2.released ∧ h.world.2.reacquired = false ∧
    (h.world.1.Ended pitr.name → ∀ cluster, h.world.1.owner cluster ≠ pitr.name) := by
  have hf : readyRun.map
      (fun h => (h.world.1.phase pitr.name, h.world.2.released, decide (h.Steps fun _ _ x' => Settled x'))) =
      some (some .succeeded, true, true) := by decide +kernel
  obtain ⟨h, hh, hf⟩ := map_eq_some_iff.1 hf
  obtain ⟨hp, hr⟩ := Prod.mk.inj hf
  obtain ⟨hl, hste⟩ := Prod.mk.inj hr
  have hn : IsReconcileRun (noteLock pitr.name) commandPlugin pitr.name {} h := isReconcileRun_pitr.reconciles hh
  have hs : h.first = (oneJob pitr, {}) := first_reconciles hh
  have hno : ([] : Str) ≠ pitr.name := by decide +kernel
  refine ⟨h, hh, hp, hl, lock_given_back (by decide +kernel) hn ?_ ?_ (of_decide_eq_true hste)⟩
  · rw [hs]
    exact fun cluster => hno
  · rw [hs]
    exact hasCommand_pitr

/-- PostgreSQL is not ready at the first look after the Job, and the next Reconcile sets the annotation again. -/
def startingRun : Option (Run ReconcileLabel (BackupWorld × LockNote)) :=
  restoreRun [runnerEnds "Complete" :: replicate 6 (restoreAnswer 0 []), replicate 8 (restoreAnswer 0 [])]

def failedRun : Option (Run ReconcileLabel (BackupWorld × LockNote)) :=
  restoreRun [runnerEnds "Failed" :: replicate 7 (restoreAnswer 0 [])]

/-- In one run the annotation is set a second time, in the other the restore fails and leaves it. -/
theorem lock_not_given_back :
    (∃ h, IsReconcileRun (noteLock pitr.name) commandPlugin pitr.name {} h ∧ h.world.2.reacquired) ∧
      ∃ h, IsReconcileRun (noteLock pitr.name) commandPlugin pitr.name
        {} h ∧ h.world.1.phase pitr.name = some .failed ∧
        h.world.1.owner pitr.spec.cluster = pitr.name := by
  have ha : startingRun.map (fun h => h.world.2.reacquired) = some true := by decide +kernel
  have hf : failedRun.map (fun h => (h.world.1.phase pitr.name, h.world.1.owner pitr.spec.cluster)) =
      some (some .failed, pitr.name) := by decide +kernel
  constructor
  · obtain ⟨h, hh, ha⟩ := map_eq_some_iff.1 ha
    exact ⟨h, isReconcileRun_pitr.reconciles hh, ha⟩
  · obtain ⟨h, hh, hf⟩ := map_eq_some_iff.1 hf
    obtain ⟨hp, ho⟩ := Prod.mk.inj hf
    exact ⟨h, isReconcileRun_pitr.reconciles hh, hp, ho⟩

end PostgresOperator.Backup
