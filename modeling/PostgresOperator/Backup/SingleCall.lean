import PostgresOperator.Backup.World

/-!
# How often a tool is called

A Reconcile calls the tool of its `BackupJob` and then writes the result to the status.  When the status is not
written, the next Reconcile finds the job Running and calls the tool again.  The tool is called once if no Reconcile
ends between the call and a status update that takes effect (`called_once`).
-/

namespace PostgresOperator.Backup

open Go Calls List Option

/-- How often the tool was called, and whether no status update has taken effect since the last call. -/
structure CallNote where
  calls : Nat := 0
  unsaved : Bool := false
  deriving DecidableEq

def BackupReq.callsTool : BackupReq → Bool
  | .performBackup _ _ _ | .restorePIT _ _ _ | .exec _ _ => true
  | _ => false

def NoTool (r : BackupReq) : Prop := r.callsTool = false

def noteCall (name : Str) (r : BackupReq) (_ : r.Res) (w w' : BackupWorld) (g : CallNote) : CallNote :=
  if r.callsTool then { calls := g.calls + 1, unsaved := true }
  else match r with
    | .updateStatus n _ _ => if n = name ∧ w'.job n ≠ w.job n then { g with unsaved := false } else g
    | _ => g

theorem noteCall_updateStatus {name n : Str} {version : Nat} {status : BackupJobStatus}
    {a : (BackupReq.updateStatus n version status).Res} {w w' : BackupWorld} {g : CallNote} :
    noteCall name (.updateStatus n version status) a w w' g =
      if n = name ∧ w'.job n ≠ w.job n then { g with unsaved := false } else g := rfl

def CalledOnce (name : Str) (x : BackupWorld × CallNote) : Prop := x.2.calls = 0 ∨ x.2.calls = 1 ∧ x.1.Ended name

def Saved (x : BackupWorld × CallNote) : Prop := x.2.unsaved = false

instance (x : BackupWorld × CallNote) : Decidable (Saved x) := inferInstanceAs (Decidable (x.2.unsaved = false))

def ToolCalled (name : Str) (x : BackupWorld × CallNote) : Prop :=
  x.2.calls = 1 ∧ (x.2.unsaved ∨ x.1.Ended name)

section Steps

variable {name : Str} {x : BackupWorld × CallNote}

theorem ToolCalled.calledOnce (h : ToolCalled name x) (hs : Saved x) : CalledOnce name x := by
  rcases h.2 with hu | he
  · rw [Saved, hu] at hs
    cases hs
  · exact .inr ⟨h.1, he⟩

theorem BackupWorld.Ended.happen {w : BackupWorld} (h : w.Ended name) (e : BackupEvent) :
    (w.happen e).Ended name := by
  intro p hp
  rw [BackupWorld.phase_happen] at hp
  exact h p hp

variable {r : BackupReq}

theorem ToolCalled.answer (hr : WritesResult r) (h : ToolCalled name x) (c : BackupChoice) :
    ToolCalled name (((backupApi false).noting (noteCall name)).answer c r x).2 := by
  cases r with
  | now => exact h
  | getBackupJob n => exact h
  | updateStatus n version status =>
    constructor
    · rw [noted_answer, noteCall_updateStatus]
      split <;> exact h.1
    · rw [noted_answer, noteCall_updateStatus, apply_ite CallNote.unsaved]
      exact BackupWorld.unsaved_or_ended_updateStatus h.2 hr
  | _ => exact hr.elim

theorem ToolCalled.happen (h : ToolCalled name x) (e : BackupEvent) : ToolCalled name (x.1.happen e, x.2) :=
  ⟨h.1, h.2.imp_right fun he => he.happen e⟩

theorem calls_answer (hr : NoTool r) (c : BackupChoice) :
    (((backupApi false).noting (noteCall name)).answer c r x).2.2.calls = x.2.calls := by
  change (noteCall name r _ x.1 _ x.2).calls = _
  unfold noteCall
  rw [show r.callsTool = false from hr, if_neg Bool.false_ne_true]
  split
  · split <;> rfl
  · rfl

/-- The first call of the tool. -/
theorem toolCalled_answer (hr : r.callsTool) (hx : x.2.calls = 0) (c : BackupChoice) :
    ToolCalled name (((backupApi false).noting (noteCall name)).answer c r x).2 := by
  have hn : ∀ a w', noteCall name r a x.1 w' x.2 = { calls := 1, unsaved := true } := by
    intro a w'
    unfold noteCall
    rw [if_pos hr, hx]
  constructor
  · exact congrArg CallNote.calls (hn _ _)
  · exact .inl (congrArg CallNote.unsaved (hn _ _))

theorem throughout_writesResult {α : Type} {p : BackupProg α} (hp : p.Only WritesResult) (hx : ToolCalled name x) :
    Throughout ((backupApi false).noting (noteCall name)).busy (fun _ x' => Saved x' → CalledOnce name x') p x
      fun _ x' => Saved x' → CalledOnce name x' := by
  refine (hp.throughout (K := ToolCalled name) (fun _ _ _ hx => hx.calledOnce) ?_ hx).mono fun _ _ hx => hx.calledOnce
  intro c r x hr hx
  exact (kept_events (noteCall name) (K := ToolCalled name) (fun _ e hx => hx.happen e) hx c.1).answer hr c.2

end Steps

/-! ### The Reconcile -/

/-- A program whose requests satisfy `φ` until it calls a tool, and which then only writes the result. -/
def CallsThenWrites {α : Type} (φ : BackupReq → Prop) : BackupProg α → Prop
  | .pure _ => True
  | .call r k => φ r ∧ (∀ a, CallsThenWrites φ (k a)) ∨ r.callsTool ∧ ∀ a, (k a).Only WritesResult

def restoreCommands (R : Reconciler) (spec : BackupJobSpec) : Option BackupCommandPlugin :=
  if validateBackupJobSpecForExecution spec = [] ∧ spec.executionMode = .sidecar ∧ spec.type = .restore then
    (R.plugins.bind fun plugins => plugins spec.tool).bind BackupPlugin.commands
  else none

def NoPatch (r : BackupReq) : Prop := ∀ cluster value, r ≠ .patchOwner cluster value

def Untooled (R : Reconciler) (bj : BackupJob) (r : BackupReq) : Prop :=
  NoTool r ∧ ((restoreCommands R bj.spec).isSome ∨ NoPatch r)

section Programs

variable {α β : Type} {name : Str} {x : BackupWorld × CallNote} {φ : BackupReq → Prop}

variable {p : BackupProg α}

theorem CallsThenWrites.of_only (hp : p.Only φ) : CallsThenWrites φ p := by
  induction p with
  | pure a => trivial
  | call r k ih => exact .inl ⟨hp.1, fun a => ih a (hp.2 a)⟩

theorem CallsThenWrites.only {ψ : BackupReq → Prop} (hp : CallsThenWrites φ p) (hφ : ∀ r, φ r → ψ r)
    (ht : ∀ r, r.callsTool → ψ r) (hw : ∀ r, WritesResult r → ψ r) : p.Only ψ := by
  induction p with
  | pure a => trivial
  | call r k ih =>
    rcases hp with ⟨hr, hk⟩ | ⟨hr, hk⟩
    · exact ⟨hφ r hr, fun a => ih a (hk a)⟩
    · exact ⟨ht r hr, fun a => (hk a).mono hw⟩

/-- A program that calls the tool and then writes its result calls it once. -/
theorem throughout_callsThenWrites (hp : CallsThenWrites φ p) (hφ : ∀ r, φ r → NoTool r) (hx : x.2.calls = 0) :
    Throughout ((backupApi false).noting (noteCall name)).busy (fun _ x' => Saved x' → CalledOnce name x') p x
      fun _ x' => Saved x' → CalledOnce name x' := by
  induction p generalizing x with
  | pure a => exact fun _ => .inl hx
  | call r k ih =>
    refine ⟨fun _ => .inl hx, fun c => ?_⟩
    have he := kept_events (noteCall name) (K := fun x : BackupWorld × CallNote => x.2.calls = 0)
      (fun _ _ hx => hx) hx c.1
    rcases hp with ⟨hr, hk⟩ | ⟨hr, hk⟩
    · exact ih _ (hk _) ((calls_answer (hφ r hr) c.2).trans he)
    · exact throughout_writesResult (hk _) (toolCalled_answer hr he c.2)

theorem CallsThenWrites.tool {r : BackupReq} {f : r.Res → BackupProg β} (hr : r.callsTool)
    (hf : ∀ a, (f a).Only WritesResult) : CallsThenWrites φ (Prog.request (I := BackupApi) r >>= f) :=
  Or.inr ⟨hr, hf⟩

theorem Plain.noTool {r : BackupReq} (h : Plain r) : NoTool r := by
  cases r with
  | performBackup | restorePIT | exec => exact h.elim
  | _ => rfl

theorem Plain.noPatch {r : BackupReq} (h : Plain r) : NoPatch r := by
  rintro cluster value rfl
  exact h

variable (R : Reconciler) (bj : BackupJob) (cluster : Cluster.PostgresCluster)

theorem noTool_returnStatus (q : Requeue) : (returnStatus q bj).Only NoTool :=
  (plain_returnStatus q bj).mono fun _ h => h.noTool

theorem noTool_ended (bj : Int → BackupJob) : (timeNow >>= fun t => returnStatus .no (bj t)).Only NoTool :=
  (plain_ended bj).mono fun _ h => h.noTool

theorem noTool_finalizeSidecarRestore (runner : Job) : (finalizeSidecarRestore bj cluster runner).Only NoTool := by
  have hr : ( releaseClusterRestoreAnnotation bj cluster).Only NoTool := by
    unfold releaseClusterRestoreAnnotation
    dsimp only
    split
    · trivial
    · exact ⟨rfl, fun _ => trivial⟩
  refine hr.bind ?_
  rintro (e | ⟨⟩)
  · trivial
  refine .request rfl ?_
  rintro (e | pods)
  · trivial
  dsimp only
  split
  · exact noTool_ended _
  · exact noTool_ended _
  · refine Prog.Only.bind ?_ fun timedOut => ?_
    · unfold restoreTimedOut
      split
      · trivial
      · exact .request rfl fun _ => trivial
    · split
      · exact noTool_ended _
      · exact noTool_returnStatus ..

theorem noTool_reconcileRestoreJob (commands : BackupCommandPlugin) (sts : StatefulSet) :
    (reconcileRestoreJob R bj cluster commands sts).Only NoTool := by
  unfold reconcileRestoreJob
  split
  · split
    · exact noTool_returnStatus ..
    dsimp only
    split
    · exact noTool_returnStatus ..
    refine .request rfl ?_
    rintro (e | ⟨⟩)
    · dsimp only
      split
      · exact noTool_returnStatus ..
      · trivial
    · exact noTool_returnStatus ..
  refine .request rfl ?_
  rintro (e | runner)
  · dsimp only
    split
    · exact noTool_ended _
    · trivial
  dsimp only
  split
  · exact noTool_finalizeSidecarRestore ..
  split
  · exact noTool_ended _
  · exact noTool_returnStatus ..

theorem noTool_reconcileSidecarRestore (commands : BackupCommandPlugin) :
    (reconcileSidecarRestore R bj cluster commands).Only NoTool := by
  have he : ( ensureClusterRestoreAnnotation bj cluster).Only NoTool := by
    unfold ensureClusterRestoreAnnotation
    dsimp only
    split
    · trivial
    split
    · exact (only_statusUpdate (fun _ => rfl) fun _ _ => rfl).bind fun _ => trivial
    · refine .request rfl ?_
      rintro (e | ⟨⟩) <;> trivial
  refine he.bind ?_
  rintro (e | cluster)
  · trivial
  refine Prog.Only.bind ?_ fun runner => ?_
  · unfold completeRunner
    split
    · trivial
    · refine .request rfl ?_
      rintro (e | runner) <;> trivial
  split
  · exact noTool_finalizeSidecarRestore ..
  refine .request rfl ?_
  rintro (e | sts)
  · dsimp only
    split
    · exact noTool_returnStatus ..
    · trivial
  dsimp only
  split
  · refine .request rfl ?_
    rintro (e | ⟨⟩)
    · trivial
    · exact noTool_returnStatus ..
  refine .request rfl ?_
  rintro (e | pods)
  · trivial
  dsimp only
  split
  · exact noTool_returnStatus ..
  · exact noTool_reconcileRestoreJob ..

variable {R bj}

theorem untooled_of_plain (hp : p.Only Plain) : CallsThenWrites (Untooled R bj) p :=
  .of_only (hp.mono fun _ h => ⟨h.noTool, Or.inr h.noPatch⟩)

theorem untooled_returnStatus (q : Requeue) (bj' : BackupJob) :
    CallsThenWrites (Untooled R bj) (returnStatus q bj') :=
  untooled_of_plain (plain_returnStatus q bj')

variable {cluster}

theorem untooled_reconcileSidecar {plugin : BackupPlugin}
    (h : bj.spec.type = .restore → plugin.commands.isSome → (restoreCommands R bj.spec).isSome) :
    CallsThenWrites (Untooled R bj) (reconcileSidecar R bj cluster plugin) := by
  unfold reconcileSidecar
  split
  · exact untooled_returnStatus ..
  rename_i commands hc
  split
  · rename_i hrs
    have hs := h hrs (by rw [hc]; rfl)
    exact .of_only ((noTool_reconcileSidecarRestore ..).mono fun _ hr => ⟨hr, Or.inl hs⟩)
  split
  · exact untooled_returnStatus ..
  split
  · exact untooled_returnStatus ..
  split
  · exact untooled_returnStatus ..
  refine .tool rfl fun result => .request trivial fun endedAt => ?_
  split
  · exact writesResult_returnStatus _ rfl
  · exact writesResult_returnStatus _ rfl

theorem callsThenWrites_reconcileRestore (bj : BackupJob) : CallsThenWrites φ (reconcileRestore bj) := by
  refine .tool rfl fun result => .request trivial fun endedAt => ?_
  split
  · exact writesResult_returnStatus _ rfl
  · refine writesResult_returnStatus _ ?_
    split <;> rfl

/-- The tool is called once, and only the status is written after it. -/
theorem callsThenWrites_performBackupJob (bj : BackupJob) : CallsThenWrites φ (performBackupJob bj) := by
  refine .tool rfl fun result => .request trivial fun endedAt => ?_
  split
  · exact writesResult_returnStatus _ rfl
  · exact writesResult_returnStatus _ rfl

theorem untooled_reconcilePhase {plugin : Option BackupPlugin}
    (h : bj.spec.executionMode = .sidecar → bj.spec.type = .restore →
      (plugin.bind BackupPlugin.commands).isSome → (restoreCommands R bj.spec).isSome) :
    CallsThenWrites (Untooled R bj) (reconcilePhase R bj cluster plugin) := by
  unfold reconcilePhase
  split
  · exact untooled_returnStatus ..
  · exact untooled_of_plain (.request trivial fun _ => plain_returnStatus ..)
  · unfold reconcileRunning
    split
    · exact untooled_of_plain (plain_reconcileRunnerJob R bj)
    · rename_i hm
      exact untooled_reconcileSidecar (h hm)
    · split
      · exact callsThenWrites_reconcileRestore bj
      · exact callsThenWrites_performBackupJob bj
    · trivial
  · trivial
  · trivial

/-- An open job is reconciled with at most one call. -/
theorem untooled_reconcileOpen : CallsThenWrites (Untooled R bj) (reconcileOpen R bj) := by
  refine .inl ⟨⟨rfl, Or.inr (by rintro cluster value ⟨⟩)⟩, ?_⟩
  rintro (e | cluster)
  · show CallsThenWrites _ (if _ then _ else _)
    split
    · exact untooled_returnStatus ..
    · trivial
  show CallsThenWrites _ (reconcileChecked R bj cluster)
  unfold reconcileChecked
  dsimp only
  split
  · exact untooled_returnStatus ..
  rename_i hv
  split
  · rename_i hj
    refine untooled_reconcilePhase fun hm => ?_
    rw [hj] at hm
    cases hm
  split
  · exact untooled_returnStatus ..
  rename_i plugins hp
  split
  · exact untooled_returnStatus ..
  rename_i plugin hpl
  refine untooled_reconcilePhase fun hm hr hs => ?_
  rw [restoreCommands, if_pos ⟨not_not.1 hv, hm, hr⟩, hp, bind_some, hpl]
  exact hs

theorem noPatch_reconcileOpen (h : restoreCommands R bj.spec = none) : (reconcileOpen R bj).Only NoPatch := by
  refine untooled_reconcileOpen.only (fun r hr => hr.2.resolve_left ?_) ?_ ?_
  · rw [h]
    exact Bool.false_ne_true
  · rintro r hr cluster value rfl
    cases hr
  · rintro r hr cluster value rfl
    exact hr

/-- One reconcile keeps it at one call, if the result is saved. -/
theorem throughout_reconcile (R : Reconciler) (hx : CalledOnce name x) :
    Throughout ((backupApi false).noting (noteCall name)).busy (fun _ x' => Saved x' → CalledOnce name x')
      (reconcile R name) x
      fun _ x' => Saved x' → CalledOnce name x' := by
  have hrd : Throughout ((backupApi false).noting (noteCall name)).busy (fun _ x' => Saved x' → CalledOnce name x')
      (getBackupJob name) x fun a x' => CalledOnce name x' ∧ ∀ bj, a = .ok bj → x'.1.job name = some bj := by
    refine (throughout_request fun _ => hx).mono ?_
    rintro a x' ⟨⟨es, c⟩, hc⟩
    have hev := kept_events (noteCall name) (K := CalledOnce name)
      (fun _ e hx => hx.imp_right fun h => ⟨h.1, h.2.happen e⟩) hx es
    obtain ⟨rfl, rfl⟩ := Prod.mk.inj hc
    exact ⟨hev, fun bj hbj => BackupWorld.job_of_getBackupJob false hbj⟩
  refine hrd.bind ?_
  rintro (e | bj) x' ⟨hx', hbj⟩
  · dsimp only
    split <;> exact fun _ => hx'
  dsimp only
  split
  · exact fun _ => hx'
  · rename_i ho
    refine throughout_callsThenWrites (φ := Untooled R bj) untooled_reconcileOpen (fun _ hr => hr.1) ?_
    rcases hx' with hcl | ⟨-, he⟩
    · exact hcl
    · exact absurd (he bj.status.phase (by rw [BackupWorld.phase, hbj bj rfl]; rfl)) ho

end Programs

/-- In every run of the Reconciles of one `BackupJob` in which none ends, or is stopped, between a call of the tool
and a status update that takes effect, the tool is called at most once. -/
theorem called_once {R : Reconciler} {name : Str} {h : Run ReconcileLabel (BackupWorld × CallNote)}
    (hrun : IsReconcileRun (noteCall name) R name {} h) (hsaved : h.Steps fun _ _ x' => Saved x') :
      h.world.2.calls ≤ 1 := by
  have hv : CalledOnce name h.world := by
    refine hrun.invariant (K := CalledOnce name) (O := Saved) (fun x hx => throughout_reconcile R hx) ?_ hsaved ?_
    · exact fun x e hx => hx.imp_right fun h => ⟨h.1, h.2.happen e⟩
    · exact .inl (by rw [hrun.1])
  rcases hv with hc | ⟨hc, -⟩
  · rw [hc]
    exact Nat.zero_le 1
  · exact hc.le

def nightly : BackupJob := { ns := "default", name := "nightly", spec := { cluster := "demo", tool := "pgbackrest" } }

def onePlugin : Reconciler := { plugins := some fun _ => some ⟨none⟩, hash := fun _ => [] }

def served (es : List BackupEvent) : List BackupEvent × BackupChoice :=
  (es, { cluster := demoCluster, backup := .ok ⟨"full-1", 4096⟩ })

theorem isReconcileRun_nightly :
    IsReconcileRun (noteCall nightly.name) onePlugin nightly.name {} (.start (oneJob nightly, {})) :=
  isReconcileRun_start _

def savedRun : Option (Run ReconcileLabel (BackupWorld × CallNote)) :=
  reconciles (noteCall nightly.name) onePlugin nightly.name (.start (oneJob nightly, {}))
    [replicate 3 (served []), replicate 4 (served []), replicate 5 (served [])]

theorem called_once_demo : ∃ h, savedRun = some h ∧ h.world.2.calls = 1 ∧ h.world.2.calls ≤ 1 := by
  have hf : savedRun.map (fun h => (h.world.2, decide (h.Steps fun _ _ x' => Saved x'))) =
      some (⟨1, false⟩, true) := by decide +kernel
  obtain ⟨h, hh, hf⟩ := map_eq_some_iff.1 hf
  obtain ⟨hn, hs⟩ := Prod.mk.inj hf
  have hr : IsReconcileRun (noteCall nightly.name) onePlugin nightly.name {} h :=
    isReconcileRun_nightly.reconciles hh
  exact ⟨h, hh, by rw [hn], called_once hr (of_decide_eq_true hs)⟩

/-- After the call of the tool both status updates meet a conflict, which is not reported; the next Reconcile calls
the tool again. -/
def conflictRun : Option (Run ReconcileLabel (BackupWorld × CallNote)) :=
  let touched := served [.touch nightly.name]
  reconciles (noteCall nightly.name) onePlugin nightly.name (.start (oneJob nightly, {}))
    [replicate 3 (served []), replicate 4 (served []),
      [served [], served [], served [], served [], touched, served [], touched], replicate 5 (served [])]

/-- A status update that is lost lets the next reconcile call the tool again. -/
theorem called_twice : ∃ h, IsReconcileRun (noteCall nightly.name) onePlugin nightly.name {} h ∧
    h.world.2.calls = 2 := by
  have hf : conflictRun.map (fun h => h.world.2.calls) = some 2 := by decide +kernel
  obtain ⟨h, hh, hc⟩ := map_eq_some_iff.1 hf
  exact ⟨h, isReconcileRun_nightly.reconciles hh, hc⟩

end PostgresOperator.Backup
