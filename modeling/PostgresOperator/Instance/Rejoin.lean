import PostgresOperator.Calls.Crash
import PostgresOperator.Instance.Bootstrap

/-!
# Rejoin of a former primary

`supervise/standby.go`: a former primary is rewound, and if that fails its data directory is moved to a quarantine and
replaced by a copy of the current primary.  Every operation may fail, and the process may be killed between any two.
Between two attempts the pod may be made anew; then the init container runs first, which writes the marker file into a
data directory that has a PG_VERSION, and fills one that has none.

An attempt takes a data directory with the marker for the original, and deletes the quarantine.  So the original
PGDATA stays in one of the two directories until a pg_basebackup has completed, in every run in which a failed
pg_rewind leaves its target alone and nothing puts the marker into a directory that is neither the original nor a
completed copy (`rejoin_keeps_pgdata`).
-/

namespace PostgresOperator.Instance

open Go Calls Function

/-! ### The program -/

inductive Place
  | data
  | quarantine
  deriving DecidableEq

inductive RejoinReq
  | statMarker
  | removeMarker
  | writeMarker
  | pgRewind
  | pgBasebackup
  | removeAll (p : Place)
  | rename (source target : Place)
  | mkdirAll (p : Place)
  | createStandbySignal
  | appendPrimaryConninfo

def RejoinReq.Res : RejoinReq → Type
  | .statMarker => Except Str Bool
  | _ => Except Str Unit

abbrev RejoinApi : Interface where
  Req := RejoinReq
  Res := RejoinReq.Res
  failed {r} a := match r, a with
    | .statMarker, a | .removeMarker, a | .writeMarker, a | .pgRewind, a | .pgBasebackup, a | .removeAll _, a
    | .rename _ _, a | .mkdirAll _, a | .createStandbySignal, a | .appendPrimaryConninfo, a => !Except.isOk a

abbrev Rejoin := Prog RejoinApi

def perform (r : RejoinReq) : Rejoin r.Res := Prog.request (I := RejoinApi) r

/-- `RejoinOptions`, without the runner and the name that the standby connects with. -/
structure RejoinOptions where
  dataDir : Str
  primaryEndpoint : Str
  selfEndpoint : Str := []
  binDir : Str
  basebackupOnRewindFailure : Bool

inductive RejoinError
  /-- stat %s: %w -/
  | stat (e : Str)
  /-- remove self-primary marker %s: %w -/
  | selfMarker (e : Str)
  /-- primaryEndpoint must not be empty -/
  | noEndpoint
  /-- pg_rewind target=%s source=%s: %w -/
  | rewind (e : Str)
  /-- refuse to replace unsafe dataDir %q -/
  | unsafeDir (dataDir : Str)
  /-- remove old quarantine %s: %w -/
  | oldQuarantine (e : Str)
  /-- quarantine %s to %s: %w -/
  | quarantine (e : Str)
  /-- create fresh dataDir %s: %w -/
  | freshDir (e : Str)
  /-- pg_basebackup target=%s source=%s: %w -/
  | basebackup (e : Str)
  /-- write fallback marker: %w -/
  | fallbackMarker (e : Str)
  /-- %w; basebackup fallback failed: %w -/
  | fallback (rewind : RejoinError) (e : RejoinError)
  /-- create %s: %w -/
  | standbySignal (e : Str)
  /-- The error of `appendPrimaryConninfo`. -/
  | conninfo (e : Str)
  /-- remove %s: %w -/
  | marker (e : Str)

/-- The deferred function of `replaceDataDirWithBasebackup`, whose errors are logged. -/
def rollback (e : RejoinError) : Rejoin (Except RejoinError Unit) := do
  let _ ← perform (.removeAll .data)
  let _ ← perform (.rename .quarantine .data)
  pure (.error e)

def replaceDataDirWithBasebackup (opts : RejoinOptions) : Rejoin (Except RejoinError Unit) := do
  if opts.dataDir = [] ∨ opts.dataDir = "/" then pure (.error (.unsafeDir opts.dataDir))
  else match ← perform (.removeAll .quarantine) with
    | .error e => pure (.error (.oldQuarantine e))
    | .ok () => match ← perform (.rename .data .quarantine) with
      | .error e => pure (.error (.quarantine e))
      | .ok () => match ← perform (.mkdirAll .data) with
        | .error e => rollback (.freshDir e)
        | .ok () => match ← perform .pgBasebackup with
          | .error e => rollback (.basebackup e)
          | .ok () => match ← perform .writeMarker with
            | .error e => rollback (.fallbackMarker e)
            | .ok () => do
              let _ ← perform (.removeAll .quarantine)
              pure (.ok ())

/-- The part of `PrepareRestartedPrimaryAsStandbyWithRewind` that follows the current primary. -/
def rewindOrReplace (opts : RejoinOptions) : Rejoin (Except RejoinError Unit) := do
  if opts.binDir = [] then pure (.ok ())
  else match ← perform .pgRewind with
    | .ok () => pure (.ok ())
    | .error e =>
      if !opts.basebackupOnRewindFailure then pure (.error (.rewind e))
      else match ← replaceDataDirWithBasebackup opts with
        | .error e' => pure (.error (.fallback (.rewind e) e'))
        | .ok () => pure (.ok ())

def becomeStandby : Rejoin (Except RejoinError Bool) := do
  match ← perform .createStandbySignal with
  | .error e => pure (.error (.standbySignal e))
  | .ok () => match ← perform .appendPrimaryConninfo with
    | .error e => pure (.error (.conninfo e))
    | .ok () => match ← perform .removeMarker with
      | .error e => pure (.error (.marker e))
      | .ok () => pure (.ok true)

def prepareRestartedPrimaryAsStandbyWithRewind (opts : RejoinOptions) : Rejoin (Except RejoinError Bool) := do
  match ← perform .statMarker with
  | .error e => pure (.error (.stat e))
  | .ok false => pure (.ok false)
  | .ok true =>
    if opts.selfEndpoint ≠ [] ∧ opts.primaryEndpoint = opts.selfEndpoint then
      match ← perform .removeMarker with
      | .error e => pure (.error (.selfMarker e))
      | .ok () => pure (.ok false)
    else if opts.primaryEndpoint = [] then pure (.error .noEndpoint)
    else match ← rewindOrReplace opts with
      | .error e => pure (.error e)
      | .ok () => becomeStandby

/-! ### The disk -/

/-- What a directory holds: all of the original PGDATA, a completed copy of another server, something else, or
nothing. -/
inductive Content
  | original
  | copy
  | remains
  | empty
  deriving DecidableEq

structure Dir where
  content : Content
  marker : Bool
  deriving DecidableEq

structure Disk where
  dir : Place → Option Dir
  /-- A pg_basebackup has completed. -/
  copied : Bool := false

/-- How an operation ends; a failed one may have left traces. -/
structure Outcome where
  ok : Bool
  error : Str := []
  touched : Bool := false
  marker : Bool := false

variable (w : Disk)

def Disk.set (p : Place) (d : Option Dir) : Disk := { w with dir := update w.dir p d }

def Disk.free (p : Place) : Bool := (w.dir p).all (· = ⟨.empty, false⟩)

/-- The disk.  If `harmless`, a failed pg_rewind leaves its target alone and an unfinished pg_basebackup no marker. -/
def disk (harmless : Bool) : Service RejoinApi Disk where
  Choice := Outcome
  answer c r w :=
    let result : Except Str Unit := if c.ok then .ok () else .error c.error
    match r with
    | .statMarker => (if c.ok then .ok ((w.dir .data).any Dir.marker) else .error c.error, w)
    | .removeMarker =>
      (result, if c.ok then w.set .data ((w.dir .data).map fun d => { d with marker := false }) else w)
    | .writeMarker => (result, if c.ok then w.set .data ((w.dir .data).map fun d => { d with marker := true }) else w)
    | .pgRewind =>
      (result, if !c.ok && c.touched && !harmless then
        w.set .data ((w.dir .data).map fun d => { d with content := .remains }) else w)
    | .pgBasebackup =>
      let done := c.ok && (w.dir .data = some ⟨.empty, false⟩)
      (if done then .ok () else .error c.error,
        if done then { w.set .data (some ⟨.copy, c.marker⟩) with copied := true }
        else if c.touched then w.set .data (some ⟨.remains, c.marker && !harmless⟩) else w)
    | .removeAll p =>
      (result, if c.ok then w.set p none
        else if c.touched then w.set p ((w.dir p).map fun d => ⟨.remains, d.marker && c.marker⟩) else w)
    | .rename source target =>
      let done := c.ok && (w.dir source).isSome && w.free target
      (if done then .ok () else .error c.error, if done then (w.set target (w.dir source)).set source none else w)
    | .mkdirAll p => (result, if c.ok then w.set p ((w.dir p).or (some ⟨.empty, false⟩)) else w)
    | .createStandbySignal | .appendPrimaryConninfo => (result, w)
  Event := Empty
  happen e _ := nomatch e

def Disk.Has (p : Place) : Prop := (w.dir p).map Dir.content = some .original

def Disk.Sure : Prop := w.copied ∨ w.Has .data

/-- A copy is complete, or the original is in the quarantine and no attempt will take the data directory for it. -/
def Disk.Hidden : Prop :=
  w.copied ∨ w.Has .quarantine ∧ (w.dir .data).all (fun d => d.marker = false)

def Disk.Safe : Prop := w.Sure ∨ w.Hidden

/-! ### Attempts -/

section

variable {w : Disk} {b : Bool}

@[simp] theorem Disk.set_self (p : Place) (d : Option Dir) : (w.set p d).dir p = d := update_self ..

@[simp] theorem Disk.set_quarantine (d : Option Dir) : (w.set .data d).dir .quarantine = w.dir .quarantine := rfl

@[simp] theorem Disk.set_data (d : Option Dir) : (w.set .quarantine d).dir .data = w.dir .data := rfl

@[simp] theorem Disk.set_copied (p : Place) (d : Option Dir) : (w.set p d).copied = w.copied := rfl

theorem Disk.Hidden.set (h : w.Hidden) {d : Option Dir} (hd : d.all (fun d => d.marker = false)) :
    (w.set .data d).Hidden := by
  rcases h with h | ⟨h, -⟩
  · exact .inl h
  · exact .inr ⟨h, by simpa using hd⟩

theorem answer_rename (c : Outcome) (p q : Place) :
    (disk b).answer c (.rename p q) w = (.ok (), (w.set q (w.dir p)).set p none) ∨
      (disk b).answer c (.rename p q) w = (.error c.error, w) := by
  by_cases hd : (c.ok && (w.dir p).isSome && w.free q)
  · exact .inl (Prod.ext (if_pos hd) (if_pos hd))
  · exact .inr (Prod.ext (if_neg hd) (if_neg hd))

theorem answer_pgBasebackup (c : Outcome) :
    (((disk true).answer c .pgBasebackup w).1 = .ok () ∧ ((disk true).answer c .pgBasebackup w).2.copied) ∨
      ((disk true).answer c .pgBasebackup w).1 = .error c.error ∧ (((disk true).answer c .pgBasebackup w).2 = w ∨
        ((disk true).answer c .pgBasebackup w).2 = w.set .data (some ⟨.remains, false⟩)) := by
  by_cases hd : (c.ok && (w.dir .data = some ⟨.empty, false⟩))
  · exact .inl ⟨if_pos hd, congrArg Disk.copied (if_pos hd)⟩
  · refine .inr ⟨if_neg hd, ?_⟩
    rw [show ((disk true).answer c .pgBasebackup w).2 = if c.touched then _ else w from if_neg hd]
    cases c.touched <;> simp

/-- These requests lose no copy. -/
theorem Disk.Sure.after (h : w.Sure) (c : Outcome) {r : RejoinReq}
    (hr : r = .statMarker ∨ r = .removeMarker ∨ r = .pgRewind ∨ r = .removeAll .quarantine ∨
      r = .createStandbySignal ∨
      r = .appendPrimaryConninfo) : ((disk true).answer c r w).2.Sure := by
  rcases hr with rfl | rfl | rfl | rfl | rfl | rfl
  · exact h
  · change Disk.Sure (if c.ok then _ else _)
    split
    · rcases h with h | h
      · exact .inl h
      · refine .inr ?_
        simpa [Disk.Has, comp_def] using h
    · exact h
  · change Disk.Sure (if _ then _ else _)
    rw [if_neg (by simp)]
    exact h
  · change Disk.Sure (if c.ok then _ else if c.touched then _ else _)
    split
    · exact h
    · split
      · exact h
      · exact h
  · exact h
  · exact h

theorem lasting_copied : (disk b).Lasting fun w => w.copied := by
  intro c r w hw
  cases r <;> simp only [disk] <;> (repeat' split) <;> first | exact hw | rfl

/-- The disk is safe whenever the process is killed, and `Q` holds at the end. -/
abbrev Rejoins {α : Type} (p : Rejoin α) (w : Disk) (Q : α → Disk → Prop) : Prop :=
  Throughout (disk true) (fun _ => Disk.Safe) p w Q

theorem rejoins_perform {r : RejoinReq} {Q : r.Res → Disk → Prop} (hw : w.Safe)
    (hQ : ∀ c, Q ((disk true).answer c r w).1 ((disk true).answer c r w).2) : Rejoins (perform r) w Q := ⟨hw, hQ⟩

theorem rejoins_copied {α : Type} (p : Rejoin α) (h : w.copied) : Rejoins p w fun _ w' => w'.copied :=
  throughout_lasting lasting_copied (fun _ _ h => .inl (.inl h)) p h

/-- A rollback puts the old directory back. -/
theorem rejoins_rollback (e : RejoinError) (h : w.Hidden) :
    Rejoins (rollback e) w fun a w' => a = .error e ∧ w'.Safe := by
  have hr : Rejoins (perform (.removeAll .data)) w fun _ => Disk.Hidden := by
    refine rejoins_perform (.inr h) fun c => ?_
    change Disk.Hidden (if c.ok then _ else if c.touched then _ else _)
    split
    · exact h.set rfl
    · split
      · rcases h with h | ⟨h, hm⟩
        · exact .inl h
        · refine .inr ⟨h, ?_⟩
          cases hd : w.dir .data <;> simp_all
      · exact h
  refine hr.bind fun _ w₁ h₁ => ?_
  have hb : Rejoins (perform (.rename .quarantine .data)) w₁ fun _ => Disk.Safe := by
    refine rejoins_perform (.inr h₁) fun c => ?_
    rcases answer_rename c .quarantine .data with ha | ha <;> rw [ha]
    · rcases h₁ with h | ⟨h, -⟩
      · exact .inl (.inl h)
      · exact .inl (.inr (by simpa [Disk.Has, Disk.set] using h))
    · exact .inr h₁
  exact hb.bind fun _ w₂ h₂ => ⟨rfl, h₂⟩

/-- A base backup replaces the directory and keeps the old one until it is complete. -/
theorem rejoins_replace (opts : RejoinOptions) (h : w.Sure) :
    Rejoins (replaceDataDirWithBasebackup opts) w fun a w' => w'.Safe ∧ (a = .ok () → w'.Sure) := by
  have hb (e : RejoinError) {w : Disk} (h : w.Hidden) :
      Rejoins (rollback e) w fun a w' => w'.Safe ∧ (a = .ok () → w'.Sure) :=
    (rejoins_rollback e h).mono fun a w' hw => ⟨hw.2, fun hok => nomatch hw.1.symm.trans hok⟩
  have hp {w : Disk} (p : Rejoin (Except RejoinError Unit)) (h : w.copied) :
      Rejoins p w fun a w' => w'.Safe ∧ (a = .ok () → w'.Sure) :=
    (rejoins_copied p h).mono fun _ _ h => ⟨.inl (.inl h), fun _ => .inl h⟩
  unfold replaceDataDirWithBasebackup
  split
  · exact ⟨.inl h, nofun⟩
  · have hold : Rejoins (perform (.removeAll .quarantine)) w fun _ => Disk.Sure :=
      rejoins_perform (.inl h) fun c => h.after c (by simp)
    refine hold.bind fun a w₁ h₁ => ?_
    split
    · exact ⟨.inl h₁, nofun⟩
    · have hm : Rejoins (perform (.rename .data .quarantine)) w₁ fun a w' => w'.Safe ∧ (a = .ok () → w'.Hidden) := by
        refine rejoins_perform (.inl h₁) fun c => ?_
        rcases answer_rename c .data .quarantine with ha | ha <;> rw [ha]
        · have hh : Disk.Hidden ((w₁.set .quarantine (w₁.dir .data)).set .data none) := by
            rcases h₁ with h | h
            · exact .inl h
            · exact .inr ⟨h, rfl⟩
          exact ⟨.inr hh, fun _ => hh⟩
        · exact ⟨.inl h₁, nofun⟩
      refine hm.bind fun a w₂ h₂ => ?_
      split
      · exact ⟨h₂.1, nofun⟩
      · have hf : Rejoins (perform (.mkdirAll .data)) w₂ fun _ => Disk.Hidden := by
          refine rejoins_perform h₂.1 fun c => ?_
          change Disk.Hidden (if c.ok then _ else _)
          split
          · rcases h₂.2 rfl with h | ⟨h, hr⟩
            · exact .inl h
            · refine .inr ⟨h, ?_⟩
              cases hd : w₂.dir .data <;> simp_all
          · exact h₂.2 rfl
        refine hf.bind fun a w₃ h₃ => ?_
        split
        · exact hb _ h₃
        · have hc : Rejoins (perform .pgBasebackup) w₃ fun a w' => w'.Hidden ∧ (a = .ok () → w'.copied) := by
            refine rejoins_perform (.inr h₃) fun c => ?_
            rcases answer_pgBasebackup c with ⟨-, hp⟩ | ⟨ha, hds⟩
            · exact ⟨.inl hp, fun _ => hp⟩
            · refine ⟨?_, fun hok => nomatch ha.symm.trans hok⟩
              rcases hds with hds | hds <;> rw [hds]
              · exact h₃
              · exact h₃.set rfl
          refine hc.bind fun a w₄ h₄ => ?_
          split
          · exact hb _ h₄.1
          · exact hp _ (h₄.2 rfl)

theorem rejoins_rewindOrReplace {opts : RejoinOptions} (h : w.Sure) :
    Rejoins (rewindOrReplace opts) w fun a w' => w'.Safe ∧ (a = .ok () → w'.Sure) := by
  unfold rewindOrReplace
  split
  · exact ⟨.inl h, fun _ => h⟩
  · have hr : Rejoins (perform .pgRewind) w fun _ => Disk.Sure :=
      rejoins_perform (.inl h) fun c => h.after c (by simp)
    refine hr.bind fun a w₁ h₁ => ?_
    split
    · exact ⟨.inl h₁, fun _ => h₁⟩
    · split
      · exact ⟨.inl h₁, nofun⟩
      · refine (rejoins_replace opts h₁).bind fun a w₂ h₂ => ?_
        split
        · exact ⟨h₂.1, nofun⟩
        · exact h₂

theorem Disk.Safe.sure (h : w.Safe) (hm : (w.dir .data).any Dir.marker) : w.Sure := by
  rcases h with h | h | ⟨-, hn⟩
  · exact h
  · exact .inl h
  · cases hd : w.dir .data <;> simp_all

/-- The whole of the rejoin leaves a safe disk, wherever it stops. -/
theorem rejoins_prepare (opts : RejoinOptions) (h : w.Safe) :
    Rejoins (prepareRestartedPrimaryAsStandbyWithRewind opts) w fun _ => Disk.Safe := by
  have hsta : Rejoins (perform .statMarker) w fun a w' => w'.Safe ∧ (a = .ok true → w'.Sure) := by
    refine rejoins_perform h fun c => ⟨h, fun hok => h.sure ?_⟩
    change (if c.ok then Except.ok ((w.dir .data).any Dir.marker) else Except.error c.error) = Except.ok true at hok
    split at hok
    · exact Except.ok.inj hok
    · cases hok
  refine hsta.bind fun a w₁ h₁ => ?_
  split
  · exact h₁.1
  · exact h₁.1
  · have hs := h₁.2 rfl
    split
    · have hm : Rejoins (perform .removeMarker) w₁ fun _ => Disk.Sure :=
        rejoins_perform h₁.1 fun c => hs.after c (by simp)
      refine hm.bind fun a w₂ h₂ => ?_
      split
      · exact .inl h₂
      · exact .inl h₂
    · split
      · exact h₁.1
      · refine (rejoins_rewindOrReplace hs).bind fun a w₂ h₂ => ?_
        split
        · exact h₂.1
        · have ho : becomeStandby.Only fun r : RejoinReq => r = .createStandbySignal ∨ r = .appendPrimaryConninfo ∨
              r = .removeMarker := by
            refine .request (.inl rfl) fun a => ?_
            split
            · trivial
            · refine .request (.inr (.inl rfl)) fun a => ?_
              split
              · trivial
              · refine .request (.inr (.inr rfl)) fun a => ?_
                split
                · trivial
                · trivial
          refine (ho.throughout (fun r w _ hw => .inl hw) ?_ (h₂.2 rfl)).mono fun _ _ hw => .inl hw
          intro c r w hr hw
          exact hw.after c (by tauto)

end

/-! ### Runs -/

/-- The files of the data directory, as far as the script of the init container asks for them.  The original and a
copy have a PG_VERSION, and what remains of one may have it. -/
def Disk.Holds (w : Disk) (d : PgData) : Prop :=
  match w.dir .data with
  | none => d.version = false
  | some x => x.marker = d.restartAsStandby ∧ (x.content = .original ∨ x.content = .copy → d.version) ∧
      (x.content = .empty → d.version = false)

/-- The script runs.  A data directory without PG_VERSION is filled, in whatever way it ends. -/
def Disk.boot (w : Disk) (env : BootEnv) (d : PgData) (left : Dir) : Disk :=
  match bootstrap env d with
  | .kept d' => w.set .data ((w.dir .data).map fun x => { x with marker := d'.restartAsStandby })
  | .basebackup | .initdb => { w.set .data (some left) with copied := w.copied || left.content = .copy }
  | .failed => w

/-- The script writes the marker file. -/
def writesMarker (env : BootEnv) (d : PgData) : Bool :=
  d.version && (restoreStandby env d).restartAsStandby && !d.restartAsStandby

/-- An attempt, which may be killed, or a run of the init container.  If `harmless`, the disk is, and the init
container leaves no marker in a directory that is neither the original nor a completed copy. -/
inductive RejoinStep (harmless : Bool) (w : Disk) : Disk → Prop
  | ended {opts : RejoinOptions} {a : Except RejoinError Bool} {w' : Disk} (ho : opts.basebackupOnRewindFailure)
      (he : Ends (disk harmless) (prepareRestartedPrimaryAsStandbyWithRewind opts) w a w') : RejoinStep harmless w w'
  | killed {opts : RejoinOptions} {r : Option RejoinReq} {w' : Disk} (ho : opts.basebackupOnRewindFailure)
      (hs : Stops (disk harmless) (prepareRestartedPrimaryAsStandbyWithRewind opts) w r w') : RejoinStep harmless w w'
  | booted (env : BootEnv) (d : PgData) (left : Dir) (hd : w.Holds d) (hl : left.content ≠ .original)
      (hm : harmless → writesMarker env d → w.copied ∨ w.Has .data)
      (hf : harmless → left.content = .copy ∨ left.marker = false) : RejoinStep harmless w (w.boot env d left)

theorem version_of_kept {env : BootEnv} {d d' : PgData} (h : bootstrap env d = .kept d') :
    d.version = true ∧ restoreStandby env d = d' := by
  unfold bootstrap at h
  split at h
  · rename_i hv
    exact ⟨hv, Bootstrap.kept.inj h⟩
  · repeat' split at h
    all_goals cases h

section

variable {w : Disk} {env : BootEnv} {d : PgData} {left : Dir}

/-- A data directory that is kept is the original or has the marker that it had before. -/
theorem Disk.Safe.kept (h : w.Safe) (hd : w.Holds d) (hv : d.version)
    (hm : writesMarker env d → w.copied ∨ w.Has .data) :
    (w.set .data ((w.dir .data).map fun x => { x with marker := (restoreStandby env d).restartAsStandby })).Safe := by
  have hsure : w.Sure →
      (w.set .data ((w.dir .data).map fun x =>
        { x with marker := (restoreStandby env d).restartAsStandby })).Sure := by
    intro h
    refine h.imp_right fun h => ?_
    simpa [Disk.Has, comp_def] using h
  rcases h with h | h | ⟨hq, hn⟩
  · exact .inl (hsure h)
  · exact .inl (.inl h)
  · by_cases hw : writesMarker env d
    · exact .inl (hsure (hm hw))
    · refine .inr (.inr ⟨hq, ?_⟩)
      unfold Disk.Holds at hd
      cases hx : w.dir .data with
      | none => simp
      | some x =>
        rw [hx] at hd hn
        have hr : d.restartAsStandby = false := by simpa [hd.1] using hn
        simpa [writesMarker, hv, hr] using hw

/-- A data directory that is filled had no PG_VERSION, so it was not the original. -/
theorem Disk.Safe.seeded (h : w.Safe) (hd : w.Holds d) (hv : d.version = false)
    (hf : left.content = .copy ∨ left.marker = false) :
    Disk.Safe { w.set .data (some left) with copied := w.copied || left.content = .copy } := by
  rcases hf with hf | hf
  · exact .inl (.inl (by simp [hf]))
  rcases h with (h | h) | h | ⟨hq, -⟩
  · exact .inl (.inl (by simp [h]))
  · unfold Disk.Has at h
    unfold Disk.Holds at hd
    cases hx : w.dir .data with
    | none =>
      rw [hx] at h
      cases h
    | some x =>
      rw [hx] at h hd
      have hc := hd.2.1 (.inl (Option.some.inj h))
      rw [hv] at hc
      cases hc
  · exact .inl (.inl (by simp [h]))
  · exact .inr (.inr ⟨hq, by simp [Disk.set, hf]⟩)

/-- So does a start of the container. -/
theorem Disk.Safe.boot (h : w.Safe) (hd : w.Holds d) (hm : writesMarker env d → w.copied ∨ w.Has .data)
    (hf : left.content = .copy ∨ left.marker = false) : (w.boot env d left).Safe := by
  have hn : ∀ {b}, bootstrap env d = b → (∀ d', b ≠ .kept d') → d.version = false := by
    rintro _ rfl hk
    by_contra hv
    exact hk _ (if_pos (by simpa using hv))
  unfold Disk.boot
  cases hb : bootstrap env d with
  | kept d' =>
    obtain ⟨hv, rfl⟩ := version_of_kept hb
    exact h.kept hd hv hm
  | basebackup => exact h.seeded hd (hn hb nofun) hf
  | initdb => exact h.seeded hd (hn hb nofun) hf
  | failed => exact h

end

/-- Whatever fails and whenever the process is killed, the original PGDATA is in the data directory or in the
quarantine until a pg_basebackup has completed. -/
theorem rejoin_keeps_pgdata {w₀ w : Disk} (h₀ : w₀.Has .data) (hrun : Relation.ReflTransGen (RejoinStep true) w₀ w) :
    w.copied ∨ w.Has .data ∨ w.Has .quarantine := by
  have hsf : w.Safe := by
    induction hrun with
    | refl => exact .inl (.inr h₀)
    | tail _ hste ih =>
      cases hste with
      | ended ho he => exact (rejoins_prepare _ ih).ends he
      | killed ho hs =>
        rcases (rejoins_prepare _ ih).stops hs with ⟨-, -, h⟩ | ⟨-, -, h⟩
        · exact h
        · exact h
      | booted env d left hd hl hm hf => exact ih.boot hd (hm rfl) (hf rfl)
  rcases hsf with (h | h) | h | h
  · exact .inl h
  · exact .inr (.inl h)
  · exact .inl h
  · exact .inr (.inr h.1)

def formerPrimary : Disk where
  dir p := if p = .data then some ⟨.original, true⟩ else none

def rejoinOptions : RejoinOptions where
  dataDir := "/pgdata"
  primaryEndpoint := "demo-shard-0-1:5432"
  binDir := "/bin"
  basebackupOnRewindFailure := true

def rejoinEnv : BootEnv where
  podName := "demo-shard-0-0"
  primaryEndpoint := "demo-shard-0-1:5432"
  memberCount := 2

/-- pg_rewind fails, and the process is killed after the data directory was moved.  Then the pod is made anew, and the
init container fails to copy the primary. -/
theorem rejoin_keeps_pgdata_quarantined : ∃ w, Relation.ReflTransGen (RejoinStep true) formerPrimary w ∧
    w.dir .data = some ⟨.remains, false⟩ ∧ (w.copied ∨ w.Has .data ∨ w.Has .quarantine) := by
  have hs : Stops (disk true) (prepareRestartedPrimaryAsStandbyWithRewind rejoinOptions) formerPrimary _ _ :=
    ⟨[{ ok := true }, { ok := false }, { ok := true }, { ok := true }], rfl⟩
  have ho : rejoinOptions.basebackupOnRewindFailure := rfl
  have hr := Relation.ReflTransGen.single (r := RejoinStep true) (.killed ho hs)
  have hr' := hr.tail
    (.booted rejoinEnv { version := false } ⟨.remains, false⟩ rfl nofun (fun _ => nofun) fun _ => .inr rfl)
  have hsta : formerPrimary.Has .data := rfl
  exact ⟨_, hr', rfl, rejoin_keeps_pgdata hsta hr'⟩

/-- pg_basebackup is killed when it has copied some files of the server, PG_VERSION among them.  Then the pod is made
anew, and the init container writes the marker.  The next attempt takes what it finds for the old PGDATA, and deletes
the quarantine. -/
theorem rejoin_deletes_original : ∃ w, Relation.ReflTransGen (RejoinStep false) formerPrimary w ∧
    w.copied = false ∧ w.dir .data = some ⟨.remains, true⟩ ∧ w.dir .quarantine = none := by
  have hk : Stops (disk false) (prepareRestartedPrimaryAsStandbyWithRewind rejoinOptions) formerPrimary _ _ :=
    ⟨[{ ok := true }, { ok := false }, { ok := true }, { ok := true }, { ok := true },
      { ok := false, touched := true }], rfl⟩
  have ho : rejoinOptions.basebackupOnRewindFailure := rfl
  have hr := Relation.ReflTransGen.single (r := RejoinStep false) (.killed ho hk)
  have hr' := hr.tail (.booted rejoinEnv {} ⟨.empty, false⟩ ⟨rfl, fun _ => rfl, nofun⟩ nofun nofun nofun)
  refine ⟨_, hr'.tail (.killed ho (r := some (.rename .data .quarantine))
    ⟨[{ ok := true }, { ok := false }, { ok := true }], rfl⟩), ?_⟩
  exact ⟨rfl, rfl, rfl⟩

end PostgresOperator.Instance
