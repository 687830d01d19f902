import PostgresOperator.Calls.Loop
import PostgresOperator.Cluster.Aggregate

/-!
# Reseeding members

`stale_replica_reseed.go`.  A member of a shard with a ready primary is given a new volume when it is not ready though
its pod is old enough (`reconcileStaleReplicas`), or when it is a rogue primary (`reconcileRoguePrimaries`): its claim
and its pod are deleted, and the time is noted in an annotation of the cluster, so that it is not done again too soon.

The answers of the API server are arbitrary.  The world is the record of what was deleted, and of the pods that were
read.
-/

namespace PostgresOperator.Cluster

open Go Calls List

/-! ### Requests -/

abbrev Annotations := Str → Option Str

/-- The requests of the controller.  `mark` is none; with it a statement can say for which shard something was
deleted. -/
inductive ReseedReq
  | now
  | mark (shard : Str)
  | getPod (name : Str)
  | getPvc (name : Str)
  | getNode (name : Str)
  | deletePvc (name : Str)
  | deletePod (name : Str) (force : Bool)
  | clearFinalizers (pod : Str)
  | patchAnnotations (annotations : Annotations)

/-- The answer to a request: the object as far as it is read, for a patch the annotations that the cluster has
then. -/
def ReseedReq.Res : ReseedReq → Type
  | .now => Int
  | .mark _ => Unit
  | .getPod _ => Except ApiError Pod
  | .getNode _ => Except ApiError (List Condition)
  | .patchAnnotations _ => Except ApiError Annotations
  | .getPvc _ | .deletePvc _ | .deletePod _ _ | .clearFinalizers _ => Except ApiError Unit

abbrev ReseedApi : Interface where
  Req := ReseedReq
  Res := ReseedReq.Res
  failed {r} a := match r, a with
    | .now, _ | .mark _, _ => false
    | .getPod _, a | .getNode _, a | .patchAnnotations _, a | .getPvc _, a | .deletePvc _, a | .deletePod _ _, a
    | .clearFinalizers _, a => !Except.isOk a

abbrev Reseed := Prog ReseedApi

def timeNow : Reseed Int := Prog.request (I := ReseedApi) .now

def mark (shard : Str) : Reseed Unit := Prog.request (I := ReseedApi) (.mark shard)

def getPod (name : Str) : Reseed (Except ApiError Pod) := Prog.request (I := ReseedApi) (.getPod name)

def getPvc (name : Str) : Reseed (Except ApiError Unit) := Prog.request (I := ReseedApi) (.getPvc name)

def getNode (name : Str) : Reseed (Except ApiError (List Condition)) := Prog.request (I := ReseedApi) (.getNode name)

def deletePvc (name : Str) : Reseed (Except ApiError Unit) := Prog.request (I := ReseedApi) (.deletePvc name)

def deletePod (name : Str) (force : Bool) : Reseed (Except ApiError Unit) :=
  Prog.request (I := ReseedApi) (.deletePod name force)

def clearFinalizers (pod : Str) : Reseed (Except ApiError Unit) :=
  Prog.request (I := ReseedApi) (.clearFinalizers pod)

def patchAnnotations (annotations : Annotations) : Reseed (Except ApiError Annotations) :=
  Prog.request (I := ReseedApi) (.patchAnnotations annotations)

def isNotFound : ApiError → Bool
  | .notFound _ => true
  | _ => false

/-! ### One member -/

def staleStandbyReseedTimeout : Int := 8 * minute

def reseedCooldown : Int := 10 * minute

def lastReseedKey (pod : Str) : Str := "postgres.keiailab.io/last-reseed-" ++ pod

def stuckTerminatingForceDeleteThreshold : Int := 2 * minute

def dataPvc (pod : Str) : Str := "data-" ++ pod

variable {pod : Str}

theorem dataPvc_inj {pod' : Str} (h : dataPvc pod = dataPvc pod') : pod = pod' := append_cancel_left h

inductive ReseedError
  /-- delete stale standby pvc %q: %w -/
  | deletePvc (pvc : Str) (e : ApiError)
  /-- get stale standby pvc %q: %w -/
  | getPvc (pvc : Str) (e : ApiError)
  /-- force delete stuck standby pod %q: %w -/
  | forceDelete (pod : Str) (e : ReseedError)
  /-- clear finalizers on stuck pod %q: %w -/
  | clearFinalizers (pod : Str) (e : ApiError)
  /-- force delete pod %q: %w -/
  | forceDeletePod (pod : Str) (e : ApiError)
  /-- delete stale standby pod %q: %w -/
  | deletePod (pod : Str) (e : ApiError)
  /-- get stale standby pod %q: %w -/
  | getPod (pod : Str) (e : ApiError)
  /-- record re-seed cooldown for %q: %w -/
  | cooldown (pod : Str) (e : ApiError)
  /-- reseed rogue primary %q: %w -/
  | rogue (pod : Str) (e : ReseedError)
  /-- record rogue-primary reseed cooldown for %q: %w -/
  | rogueCooldown (pod : Str) (e : ApiError)

def readyNotTrue (conditions : List Condition) (absent : Bool) : Bool :=
  match conditionStatus conditions "Ready" with
  | some status => status ≠ "True"
  | none => absent

def nodeNotReady (nodeName : Str) : Reseed Bool := do
  if nodeName = [] then pure false
  else match ← getNode nodeName with
    | .error _ => pure false
    | .ok conditions => pure (readyNotTrue conditions false)

def stuckTerminatingOnDeadNode (pod : Pod) (now : Int) : Reseed Bool :=
  match pod.deletionTimestamp with
  | none => pure false
  | some t => if now - t < stuckTerminatingForceDeleteThreshold then pure false else nodeNotReady pod.nodeName

variable (podName : Str) (codec : Codec) (shards : List ShardStatus)

def podAbsentOrNotReady : Reseed Bool := do
  match ← getPod podName with
  | .error e => pure (isNotFound e)
  | .ok pod => pure (readyNotTrue pod.conditions true)

def unlessNotFound (err : ApiError → ReseedError) : Except ApiError Unit → Except ReseedError Unit
  | .error e => if isNotFound e then .ok () else .error (err e)
  | .ok () => .ok ()

def forceDeleteStuckPod (pod : Pod) : Reseed (Except ReseedError Unit) := do
  match ← (if pod.finalizers = [] then pure (.ok ()) else clearFinalizers podName) with
  | .error e => pure (.error (.clearFinalizers podName e))
  | .ok () => pure (unlessNotFound (.forceDeletePod podName) (← deletePod podName true))

def reseedPod (now : Int) : Reseed (Except ReseedError Unit) := do
  match ← getPod podName with
  | .error e => pure (if isNotFound e then .ok () else .error (.getPod podName e))
  | .ok pod =>
    let stuck ← stuckTerminatingOnDeadNode pod now
    if ← (if stuck then podAbsentOrNotReady podName else pure false) then
      match ← forceDeleteStuckPod podName pod with
      | .error e => pure (.error (.forceDelete podName e))
      | .ok () => pure (.ok ())
    else pure (unlessNotFound (.deletePod podName) (← deletePod podName false))

def reseedStandby (now : Int) : Reseed (Except ReseedError Unit) := do
  match ← getPvc (dataPvc podName) with
  | .error e => if isNotFound e then reseedPod podName now else pure (.error (.getPvc (dataPvc podName) e))
  | .ok () =>
    match unlessNotFound (.deletePvc (dataPvc podName)) (← deletePvc (dataPvc podName)) with
    | .error e => pure (.error e)
    | .ok () => reseedPod podName now

def coolingDown (annotations : Annotations) (pod : Str) (now : Int) : Bool :=
  match annotations (lastReseedKey pod) with
  | none => false
  | some last => last ≠ [] && (codec.parseTime last).any fun t => now - t < reseedCooldown

/-- Note the time of a reseeding at the cluster; if that fails, it is noted only in the copy at hand. -/
def recordReseed (annotations : Annotations) (pod : Str) (now : Int) (err : ApiError → ReseedError) :
    Reseed (Annotations × Except ReseedError Unit) := do
  let noted := Function.update annotations (lastReseedKey pod) (some (codec.formatTime now))
  match ← patchAnnotations noted with
  | .error e => pure (noted, .error (err e))
  | .ok annotations => pure (annotations, .ok ())

/-! ### The loops -/

def readyPrimary (ss : ShardStatus) : Option ShardEndpoint := ss.primary.filter ShardEndpoint.ready

def reseedShard (f : ShardEndpoint → Annotations → ShardEndpoint → Reseed (Annotations × Except ReseedError Unit))
    (annotations : Annotations) (ss : ShardStatus) : Reseed (Annotations × Except ReseedError Unit) := do
  mark ss.name
  match readyPrimary ss with
  | none => pure (annotations, .ok ())
  | some primary => forEach (f primary) annotations ss.replicas

def staleReplica (now : Int) (annotations : Annotations) (rep : ShardEndpoint) :
    Reseed (Annotations × Except ReseedError Unit) := do
  if rep.ready || rep.pod = [] then pure (annotations, .ok ())
  else match ← getPod rep.pod with
    | .error _ => pure (annotations, .ok ())
    | .ok pod =>
      if now - pod.creationTimestamp < staleStandbyReseedTimeout then pure (annotations, .ok ())
      else if coolingDown codec annotations rep.pod now then pure (annotations, .ok ())
      else match ← reseedStandby rep.pod now with
        | .error e => pure (annotations, .error e)
        | .ok () => recordReseed codec annotations rep.pod now (.cooldown rep.pod)

def reconcileStaleReplicas (now : Int) (annotations : Annotations) (shardStatuses : List ShardStatus) :
    Reseed (Annotations × Except ReseedError Unit) :=
  forEach (reseedShard fun _ => staleReplica codec now) annotations shardStatuses

def roguePrimary (now : Int) (primary : ShardEndpoint) (annotations : Annotations) (rep : ShardEndpoint) :
    Reseed (Annotations × Except ReseedError Unit) := do
  if rep.reason ≠ roguePrimaryReason || rep.pod = [] || rep.pod = primary.pod then pure (annotations, .ok ())
  else if coolingDown codec annotations rep.pod now then pure (annotations, .ok ())
  else
    let t ← timeNow
    match ← reseedStandby rep.pod t with
    | .error e => pure (annotations, .error (.rogue rep.pod e))
    | .ok () => recordReseed codec annotations rep.pod now (.rogueCooldown rep.pod)

def reconcileRoguePrimaries (now : Int) (annotations : Annotations) (shards : List ShardStatus) :
    Reseed (Annotations × Except ReseedError Unit) :=
  forEach (reseedShard (roguePrimary codec now)) annotations shards

def reseedMembers (annotations : Annotations) (shardStatuses : List ShardStatus) : Reseed Unit := do
  let now ← timeNow
  let r ← reconcileStaleReplicas codec now annotations shardStatuses
  let now ← timeNow
  let _ ← reconcileRoguePrimaries codec now r.1 shardStatuses
  pure ()

/-! ### What was done -/

/-- The claims and the pods that were deleted, each with the shard for which, and the pods that were read. -/
structure Done where
  shard : Str := []
  pvcs : List (Str × Str) := []
  pods : List (Str × Str) := []
  read : List (Str × Pod) := []

def Done.record (w : Done) : (r : ReseedReq) → r.Res → Done
  | .mark shard, _ => { w with shard }
  | .getPod name, .ok pod => { w with read := w.read ++ [(name, pod)] }
  | .deletePvc name, _ => { w with pvcs := w.pvcs ++ [(w.shard, name)] }
  | .deletePod name _, _ => { w with pods := w.pods ++ [(w.shard, name)] }
  | _, _ => w

abbrev anyApi : Service ReseedApi Done where
  Choice := (r : ReseedReq) → r.Res
  answer c r w := (c r, w.record r (c r))
  Event := Empty
  happen e _ := nomatch e

theorem after_ask (r : ReseedReq) (w : Done) :
    After anyApi (Prog.request (I := ReseedApi) r) w fun a w' => w' = w.record r a := by
  rintro a w' he
  obtain ⟨c, hc⟩ := after_request a w' he
  cases hc
  rfl

def ForMember (pod : Str) : ReseedReq → Prop
  | .mark _ => False
  | .deletePvc name => name = dataPvc pod
  | .deletePod name _ => name = pod
  | _ => True

/-- Requests that read, and those that delete the pod but not its claim. -/
def ForPod (pod : Str) : ReseedReq → Prop
  | .mark _ | .deletePvc _ => False
  | .deletePod name _ => name = pod
  | _ => True

theorem only_stuckTerminatingOnDeadNode (pod : Str) (obj : Pod) (now : Int) :
    (stuckTerminatingOnDeadNode obj now).Only (ForPod pod) := by
  have hn : ∀ name, (nodeNotReady name).Only (ForPod pod) := by
    intro name
    unfold nodeNotReady
    split
    · exact trivial
    · refine ⟨trivial, ?_⟩
      rintro (e | conditions) <;> exact trivial
  unfold stuckTerminatingOnDeadNode
  split
  · exact trivial
  · split
    · exact trivial
    · exact hn _

theorem only_forceDeleteStuckPod (pod : Str) (obj : Pod) : (forceDeleteStuckPod pod obj).Only (ForPod pod) := by
  unfold forceDeleteStuckPod
  refine Prog.Only.bind ?_ ?_
  · split
    · exact trivial
    · exact ⟨trivial, fun _ => trivial⟩
  · rintro (e | ⟨⟩)
    · exact trivial
    · exact ⟨rfl, fun _ => trivial⟩

/-- The part of a reseed that comes after the claim deletes the pod and nothing else. -/
theorem only_reseedPod (pod : Str) (now : Int) : (reseedPod pod now).Only (ForPod pod) := by
  unfold reseedPod
  refine ⟨trivial, ?_⟩
  rintro (e | obj)
  · exact trivial
  refine (only_stuckTerminatingOnDeadNode pod obj now).bind fun stuck => Prog.Only.bind ?_ ?_
  · split
    · refine ⟨trivial, ?_⟩
      rintro (e | obj) <;> exact trivial
    · exact trivial
  · intro down
    split
    · refine (only_forceDeleteStuckPod pod obj).bind ?_
      rintro (e | ⟨⟩) <;> exact trivial
    · exact ⟨rfl, fun _ => trivial⟩

theorem ForPod.forMember {r : ReseedReq} (h : ForPod pod r) : ForMember pod r := by
  cases r with
  | deletePvc name => exact h.elim
  | mark shard => exact h.elim
  | _ => exact h

theorem only_reseedStandby (pod : Str) (now : Int) : (reseedStandby pod now).Only (ForMember pod) := by
  unfold reseedStandby
  refine .request trivial ?_
  rintro (e | ⟨⟩)
  · dsimp only
    split
    · exact (only_reseedPod pod now).mono fun _ h => h.forMember
    · exact trivial
  · refine .request rfl ?_
    intro r
    split
    · exact trivial
    · exact (only_reseedPod pod now).mono fun _ h => h.forMember

theorem only_recordReseed (annotations : Annotations) (pod : Str) (now : Int)
    (err : ApiError → ReseedError) : (recordReseed codec annotations pod now err).Only (ForMember pod) := by
  refine ⟨trivial, ?_⟩
  rintro (e | a) <;> exact trivial

abbrev Cause := List (Str × Pod) → Str → Str → Prop

def Cause.Grows (P : Cause) : Prop := ∀ read pod shard name, P read shard name → P (read ++ [pod]) shard name

structure Done.Within (P : Cause) (w : Done) : Prop where
  pvcs : ∀ d ∈ w.pvcs, ∃ pod, d.2 = dataPvc pod ∧ P w.read d.1 pod
  pods : ∀ d ∈ w.pods, P w.read d.1 d.2

variable {P : Cause} {w : Done}

theorem Done.Within.mark (h : w.Within P) (shard : Str) : Done.Within P { w with shard } :=
  ⟨h.pvcs, h.pods⟩

theorem Done.Within.read (hP : P.Grows) (h : w.Within P) (pod : Str × Pod) :
    Done.Within P { w with read := w.read ++ [pod] } := by
  constructor
  · intro d hd
    obtain ⟨name, hn, hc⟩ := h.pvcs d hd
    exact ⟨name, hn, hP _ _ _ _ hc⟩
  · intro d hd
    exact hP _ _ _ _ (h.pods d hd)

theorem Done.Within.record (hP : P.Grows) {shard : Str} {r : ReseedReq} (a : r.Res)
    (hr : ForMember pod r) (h : w.shard = shard ∧ w.Within P ∧ P w.read shard pod) :
    (w.record r a).shard = shard ∧ (w.record r a).Within P ∧ P (w.record r a).read shard pod := by
  obtain ⟨hs, hw, hc⟩ := h
  cases r with
  | mark name => exact hr.elim
  | getPod name =>
    rcases a with e | obj
    · exact ⟨hs, hw, hc⟩
    · exact ⟨hs, hw.read hP _, hP _ _ _ _ hc⟩
  | deletePvc name =>
    refine ⟨hs, ⟨?_, hw.pods⟩, hc⟩
    intro d hd
    rcases mem_append.1 hd with hd | hd
    · exact hw.pvcs d hd
    · rw [mem_singleton.1 hd, hs]
      exact ⟨pod, hr, hc⟩
  | deletePod name force =>
    refine ⟨hs, ⟨hw.pvcs, ?_⟩, hc⟩
    intro d hd
    rcases mem_append.1 hd with hd | hd
    · exact hw.pods d hd
    · rw [mem_singleton.1 hd, hs, show name = pod from hr]
      exact hc
  | _ => exact ⟨hs, hw, hc⟩

/-- A program on one member stays within the causes if that member has one. -/
theorem after_forMember (hP : P.Grows) {α : Type} {p : Reseed α} (hp : p.Only (ForMember pod)) (hw : w.Within P)
    (hc : P w.read w.shard pod) :
    After anyApi p w fun _ w' => w'.shard = w.shard ∧ w'.Within P := by
  have ha : After anyApi p w fun _ w' => w'.shard = w.shard ∧ w'.Within P ∧ P w'.read w.shard pod :=
    hp.after (fun c r _ hr => Done.Within.record hP (c r) hr) ⟨rfl, hw, hc⟩
  exact ha.mono fun _ w' h => ⟨h.1, h.2.1⟩

/-- The shard has a ready primary and lists the replica as not ready, and its pod was old enough when it was read. -/
def staleCause (now : Int) : Cause := fun read shard name =>
  name ≠ [] ∧ ∃ ss ∈ shards, ss.name = shard ∧ (readyPrimary ss).isSome ∧
    (∃ rep ∈ ss.replicas, rep.ready = false ∧ rep.pod = name) ∧
    ∃ pod, (name, pod) ∈ read ∧ staleStandbyReseedTimeout ≤ now - pod.creationTimestamp

def rogueCause : Cause := fun _ shard name =>
  ∃ ss ∈ shards, ss.name = shard ∧ ∃ primary, readyPrimary ss = some primary ∧ name ≠ primary.pod ∧
    ∃ rep ∈ ss.replicas, rep.reason = roguePrimaryReason ∧ rep.pod = name

theorem grows_staleCause (now : Int) : (staleCause shards now).Grows := by
  rintro read pod shard name ⟨hne, ss, hss, hn, hp, hr, obj, ho, hold⟩
  exact ⟨hne, ss, hss, hn, hp, hr, obj, mem_append_left _ ho, hold⟩

section Loops

variable {P : Cause} (hP : P.Grows) {codec : Codec} {now : Int} {shards : List ShardStatus}

include hP

variable {w : Done}

theorem after_reseed {rep : ShardEndpoint} {t : Int} {annotations : Annotations}
    (err : ReseedError → ReseedError) (err' : ApiError → ReseedError) (hw : w.Within P)
    (hc : P w.read w.shard rep.pod) :
    After anyApi (do
      match ← reseedStandby rep.pod t with
      | .error e => pure (annotations, .error (err e))
      | .ok () => recordReseed codec annotations rep.pod now err') w fun _ w' =>
      w'.shard = w.shard ∧ w'.Within P := by
  refine after_forMember hP (Prog.Only.bind (only_reseedStandby _ _) ?_) hw hc
  rintro (e | ⟨⟩)
  · exact trivial
  · exact only_recordReseed ..

omit hP in
/-- The loop over the shards stays within the causes if each round does. -/
theorem after_reseedShards
    {f : ShardEndpoint → Annotations → ShardEndpoint → Reseed (Annotations × Except ReseedError Unit)}
    (h : ∀ ss ∈ shards, ∀ primary, readyPrimary ss = some primary → ∀ rep ∈ ss.replicas, ∀ annotations w,
      w.shard = ss.name ∧ w.Within P →
        After anyApi (f primary annotations rep) w fun _ w' => w'.shard = ss.name ∧ w'.Within P)
    (annotations : Annotations) (hw : w.Within P) :
    After anyApi (forEach (reseedShard f) annotations shards) w fun _ w' => w'.Within P := by
  refine after_forEach ?_ hw
  intro ss hss a w hw
  refine (after_ask (.mark ss.name) w).bind ?_
  rintro _ w₁ rfl
  cases hp : readyPrimary ss with
  | none => exact after_pure (hw.mark ss.name)
  | some primary =>
    have hl : After anyApi (forEach (f primary) a ss.replicas) (w.record (.mark ss.name) ())
        fun _ w' => w'.shard = ss.name ∧ w'.Within P :=
      after_forEach (h ss hss primary hp) ⟨rfl, hw.mark ss.name⟩
    exact hl.mono fun _ w' h => h.2

theorem after_reconcileStaleReplicas
    (hs : ∀ read shard name, staleCause shards now read shard name → P read shard name) (annotations : Annotations)
    (hw : w.Within P) :
    After anyApi (reconcileStaleReplicas codec now annotations shards) w fun _ w' => w'.Within P := by
  refine after_reseedShards ?_ annotations hw
  intro ss hss primary hp rep hrp annotations w hw
  unfold staleReplica
  split
  · exact after_pure hw
  · rename_i hsk
    refine (after_ask _ w).bind ?_
    rintro (e | pod) w₁ rfl
    · exact after_pure hw
    · have hw₁ := hw.2.read hP (rep.pod, pod)
      dsimp only
      split
      · exact after_pure ⟨hw.1, hw₁⟩
      split
      · exact after_pure ⟨hw.1, hw₁⟩
      · rename_i hy _
        obtain ⟨hr, hne⟩ : rep.ready = false ∧ rep.pod ≠ [] := by simpa using hsk
        have hc : staleCause shards now (w.read ++ [(rep.pod, pod)]) w.shard rep.pod :=
          ⟨hne, ss, hss, hw.1.symm, by rw [hp]; rfl, ⟨rep, hrp, hr, rfl⟩, pod, by simp, not_lt.1 hy⟩
        rw [← hw.1]
        exact after_reseed hP id _ hw₁ (hs _ _ _ hc)

theorem after_reconcileRoguePrimaries
    (hr : ∀ read shard name, rogueCause shards read shard name → P read shard name) (annotations : Annotations)
    (hw : w.Within P) :
    After anyApi (reconcileRoguePrimaries codec now annotations shards) w fun _ w' => w'.Within P := by
  refine after_reseedShards ?_ annotations hw
  intro ss hss primary hp rep hrp annotations w hw
  unfold roguePrimary
  split
  · exact after_pure hw
  split
  · exact after_pure hw
  · rename_i hs _
    simp only [Bool.or_eq_true, decide_eq_true_eq, not_or, ne_eq, not_not] at hs
    have hc : rogueCause shards w.read w.shard rep.pod :=
      ⟨ss, hss, hw.1.symm, primary, hp, hs.2, rep, hrp, hs.1.1, rfl⟩
    refine (after_ask .now w).bind ?_
    rintro t w₁ rfl
    rw [← hw.1]
    exact after_reseed hP _ _ hw.2 (hr _ _ _ hc)

end Loops

def twoDigits (n : Nat) : Str := itoaNat (n / 10 % 10) ++ itoaNat (n % 10)

def demoCodec : Codec where
  unmarshalStatus _ := none
  parseTime _ := none
  formatTime t :=
    let seconds := (t / second).toNat
    "1970-01-01T00:" ++ twoDigits (seconds / 60) ++ ":" ++ twoDigits (seconds % 60) ++ "Z"

end PostgresOperator.Cluster
