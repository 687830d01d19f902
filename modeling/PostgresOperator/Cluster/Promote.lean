import PostgresOperator.Calls.Crash
import PostgresOperator.Cluster.Guard

/-!
# Promotion

`failover_promoter.go` and `failover/promotion.go`.  To promote a member the operator takes the fence off its claim,
runs a script in its pod, and, if the script says that it has promoted the member, fences the claims of all other
members and writes a status to the pod.  Before that it fences the claim of the old primary, and after it the old
primary is reseeded.

The claims are those of the API server (`Volumes`); every request can fail, with or without effect.  What the operator
reads of pods, and the deletes of a reseeding, are answered in any way.
-/

namespace PostgresOperator.Cluster

open Go Calls Function

/-! ### Requests -/

inductive PromoteReq
  | reseed (r : ReseedReq)
  | getClaim (name : Str)
  | listClaims
  | patchFence (name : Str) (fenced : Bool)
  | exec (pod : Str)
  | patchStatus (pod : Str) (st : Status)

/-- The answer to a request; for `exec` the output of the script, or the error. -/
def PromoteReq.Res : PromoteReq → Type
  | .reseed r => r.Res
  | .getClaim _ => Except ApiError PersistentVolumeClaim
  | .listClaims => Except ApiError (List PersistentVolumeClaim)
  | .patchFence _ _ | .patchStatus _ _ => Except ApiError Unit
  | .exec _ => Except Str Str

abbrev PromoteApi : Interface where
  Req := PromoteReq
  Res := PromoteReq.Res
  failed {r} a := match r, a with
    | .reseed r, a => ReseedApi.failed (r := r) a
    | .getClaim _, a | .listClaims, a | .patchFence _ _, a | .patchStatus _ _, a | .exec _, a => !Except.isOk a

abbrev Promote := Prog PromoteApi

def getClaim (name : Str) : Promote (Except ApiError PersistentVolumeClaim) :=
  Prog.request (I := PromoteApi) (.getClaim name)

def listClaims : Promote (Except ApiError (List PersistentVolumeClaim)) := Prog.request (I := PromoteApi) .listClaims

def patchFence (name : Str) (fenced : Bool) : Promote (Except ApiError Unit) :=
  Prog.request (I := PromoteApi) (.patchFence name fenced)

variable (pod podName : Str) (pvc : PersistentVolumeClaim) (cluster : PostgresCluster)
  (candidate : Option ShardEndpoint) (l : ClaimList) (w : Volumes)

def execPromotion : Promote (Except Str Str) := Prog.request (I := PromoteApi) (.exec pod)

def patchStatus (pod : Str) (st : Status) : Promote (Except ApiError Unit) :=
  Prog.request (I := PromoteApi) (.patchStatus pod st)

def reseeding {α : Type} (p : Reseed α) : Promote α := p.embed (J := PromoteApi) .reseed fun _ a => a

/-! ### The promoter -/

inductive PromoteError
  /-- promotion pod executor is not configured -/
  | notConfigured
  /-- get pvc %q: %w, get target pvc %q: %w -/
  | getClaim (pvc : Str) (e : ApiError)
  /-- fence pvc %q: %w, fence non-target pvc %q: %w -/
  | fenceClaim (pvc : Str) (e : ApiError)
  /-- pre-fence failed old primary %q: %w -/
  | preFence (pod : Str) (e : PromoteError)
  /-- promotion candidate pod %q not ready for promotion exec: %w -/
  | candidateUnknown (pod : Str) (e : ApiError)
  /-- promotion candidate pod %q not ready for promotion exec: deleting -/
  | candidateDeleting (pod : Str)
  /-- promotion candidate pod %q not ready for promotion exec: phase=%s -/
  | candidatePhase (pod : Str) (phase : PodPhase)
  /-- promotion candidate pod %q not ready for promotion exec: PodReady=%t -/
  | candidateNotReady (pod : Str) (ready : Bool)
  /-- promotion candidate pod %q not ready for promotion exec: container %q Ready=%t -/
  | containerNotReady (pod : Str) (ready : Bool)
  /-- build plan: failover: promotion plan requires non-nil candidate -/
  | noTarget
  /-- execute promotion plan for shard %q pod %q: %w -/
  | execute (shard pod : Str) (e : PromoteError)
  /-- invalid promotion target: namespace=%q pod=%q -/
  | invalidTarget (ns pod : Str)
  /-- unfence promotion target %q: %w -/
  | unfence (pod : Str) (e : PromoteError)
  /-- The patch that takes the fence off the target. -/
  | patch (e : ApiError)
  | exec (text : Str)
  /-- cannot derive statefulset name from target pod %q -/
  | noStatefulSet (pod : Str)
  /-- list pvcs: %w -/
  | listClaims (e : ApiError)
  /-- fence non-target members of %q: %w -/
  | fenceMembers (pod : Str) (e : PromoteError)
  /-- get promoted pod: %w -/
  | getPromoted (e : ApiError)
  /-- patch promoted pod status annotation: %w -/
  | patchStatus (e : ApiError)
  /-- reseed failed old primary %q: %w -/
  | reseed (pod : Str) (e : ReseedError)
  /-- switchover target %s is already primary -/
  | alreadyPrimary (pod : Str)
  /-- switchover target %s not found or not ready -/
  | targetNotFound (pod : Str)
  /-- switchover promotion of %s failed: %w -/
  | switchover (pod : Str) (e : PromoteError)
  /-- failed to clear switchover annotation: %w -/
  | clearTarget (e : ApiError)

def fencePodPVC : Promote (Except PromoteError Unit) := do
  match ← getClaim (dataPvc podName) with
  | .error e => pure (if isNotFound e then .ok () else .error (.getClaim (dataPvc podName) e))
  | .ok pvc =>
    if pvc.fenced then pure (.ok ())
    else match ← patchFence (dataPvc podName) true with
      | .error e => pure (.error (.fenceClaim (dataPvc podName) e))
      | .ok () => pure (.ok ())

def unfenceTargetPVC : Promote (Except PromoteError Unit) := do
  match ← getClaim (dataPvc podName) with
  | .error e => pure (if isNotFound e then .ok () else .error (.getClaim (dataPvc podName) e))
  | .ok pvc =>
    if !pvc.fenced then pure (.ok ())
    else match ← patchFence (dataPvc podName) false with
      | .error e => pure (.error (.patch e))
      | .ok () => pure (.ok ())

def fenceMember (stsName targetPod : Str) (pvc : PersistentVolumeClaim) :
    Promote (Unit × Except PromoteError Unit) := do
  if pvc.name = dataPvc targetPod || !(pvcStart stsName).isPrefixOf pvc.name then pure ((), .ok ())
  else if pvc.fenced then pure ((), .ok ())
  else match ← patchFence pvc.name true with
    | .error e => pure ((), .error (.fenceClaim pvc.name e))
    | .ok () => pure ((), .ok ())

def fenceNonTargetMembers (targetPod : Str) : Promote (Except PromoteError Unit) := do
  let stsName := statefulSetNameFromPod targetPod
  if stsName = [] then pure (.error (.noStatefulSet targetPod))
  else match ← listClaims with
    | .error e => pure (.error (.listClaims e))
    | .ok pvcs =>
      let r ← forEach (fun _ => fenceMember stsName targetPod) () pvcs
      pure r.2

def patchPromotedPodStatus (endpoint : Str) : Promote (Except PromoteError Unit) := do
  match ← reseeding (getPod pod) with
  | .error e => pure (.error (.getPromoted e))
  | .ok _ =>
    let now ← reseeding timeNow
    match ← patchStatus pod (promotedStatus endpoint now) with
    | .error e => pure (.error (.patchStatus e))
    | .ok () => pure (.ok ())

def promotedOutput : Str := "PROMOTE_RESULT=promoted"

def noopOutput : Str := "PROMOTE_RESULT=noop-already-primary"

def promotionActuallyHappened (output : Str) : Bool := output.tails.any promotedOutput.isPrefixOf

def execute (ns pod endpoint : Str) : Promote (Except PromoteError Unit) := do
  if ns = [] ∨ pod = [] then pure (.error (.invalidTarget ns pod))
  else match ← unfenceTargetPVC pod with
    | .error e => pure (.error (.unfence pod e))
    | .ok () => match ← execPromotion pod with
      | .error e => pure (.error (.exec e))
      | .ok out =>
        if !promotionActuallyHappened out then pure (.ok ())
        else match ← fenceNonTargetMembers pod with
          | .error e => pure (.error (.fenceMembers pod e))
          | .ok () => patchPromotedPodStatus pod endpoint

def promoteFromDecision (ns shardName : Str) (d : Decision) : Promote (Except PromoteError Unit) := do
  match d.promotionCandidate with
  | none => pure (.error .noTarget)
  | some c => match ← execute ns c.pod c.endpoint with
    | .error e => pure (.error (.execute shardName c.pod e))
    | .ok () => pure (.ok ())

/-! ### The callers -/

def shardPrimaryPod (shardName : Str) : Str :=
  match cluster.shards.find? fun s => s.name = shardName with
  | none => []
  | some s => (s.primary.map ShardEndpoint.pod).getD []

/-- What `promotionCandidateReadyForExec` says of the pod that it has read. -/
def readyForExec (pod : Pod) : Except PromoteError Unit :=
  if pod.deletionTimestamp.isSome then .error (.candidateDeleting podName)
  else if pod.phase ≠ .running then .error (.candidatePhase podName pod.phase)
  else if readyNotTrue pod.conditions true then .error (.candidateNotReady podName false)
  else match pod.containerStatuses.find? fun c => c.name = str "postgres" with
    | none => .error (.containerNotReady podName false)
    | some c => if c.ready then .ok () else .error (.containerNotReady podName false)

def promotionCandidateReadyForExec : Promote (Except PromoteError Unit) := do
  match ← reseeding (getPod podName) with
  | .error e => pure (.error (.candidateUnknown podName e))
  | .ok pod => pure (readyForExec podName pod)

def oldPrimaryFailed (oldPrimary : Str) (candidate : Option ShardEndpoint) : Promote Bool :=
  match candidate with
  | none => pure false
  | some c => if oldPrimary ≠ [] ∧ oldPrimary ≠ c.pod then reseeding (podAbsentOrNotReady oldPrimary) else pure false

def preFence (oldPrimary : Str) (candidate : Option ShardEndpoint) : Promote (Except PromoteError Unit) := do
  if ← oldPrimaryFailed oldPrimary candidate then
    match ← fencePodPVC oldPrimary with
    | .error e => pure (.error (.preFence oldPrimary e))
    | .ok () => pure (.ok ())
  else pure (.ok ())

def reseedOld (oldPrimary : Str) (candidate : Option ShardEndpoint) : Promote (Except PromoteError Unit) := do
  if ← oldPrimaryFailed oldPrimary candidate then
    let now ← reseeding timeNow
    match ← reseeding (reseedStandby oldPrimary now) with
    | .error e => pure (.error (.reseed oldPrimary e))
    | .ok () => pure (.ok ())
  else pure (.ok ())

def candidateReady : Promote (Except PromoteError Unit) :=
  match candidate with
  | none => pure (.ok ())
  | some c => promotionCandidateReadyForExec c.pod

def andThen {α : Type} (p : Promote (Except PromoteError Unit)) (q : Promote (Except PromoteError α)) :
    Promote (Except PromoteError α) := do
  match ← p with
  | .error e => pure (.error e)
  | .ok () => q

def executeClusterPromotion (configured : Bool) (cluster : PostgresCluster) (shardName : Str) (d : Decision) :
    Promote (Except PromoteError Unit) :=
  if !d.failed then pure (.ok ())
  else if !configured then pure (.error .notConfigured)
  else
    let oldPrimary := shardPrimaryPod cluster shardName
    andThen (preFence oldPrimary d.promotionCandidate) <|
      andThen (candidateReady d.promotionCandidate) <|
        andThen (promoteFromDecision cluster.ns shardName d) <|
          reseedOld oldPrimary d.promotionCandidate

def switchoverTargetKey : Str := "postgres.keiailab.io/switchover-target"

/-- The loop of `handleSwitchover`, with the endpoint found so far. -/
def switchoverEndpoint (targetPod : Str) : Str → List ShardStatus → Except PromoteError Str
  | endpoint, [] => .ok endpoint
  | endpoint, ss :: rest =>
    if ss.primary.any fun p => p.pod = targetPod then .error (.alreadyPrimary targetPod)
    else switchoverEndpoint targetPod
      (ss.replicas.foldl (fun ep rep => if rep.pod = targetPod && rep.ready then rep.endpoint else ep) endpoint) rest

def handleSwitchover (configured : Bool) (cluster : PostgresCluster) (shardStatuses : List ShardStatus) :
    Promote (Except PromoteError Unit) := do
  let targetPod := (cluster.annotations switchoverTargetKey).getD []
  if targetPod = [] then pure (.ok ())
  else if !configured then pure (.error .notConfigured)
  else match switchoverEndpoint targetPod [] shardStatuses with
    | .error e => pure (.error e)
    | .ok endpoint =>
      if endpoint = [] then pure (.error (.targetNotFound targetPod))
      else match ← execute cluster.ns targetPod endpoint with
        | .error e => pure (.error (.switchover targetPod e))
        | .ok () =>
          match ← reseeding (patchAnnotations (update cluster.annotations switchoverTargetKey none)) with
          | .error e => pure (.error (.clearTarget e))
          | .ok _ => pure (.ok ())

/-! ### The world -/

def PersistentVolumeClaim.setFence (fenced : Bool) : PersistentVolumeClaim :=
  { pvc with labels := update pvc.labels fenceLabelKey (if fenced then fenceLabelValue else []) }

@[simp] theorem PersistentVolumeClaim.setFence_name (b : Bool) :
    (pvc.setFence b).name = pvc.name := rfl

@[simp] theorem PersistentVolumeClaim.setFence_fenced (b : Bool) :
    (pvc.setFence b).fenced = b := by
  have hne : ([] : Str) ≠ fenceLabelValue := by decide +kernel
  cases b <;> simp [setFence, fenced, hne]

namespace ClaimList

def get (name : Str) : Option PersistentVolumeClaim := l.items.find? fun pvc => pvc.name = name

def setFence (l : ClaimList) (name : Str) (fenced : Bool) : ClaimList where
  items := l.items.map fun pvc => if pvc.name = name then pvc.setFence fenced else pvc
  nodup := by
    have hnames : (l.items.map fun pvc => if pvc.name = name then pvc.setFence fenced else pvc).map
        PersistentVolumeClaim.name =
        l.items.map PersistentVolumeClaim.name := by
      rw [List.map_map]
      refine List.map_congr_left fun pvc _ => ?_
      simp only [comp]
      split <;> rfl
    rw [hnames]
    exact l.nodup

def delete (name : Str) : ClaimList where
  items := l.items.filter fun pvc => pvc.name ≠ name
  nodup := l.nodup.sublist (List.filter_sublist.map _)

def create (pvc : PersistentVolumeClaim) : ClaimList :=
  if h : pvc.name ∈ l.items.map PersistentVolumeClaim.name then l
  else ⟨pvc :: l.items, by simpa using ⟨by simpa using h, l.nodup⟩⟩

def Fenced (name : Str) : Prop := ∃ pvc ∈ l.items, pvc.name = name ∧ pvc.fenced

end ClaimList

/-- What leaves members without a fence: an exec that has promoted the pod but does not say so, a list or a patch of
claims that fails after the pod was promoted in the same call, a claim without a fence that is made after another
member was promoted, or one whose fence was taken off and whose pod is then not promoted. -/
inductive Trouble
  | unreported (pod : Str)
  | unfinished (pod : Str)
  | unfenced (claim : Str)
  | reopened (claim : Str)
  deriving DecidableEq

/-- The claims, and the pods whose database has left recovery.  The rest is for statements: the pods that were
promoted, the last one first, the pod that was promoted in the current call, and the trouble there was. -/
structure Volumes where
  claims : ClaimList
  primary : Str → Bool := fun _ => false
  promotions : List Str := []
  current : Option Str := none
  trouble : List Trouble := []

/-- How a request is answered: with which error, if any; whether a failed write has an effect, and whether a claim
that is deleted is gone at once; whether the script promotes the member; and the answers to the requests of a
reseeding. -/
structure PromoteChoice where
  error : Option ApiError := none
  applied : Bool := false
  promotes : Bool := true
  reseed : (r : ReseedReq) → r.Res

/-- The StatefulSet controller makes a claim, a claim is deleted, or the database of a pod starts again, in recovery
or not. -/
inductive VolumeEvent
  | create (pvc : PersistentVolumeClaim)
  | delete (name : Str)
  | restart (pod : Str) (primary : Bool)

namespace Volumes

def promotedMember (sts : Str) : Option Str :=
  w.promotions.find? fun pod => statefulSetNameFromPod pod = sts

def unfinished (w : Volumes) : Volumes := { w with trouble := w.trouble ++ (w.current.map Trouble.unfinished).toList }

def beside (claim : Str) : Bool :=
  let pod := claim.drop (str "data-").length
  (w.promotedMember (statefulSetNameFromPod pod)).any fun p => p ≠ pod

def reopened (w : Volumes) (claim : Str) : Volumes :=
  if w.beside claim && (w.claims.get claim).any fun pvc => !pvc.fenced
    then { w with trouble := w.trouble ++ [.reopened claim] }
  else w

@[simp] theorem reopened_claims (claim : Str) : (w.reopened claim).claims = w.claims := by
  unfold reopened
  split <;> rfl

@[simp] theorem reopened_promotions (claim : Str) : (w.reopened claim).promotions = w.promotions := by
  unfold reopened
  split <;> rfl

def exec (c : PromoteChoice) (pod : Str) : Except Str Str × Volumes :=
  if w.primary pod then (if c.error.isSome then .error [] else .ok noopOutput, w.reopened (dataPvc pod))
  else if c.promotes then
    let w' := { w with primary := update w.primary pod true, promotions := pod :: w.promotions, current := some pod }
    if c.error.isSome then (.error [], { w' with trouble := w'.trouble ++ [.unreported pod] })
      else (.ok promotedOutput, w')
  else (.error [], w.reopened (dataPvc pod))

def answer (c : PromoteChoice) (r : PromoteReq) (w : Volumes) : r.Res × Volumes :=
  match r with
  | .reseed r =>
    (c.reseed r, match r with
      | .deletePvc name => if c.applied then { w with claims := w.claims.delete name } else w
      | _ => w)
  | .getClaim name =>
    (match c.error with
      | some e => .error e
      | none => match w.claims.get name with
        | some pvc => .ok pvc
        | none => .error (.notFound name), w)
  | .listClaims =>
    match c.error with
    | some e => (.error e, w.unfinished)
    | none => (.ok w.claims.items, w)
  | .patchFence name fenced =>
    match c.error with
    | some e =>
      let w' := if c.applied then { w with claims := w.claims.setFence name fenced } else w
      (.error e, if fenced then w'.unfinished else w'.unfinished.reopened name)
    | none =>
      if (w.claims.get name).isSome then (.ok (), { w with claims := w.claims.setFence name fenced })
      else (.error (.notFound name), w.unfinished)
  | .exec pod => w.exec c pod
  | .patchStatus _ _ =>
    (match c.error with
      | some e => .error e
      | none => .ok (), w)

def happen : VolumeEvent → Volumes
  | .delete name => { w with claims := w.claims.delete name }
  | .restart pod primary => { w with primary := update w.primary pod primary }
  | .create pvc =>
    { w with
      claims := w.claims.create pvc
      trouble := if !pvc.fenced && w.beside pvc.name then w.trouble ++ [.unfenced pvc.name] else w.trouble }

end Volumes

abbrev volumeApi : Service PromoteApi Volumes where
  Choice := PromoteChoice
  answer := Volumes.answer
  Event := VolumeEvent
  happen e w := some (w.happen e)

end PostgresOperator.Cluster
