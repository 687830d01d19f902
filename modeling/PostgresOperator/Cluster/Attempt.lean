import PostgresOperator.Cluster.FenceFrame

/-!
# An attempt that promotes nobody

`executeClusterPromotion` fences the old primary and takes the fence off the candidate before the steps that can still
fail, and nothing puts the fences back.  Where an attempt ends is settled by what the API server and the script answer
(`Outcomes`): whether the old primary and the candidate are found to be ready, which requests fail and whether they
have an effect all the same, and what the script does.  From these one can tell which of the three changes of a fence
takes effect: that of the old primary, that of the candidate, and the deletion of the old primary's claim after a
script that had nothing to do.  An attempt that promotes nobody leaves the fences as they were exactly if none of them
does, or if the last one undoes the first (`failed_attempt_iff`).
-/

namespace PostgresOperator.Cluster

open Go Calls Volumes Prog ClaimList List

def SameFences (sts : Str) (w w' : Volumes) : Prop :=
  ∀ n, w'.claims.Fenced (dataPvc (memberPod sts n)) ↔ w.claims.Fenced (dataPvc (memberPod sts n))

/-! ### The outcomes of an attempt -/

/-- How each request of an attempt is answered, before the script has run (`false`) and after it (`true`). -/
abbrev Outcomes := Bool → PromoteReq → PromoteChoice

def PromoteReq.isExec : PromoteReq → Bool
  | .exec _ => true
  | _ => false

/-- Whether a pod counts as failed, from what was read of it. -/
def absentOrNotReady : Except ApiError Pod → Bool
  | .error e => isNotFound e
  | .ok pod => readyNotTrue pod.conditions true

namespace Outcomes

variable (o : Outcomes) (ns old : Str) (c : ShardEndpoint) (w : Volumes)

/-- The API server that answers so.  It notes whether the script has run. -/
abbrev api : Service PromoteApi (Volumes × Bool) where
  Choice := Unit
  answer _ r x := ((answer (o x.2 r) r x.1).1, (answer (o x.2 r) r x.1).2, r.isExec || x.2)
  Event := Empty
  happen e _ := nomatch e

def podRead (late : Bool) (pod : Str) : Except ApiError Pod := (o late (.reseed (.getPod pod))).reseed (.getPod pod)

/-- The old primary is another pod than the candidate, and is found to have failed. -/
def oldFailed (late : Bool) : Bool := decide (old ≠ [] ∧ old ≠ c.pod) && absentOrNotReady (o.podRead late old)

/-- The fence of a claim is changed: the claim was read and needs it, and the patch is not refused without effect. -/
def patches (pod : Str) (fence : Bool) : Bool :=
  let patch := o false (.patchFence (dataPvc pod) fence)
  (o false (.getClaim (dataPvc pod))).error.isNone &&
    (w.claims.get (dataPvc pod)).any (fun pvc => pvc.fenced != fence) && (patch.error.isNone || patch.applied)

/-- No error stops the attempt at this fence. -/
def passes (pod : Str) (fence : Bool) : Bool :=
  match (o false (.getClaim (dataPvc pod))).error with
  | some e => isNotFound e
  | none => (w.claims.get (dataPvc pod)).all fun pvc =>
    pvc.fenced == fence || (o false (.patchFence (dataPvc pod) fence)).error.isNone

/-- The claim of the old primary is fenced. -/
def preFences : Bool := o.oldFailed old c false && o.patches w old true

/-- The attempt comes to the claim of the candidate. -/
def reachesTarget : Bool :=
  (!o.oldFailed old c false || o.passes w old true) &&
    (match o.podRead false c.pod with
      | .error _ => false
      | .ok pod => (readyForExec c.pod pod).isOk) && ns ≠ []

/-- The fence of the candidate is taken off. -/
def unfences : Bool := o.reachesTarget ns old c w && o.patches w c.pod false

def reachesExec : Bool := o.reachesTarget ns old c w && o.passes w c.pod false

def promotes : Bool := o.reachesExec ns old c w && !w.primary c.pod && (o false (.exec c.pod)).promotes

/-- The script found the candidate to be primary already, and then the claim of the old primary is deleted. -/
def reseeds : Bool :=
  o.reachesExec ns old c w && w.primary c.pod && (o false (.exec c.pod)).error.isNone && o.oldFailed old c true &&
    Except.isOk ((o true (.reseed (.getPvc (dataPvc old)))).reseed (.getPvc (dataPvc old)) : Except ApiError Unit) &&
    (o true (.reseed (.deletePvc (dataPvc old)))).applied

/-- The candidate keeps its fence, and the old primary is not fenced, or its claim is deleted which had none
before. -/
def KeepsFences : Prop :=
  o.unfences ns old c w = false ∧
    if o.reseeds ns old c w then ¬ w.claims.Fenced (dataPvc old) else o.preFences old c w = false

end Outcomes

/-! ### Claims -/

variable {l : ClaimList} {name : Str}

theorem ClaimList.fenced_iff : l.Fenced name ↔ ∃ pvc, l.get name = some pvc ∧ pvc.fenced := by
  simp only [ClaimList.Fenced, get_eq_some, and_assoc]

theorem ClaimList.get_setFence {name' : Str} {b : Bool} :
    (l.setFence name b).get name' = (l.get name').map fun pvc => if name' = name then pvc.setFence b else pvc := by
  have hit : (l.setFence name b).items = l.items.map fun pvc => if pvc.name = name then pvc.setFence b else pvc := rfl
  have hn : ((fun pvc => decide (pvc.name = name')) ∘ fun pvc : PersistentVolumeClaim =>
      if pvc.name = name then pvc.setFence b else pvc) = fun pvc => decide (pvc.name = name') := by
    funext pvc
    simp only [Function.comp]
    split <;> rfl
  rw [ClaimList.get, hit, find?_map, hn]
  refine Option.map_congr ?_
  intro pvc hp
  rw [show pvc.name = name' by simpa using find?_some hp]

/-- A patch of one claim leaves the others as they are. -/
theorem ClaimList.fenced_setFence {name' : Str} {b : Bool} :
    (l.setFence name b).Fenced name' ↔ if name' = name then b ∧ (l.get name).isSome else l.Fenced name' := by
  rw [fenced_iff, get_setFence, fenced_iff]
  split
  · rename_i h
    subst h
    cases l.get name' <;> simp
  · simp

theorem ClaimList.fenced_delete {name' : Str} : (l.delete name).Fenced name' ↔ name' ≠ name ∧ l.Fenced name' := by
  simp only [Fenced, delete, mem_filter]
  constructor
  · rintro ⟨pvc, ⟨hp, hne⟩, rfl, hf⟩
    exact ⟨by simpa using hne, pvc, hp, rfl, hf⟩
  · rintro ⟨hne, pvc, hp, rfl, hf⟩
    exact ⟨pvc, ⟨hp, by simpa using hne⟩, rfl, hf⟩

/-! ### The stages -/

/-- The claims after a stage, and whether it lets the attempt go on; it promotes nobody. -/
structure Stage (w : Volumes) (late : Bool) (claims : ClaimList) (ok : Bool) (a : Except PromoteError Unit)
    (x : Volumes × Bool) : Prop where
  claims : x.1.claims = claims
  ok : Except.isOk a = ok
  promotions : x.1.promotions = w.promotions
  primary : x.1.primary = w.primary
  late : x.2 = late

theorem after_andThen {W α : Type} {S : Service PromoteApi W} {p : Promote (Except PromoteError Unit)}
    {q : Promote (Except PromoteError α)} {x : W} {Q : Except PromoteError α → W → Prop}
    (h : After S p x fun a x' => (∀ e, a = .error e → Q (.error e) x') ∧ (a = .ok () → After S q x' Q)) :
    After S (andThen p q) x Q := by
  refine h.bind ?_
  rintro (e | ⟨⟩) x' ⟨he, hok⟩
  · exact after_pure (he e rfl)
  · exact hok rfl

@[simp] theorem Volumes.reopened_primary (w : Volumes) (claim : Str) : (w.reopened claim).primary = w.primary := by
  unfold reopened
  split <;> rfl

section Stages

variable {o : Outcomes} {ns old pod shardName : Str} {c : ShardEndpoint} {d : Decision} {w : Volumes} {late : Bool}

theorem after_asked (r : PromoteReq) (x : Volumes × Bool) :
    After o.api (Prog.request (I := PromoteApi) r) x fun a x' => o.api.answer () r x = (a, x') := by
  intro a x' h
  obtain ⟨⟨⟩, hc⟩ := after_request a x' h
  exact hc

theorem after_oldPrimaryFailed :
    After o.api (oldPrimaryFailed old (some c)) (w, late) fun a x => a = o.oldFailed old c late ∧ x = (w, late) := by
  unfold oldPrimaryFailed Outcomes.oldFailed
  dsimp only
  split
  · rename_i hne
    rw [decide_eq_true hne, Bool.true_and]
    refine after_call fun _ => ?_
    change After o.api (reseeding (match o.podRead late old with
      | .error e => Pure.pure (isNotFound e)
      | .ok pod => Pure.pure (readyNotTrue pod.conditions true))) (w, late) _
    cases o.podRead late old with
    | error e => exact after_pure ⟨rfl, rfl⟩
    | ok obj => exact after_pure ⟨rfl, rfl⟩
  · rename_i hne
    rw [decide_eq_false hne, Bool.false_and]
    exact after_pure ⟨rfl, rfl⟩

/-- `fencePodPVC` and `unfenceTargetPVC` as one. -/
def setFenceOf (pod : Str) (fence : Bool) (err : ApiError → PromoteError) : Promote (Except PromoteError Unit) := do
  match ← getClaim (dataPvc pod) with
  | .error e => Pure.pure (if isNotFound e then .ok () else .error (.getClaim (dataPvc pod) e))
  | .ok pvc =>
    if pvc.fenced == fence then Pure.pure (.ok ())
    else match ← patchFence (dataPvc pod) fence with
      | .error e => Pure.pure (.error (err e))
      | .ok () => Pure.pure (.ok ())

theorem fencePodPVC_eq : fencePodPVC pod = setFenceOf pod true (.fenceClaim (dataPvc pod)) := by
  unfold fencePodPVC setFenceOf
  congr 1
  funext r
  cases r with
  | error e => rfl
  | ok pvc => exact if_congr (by rw [beq_true]) rfl rfl

theorem unfenceTargetPVC_eq : unfenceTargetPVC pod = setFenceOf pod false .patch := by
  unfold unfenceTargetPVC setFenceOf
  congr 1
  funext r
  cases r with
  | error e => rfl
  | ok pvc => exact if_congr (by rw [beq_false]) rfl rfl

theorem after_getClaim (name : Str) : After o.api (getClaim name) (w, false) fun a x => x = (w, false) ∧
    a = match (o false (.getClaim name)).error with
      | some e => .error e
      | none => match w.claims.get name with
        | some pvc => .ok pvc
        | none => .error (.notFound name) := by
  refine (after_asked (.getClaim name) _).mono ?_
  rintro _ _ ⟨⟩
  exact ⟨rfl, rfl⟩

/-- A patch may fail, or take effect and report an error. -/
theorem after_patchFence (fence : Bool) (hg : (w.claims.get name).isSome) :
    After o.api (patchFence name fence) (w, false) fun a x =>
      x.1.claims = (if (o false (.patchFence name fence)).error.isNone || (o false (.patchFence name fence)).applied
        then w.claims.setFence name fence else w.claims) ∧
      Except.isOk a = (o false (.patchFence name fence)).error.isNone ∧ x.1.promotions = w.promotions ∧
      x.1.primary = w.primary ∧ x.2 = false := by
  refine (after_asked (.patchFence name fence) _).mono ?_
  intro a x h
  generalize hp : o false (.patchFence name fence) = p at h ⊢
  obtain ⟨error, applied, _, _⟩ := p
  simp only [answer, hp, hg, if_true] at h
  cases error with
  | none =>
    cases h
    exact ⟨rfl, rfl, rfl, rfl, rfl⟩
  | some e =>
    cases h
    cases fence <;> cases applied <;> refine ⟨?_, rfl, ?_, ?_, rfl⟩ <;> simp [unfinished]

/-- Fencing and opening a pod's claim, with the case that it is already so or not there. -/
theorem after_setFenceOf (fence : Bool) (err : ApiError → PromoteError) :
    After o.api (setFenceOf pod fence err) (w, false) fun a x =>
      Stage w false (if o.patches w pod fence then w.claims.setFence (dataPvc pod) fence else w.claims)
        (o.passes w pod fence) a x := by
  unfold setFenceOf Outcomes.patches Outcomes.passes
  refine (after_getClaim _).bind ?_
  rintro _ _ ⟨rfl, rfl⟩
  cases (o false (.getClaim (dataPvc pod))).error with
  | some e =>
    refine after_pure ⟨by simp, ?_, rfl, rfl, rfl⟩
    dsimp only
    cases isNotFound e <;> rfl
  | none =>
    cases hg : w.claims.get (dataPvc pod) with
    | none => exact after_pure ⟨by simp, rfl, rfl, rfl, rfl⟩
    | some pvc =>
      dsimp only
      cases hf : pvc.fenced == fence with
      | true =>
        rw [if_pos rfl]
        exact after_pure ⟨by simp [bne, hf], by simp [hf, Except.isOk, Except.toBool], rfl, rfl, rfl⟩
      | false =>
        rw [if_neg Bool.false_ne_true]
        refine (after_patchFence fence (by rw [hg]; rfl)).bind ?_
        rintro a x ⟨hc, hok, hpm, hpr, hl⟩
        simp only [Option.isNone_none, Option.any_some, bne, hf, Bool.not_false, Bool.true_and, Option.all_some,
          Bool.false_or]
        rcases a with e | ⟨⟩
        · exact after_pure ⟨hc, hok, hpm, hpr, hl⟩
        · exact after_pure ⟨hc, hok, hpm, hpr, hl⟩

/-- The old primary is fenced first, if it was seen failed. -/
theorem after_preFence :
    After o.api (preFence old (some c)) (w, false) fun a x =>
      Stage w false (if o.preFences old c w then w.claims.setFence (dataPvc old) true else w.claims)
        (!o.oldFailed old c false || o.passes w old true) a x := by
  refine after_oldPrimaryFailed.bind ?_
  rintro failed _ ⟨hf, rfl⟩
  unfold Outcomes.preFences
  rw [← hf]
  cases failed with
  | false => exact after_pure ⟨rfl, rfl, rfl, rfl, rfl⟩
  | true =>
    rw [fencePodPVC_eq]
    refine (after_setFenceOf true _).bind ?_
    rintro (e | ⟨⟩) x ⟨hc, hok, hpm, hpr, hl⟩
    · exact after_pure ⟨hc, hok, hpm, hpr, hl⟩
    · exact after_pure ⟨hc, hok, hpm, hpr, hl⟩

theorem after_candidateReady : After o.api (candidateReady (some c)) (w, false) fun a x =>
    Stage w false w.claims (match o.podRead false c.pod with
      | .error _ => false
      | .ok pod => (readyForExec c.pod pod).isOk) a x := by
  refine after_call fun _ => ?_
  change After o.api (match o.podRead false c.pod with
    | .error e => Pure.pure (.error (.candidateUnknown c.pod e))
    | .ok pod => Pure.pure (readyForExec c.pod pod)) (w, false) _
  cases o.podRead false c.pod with
  | error e => exact after_pure ⟨rfl, rfl, rfl, rfl, rfl⟩
  | ok obj => exact after_pure ⟨rfl, rfl, rfl, rfl, rfl⟩

def Promotes (w : Volumes) (x : Volumes × Bool) : Prop := w.promotions.length < x.1.promotions.length

theorem lasting_promotes (w : Volumes) : o.api.Lasting (Promotes w) := by
  rintro - r ⟨w', late⟩ h
  refine lt_of_lt_of_le h ?_
  cases r with
  | reseed r =>
    cases r with
    | deletePvc name =>
      simp only [answer]
      split <;> exact le_rfl
    | _ => exact le_rfl
  | getClaim name => exact le_rfl
  | listClaims =>
    simp only [answer]
    split <;> exact le_rfl
  | patchFence name b =>
    simp only [answer]
    split
    · cases b <;> cases (o late (.patchFence name _)).applied <;> simp [unfinished]
    · split <;> exact le_rfl
  | exec pod =>
    simp only [answer, exec]
    split
    · simp
    split
    · split <;> simp
    · simp
  | patchStatus pod st => exact le_rfl

/-- The script has promoted the pod, or else it was primary before or the script fails. -/
theorem after_execPromotion : After o.api (execPromotion pod) (w, false) fun a x =>
    if !w.primary pod && (o false (.exec pod)).promotes then Promotes w x
    else x.1.claims = w.claims ∧ x.1.promotions = w.promotions ∧ x.2 = true ∧
      (∀ out, a = .ok out → out = noopOutput) ∧
      Except.isOk a = (w.primary pod && (o false (.exec pod)).error.isNone) := by
  refine (after_asked (.exec pod) _).mono ?_
  intro a x h
  simp only [answer, exec] at h
  cases hp : w.primary pod with
  | true =>
    simp only [hp, if_true] at h
    cases he : (o false (.exec pod)).error with
    | none =>
      simp only [he, Option.isSome_none] at h
      cases h
      simp [Except.isOk, Except.toBool, PromoteReq.isExec]
    | some e =>
      simp only [he, Option.isSome_some, if_true] at h
      cases h
      simp [Except.isOk, Except.toBool, PromoteReq.isExec]
  | false =>
    cases hq : (o false (.exec pod)).promotes with
    | true =>
      simp only [hp, hq, Bool.false_eq_true, if_false, if_true] at h
      split at h <;> cases h <;> simp [Promotes]
    | false =>
      simp only [hp, hq, Bool.false_eq_true, if_false] at h
      cases h
      simp [Except.isOk, Except.toBool, PromoteReq.isExec]

/-- What `promoteFromDecision` leaves for this candidate. -/
def AfterExec (o : Outcomes) (ns : Str) (c : ShardEndpoint) (w : Volumes) (ok : Bool) (x : Volumes × Bool) : Prop :=
  if ns ≠ [] && o.passes w c.pod false && !w.primary c.pod && (o false (.exec c.pod)).promotes then Promotes w x
  else x.1.claims =
    (if ns ≠ [] && o.patches w c.pod false then w.claims.setFence (dataPvc c.pod) false else w.claims) ∧
    x.1.promotions = w.promotions ∧ (ok → x.2) ∧
    ok = (ns ≠ [] && o.passes w c.pod false && w.primary c.pod && (o false (.exec c.pod)).error.isNone)

/-- What is done to the claims once the candidate is told to promote. -/
theorem after_execute (hne : c.pod ≠ []) (endpoint : Str) :
    After o.api (execute ns c.pod endpoint) (w, false) fun a x => AfterExec o ns c w (Except.isOk a) x := by
  unfold execute AfterExec
  split
  · rename_i hv
    have hns : ns = [] := hv.resolve_right hne
    exact after_pure (by simp [hns, Except.isOk, Except.toBool])
  · rename_i hv
    have hns : ns ≠ [] := fun hns => hv (.inl hns)
    rw [unfenceTargetPVC_eq]
    refine (after_setFenceOf false _).bind ?_
    rintro (e | ⟨⟩) ⟨w₁, late⟩ ⟨hc, hok, hpm, hpr, rfl⟩
    · refine after_pure ?_
      simp only [← hok]
      simpa [hns, Except.isOk, Except.toBool] using ⟨hc, hpm⟩
    · have hp : o.passes w c.pod false = true := hok.symm
      refine after_execPromotion.bind ?_
      intro a x h
      rw [show w₁.primary = w.primary from hpr] at h
      simp only [hns, ne_eq, not_false_eq_true, decide_true, hp, Bool.and_self, Bool.true_and]
      split at h
      · rename_i hq
        refine (after_lasting (lasting_promotes w₁) _ h).mono fun _ x' hx' => ?_
        rw [if_pos hq, Promotes, ← hpm]
        exact hx'
      · rename_i hq
        obtain ⟨hcl, hpm', hl, hout, hok'⟩ := h
        simp only [if_neg hq]
        rcases a with e | out
        · exact after_pure ⟨hcl.trans hc, hpm'.trans hpm, by simp [Except.isOk, Except.toBool], hok'⟩
        · obtain rfl := hout out rfl
          have hn : promotionActuallyHappened noopOutput = false := by decide +kernel
          dsimp only
          rw [hn, Bool.not_false, if_pos rfl]
          exact after_pure ⟨hcl.trans hc, hpm'.trans hpm, fun _ => hl, hok'⟩

theorem after_promoteFromDecision (hc : d.promotionCandidate = some c) (hne : c.pod ≠ []) :
    After o.api (promoteFromDecision ns shardName d) (w, false) fun a x => AfterExec o ns c w (Except.isOk a) x := by
  unfold promoteFromDecision
  rw [hc]
  refine (after_execute hne c.endpoint).bind ?_
  rintro (e | ⟨⟩) x h
  · exact after_pure h
  · exact after_pure h

theorem after_forPod {α : Type} {p : Reseed α} (hp : p.Only (ForPod pod)) (x : Volumes × Bool) :
    After o.api (reseeding p) x fun _ x' => x'.1 = x.1 := by
  have ho : (reseeding p).Only fun r => ∃ r', r = PromoteReq.reseed r' ∧ ForPod pod r' :=
    hp.embed fun r hr => ⟨r, rfl, hr⟩
  refine ho.after ?_ rfl
  rintro - _ y ⟨r, rfl, hr⟩ hy
  cases r with
  | deletePvc name => exact hr.elim
  | _ => exact hy

theorem reseeding_bind {α β : Type} (p : Reseed α) (f : α → Reseed β) :
    reseeding (p >>= f) = reseeding p >>= fun a => reseeding (f a) := by
  induction p with
  | pure a => rfl
  | call r k ih => exact congrArg (Prog.call (I := PromoteApi) (.reseed r)) (funext fun a => ih a)

theorem after_deletePvc (name : Str) :
    After o.api (reseeding (deletePvc name)) (w, true) fun _ x => x.1.promotions = w.promotions ∧
      x.1.claims = if (o true (.reseed (.deletePvc name))).applied then w.claims.delete name else w.claims := by
  have hw : ∀ v : Volumes, v = (answer (o true (.reseed (.deletePvc name))) (.reseed (.deletePvc name)) w).2 →
      v.promotions = w.promotions ∧
        v.claims = if (o true (.reseed (.deletePvc name))).applied then w.claims.delete name else w.claims := by
    rintro _ rfl
    simp only [answer]
    split <;> exact ⟨rfl, rfl⟩
  exact after_call fun _ => after_pure (hw _ rfl)

theorem after_reseedStandby (pod : Str) (now : Int) :
    After o.api (reseeding (reseedStandby pod now)) (w, true) fun _ x => x.1.promotions = w.promotions ∧
      x.1.claims =
        if Except.isOk ((o true (.reseed (.getPvc (dataPvc pod)))).reseed
          (.getPvc (dataPvc pod)) : Except ApiError Unit) &&
          (o true (.reseed (.deletePvc (dataPvc pod)))).applied
        then w.claims.delete (dataPvc pod) else w.claims := by
  have hrest : ∀ x : Volumes × Bool, After o.api (reseeding (reseedPod pod now)) x fun _ x' => x'.1 = x.1 :=
    after_forPod (only_reseedPod pod now)
  have hread : After o.api (reseeding (getPvc (dataPvc pod))) (w, true) fun a x =>
      a = (o true (.reseed (.getPvc (dataPvc pod)))).reseed (.getPvc (dataPvc pod)) ∧ x = (w, true) :=
    after_call fun _ => after_pure ⟨rfl, rfl⟩
  unfold reseedStandby
  rw [reseeding_bind]
  refine hread.bind ?_
  rintro _ _ ⟨rfl, rfl⟩
  rcases ((o true (.reseed (.getPvc (dataPvc pod)))).reseed (.getPvc (dataPvc pod)) : Except ApiError Unit)
    with e | ⟨⟩
  · dsimp only
    split
    · exact (hrest _).mono fun _ x hx => by rw [hx]; exact ⟨rfl, rfl⟩
    · exact after_pure ⟨rfl, rfl⟩
  · dsimp only
    rw [reseeding_bind]
    refine (after_deletePvc (dataPvc pod)).bind ?_
    intro a x hx
    rcases unlessNotFound (.deletePvc (dataPvc pod)) a with e | ⟨⟩
    · exact after_pure hx
    · exact (hrest _).mono fun _ x' hx' => by rwa [hx']

/-- The claim of the old primary is deleted only after a failure that was seen again. -/
theorem after_reseedOld : After o.api (reseedOld old (some c)) (w, true) fun _ x => x.1.promotions = w.promotions ∧
    x.1.claims = if o.oldFailed old c true &&
        Except.isOk ((o true (.reseed (.getPvc (dataPvc old)))).reseed
          (.getPvc (dataPvc old)) : Except ApiError Unit) &&
        (o true (.reseed (.deletePvc (dataPvc old)))).applied
      then w.claims.delete (dataPvc old) else w.claims := by
  refine after_oldPrimaryFailed.bind ?_
  rintro failed _ ⟨hf, rfl⟩
  rw [← hf]
  cases failed with
  | false => exact after_pure ⟨rfl, rfl⟩
  | true =>
    simp only [Bool.true_and]
    refine after_call fun _ => ?_
    refine (after_reseedStandby old _).bind ?_
    rintro (e | ⟨⟩) x hx
    · exact after_pure hx
    · exact after_pure hx

/-! ### The attempt -/

theorem executeClusterPromotion_eq {cluster : PostgresCluster} (hf : d.failed) (hc : d.promotionCandidate = some c) :
    executeClusterPromotion true cluster shardName d =
      andThen (preFence (shardPrimaryPod cluster shardName) (some c))
        (andThen (candidateReady (some c))
          (andThen (promoteFromDecision cluster.ns shardName d)
          (reseedOld (shardPrimaryPod cluster shardName) (some c)))) := by
  rw [executeClusterPromotion, hf, Bool.not_true, if_neg Bool.false_ne_true, if_neg Bool.false_ne_true, hc]

/-- The claims after an attempt that promotes nobody. -/
def Outcomes.claimsAfter (o : Outcomes) (ns old : Str) (c : ShardEndpoint) (w : Volumes) : ClaimList :=
  let fenced := if o.preFences old c w then w.claims.setFence (dataPvc old) true else w.claims
  let unfenced := if o.unfences ns old c w then fenced.setFence (dataPvc c.pod) false else fenced
  if o.reseeds ns old c w then unfenced.delete (dataPvc old) else unfenced

theorem Outcomes.old_ne_of_preFences (h : o.preFences old c w) : old ≠ c.pod := by
  simp only [preFences, oldFailed, Bool.and_eq_true, decide_eq_true_eq] at h
  exact h.1.1.2

theorem Outcomes.get_preFenced :
    (if o.preFences old c w then w.claims.setFence (dataPvc old) true else w.claims).get (dataPvc c.pod) =
      w.claims.get (dataPvc c.pod) := by
  split
  · rename_i hp
    have hd : dataPvc c.pod ≠ dataPvc old := fun hd => Outcomes.old_ne_of_preFences hp (dataPvc_inj hd).symm
    simp [get_setFence, hd]
  · rfl

/-- The three stages of an attempt, and the claims each of them leaves. -/
theorem after_attempt (hc : d.promotionCandidate = some c) (hne : c.pod ≠ []) :
    After o.api (andThen (preFence old (some c)) (andThen (candidateReady (some c))
      (andThen (promoteFromDecision ns shardName d) (reseedOld old (some c))))) (w, false) fun _ x =>
        if o.promotes ns old c w then Promotes w x
        else x.1.promotions = w.promotions ∧ x.1.claims = o.claimsAfter ns old c w := by
  unfold Outcomes.claimsAfter Outcomes.unfences Outcomes.reseeds Outcomes.promotes Outcomes.reachesExec
    Outcomes.reachesTarget
  refine after_andThen (after_preFence.mono ?_)
  rintro a ⟨w₁, late⟩ ⟨hcl, hok, hpm, hpr, rfl⟩
  rw [← hok]
  constructor
  · rintro e rfl
    simpa [Except.isOk, Except.toBool] using ⟨hpm, hcl⟩
  rintro rfl
  refine after_andThen (after_candidateReady.mono ?_)
  rintro a ⟨w₂, late⟩ ⟨hcl₂, hok₂, hpm₂, hpr₂, rfl⟩
  rw [← hok₂]
  constructor
  · rintro e rfl
    simpa [Except.isOk, Except.toBool] using ⟨hpm₂.trans hpm, hcl₂.trans hcl⟩
  rintro rfl
  -- the claim of the candidate is still the one that was there at the beginning
  have hget : w₂.claims.get (dataPvc c.pod) = w.claims.get (dataPvc c.pod) := by
    rw [show w₂.claims = w₁.claims from hcl₂, show w₁.claims = _ from hcl, Outcomes.get_preFenced]
  have hpt : o.patches w₂ c.pod false = o.patches w c.pod false := by unfold Outcomes.patches; rw [hget]
  have hps : o.passes w₂ c.pod false = o.passes w c.pod false := by unfold Outcomes.passes; rw [hget]
  refine after_andThen ((after_promoteFromDecision hc hne).mono ?_)
  rintro a ⟨w₃, late⟩ h
  have hprim : w₂.primary = w.primary := hpr₂.trans hpr
  have hpm₂' : w₂.promotions = w.promotions := hpm₂.trans hpm
  have hcl₂' : w₂.claims = if o.preFences old c w then w.claims.setFence (dataPvc old) true else w.claims :=
    hcl₂.trans hcl
  have hokk : Except.isOk (Except.ok () : Except PromoteError Unit) = true := rfl
  unfold AfterExec at h
  rw [hpt, hps, hprim, hcl₂', hpm₂'] at h
  simp only [hokk, Bool.true_and]
  split at h
  · rename_i hq
    have hq' : (Promotes w (w₃, late)) := by rw [Promotes, ← hpm₂']; exact h
    simp only [if_pos hq]
    exact ⟨fun _ _ => hq', fun _ => after_lasting (lasting_promotes w) _ hq'⟩
  · rename_i hq
    obtain ⟨hcl₃, hpm₃, hl, hok₃⟩ := h
    simp only [if_neg hq, ← hok₃]
    constructor
    · rintro e rfl
      exact ⟨hpm₃, by simpa [Except.isOk, Except.toBool] using hcl₃⟩
    · rintro rfl
      obtain rfl : late = true := hl rfl
      simp only [hokk, Bool.true_and]
      refine after_reseedOld.mono ?_
      rintro _ x ⟨hpm₄, hcl₄⟩
      exact ⟨hpm₄.trans hpm₃, by rw [hcl₄, show w₃.claims = _ from hcl₃]⟩

end Stages

theorem memberPod_ne_nil (sts : Str) (n : Nat) : memberPod sts n ≠ [] := by
  simp [memberPod, itoaNat_ne_nil]

section Fences

variable {o : Outcomes} {ns old sts : Str} {c : ShardEndpoint} {w : Volumes}

theorem Outcomes.fenced_of_patches {pod : Str} {fence : Bool} (h : o.patches w pod fence) :
    (w.claims.get (dataPvc pod)).isSome ∧ (w.claims.Fenced (dataPvc pod) ↔ fence = false) := by
  simp only [patches, Bool.and_eq_true, Option.any_eq_true] at h
  obtain ⟨⟨-, pvc, hg, hf⟩, -⟩ := h
  refine ⟨by rw [hg]; rfl, ?_⟩
  rw [fenced_iff]
  constructor
  · rintro ⟨pvc', hg', hf'⟩
    rw [hg] at hg'
    cases hg'
    cases fence
    · rfl
    · simp [hf'] at hf
  · rintro rfl
    exact ⟨pvc, hg, by simpa using hf⟩

theorem Outcomes.fenced_preFenced (name : Str) :
    (if o.preFences old c w then w.claims.setFence (dataPvc old) true else w.claims).Fenced name ↔
      w.claims.Fenced name ∨ o.preFences old c w ∧ name = dataPvc old := by
  split
  · rename_i hp
    have hs := (fenced_of_patches (Bool.and_eq_true_iff.1 hp).2).1
    rw [fenced_setFence]
    split
    · rename_i hn
      simp [hs, hp, hn]
    · rename_i hn
      simp [hn]
  · rename_i hp
    simp [hp]

/-- The fences of the two claims that an attempt can change, after it. -/
theorem Outcomes.fenced_claimsAfter (name : Str) :
    (o.claimsAfter ns old c w).Fenced name ↔
      (o.reseeds ns old c w → name ≠ dataPvc old) ∧ (o.unfences ns old c w → name ≠ dataPvc c.pod) ∧
        (w.claims.Fenced name ∨ o.preFences old c w ∧ name = dataPvc old) := by
  unfold claimsAfter
  rw [← fenced_preFenced name]
  generalize (if o.preFences old c w then w.claims.setFence (dataPvc old) true else w.claims) = l
  have hun : (if o.unfences ns old c w then l.setFence (dataPvc c.pod) false else l).Fenced name ↔
      (o.unfences ns old c w → name ≠ dataPvc c.pod) ∧ l.Fenced name := by
    split
    · rename_i hu
      rw [fenced_setFence]
      split <;> simp_all
    · rename_i hu
      simp [hu]
  rw [← hun]
  dsimp only
  split
  · rename_i hr
    simp [fenced_delete, hr]
  · rename_i hr
    simp [hr]

theorem Outcomes.old_ne_nil_of_reseeds (h : o.reseeds ns old c w) : old ≠ [] := by
  simp only [Outcomes.reseeds, Outcomes.oldFailed, Bool.and_eq_true, decide_eq_true_eq] at h
  exact h.1.1.2.1.1

theorem Outcomes.old_ne_nil_of_preFences (h : o.preFences old c w) : old ≠ [] := by
  simp only [Outcomes.preFences, Outcomes.oldFailed, Bool.and_eq_true, decide_eq_true_eq] at h
  exact h.1.1.1

/-- When an attempt leaves the fences of the set as they were. -/
theorem sameFences_iff {w' : Volumes} (hold : old ≠ [] → ∃ m, old = memberPod sts m)
    (hcand : ∃ k, c.pod = memberPod sts k)
    (hw : w'.claims = o.claimsAfter ns old c w) : SameFences sts w w' ↔ o.KeepsFences ns old c w := by
  unfold SameFences Outcomes.KeepsFences
  simp only [hw, Outcomes.fenced_claimsAfter]
  constructor
  · intro h
    obtain ⟨k, hk⟩ := hcand
    have hu : o.unfences ns old c w = false := by
      by_contra hu
      rw [Bool.not_eq_false] at hu
      have hf := (Outcomes.fenced_of_patches (Bool.and_eq_true_iff.1 hu).2).2.2 rfl
      rw [hk] at hf
      exact ((h k).2 hf).2.1 hu (by rw [hk])
    refine ⟨hu, ?_⟩
    split
    · rename_i hr
      intro hf
      obtain ⟨m, rfl⟩ := hold (Outcomes.old_ne_nil_of_reseeds hr)
      exact ((h m).2 hf).1 hr rfl
    · rename_i hr
      by_contra hp
      rw [Bool.not_eq_false] at hp
      obtain ⟨m, rfl⟩ := hold (Outcomes.old_ne_nil_of_preFences hp)
      have hf := (h m).1 ⟨fun h => absurd h hr, by simp [hu], .inr ⟨hp, rfl⟩⟩
      have := (Outcomes.fenced_of_patches (Bool.and_eq_true_iff.1 hp).2).2.1 hf
      cases this
  · rintro ⟨hu, hr⟩ n
    simp only [hu, Bool.false_eq_true, false_implies, true_and]
    split at hr
    · rename_i hrs
      constructor
      · rintro ⟨hne, hf | ⟨-, hn⟩⟩
        · exact hf
        · exact absurd hn (hne hrs)
      · intro hf
        refine ⟨?_, .inl hf⟩
        rintro - hn
        rw [hn] at hf
        exact hr hf
    · rename_i hrs
      simp [hr, hrs]

end Fences

/-- The claims and the pods after an attempt. -/
def Outcomes.volumesAfter (o : Outcomes) (configured : Bool) (cluster : PostgresCluster) (shardName : Str)
    (d : Decision)
    (w : Volumes) : Volumes :=
  ((executeClusterPromotion configured cluster shardName d).eval (o.api.answer ()) (w, false)).2.1

theorem Outcomes.volumesAfter_idle {o : Outcomes} {configured : Bool} {cluster : PostgresCluster} {shardName : Str}
    {d : Decision} {w : Volumes} (h : d.failed = false ∨ configured = false ∨ d.promotionCandidate = none) :
    o.volumesAfter configured cluster shardName d w = w := by
  unfold volumesAfter executeClusterPromotion
  rcases hf : d.failed
  · rfl
  rcases configured
  · rfl
  have hc : d.promotionCandidate = none := by simpa [hf] using h
  simp only [hc, Bool.not_true, Bool.false_eq_true, if_false, promoteFromDecision]
  rfl

/-- An attempt for members of a StatefulSet that promotes nobody leaves their fences as they were exactly if its
outcomes keep them. -/
theorem failed_attempt_iff (o : Outcomes) (configured : Bool) (cluster : PostgresCluster) (shardName : Str)
    (d : Decision)
    (w : Volumes) {sts : Str}
    (hold : shardPrimaryPod cluster shardName ≠ [] → ∃ m, shardPrimaryPod cluster shardName = memberPod sts m)
    (hcand : ∀ c, d.promotionCandidate = some c → ∃ k, c.pod = memberPod sts k) :
    ((o.volumesAfter configured cluster shardName d w).promotions = w.promotions →
      SameFences sts w (o.volumesAfter configured cluster shardName d w)) ↔
    (d.failed → configured → ∀ c, d.promotionCandidate = some c →
      o.promotes cluster.ns (shardPrimaryPod cluster shardName) c w ∨
        o.KeepsFences cluster.ns (shardPrimaryPod cluster shardName) c w) := by
  by_cases hidle : d.failed = false ∨ configured = false ∨ d.promotionCandidate = none
  · rw [Outcomes.volumesAfter_idle hidle]
    refine ⟨?_, fun _ _ n => Iff.rfl⟩
    rintro - hf hcf c hc
    rcases hidle with h | h | h
    · rw [hf] at h
      cases h
    · rw [hcf] at h
      cases h
    · rw [hc] at h
      cases h
  · push Not at hidle
    obtain ⟨hf, hcf, hc⟩ := hidle
    rw [Bool.ne_false_iff] at hf hcf
    subst hcf
    obtain ⟨c, hc⟩ := Option.ne_none_iff_exists'.1 hc
    obtain ⟨k, hk⟩ := hcand c hc
    have hend := ends_eval (S := o.api) () (executeClusterPromotion true cluster shardName d) (w, false)
    rw [executeClusterPromotion_eq hf hc] at hend
    have hfin := after_attempt hc (hk ▸ memberPod_ne_nil sts k) _ _ hend
    rw [← executeClusterPromotion_eq hf hc] at hfin
    change if _ then Promotes w _ else (o.volumesAfter true cluster shardName d w).promotions = w.promotions ∧
      (o.volumesAfter true cluster shardName d w).claims = _ at hfin
    simp only [hf, hc, Option.some.injEq, forall_const, forall_eq']
    split at hfin
    · rename_i hp
      refine ⟨fun _ => .inl hp, fun _ hpm => ?_⟩
      have hlt : w.promotions.length < (o.volumesAfter true cluster shardName d w).promotions.length := hfin
      rw [hpm] at hlt
      exact absurd hlt (lt_irrefl _)
    · rename_i hp
      rw [← sameFences_iff hold ⟨k, hk⟩ hfin.2]
      exact ⟨fun h => .inr (h hfin.1), fun h _ => h.resolve_left hp⟩

def execPod (name : Str) (h : name ≠ []) : Pod where
  name := name
  conditions := [{ type := "Ready", status := "True" }]
  containerStatuses := [{ name := "postgres", ready := true }]
  name_ne := h

/-- No member is promoted: the script fails in every pod that is not primary.  One pod, if it has a name, is ready,
and to read another one is the error `missing`. -/
def refusing (ready : Str) (missing : ApiError) : PromoteChoice where
  applied := true
  promotes := false
  reseed
    | .getPod name =>
      (if h : name ≠ [] then (if name = ready then .ok (execPod name h) else .error missing) else .error missing :
        Except ApiError Pod)
    | .getPvc _ | .deletePvc _ => (.ok () : Except ApiError Unit)
    | r => noReseed r

def shardOnFirst : PostgresCluster where
  ns := "default"
  name := "demo"
  shards := [{ name := "shard-0", ordinal := 0, primary := some { pod := "demo-shard-0-0" } }]
  ns_noSlash := default_noSlash

def promoteSecond : Decision := { failed := true, promotionCandidate := some { pod := "demo-shard-0-1" } }

private theorem nodup_openClaims :
    ([openClaim "demo-shard-0-0", openClaim "demo-shard-0-1"].map PersistentVolumeClaim.name).Nodup := by
  decide +kernel

/-- The old primary cannot be read, so that it is not fenced; the candidate has no fence, and the script fails. -/
theorem failed_attempt_iff_demo :
    let w : Volumes := { claims := ⟨[openClaim "demo-shard-0-0", openClaim "demo-shard-0-1"], nodup_openClaims⟩ }
    let o : Outcomes := fun _ _ => refusing "demo-shard-0-1" (.other [])
    SameFences "demo-shard-0" w (o.volumesAfter true shardOnFirst "shard-0" promoteSecond w) := by
  have hold : shardPrimaryPod shardOnFirst "shard-0" = memberPod "demo-shard-0" 0 := by decide +kernel
  have hc : "demo-shard-0-1" = memberPod "demo-shard-0" 1 := by decide +kernel
  refine (failed_attempt_iff _ true shardOnFirst "shard-0" promoteSecond _ (fun _ => ⟨0, hold⟩) ?_).2 ?_
    (by decide +kernel)
  · rintro _ ⟨⟩
    exact ⟨1, hc⟩
  · rintro - - _ ⟨⟩
    refine .inr ⟨by decide +kernel, ?_⟩
    rw [if_neg (by decide +kernel)]
    decide +kernel

/-- The old primary has no fence and is gone, and the candidate has one.  The script fails, so that nobody is
promoted, and then the old primary is fenced and the candidate is not. -/
theorem failed_attempt_moves_fence :
    let w : Volumes := { claims := ⟨[openClaim "demo-shard-0-0", fencedClaim "demo-shard-0-1"], by decide +kernel⟩ }
    let o : Outcomes := fun _ _ => refusing "demo-shard-0-1" (.notFound [])
    let w' := o.volumesAfter true shardOnFirst "shard-0" promoteSecond w
    w'.promotions = [] ∧ w'.claims.items.map (fun pvc => (pvc.name, pvc.fenced)) =
      [(dataPvc "demo-shard-0-0", true), (dataPvc "demo-shard-0-1", false)] := by
  decide +kernel

end PostgresOperator.Cluster
