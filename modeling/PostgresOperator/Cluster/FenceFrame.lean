import PostgresOperator.Cluster.Promote

/-!
# The claims that are fenced

`fenceNonTargetMembers` fences the claims whose names begin with `data-`, the name of the StatefulSet and a dash, and
`shouldSkipFencedCandidate` counts them as members.  These are the claims of the StatefulSet when no other claim of
the namespace that is not fenced has such a name (`fences_members_iff`); another StatefulSet whose name goes on after
the dash has claims of that kind.
-/

namespace PostgresOperator.Cluster

open Go Calls List Bool

namespace ClaimList

variable {l : ClaimList}

theorem get_eq_some {name : Str} {pvc : PersistentVolumeClaim} :
    l.get name = some pvc ↔ pvc ∈ l.items ∧ pvc.name = name := by
  constructor
  · intro h
    exact ⟨mem_of_find?_eq_some h, by simpa using find?_some h⟩
  · rintro ⟨hm, rfl⟩
    have hs : (l.get pvc.name).isSome := find?_isSome.2 ⟨pvc, hm, by simp⟩
    obtain ⟨pvc', hp'⟩ := Option.isSome_iff_exists.1 hs
    have hn : pvc'.name = pvc.name := by simpa using find?_some hp'
    rw [hp', inj_on_of_nodup_map l.nodup (mem_of_find?_eq_some hp') hm hn]

theorem get_isSome {name : Str} : (l.get name).isSome ↔ name ∈ l.items.map PersistentVolumeClaim.name := by
  simp [get]

theorem map_name_setFence (l : ClaimList) (name : Str) (b : Bool) :
    (l.setFence name b).items.map PersistentVolumeClaim.name = l.items.map PersistentVolumeClaim.name := by
  change (l.items.map fun pvc => if pvc.name = name then pvc.setFence b else pvc).map PersistentVolumeClaim.name = _
  rw [map_map]
  refine map_congr_left fun pvc _ => ?_
  simp only [Function.comp]
  split <;> rfl

theorem setFence_items {before after : List PersistentVolumeClaim} {pvc : PersistentVolumeClaim} {b : Bool}
    (h : l.items = before ++ pvc :: after) : (l.setFence pvc.name b).items = before ++ pvc.setFence b :: after := by
  have hn := l.nodup
  rw [h, map_append, map_cons, nodup_middle, nodup_cons, ← map_append] at hn
  have ho : ∀ l' : List PersistentVolumeClaim, (∀ x ∈ l', x ∈ before ++ after) →
      l'.map (fun x => if x.name = pvc.name then x.setFence b else x) = l' := by
    intro l' hl'
    refine (map_congr_left fun x hx => ?_).trans (map_id _)
    rw [if_neg]
    · rfl
    · intro hnm
      exact hn.1 (hnm ▸ mem_map_of_mem (hl' x hx))
  change l.items.map (fun x => if x.name = pvc.name then x.setFence b else x) = _
  rw [h, map_append, map_cons, if_pos rfl, ho before (by simp +contextual), ho after (by simp +contextual)]

end ClaimList

/-! ### What is fenced -/

def toFence (sts targetPod : Str) (pvc : PersistentVolumeClaim) : Bool :=
  !(pvc.name = dataPvc targetPod || !(pvcStart sts).isPrefixOf pvc.name) && !pvc.fenced

def afterFence (sts targetPod : Str) (pvc : PersistentVolumeClaim) : PersistentVolumeClaim :=
  if toFence sts targetPod pvc then pvc.setFence true else pvc

theorem answer_patchFence {c : PromoteChoice} {name : Str} {b : Bool} {w w' : Volumes} {a : Except ApiError Unit}
    (h : Volumes.answer c (.patchFence name b) w = (a, w')) :
    w'.claims = w.claims.setFence name b ∨ w'.claims = w.claims ∧ ∃ e, a = .error e := by
  unfold Volumes.answer at h
  cases he : c.error with
  | some e =>
    rw [he] at h
    dsimp only at h
    obtain ⟨rfl, rfl⟩ := Prod.mk.injEq .. ▸ h
    have hc : (if b then (if c.applied then { w with claims := w.claims.setFence name b } else w).unfinished
        else (if c.applied then { w with claims := w.claims.setFence name b } else w).unfinished.reopened
        name).claims =
        (if c.applied then { w with claims := w.claims.setFence name b } else w).claims := by
      cases b
      · exact Volumes.reopened_claims ..
      · rfl
    rw [hc]
    cases c.applied
    · exact .inr ⟨rfl, e, rfl⟩
    · exact .inl rfl
  | none =>
    rw [he] at h
    dsimp only at h
    split at h
    · cases h
      exact .inl rfl
    · cases h
      exact .inr ⟨rfl, _, rfl⟩

theorem answer_listClaims {c : PromoteChoice} {w w' : Volumes} {a : Except ApiError (List PersistentVolumeClaim)}
    (h : Volumes.answer c .listClaims w = (a, w')) :
    w'.claims = w.claims ∧ ∀ pvcs, a = .ok pvcs → pvcs = w.claims.items := by
  unfold Volumes.answer at h
  cases he : c.error with
  | some e =>
    rw [he] at h
    cases h
    exact ⟨rfl, by rintro pvcs ⟨⟩⟩
  | none =>
    rw [he] at h
    cases h
    exact ⟨rfl, by rintro pvcs ⟨⟩; rfl⟩

def Partly (f : PersistentVolumeClaim → PersistentVolumeClaim) (pvc pvc' : PersistentVolumeClaim) : Prop :=
  pvc' = pvc ∨ pvc' = f pvc

theorem partly_append {f : PersistentVolumeClaim → PersistentVolumeClaim} {x x' : PersistentVolumeClaim}
    (hx : Partly f x x') (before xs : List PersistentVolumeClaim) :
    List.Forall₂ (Partly f) (before ++ x :: xs) (before.map f ++ x' :: xs) := by
  induction before with
  | nil => exact List.Forall₂.cons hx (forall₂_same.2 fun y _ => .inl rfl)
  | cons y before ih => exact List.Forall₂.cons (.inr rfl) ih

section Loop

variable {sts targetPod : Str} {before xs : List PersistentVolumeClaim} {x : PersistentVolumeClaim} {w w' : Volumes}

theorem throughout_fenceMember (hw : w.claims.items = before.map (afterFence sts targetPod) ++ x :: xs) :
    Throughout volumeApi (fun _ _ => True) (fenceMember sts targetPod x) w fun a w' =>
      (a.2 = .ok () → w'.claims.items = (before ++ [x]).map (afterFence sts targetPod) ++ xs) ∧
        ∀ e, a.2 = .error e → List.Forall₂ (Partly (afterFence sts targetPod))
          (before ++ x :: xs) w'.claims.items := by
  have hd : (before ++ [x]).map (afterFence sts targetPod) ++ xs =
      before.map (afterFence sts targetPod) ++ afterFence sts targetPod x :: xs := by simp
  rw [hd]
  unfold fenceMember
  split
  · rename_i hs
    refine ⟨fun _ => ?_, by rintro e ⟨⟩⟩
    rw [hw, afterFence, if_neg (by simp [toFence, hs])]
  split
  · rename_i hf
    refine ⟨fun _ => ?_, by rintro e ⟨⟩⟩
    rw [hw, afterFence, if_neg (by simp [toFence, hf])]
  · rename_i hs hf
    have hx : afterFence sts targetPod x = x.setFence true := if_pos (by simp [toFence, hs, hf])
    refine (throughout_request trivial).bind ?_
    rintro a w' ⟨c, hc⟩
    rcases answer_patchFence hc with ht | ⟨hsm, e, rfl⟩
    · have hit : w'.claims.items = before.map (afterFence sts targetPod) ++ afterFence sts targetPod x :: xs := by
        rw [ht, ClaimList.setFence_items hw, hx]
      rcases a with e | ⟨⟩
      · refine ⟨by rintro ⟨⟩, fun _ _ => ?_⟩
        rw [hit]
        exact partly_append (.inr rfl) before xs
      · exact ⟨fun _ => hit, by rintro e ⟨⟩⟩
    · refine ⟨by rintro ⟨⟩, fun _ _ => ?_⟩
      rw [hsm, hw]
      exact partly_append (.inl rfl) before xs

/-- A call fences some of the claims it should, and touches no other. -/
theorem ends_fenceNonTargetMembers {r : Except PromoteError Unit}
    (h : Ends volumeApi (fenceNonTargetMembers targetPod) w r w') :
    List.Forall₂ (Partly (afterFence (statefulSetNameFromPod targetPod) targetPod)) w.claims.items w'.claims.items ∧
      (r = .ok () → w'.claims.items =
        w.claims.items.map (afterFence (statefulSetNameFromPod targetPod) targetPod)) := by
  have hl : Throughout volumeApi (fun _ _ => True) (fenceNonTargetMembers targetPod) w fun a w' =>
      List.Forall₂ (Partly (afterFence (statefulSetNameFromPod targetPod) targetPod)) w.claims.items w'.claims.items ∧
        (a = .ok () → w'.claims.items =
          w.claims.items.map (afterFence (statefulSetNameFromPod targetPod) targetPod)) := by
    have hs : List.Forall₂
        (Partly (afterFence (statefulSetNameFromPod targetPod) targetPod)) w.claims.items w.claims.items :=
      forall₂_same.2 fun y _ => .inl rfl
    unfold fenceNonTargetMembers
    dsimp only
    split
    · exact ⟨hs, by rintro ⟨⟩⟩
    refine (throughout_request trivial).bind ?_
    rintro a w₁ ⟨c, hc⟩
    obtain ⟨hcl, hp⟩ := answer_listClaims hc
    rcases a with e | pvcs
    · refine ⟨?_, by rintro ⟨⟩⟩
      rw [hcl]
      exact hs
    obtain rfl := hp pvcs rfl
    refine Throughout.bind (Q := fun a w' =>
      List.Forall₂ (Partly (afterFence (statefulSetNameFromPod targetPod) targetPod)) w.claims.items w'.claims.items ∧
        (a.2 = .ok () → w'.claims.items =
        w.claims.items.map (afterFence (statefulSetNameFromPod targetPod) targetPod)))
      ?_ fun a w' ha => throughout_pure ha
    refine throughout_forEach
      (K := fun rest w' => ∃ before, w.claims.items = before ++ rest ∧
        w'.claims.items = before.map (afterFence (statefulSetNameFromPod targetPod) targetPod) ++ rest) ?_ ?_
      ⟨[], rfl, by rw [hcl]; rfl⟩
    · rintro - w' ⟨before, hb, hw'⟩
      rw [hw', hb, append_nil, append_nil]
      exact ⟨forall₂_map_right_iff.2 (forall₂_same.2 fun y _ => .inr rfl), fun _ => rfl⟩
    · rintro x xs - w' ⟨before, hb, hw'⟩
      refine (throughout_fenceMember hw').mono ?_
      rintro a w'' ⟨hok, her⟩
      refine ⟨fun ha => ⟨before ++ [x], by simpa using hb, hok ha⟩, ?_⟩
      intro e he
      rw [hb]
      refine ⟨her e he, ?_⟩
      intro ha
      rw [he] at ha
      cases ha
  exact hl.ends h

end Loop

def noReseed : (r : ReseedReq) → r.Res
  | .now => (0 : Int)
  | .mark _ => ()
  | .getPod _ => (.error (.other []) : Except ApiError Pod)
  | .getNode _ => (.error (.other []) : Except ApiError (List Condition))
  | .patchAnnotations _ => (.error (.other []) : Except ApiError Annotations)
  | .getPvc _ | .deletePvc _ | .deletePod _ _ | .clearFinalizers _ => (.error (.other []) : Except ApiError Unit)

def answered : PromoteChoice := { reseed := noReseed }

/-- Without failures it ends well. -/
theorem reaches_fenceNonTargetMembers {targetPod : Str} (hsts : statefulSetNameFromPod targetPod ≠ []) (w : Volumes) :
    Reaches volumeApi (fenceNonTargetMembers targetPod) w fun a _ => a = .ok () := by
  unfold fenceNonTargetMembers
  dsimp only
  rw [if_neg hsts]
  refine (reaches_request answered).bind ?_
  rintro _ _ ⟨⟩
  -- the names of the claims stay, so that every patch finds its claim
  refine Reaches.bind (reaches_forEach_keeping
    (J := fun w' => w'.claims.items.map PersistentVolumeClaim.name = w.claims.items.map PersistentVolumeClaim.name) ?_
    rfl) ?_
  · intro pvc hp w' hw'
    unfold fenceMember
    split
    · exact reaches_pure ⟨rfl, hw'⟩
    split
    · exact reaches_pure ⟨rfl, hw'⟩
    · refine (reaches_request answered).bind ?_
      have hs : (w'.claims.get pvc.name).isSome := by
        rw [ClaimList.get_isSome, hw']
        exact mem_map_of_mem hp
      rintro a w'' ha
      change Volumes.answer answered (.patchFence pvc.name true) w' = _ at ha
      unfold Volumes.answer answered at ha
      dsimp only at ha
      rw [if_pos hs] at ha
      cases ha
      exact reaches_pure ⟨rfl, (ClaimList.map_name_setFence ..).trans hw'⟩
  · rintro _ w' ⟨rfl, -⟩
    exact reaches_pure rfl

/-! ### The members of the StatefulSet -/

section Members

open Classical

noncomputable def fenceOthers (sts : Str) (k : Nat) (pvc : PersistentVolumeClaim) : PersistentVolumeClaim :=
  if (∃ n, n ≠ k ∧ pvc.name = dataPvc (memberPod sts n)) ∧ pvc.fenced = false then pvc.setFence true else pvc

end Members

def OpenMember (claims : ClaimList) (sts pod : Str) : Prop :=
  (∃ n, pod = memberPod sts n) ∧ ∃ pvc ∈ claims.items, pvc.name = dataPvc pod ∧ pvc.fenced = false

/-- Every claim without a fence whose name begins like those of the StatefulSet is one of its own. -/
def OwnNames (claims : ClaimList) (sts : Str) : Prop :=
  ∀ pvc ∈ claims.items, pvc.fenced = false → (pvcStart sts).isPrefixOf pvc.name →
    ∃ n, pvc.name = dataPvc (memberPod sts n)

theorem isPrefixOf_memberPod (sts : Str) (n : Nat) : (pvcStart sts).isPrefixOf (dataPvc (memberPod sts n)) := by
  rw [ isPrefixOf_iff_prefix]
  exact ⟨itoaNat n, by simp [pvcStart, dataPvc, memberPod]⟩

theorem OwnNames.afterFence {claims : ClaimList} {sts : Str} (h : OwnNames claims sts) (k : Nat)
    {pvc : PersistentVolumeClaim}
    (hp : pvc ∈ claims.items) : afterFence sts (memberPod sts k) pvc = fenceOthers sts k pvc := by
  have hif : toFence sts (memberPod sts k) pvc ↔
      (∃ n, n ≠ k ∧ pvc.name = dataPvc (memberPod sts n)) ∧ pvc.fenced = false := by
    simp only [toFence, and_eq_true, not_eq_true', or_eq_false_iff, decide_eq_false_iff_not, not_eq_false']
    constructor
    · rintro ⟨⟨hne, hs⟩, hf⟩
      obtain ⟨n, hn⟩ := h pvc hp hf hs
      refine ⟨⟨n, ?_, hn⟩, hf⟩
      rintro rfl
      exact hne hn
    · rintro ⟨⟨n, hne, hn⟩, hf⟩
      refine ⟨⟨?_, ?_⟩, hf⟩
      · intro heq
        exact hne (memberPod_inj (dataPvc_inj (hn.symm.trans heq)))
      · rw [hn]
        exact isPrefixOf_memberPod sts n
  unfold Cluster.afterFence fenceOthers
  by_cases hc : toFence sts (memberPod sts k) pvc
  · rw [if_pos hc, if_pos (hif.1 hc)]
  · rw [if_neg hc, if_neg (fun h => hc (hif.2 h))]

/-- The members are counted right if and only if no other claim starts with the same name. -/
theorem mem_countedMembers_iff {claims : ClaimList} {sts : Str} :
    (∀ pod, pod ∈ countedMembers sts claims.items ↔ OpenMember claims sts pod) ↔ OwnNames claims sts := by
  have hd : ∀ {pvc : PersistentVolumeClaim}, (pvcStart sts).isPrefixOf pvc.name →
      dataPvc (pvc.name.drop (str "data-").length) = pvc.name := by
    intro pvc hs
    obtain ⟨rest, hr⟩ := isPrefixOf_iff_prefix.1 hs
    rw [← hr, pvcStart, append_assoc, append_assoc, drop_left, dataPvc]
  constructor
  · intro h pvc hp hf hs
    have hco : pvc.name.drop (str "data-").length ∈ countedMembers sts claims.items :=
      mem_map.2 ⟨pvc, mem_filter.2 ⟨hp, by simp [hs, hf]⟩, rfl⟩
    obtain ⟨⟨n, hn⟩, -⟩ := (h _).1 hco
    exact ⟨n, by rw [← hn, hd hs]⟩
  · intro h pod
    constructor
    · intro hpd
      obtain ⟨pvc, hp, rfl⟩ := mem_map.1 hpd
      obtain ⟨hm, hc⟩ := mem_filter.1 hp
      obtain ⟨hs, hf⟩ : (pvcStart sts).isPrefixOf pvc.name ∧ pvc.fenced = false := by simpa using hc
      obtain ⟨n, hn⟩ := h pvc hm hf hs
      refine ⟨⟨n, ?_⟩, pvc, hm, (hd hs).symm, hf⟩
      rw [hn, dataPvc, drop_left]
    · rintro ⟨⟨n, rfl⟩, pvc, hm, hnm, hf⟩
      refine mem_map.2 ⟨pvc, mem_filter.2 ⟨hm, ?_⟩, ?_⟩
      · simp [hnm, hf, isPrefixOf_memberPod]
      · rw [hnm, dataPvc, drop_left]

/-- Fencing beside a pod of a StatefulSet can succeed, then it fences the other members and changes nothing else, and
if it fails it fences only some of them. -/
structure FencesOthers (w : Volumes) (sts : Str) (k : Nat) : Prop where
  reaches : Reaches volumeApi (fenceNonTargetMembers (memberPod sts k)) w fun r _ => r = .ok ()
  exact_of_ok : ∀ w', Ends volumeApi (fenceNonTargetMembers (memberPod sts k)) w (.ok ()) w' →
    w'.claims.items = w.claims.items.map (fenceOthers sts k)
  partly : ∀ r w', Ends volumeApi (fenceNonTargetMembers (memberPod sts k)) w r w' →
    List.Forall₂ (Partly (fenceOthers sts k)) w.claims.items w'.claims.items

/-- A call for a pod of a StatefulSet fences its other members and nothing else, and the guard counts its members,
exactly if every claim without a fence whose name begins like theirs is one of them. -/
theorem fences_members_iff (w : Volumes) {sts : Str} (hsts : sts ≠ []) (k : Nat) :
    (FencesOthers w sts k ∧ ∀ pod, pod ∈ countedMembers sts w.claims.items ↔ OpenMember w.claims sts pod) ↔
      OwnNames w.claims sts := by
  rw [mem_countedMembers_iff]
  constructor
  · exact fun h => h.2
  · intro h
    have hn := statefulSetNameFromPod_memberPod hsts k
    refine ⟨⟨?_, ?_, ?_⟩, h⟩
    · exact reaches_fenceNonTargetMembers (by rwa [hn]) w
    · intro w' he
      rw [(ends_fenceNonTargetMembers he).2 rfl, hn]
      exact map_congr_left fun pvc hc => h.afterFence k hc
    · intro r w' he
      have hp := (ends_fenceNonTargetMembers he).1
      rw [hn] at hp
      have hm : ∀ {l l' : List PersistentVolumeClaim}, (∀ pvc ∈ l, pvc ∈ w.claims.items) →
          List.Forall₂ (Partly (afterFence sts (memberPod sts k))) l l' →
            List.Forall₂ (Partly (fenceOthers sts k)) l l' := by
        intro l l' hl hf
        induction hf with
        | nil => exact List.Forall₂.nil
        | cons hx hr ih =>
          refine List.Forall₂.cons ?_ (ih fun y hy => hl y (by simp [hy]))
          rw [Partly, ← h.afterFence k (hl _ (by simp))]
          exact hx
      exact hm (fun _ h => h) hp

theorem fences_members_iff_demo :
    let w : Volumes := { claims := ⟨[openClaim "demo-shard-0-0", openClaim "demo-shard-0-1"], by decide +kernel⟩ }
    FencesOthers w "demo-shard-0" 1 ∧
      ∀ pod, pod ∈ countedMembers "demo-shard-0" w.claims.items ↔ OpenMember w.claims "demo-shard-0" pod := by
  refine (fences_members_iff _ (by decide +kernel) 1).2 ?_
  intro pvc hp _ _
  rcases mem_cons.1 hp with rfl | hp
  · exact ⟨0, by decide +kernel⟩
  · rw [mem_singleton.1 hp]
    exact ⟨1, by decide +kernel⟩

def twoClusters : Volumes where
  claims := ⟨[openClaim "demo-shard-0-0", openClaim "demo-shard-0-1", openClaim "demo-shard-0-shard-0-0"],
    by decide +kernel⟩

/-- Fencing beside a member of a shard of the cluster `demo` fences the claim of the cluster `demo-shard-0`, and the
guard counts its pod as a member. -/
theorem other_cluster_fenced :
    "demo-shard-0" = shardStatefulSetName "demo" 0 ∧
    "demo-shard-0-shard-0-0" = memberPod (shardStatefulSetName "demo-shard-0" 0) 0 ∧
    ((fenceNonTargetMembers "demo-shard-0-1").play volumeApi twoClusters [answered, answered, answered]).map
        (fun x => (Except.isOk x.1, x.2.claims.items.map fun pvc => (pvc.name, pvc.fenced))) =
      some (true, [(dataPvc "demo-shard-0-0", true), (dataPvc "demo-shard-0-1", false),
        (dataPvc "demo-shard-0-shard-0-0", true)]) ∧
    str "demo-shard-0-shard-0-0" ∈ countedMembers (str "demo-shard-0") twoClusters.claims.items := by
  decide +kernel

end PostgresOperator.Cluster
