import PostgresOperator.Cluster.Attempt

/-!
# Fences over whole runs

Calls of `executeClusterPromotion` and `handleSwitchover` follow each other; a call ends, or the operator is stopped
in it, and claims are made and deleted at any time.  The members are fenced after the script that promotes one of
them, in the same call only.  They are all fenced if that call comes to its end, the fence is taken off no member that
is then not promoted, and no claim without a fence is made (`others_fenced`).
-/

namespace PostgresOperator.Cluster

open Go Calls Volumes List Option

def Trouble.Concerns (sts : Str) : Trouble → Prop
  | .unreported pod | .unfinished pod => statefulSetNameFromPod pod = sts
  | .unfenced claim | .reopened claim => ∃ n, claim = dataPvc (memberPod sts n)

namespace Volumes

def Clean (sts : Str) (w : Volumes) : Prop := ∀ t ∈ w.trouble, ¬ t.Concerns sts

/-- After a member was promoted, the claims of the others are fenced, those in `ex` apart. -/
def FencedBut (sts : Str) (ex : Str → Prop) (w : Volumes) : Prop :=
  ∀ p, w.promotedMember sts = some p → ∀ pvc ∈ w.claims.items, ∀ n, pvc.name = dataPvc (memberPod sts n) →
    memberPod sts n ≠ p → ¬ ex pvc.name → pvc.fenced

def Guarded (sts : Str) (ex : Str → Prop) (w : Volumes) : Prop := w.Clean sts → w.FencedBut sts ex

def Closed (sts : Str) (w : Volumes) : Prop := w.Guarded sts fun _ => False

def afterEvents (w : Volumes) (es : List VolumeEvent) : Volumes := es.foldl (fun w e => w.happen e) w

end Volumes

/-! ### What one step can do -/

section Steps

variable {sts : Str} {ex : Str → Prop} {w w' : Volumes}

theorem Volumes.promotedMember_congr (h : w'.promotions = w.promotions) (sts : Str) :
    w'.promotedMember sts = w.promotedMember sts := by
  rw [promotedMember, h, promotedMember]

theorem Volumes.promotedMember_of_nil (h : w.promotions = []) : w.promotedMember sts = none := by
  rw [promotedMember, h, find?_nil]

theorem Volumes.Clean.before (h : w'.Clean sts) (htr : w.trouble <+: w'.trouble) : w.Clean sts :=
  fun t ht => h t (htr.subset ht)

structure KeepsFences (sts : Str) (w w' : Volumes) : Prop where
  promoted : w'.promotedMember sts = w.promotedMember sts
  trouble : w.trouble <+: w'.trouble
  claims : ∀ pvc ∈ w'.claims.items, pvc.fenced ∨ pvc ∈ w.claims.items

theorem KeepsFences.guarded (h : KeepsFences sts w w') (hw : w.Guarded sts ex) : w'.Guarded sts ex := by
  intro hc p hp pvc hpc n hn hne hex
  rcases h.claims pvc hpc with hf | hm
  · exact hf
  · rw [h.promoted] at hp
    exact hw (hc.before h.trouble) p hp pvc hm n hn hne hex

theorem KeepsFences.refl (w : Volumes) : KeepsFences sts w w := ⟨rfl, prefix_rfl, fun _ h => .inr h⟩

theorem KeepsFences.trans {w'' : Volumes} (h : KeepsFences sts w w') (h' : KeepsFences sts w' w'') :
    KeepsFences sts w w'' := by
  refine ⟨h'.promoted.trans h.promoted, h.trouble.trans h'.trouble, ?_⟩
  intro pvc hp
  rcases h'.claims pvc hp with hf | hm
  · exact .inl hf
  · exact h.claims pvc hm

variable {ex' : Str → Prop}

theorem Volumes.Guarded.without (h : w.Guarded sts ex)
    (hex : ∀ name, ex name → ex' name ∨ ∀ n, name = dataPvc (memberPod sts n) →
      w.promotedMember sts = some (memberPod sts n)) :
    w.Guarded sts ex' := by
  intro hc p hp pvc hpc n hn hne ht
  refine h hc p hp pvc hpc n hn hne fun hx => ?_
  rcases hex _ hx with hx' | hpr
  · exact ht hx'
  · rw [hpr n hn] at hp
    exact hne (Option.some.inj hp)

theorem Volumes.Guarded.mono (h : w.Guarded sts ex) (hex : ∀ name, ex name → ex' name) : w.Guarded sts ex' :=
  h.without fun name hx => .inl (hex name hx)

theorem Volumes.beside_dataPvc (w : Volumes) (pod : Str) :
    w.beside (dataPvc pod) = (w.promotedMember (statefulSetNameFromPod pod)).any fun p => p ≠ pod := by
  rw [beside, dataPvc, drop_left]

theorem keepsFences_delete (sts : Str) (w : Volumes) (name : Str) : KeepsFences sts w
    { w with claims := w.claims.delete name } :=
  ⟨rfl, prefix_rfl, fun _ hp => .inr (mem_filter.1 hp).1⟩

/-- What the cluster does of its own accord opens no claim beside a promoted member. -/
theorem Volumes.Guarded.happen (hsts : sts ≠ []) (h : w.Guarded sts ex) (e : VolumeEvent) :
    (w.happen e).Guarded sts ex := by
  cases e with
  | delete name => exact (keepsFences_delete sts w name).guarded h
  | restart pod primary => exact h
  | create new =>
    intro hc p hp pvc hpc n hn hne hex
    have ht : w.trouble <+: (w.happen (.create new)).trouble := by
      simp only [Volumes.happen]
      split
      · exact prefix_append ..
      · exact prefix_rfl
    have hold : pvc ∈ w.claims.items → pvc.fenced := fun hm =>
      h (hc.before ht) p hp pvc hm n hn hne hex
    change pvc ∈ (w.claims.create new).items at hpc
    unfold ClaimList.create at hpc
    split at hpc
    · exact hold hpc
    rcases mem_cons.1 hpc with rfl | hm
    · -- a claim without a fence is trouble
      by_contra ho
      rw [Bool.not_eq_true] at ho
      have hb : w.beside pvc.name := by
        have hpr : w.promotedMember sts = some p := hp
        rw [hn, beside_dataPvc, statefulSetNameFromPod_memberPod hsts, hpr]
        simpa using hne.symm
      refine hc (.unfenced pvc.name) ?_ ⟨n, hn⟩
      simp [Volumes.happen, ho, hb]
    · exact hold hm

theorem Volumes.Guarded.afterEvents (hsts : sts ≠ []) (h : w.Guarded sts ex) (es : List VolumeEvent) :
    (w.afterEvents es).Guarded sts ex := by
  induction es generalizing w with
  | nil => exact h
  | cons e es ih => exact ih (h.happen hsts e)

theorem Volumes.afterEvents_same (w : Volumes) (es : List VolumeEvent) :
    (w.afterEvents es).promotions = w.promotions ∧ (w.afterEvents es).current = w.current := by
  induction es generalizing w with
  | nil => exact ⟨rfl, rfl⟩
  | cons e es ih =>
    obtain ⟨hp, hc⟩ := ih (w.happen e)
    cases e <;> exact ⟨hp, hc⟩

theorem Volumes.trouble_reopened (w : Volumes) (claim : Str) : w.trouble <+: (w.reopened claim).trouble := by
  unfold reopened
  split
  · exact prefix_append ..
  · exact prefix_rfl

theorem Volumes.trouble_unfinished (w : Volumes) : w.trouble <+: w.unfinished.trouble := prefix_append ..

theorem keepsFences_reopened (sts : Str) (w : Volumes) (claim : Str) : KeepsFences sts w (w.reopened claim) where
  promoted := promotedMember_congr (reopened_promotions ..) sts
  trouble := trouble_reopened ..
  claims pvc hp := .inr (by rwa [reopened_claims] at hp)

theorem keepsFences_unfinished (sts : Str) (w : Volumes) : KeepsFences sts w w.unfinished :=
  ⟨rfl, trouble_unfinished w, fun _ h => .inr h⟩

def Away (sts : Str) : PromoteReq → Prop
  | .patchFence name fenced => fenced ∨ ∀ n, name ≠ dataPvc (memberPod sts n)
  | .exec pod => statefulSetNameFromPod pod ≠ sts
  | _ => True

theorem Volumes.Guarded.setFence (h : w.Guarded sts ex) {name : Str} {b : Bool}
    (hn : b ∨ ∀ n, name = dataPvc (memberPod sts n) → ex' name) (hex : ∀ x, ex x → ex' x ∨ b ∧ x = name) :
    ({ w with claims := w.claims.setFence name b } : Volumes).Guarded sts ex' := by
  intro hc p hp pvc hpc n hpv hne ht
  obtain ⟨x, hx, rfl⟩ := mem_map.1 hpc
  by_cases hxn : x.name = name
  · rw [if_pos hxn] at hpv ht ⊢
    rw [PersistentVolumeClaim.setFence_name, hxn] at hpv ht
    rw [PersistentVolumeClaim.setFence_fenced]
    rcases hn with hb | hn
    · exact hb
    · exact absurd (hn n hpv) ht
  · rw [if_neg hxn] at hpv ht ⊢
    refine h hc p hp x hx n hpv hne fun he => ?_
    rcases hex x.name he with hex' | ⟨-, heq⟩
    · exact ht hex'
    · exact hxn heq

theorem keepsFences_patchFence (sts : Str) (c : PromoteChoice) (name : Str) (b : Bool) (w : Volumes) :
    ∃ w₁, (w₁ = w ∨ w₁ = { w with claims := w.claims.setFence name b }) ∧
      KeepsFences sts w₁ (answer c (.patchFence name b) w).2 := by
  simp only [answer]
  split
  · refine ⟨if c.applied then { w with claims := w.claims.setFence name b } else w, by split <;> simp, ?_⟩
    cases b with
    | true => exact keepsFences_unfinished sts _
    | false =>
      exact (keepsFences_unfinished sts _).trans (keepsFences_reopened ..)
  · split
    · exact ⟨_, Or.inr rfl, KeepsFences.refl _⟩
    · exact ⟨w, Or.inl rfl, keepsFences_unfinished sts w⟩

/-- Neither does a request that stays away from the set. -/
theorem Volumes.Guarded.answer {r : PromoteReq} (hr : Away sts r) (h : w.Guarded sts ex) (c : PromoteChoice) :
    (Volumes.answer c r w).2.Guarded sts ex := by
  cases r with
  | reseed r =>
    cases r with
    | deletePvc name =>
      simp only [Volumes.answer]
      split
      · exact (keepsFences_delete sts w name).guarded h
      · exact h
    | _ => exact h
  | getClaim name => exact h
  | listClaims =>
    simp only [Volumes.answer]
    split
    · exact (keepsFences_unfinished sts w).guarded h
    · exact h
  | patchFence name fenced =>
    obtain ⟨w₁, hw₁, hk⟩ := keepsFences_patchFence sts c name fenced w
    refine hk.guarded ?_
    rcases hw₁ with rfl | rfl
    · exact h
    · exact h.setFence (hr.imp_right fun hne n heq => absurd heq (hne n)) fun x hx => .inl hx
  | exec pod =>
    simp only [Volumes.answer, exec]
    split
    · exact (keepsFences_reopened sts w _).guarded h
    split
    · have hne : statefulSetNameFromPod pod ≠ sts := hr
      have hpr : ({ w with promotions := pod :: w.promotions } : Volumes).promotedMember sts = w.promotedMember sts :=
        find?_cons_of_neg (by simpa using hne)
      split
      · exact KeepsFences.guarded ⟨hpr, prefix_append .., fun _ hp => .inr hp⟩ h
      · exact KeepsFences.guarded ⟨hpr, prefix_rfl, fun _ hp => .inr hp⟩ h
    · exact (keepsFences_reopened sts w _).guarded h
  | patchStatus pod st => exact h

end Steps

/-! ### The calls -/

/-- The operator is stopped while members have no fence: after the script has promoted one and before the others are
fenced, or before the script in a member whose fence was taken off. -/
def StopsOpen (sts : Str) (w : Volumes) : PromoteReq → Prop
  | .listClaims | .patchFence _ _ => ∃ p, w.current = some p ∧ statefulSetNameFromPod p = sts
  | .exec pod => statefulSetNameFromPod pod = sts ∧ w.beside (dataPvc pod) ∧
      ∃ pvc, w.claims.get (dataPvc pod) = some pvc ∧ pvc.fenced = false
  | _ => False

def AtStop (sts : Str) (r : PromoteReq) (w : Volumes) : Prop := ¬ StopsOpen sts w r → w.Closed sts

section Programs

variable {sts pod : Str} {ex : Str → Prop} {w : Volumes}

/-- A program that stays away from the set keeps it closed, wherever it stops. -/
theorem throughout_away {α : Type} {p : Promote α} (hsts : sts ≠ []) (hp : p.Only (Away sts)) (hw : w.Closed sts) :
    Throughout volumeApi.busy (AtStop sts) p w fun _ w' => w'.Closed sts := by
  refine hp.throughout (K := Volumes.Closed sts) (fun r w _ hw _ => hw) ?_ hw
  intro c r w hr hw
  exact (Volumes.Guarded.afterEvents hsts hw c.1).answer hr c.2

theorem only_reseeding {α : Type} (p : Reseed α) : (reseeding p).Only (Away sts) := by
  induction p with
  | pure a => trivial
  | call r k ih => exact ⟨trivial, ih⟩

theorem Volumes.Guarded.closed (hd : statefulSetNameFromPod pod = sts) (h : w.Guarded sts (· = dataPvc pod))
    (ho : ∀ n, memberPod sts n = pod →
      ¬ (w.beside (dataPvc pod) ∧ ∃ pvc, w.claims.get (dataPvc pod) = some pvc ∧ pvc.fenced = false)) :
    w.Closed sts := by
  intro hc p hp pvc hpc n hn hne _
  by_cases hex : pvc.name = dataPvc pod
  · by_contra hf
    have hm : memberPod sts n = pod := dataPvc_inj (hn.symm.trans hex)
    refine ho n hm ⟨?_, pvc, ClaimList.get_eq_some.2 ⟨hpc, hex⟩, by simpa using hf⟩
    rw [beside_dataPvc, hd, hp, ← hm]
    simpa using hne.symm
  · exact h hc p hp pvc hpc n hn hne hex

theorem closed_reopened (hp : statefulSetNameFromPod pod = sts) (h : w.Guarded sts (· = dataPvc pod)) :
    (w.reopened (dataPvc pod)).Closed sts := by
  intro hc
  refine ((keepsFences_reopened sts w _).guarded h).closed hp ?_ hc
  rintro n hn ⟨hb, pvc, hg, hf⟩
  rw [beside_dataPvc, promotedMember_congr (reopened_promotions ..), ← beside_dataPvc] at hb
  rw [reopened_claims] at hg
  refine hc (.reopened (dataPvc pod)) ?_ ⟨n, by rw [hn]⟩
  simp [reopened, hb, hg, hf]

theorem guarded_unfinished (hr : w.current = some pod) (hp : statefulSetNameFromPod pod = sts) :
    w.unfinished.Guarded sts ex := by
  intro hc
  exact absurd hp (hc (.unfinished pod) (by simp [unfinished, hr]))

variable {c : PromoteChoice} {w' : Volumes}

/-- Opening the target's claim is the one request that opens something. -/
theorem answer_unfence (hp : statefulSetNameFromPod pod = sts) (h : w.Closed sts) {a : Except ApiError Unit}
    (hc : answer c (.patchFence (dataPvc pod) false) w = (a, w')) :
    (∀ e, a = .error e → w'.Closed sts) ∧ w'.Guarded sts (· = dataPvc pod) := by
  have ht : ({ w with claims := w.claims.setFence (dataPvc pod) false } : Volumes).Guarded sts (· = dataPvc pod) :=
    Volumes.Guarded.setFence h (.inr fun _ _ => rfl) fun _ => False.elim
  have hs : w.Guarded sts (· = dataPvc pod) := h.mono fun _ => False.elim
  unfold answer at hc
  cases he : c.error with
  | some e =>
    simp only [he, Bool.false_eq_true, if_false] at hc
    obtain ⟨-, rfl⟩ := Prod.mk.inj hc
    have hpt : (if c.applied then { w with claims := w.claims.setFence (dataPvc pod) false } else w).Guarded sts
        (· = dataPvc pod) := by
      split
      · exact ht
      · exact hs
    have hcl := closed_reopened hp ((keepsFences_unfinished sts _).guarded hpt)
    exact ⟨fun _ _ => hcl, hcl.mono fun _ => False.elim⟩
  | none =>
    simp only [he] at hc
    split at hc
    · obtain ⟨rfl, rfl⟩ := Prod.mk.inj hc
      exact ⟨by rintro e ⟨⟩, ht⟩
    · obtain ⟨rfl, rfl⟩ := Prod.mk.inj hc
      exact ⟨fun _ _ => (keepsFences_unfinished sts w).guarded h, (keepsFences_unfinished sts w).guarded hs⟩

/-- Either the member is promoted, or the set is closed again. -/
theorem answer_exec (hp : statefulSetNameFromPod pod = sts) (h : w.Guarded sts (· = dataPvc pod))
    {a : Except Str Str} (hc : w.exec c pod = (a, w')) :
    (a = .ok promotedOutput ∧ w'.promotedMember sts = some pod ∧ w'.current = some pod) ∨
      ((∀ out, a = .ok out → out = noopOutput) ∧ w'.Closed sts) := by
  unfold exec at hc
  split at hc
  · obtain ⟨rfl, rfl⟩ := Prod.mk.inj hc
    refine .inr ⟨?_, closed_reopened hp h⟩
    intro out ho
    split at ho <;> cases ho
    rfl
  split at hc
  · dsimp only at hc
    split at hc
    · obtain ⟨rfl, rfl⟩ := Prod.mk.inj hc
      refine .inr ⟨by rintro out ⟨⟩, fun hcl => ?_⟩
      exact absurd hp (hcl (.unreported pod) (by simp))
    · obtain ⟨rfl, rfl⟩ := Prod.mk.inj hc
      exact .inl ⟨rfl, find?_cons_of_pos (by simpa using hp), rfl⟩
  · obtain ⟨rfl, rfl⟩ := Prod.mk.inj hc
    exact .inr ⟨by rintro out ⟨⟩, closed_reopened hp h⟩

theorem throughout_unfenceTargetPVC (hsts : sts ≠ []) (hp : statefulSetNameFromPod pod = sts) (hw : w.Closed sts) :
    Throughout volumeApi.busy (AtStop sts) (unfenceTargetPVC pod) w fun a w' =>
      (∀ e, a = .error e → w'.Closed sts) ∧ w'.Guarded sts (· = dataPvc pod) := by
  have hm : ∀ {w' : Volumes}, w'.Closed sts → w'.Guarded sts (· = dataPvc pod) := fun h => h.mono fun _ => False.elim
  have hr : (getClaim (dataPvc pod)).Only (Away sts) := ⟨trivial, fun _ => trivial⟩
  refine (throughout_away hsts hr hw).bind ?_
  rintro (e | pvc) w₁ hw₁
  · exact throughout_pure ⟨fun _ _ => hw₁, hm hw₁⟩
  dsimp only
  split
  · exact throughout_pure ⟨fun _ _ => hw₁, hm hw₁⟩
  refine (throughout_request fun _ => hw₁).bind ?_
  rintro a w₂ ⟨⟨es, c⟩, hc⟩
  have hu := answer_unfence hp (Volumes.Guarded.afterEvents hsts hw₁ es) hc
  rcases a with e | ⟨⟩
  · exact throughout_pure ⟨fun _ _ => hu.1 e rfl, hu.2⟩
  · exact throughout_pure ⟨by rintro e ⟨⟩, hu.2⟩

theorem throughout_execPromotion (hsts : sts ≠ []) (hp : statefulSetNameFromPod pod = sts)
    (hw : w.Guarded sts (· = dataPvc pod)) :
    Throughout volumeApi.busy (AtStop sts) (execPromotion pod) w fun a w' =>
      (a = .ok promotedOutput ∧ w'.promotedMember sts = some pod ∧ w'.current = some pod) ∨
        ((∀ out, a = .ok out → out = noopOutput) ∧ w'.Closed sts) := by
  have hs : AtStop sts (.exec pod) w := fun hs => hw.closed hp fun _ _ ho => hs ⟨hp, ho⟩
  refine (throughout_request hs).mono ?_
  rintro a w' ⟨⟨es, c⟩, hc⟩
  exact answer_exec hp (hw.afterEvents hsts es) hc

/-- The member was promoted in this call, and the claims in `rest` are still to be fenced. -/
structure Fencing (sts pod : Str) (rest : List PersistentVolumeClaim) (w : Volumes) : Prop where
  promoted : w.promotedMember sts = some pod
  current : w.current = some pod
  guarded : w.Guarded sts fun name => ∃ x ∈ rest, x.name = name ∧ x.fenced = false

theorem Fencing.afterEvents {rest : List PersistentVolumeClaim} (hsts : sts ≠ []) (h : Fencing sts pod rest w)
    (es : List VolumeEvent) : Fencing sts pod rest (w.afterEvents es) := by
  obtain ⟨hp, hc⟩ := w.afterEvents_same es
  exact ⟨(promotedMember_congr hp sts).trans h.promoted, hc.trans h.current, h.guarded.afterEvents hsts es⟩

theorem answer_fence {x : PersistentVolumeClaim} {xs : List PersistentVolumeClaim}
    (hp : statefulSetNameFromPod pod = sts)
    (h : Fencing sts pod (x :: xs) w) {a : Except ApiError Unit}
    (hc : answer c (.patchFence x.name true) w = (a, w')) :
    (a = .ok () → Fencing sts pod xs w') ∧ ∀ e, a = .error e → w'.Closed sts := by
  unfold answer at hc
  cases he : c.error with
  | some e =>
    simp only [he, if_true] at hc
    obtain ⟨rfl, rfl⟩ := Prod.mk.inj hc
    refine ⟨by rintro ⟨⟩, fun _ _ => guarded_unfinished ?_ hp⟩
    split <;> exact h.current
  | none =>
    simp only [he] at hc
    split at hc
    · obtain ⟨rfl, rfl⟩ := Prod.mk.inj hc
      refine ⟨fun _ => ⟨h.promoted, h.current, h.guarded.setFence (.inl rfl) ?_⟩, by rintro e ⟨⟩⟩
      rintro name ⟨y, hy, hn, ho⟩
      rcases mem_cons.1 hy with rfl | hy
      · exact .inr ⟨rfl, hn.symm⟩
      · exact .inl ⟨y, hy, hn, ho⟩
    · obtain ⟨rfl, rfl⟩ := Prod.mk.inj hc
      exact ⟨by rintro ⟨⟩, fun _ _ => guarded_unfinished h.current hp⟩

/-- One round of the loop fences one claim more. -/
theorem throughout_fenceRound {x : PersistentVolumeClaim} {xs : List PersistentVolumeClaim} (hsts : sts ≠ [])
    (hp : statefulSetNameFromPod pod = sts) (hw : Fencing sts pod (x :: xs) w) :
    Throughout volumeApi.busy (AtStop sts) (fenceMember sts pod x) w fun a w' =>
      (a.2 = .ok () → Fencing sts pod xs w') ∧ ∀ e, a.2 = .error e → w'.Closed sts := by
  unfold fenceMember
  split
  · rename_i hsk
    refine throughout_pure ⟨fun _ => ⟨hw.promoted, hw.current, hw.guarded.without ?_⟩, by rintro e ⟨⟩⟩
    rintro name ⟨y, hy, hnm, ho⟩
    rcases mem_cons.1 hy with rfl | hy
    · refine .inr fun n hn => ?_
      rw [← hnm] at hn
      rw [hn, isPrefixOf_memberPod, Bool.not_true, Bool.or_false, decide_eq_true_eq] at hsk
      rw [dataPvc_inj hsk]
      exact hw.promoted
    · exact .inl ⟨y, hy, hnm, ho⟩
  split
  · rename_i hfn
    refine throughout_pure ⟨fun _ => ⟨hw.promoted, hw.current, hw.guarded.mono ?_⟩, by rintro e ⟨⟩⟩
    rintro name ⟨y, hy, hnm, ho⟩
    rcases mem_cons.1 hy with rfl | hy
    · rw [hfn] at ho
      cases ho
    · exact ⟨y, hy, hnm, ho⟩
  · have hs : AtStop sts (.patchFence x.name true) w := fun hs => absurd ⟨pod, hw.current, hp⟩ hs
    refine (throughout_request hs).bind ?_
    rintro a w' ⟨⟨es, c⟩, hc⟩
    have hf := answer_fence hp (hw.afterEvents hsts es) hc
    rcases a with e | ⟨⟩
    · exact throughout_pure ⟨by rintro ⟨⟩, fun _ _ => hf.2 e rfl⟩
    · exact throughout_pure ⟨fun _ => hf.1 rfl, by rintro e ⟨⟩⟩

theorem throughout_fenceNonTargetMembers (hsts : sts ≠ []) (hp : statefulSetNameFromPod pod = sts)
    (hpr : w.promotedMember sts = some pod) (hr : w.current = some pod) :
    Throughout volumeApi.busy (AtStop sts) (fenceNonTargetMembers pod) w fun _ w' => w'.Closed sts := by
  unfold fenceNonTargetMembers
  dsimp only
  rw [hp, if_neg hsts]
  have hs : AtStop sts .listClaims w := fun hs => absurd ⟨pod, hr, hp⟩ hs
  refine (throughout_request hs).bind ?_
  rintro a w' ⟨⟨es, c⟩, hc⟩
  obtain ⟨hpro, hr'⟩ := w.afterEvents_same es
  change answer c .listClaims (w.afterEvents es) = (a, w') at hc
  unfold answer at hc
  cases he : c.error with
  | some e =>
    rw [he] at hc
    obtain ⟨rfl, rfl⟩ := Prod.mk.inj hc
    exact throughout_pure (guarded_unfinished (hr'.trans hr) hp)
  | none =>
    rw [he] at hc
    obtain ⟨rfl, rfl⟩ := Prod.mk.inj hc
    refine Throughout.bind (Q := fun _ w' => w'.Closed sts) ?_ fun _ _ h => throughout_pure h
    refine throughout_forEach (K := Fencing sts pod) ?_ (fun x xs _ w' hw' => throughout_fenceRound hsts hp hw') ?_
    · exact fun _ w' hw' => hw'.guarded.mono fun name hn => by simp at hn
    · refine ⟨(promotedMember_congr hpro sts).trans hpr, hr'.trans hr, ?_⟩
      intro _ p _ pvc hpc n _ _ ht
      by_contra hf
      exact ht ⟨pvc, hpc, rfl, by simpa using hf⟩

theorem only_patchPromotedPodStatus (endpoint : Str) : (patchPromotedPodStatus pod endpoint).Only (Away sts) := by
  refine (only_reseeding _).bind ?_
  rintro (e | obj)
  · trivial
  refine (only_reseeding _).bind fun now => Prog.Only.request trivial ?_
  rintro (e | ⟨⟩) <;> trivial

theorem only_fenceNonTargetMembers : (fenceNonTargetMembers pod).Only (Away sts) := by
  unfold fenceNonTargetMembers
  dsimp only
  split
  · trivial
  refine .request trivial ?_
  rintro (e | pvcs)
  · trivial
  refine Prog.Only.bind (Prog.only_forEach (fun _ pvc => ?_) ..) fun _ => trivial
  unfold fenceMember
  split
  · trivial
  split
  · trivial
  refine .request (.inl rfl) ?_
  rintro (e | ⟨⟩) <;> trivial

theorem only_execute (hp : statefulSetNameFromPod pod ≠ sts) (hsts : sts ≠ []) (ns endpoint : Str) :
    (execute ns pod endpoint).Only (Away sts) := by
  have hc : ∀ n, dataPvc pod ≠ dataPvc (memberPod sts n) := by
    intro n h
    rw [dataPvc_inj h, statefulSetNameFromPod_memberPod hsts] at hp
    exact hp rfl
  have hu : (unfenceTargetPVC pod).Only (Away sts) := by
    refine .request trivial ?_
    rintro (e | pvc)
    · trivial
    dsimp only
    split
    · trivial
    refine .request (.inr hc) ?_
    rintro (e | ⟨⟩) <;> trivial
  unfold execute
  split
  · trivial
  refine hu.bind ?_
  rintro (e | ⟨⟩)
  · trivial
  refine .request hp ?_
  rintro (e | out)
  · trivial
  dsimp only
  split
  · trivial
  refine only_fenceNonTargetMembers.bind ?_
  rintro (e | ⟨⟩)
  · trivial
  · exact only_patchPromotedPodStatus endpoint

/-- The promotion of a member keeps the set closed if it is not stopped halfway. -/
theorem throughout_execute (hsts : sts ≠ []) (ns endpoint : Str) (hw : w.Closed sts) :
    Throughout volumeApi.busy (AtStop sts) (execute ns pod endpoint) w fun _ w' => w'.Closed sts := by
  by_cases hp : statefulSetNameFromPod pod = sts
  · have hn : promotionActuallyHappened noopOutput = false := by decide +kernel
    have hd : promotionActuallyHappened promotedOutput := by decide +kernel
    unfold execute
    split
    · exact throughout_pure hw
    refine (throughout_unfenceTargetPVC hsts hp hw).bind ?_
    rintro (e | ⟨⟩) w₁ ⟨he, hw₁⟩
    · exact throughout_pure (he e rfl)
    refine (throughout_execPromotion hsts hp hw₁).bind ?_
    rintro a w₂ (⟨rfl, hpr, hc⟩ | ⟨ho, hw₂⟩)
    · dsimp only
      rw [hd, Bool.not_true, if_neg Bool.false_ne_true]
      refine (throughout_fenceNonTargetMembers hsts hp hpr hc).bind ?_
      rintro (e | ⟨⟩) w₃ hw₃
      · exact throughout_pure hw₃
      · exact throughout_away hsts (only_patchPromotedPodStatus endpoint) hw₃
    · rcases a with e | out
      · exact throughout_pure hw₂
      · obtain rfl := ho out rfl
        dsimp only
        rw [hn, Bool.not_false, if_pos rfl]
        exact throughout_pure hw₂
  · exact throughout_away hsts (only_execute hp hsts ns endpoint) hw

theorem only_oldPrimaryFailed (old : Str) (candidate : Option ShardEndpoint) :
    (oldPrimaryFailed old candidate).Only (Away sts) := by
  unfold oldPrimaryFailed
  split
  · trivial
  split
  · exact only_reseeding _
  · trivial

theorem only_preFence (old : Str) (candidate : Option ShardEndpoint) : (preFence old candidate).Only (Away sts) := by
  have hf : (fencePodPVC old).Only (Away sts) := by
    refine .request trivial ?_
    rintro (e | pvc)
    · trivial
    dsimp only
    split
    · trivial
    refine .request (.inl rfl) ?_
    rintro (e | ⟨⟩) <;> trivial
  refine (only_oldPrimaryFailed old candidate).bind fun failed => ?_
  split
  · refine hf.bind ?_
    rintro (e | ⟨⟩) <;> trivial
  · trivial

theorem only_candidateReady (candidate : Option ShardEndpoint) : (candidateReady candidate).Only (Away sts) := by
  unfold candidateReady
  split
  · trivial
  refine (only_reseeding _).bind ?_
  rintro (e | obj) <;> trivial

theorem only_reseedOld (old : Str) (candidate : Option ShardEndpoint) :
    (reseedOld old candidate).Only (Away sts) := by
  refine (only_oldPrimaryFailed old candidate).bind fun failed => ?_
  split
  · refine (only_reseeding _).bind fun now => (only_reseeding _).bind ?_
    rintro (e | ⟨⟩) <;> trivial
  · trivial

inductive PromoteCall
  | promotion (configured : Bool) (cluster : PostgresCluster) (shardName : Str) (d : Decision)
  | switchover (configured : Bool) (cluster : PostgresCluster) (shardStatuses : List ShardStatus)

def PromoteCall.program : PromoteCall → Promote (Except PromoteError Unit)
  | .promotion configured cluster shardName d => executeClusterPromotion configured cluster shardName d
  | .switchover configured cluster shardStatuses => handleSwitchover configured cluster shardStatuses

theorem throughout_call {W : Type} {S : Service PromoteApi W} {C : PromoteReq → W → Prop} {K : W → Prop}
    (ha : ∀ {α : Type} {p : Promote α} {w : W}, (∀ sts, p.Only (Away sts)) → K w → Throughout S C p w fun _ => K)
    (he : ∀ {w : W} (ns pod endpoint : Str), K w → Throughout S C (execute ns pod endpoint) w fun _ => K)
    (call : PromoteCall) {w : W} (hw : K w) : Throughout S C call.program w fun _ => K := by
  have hat : ∀ {p q : Promote (Except PromoteError Unit)} {w : W}, Throughout S C p w (fun _ => K) →
      (∀ w', K w' → Throughout S C q w' fun _ => K) → Throughout S C (andThen p q) w fun _ => K := by
    intro p q w hp hq
    refine hp.bind ?_
    rintro (e | ⟨⟩) w' hw'
    · exact throughout_pure hw'
    · exact hq w' hw'
  cases call with
  | promotion configured cluster shardName d =>
    change Throughout S C (executeClusterPromotion configured cluster shardName d) w fun _ => K
    unfold executeClusterPromotion
    split
    · exact throughout_pure hw
    split
    · exact throughout_pure hw
    refine hat (ha (fun _ => only_preFence _ _) hw) fun w₁ hw₁ => ?_
    refine hat (ha (fun _ => only_candidateReady _) hw₁) fun w₂ hw₂ => ?_
    refine hat ?_ fun w₃ hw₃ => ha (fun _ => only_reseedOld _ _) hw₃
    unfold promoteFromDecision
    split
    · exact throughout_pure hw₂
    · refine (he _ _ _ hw₂).bind ?_
      rintro (e | ⟨⟩) w' hw'
      · exact throughout_pure hw'
      · exact throughout_pure hw'
  | switchover configured cluster shardStatuses =>
    change Throughout S C (handleSwitchover configured cluster shardStatuses) w fun _ => K
    unfold handleSwitchover
    dsimp only
    split
    · exact throughout_pure hw
    split
    · exact throughout_pure hw
    split
    · exact throughout_pure hw
    split
    · exact throughout_pure hw
    refine (he _ _ _ hw).bind ?_
    rintro (e | ⟨⟩) w' hw'
    · exact throughout_pure hw'
    refine (ha (fun _ => only_reseeding _) hw').bind ?_
    rintro (e | annotations) w'' hw''
    · exact throughout_pure hw''
    · exact throughout_pure hw''

end Programs

/-! ### Runs -/

/-- A call returns, the operator is stopped in a call before a request, or something happens between calls. -/
inductive FenceLabel
  | returned (call : PromoteCall) (r : Except PromoteError Unit)
  | stopped (call : PromoteCall) (r : PromoteReq)
  | event (e : VolumeEvent)

def FenceStep (w : Volumes) : FenceLabel → Volumes → Prop
  | .returned call r, w' => Ends volumeApi.busy call.program { w with current := none } r w'
  | .stopped call r, w' => Stops volumeApi.busy call.program { w with current := none } (some r) w'
  | .event e, w' => w' = w.happen e

def IsFenceRun (h : Run FenceLabel Volumes) : Prop :=
  h.first.promotions = [] ∧ h.Steps fun h l w' => FenceStep h.world l w'

/-- The step leaves no member of the StatefulSet without a fence that is to have one: it makes no trouble, and the
operator is not stopped in between. -/
def Careful (sts : Str) (l : FenceLabel) (w' : Volumes) : Prop :=
  w'.Clean sts ∧ ∀ call r, l = .stopped call r → ¬ StopsOpen sts w' r

/-- Step lemma: a careful call, or an event of the cluster, keeps the set closed. -/
theorem Volumes.Closed.step {sts : Str} {w w' : Volumes} {l : FenceLabel} (hsts : sts ≠ []) (hw : w.Closed sts)
    (hs : FenceStep w l w') (hr : Careful sts l w') : w'.Closed sts := by
  have hc (call : PromoteCall) : Throughout volumeApi.busy (AtStop sts) call.program { w with current := none }
      fun _ w' => w'.Closed sts :=
    throughout_call (fun hp hw => throughout_away hsts (hp sts) hw)
      (fun ns _ endpoint hw => throughout_execute hsts ns endpoint hw)
      call hw
  cases l with
  | returned call r => exact (hc call).ends hs
  | stopped call r =>
    rcases (hc call).stops hs with ⟨r', hr', hsto⟩ | ⟨hr', -⟩
    · cases hr'
      exact hsto (hr.2 call r rfl)
    · cases hr'
  | event e =>
    rw [show w' = w.happen e from hs]
    exact Volumes.Guarded.happen hsts hw e

/-- In every run of careful steps, after a member of a StatefulSet was promoted the claims of all its other members
are fenced whenever no call is under way, and so when a later call returns success. -/
theorem others_fenced {sts : Str} (hsts : sts ≠ []) {h : Run FenceLabel Volumes} (hrun : IsFenceRun h)
    (hcareful : h.Steps fun _ l w' => Careful sts l w') {p : Str} (hp : h.world.promotedMember sts = some p) :
    ∀ pvc ∈ h.world.claims.items, ∀ n, pvc.name = dataPvc (memberPod sts n) → memberPod sts n ≠ p → pvc.fenced := by
  obtain ⟨hf, hs⟩ := hrun
  have hcl : h.world.Closed sts := by
    clear hp
    induction h with
    | start w =>
      intro _ p hp
      have hnn : w.promotedMember sts = none := promotedMember_of_nil hf
      exact absurd (hnn.symm.trans hp) nofun
    | step h l w ih => exact Volumes.Closed.step hsts (ih hcareful.1 hf hs.1) hs.2 hcareful.2
  have hc : h.world.Clean sts := by
    cases h with
    | start w =>
      have hnn : w.promotedMember sts = none := promotedMember_of_nil hf
      exact absurd (hnn.symm.trans hp) nofun
    | step h l w => exact hcareful.2.1
  exact fun pvc hpc n hn hne => hcl hc p hp pvc hpc n hn hne not_false

def threeOpen : Volumes where
  claims := ⟨[openClaim "demo-shard-0-0", openClaim "demo-shard-0-1", openClaim "demo-shard-0-2"], by decide +kernel⟩

theorem isFenceRun_threeOpen : IsFenceRun (.start threeOpen) := ⟨rfl, trivial⟩

def secondPromotion : PromoteCall := .promotion true shardOnFirst "shard-0" promoteSecond

def promoting (error : Option ApiError) : List VolumeEvent × PromoteChoice :=
  ([], { refusing "demo-shard-0-1" (.notFound []) with promotes := true, error })

def andCall (h : Run FenceLabel Volumes) (call : PromoteCall) (cs : List (List VolumeEvent × PromoteChoice)) :
    Option (Run FenceLabel Volumes) :=
  (call.program.play volumeApi.busy { h.world with current := none } cs).map fun x => h.step (.returned call x.1) x.2

theorem isFenceRun_andCall {h h' : Run FenceLabel Volumes} {call : PromoteCall}
    {cs : List (List VolumeEvent × PromoteChoice)}
    (hr : IsFenceRun h) (hc : andCall h call cs = some h') : IsFenceRun h' := by
  obtain ⟨x, hx, rfl⟩ := map_eq_some_iff.1 hc
  exact ⟨hr.1, hr.2, cs, hx⟩

def promotedOnce : Option (Run FenceLabel Volumes) :=
  andCall (.start threeOpen) secondPromotion (replicate 16 (promoting none))

theorem others_fenced_demo : ∃ h : Run FenceLabel Volumes, promotedOnce = some h ∧
    h.world.promotedMember "demo-shard-0" = some (str "demo-shard-0-1") ∧
    ∀ pvc ∈ h.world.claims.items, ∀ n, pvc.name = dataPvc (memberPod "demo-shard-0" n) →
      memberPod "demo-shard-0" n ≠ "demo-shard-0-1" → pvc.fenced := by
  have hf : promotedOnce.map (fun h => (h.world.promotedMember "demo-shard-0", h.world.trouble)) =
      some (some (str "demo-shard-0-1"), []) := by decide +kernel
  obtain ⟨h, hh, hf⟩ := map_eq_some_iff.1 hf
  obtain ⟨hp, htr⟩ := Prod.mk.inj hf
  refine ⟨h, hh, hp, others_fenced (by decide +kernel) (isFenceRun_andCall isFenceRun_threeOpen hh) ?_ hp⟩
  unfold promotedOnce andCall at hh
  obtain ⟨x, -, rfl⟩ := map_eq_some_iff.1 hh
  refine ⟨trivial, ?_, by rintro call r ⟨⟩⟩
  intro t ht
  rw [show x.2.trouble = [] from htr] at ht
  cases ht

def promotedTwice : Option (Run FenceLabel Volumes) :=
  (andCall (.start threeOpen) secondPromotion (replicate 6 (promoting none) ++ [promoting (some (.other []))])).bind
    fun h => andCall h secondPromotion (replicate 10 (promoting none))

def returnsSuccess : Run FenceLabel Volumes → Bool
  | .step _ (.returned _ r) _ => Except.isOk r
  | _ => false

/-- After the second call has succeeded the third member is not fenced. -/
theorem retry_leaves_member_open : ∃ h : Run FenceLabel Volumes, IsFenceRun h ∧ returnsSuccess h ∧
    h.world.promotedMember "demo-shard-0" = some (str "demo-shard-0-1") ∧
    ∃ pvc ∈ h.world.claims.items, pvc.name = dataPvc (memberPod "demo-shard-0" 2) ∧ pvc.fenced = false := by
  have hf : promotedTwice.map (fun h => (returnsSuccess h, h.world.promotedMember "demo-shard-0",
      h.world.claims.items.any fun pvc => decide (pvc.name = dataPvc (memberPod "demo-shard-0" 2)) && !pvc.fenced)) =
      some (true, some (str "demo-shard-0-1"), true) := by decide +kernel
  obtain ⟨h, hh, hf⟩ := map_eq_some_iff.1 hf
  obtain ⟨hs, hf⟩ := Prod.mk.inj hf
  obtain ⟨hp, ho⟩ := Prod.mk.inj hf
  obtain ⟨h₁, hh₁, hh⟩ := bind_eq_some_iff.1 hh
  refine ⟨h, isFenceRun_andCall (isFenceRun_andCall isFenceRun_threeOpen hh₁) hh, hs, hp, ?_⟩
  simpa using ho

end PostgresOperator.Cluster
