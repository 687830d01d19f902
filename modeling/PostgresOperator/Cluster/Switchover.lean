import PostgresOperator.Cluster.Promote

/-!
# Switchover requests

`handleSwitchover` promotes the pod that an annotation of the cluster names and then removes the annotation.  If the
pod was promoted but a later request failed, the annotation is still there, and a status that shows the pod as the
primary is an error: the request is then never removed (`switchover_completes_iff`).
-/

namespace PostgresOperator.Cluster

open Go Calls List Option Function

structure SwitchWorld where
  vol : Volumes
  target : Option Str

def SwitchWorld.answer (c : PromoteChoice) (r : PromoteReq) (w : SwitchWorld) : r.Res × SwitchWorld :=
  ((w.vol.answer c r).1,
    { vol := (w.vol.answer c r).2
      target := match r with
        | .reseed (.patchAnnotations annotations) =>
          if c.applied || (c.reseed (.patchAnnotations annotations)).isOk then annotations switchoverTargetKey
          else w.target
        | _ => w.target })

def PromoteChoice.Succeeds (c : PromoteChoice) : Prop :=
  c.error = none ∧ ∀ r, ReseedApi.failed (r := r) (c.reseed r) = false

abbrev succeedingApi : Service PromoteApi SwitchWorld where
  Choice := { c : PromoteChoice // c.Succeeds }
  answer c := SwitchWorld.answer c.1
  Event := VolumeEvent
  happen e w := some { w with vol := w.vol.happen e }

def Completed (a : Except PromoteError Unit) (w : SwitchWorld) : Prop := a = .ok () ∧ w.target.getD [] = []

variable {w : SwitchWorld} {pod : Str}

theorem after_unfence : After succeedingApi (unfenceTargetPVC pod) w fun a w' =>
    a = .ok () ∧ w'.vol.primary = w.vol.primary ∧ w'.target = w.target := by
  refine after_call fun c => ?_
  simp only [SwitchWorld.answer, Volumes.answer, c.2.1]
  cases hc : w.vol.claims.get (dataPvc pod) with
  | none => exact after_pure ⟨rfl, rfl, rfl⟩
  | some pvc =>
    change After succeedingApi (if (!pvc.fenced) then .pure (Except.ok ()) else _) w _
    split
    · exact after_pure ⟨rfl, rfl, rfl⟩
    · refine after_call fun c' => ?_
      simp only [SwitchWorld.answer, Volumes.answer, c'.2.1, hc, isSome_some, if_true]
      exact after_pure ⟨rfl, rfl, rfl⟩

/-- The target is promoted and recorded, if all requests succeed. -/
theorem after_switchExecute {ns endpoint : Str} (hns : ns ≠ []) (hp : pod ≠ []) (hpr : w.vol.primary pod) :
    After succeedingApi (execute ns pod endpoint) w fun a w' => a = .ok () ∧ w'.target = w.target := by
  unfold execute
  rw [if_neg (by simp [hns, hp])]
  refine after_unfence.bind ?_
  rintro a w₁ ⟨rfl, hpri, ht⟩
  refine after_call fun c => ?_
  simp only [SwitchWorld.answer, Volumes.answer, Volumes.exec, hpri, hpr, c.2.1, isSome_none, Bool.false_eq_true,
    if_true, if_false]
  exact after_pure ⟨rfl, ht⟩

variable {endpoint : Str} {shardStatuses : List ShardStatus}

/-- A primary cannot be the target.  The endpoint is that of the last ready replica of the name, if there is one. -/
theorem switchoverEndpoint_eq : switchoverEndpoint pod endpoint shardStatuses =
    if ∀ ss ∈ shardStatuses, ∀ p ∈ ss.primary, p.pod ≠ pod then
      .ok (((shardStatuses.flatMap ShardStatus.replicas).reverse.find? fun r => r.pod = pod && r.ready).elim endpoint
        ShardEndpoint.endpoint)
    else .error (.alreadyPrimary pod) := by
  have hl : ∀ rs : List ShardEndpoint, ∀ endpoint : Str,
      rs.foldl (fun ep r => if r.pod = pod && r.ready then r.endpoint else ep) endpoint =
        (rs.reverse.find? fun r => r.pod = pod && r.ready).elim endpoint ShardEndpoint.endpoint := by
    intro rs endpoint
    induction rs using reverseRecOn with
    | nil => rfl
    | append_singleton rs r ih =>
      rw [foldl_append, foldl_cons, foldl_nil, reverse_append, ih]
      by_cases hr : (decide (r.pod = pod) && r.ready)
      · simp [hr]
      · simp [hr]
  induction shardStatuses generalizing endpoint with
  | nil => rfl
  | cons ss rest ih =>
    rw [switchoverEndpoint, ih, hl]
    by_cases hpr : ∃ p ∈ ss.primary, p.pod = pod
    · obtain ⟨p, hp, rfl⟩ := hpr
      rw [if_pos (by simp [mem_def.mp hp]), if_neg fun h => h ss mem_cons_self p hp rfl]
    · have hc : (∀ x ∈ ss :: rest, ∀ p ∈ x.primary, p.pod ≠ pod) ↔ ∀ x ∈ rest, ∀ p ∈ x.primary, p.pod ≠ pod := by
        rw [forall_mem_cons]
        exact and_iff_right fun p hp heq => hpr ⟨p, hp, heq⟩
      rw [if_neg (by simpa [Option.any_eq_true] using hpr)]
      simp only [hc, flatMap_cons, reverse_append, find?_append]
      cases (rest.flatMap ShardStatus.replicas).reverse.find? fun r => decide (r.pod = pod) && r.ready with
      | none => rfl
      | some r => rfl

/-- With the pod promoted, a switchover completes exactly if the statuses show the pod as a ready replica and not as a
primary. -/
theorem switchover_completes_iff (configured : Bool) (cluster : PostgresCluster) (shardStatuses : List ShardStatus)
    (w : SwitchWorld)
    (hread : cluster.annotations switchoverTargetKey = w.target) (hpromoted : ∀ pod ∈ w.target, w.vol.primary pod) :
    After succeedingApi (handleSwitchover configured cluster shardStatuses) w Completed ↔
      w.target.getD [] = [] ∨ configured ∧ cluster.ns ≠ [] ∧
        (∀ ss ∈ shardStatuses, ∀ p ∈ ss.primary, p.pod ≠ w.target.getD []) ∧
        ∃ r ∈ (shardStatuses.flatMap ShardStatus.replicas).reverse.find? fun r => r.pod = w.target.getD [] && r.ready,
          r.endpoint ≠ [] := by
  have hf : ∀ e, ¬ After succeedingApi (.pure (.error e)) w Completed := by
    intro e h
    cases (h _ _ (ends_pure.mpr ⟨rfl, rfl⟩)).1
  unfold handleSwitchover
  rw [hread]
  by_cases hn : w.target.getD [] = []
  · simp only [hn, if_true, true_or, iff_true]
    exact after_pure ⟨rfl, hn⟩
  · obtain ⟨pod, hd⟩ : ∃ pod, w.target = some pod := by
      cases hw : w.target with
      | none => simp [hw] at hn
      | some pod => exact ⟨pod, rfl⟩
    simp only [hd, getD_some] at hn ⊢
    rw [if_neg hn, or_iff_right hn]
    cases configured with
    | false => exact iff_of_false (hf _) (by simp)
    | true =>
      simp only [Bool.not_true, Bool.false_eq_true, if_false, true_and, switchoverEndpoint_eq]
      by_cases hpr : ∀ ss ∈ shardStatuses, ∀ p ∈ ss.primary, p.pod ≠ pod
      case neg =>
        rw [if_neg hpr]
        exact iff_of_false (hf _) fun h => hpr h.2.1
      simp only [if_pos hpr]
      cases hl : (shardStatuses.flatMap ShardStatus.replicas).reverse.find? fun r => decide (r.pod = pod) &&
        r.ready with
      | none => exact iff_of_false (hf _) (by simp)
      | some r =>
        by_cases he : r.endpoint = []
        · rw [if_pos (show (some r).elim [] ShardEndpoint.endpoint = [] from he)]
          exact iff_of_false (hf _) (by simp [he])
        · rw [if_neg (show ¬ (some r).elim [] ShardEndpoint.endpoint = [] from he)]
          by_cases hns : cluster.ns = []
          · refine iff_of_false ?_ fun h => h.1 hns
            rw [execute, if_pos (.inl hns)]
            exact hf _
          · refine iff_of_true ((after_switchExecute hns hn (hpromoted pod hd)).bind ?_) ⟨hns, hpr, r, rfl, he⟩
            rintro a w₁ ⟨rfl, ht⟩
            refine after_call fun c => ?_
            have hok := c.2.2 (.patchAnnotations (update cluster.annotations switchoverTargetKey none))
            simp only [SwitchWorld.answer, Volumes.answer]
            cases hp : c.1.reseed (.patchAnnotations (update cluster.annotations switchoverTargetKey none)) with
            | error e => simp [hp, Except.isOk, Except.toBool] at hok
            | ok annotations => exact after_pure ⟨rfl, by simp [Except.isOk, Except.toBool]⟩

private def switchTarget : Str := "demo-shard-0-1"

private def switchRequest : PostgresCluster :=
  { demoCluster with annotations := update (fun _ => none) switchoverTargetKey (some switchTarget) }

private def beforeSwitch : List ShardStatus :=
  [{ name := "shard-0", ordinal := 0, primary := some { pod := "demo-shard-0-0", ready := true },
     replicas := [{ pod := switchTarget, endpoint := "demo-shard-0-1:5432", ready := true }] }]

private def afterSwitch : List ShardStatus :=
  [{ name := "shard-0", ordinal := 0, primary := some { pod := switchTarget, ready := true } }]

theorem switchover_completes_demo : After succeedingApi (handleSwitchover true switchRequest beforeSwitch)
    { vol := { claims := ⟨[], nodup_nil⟩, primary := fun _ => true }, target := some switchTarget } Completed := by
  refine (switchover_completes_iff true switchRequest beforeSwitch _ ?_ fun _ _ => rfl).mpr (.inr ⟨rfl, ?_, ?_, ?_⟩)
  · exact update_self switchoverTargetKey (some switchTarget) fun _ => none
  · decide +kernel
  · decide +kernel
  · decide +kernel

private def halfDone : SwitchWorld :=
  ((handleSwitchover true switchRequest beforeSwitch).eval
    (SwitchWorld.answer
      { reseed := fun r => match r with
          | .now => (0 : Int)
          | .mark _ => ()
          | .getPod name => if h : name ≠ [] then .ok { name, name_ne := h } else .error (.notFound name)
          | .getNode name | .getPvc name | .deletePvc name | .deletePod name _ | .clearFinalizers name =>
          .error (.notFound name)
          | .patchAnnotations _ => .error (.conflict []) })
    { vol := { claims := ⟨[], nodup_nil⟩ }, target := some switchTarget }).2

/-- The next call sees that the target is the primary, and leaves the request where it is. -/
theorem switchover_stuck : halfDone.target = some switchTarget ∧ halfDone.vol.primary switchTarget ∧
    ¬ After succeedingApi (handleSwitchover true switchRequest afterSwitch) halfDone Completed := by
  have hr : handleSwitchover true switchRequest afterSwitch = .pure (.error (.alreadyPrimary switchTarget)) := rfl
  refine ⟨by decide +kernel, by decide +kernel, fun h => ?_⟩
  rw [hr] at h
  cases (h _ _ (ends_pure.mpr ⟨rfl, rfl⟩)).1

end PostgresOperator.Cluster
