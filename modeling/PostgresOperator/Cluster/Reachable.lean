import PostgresOperator.Cluster.Reseed

/-!
# Answers that lead to a reseeding

Every replica that the status gives a cause to reseed can be reseeded: some answers let the loops pass all that comes
before it, and then let the deletions succeed.  The time, and the times at which the pods were created, are given.
-/

namespace PostgresOperator.Cluster

open Go Calls List

/-- The clock stands at `now`, and the pods of the API server were created at these times; everything else is answered
anyhow. -/
abbrev podApi (created : Str → Option Int) (now : Int) : Service ReseedApi Done where
  Choice := { c : (r : ReseedReq) → r.Res //
    c .now = now ∧ ∀ name pod, c (.getPod name) = .ok pod → created name = some pod.creationTimestamp }
  answer c r w := (c.1 r, w.record r (c.1 r))
  Event := Empty
  happen e _ := nomatch e

variable {created : Str → Option Int} {now : Int}

theorem ends_anyApi {α : Type} {p : Reseed α} {w w' : Done} {a : α}
    (h : Ends (podApi created now) p w a w') : Ends anyApi p w a w' :=
  h.map (fun c : (podApi created now).Choice => c.1) fun _ _ _ => rfl

theorem after_podApi {α : Type} (p : Reseed α) {w : Done}
    (hw : ∀ d ∈ w.read, created d.1 = some d.2.creationTimestamp) :
    After (podApi created now) p w fun _ w' => ∀ d ∈ w'.read, created d.1 = some d.2.creationTimestamp := by
  induction p generalizing w with
  | pure a => exact after_pure hw
  | call r k ih =>
    refine after_call fun c => ih _ ?_
    cases r with
    | getPod name =>
      show ∀ d ∈ (w.record (.getPod name) (c.1 (.getPod name))).read, created d.1 = some d.2.creationTimestamp
      cases hc : c.1 (.getPod name) with
      | error e => exact hw
      | ok pod =>
        intro d hd
        rcases mem_append.1 hd with hd | hd
        · exact hw d hd
        · rw [mem_singleton.1 hd]
          exact c.2.2 name pod hc
    | _ => exact hw

def noAnnotations : Annotations := fun _ => none

def quiet (created : Str → Option Int) (now : Int) : (podApi created now).Choice where
  val
    | .now => now
    | .mark _ => ()
    | .getPod name => .error (.notFound name)
    | .getNode _ => .ok []
    | .patchAnnotations _ => .ok noAnnotations
    | .getPvc _ | .deletePvc _ | .deletePod _ _ | .clearFinalizers _ => .ok ()
  property := by
    refine ⟨rfl, ?_⟩
    intro name pod h
    cases h

def onlyPod (pod : Pod) (name : Str) : Except ApiError Pod :=
  if name = pod.name then .ok pod else .error (.notFound name)

def finding (now : Int) (pod : Pod) (hpod : created pod.name = some pod.creationTimestamp) :
    (podApi created now).Choice where
  val
    | .getPod name => onlyPod pod name
    | r => (quiet created now).1 r
  property := by
    refine ⟨rfl, ?_⟩
    intro name pod' h
    change onlyPod pod name = _ at h
    unfold onlyPod at h
    split at h
    · cases h
      subst name
      exact hpod
    · cases h

instance (created : Str → Option Int) (now : Int) : Inhabited (podApi created now).Choice := ⟨quiet created now⟩

theorem lasting_pvcs (d : Str × Str) : (podApi created now).Lasting fun w => d ∈ w.pvcs := by
  intro c r w hd
  cases r with
  | getPod name =>
    show d ∈ (w.record (.getPod name) (c.1 (.getPod name))).pvcs
    cases c.1 (.getPod name) <;> exact hd
  | deletePvc name => exact mem_append_left _ hd
  | _ => exact hd

variable (codec : Codec)

theorem reaches_reseed (pod : Str) (t : Int) (err : ReseedError → ReseedError) (err' : ApiError → ReseedError)
    (w : Done) :
    Reaches (podApi created now) (do
      match ← reseedStandby pod t with
      | .error e => pure (noAnnotations, .error (err e))
      | .ok () => recordReseed codec noAnnotations pod now err') w
      fun a w' => a = (noAnnotations, .ok ()) ∧ w'.shard = w.shard ∧ (w.shard, dataPvc pod) ∈ w'.pvcs := by
  refine ⟨(noAnnotations, .ok ()), _,
    ⟨[quiet created now, quiet created now, quiet created now, quiet created now], rfl⟩, rfl, rfl, ?_⟩
  exact mem_append_right _ (mem_singleton_self _)

theorem reaches_staleReplica_pass (rep : ShardEndpoint) (w : Done) :
    Reaches (podApi created now) (staleReplica codec now noAnnotations rep) w
      fun a w' => a = (noAnnotations, .ok ()) ∧ w'.shard = w.shard := by
  unfold staleReplica
  split
  · exact reaches_pure ⟨rfl, rfl⟩
  · exact reaches_call (quiet created now) (reaches_pure ⟨rfl, rfl⟩)

variable {rep : ShardEndpoint}

/-- A replica that has been down for the timeout can be reseeded. -/
theorem reaches_staleReplica (hr : rep.ready = false) (hp : rep.pod ≠ []) {t : Int}
    (hcr : created rep.pod = some t) (hold : staleStandbyReseedTimeout ≤ now - t) (w : Done) :
    Reaches (podApi created now) (staleReplica codec now noAnnotations rep) w
      fun _ w' => (w.shard, dataPvc rep.pod) ∈ w'.pvcs := by
  let pod : Pod := { name := rep.pod, creationTimestamp := t, name_ne := hp }
  have hc : coolingDown codec noAnnotations rep.pod now = false := rfl
  unfold staleReplica
  rw [if_neg (by simp [hr, hp])]
  refine (reaches_request (finding now pod hcr)).bind ?_
  rintro a w₁ h
  obtain ⟨rfl, rfl⟩ : a = .ok pod ∧ w₁ = w.record (.getPod rep.pod) (.ok pod) := by
    have hf : (finding now pod hcr).1 (.getPod rep.pod) = .ok pod := if_pos rfl
    rw [← (Prod.mk.inj h).1, ← (Prod.mk.inj h).2, hf]
    exact ⟨rfl, rfl⟩
  dsimp only
  rw [if_neg (not_lt.2 hold), hc, if_neg (by simp)]
  exact (reaches_reseed codec rep.pod now id (.cooldown rep.pod) _).mono fun _ _ h => h.2.2

variable {primary : ShardEndpoint}

/-- A primary beside the primary can be reseeded. -/
theorem reaches_roguePrimary (hr : rep.reason = roguePrimaryReason)
    (hp : rep.pod ≠ []) (hne : rep.pod ≠ primary.pod) (w : Done) :
    Reaches (podApi created now) (roguePrimary codec now primary noAnnotations rep) w
      fun a w' => a = (noAnnotations, .ok ()) ∧ w'.shard = w.shard ∧ (w.shard, dataPvc rep.pod) ∈ w'.pvcs := by
  have hc : coolingDown codec noAnnotations rep.pod now = false := rfl
  unfold roguePrimary
  rw [if_neg (by simp [hr, hp, hne]), hc, if_neg (by simp)]
  exact reaches_call (quiet created now) (reaches_reseed codec rep.pod _ _ _ w)

theorem reaches_roguePrimary_pass (primary rep : ShardEndpoint) (w : Done) :
    Reaches (podApi created now) (roguePrimary codec now primary noAnnotations rep) w
      fun a w' => a = (noAnnotations, .ok ()) ∧ w'.shard = w.shard := by
  by_cases hs : (rep.reason ≠ roguePrimaryReason || rep.pod = [] || rep.pod = primary.pod)
  · unfold roguePrimary
    rw [if_pos hs]
    exact reaches_pure ⟨rfl, rfl⟩
  · simp only [Bool.or_eq_true, decide_eq_true_eq, not_or, ne_eq, not_not] at hs
    exact (reaches_roguePrimary codec hs.1.1 hs.1.2 hs.2 w).mono fun _ _ h => ⟨h.1, h.2.1⟩

theorem reaches_shards_pass
    {f : ShardEndpoint → Annotations → ShardEndpoint → Reseed (Annotations × Except ReseedError Unit)}
    (hp : ∀ primary rep w, Reaches (podApi created now) (f primary noAnnotations rep) w
      fun a w' => a = (noAnnotations, .ok ()) ∧ w'.shard = w.shard) (ss : ShardStatus) (w : Done) :
    Reaches (podApi created now) (reseedShard f noAnnotations ss) w fun a _ => a = (noAnnotations, .ok ()) := by
  refine (reaches_request (quiet created now)).bind ?_
  rintro _ w₁ -
  cases readyPrimary ss with
  | none => exact reaches_pure rfl
  | some primary => exact reaches_forEach_end (fun rep _ w' => (hp primary rep w').mono fun _ _ h => h.1) w₁

variable {shards : List ShardStatus} {ss : ShardStatus}

theorem reaches_shards
    {f : ShardEndpoint → Annotations → ShardEndpoint → Reseed (Annotations × Except ReseedError Unit)}
    (hp : ∀ primary rep w, Reaches (podApi created now) (f primary noAnnotations rep) w
      fun a w' => a = (noAnnotations, .ok ()) ∧ w'.shard = w.shard) (hss : ss ∈ shards)
    (hpr : readyPrimary ss = some primary) (hr : rep ∈ ss.replicas)
    (hh : ∀ w, Reaches (podApi created now) (f primary noAnnotations rep) w fun _ w' => (w.shard, dataPvc rep.pod) ∈
      w'.pvcs)
    (w : Done) :
    Reaches (podApi created now)
      (forEach (reseedShard f) noAnnotations shards) w fun _ w' => (ss.name, dataPvc rep.pod) ∈ w'.pvcs := by
  obtain ⟨before, after, rfl⟩ := append_of_mem hss
  have hl : (podApi created now).Lasting fun w => (ss.name, dataPvc rep.pod) ∈ w.pvcs := lasting_pvcs _
  refine reaches_forEach (J := fun _ => True) hl
    (fun y _ w _ => (reaches_shards_pass hp y w).mono fun _ _ h => ⟨h, trivial⟩) ?_ trivial
  intro w _
  refine (reaches_request (quiet created now)).bind ?_
  rintro _ _ ⟨⟩
  rw [hpr]
  obtain ⟨before', after', hre⟩ := append_of_mem hr
  dsimp only
  rw [hre]
  refine reaches_forEach (J := fun w => w.shard = ss.name) hl ?_ ?_ rfl
  · intro y _ w hw
    exact (hp primary y w).mono fun _ _ h => ⟨h.1, h.2.trans hw⟩
  · intro w hw
    rw [← hw]
    exact hh w

/-- The pass over all shards comes to each stale replica. -/
theorem reaches_reconcileStaleReplicas (hss : ss ∈ shards) (hp : readyPrimary ss = some primary)
    (hrp : rep ∈ ss.replicas)
    (hr : rep.ready = false) (hd : rep.pod ≠ []) {t : Int} (hc : created rep.pod = some t)
    (hold : staleStandbyReseedTimeout ≤ now - t) (w : Done) :
    Reaches (podApi created now) (reconcileStaleReplicas codec now noAnnotations shards) w
      fun _ w' => (ss.name, dataPvc rep.pod) ∈ w'.pvcs :=
  reaches_shards (fun _ rep w => reaches_staleReplica_pass codec rep w) hss hp hrp
    (reaches_staleReplica codec hr hd hc hold) w

theorem reaches_reconcileStaleReplicas_pass (shards : List ShardStatus) (w : Done) :
    Reaches (podApi created now) (reconcileStaleReplicas codec now noAnnotations shards) w
      fun a _ => a = (noAnnotations, .ok ()) :=
  reaches_forEach_end (fun y _ w => reaches_shards_pass (fun _ rep w => reaches_staleReplica_pass codec rep w) y w) w

theorem reaches_reconcileRoguePrimaries (hss : ss ∈ shards) (hp : readyPrimary ss = some primary)
    (hr : rep ∈ ss.replicas)
    (hre : rep.reason = roguePrimaryReason) (hd : rep.pod ≠ []) (hne : rep.pod ≠ primary.pod) (w : Done) :
    Reaches (podApi created now) (reconcileRoguePrimaries codec now noAnnotations shards) w
      fun _ w' => (ss.name, dataPvc rep.pod) ∈ w'.pvcs :=
  reaches_shards (reaches_roguePrimary_pass codec) hss hp hr
    (fun w => (reaches_roguePrimary codec hre hd hne w).mono fun _ _ h => h.2.2) w

end PostgresOperator.Cluster
