import PostgresOperator.Cluster.Promote
import PostgresOperator.Cluster.StaleRun

/-!
# The status that is recorded

The last part of `Reconcile` puts the shards that it has aggregated into the object that it holds, calls helpers that
patch this object, and writes its status.  A patch that succeeds replaces the object by the copy of the server, status
included. So the aggregated shards are recorded exactly when no patch succeeded or the server had them before
(`recorded_status_iff`).
-/

namespace PostgresOperator.Cluster

open Go Calls

/-! ### Requests -/

/-- The requests of the helpers and of `Reconcile` itself; `held` and `setShards` read and write the object that it
holds. -/
inductive StatusReq
  | helper (r : PromoteReq)
  | managedRoles
  | held
  | setShards (shards : List ShardStatus)
  | updateStatus

def StatusReq.Res : StatusReq → Type
  | .helper r => r.Res
  | .managedRoles | .updateStatus => Except ApiError Unit
  | .held => PostgresCluster
  | .setShards _ => Unit

abbrev StatusApi : Interface where
  Req := StatusReq
  Res := StatusReq.Res
  failed {r} a := match r, a with
    | .helper r, a => PromoteApi.failed (r := r) a
    | .managedRoles, a | .updateStatus, a => !Except.isOk a
    | .held, _ | .setShards _, _ => false

def helper {α : Type} (p : Promote α) : Prog StatusApi α := p.embed (J := StatusApi) .helper fun _ a => a

def heldCluster : Prog StatusApi PostgresCluster := Prog.request (I := StatusApi) .held

def setShards (shards : List ShardStatus) : Prog StatusApi Unit := Prog.request (I := StatusApi) (.setShards shards)

def managedRolesStatus : Prog StatusApi (Except ApiError Unit) := Prog.request (I := StatusApi) .managedRoles

def updateStatus : Prog StatusApi (Except ApiError Unit) := Prog.request (I := StatusApi) .updateStatus

/-! ### The last part of Reconcile -/

structure StatusReconcile where
  codec : Codec
  shardStatuses : List ShardStatus
  configured : Bool := true
  standaloneReplica : Bool := false
  databasePodsStopped : Bool := false
  allShardPrimaryReady : Bool := true
  pending : Pending := fun _ => none
  skipFenced : Bool := false
  now : Int

namespace StatusReconcile

variable (x : StatusReconcile)

def switchover : Prog StatusApi Unit := do
  if !x.standaloneReplica && !x.databasePodsStopped && x.allShardPrimaryReady then
    let cluster ← heldCluster
    let _ ← helper (handleSwitchover x.configured cluster x.shardStatuses)

def promotion (phase : ClusterPhase) : Prog StatusApi Unit := do
  let cluster ← heldCluster
  let o : Observation :=
    { cluster := { cluster with phase }, shards := x.shardStatuses, skipFenced := x.skipFenced, now := x.now }
  match (o.failover x.pending).2 with
  | none => pure ()
  | some (shardName, d) =>
    let _ ← helper (executeClusterPromotion x.configured cluster shardName d)

def reseeds : Prog StatusApi Unit := do
  if !x.standaloneReplica && !x.databasePodsStopped then
    let cluster ← heldCluster
    helper (reseeding (reseedMembers x.codec cluster.annotations x.shardStatuses))

/-- `Reconcile` from the line that sets the shards of the status to its end.  The calls that get the object but patch
other objects (labels, services, configuration, jobs), and the other fields of the status, are left out. -/
def recordStatus : Prog StatusApi (Except ApiError Unit) := do
  let cluster ← heldCluster
  setShards x.shardStatuses
  match ← managedRolesStatus with
  | .error e => pure (.error e)
  | .ok () =>
    x.switchover
    x.promotion cluster.phase
    x.reseeds
    updateStatus

end StatusReconcile

/-! ### The object and its copy -/

/-- The object that `Reconcile` holds, the copy of the server, and whether a patch of the cluster has succeeded. -/
structure Copies where
  held : PostgresCluster
  stored : PostgresCluster
  patched : Bool := false

structure Replies where
  helper : (r : PromoteReq) → r.Res
  managedRoles : Except ApiError Unit := .ok ()
  updateStatus : Except ApiError Unit := .ok ()

/-- What a request of a helper does to the object: a patch that fails leaves the change in the copy at hand. -/
def Copies.after (w : Copies) : (r : PromoteReq) → r.Res → Copies
  | .reseed (.patchAnnotations _), .ok annotations =>
    { held := { w.stored with annotations }, stored := { w.stored with annotations }, patched := true }
  | .reseed (.patchAnnotations annotations), .error _ => { w with held := { w.held with annotations } }
  | _, _ => w

abbrev statusApi : Service StatusApi Copies where
  Choice := Replies
  answer c r w := match r with
    | .helper r => (c.helper r, w.after r (c.helper r))
    | .managedRoles => (c.managedRoles, w)
    | .held => (w.held, w)
    | .setShards shards => ((), { w with held := { w.held with shards } })
    | .updateStatus =>
      (c.updateStatus, if c.updateStatus.isOk then { w with stored := { w.stored with shards := w.held.shards } }
        else w)
  Event := Empty
  happen e _ := nomatch e

/-- The server has the shards `old`; the object has them after a patch and `new` before. -/
def Copies.Holds (old new : List ShardStatus) (w : Copies) : Prop :=
  w.stored.shards = old ∧ w.held.shards = if w.patched then old else new

section

variable {old new : List ShardStatus} {w : Copies} {x : StatusReconcile}

/-- A request leaves the stored status as it was read or as it was written. -/
theorem Copies.Holds.after (h : w.Holds old new) (r : PromoteReq) (a : r.Res) : (w.after r a).Holds old new := by
  unfold Copies.after
  split
  · exact ⟨h.1, h.1⟩
  · exact h
  · exact h

theorem after_helper {α : Type} (p : Promote α) (hw : w.Holds old new) :
    After statusApi (helper p) w fun _ => Copies.Holds old new := by
  have ho : p.Only fun _ => True := by
    induction p with
    | pure a => trivial
    | call r k ih => exact ⟨trivial, fun a => ih a⟩
  have hh : (helper p).Only fun r => ∃ q, r = StatusReq.helper q := ho.embed fun r _ => ⟨r, rfl⟩
  refine hh.after ?_ hw
  rintro c - w ⟨q, rfl⟩ hw
  exact hw.after q (c.helper q)

theorem after_heldCluster (hw : w.Holds old new) : After statusApi heldCluster w fun _ => Copies.Holds old new :=
  after_call fun _ => after_pure hw

theorem after_switchover (hw : w.Holds old new) : After statusApi x.switchover w fun _ => Copies.Holds old new := by
  unfold StatusReconcile.switchover
  split
  · exact (after_heldCluster hw).bind fun cluster w hw => (after_helper _ hw).bind fun _ w hw => after_pure hw
  · exact after_pure hw

theorem after_promotion (phase : ClusterPhase) (hw : w.Holds old new) :
    After statusApi (x.promotion phase) w fun _ => Copies.Holds old new := by
  refine (after_heldCluster hw).bind fun cluster w hw => ?_
  dsimp only
  split
  · exact after_pure hw
  · exact (after_helper _ hw).bind fun _ w hw => after_pure hw

theorem after_reseeds (hw : w.Holds old new) : After statusApi x.reseeds w fun _ => Copies.Holds old new := by
  unfold StatusReconcile.reseeds
  split
  · exact (after_heldCluster hw).bind fun cluster w hw => after_helper _ hw
  · exact after_pure hw

/-- The update stores the new status, unless a patch has replaced the object that is held. -/
theorem after_updateStatus (hw : w.Holds old new) : After statusApi updateStatus w fun a w' =>
    a = .ok () → w'.stored.shards = if w'.patched then old else new := by
  refine after_call fun c => after_pure ?_
  intro hok
  have hok : c.updateStatus = .ok () := hok
  simpa [hok, Except.isOk, Except.toBool] using hw.2

/-- What is stored at the end of a reconcile. -/
theorem after_recordStatus (x : StatusReconcile) (cluster stored : PostgresCluster) :
    After statusApi x.recordStatus { held := cluster, stored } fun a w' =>
      a = .ok () → w'.stored.shards = if w'.patched then stored.shards else x.shardStatuses := by
  have hs : After statusApi (setShards x.shardStatuses) { held := cluster, stored } fun _ =>
      Copies.Holds stored.shards x.shardStatuses := after_call fun _ => after_pure ⟨rfl, rfl⟩
  refine after_call fun _ => hs.bind fun _ w hw => ?_
  refine After.bind (Q := fun _ => Copies.Holds stored.shards x.shardStatuses) (after_call fun _ => after_pure hw) ?_
  rintro (e | ⟨⟩) w hw
  · exact after_pure fun h => nomatch h
  · refine (after_switchover hw).bind fun _ w hw => ?_
    refine (after_promotion _ hw).bind fun _ w hw => ?_
    exact (after_reseeds hw).bind fun _ w hw => after_updateStatus hw

end

/-- An update of the status that succeeds records the shards of this `Reconcile` exactly if no patch of the cluster
succeeded before it or the server had the same shards. -/
theorem recorded_status_iff (x : StatusReconcile) (cluster stored : PostgresCluster) (w' : Copies)
    (h : Ends statusApi x.recordStatus { held := cluster, stored } (.ok ()) w') :
    w'.stored.shards = x.shardStatuses ↔ w'.patched = false ∨ stored.shards = x.shardStatuses := by
  rw [after_recordStatus x cluster stored (.ok ()) w' h rfl]
  cases w'.patched with
  | false => simp
  | true => simp

def grant : (r : PromoteReq) → r.Res
  | .reseed .now => (0 : Int)
  | .reseed (.mark _) => ()
  | .reseed (.getPod _) => .ok { name := "demo-shard-0-1", name_ne := secondPod_ne }
  | .reseed (.getNode _) => .ok []
  | .reseed (.patchAnnotations annotations) => .ok annotations
  | .reseed (.getPvc _) | .reseed (.deletePvc _) | .reseed (.deletePod _ _) | .reseed (.clearFinalizers _) => .ok ()
  | .getClaim name => .ok { name }
  | .listClaims => .ok []
  | .patchFence _ _ | .patchStatus _ _ => .ok ()
  | .exec _ => .ok promotedOutput

def healthyReconcile : StatusReconcile where
  codec := demoCodec
  shardStatuses := [{ standbyShard true with
    replicas := [{ pod := "demo-shard-0-1", endpoint := "demo-shard-0-1:5432", ready := true }] }]
  now := 0

theorem recorded_status_healthy : ∃ w', Ends statusApi healthyReconcile.recordStatus
    { held := demoCluster, stored := demoCluster }
    (.ok ()) w' ∧ w'.stored.shards = healthyReconcile.shardStatuses := by
  have he := ends_eval (S := statusApi) { helper := grant } healthyReconcile.recordStatus
    { held := demoCluster, stored := demoCluster }
  have hok : (healthyReconcile.recordStatus.eval (statusApi.answer { helper := grant })
      { held := demoCluster, stored := demoCluster }).1 = .ok () := by rfl
  rw [hok] at he
  refine ⟨_, he, (recorded_status_iff _ _ _ _ he).2 (.inl ?_)⟩
  rfl

def switchoverCluster : PostgresCluster :=
  { demoCluster with
    annotations := fun key => if key = switchoverTargetKey then some "demo-shard-0-1" else none
    shards := [standbyShard false] }

/-- After the switchover the patch of the annotation brings back the recorded status, in which the replica is not
ready, and this is what `Reconcile` writes. -/
theorem switchover_records_old_status : ∃ w', Ends statusApi healthyReconcile.recordStatus
    { held := switchoverCluster, stored := switchoverCluster } (.ok ()) w' ∧
      w'.stored.shards = [standbyShard false] ∧ healthyReconcile.shardStatuses ≠ [standbyShard false] := by
  have he := ends_eval (S := statusApi) { helper := grant } healthyReconcile.recordStatus
    { held := switchoverCluster, stored := switchoverCluster }
  have hok : (healthyReconcile.recordStatus.eval (statusApi.answer { helper := grant })
      { held := switchoverCluster, stored := switchoverCluster }).1 = .ok () := by rfl
  rw [hok] at he
  exact ⟨_, he, by decide +kernel, by decide +kernel⟩

end PostgresOperator.Cluster
