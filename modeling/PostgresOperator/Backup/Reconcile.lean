import PostgresOperator.Backup.Api
import PostgresOperator.Calls.Loop

/-!
# Reconciling a backup job

`backupjob_controller.go`.  A `BackupJob` goes from no phase to Pending and to Running, and then its tool is called:
the plugin, or a command in the pod of the primary, or a Job.  A restore in the sidecar mode stops the shard, runs a
Job on its volume and starts the shard again; the annotation `restore-in-progress` of the cluster names the
`BackupJob` that does so.
-/

namespace PostgresOperator.Backup

open Go Calls

/-! ### Errors and results -/

def isNotFound : ApiError → Bool
  | .notFound _ => true
  | _ => false

def isAlreadyExists : ApiError → Bool
  | .alreadyExists _ => true
  | _ => false

def isConflict : ApiError → Bool
  | .conflict _ => true
  | _ => false

inductive Requeue
  | no
  | now
  | after (duration : Int)
  deriving DecidableEq

def backupJobRunnerRequeueWait : Int := 15 * Cluster.second

def backupRestoreHealthTimeout : Int := 5 * Cluster.minute

/-! ### The status -/

variable (bj : BackupJob) (job : Job) (R : Reconciler) (cluster : Cluster.PostgresCluster)

def setBackupJobCondition (status : Bool) (reason : BackupJobReason) (message : Str) : BackupJob :=
  { bj with status := { bj.status with ready := some ⟨status, reason, message, bj.generation⟩ } }

def setPhase (phase : BackupJobPhase) : BackupJob :=
  { bj with status := { bj.status with phase, observedGeneration := bj.generation } }

def observed : BackupJob := { bj with status := { bj.status with observedGeneration := bj.generation } }

def setEnded (phase : BackupJobPhase) (endedAt : Int) : BackupJob :=
  { bj with status := { bj.status with phase, endedAt := some endedAt, observedGeneration := bj.generation } }

def markFailed (reason : BackupJobReason) (message : Str) : BackupJob :=
  setBackupJobCondition (setPhase bj .failed) false reason message

def statusUpdate : BackupProg (Except ApiError Unit) := do
  match ← updateStatus bj.name bj.resourceVersion bj.status with
  | .ok () => pure (.ok ())
  | .error e =>
    if !isConflict e then pure (.error e)
    else match ← getBackupJob bj.name with
      | .error e => pure (.error e)
      | .ok fresh =>
        match ← updateStatus fresh.name fresh.resourceVersion bj.status with
        | .ok () => pure (.ok ())
        | .error e => pure (if isConflict e then .ok () else .error e)

abbrev Result := Requeue × Except ApiError Unit

def returnStatus (q : Requeue) (bj : BackupJob) : BackupProg Result := do
  let e ← statusUpdate bj
  pure (q, e)

theorem only_statusUpdate {φ : BackupReq → Prop} {bj : BackupJob} (hg : ∀ name, φ (.getBackupJob name))
    (hu : ∀ name version, φ (.updateStatus name version bj.status)) : (statusUpdate bj).Only φ := by
  refine .request (hu _ _) ?_
  rintro (e | ⟨⟩)
  · dsimp only
    split
    · trivial
    refine .request (hg _) ?_
    rintro (e | fresh)
    · trivial
    refine .request (hu _ _) ?_
    rintro (e | ⟨⟩) <;> trivial
  · trivial

theorem only_returnStatus {φ : BackupReq → Prop} {q : Requeue} {bj : BackupJob} (hg : ∀ name, φ (.getBackupJob name))
    (hu : ∀ name version, φ (.updateStatus name version bj.status)) : (returnStatus q bj).Only φ :=
  (only_statusUpdate hg hu).bind fun _ => trivial

def returnError (e : ApiError) : BackupProg Result := pure (.no, .error e)

/-! ### Checks -/

def missingTemplate : Str := "executionMode=job requires spec.jobTemplate with at least one runnable container"

def missingContainers : Str := "executionMode=job requires spec.jobTemplate.spec.template.spec.containers"

def unnamedContainer : Str := "executionMode=job requires every jobTemplate container to have a name"

def containerWithoutImage : Str := "executionMode=job requires every jobTemplate container to have an image"

def missingRestorePoint : Str := "executionMode=job restore requires spec.restore.targetTime or spec.restore.backupID"

def missingTargetTime : Str :=
  "restore BackupJob requires spec.restore.targetTime; backupID-only restore is not implemented by BackupPlugin.RestorePIT"

def validateContainer (c : Container) : Str :=
  if trimSpace c.name = [] then unnamedContainer
  else if trimSpace c.image = [] then containerWithoutImage
  else []

def validateBackupJobSpecForExecution (spec : BackupJobSpec) : Str :=
  if spec.executionMode = .job then
    match spec.jobTemplate with
    | none => missingTemplate
    | some [] => missingContainers
    | some containers =>
      match containers.find? fun c => validateContainer c ≠ [] with
      | some c => validateContainer c
      | none =>
        if spec.type = .restore ∧ (spec.restore.all fun r => r.targetTime = none ∧ trimSpace r.backupID = []) then
          missingRestorePoint
        else []
  else if spec.type ≠ .restore then []
  else if (spec.restore.bind BackupRestoreSpec.targetTime).isNone then missingTargetTime
  else []

def targetTime (bj : BackupJob) : Int := (bj.spec.restore.bind BackupRestoreSpec.targetTime).getD 0

def clusterTarget : ClusterTarget := ⟨bj.ns, bj.spec.cluster⟩

def backupOptions : BackupOptions := ⟨bj.spec.type, bj.spec.repo, bj.spec.labels, bj.spec.executionMode⟩

def pluginMessage (text : Str) : Str := "BackupPlugin " ++ bj.spec.tool ++ text

/-! ### Jobs -/

def findJobCondition (type : Str) : Option JobCondition := job.conditions.find? fun c => c.type = type

def jobConditionTrue (type : Str) : Bool := (findJobCondition job type).any fun c => c.status = str "True"

def Job.complete : Bool := jobConditionTrue job "Complete"

def Job.failure : Option JobCondition := (findJobCondition job "Failed").filter fun c => c.status = "True"

def failedMessage (what : Str) (job : Job) (failed : JobCondition) : Str :=
  trimSpace <| if failed.reason ≠ [] ∨ failed.message ≠ [] then
      what ++ job.name ++ " failed: " ++ trimSpace failed.reason ++ " " ++ trimSpace failed.message
    else what ++ job.name ++ " failed"

def trimDashes (s : Str) : Str :=
  ((s.dropWhile (· = byte '-')).reverse.dropWhile (· = byte '-')).reverse

def Reconciler.backupRunnerJobName (backupJobName : Str) : Str :=
  if backupJobName.length + (str "-runner").length ≤ 63 then backupJobName ++ "-runner"
  else
    let hash := R.hash backupJobName
    let start := trimDashes (backupJobName.take (63 - (str "-runner").length - hash.length - 1))
    (if start = [] then str "backupjob" else start) ++ str "-" ++ hash ++ str "-runner"

def buildBackupRunnerJob (name : Str) : Job := { name, backupJob := bj.name }

def reconcileRunnerJob (bj : BackupJob) : BackupProg Result := do
  if bj.status.runnerJobName = [] then
    let jobName := R.backupRunnerJobName bj.name
    let created : BackupJob := observed { bj with status := { bj.status with runnerJobName := jobName } }
    let done := returnStatus .now <| setBackupJobCondition created false .runnerJobCreated
      ("Runner Job " ++ jobName ++ " created for executionMode=job")
    match ← createJob (buildBackupRunnerJob bj jobName) with
    | .error e => if isAlreadyExists e then done else returnError e
    | .ok () => done
  else match ← getJob bj.status.runnerJobName with
    | .error e =>
      if isNotFound e then
        let endedAt ← timeNow
        returnStatus .no <| setBackupJobCondition (setEnded bj .failed endedAt) false .runnerJobMissing
          ("Runner Job " ++ bj.status.runnerJobName ++ " is missing before terminal status")
      else returnError e
    | .ok runner =>
      if runner.complete then
        let endedAt ← timeNow
        let ended := setEnded bj .succeeded endedAt
        let named : BackupJob := if ended.status.backupID = [] then
            { ended with status := { ended.status with backupID := runner.name } }
          else ended
        returnStatus .no <| setBackupJobCondition named true .runnerJobSucceeded
          ("Runner Job " ++ runner.name ++ " completed successfully")
      else match runner.failure with
        | some failed =>
          let endedAt ← timeNow
          returnStatus .no <| setBackupJobCondition (setEnded bj .failed endedAt) false .runnerJobFailed
            (failedMessage "Runner Job " runner failed)
        | none =>
          returnStatus (.after backupJobRunnerRequeueWait) <| setBackupJobCondition
            (observed bj) false .runnerJobRunning
            ("Runner Job " ++ runner.name ++ " is still running")

/-! ### The restore lock -/

def restoreInProgressKey : Str := "postgres.keiailab.io/restore-in-progress"

def ownerOf (value : Option Str) : Str := trimSpace (value.getD [])

def restoreOwner : Str := ownerOf (cluster.annotations restoreInProgressKey)

def ensureClusterRestoreAnnotation :
    BackupProg (Except (Except ApiError Unit) Cluster.PostgresCluster) := do
  let owner := restoreOwner cluster
  if owner = bj.name then pure (.ok cluster)
  else if owner ≠ [] then
    let e ← statusUpdate <| markFailed bj .restoreAlreadyInProgress
      ("PostgresCluster " ++ cluster.name ++ " already has offline restore owner BackupJob " ++ owner)
    pure (.error e)
  else match ← patchOwner cluster.name (some bj.name) with
    | .error e => pure (.error (.error e))
    | .ok () =>
      pure (.ok { cluster with
        annotations := Function.update cluster.annotations restoreInProgressKey (some bj.name) })

def releaseClusterRestoreAnnotation : BackupProg (Except ApiError Unit) := do
  let owner := restoreOwner cluster
  if owner = [] ∨ owner ≠ bj.name then pure (.ok ())
  else patchOwner cluster.name none

/-! ### Restoring in the sidecar mode -/

def containerHealth (cs : ContainerHealth) : Option Bool :=
  if cs.name ≠ "postgres" then none
  else if cs.ready then some true
  else if cs.waiting = some (str "CrashLoopBackOff") ∨ cs.restartCount ≥ 2 then some false
  else none

def restorePrimaryPodHealth (pods : List Pod) : Option Bool := pods.flatten.findSome? containerHealth

def restoreTimedOut (runner : Job) : BackupProg Bool :=
  match runner.completionTime with
  | none => pure false
  | some t => do
    let now ← timeNow
    pure (decide (now - t > backupRestoreHealthTimeout))

def finalizeSidecarRestore (runner : Job) : BackupProg Result := do
  match ← releaseClusterRestoreAnnotation bj cluster with
  | .error e => returnError e
  | .ok () => match ← listPods cluster.name 0 with
    | .error e => returnError e
    | .ok pods => match restorePrimaryPodHealth pods with
      | some true =>
        let endedAt ← timeNow
        returnStatus .no <| setBackupJobCondition (setEnded bj .succeeded endedAt) true .restoreSucceeded
          ("Restore runner Job " ++ runner.name ++ " completed and PostgreSQL is Ready after recovery")
      | some false =>
        let endedAt ← timeNow
        returnStatus .no <| setBackupJobCondition (setEnded bj .failed endedAt) false .restorePostgresFailed
          ("Restore files applied but PostgreSQL failed to start (CrashLoopBackOff) — " ++
            "the recovery target may be beyond the archived WAL range (unreachable)")
      | none =>
        if ← restoreTimedOut runner then
          let endedAt ← timeNow
          returnStatus .no <| setBackupJobCondition (setEnded bj .failed endedAt) false .restorePostgresFailed
            "Restore files applied but PostgreSQL did not become Ready within the health timeout"
        else
          returnStatus (.after backupJobRunnerRequeueWait) <| setBackupJobCondition
            (observed bj) false .restoreVerifyingHealth
            "Restore files applied; waiting for PostgreSQL to start and reach Ready after recovery"

def postgresImageFromStatefulSet (sts : StatefulSet) : Option Str :=
  (sts.containers.find? fun c => c.name = str "postgres" ∧ trimSpace c.image ≠ []).map Container.image

def statefulSetDataPVCName (stsName : Str) (ordinal : Int) : Str := "data-" ++ stsName ++ "-" ++ itoa ordinal

def buildSidecarRestoreJob (sts : StatefulSet) (name : Str) (command : List Str) : Except Str Job :=
  match postgresImageFromStatefulSet sts with
  | none => .error ("source StatefulSet " ++ sts.name ++ " has no \"postgres\" container image")
  | some image =>
    .ok { name, backupJob := bj.name, image, command, claimName := some (statefulSetDataPVCName sts.name 0) }

/-- The end of `reconcileSidecarRestore`: the shard is stopped, and its Job is there or is made. -/
def reconcileRestoreJob (bj : BackupJob) (cluster : Cluster.PostgresCluster) (commands : BackupCommandPlugin)
    (sts : StatefulSet) : BackupProg Result := do
  if bj.status.runnerJobName = [] then
    match commands.restoreCommand (clusterTarget bj) (targetTime bj) with
    | .error e => returnStatus .no (markFailed bj .invalidSpec e)
    | .ok command =>
      let jobName := R.backupRunnerJobName bj.name
      match buildSidecarRestoreJob bj sts jobName command with
      | .error e => returnStatus .no (markFailed bj .invalidSpec e)
      | .ok runner =>
        let created : BackupJob := observed { bj with status := { bj.status with runnerJobName := jobName } }
        let done := returnStatus .now <| setBackupJobCondition created false .runnerJobCreated
          ("Restore runner Job " ++ jobName ++ " created for offline PITR restore")
        match ← createJob runner with
        | .error e => if isAlreadyExists e then done else returnError e
        | .ok () => done
  else match ← getJob bj.status.runnerJobName with
    | .error e =>
      if isNotFound e then
        let endedAt ← timeNow
        returnStatus .no <| setBackupJobCondition (setEnded bj .failed endedAt) false .runnerJobMissing
          ("Restore runner Job " ++ bj.status.runnerJobName ++ " is missing before terminal status")
      else returnError e
    | .ok runner =>
      if runner.complete then finalizeSidecarRestore bj cluster runner
      else match runner.failure with
        | some failed =>
          let endedAt ← timeNow
          returnStatus .no <| setBackupJobCondition (setEnded bj .failed endedAt) false .restoreFailed
            (failedMessage "Restore runner Job " runner failed)
        | none =>
          returnStatus (.after backupJobRunnerRequeueWait) <| setBackupJobCondition
            (observed bj) false .restoreInProgress
            ("Shard StatefulSet " ++ shardStatefulSetName cluster.name 0 ++
              " is stopped; restore runner Job orchestration pending")

/-- The middle of `reconcileSidecarRestore`: the shard is stopped. -/
def reconcileStopped (bj : BackupJob) (cluster : Cluster.PostgresCluster) (commands : BackupCommandPlugin) :
    BackupProg Result := do
  let stsName := shardStatefulSetName cluster.name 0
  match ← getStatefulSet stsName with
  | .error e =>
    if isNotFound e then
      returnStatus .no <| markFailed bj .restoreFailed
        ("Shard StatefulSet " ++ stsName ++ " not found for sidecar PITR restore")
    else returnError e
  | .ok sts =>
    if sts.replicas ≠ some 0 then
      match ← updateStatefulSet stsName 0 with
      | .error e => returnError e
      | .ok () =>
        returnStatus .now <| setBackupJobCondition (observed bj) false .restoreClusterStopping
          ("Scaling shard StatefulSet " ++ stsName ++ " to 0 before offline PITR restore")
    else match ← listPods cluster.name 0 with
      | .error e => returnError e
      | .ok pods =>
        if pods ≠ [] then
          returnStatus (.after backupJobRunnerRequeueWait) <| setBackupJobCondition
            (observed bj) false .restoreWaitingForPodsToStop
            "Waiting for shard-0 Pods to stop before mounting the data PVC in a restore Job"
        else reconcileRestoreJob R bj cluster commands sts

def completeRunner : BackupProg (Option Job) := do
  if bj.status.runnerJobName = [] then pure none
  else match ← getJob bj.status.runnerJobName with
    | .error _ => pure none
    | .ok runner => pure (if runner.complete then some runner else none)

def reconcileSidecarRestore (bj : BackupJob) (cluster : Cluster.PostgresCluster) (commands : BackupCommandPlugin) :
    BackupProg Result := do
  match ← ensureClusterRestoreAnnotation bj cluster with
  | .error e => pure (.no, e)
  | .ok cluster => match ← completeRunner bj with
    | some runner => finalizeSidecarRestore bj cluster runner
    | none => reconcileStopped R bj cluster commands

/-! ### Backups -/

def backupSidecarTarget : Option BackupSidecarTarget :=
  cluster.shards.findSome? fun shard =>
    if shard.ordinal ≠ 0 then none
    else (shard.primary.filter fun p => p.ready && p.pod ≠ []).map fun p => ⟨cluster.ns, p.pod, "postgres"⟩

/-- `reconcileSidecar`.  The branches for a restore after the first one are never taken. -/
def reconcileSidecar (bj : BackupJob) (cluster : Cluster.PostgresCluster) (plugin : BackupPlugin) :
    BackupProg Result := do
  match plugin.commands with
  | none =>
    returnStatus .no (markFailed bj .invalidSpec (pluginMessage bj " does not support sidecar command planning"))
  | some commands =>
    if bj.spec.type = .restore then reconcileSidecarRestore R bj cluster commands
    else if !R.sidecarExecutor then
      returnStatus .no (markFailed bj .sidecarExecutorNotConfigured "Backup sidecar executor is not configured")
    else match backupSidecarTarget cluster with
      | none =>
        returnStatus (.after backupJobRunnerRequeueWait) <| setBackupJobCondition (setPhase bj .running) false
          .sidecarTargetNotFound "Ready primary pod not found for sidecar BackupJob"
      | some target =>
        match commands.backupCommand (clusterTarget bj) (backupOptions bj) with
        | .error e => returnStatus .no (markFailed bj .invalidSpec e)
        | .ok command =>
          let result ← execSidecar target command
          let endedAt ← timeNow
          match result with
          | .error e =>
            returnStatus .no <| setBackupJobCondition (setEnded bj .failed endedAt) false .backupFailed
              (pluginMessage bj (" sidecar backup failed: " ++ e))
          | .ok output =>
            let result := commands.parseBackupResult output (backupOptions bj)
            let ended := setEnded bj .succeeded endedAt
            returnStatus .no <| setBackupJobCondition
              { ended with status := { ended.status with backupID := result.backupID, bytes := result.bytes } } true
              .backupSucceeded (pluginMessage bj " sidecar backup succeeded")

def reconcileRestore : BackupProg Result := do
  let result ← restorePIT bj.spec.tool (clusterTarget bj) (targetTime bj)
  let endedAt ← timeNow
  match result with
  | .error e =>
    returnStatus .no <| setBackupJobCondition (setEnded bj .failed endedAt) false .restoreFailed
      (pluginMessage bj (" PITR restore failed: " ++ e))
  | .ok () =>
    let ended := setEnded bj .succeeded endedAt
    let backupID := (bj.spec.restore.map BackupRestoreSpec.backupID).getD []
    returnStatus .no <| setBackupJobCondition
      (if backupID ≠ [] then { ended with status := { ended.status with backupID } } else ended) true
        .restoreSucceeded
      (pluginMessage bj " PITR restore succeeded")

def performBackupJob : BackupProg Result := do
  let result ← performBackup bj.spec.tool (clusterTarget bj) (backupOptions bj)
  let endedAt ← timeNow
  match result with
  | .error e =>
    returnStatus .no <| setBackupJobCondition (setEnded bj .failed endedAt) false .backupFailed
      (pluginMessage bj (" failed: " ++ e))
  | .ok result =>
    let ended := setEnded bj .succeeded endedAt
    returnStatus .no <| setBackupJobCondition
      { ended with status := { ended.status with backupID := result.backupID, bytes := result.bytes } } true
        .backupSucceeded
      (pluginMessage bj (" succeeded: backupID=" ++ result.backupID))

def reconcileRunning (bj : BackupJob) (cluster : Cluster.PostgresCluster) (plugin : Option BackupPlugin) :
    BackupProg Result :=
  match bj.spec.executionMode, plugin with
  | .job, _ => reconcileRunnerJob R bj
  | .sidecar, some plugin => reconcileSidecar R bj cluster plugin
  | .plugin, some _ => if bj.spec.type = .restore then reconcileRestore bj else performBackupJob bj
  | _, none => pure (.no, .ok ())

/-- The switch over the phases in `Reconcile`. -/
def reconcilePhase (bj : BackupJob) (cluster : Cluster.PostgresCluster) (plugin : Option BackupPlugin) :
    BackupProg Result :=
  match bj.status.phase with
  | .new =>
    returnStatus .now <| setBackupJobCondition (setPhase bj .pending) false .awaitingInvocation
      "BackupJob accepted — awaiting plugin invocation"
  | .pending => do
    let now ← timeNow
    let running := setPhase bj .running
    let started : BackupJob := { running with status := { running.status with startedAt := some now } }
    returnStatus .now <|
      if bj.spec.type = .restore then
        setBackupJobCondition started false .restoreInProgress (pluginMessage bj " PITR restore in progress")
      else setBackupJobCondition started false .backupInProgress (pluginMessage bj " invocation in progress")
  | .running => reconcileRunning R bj cluster plugin
  | .succeeded | .failed => pure (.no, .ok ())

def reconcileChecked (bj : BackupJob) (cluster : Cluster.PostgresCluster) : BackupProg Result :=
  let invalid := validateBackupJobSpecForExecution bj.spec
  if invalid ≠ [] then returnStatus .no (markFailed bj .invalidSpec invalid)
  else if bj.spec.executionMode = .job then reconcilePhase R bj cluster none
  else match R.plugins with
    | none =>
      returnStatus .no <| markFailed bj .pluginNotRegistered
        "Plugin Registry is not configured (operator misconfiguration)"
    | some plugins => match plugins bj.spec.tool with
      | none =>
        returnStatus .no <| markFailed bj .pluginNotRegistered
          (pluginMessage bj " is not registered (RFC 0004 §4 — pgbackrest 1차)")
      | some plugin => reconcilePhase R bj cluster (some plugin)

def reconcileOpen (bj : BackupJob) : BackupProg Result := do
  match ← getCluster bj.spec.cluster with
  | .error e =>
    if isNotFound e then
      returnStatus .no <| markFailed bj .clusterNotFound
        ("Referenced PostgresCluster " ++ bj.spec.cluster ++ " not found in namespace " ++ bj.ns)
    else returnError e
  | .ok cluster => reconcileChecked R bj cluster

def reconcile (name : Str) : BackupProg Result := do
  match ← getBackupJob name with
  | .error e => if isNotFound e then pure (.no, .ok ()) else returnError e
  | .ok bj => if bj.status.phase.terminal then pure (.no, .ok ()) else reconcileOpen R bj

end PostgresOperator.Backup
