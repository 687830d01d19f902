import PostgresOperator.Calls.Threads
import PostgresOperator.Cluster.Api
import PostgresOperator.Reshard.DataJob

/-!
# Backup jobs

The `BackupJob` and the other objects that its controller reads and writes, and the requests it makes.  Points in time
and durations are in nanoseconds.
-/

namespace PostgresOperator.Backup

open Go Calls

/-! ### Objects -/

inductive BackupType
  | full
  | incremental
  | differential
  | restore
  deriving DecidableEq

/-- `executionMode`; `plugin` is the empty string. -/
inductive ExecutionMode
  | plugin
  | sidecar
  | job
  deriving DecidableEq

structure BackupRestoreSpec where
  targetTime : Option Int := none
  backupID : Str := []
  deriving DecidableEq

structure Container where
  name : Str
  image : Str
  deriving DecidableEq

/-- `BackupJobSpec`; `jobTemplate` is the list of the containers of the template. -/
structure BackupJobSpec where
  cluster : Str
  tool : Str
  repo : Str := []
  type : BackupType := .full
  restore : Option BackupRestoreSpec := none
  executionMode : ExecutionMode := .plugin
  jobTemplate : Option (List Container) := none
  labels : List (Str × Str) := []
  deriving DecidableEq

/-- `BackupJobPhase`; `new` is the empty string. -/
inductive BackupJobPhase
  | new
  | pending
  | running
  | succeeded
  | failed
  deriving DecidableEq

inductive BackupJobReason
  | awaitingInvocation
  | clusterNotFound
  | pluginNotRegistered
  | invalidSpec
  | backupInProgress
  | backupSucceeded
  | backupFailed
  | restoreInProgress
  | restoreClusterStopping
  | restoreWaitingForPodsToStop
  | restoreAlreadyInProgress
  | restoreSucceeded
  | restoreFailed
  | restoreVerifyingHealth
  | restorePostgresFailed
  | runnerJobCreated
  | runnerJobRunning
  | runnerJobSucceeded
  | runnerJobFailed
  | runnerJobMissing
  | sidecarTargetNotFound
  | sidecarExecutorNotConfigured
  deriving DecidableEq

structure ReadyCondition where
  status : Bool
  reason : BackupJobReason
  message : Str
  observedGeneration : Int
  deriving DecidableEq

structure BackupJobStatus where
  phase : BackupJobPhase := .new
  backupID : Str := []
  runnerJobName : Str := []
  startedAt : Option Int := none
  endedAt : Option Int := none
  bytes : Int := 0
  observedGeneration : Int := 0
  ready : Option ReadyCondition := none
  deriving DecidableEq

def BackupJobPhase.terminal (p : BackupJobPhase) : Bool := p = .succeeded || p = .failed

structure BackupJob where
  ns : Str
  name : Str
  generation : Int := 1
  resourceVersion : Nat := 0
  spec : BackupJobSpec
  status : BackupJobStatus := {}
  deriving DecidableEq

structure JobCondition where
  type : Str
  status : Str
  reason : Str := []
  message : Str := []
  deriving DecidableEq

/-- A batch Job: the `BackupJob` in its label, and the claim that it mounts, if it is a restore. -/
structure Job where
  name : Str
  backupJob : Str
  image : Str := []
  command : List Str := []
  claimName : Option Str := none
  conditions : List JobCondition := []
  completionTime : Option Int := none
  deriving DecidableEq

structure StatefulSet where
  name : Str
  replicas : Option Int
  containers : List Container
  deriving DecidableEq

/-- The status of a container of a pod; `waiting` is the reason why it waits. -/
structure ContainerHealth where
  name : Str
  ready : Bool
  waiting : Option Str := none
  restartCount : Int := 0
  deriving DecidableEq

abbrev Pod := List ContainerHealth

/-! ### Backup tools -/

structure ClusterTarget where
  ns : Str
  name : Str
  deriving DecidableEq

structure BackupOptions where
  type : BackupType
  repo : Str
  labels : List (Str × Str)
  executionMode : ExecutionMode
  deriving DecidableEq

structure BackupResult where
  backupID : Str
  bytes : Int
  deriving DecidableEq

structure BackupSidecarTarget where
  ns : Str
  pod : Str
  container : Str
  deriving DecidableEq

structure BackupCommandPlugin where
  backupCommand : ClusterTarget → BackupOptions → Except Str (List Str)
  restoreCommand : ClusterTarget → Int → Except Str (List Str)
  parseBackupResult : Str → BackupOptions → BackupResult

/-- A registered `BackupPlugin`, with its commands if it is a `BackupCommandPlugin`.  What it does is a request. -/
structure BackupPlugin where
  commands : Option BackupCommandPlugin

/-- The configuration of `BackupJobReconciler`; `hash` is the first part of the SHA-256 of a name. -/
structure Reconciler where
  plugins : Option (Str → Option BackupPlugin)
  sidecarExecutor : Bool := true
  hash : Str → Str

/-! ### Requests -/

inductive BackupReq
  | getBackupJob (name : Str)
  | getCluster (name : Str)
  | updateStatus (name : Str) (resourceVersion : Nat) (status : BackupJobStatus)
  | patchOwner (cluster : Str) (owner : Option Str)
  | getJob (name : Str)
  | createJob (job : Job)
  | getStatefulSet (name : Str)
  | updateStatefulSet (name : Str) (replicas : Int)
  | listPods (cluster : Str) (ordinal : Int)
  | now
  | performBackup (tool : Str) (target : ClusterTarget) (options : BackupOptions)
  | restorePIT (tool : Str) (target : ClusterTarget) (time : Int)
  | exec (target : BackupSidecarTarget) (command : List Str)

def BackupReq.Res : BackupReq → Type
  | .getBackupJob _ => Except ApiError BackupJob
  | .getCluster _ => Except ApiError Cluster.PostgresCluster
  | .getJob _ => Except ApiError Job
  | .getStatefulSet _ => Except ApiError StatefulSet
  | .listPods _ _ => Except ApiError (List Pod)
  | .updateStatus _ _ _ | .patchOwner _ _ | .createJob _ | .updateStatefulSet _ _ => Except ApiError Unit
  | .now => Int
  | .performBackup _ _ _ => Except Str BackupResult
  | .restorePIT _ _ _ => Except Str Unit
  | .exec _ _ => Except Str Str

abbrev BackupApi : Interface where
  Req := BackupReq
  Res := BackupReq.Res
  failed {r} a := match r, a with
    | .now, _ => false
    | .getBackupJob _, a | .getCluster _, a | .getJob _, a | .getStatefulSet _, a | .listPods _ _, a
    | .updateStatus _ _ _, a | .patchOwner _ _, a | .createJob _, a | .updateStatefulSet _ _, a
    | .performBackup _ _ _, a | .restorePIT _ _ _, a | .exec _ _, a => !Except.isOk a

abbrev BackupProg := Prog BackupApi

def getBackupJob (name : Str) : BackupProg (Except ApiError BackupJob) :=
  Prog.request (I := BackupApi) (.getBackupJob name)

def getCluster (name : Str) : BackupProg (Except ApiError Cluster.PostgresCluster) :=
  Prog.request (I := BackupApi) (.getCluster name)

def updateStatus (name : Str) (resourceVersion : Nat) (status : BackupJobStatus) :
    BackupProg (Except ApiError Unit) :=
  Prog.request (I := BackupApi) (.updateStatus name resourceVersion status)

def patchOwner (cluster : Str) (owner : Option Str) : BackupProg (Except ApiError Unit) :=
  Prog.request (I := BackupApi) (.patchOwner cluster owner)

def getJob (name : Str) : BackupProg (Except ApiError Job) := Prog.request (I := BackupApi) (.getJob name)

def createJob (job : Job) : BackupProg (Except ApiError Unit) := Prog.request (I := BackupApi) (.createJob job)

def getStatefulSet (name : Str) : BackupProg (Except ApiError StatefulSet) :=
  Prog.request (I := BackupApi) (.getStatefulSet name)

def updateStatefulSet (name : Str) (replicas : Int) : BackupProg (Except ApiError Unit) :=
  Prog.request (I := BackupApi) (.updateStatefulSet name replicas)

def listPods (cluster : Str) (ordinal : Int) : BackupProg (Except ApiError (List Pod)) :=
  Prog.request (I := BackupApi) (.listPods cluster ordinal)

def timeNow : BackupProg Int := Prog.request (I := BackupApi) .now

def performBackup (tool : Str) (target : ClusterTarget) (options : BackupOptions) :
    BackupProg (Except Str BackupResult) :=
  Prog.request (I := BackupApi) (.performBackup tool target options)

def restorePIT (tool : Str) (target : ClusterTarget) (time : Int) : BackupProg (Except Str Unit) :=
  Prog.request (I := BackupApi) (.restorePIT tool target time)

def execSidecar (target : BackupSidecarTarget) (command : List Str) : BackupProg (Except Str Str) :=
  Prog.request (I := BackupApi) (.exec target command)

end PostgresOperator.Backup
