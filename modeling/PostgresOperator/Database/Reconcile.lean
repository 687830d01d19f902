import PostgresOperator.Backup.Reconcile
import PostgresOperator.Calls.Trace
import PostgresOperator.Database.Script

/-!
# Reconciling roles and databases

`postgresuser_controller.go` and `postgresdatabase_controller.go`.  The two controllers take the same steps: the
checks, the finalizer, the cluster, the pod of the primary, the script in that pod, the status.  They are one program
with the parameters of `Kind`; a role has a password in addition, which is read from a Secret.
-/

namespace PostgresOperator.Database

open Go Calls Backup

/-! ### Objects -/

/-- The reasons of the condition `Ready`; `reconciled` is `UserReconciled` or `DatabaseReconciled`. -/
inductive Reason
  | invalidSpec
  | clusterNotFound
  | primaryNotReady
  | sqlExecutorMissing
  | passwordSecretError
  | sqlExecutionFailed
  | reconciled
  deriving DecidableEq

structure Condition where
  status : Bool
  reason : Reason
  message : Str
  observedGeneration : Int
  deriving DecidableEq

/-- `PostgresUserStatus` and `PostgresDatabaseStatus`; the version of the Secret is that of a role. -/
structure Status where
  applied : Bool := false
  observedGeneration : Int := 0
  message : Str := []
  passwordSecretResourceVersion : Str := []
  ready : Option Condition := none
  deriving DecidableEq

structure Object (Spec : Type) where
  ns : Str
  name : Str
  generation : Int := 1
  resourceVersion : Nat := 0
  deleted : Bool := false
  finalizers : List Str := []
  spec : Spec
  status : Status := {}

abbrev PostgresUser := Object PostgresUserSpec

abbrev PostgresDatabase := Object PostgresDatabaseSpec

structure Secret where
  data : Str → Option Str
  resourceVersion : Str

/-! ### Requests -/

inductive SqlReq (Spec : Type)
  | get (name : Str)
  /-- The answer is the object as it is stored. -/
  | update (object : Object Spec)
  | updateStatus (name : Str) (resourceVersion : Nat) (status : Status)
  | getCluster (name : Str)
  | getSecret (name : Str)
  | exec (target : BackupSidecarTarget) (command : List Str)

variable {Spec : Type}

def SqlReq.Res : SqlReq Spec → Type
  | .get _ | .update _ => Except ApiError (Object Spec)
  | .updateStatus _ _ _ => Except ApiError Unit
  | .getCluster _ => Except ApiError Cluster.PostgresCluster
  | .getSecret _ => Except ApiError Secret
  | .exec _ _ => Except Str Str

abbrev SqlApi (Spec : Type) : Interface where
  Req := SqlReq Spec
  Res := SqlReq.Res
  failed {r} a := match r, a with
    | .get _, a | .update _, a | .updateStatus _ _ _, a | .getCluster _, a | .getSecret _, a | .exec _ _, a =>
      !Except.isOk a

abbrev SqlProg (Spec : Type) := Prog (SqlApi Spec)

def ask (r : SqlReq Spec) : SqlProg Spec r.Res := Prog.request (I := SqlApi Spec) r

inductive Failure
  | api (e : ApiError)
  | exec (text : Str)
  | executorMissing (text : Str)

abbrev Outcome := Requeue × Except Failure Unit

/-! ### The program -/

/-- What distinguishes the two controllers.  `clause` gives the clause of the password and the version of its Secret,
or the text for the status if there is none. -/
structure Kind (Spec : Type) where
  title : Str
  lowerTitle : Str
  finalizer : Str
  finalizerLegacy : Str
  cluster : Spec → Str
  specName : Spec → Str
  reclaimPolicy : Spec → DatabaseReclaimPolicy
  validate : Spec → Str
  clause : Object Spec → SqlProg Spec (Except ApiError (Except Str (Str × Str)))
  command : Spec → Str → List Str
  ensureAbsent : Spec → Spec

def primaryRequeueWait : Int := 15 * Cluster.second

def markStatus (o : Object Spec) (applied : Bool) (reason : Reason) (message : Str) : Object Spec :=
  { o with status := { o.status with
      applied, message, observedGeneration := o.generation, ready := some ⟨applied, reason, message, o.generation⟩ } }

def statusUpdate (o : Object Spec) : SqlProg Spec (Except Failure Unit) := do
  match ← ask (.updateStatus o.name o.resourceVersion o.status) with
  | .ok () => pure (.ok ())
  | .error e =>
    if !isConflict e then pure (.error (.api e))
    else match ← ask (.get o.name) with
      | .error e => pure (.error (.api e))
      | .ok fresh =>
        match ← ask (.updateStatus fresh.name fresh.resourceVersion o.status) with
        | .ok () => pure (.ok ())
        | .error e => pure (if isConflict e then .ok () else .error (.api e))

def returnMarked (o : Object Spec) (applied : Bool) (reason : Reason) (message : Str) : SqlProg Spec Outcome := do
  let e ← statusUpdate (markStatus o applied reason message)
  pure (.no, e)

namespace Kind

variable (K : Kind Spec)

def removeFinalizers (o : Object Spec) : SqlProg Spec Outcome := do
  match ← ask (.update { o with finalizers := o.finalizers.filter fun f => f ≠ K.finalizer ∧ f ≠ K.finalizerLegacy })
    with
  | .error e => pure (.no, .error (.api e))
  | .ok _ => pure (.no, .ok ())

variable (sqlExecutor : Bool)

def reconcileDelete (o : Object Spec) : SqlProg Spec Outcome := do
  if K.finalizer ∉ o.finalizers ∧ K.finalizerLegacy ∉ o.finalizers then pure (.no, .ok ())
  else if defaultedDatabaseReclaimPolicy (K.reclaimPolicy o.spec) ≠ .delete then K.removeFinalizers o
  else match ← ask (.getCluster (K.cluster o.spec)) with
    | .error e => if isNotFound e then K.removeFinalizers o else pure (.no, .error (.api e))
    | .ok cluster => match backupSidecarTarget cluster with
      | none => pure (.after primaryRequeueWait, .ok ())
      | some target =>
        if !sqlExecutor then
          pure (.no, .error (.executorMissing (K.lowerTitle ++ " SQL executor is not configured")))
        else match ← ask (.exec target (K.command (K.ensureAbsent o.spec) [])) with
          | .error e => pure (.no, .error (.exec e))
          | .ok _ => K.removeFinalizers o

def reconcileTarget (o : Object Spec) (target : BackupSidecarTarget) : SqlProg Spec Outcome := do
  match ← K.clause o with
  | .error e => pure (.no, .error (.api e))
  | .ok (.error passwordError) => returnMarked o false .passwordSecretError passwordError
  | .ok (.ok (passwordClause, passwordSecretResourceVersion)) =>
    match ← ask (.exec target (K.command o.spec passwordClause)) with
    | .error e => returnMarked o false .sqlExecutionFailed (K.title ++ " SQL execution failed: " ++ e)
    | .ok _ =>
      returnMarked { o with status := { o.status with passwordSecretResourceVersion } } true .reconciled
        (K.title ++ " " ++ K.specName o.spec ++ " reconciled")

def reconcileOn (o : Object Spec) (cluster : Cluster.PostgresCluster) : SqlProg Spec Outcome := do
  match backupSidecarTarget cluster with
  | none =>
    match ← statusUpdate (markStatus o false .primaryNotReady
        ("ready primary Pod for PostgresCluster " ++ cluster.name ++ " not found")) with
    | .error e => pure (.no, .error e)
    | .ok () => pure (.after primaryRequeueWait, .ok ())
  | some target =>
    if !sqlExecutor then
      returnMarked o false .sqlExecutorMissing (K.title ++ " SQL executor is not configured")
    else K.reconcileTarget o target

def reconcileCluster (o : Object Spec) : SqlProg Spec Outcome := do
  match ← ask (.getCluster (K.cluster o.spec)) with
  | .error e =>
    if isNotFound e then
      returnMarked o false .clusterNotFound
        ("Referenced PostgresCluster " ++ K.cluster o.spec ++ " not found in namespace " ++ o.ns)
    else pure (.no, .error (.api e))
  | .ok cluster => K.reconcileOn sqlExecutor o cluster

def reconcileRead (o : Object Spec) : SqlProg Spec Outcome := do
  if o.deleted then K.reconcileDelete sqlExecutor o
  else if K.validate o.spec ≠ [] then returnMarked o false .invalidSpec (K.validate o.spec)
  else if defaultedDatabaseReclaimPolicy (K.reclaimPolicy o.spec) = .delete ∧ K.finalizer ∉ o.finalizers then
    match ← ask (.update { o with finalizers := o.finalizers ++ [K.finalizer] }) with
    | .error e => pure (.no, .error (.api e))
    | .ok o => K.reconcileCluster sqlExecutor o
  else K.reconcileCluster sqlExecutor o

def reconcile (name : Str) : SqlProg Spec Outcome := do
  match ← ask (.get name) with
  | .error e => if isNotFound e then pure (.no, .ok ()) else pure (.no, .error (.api e))
  | .ok o => K.reconcileRead sqlExecutor o

end Kind

/-! ### The two controllers -/

def postgresUserPasswordClause (user : PostgresUser) :
    SqlProg PostgresUserSpec (Except ApiError (Except Str (Str × Str))) := do
  if user.spec.disablePassword then pure (.ok (.ok ("PASSWORD NULL", [])))
  else match user.spec.passwordSecretRef with
    | none => pure (.ok (.ok ([], [])))
    | some name =>
      let secretError text := Except.ok (.error ("password Secret " ++ name ++ text))
      match ← ask (.getSecret name) with
      | .error e => pure (if isNotFound e then secretError (" not found in namespace " ++ user.ns) else .error e)
      | .ok secret => match secret.data "username" with
        | none => pure (secretError " must contain data.username")
        | some username =>
          if username ≠ trimSpace user.spec.name then pure (secretError " data.username must match spec.name")
          else match secret.data "password" with
            | none => pure (secretError " must contain data.password")
            | some password => pure (.ok (.ok ("PASSWORD " ++ sqlLiteral password, secret.resourceVersion)))

def userKind : Kind PostgresUserSpec where
  title := "PostgresUser"
  lowerTitle := "postgresuser"
  finalizer := "postgresuser.keiailab.com/finalizer"
  finalizerLegacy := "postgres.keiailab.io/postgresuser-finalizer"
  cluster := PostgresUserSpec.cluster
  specName := PostgresUserSpec.name
  reclaimPolicy := PostgresUserSpec.userReclaimPolicy
  validate := validatePostgresUserSpec
  clause := postgresUserPasswordClause
  command := postgresUserReconcileCommand
  ensureAbsent spec := { spec with ensure := .absent }

def databaseKind (isPrint : Rune → Bool) : Kind PostgresDatabaseSpec where
  title := "PostgresDatabase"
  lowerTitle := "postgresdatabase"
  finalizer := "postgresdatabase.keiailab.com/finalizer"
  finalizerLegacy := "postgres.keiailab.io/postgresdatabase-finalizer"
  cluster := PostgresDatabaseSpec.cluster
  specName := PostgresDatabaseSpec.name
  reclaimPolicy := PostgresDatabaseSpec.databaseReclaimPolicy
  validate := validatePostgresDatabaseSpec isPrint
  clause _ := pure (.ok (.ok ([], [])))
  command spec _ := postgresDatabaseReconcileCommand spec
  ensureAbsent spec := { spec with ensure := .absent }

end PostgresOperator.Database
