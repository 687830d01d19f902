import PostgresOperator.Database.Reconcile

/-!
# The shards that an operation reaches

A backup in the sidecar mode, a role and a database are to reach every shard of the cluster.  The three controllers
run their command in one pod, the one of `backupSidecarTarget`.  `ReadyOnOnePod` is the condition on the status of a
cluster under which that is enough; it is necessary, too.
-/

namespace PostgresOperator.Database

open Go Calls Backup List Option

variable {Spec : Type}

def podTarget (cluster : Cluster.PostgresCluster) (pod : Str) : BackupSidecarTarget := ⟨cluster.ns, pod, "postgres"⟩

/-- Every shard of the cluster has a Ready primary, and `run` is true of its pod. -/
def OnEveryShard (cluster : Cluster.PostgresCluster) (run : BackupSidecarTarget → Prop) : Prop :=
  ∀ shard ∈ cluster.shards, ∃ p, shard.primary = some p ∧ p.ready ∧ run (podTarget cluster p.pod)

/-- If a shard of ordinal 0 has a Ready primary, then its pod is that of the Ready primary of every shard. -/
def ReadyOnOnePod (cluster : Cluster.PostgresCluster) : Prop :=
  ∀ shard ∈ cluster.shards, ∀ p, shard.ordinal = 0 → shard.primary = some p → p.ready → p.pod ≠ [] →
    OnEveryShard cluster (· = podTarget cluster p.pod)

/-! ### The target -/

variable {cluster : Cluster.PostgresCluster} {target : BackupSidecarTarget}

/-- The target is the ready primary of shard 0. -/
theorem exists_shard_of_target (h : backupSidecarTarget cluster = some target) :
    ∃ shard ∈ cluster.shards, ∃ p, shard.ordinal = 0 ∧
      shard.primary = some p ∧ p.ready ∧ p.pod ≠ [] ∧ target = podTarget cluster p.pod := by
  obtain ⟨shard, hm, hs⟩ := exists_of_findSome?_eq_some h
  split_ifs at hs with ho
  obtain ⟨p, hp, rfl⟩ := map_eq_some_iff.1 hs
  obtain ⟨hpr, hr⟩ := filter_eq_some_iff.1 hp
  simp only [Bool.and_eq_true, decide_eq_true_eq] at hr
  exact ⟨shard, hm, p, not_not.1 ho, hpr, hr.1, hr.2, rfl⟩

theorem exists_target {shard : Cluster.ShardStatus} (hm : shard ∈ cluster.shards)
    {p : Cluster.ShardEndpoint} (ho : shard.ordinal = 0) (hp : shard.primary = some p) (hr : p.ready)
    (hd : p.pod ≠ []) : ∃ target, backupSidecarTarget cluster = some target := by
  rw [← isSome_iff_exists, isSome_iff_ne_none]
  intro hn
  have hs := findSome?_eq_none_iff.1 hn shard hm
  simp [ho, hp, Option.filter, hr, hd] at hs

/-- With one pod for all shards, what runs there runs on every shard. -/
theorem ReadyOnOnePod.onEveryShard (h : ReadyOnOnePod cluster)
    (ht : backupSidecarTarget cluster = some target) {run : BackupSidecarTarget → Prop} (hn : run target) :
    OnEveryShard cluster run := by
  obtain ⟨shard, hm, p, ho, hp, hr, hd, rfl⟩ := exists_shard_of_target ht
  intro shard' hm'
  obtain ⟨p', hp', hr', hd'⟩ := h shard hm p ho hp hr hd shard' hm'
  exact ⟨p', hp', hr', hd' ▸ hn⟩

theorem readyOnOnePod_of_target
    (h : ∀ target, backupSidecarTarget cluster = some target → OnEveryShard cluster (· = target)) :
      ReadyOnOnePod cluster := by
  intro shard hm p ho hp hr hd
  obtain ⟨target, ht⟩ := exists_target hm ho hp hr hd
  have ha := h target ht
  obtain ⟨p', hp', -, hd'⟩ := ha shard hm
  obtain rfl : p = p' := Option.some.inj (hp.symm.trans hp')
  rw [hd']
  exact ha

/-! ### Roles and databases -/

def exchange (r : SqlReq Spec) (a : r.Res) : Exchange (SqlApi Spec) := ⟨r, a⟩

def Applied (es : List (Exchange (SqlApi Spec))) : Prop :=
  ∃ name version status, status.applied ∧ exchange (.updateStatus name version status) (.ok ()) ∈ es

def Kind.Executed (K : Kind Spec) (es : List (Exchange (SqlApi Spec))) (target : BackupSidecarTarget) : Prop :=
  ∃ o clause output, ((∃ name, exchange (.get name) (.ok o) ∈ es) ∨ ∃ o', exchange (.update o') (.ok o) ∈ es) ∧
    exchange (.exec target (K.command o.spec clause)) (.ok output) ∈ es

/-- Whenever a pass marks an object of a cluster as applied, it has run the command on the Ready primary of every
shard. -/
def Kind.Covers (K : Kind Spec) (cluster : Cluster.PostgresCluster) : Prop :=
  ∀ sqlExecutor name es, (K.reconcile sqlExecutor name).Trace es →
    exchange (.getCluster cluster.name) (.ok cluster) ∈ es → Applied es → OnEveryShard cluster (K.Executed es)

private def Unapplied (r : SqlReq Spec) : Prop := ∀ name version status, r = .updateStatus name version status →
    status.applied = false

private def NoCluster (r : SqlReq Spec) : Prop := ∀ name, r ≠ .getCluster name

theorem not_applied_nil : ¬ Applied ([] : List (Exchange (SqlApi Spec))) := by
  rintro ⟨_, _, _, _, hm⟩
  cases hm

theorem not_applied {α : Type} {p : SqlProg Spec α} {es : List (Exchange (SqlApi Spec))} (hp : p.Only Unapplied)
    (h : p.Trace es) :
    ¬ Applied es := by
  rintro ⟨name, version, status, ha, hm⟩
  have hf := hp.trace h _ hm name version status rfl
  rw [ha] at hf
  cases hf

theorem Applied.of_append {es₁ es₂ : List (Exchange (SqlApi Spec))} (h : Applied (es₁ ++ es₂)) (hn : ¬ Applied es₁) :
    Applied es₂ := by
  obtain ⟨name, version, status, hs, hm⟩ := h
  obtain hm | hm := mem_append.1 hm
  · exact absurd ⟨name, version, status, hs, hm⟩ hn
  · exact ⟨name, version, status, hs, hm⟩

theorem Applied.of_cons {e : Exchange (SqlApi Spec)} {es : List (Exchange (SqlApi Spec))} (h : Applied (e :: es))
    (he : Unapplied e.req) : Applied es := by
  have hap : Applied ([e] ++ es) := h
  refine hap.of_append ?_
  rintro ⟨name, version, status, ha, hm⟩
  obtain rfl := mem_singleton.1 hm
  have hf := he name version status rfl
  rw [ha] at hf
  cases hf

variable {o : Object Spec}

theorem only_statusUpdate {φ : SqlReq Spec → Prop} (hg : ∀ name, φ (.get name))
    (hu : ∀ name version, φ (.updateStatus name version o.status)) : (statusUpdate o).Only φ := by
  refine .request (hu _ _) ?_
  rintro (e | ⟨⟩)
  · dsimp only
    split
    · trivial
    refine .request (hg _) ?_
    rintro (e | fresh)
    · trivial
    refine .request (hu _ _) ?_
    rintro (e | ⟨⟩) <;> trivial
  · trivial

variable {reason : Reason} {message : Str}

theorem only_returnMarked {φ : SqlReq Spec → Prop} {applied : Bool}
    (hg : ∀ name, φ (.get name))
    (hu : ∀ name version status, status.applied = applied → φ (.updateStatus name version status)) :
    (returnMarked o applied reason message).Only φ :=
  (only_statusUpdate hg fun _ _ => hu _ _ _ rfl).bind fun _ => trivial

theorem unapplied_returnMarked : (returnMarked o false reason message).Only Unapplied := by
  refine only_returnMarked (fun name _ _ _ h => nomatch h) ?_
  rintro name version status ha _ _ _ ⟨⟩
  exact ha

theorem noCluster_returnMarked {applied : Bool} : (returnMarked o applied reason message).Only NoCluster :=
  only_returnMarked (fun _ _ h => nomatch h) fun _ _ _ _ _ h => nomatch h

/-- The trace reads one cluster and runs the command for the object on the target of that cluster. -/
private def Kind.Ran (K : Kind Spec) (o : Object Spec) (es : List (Exchange (SqlApi Spec))) : Prop :=
  ∃ cluster target clause output, backupSidecarTarget cluster = some target ∧
    (∀ name cluster', exchange (.getCluster name) (.ok cluster') ∈ es → cluster' = cluster) ∧
    exchange (.exec target (K.command o.spec clause)) (.ok output) ∈ es

variable {K : Kind Spec}

theorem Kind.Ran.cons {e : Exchange (SqlApi Spec)} {es : List (Exchange (SqlApi Spec))}
    (h : K.Ran o es) (he : NoCluster e.req) : K.Ran o (e :: es) := by
  obtain ⟨cluster, target, clause, output, ht, ho, hexe⟩ := h
  refine ⟨cluster, target, clause, output, ht, ?_, mem_cons_of_mem _ hexe⟩
  intro name cluster' hm
  obtain rfl | hm := mem_cons.1 hm
  · exact absurd rfl (he name)
  · exact ho name cluster' hm

theorem unapplied_removeFinalizers : (K.removeFinalizers o).Only Unapplied := by
  refine .request (fun _ _ _ h => (nomatch h)) ?_
  rintro (e | o) <;> trivial

theorem unapplied_reconcileDelete {sqlExecutor : Bool} : (K.reconcileDelete sqlExecutor o).Only Unapplied := by
  unfold Kind.reconcileDelete
  split
  · trivial
  split
  · exact unapplied_removeFinalizers
  refine .request (fun _ _ _ h => (nomatch h)) ?_
  rintro (e | cluster)
  · show Prog.Only _ (ite _ _ _)
    split
    · exact unapplied_removeFinalizers
    · trivial
  · dsimp only
    split
    · trivial
    split
    · trivial
    refine .request (fun _ _ _ h => (nomatch h)) ?_
    rintro (e | output)
    · trivial
    · exact unapplied_removeFinalizers

section Pass

variable {K : Kind Spec} (hcla : ∀ o, (K.clause o).Only fun r => ∃ name, r = SqlReq.getSecret name)
include hcla

theorem noCluster_reconcileTarget (o : Object Spec) (target : BackupSidecarTarget) :
    (K.reconcileTarget o target).Only NoCluster := by
  refine ((hcla o).mono ?_).bind ?_
  · rintro _ ⟨name, rfl⟩ _ h
    cases h
  rintro (e | passwordError | ⟨clause, version⟩)
  · trivial
  · exact noCluster_returnMarked
  · refine .request (fun _ h => (nomatch h)) ?_
    rintro (e | output)
    · exact noCluster_returnMarked
    · exact noCluster_returnMarked

/-- `Applied` is reported only after the statement was executed on the target. -/
theorem exec_of_reconcileTarget {o : Object Spec} {target : BackupSidecarTarget} {es : List (Exchange (SqlApi Spec))}
    (h : (K.reconcileTarget o target).Trace es) (ha : Applied es) :
    ∃ clause output, exchange (.exec target (K.command o.spec clause)) (.ok output) ∈ es := by
  have hq : (K.clause o).Only Unapplied := by
    refine (hcla o).mono ?_
    rintro _ ⟨name, rfl⟩ _ _ _ h
    cases h
  obtain h | ⟨a, es₁, es₂, rfl, h₁, h₂⟩ := Prog.trace_bind h
  · exact absurd ha (not_applied hq h)
  have ha₂ := ha.of_append (not_applied hq h₁)
  match a with
  | .error e =>
    obtain rfl := Prog.trace_pure h₂
    exact absurd ha₂ not_applied_nil
  | .ok (.error passwordError) => exact absurd ha₂ (not_applied unapplied_returnMarked h₂)
  | .ok (.ok (clause, version)) =>
    obtain rfl | ⟨answer, es, rfl, hk⟩ := Prog.trace_call h₂
    · exact absurd ha₂ not_applied_nil
    match answer with
    | .ok output => exact ⟨clause, output, mem_append_right _ mem_cons_self⟩
    | .error e => exact absurd (ha₂.of_cons fun _ _ _ h => nomatch h) (not_applied unapplied_returnMarked hk)

/-- The same for the whole reconcile. -/
theorem ran_of_reconcileCluster {sqlExecutor : Bool} {o : Object Spec} {es : List (Exchange (SqlApi Spec))}
    (h : (K.reconcileCluster sqlExecutor o).Trace es) (ha : Applied es) : K.Ran o es := by
  obtain rfl | ⟨answer, es, rfl, hk⟩ := Prog.trace_call h
  · exact absurd ha not_applied_nil
  have ha' := ha.of_cons fun _ _ _ h => nomatch h
  match answer with
  | .error e =>
    refine absurd ha' (not_applied ?_ hk)
    show Prog.Only _ (ite _ _ _)
    split
    · exact unapplied_returnMarked
    · trivial
  | .ok cluster =>
    have hon : (K.reconcileOn sqlExecutor o cluster).Trace es := hk
    unfold Kind.reconcileOn at hon
    split at hon
    · refine absurd ha' (not_applied (Prog.Only.bind (only_statusUpdate ?_ ?_) ?_) hon)
      · exact fun _ _ _ _ h => nomatch h
      · rintro _ _ _ _ _ ⟨⟩
        rfl
      · rintro (e | ⟨⟩) <;> trivial
    · rename_i target ht
      split at hon
      · exact absurd ha' (not_applied unapplied_returnMarked hon)
      obtain ⟨clause, output, he⟩ := exec_of_reconcileTarget hcla hon ha'
      refine ⟨cluster, target, clause, output, ht, ?_, mem_cons_of_mem _ he⟩
      intro name cluster' hm
      obtain hm | hm := mem_cons.1 hm
      · cases hm
        rfl
      · exact absurd rfl ((noCluster_reconcileTarget hcla o target).trace hon _ hm name)

theorem Kind.covers_of_readyOnOnePod {cluster : Cluster.PostgresCluster} (hone : ReadyOnOnePod cluster) :
    K.Covers cluster := by
  intro sqlExecutor name es h hr ha
  suffices hn : ∃ o, ((∃ name, exchange (.get name) (.ok o) ∈ es) ∨ ∃ o', exchange (.update o') (.ok o) ∈ es) ∧
      K.Ran o es by
    obtain ⟨o, ho, cluster', target, clause, output, ht, hl, he⟩ := hn
    obtain rfl := hl _ _ hr
    exact hone.onEveryShard ht ⟨o, clause, output, ho, he⟩
  obtain rfl | ⟨answer, es, rfl, hk⟩ := Prog.trace_call h
  · exact absurd ha not_applied_nil
  have ha' := ha.of_cons fun _ _ _ h => nomatch h
  match answer with
  | .error e =>
    refine absurd ha' (not_applied ?_ hk)
    show Prog.Only _ (ite _ _ _)
    split <;> trivial
  | .ok o =>
    have hop : (K.reconcileRead sqlExecutor o).Trace es := hk
    have hf : exchange (.get name) (.ok o) ∈ (⟨.get name, .ok o⟩ :: es : List (Exchange (SqlApi Spec))) :=
      mem_cons_self
    unfold Kind.reconcileRead at hop
    split at hop
    · exact absurd ha' (not_applied unapplied_reconcileDelete hop)
    split at hop
    · exact absurd ha' (not_applied unapplied_returnMarked hop)
    split at hop
    · obtain rfl | ⟨answer, es, rfl, hk'⟩ := Prog.trace_call hop
      · exact absurd ha' not_applied_nil
      have ha'' := ha'.of_cons fun _ _ _ h => nomatch h
      match answer with
      | .error e =>
        obtain rfl := Prog.trace_pure hk'
        exact absurd ha'' not_applied_nil
      | .ok o' =>
        refine ⟨o', .inr ⟨_, mem_cons_of_mem _ mem_cons_self⟩, ?_⟩
        have hn : K.Ran o' es := ran_of_reconcileCluster hcla hk' ha''
        exact Kind.Ran.cons (Kind.Ran.cons hn fun _ h => nomatch h) fun _ h => nomatch h
    · exact ⟨o, .inl ⟨name, hf⟩, (ran_of_reconcileCluster hcla hop ha').cons fun _ h => nomatch h⟩

end Pass

theorem userKind_covers (ho : ReadyOnOnePod cluster) : userKind.Covers cluster := by
  refine Kind.covers_of_readyOnOnePod ?_ ho
  intro user
  show (postgresUserPasswordClause user).Only _
  unfold postgresUserPasswordClause
  split
  · trivial
  split
  · trivial
  refine Prog.Only.bind ⟨⟨_, rfl⟩, fun _ => trivial⟩ ?_
  rintro (e | secret)
  · trivial
  · dsimp only
    split
    · trivial
    split
    · trivial
    split <;> trivial

theorem databaseKind_covers {isPrint : Rune → Bool} (ho : ReadyOnOnePod cluster) :
    (databaseKind isPrint).Covers cluster :=
  Kind.covers_of_readyOnOnePod (K := databaseKind isPrint) (fun _ => trivial) ho

/-! ### Backups -/

def backupExchange (r : BackupReq) (a : r.Res) : Exchange BackupApi := ⟨r, a⟩

def Succeeded (es : List (Exchange BackupApi)) : Prop :=
  ∃ name version status, status.phase = .succeeded ∧ backupExchange (.updateStatus name version status) (.ok ()) ∈ es

def plannedCommand (R : Reconciler) (bj : BackupJob) : Option (List Str) := do
  let plugins ← R.plugins
  let plugin ← plugins bj.spec.tool
  let commands ← plugin.commands
  (commands.backupCommand (clusterTarget bj) (backupOptions bj)).toOption

/-- Whenever a pass marks a sidecar backup of a cluster as Succeeded, it has run the command on the Ready primary of
every shard.  A restore is not a command on a primary: it is a Job that runs while the shard is stopped. -/
def BackupCovers (cluster : Cluster.PostgresCluster) : Prop :=
  ∀ R name bj es, (reconcile R name).Trace (backupExchange (.getBackupJob name) (.ok bj) :: es) →
    bj.spec.executionMode = .sidecar → bj.spec.type ≠ .restore →
    backupExchange (.getCluster cluster.name) (.ok cluster) ∈ es → Succeeded es →
    OnEveryShard cluster fun target => ∃ command output, plannedCommand R bj = some command ∧
      backupExchange (.exec target command) (.ok output) ∈ es

private def Quiet (r : BackupReq) : Prop :=
  (∀ name, r ≠ .getCluster name) ∧ ∀ name version status, r = .updateStatus name version status →
    status.phase ≠ .succeeded

variable {es : List (Exchange BackupApi)}

theorem not_succeeded {α : Type} {p : BackupProg α} (hp : p.Only Quiet) (h : p.Trace es) : ¬ Succeeded es := by
  rintro ⟨name, version, status, hph, hm⟩
  exact (hp.trace h _ hm).2 name version status rfl hph

theorem not_succeeded_nil : ¬ Succeeded [] := by
  rintro ⟨_, _, _, _, hm⟩
  cases hm

theorem Succeeded.of_cons {e : Exchange BackupApi} (h : Succeeded (e :: es))
    (he : ∀ name version status, e.req = .updateStatus name version status → status.phase ≠ .succeeded) :
      Succeeded es := by
  obtain ⟨name, version, status, hp, hm⟩ := h
  obtain rfl | hm := mem_cons.1 hm
  · exact absurd hp (he name version status rfl)
  · exact ⟨name, version, status, hp, hm⟩

theorem quiet_timeNow : timeNow.Only Quiet := ⟨⟨fun _ h => (nomatch h), fun _ _ _ h => nomatch h⟩, fun _ => trivial⟩

theorem getCluster_inj {name name' : Str} {cluster' : Cluster.PostgresCluster}
    (h : backupExchange (.getCluster name) (.ok cluster) = ⟨.getCluster name', .ok cluster'⟩) :
      cluster = cluster' := by
  cases h
  rfl

variable {bj : BackupJob}

theorem quiet_returnStatus {q : Requeue} (h : bj.status.phase ≠ .succeeded) : (returnStatus q bj).Only Quiet := by
  refine only_returnStatus (fun name => ⟨fun _ h => (nomatch h), fun _ _ _ h => nomatch h⟩) ?_
  intro name version
  refine ⟨fun _ h => (nomatch h), ?_⟩
  rintro _ _ _ ⟨⟩
  exact h

theorem exec_of_reconcileSidecar {R : Reconciler} {plugin : BackupPlugin} (ht : bj.spec.type ≠ .restore)
    (h : (reconcileSidecar R bj cluster plugin).Trace es) (hs : Succeeded es) :
    ∃ target commands command output, backupSidecarTarget cluster = some target ∧ plugin.commands = some commands ∧
      commands.backupCommand (clusterTarget bj) (backupOptions bj) = .ok command ∧
      backupExchange (.exec target command) (.ok output) ∈ es ∧
      ∀ name cluster', backupExchange (.getCluster name) (.ok cluster') ∉ es := by
  have hf : BackupJobPhase.failed ≠ .succeeded := by decide
  have hn : BackupJobPhase.running ≠ .succeeded := by decide
  unfold reconcileSidecar at h
  split at h
  · exact absurd hs (not_succeeded (quiet_returnStatus hf) h)
  rename_i commands hc
  rw [if_neg ht] at h
  split at h
  · exact absurd hs (not_succeeded (quiet_returnStatus hf) h)
  split at h
  · exact absurd hs (not_succeeded (quiet_returnStatus hn) h)
  rename_i target htr
  split at h
  · exact absurd hs (not_succeeded (quiet_returnStatus hf) h)
  rename_i command hco
  obtain rfl | ⟨result, es, rfl, hk⟩ := Prog.trace_call h
  · exact absurd hs not_succeeded_nil
  match result with
  | .error e =>
    exact absurd (hs.of_cons fun _ _ _ h => nomatch h)
      (not_succeeded (quiet_timeNow.bind fun _ => quiet_returnStatus hf) hk)
  | .ok output =>
    refine ⟨target, commands, command, output, htr, hc, hco, mem_cons_self, ?_⟩
    have hr : (timeNow >>= fun endedAt => returnStatus .no (setBackupJobCondition
        { setEnded bj .succeeded endedAt with status := { (setEnded bj .succeeded endedAt).status with
            backupID := (commands.parseBackupResult output (backupOptions bj)).backupID
            bytes := (commands.parseBackupResult output (backupOptions bj)).bytes } } true .backupSucceeded
        (pluginMessage bj " sidecar backup succeeded"))).Only fun r => ∀ name, r ≠ BackupReq.getCluster name :=
      Prog.Only.request (fun _ h => (nomatch h))
        fun _ => only_returnStatus (fun _ _ h => nomatch h) fun _ _ _ h => nomatch h
    intro name cluster' hm
    obtain hm | hm := mem_cons.1 hm
    · cases hm
    · exact hr.trace hk _ hm name rfl

/-- A backup succeeds only after its command was executed on the target. -/
theorem exec_of_reconcileChecked {R : Reconciler} (hm : bj.spec.executionMode = .sidecar)
    (ht : bj.spec.type ≠ .restore)
    (h : (reconcileChecked R bj cluster).Trace es) (hs : Succeeded es) :
    ∃ target command output, backupSidecarTarget cluster = some target ∧ plannedCommand R bj = some command ∧
      backupExchange (.exec target command) (.ok output) ∈ es ∧
      ∀ name cluster', backupExchange (.getCluster name) (.ok cluster') ∉ es := by
  have hf : BackupJobPhase.failed ≠ .succeeded := by decide
  unfold reconcileChecked at h
  rw [if_neg (show ¬ bj.spec.executionMode = .job by rw [hm]; decide)] at h
  dsimp only at h
  split at h
  · exact absurd hs (not_succeeded (quiet_returnStatus hf) h)
  split at h
  · exact absurd hs (not_succeeded (quiet_returnStatus hf) h)
  rename_i plugins hp
  split at h
  · exact absurd hs (not_succeeded (quiet_returnStatus hf) h)
  rename_i plugin hpl
  unfold reconcilePhase at h
  split at h
  · exact absurd hs (not_succeeded (quiet_returnStatus (show BackupJobPhase.pending ≠ _ by decide)) h)
  · refine absurd hs (not_succeeded (quiet_timeNow.bind fun _ => quiet_returnStatus ?_) h)
    split
    · exact show BackupJobPhase.running ≠ _ by decide
    · exact show BackupJobPhase.running ≠ _ by decide
  · simp only [reconcileRunning, hm] at h
    obtain ⟨target, commands, command, output, htr, hc, hco, he, hr⟩ :=
      exec_of_reconcileSidecar ht h hs
    refine ⟨target, command, output, htr, ?_, he, hr⟩
    simp [plannedCommand, hp, hpl, hc, hco, Except.toOption]
  · exact absurd hs (Prog.trace_pure h ▸ not_succeeded_nil)
  · exact absurd hs (Prog.trace_pure h ▸ not_succeeded_nil)

theorem backupCovers_of_readyOnOnePod (ho : ReadyOnOnePod cluster) : BackupCovers cluster := by
  intro R name bj es h hm ht hr hs
  obtain hl | ⟨answer, es', heq, hk⟩ := Prog.trace_call h
  · cases hl
  obtain ⟨hf, rfl⟩ := cons.inj heq
  cases hf
  dsimp only at hk
  change (if bj.status.phase.terminal then pure (.no, .ok ()) else reconcileOpen R bj : BackupProg Result).Trace es
    at hk
  split at hk
  · exact absurd hs (Prog.trace_pure hk ▸ not_succeeded_nil)
  obtain rfl | ⟨answer, es, rfl, hk'⟩ := Prog.trace_call hk
  · cases hr
  have hs' : Succeeded es := hs.of_cons fun _ _ _ h => nomatch h
  match answer with
  | .error e =>
    refine absurd hs' (not_succeeded ?_ hk')
    show Prog.Only _ (ite _ _ _)
    split
    · exact quiet_returnStatus (show BackupJobPhase.failed ≠ _ by decide)
    · trivial
  | .ok cluster' =>
    obtain ⟨target, command, output, htr, hc, he, hn⟩ := exec_of_reconcileChecked hm ht hk' hs'
    obtain hr | hr := mem_cons.1 hr
    · obtain rfl := getCluster_inj hr
      exact ho.onEveryShard htr ⟨command, output, hc, mem_cons_of_mem _ he⟩
    · exact absurd hr (hn _ _)

/-! ### One pod is necessary -/

private def runningBackup (cluster : Cluster.PostgresCluster) : BackupJob :=
  { ns := cluster.ns, name := "b"
    spec := { cluster := cluster.name, tool := "pgbackrest", executionMode := .sidecar }
    status := { phase := .running } }

private def echoPlugin : BackupPlugin := ⟨some ⟨fun _ _ => .ok ["true"], fun _ _ => .ok [], fun _ _ => ⟨[], 0⟩⟩⟩

private def backupAnswer (bj : BackupJob) (cluster : Cluster.PostgresCluster) : (r : BackupReq) → r.Res
  | .getBackupJob _ => .ok bj
  | .getCluster _ => .ok cluster
  | .updateStatus _ _ _ | .patchOwner _ _ | .createJob _ | .updateStatefulSet _ _ => .ok ()
  | .getJob name => .error (.notFound name)
  | .getStatefulSet name => .error (.notFound name)
  | .listPods _ _ => .ok []
  | .now => (0 : Int)
  | .performBackup _ _ _ => .ok ⟨[], 0⟩
  | .restorePIT _ _ _ => .ok ()
  | .exec _ _ => .ok []

private def echoReconciler : Reconciler := { plugins := some fun _ => some echoPlugin, hash := id }

theorem record_runningBackup
    (ht : backupSidecarTarget cluster = some target) : ∃ name version status, status.phase = .succeeded ∧
      (reconcile echoReconciler "b").record (backupAnswer (runningBackup cluster) cluster) =
        [backupExchange (.getBackupJob "b") (.ok (runningBackup cluster)),
          backupExchange (.getCluster cluster.name) (.ok cluster), backupExchange (.exec target ["true"]) (.ok []),
          backupExchange .now (0 : Int), backupExchange (.updateStatus name version status) (.ok ())] := by
  have hc : reconcileChecked echoReconciler (runningBackup cluster) cluster =
      reconcileSidecar echoReconciler (runningBackup cluster) cluster echoPlugin := rfl
  have hr : (reconcile echoReconciler "b").record (backupAnswer (runningBackup cluster) cluster) =
      backupExchange (.getBackupJob "b") (.ok (runningBackup cluster)) ::
        backupExchange (.getCluster cluster.name) (.ok cluster) ::
        (reconcileChecked echoReconciler (runningBackup cluster) cluster).record
          (backupAnswer (runningBackup cluster) cluster) := rfl
  rw [hr, hc]
  simp only [reconcileSidecar, echoPlugin, ht]
  exact ⟨_, _, _, rfl, rfl⟩

/-- A cluster with a second pod has a run that backs up one of them only. -/
theorem readyOnOnePod_of_backupCovers (h : BackupCovers cluster) : ReadyOnOnePod cluster := by
  refine readyOnOnePod_of_target ?_
  intro target htr
  have ht := Prog.trace_record (backupAnswer (runningBackup cluster) cluster) (reconcile echoReconciler "b")
  obtain ⟨name, version, status, hp, hc⟩ := record_runningBackup htr
  rw [hc] at ht
  have hv := h _ _ _ _ ht rfl (fun h => nomatch h) (by simp) ⟨name, version, status, hp, by simp⟩
  intro shard hs
  obtain ⟨p, hpr, hr, command, output, -, hm⟩ := hv shard hs
  have hq := mem_map_of_mem (f := Exchange.req) hm
  simp only [backupExchange, map_cons, map_nil, mem_cons, not_mem_nil, reduceCtorEq, BackupReq.exec.injEq,
    false_or, or_false] at hq
  exact ⟨p, hpr, hr, hq.1⟩

private def sqlAnswer (o : Object Spec) (cluster : Cluster.PostgresCluster) : (r : SqlReq Spec) → r.Res
  | .get _ | .update _ => .ok o
  | .updateStatus _ _ _ => .ok ()
  | .getCluster _ => .ok cluster
  | .getSecret name => .error (.notFound name)
  | .exec _ _ => .ok []

theorem Kind.Covers.readyOnOnePod (h : K.Covers cluster) (o : Object Spec)
    (hc : K.cluster o.spec = cluster.name) (hd : o.deleted = false) (hv : K.validate o.spec = [])
    (hrt : defaultedDatabaseReclaimPolicy (K.reclaimPolicy o.spec) ≠ .delete)
    (hcla : K.clause o = .pure (.ok (.ok ([], [])))) : ReadyOnOnePod cluster := by
  refine readyOnOnePod_of_target ?_
  intro target htr
  have ht := Prog.trace_record (sqlAnswer o cluster) (K.reconcile true o.name)
  have hrd : (K.reconcile true o.name).record (sqlAnswer o cluster) = exchange (.get o.name) (.ok o) ::
      (K.reconcileRead true o).record (sqlAnswer o cluster) := rfl
  have ho : (K.reconcileRead true o).record (sqlAnswer o cluster) =
      exchange (.getCluster (K.cluster o.spec)) (.ok cluster) :: (K.reconcileOn true o cluster).record
        (sqlAnswer o cluster) := by
    simp only [Kind.reconcileRead, hd, hv, hrt]
    rfl
  have hon : ∃ name version status, status.applied ∧ (K.reconcileOn true o cluster).record (sqlAnswer o cluster) =
      [exchange (.exec target (K.command o.spec [])) (.ok []),
        exchange (.updateStatus name version status) (.ok ())] := by
    simp only [Kind.reconcileOn, htr, Kind.reconcileTarget, hcla]
    exact ⟨_, _, _, rfl, rfl⟩
  obtain ⟨name, version, status, ha, hon⟩ := hon
  rw [hrd, ho, hon, hc] at ht
  have hcv := h _ _ _ ht (by simp) ⟨name, version, status, ha, by simp⟩
  intro shard hs
  obtain ⟨p, hp, hr, o', clause, output, -, hm⟩ := hcv shard hs
  have hq := mem_map_of_mem (f := Exchange.req) hm
  simp only [exchange, map_cons, map_nil, mem_cons, not_mem_nil, reduceCtorEq, SqlReq.exec.injEq,
    false_or, or_false] at hq
  exact ⟨p, hp, hr, hq.1⟩

/-- Backups, roles and databases cover every shard exactly if there is one pod to be reached. -/
theorem covers_every_shard_iff (cluster : Cluster.PostgresCluster) (isPrint : Rune → Bool) :
    BackupCovers cluster ∧ userKind.Covers cluster ∧ (databaseKind isPrint).Covers cluster ↔
      ReadyOnOnePod cluster := by
  constructor
  · rintro ⟨hb, -, -⟩
    exact readyOnOnePod_of_backupCovers hb
  · intro ho
    exact ⟨backupCovers_of_readyOnOnePod ho, userKind_covers ho, databaseKind_covers ho⟩

def twoReadyShards : Cluster.PostgresCluster where
  ns := "default"
  name := "demo"
  shards := [{ name := "shard-0", ordinal := 0, primary := some { pod := "demo-shard-0-0", ready := true } },
    { name := "shard-1", ordinal := 1, primary := some { pod := "demo-shard-1-0", ready := true } }]
  ns_noSlash := Cluster.default_noSlash

/-- The second of two shards gets no backup, no role and no database. -/
theorem second_shard_not_covered : ¬ BackupCovers twoReadyShards ∧ ¬ userKind.Covers twoReadyShards ∧
    ¬ (databaseKind fun _ => true).Covers twoReadyShards := by
  have hn : ¬ ReadyOnOnePod twoReadyShards := by
    intro h
    obtain ⟨p, hp, -, hd⟩ := h _ mem_cons_self _ rfl rfl rfl (by decide) _ (mem_cons_of_mem _ mem_cons_self)
    cases hp
    exact absurd hd (by decide +kernel)
  refine ⟨fun h => hn (readyOnOnePod_of_backupCovers h), fun h => hn ?_, fun h => hn ?_⟩
  · exact h.readyOnOnePod ⟨"default", "u", 1, 0, false, [], { cluster := "demo", name := "app" }, {}⟩
      rfl rfl (by decide +kernel) (by decide) rfl
  · exact h.readyOnOnePod
      ⟨"default", "d", 1, 0, false, [], { cluster := "demo", name := "app", owner := "app" }, {}⟩
      rfl rfl (by decide +kernel) (by decide) rfl

end PostgresOperator.Database
