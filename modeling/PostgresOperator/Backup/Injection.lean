import PostgresOperator.Backup.ScriptParse

/-!
# Strings of the user in the backup scripts

`RestoreCommand` quotes the time of the restore and `archiveConfigForCluster` filters the path of the repository, so
that the shell reads the commands of their templates whatever the user writes.  `BackupCommand` puts `spec.repo` into
its script as it is: the shell reads the commands of the template exactly if the repository has no meaning to the
shell.
-/

namespace PostgresOperator.Backup

open Go Shell Word List

/-! ### Names and paths -/

def isLabelByte (c : UInt8) : Bool := byte 'a' ≤ c && c ≤ byte 'z' || byte '0' ≤ c && c ≤ byte '9' || c = byte '-'

def isDNSLabel (s : Str) : Bool :=
  s ≠ [] && s.length ≤ 63 && s.all isLabelByte && s.head? ≠ some (byte '-') && s.getLast? ≠ some (byte '-')

/-- The name of an object of the API: labels with dots between them. -/
def isDNSSubdomain (s : Str) : Bool :=
  s ≠ [] && s.length ≤ 253 && (split (byte '.') s).all fun label =>
    label ≠ [] && label.all isLabelByte && label.head? ≠ some (byte '-') && label.getLast? ≠ some (byte '-')

def PlainName (name : Str) : Prop :=
  trimSpace name ≠ [] ∧ ∀ c ∈ name, isSpecial c = false ∧ isPattern c = false

variable {name : Str}

theorem plainName_of_bytes (hne : name ≠ []) (hb : ∀ c ∈ name, isLabelByte c ∨ c = byte '.') : PlainName name := by
  have hp : ∀ c, isLabelByte c ∨ c = byte '.' →
      isSpecial c = false ∧ isPattern c = false ∧ ∀ w ∈ spaceRunes, c ∉ w := by decide +kernel
  constructor
  · rw [trimSpace_eq_self fun c hc => (hp c (hb c hc)).2.2]
    exact hne
  · intro c hc
    exact ⟨(hp c (hb c hc)).1, (hp c (hb c hc)).2.1⟩

theorem plainName_of_isDNSLabel (h : isDNSLabel name) : PlainName name := by
  simp only [isDNSLabel, Bool.and_eq_true, decide_eq_true_eq, all_eq_true] at h
  exact plainName_of_bytes h.1.1.1.1 fun c hc => .inl (h.1.1.2 c hc)

/-- Names that Kubernetes accepts have no character that is special to the shell. -/
theorem plainName_of_isDNSSubdomain (h : isDNSSubdomain name) : PlainName name := by
  simp only [isDNSSubdomain, Bool.and_eq_true, decide_eq_true_eq, all_eq_true] at h
  refine plainName_of_bytes h.1.1 ?_
  intro c hc
  obtain rfl | ⟨w, hw, hcw⟩ := (exists_mem_split hc : c = byte '.' ∨ _)
  · exact .inr rfl
  · exact .inl ((h.2 w hw).1.1.2 c hcw)

example : isDNSSubdomain (str "demo.prod") := by decide +kernel

theorem isRepoPathByte_plain : ∀ c, isRepoPathByte c → isSpecial c = false ∧ isPattern c = false := by
  decide +kernel

theorem filesystemRepoPath_noPattern : ∀ c ∈ filesystemRepoPath, isPattern c = false := by
  have ha : filesystemRepoPath.all isRepoPathByte := by
    rw [filesystemRepoPath, str_ofList]
    decide +kernel
  intro c hc
  exact (isRepoPathByte_plain c (all_eq_true.1 ha c hc)).2

theorem isRepoPathByte_of_mem_archiveRepoPath (backup : ClusterBackupSpec) {c : UInt8}
    (hc : c ∈ archiveRepoPath backup) :
    isRepoPathByte c := by
  have hm : backupRepoMountPath.all isRepoPathByte := by
    unfold backupRepoMountPath pgDataMountPath
    repeat rw [str_ofList]
    decide +kernel
  have hs : ∀ p, (sanitizeBackupRepoPath p).all isRepoPathByte := by
    intro p
    unfold sanitizeBackupRepoPath
    split_ifs with hp
    · exact hm
    · simp only [matchesRepoPathPattern, not_or, Bool.not_eq_false, Bool.and_eq_true] at hp
      exact hp.2.2
  have ha : (archiveRepoPath backup).all isRepoPathByte := by
    unfold archiveRepoPath
    split
    · split_ifs
      · exact hs _
      · exact hm
    · exact hm
  exact all_eq_true.1 ha c hc

/-! ### What is to be read -/

/-- The shell reads the commands `ns` and expands nothing in them. -/
def ParsesAs (script : Str) (ns : List Node) : Prop := parse script = some ns ∧ ns.all Node.static

/-- A `BackupCommand` is the commands of its template, with the repository as one argument. -/
def BackupReads (target : ClusterTarget) (opts : BackupOptions) : Prop :=
  ∀ cmd, Plugin.backupCommand {} target opts = .ok cmd → ∃ script repo backupType,
    cmd = [str "sh", str "-c", script] ∧ normalizeBackupType opts.type = .ok backupType ∧
    repo.raw = str "--repo=" ++ normalizeRepo opts.repo ∧ ParsesAs script (backupTemplate target.name repo backupType)

/-- A `RestoreCommand` is the commands of its template, with the time as one argument. -/
def RestoreReads (target : ClusterTarget) (ts : Int) : Prop :=
  ∀ cmd, Plugin.restoreCommand {} target ts = .ok cmd → ∃ script,
    cmd = [str "sh", str "-c", script] ∧ ParsesAs script (restoreTemplate target.name (formatTargetTime ts))

/-- An `archive_command` is a shell that gets the script as one argument, and the script is the commands of its
template. -/
def ArchiveReads (name : Str) (backup : Option ClusterBackupSpec) : Prop :=
  ∀ cmd, archiveConfigForCluster name backup = some cmd → ∃ raw spec, backup = some spec ∧
    ParsesAs cmd [.simple { words := words "sh -c" ++ [quoted raw (archiveScript name (archiveRepoPath spec))] }] ∧
    ParsesAs (archiveScript name (archiveRepoPath spec)) (archiveTemplate name (archiveRepoPath spec))

/-! ### Nothing is expanded -/

theorem static_ofText {t u : Str} (ht : (ofText t).static) (hne : t ≠ [])
    (hu : ∀ c ∈ u, isPattern c = false) : (ofText (t ++ u)).static := by
  rw [← append_ofText]
  exact static_append ht (by simpa [ofText] using hne) u (all_static_plain hu)

theorem static_quoted (raw value : Str) : (quoted raw value).static := by
  simp [static, quoted, Part.static]

variable {stanza : Str}

theorem static_stanzaWord (hs : ∀ c ∈ stanza, isPattern c = false) : (stanzaWord stanza).static :=
  static_ofText (by decide +kernel) (by decide +kernel) hs

example : (stanzaWord (str "demo")).static := by decide +kernel

variable {repoPath : Str}

theorem static_repoWords (hp : ∀ c ∈ repoPath, isPattern c = false) : (repoWords repoPath).all static := by
  have he : (words "env PGBACKREST_REPO1_TYPE=posix").all static := by decide +kernel
  have ha : (words
      "pgbackrest --config=/dev/null --log-level-file=off --pg1-path=/var/lib/postgresql/data/pgdata").all
      static := by
    unfold words
    rw [str_ofList]
    decide +kernel
  have hw : (ofText (str "PGBACKREST_REPO1_PATH=" ++ repoPath)).static :=
    static_ofText (by decide +kernel) (by decide +kernel) hp
  rw [repoWords, all_append, all_cons, he, ha, hw]
  rfl

theorem static_connectionWords : connectionWords.all static := by decide +kernel

theorem static_stanzaCreate (hs : ∀ c ∈ stanza, isPattern c = false)
    (hp : ∀ c ∈ repoPath, isPattern c = false) : (stanzaCreate stanza repoPath).all Node.static := by
  have hc : (ofText (str "stanza-create")).static := by decide +kernel
  have hn : (ofText (str "/dev/null")).static := by decide +kernel
  have ht : (words "true").all static := by decide +kernel
  simp only [stanzaCreate, all_cons, all_nil, Node.static, Simple.static, all_append, static_repoWords hp,
    static_connectionWords, static_stanzaWord hs, hc, hn, ht, Bool.and_true]

/-- The words of the template are not expanded. -/
theorem static_backupTemplate {backupType : Str} {repo : Word}
    (hs : ∀ c ∈ stanza, isPattern c = false) (hr : repo.static)
    (ht : ∀ c ∈ backupType, isPattern c = false) : (backupTemplate stanza repo backupType).all Node.static := by
  have he : (words "exec").all static := by decide +kernel
  have hb : (ofText (str "backup")).static := by decide +kernel
  have htw : (ofText (str "--type=" ++ backupType)).static :=
    static_ofText (by decide +kernel) (by decide +kernel) ht
  simp only [backupTemplate, backupWords, all_append, all_cons, all_nil, Node.static, Simple.static,
    static_stanzaCreate hs filesystemRepoPath_noPattern, static_repoWords filesystemRepoPath_noPattern,
    static_connectionWords, static_stanzaWord hs, he, hb, htw, hr, Bool.and_true]

theorem static_restoreTemplate (hs : ∀ c ∈ stanza, isPattern c = false)
    (target : Str) : (restoreTemplate stanza target).all Node.static := by
  have hrm : (words "rm -f /var/lib/postgresql/data/pgdata/postmaster.pid").all static := by decide +kernel
  have ht : (words "touch /var/lib/postgresql/data/pgdata/postgresql.auto.conf").all static := by
    decide +kernel
  have hsd : (words "sed -i").all static := by decide +kernel
  have hc : (words "/var/lib/postgresql/data/pgdata/postgresql.auto.conf").all static := by decide +kernel
  have hp : (words "printf").all static := by decide +kernel
  have ha : (ofText postgresqlAutoConfPath).static := by decide +kernel
  have hty : (ofText (str "--type=time")).static := by decide +kernel
  have hd : (ofText (str "--delta")).static := by decide +kernel
  have hr : (ofText (str "restore")).static := by decide +kernel
  have htr : (⟨str "--target=" ++ shellSingleQuote target,
      (str "--target=").map (.char false) ++ target.map (.char true)⟩ : Word).static :=
    static_append (w := .ofText (str "--target=")) (by decide +kernel) (by decide +kernel) _
      (all_static_quoted target)
  simp only [restoreTemplate, restoreLineWord, sedWord, all_append, all_cons, all_nil, Node.static,
    Simple.static, static_repoWords filesystemRepoPath_noPattern, static_stanzaWord hs, static_quoted, hrm, ht, hsd,
    hc, hp,
    ha, hty, hd, hr, htr, Bool.and_true]

theorem static_archiveTemplate (hs : ∀ c ∈ stanza, isPattern c = false)
    (hp : ∀ c ∈ repoPath, isPattern c = false) : (archiveTemplate stanza repoPath).all Node.static := by
  have he : (words "exec").all static := by decide +kernel
  have hps : (ofText (str "archive-push")).static := by decide +kernel
  simp only [archiveTemplate, all_append, all_cons, all_nil, Node.static, Simple.static,
    static_stanzaCreate hs hp, static_repoWords hp, static_stanzaWord hs, static_quoted, he, hps,
    Bool.and_true]

/-! ### The scripts -/

section

variable {name : Str} (hname : PlainName name)

include hname

theorem name_plain : ∀ c ∈ name, isSpecial c = false := fun c hc => (hname.2 c hc).1

theorem name_noPattern : ∀ c ∈ name, isPattern c = false := fun c hc => (hname.2 c hc).2

theorem restoreReads (ns : Str) (ts : Int) : RestoreReads ⟨ns, name⟩ ts := by
  intro cmd hc
  rw [Plugin.restoreCommand, if_neg hname.1] at hc
  cases hc
  exact ⟨_, rfl, parse_restoreScript (name_plain hname) ts, static_restoreTemplate (name_noPattern hname) _⟩

theorem archiveReads (backup : Option ClusterBackupSpec) : ArchiveReads name backup := by
  intro cmd hd
  cases backup with
  | none => cases hd
  | some spec =>
    simp only [archiveConfigForCluster] at hd
    split_ifs at hd
    rw [Option.some.injEq] at hd
    subst hd
    have hp : ∀ c ∈ archiveRepoPath spec, isSpecial c = false ∧ isPattern c = false := fun c hc =>
      isRepoPathByte_plain c (isRepoPathByte_of_mem_archiveRepoPath spec hc)
    obtain ⟨raw, ho⟩ := parse_archiveCommand (name_plain hname) fun c hc => (hp c hc).1
    have hsh : (words "sh -c").all static := by decide +kernel
    refine ⟨raw, spec, rfl, ⟨ho, ?_⟩, parse_archiveScript (name_plain hname) fun c hc => (hp c hc).1,
      static_archiveTemplate (name_noPattern hname) fun c hc => (hp c hc).2⟩
    simp only [all_cons, all_nil, Node.static, Simple.static, all_append, hsh, static_quoted, Bool.and_true]

/-- The script means what it should if and only if the repository is inert. -/
theorem backupReads_iff (ns : Str) (opts : BackupOptions) :
    BackupReads ⟨ns, name⟩ opts ↔ (opts.type ≠ .restore → inert (normalizeRepo opts.repo)) := by
  cases ht : normalizeBackupType opts.type with
  | error err =>
    have hrs : opts.type = .restore := by
      cases h : opts.type with
      | restore => rfl
      | full | incremental | differential => simp [h, normalizeBackupType] at ht
    refine iff_of_true ?_ fun h => absurd hrs h
    intro cmd hd
    simp [Plugin.backupCommand, ht] at hd
  | ok backupType =>
    have hc : opts.type ≠ .restore ∧ (∀ c ∈ backupType, isSpecial c = false) ∧
        ∀ c ∈ backupType, isPattern c = false := by
      cases h : opts.type with
      | restore => simp [h, normalizeBackupType] at ht
      | full | incremental | differential =>
        rw [h, normalizeBackupType, Except.ok.injEq] at ht
        subst ht
        exact ⟨by decide, by decide +kernel, by decide +kernel⟩
    obtain ⟨hne, hp, hpt⟩ := hc
    have hm : Plugin.backupCommand {} ⟨ns, name⟩ opts =
        .ok [str "sh", str "-c", Plugin.backupScript {} name opts.repo backupType] := by
      simp only [Plugin.backupCommand, ht]
      rw [if_neg hname.1]
    constructor
    · intro h _
      obtain ⟨script, repo, backupType', hr, ht', hw, hpr, hsta⟩ := h _ hm
      simp only [cons.injEq, and_true, true_and] at hr
      subst hr
      obtain rfl := Except.ok.inj (ht.symm.trans ht')
      refine inert_of_parse_backupScript (name_plain hname) hw ?_ hpr
      simp only [backupTemplate, backupWords, all_append, all_cons, Node.static, Simple.static,
        Bool.and_eq_true] at hsta
      exact hsta.2.1.1.2.2.1
    · intro h cmd hd
      obtain rfl := Except.ok.inj (hm.symm.trans hd)
      obtain ⟨ps, hs, hps⟩ := (inert_iff _).1 (h hne)
      refine ⟨_, (ofText (str "--repo=")).append (normalizeRepo opts.repo) ps, backupType, rfl, ht, rfl,
        parse_backupScript (name_plain hname) hs hp, static_backupTemplate (name_noPattern hname) ?_ hpt⟩
      exact static_append (by decide +kernel) (by decide +kernel) _ hps

end

/-- The shell reads the commands of the three templates, whatever the user writes, exactly if the repository of a
backup has no meaning to the shell. -/
theorem backup_scripts_read_iff (name : Str) (hname : isDNSLabel name) (ns : Str) (opts : BackupOptions)
    (ts : Int) (backup : Option ClusterBackupSpec) :
    (BackupReads ⟨ns, name⟩ opts ∧ RestoreReads ⟨ns, name⟩ ts ∧ ArchiveReads name backup) ↔
      (opts.type ≠ .restore → inert (normalizeRepo opts.repo)) := by
  have hp := plainName_of_isDNSLabel hname
  rw [← backupReads_iff hp ns opts]
  exact ⟨fun h => h.1, fun h => ⟨h, restoreReads hp ns ts, archiveReads hp backup⟩⟩

/-- A repository `repo1` is read as it is meant. -/
theorem backup_scripts_read_repo1 : isDNSLabel (str "demo") ∧
    BackupReads ⟨str "default", str "demo"⟩ ⟨.full, str "repo1", [], .sidecar⟩ ∧
    RestoreReads ⟨str "default", str "demo"⟩ 0 ∧ ArchiveReads (str "demo") (some ⟨true, some (str "/x; reboot")⟩) :=
  ⟨by decide, (backup_scripts_read_iff (str "demo") (by decide) (str "default") ⟨.full, str "repo1", [], .sidecar⟩ 0
    (some ⟨true, some (str "/x; reboot")⟩)).2 fun _ => by decide⟩

/-- A repository `1; reboot #` is read as the repository `1`, another command and a comment. -/
theorem repo_runs_command : isDNSLabel (str "demo") ∧ ∃ script,
    Plugin.backupCommand {} ⟨str "default", str "demo"⟩ ⟨.full, str "1; reboot #", [], .sidecar⟩ =
      .ok [str "sh", str "-c", script] ∧
    parse script = some (stanzaCreate (str "demo") filesystemRepoPath ++
      [.simple { words := backupWords (str "demo") ++ words "--repo=1" }, .op .semi,
      .simple { words := words "reboot" }]) := by
  refine ⟨by decide, Plugin.backupScript {} (str "demo") (str "1; reboot #") (str "full"), ?_, ?_⟩
  · simp only [Plugin.backupCommand, normalizeBackupType]
    rw [if_neg (by decide)]
  unfold Plugin.backupScript sprintf stanzaCreate backupWords repoWords connectionWords stanzaWord words repoEnv
    filesystemRepoPath pgbackrestCommonArgs
  repeat rw [str_ofList]
  decide +kernel

end PostgresOperator.Backup
