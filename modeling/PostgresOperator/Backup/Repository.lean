import PostgresOperator.Backup.Injection

/-!
# The repository of archiving, backup and restore

The repository path and the stanza with which pgBackRest is called: by the `archive_command` of a cluster, by
`BackupCommand`, by `RestoreCommand`, and by the `restore_command` that `RestoreCommand` installs.  Only the first one
takes the path from `spec.backup.repo`, so that they are the same exactly if the path is the default one.
-/

namespace PostgresOperator.Backup

open Go Shell Option Word List

/-! ### Calls of pgBackRest -/

structure Invocation where
  env : List (Str × Str)
  program : Str
  args : List Str
  deriving DecidableEq

def envInvocation (env : List (Str × Str)) : List Str → Option Invocation
  | [] => none
  | w :: ws =>
    if isAssignment w
      then envInvocation (env ++ [(w.takeWhile (· ≠ byte '='), (w.dropWhile (· ≠ byte '=')).drop 1)]) ws
    else some ⟨env, w, ws⟩

def invocation : List Str → Option Invocation
  | [] => none
  | w :: ws => if w = "exec" then invocation ws else if w = "env" then envInvocation [] ws else some ⟨[], w, ws⟩

def pgbackrestCalls (ns : List Node) : List Invocation :=
  (ns.filterMap fun
    | .simple c => c.argv.bind invocation
    | .op _ | .reserved _ => none).filter (·.program = "pgbackrest")

def optionValue (name arg : Str) : Option Str := if name.isPrefixOf arg then some (arg.drop name.length) else none

def Invocation.option (i : Invocation) (name : Str) : Option Str := i.args.findSome? (optionValue name)

structure Repository where
  path : Str
  stanza : Str
  deriving DecidableEq

/-- The repository of a call: `--repo` has its number, and the first one is taken without it.  The path of each one is
in a variable; the configuration file is `/dev/null`. -/
def Invocation.repository (i : Invocation) : Option Repository :=
  match i.option "--stanza=" with
  | none => none
  | some stanza =>
    (i.env.lookup ("PGBACKREST_REPO" ++ ((i.option "--repo=").getD "1" ++ "_PATH"))).map fun path =>
      ⟨path, stanza⟩

/-- A script calls pgBackRest, and always with the repository `r`. -/
def UsesRepository (script : Str) (r : Repository) : Prop :=
  ∃ ns, parse script = some ns ∧ pgbackrestCalls ns ≠ [] ∧ ∀ i ∈ pgbackrestCalls ns, i.repository = some r

def ArchivesTo (name : Str) (backup : Option ClusterBackupSpec) (r : Repository) : Prop :=
  ∃ cmd c script, archiveConfigForCluster name backup = some cmd ∧ parse cmd = some [.simple c] ∧
    c.argv = some [str "sh", str "-c", script] ∧ UsesRepository script r

variable (target : ClusterTarget)

def BacksUpTo (opts : BackupOptions) (r : Repository) : Prop :=
  ∃ script, Plugin.backupCommand {} target opts = .ok ["sh", "-c", script] ∧ UsesRepository script r

def RestoresFrom (ts : Int) (r : Repository) : Prop :=
  ∃ script, Plugin.restoreCommand {} target ts = .ok ["sh", "-c", script] ∧ UsesRepository script r

/-- The value of a line `restore_command = 'value'` of a configuration file; a value with a quote or a backslash is
not looked at. -/
def restoreCommandValue (line : Str) : Option Str :=
  let key := str "restore_command = '"
  let value := (line.drop key.length).dropLast
  if key.isPrefixOf line ∧ (line.drop key.length).getLast? = some (byte '\'') ∧ byte '\'' ∉ value ∧
    byte '\\' ∉ value then
    some value
  else none

/-- The `restore_command` that a restore appends to the configuration reads from `r`. -/
def InstallsRestoreFrom (ts : Int) (r : Repository) : Prop :=
  ∃ script ns c line value, Plugin.restoreCommand {} target ts = .ok ["sh", "-c", script] ∧
    parse script = some (ns ++ [.simple c]) ∧ c.argv = some [str "printf", str "%s\\n", line] ∧
    restoreCommandValue line = some value ∧ UsesRepository value r

/-- Archiving, backups, restores and the recovery after them use one repository. -/
def SameRepository (backup : Option ClusterBackupSpec) (opts : BackupOptions) (ts : Int) : Prop :=
  ∃ r, ArchivesTo target.name backup r ∧ BacksUpTo target opts r ∧ RestoresFrom target ts r ∧
    InstallsRestoreFrom target ts r

/-- The path of the repository is not set, is refused by the filter, or is the default one. -/
def ClusterBackupSpec.DefaultPath (spec : ClusterBackupSpec) : Prop :=
  ∀ path, spec.repo = some path → path = [] ∨ matchesRepoPathPattern path = false ∨
    path = "/var/lib/postgresql/data/pgbackrest"

/-- When archiving goes to the path that backups and restores use. -/
theorem archiveRepoPath_eq_iff (spec : ClusterBackupSpec) : archiveRepoPath spec = filesystemRepoPath ↔
    spec.DefaultPath := by
  have hm : backupRepoMountPath = filesystemRepoPath := by decide +kernel
  unfold archiveRepoPath ClusterBackupSpec.DefaultPath
  cases hr : spec.repo with
  | none => simp [hm]
  | some path =>
    simp only [some.injEq, forall_eq']
    by_cases hn : path = []
    · simp [hn, hm]
    · cases hmt : matchesRepoPathPattern path with
      | false => simp [hn, sanitizeBackupRepoPath, hmt, hm]
      | true => simp [hn, sanitizeBackupRepoPath, hmt, filesystemRepoPath]

/-! ### Reading the calls -/

private def repoInvocation (path : Str) (args : List Str) : Invocation :=
  ⟨[("PGBACKREST_REPO1_TYPE", "posix"), ("PGBACKREST_REPO1_PATH", path)], "pgbackrest", args⟩

private def commonArgs : List Str :=
  ["--config=/dev/null", "--log-level-file=off", "--pg1-path=/var/lib/postgresql/data/pgdata"]

theorem invocation_repo (path : Str) (args : List Str) :
    invocation ("env" :: "PGBACKREST_REPO1_TYPE=posix" :: ("PGBACKREST_REPO1_PATH=" ++ path) ::
      "pgbackrest" :: args) = some (repoInvocation path args) := by
  have ht : isAssignment "PGBACKREST_REPO1_TYPE=posix" := by decide +kernel
  have hp : isAssignment ("PGBACKREST_REPO1_PATH=" ++ path) := by
    rw [str_ofList]
    rfl
  have hpr : isAssignment "pgbackrest" = false := by decide +kernel
  have hn : (str "PGBACKREST_REPO1_PATH=" ++ path).takeWhile (· ≠ byte '=') = str "PGBACKREST_REPO1_PATH" := by
    rw [str_ofList, str_ofList]
    rfl
  have hv : ((str "PGBACKREST_REPO1_PATH=" ++ path).dropWhile (· ≠ byte '=')).drop 1 = path := by
    rw [str_ofList]
    rfl
  rw [invocation, if_neg (by decide), if_pos rfl, envInvocation, if_pos ht, envInvocation, if_pos hp, hn, hv,
    envInvocation, if_neg (by simp [hpr])]
  rfl

theorem value_words (s : String) : (words s).map value = split ' ' (str s) := by
  rw [words, List.map_map]
  exact List.map_id'' (fun t => value_ofText t) _

theorem value_quoted (raw value : Str) : (quoted raw value).value = value := flatMap_value_char true value

theorem value_repoWords (path : Str) : (repoWords path).map value =
    str "env" :: str "PGBACKREST_REPO1_TYPE=posix" :: (str "PGBACKREST_REPO1_PATH=" ++ path) :: str "pgbackrest" ::
      commonArgs := by
  have he : split (byte ' ') (str "env PGBACKREST_REPO1_TYPE=posix") =
      [str "env", str "PGBACKREST_REPO1_TYPE=posix"] := by
    repeat rw [str_ofList]
    decide +kernel
  have ha : split (byte ' ')
      (str "pgbackrest --config=/dev/null --log-level-file=off --pg1-path=/var/lib/postgresql/data/pgdata") =
      str "pgbackrest" :: commonArgs := by
    unfold commonArgs
    repeat rw [str_ofList]
    decide +kernel
  rw [repoWords, map_append, map_cons, value_words, value_words, value_ofText, he, ha]
  rfl

private def connectionArgs : List Str := ["--pg1-user=postgres", "--pg1-database=postgres"]

theorem value_connectionWords : connectionWords.map value = connectionArgs := by
  rw [connectionWords, value_words]
  decide +kernel

variable {path : Str} {args : List Str}

theorem option_stanza (ha : args.findSome? (optionValue "--stanza=") = none)
    (stanza : Str) (rest : List Str) :
    (repoInvocation path (args ++ ("--stanza=" ++ stanza) :: rest)).option "--stanza=" = some stanza := by
  have hv : optionValue "--stanza=" ("--stanza=" ++ stanza) = some stanza := by
    rw [optionValue, if_pos ( isPrefixOf_iff_prefix.2 (prefix_append _ _)), drop_left]
  simp only [Invocation.option, repoInvocation, findSome?_append, ha, none_or, findSome?_cons, hv]

variable {stanza : Str}

theorem repository_eq (hs : (repoInvocation path args).option (str "--stanza=") = some stanza)
    (hr : (repoInvocation path args).option (str "--repo=") = none ∨
      (repoInvocation path args).option (str "--repo=") = some (str "1")) :
    (repoInvocation path args).repository = some ⟨path, stanza⟩ := by
  have hkey : ((repoInvocation path args).option (str "--repo=")).getD (str "1") = str "1" := by
    obtain h | h := hr <;> rw [h] <;> rfl
  have hl : (repoInvocation path args).env.lookup (str "PGBACKREST_REPO" ++ (str "1" ++ str "_PATH")) =
      some path := by
    have ht : (str "PGBACKREST_REPO" ++ (str "1" ++ str "_PATH") == str "PGBACKREST_REPO1_TYPE") = false := by
      decide +kernel
    have hp : (str "PGBACKREST_REPO" ++ (str "1" ++ str "_PATH") == str "PGBACKREST_REPO1_PATH") := by
      decide +kernel
    simp only [repoInvocation, lookup_cons, ht, hp]
  simp only [Invocation.repository, hs, hkey, hl, map_some]

/-- The calls of a script without expansions. -/
theorem pgbackrestCalls_of_static {ns : List Node} (h : ns.all Node.static) : pgbackrestCalls ns = (ns.filterMap fun
      | .simple c => invocation (c.words.map value)
      | .op _ | .reserved _ => none).filter (·.program = str "pgbackrest") := by
  unfold pgbackrestCalls
  congr 1
  refine filterMap_congr ?_
  intro n hn
  cases n with
  | simple c =>
    have hc : c.static := all_eq_true.1 h _ hn
    simp [Simple.argv, hc]
  | op o => rfl
  | reserved r => rfl

private def stanzaInvocation (stanza path : Str) : Invocation :=
  repoInvocation path (commonArgs ++ connectionArgs ++ ["--stanza=" ++ stanza, "stanza-create"])

theorem invocation_words (path : Str) (ws : List Word) :
    invocation ((repoWords path ++ ws).map value) = some (repoInvocation path (commonArgs ++ ws.map value)) := by
  rw [map_append, value_repoWords]
  exact invocation_repo path _

theorem invocation_exec (path : Str) (ws : List Word) :
    invocation ((words "exec" ++ (repoWords path ++ ws)).map value) =
      some (repoInvocation path (commonArgs ++ ws.map value)) := by
  have he : split (byte ' ') (str "exec") = [str "exec"] := by decide +kernel
  rw [map_append, value_words, he, singleton_append, invocation, if_pos rfl]
  exact invocation_words path ws

theorem calls_stanzaCreate {ns : List Node} (h : (stanzaCreate stanza path ++ ns).all Node.static) :
    pgbackrestCalls (stanzaCreate stanza path ++ ns) = stanzaInvocation stanza path :: pgbackrestCalls ns := by
  have hns : ns.all Node.static := by
    rw [all_append, Bool.and_eq_true] at h
    exact h.2
  have ht : invocation ((words "true").map value) = some ⟨[], str "true", []⟩ := by decide +kernel
  have hn : ¬ (⟨[], str "true", []⟩ : Invocation).program = str "pgbackrest" := by decide +kernel
  have hc : invocation ((repoWords path ++ connectionWords ++
      [stanzaWord stanza, .ofText (str "stanza-create")]).map value) = some (stanzaInvocation stanza path) := by
    rw [append_assoc, invocation_words, map_append, value_connectionWords]
    simp [stanzaInvocation, stanzaWord]
  have hp : (stanzaInvocation stanza path).program = str "pgbackrest" := rfl
  rw [pgbackrestCalls_of_static h, pgbackrestCalls_of_static hns]
  simp only [stanzaCreate, cons_append, nil_append, filterMap_cons, hc, ht,
    filter_cons, hp, hn, decide_true, decide_false, if_true, if_false, Bool.false_eq_true]

theorem calls_exec {ws : List Word} {redirects : List Redirect}
    (h : [Node.simple { words := words "exec" ++ (repoWords path ++ ws), redirects }].all Node.static) :
    pgbackrestCalls [.simple { words := words "exec" ++ (repoWords path ++ ws), redirects }] =
      [repoInvocation path (commonArgs ++ ws.map value)] := by
  have hp : (repoInvocation path (commonArgs ++ ws.map value)).program = str "pgbackrest" := rfl
  rw [pgbackrestCalls_of_static h]
  simp only [filterMap_cons, filterMap_nil, invocation_exec, filter_cons, filter_nil, hp,
    decide_true, if_true]

theorem option_repo_eq_none {rest : List Str}
    (ha : args.findSome? (optionValue "--repo=") = none) (hr : rest.findSome? (optionValue "--repo=") = none) :
    (repoInvocation path (args ++ ("--stanza=" ++ stanza) :: rest)).option "--repo=" = none := by
  have hs : optionValue "--repo=" ("--stanza=" ++ stanza) = none := by
    rw [optionValue, str_ofList, str_ofList]
    rfl
  simp only [Invocation.option, repoInvocation, findSome?_append, ha, findSome?_cons, hs, hr,
    none_or]

theorem stanzaInvocation_repository (stanza path : Str) :
    (stanzaInvocation stanza path).repository = some ⟨path, stanza⟩ :=
  repository_eq (option_stanza (by decide +kernel) stanza _)
    (.inl (option_repo_eq_none (by decide +kernel) (by decide +kernel)))

example : (stanzaInvocation "demo" "/backup").repository = some ⟨"/backup", "demo"⟩ := by decide +kernel

/-- A script uses one repository. -/
theorem UsesRepository.unique {script : Str} {r r' : Repository} (h : UsesRepository script r)
    (h' : UsesRepository script r') : r = r' := by
  obtain ⟨ns, hp, hne, ha⟩ := h
  obtain ⟨ns', hp', -, ha'⟩ := h'
  obtain rfl := some.inj (hp.symm.trans hp')
  obtain ⟨i, hi⟩ := exists_mem_of_ne_nil _ hne
  exact some.inj ((ha i hi).symm.trans (ha' i hi))

/-! ### The repositories -/

variable {name : Str}

theorem usesRepository_archiveScript (h : ParsesAs (archiveScript name path) (archiveTemplate name path)) :
    UsesRepository (archiveScript name path) ⟨path, name⟩ := by
  have hs := h.2
  rw [archiveTemplate, append_assoc (words "exec")] at hs
  have he := hs
  rw [all_append, Bool.and_eq_true] at he
  have hc : pgbackrestCalls (archiveTemplate name path) = [stanzaInvocation name path,
      repoInvocation path (commonArgs ++ ["--stanza=" ++ name, "archive-push", "%p"])] := by
    rw [archiveTemplate, append_assoc (words "exec"), calls_stanzaCreate hs, calls_exec he.2]
    simp [stanzaWord, value_quoted]
  refine ⟨_, h.1, by simp [hc], ?_⟩
  rw [hc]
  intro i hi
  simp only [mem_cons, not_mem_nil, or_false] at hi
  obtain rfl | rfl := hi
  · exact stanzaInvocation_repository name path
  · exact repository_eq (option_stanza (by decide +kernel) name _)
      (.inl (option_repo_eq_none (by decide +kernel) (by decide +kernel)))

/-- Archiving goes to the path of the spec. -/
theorem archivesTo_iff (hnm : PlainName name) (spec : ClusterBackupSpec)
    (he : spec.enabled) (r : Repository) :
    ArchivesTo name (some spec) r ↔ r = ⟨archiveRepoPath spec, name⟩ := by
  have hcn : archiveConfigForCluster name (some spec) = some (archiveCommand name (archiveRepoPath spec)) := by
    rw [archiveConfigForCluster, if_pos he]
  obtain ⟨raw, spec', hs, ho, hinn⟩ := archiveReads hnm (some spec) _ hcn
  obtain rfl := some.inj hs
  have hu := usesRepository_archiveScript hinn
  have hsh : split (byte ' ') (str "sh -c") = [str "sh", str "-c"] := by decide +kernel
  have ha : ({ words := words "sh -c" ++ [quoted raw (archiveScript name (archiveRepoPath spec))] } : Simple).argv =
      some [str "sh", str "-c", archiveScript name (archiveRepoPath spec)] := by
    have hsta := ho.2
    rw [all_cons, all_nil, Bool.and_true, Node.static] at hsta
    rw [Simple.argv, if_pos hsta, map_append, value_words, hsh, map_singleton, value_quoted]
    rfl
  constructor
  · rintro ⟨cmd, c, script, hd, hp, hc, hr⟩
    obtain rfl := some.inj (hcn.symm.trans hd)
    have hn := some.inj (ho.1.symm.trans hp)
    obtain rfl := Node.simple.inj (singleton_inj.1 hn)
    have hsr := some.inj (ha.symm.trans hc)
    simp only [List.cons.injEq, and_true, true_and] at hsr
    rw [← hsr] at hr
    exact hr.unique hu
  · rintro rfl
    exact ⟨_, _, _, hcn, ho.1, ha, hu⟩

theorem filter_other {program : Str} (h : program ≠ str "pgbackrest")
    (is : List Invocation) : ((⟨[], program, args⟩ : Invocation) :: is).filter (·.program = str "pgbackrest") =
      is.filter (·.program = str "pgbackrest") := by
  simp [h]

theorem calls_restoreTemplate {target : Str} (h : (restoreTemplate name target).all Node.static) :
    pgbackrestCalls (restoreTemplate name target) = [repoInvocation filesystemRepoPath (commonArgs ++
      ("--stanza=" ++ name) :: ["--type=time", "--target=" ++ target, "--delta", "restore"])] := by
  have hrm : invocation ((words "rm -f /var/lib/postgresql/data/pgdata/postmaster.pid").map value) =
      some ⟨[], "rm", ["-f", "/var/lib/postgresql/data/pgdata/postmaster.pid"]⟩ := by
    rw [value_words]
    decide +kernel
  have ht : invocation ((words "touch /var/lib/postgresql/data/pgdata/postgresql.auto.conf").map value) =
      some ⟨[], "touch", ["/var/lib/postgresql/data/pgdata/postgresql.auto.conf"]⟩ := by
    rw [value_words]
    decide +kernel
  have hs : ∀ ws, invocation ((words "sed -i" ++ ws).map value) =
      some ⟨[], "sed", "-i" :: ws.map value⟩ := by
    intro ws
    rw [map_append, value_words]
    rfl
  have hp : ∀ ws, invocation ((words "printf" ++ ws).map value) = some ⟨[], "printf", ws.map value⟩ := by
    intro ws
    rw [map_append, value_words]
    rfl
  have hpr : ∀ args, (repoInvocation filesystemRepoPath args).program = "pgbackrest" := fun _ => rfl
  have hr : (⟨"--target=" ++ shellSingleQuote target,
      (str "--target=").map (.char false) ++ target.map (.char true)⟩ : Word).value = str "--target=" ++ target := by
    rw [value, flatMap_append, flatMap_value_char, flatMap_value_char]
  rw [pgbackrestCalls_of_static h]
  simp only [restoreTemplate, filterMap_cons, filterMap_nil, hrm, ht, hs, hp, invocation_words]
  rw [filter_other (by decide +kernel), filter_cons, if_pos (by rw [hpr]; decide +kernel),
    filter_other (by decide +kernel), filter_other (by decide +kernel), filter_other (by decide +kernel)]
  simp only [map_cons, map_nil, stanzaWord, value_ofText, hr, filter_nil]

/-- A restore reads the default path, whatever the spec says. -/
theorem restoresFrom_iff (hn : PlainName name) (ns : Str) (ts : Int) (r : Repository) :
    RestoresFrom ⟨ns, name⟩ ts r ↔ r = ⟨filesystemRepoPath, name⟩ := by
  have hc : Plugin.restoreCommand {} ⟨ns, name⟩ ts = .ok ["sh", "-c", Plugin.restoreScript {} name ts] := by
    rw [Plugin.restoreCommand, if_neg hn.1]
  obtain ⟨script, hs, hp, hsta⟩ := restoreReads hn ns ts _ hc
  simp only [List.cons.injEq, and_true, true_and] at hs
  subst hs
  have hu : UsesRepository (Plugin.restoreScript {} name ts) ⟨filesystemRepoPath, name⟩ := by
    refine ⟨_, hp, by simp [calls_restoreTemplate hsta], ?_⟩
    rw [calls_restoreTemplate hsta]
    intro i hi
    obtain rfl := mem_singleton.1 hi
    have ht : optionValue "--repo=" ("--target=" ++ formatTargetTime ts) = none := by
      rw [optionValue, str_ofList, str_ofList]
      rfl
    refine repository_eq (option_stanza (by decide +kernel) name _)
      (.inl (option_repo_eq_none (by decide +kernel) ?_))
    have hcl : ∀ t ∈ ["--type=time", "--delta", "restore"], optionValue "--repo=" t = none := by
      decide +kernel
    simp [ht, hcl]
  constructor
  · rintro ⟨script, hs, hr⟩
    have heq := Except.ok.inj (hc.symm.trans hs)
    simp only [List.cons.injEq, and_true, true_and] at heq
    rw [← heq] at hr
    exact hr.unique hu
  · rintro rfl
    exact ⟨_, hc, hu⟩

private def installedWords (name : Str) : List Word :=
  repoWords filesystemRepoPath ++ [stanzaWord name, .ofText "archive-get", .ofText "%f",
    quoted "\"%p\"" "%p"]

private def installedHead : Str :=
  "env " ++ (repoEnv ++
    " pgbackrest --config=/dev/null --log-level-file=off --pg1-path=/var/lib/postgresql/data/pgdata --stanza=")

theorem parse_installedRestoreCommand (hn : PlainName name) :
    parse (installedRestoreCommand name) = some [.simple { words := installedWords name }] := by
  have hh : State.run {} installedHead =
      ⟨(repoWords filesystemRepoPath).map .word, .word .plain (.ofText "--stanza=")⟩ := by
    unfold installedHead repoEnv filesystemRepoPath repoWords words
    repeat rw [str_ofList]
    decide +kernel
  have ht : lex " archive-get %f \"%p\"" = some [.word (.ofText "archive-get"), .word (.ofText "%f"),
      .word (quoted "\"%p\"" "%p")] := by
    decide +kernel
  have he : (repoWords filesystemRepoPath).head?.any isCommandName := by decide +kernel
  have heq : installedRestoreCommand name = installedHead ++ (name ++ " archive-get %f \"%p\"") := by
    simp only [installedRestoreCommand, installedHead, append_assoc]
  have hk : (repoWords filesystemRepoPath).map Shell.Token.word ++ .word ((ofText "--stanza=").append name
      (name.map (.char false))) :: [.word (.ofText "archive-get"), .word (.ofText "%f"),
      .word (quoted "\"%p\"" "%p")] = (installedWords name).map .word ++ [] := by
    simp [installedWords, stanzaWord]
  rw [parse, heq, lex_append hh (scan_plain fun c hc => (hn.2 c hc).1) (by decide +kernel), ht, map_some,
    bind_some, parseTokens, hk, installedWords, Parser.run_command (head?_any_append he _)]
  rfl

theorem restoreCommandValue_line {value : Str} (hq : byte '\'' ∉ value) (hs : byte '\\' ∉ value) :
    restoreCommandValue (str "restore_command = '" ++ value ++ str "'") = some value := by
  have hl : str "'" = [byte '\''] := by decide
  have hd : (str "restore_command = '" ++ value ++ [byte '\'']).drop (str "restore_command = '").length =
      value ++ [byte '\''] := by
    rw [append_assoc, drop_left]
  have hp : (str "restore_command = '").isPrefixOf (str "restore_command = '" ++ value ++ [byte '\'']) := by
    rw [ isPrefixOf_iff_prefix, append_assoc]
    exact prefix_append _ _
  simp only [restoreCommandValue, hl, hd, hp, dropLast_concat]
  rw [if_pos]
  exact ⟨trivial, by simp, hq, hs⟩

example : restoreCommandValue (str "restore_command = 'cp %f'") = some (str "cp %f") := by decide +kernel

theorem notMem_installedRestoreCommand (hn : PlainName name) {q : UInt8}
    (hq : q = byte '\'' ∨ q = byte '\\') : q ∉ installedRestoreCommand name := by
  have hc : (installedHead.all fun c => c ≠ byte '\'' && c ≠ byte '\\') ∧
      ((str " archive-get %f \"%p\"").all fun c => c ≠ byte '\'' && c ≠ byte '\\') := by
    unfold installedHead repoEnv filesystemRepoPath
    repeat rw [str_ofList]
    decide +kernel
  have hs : isSpecial q := by
    obtain rfl | rfl := hq <;> decide
  have heq : installedRestoreCommand name = installedHead ++ (name ++ str " archive-get %f \"%p\"") := by
    simp only [installedRestoreCommand, installedHead, append_assoc]
  intro hm
  rw [heq, mem_append, mem_append] at hm
  obtain hm | hm | hm := hm
  · have := all_eq_true.1 hc.1 q hm
    simp only [Bool.and_eq_true, decide_eq_true_eq] at this
    exact hq.elim this.1 this.2
  · exact absurd (hn.2 q hm).1 (by simp [hs])
  · have := all_eq_true.1 hc.2 q hm
    simp only [Bool.and_eq_true, decide_eq_true_eq] at this
    exact hq.elim this.1 this.2

theorem usesRepository_installed (hn : PlainName name) :
    UsesRepository (installedRestoreCommand name) ⟨filesystemRepoPath, name⟩ := by
  have hs : [Node.simple { words := installedWords name }].all Node.static := by
    have hg : (ofText "archive-get").static := by decide +kernel
    have hf : (ofText "%f").static := by decide +kernel
    simp only [installedWords, all_cons, all_nil, Node.static, Simple.static, all_append,
      static_repoWords filesystemRepoPath_noPattern, static_stanzaWord fun c hc => (hn.2 c hc).2, static_quoted, hg,
      hf, Bool.and_true]
  have hp : ∀ args, (repoInvocation filesystemRepoPath args).program = "pgbackrest" := fun _ => rfl
  have hcl : pgbackrestCalls [.simple { words := installedWords name }] =
      [repoInvocation filesystemRepoPath (commonArgs ++
      (str "--stanza=" ++ name) :: [str "archive-get", str "%f", str "%p"])] := by
    rw [pgbackrestCalls_of_static hs]
    simp only [installedWords, filterMap_cons, filterMap_nil, invocation_words, filter_cons, filter_nil,
      hp, decide_true, if_true, map_cons, map_nil, stanzaWord, value_ofText, value_quoted]
  refine ⟨_, parse_installedRestoreCommand hn, by simp [hcl], ?_⟩
  rw [hcl]
  intro i hi
  obtain rfl := mem_singleton.1 hi
  exact repository_eq (option_stanza (by decide +kernel) name _)
    (.inl (option_repo_eq_none (by decide +kernel) (by decide +kernel)))

/-- So does the `restore_command` that it installs. -/
theorem installsRestoreFrom (hn : PlainName name) (ns : Str) (ts : Int) :
    InstallsRestoreFrom ⟨ns, name⟩ ts ⟨filesystemRepoPath, name⟩ := by
  have hc : Plugin.restoreCommand {} ⟨ns, name⟩ ts = .ok [str "sh", str "-c", Plugin.restoreScript {} name ts] := by
    rw [Plugin.restoreCommand, if_neg hn.1]
  obtain ⟨script, hs, hp, hsta⟩ := restoreReads hn ns ts _ hc
  simp only [List.cons.injEq, and_true, true_and] at hs
  subst hs
  have hpr : split (byte ' ') (str "printf") = [str "printf"] := by decide +kernel
  refine ⟨_, (restoreTemplate name (formatTargetTime ts)).dropLast, _, _, _, hc, hp, ?_,
    restoreCommandValue_line (notMem_installedRestoreCommand hn (.inl rfl))
      (notMem_installedRestoreCommand hn (.inr rfl)), usesRepository_installed hn⟩
  simp only [restoreTemplate, all_cons, Node.static, Bool.and_eq_true] at hsta
  rw [Simple.argv, if_pos hsta.2.2.2.2.2.2.2.2.1, map_append, value_words, hpr]
  simp only [map_cons, map_nil, restoreLineWord, value_quoted]
  rfl

/-! ### Backups -/

def NamesRepository (repo : Str) (k : Nat) : Prop := repo = itoaNat k ∨ repo = "repo" ++ itoaNat k

theorem isDigitByte_plain : ∀ c, isDigitByte c →
    isSpecial c = false ∧ isPattern c = false ∧ c ≠ 'r' ∧ ∀ w ∈ spaceRunes, c ∉ w := by
  decide +kernel

theorem normalizeRepo_of_namesRepository {repo : Str} {k : Nat} (h : NamesRepository repo k) :
    normalizeRepo repo = itoaNat k := by
  have hd : ∀ c ∈ itoaNat k, _ := fun c hc => isDigitByte_plain c (isDigitByte_of_mem_itoaNat hc)
  have hne := itoaNat_ne_nil k
  obtain rfl | rfl := h
  · have ht : trimSpace (itoaNat k) = itoaNat k := trimSpace_eq_self fun c hc => (hd c hc).2.2.2
    have hp : (str "repo").isPrefixOf (itoaNat k) = false := by
      cases hk : itoaNat k with
      | nil => exact absurd hk hne
      | cons c s =>
        have hc := (hd c (by simp [hk])).2.2.1
        have hr : str "repo" = byte 'r' :: str "epo" := by decide
        simp [hr, isPrefixOf, Ne.symm hc]
    simp [normalizeRepo, ht, hp]
  · have ht : trimSpace (str "repo" ++ itoaNat k) = str "repo" ++ itoaNat k := by
      refine trimSpace_eq_self ?_
      intro c hc
      have hcl : ∀ c ∈ str "repo", ∀ w ∈ spaceRunes, c ∉ w := by decide +kernel
      obtain hc | hc := mem_append.1 hc
      · exact hcl c hc
      · exact (hd c hc).2.2.2
    have hp : (str "repo").isPrefixOf (str "repo" ++ itoaNat k) :=
       isPrefixOf_iff_prefix.2 (prefix_append _ _)
    have hdr : (str "repo" ++ itoaNat k).drop (str "repo").length = itoaNat k := drop_left
    rw [show (str "repo").length = 4 by decide] at hdr
    simp [normalizeRepo, ht, hp, hdr, hne]

example : normalizeRepo "repo12" = itoaNat 12 := by decide +kernel

theorem lookup_repo_path (path : Str) (args : List Str) (k : Nat) :
    (repoInvocation path args).env.lookup (str "PGBACKREST_REPO" ++ (itoaNat k ++ str "_PATH")) =
      if k = 1 then some path else none := by
  have ho : itoaNat 1 = str "1" := by decide
  have hpn : str "PGBACKREST_REPO1_PATH" = str "PGBACKREST_REPO" ++ (itoaNat 1 ++ str "_PATH") := by decide +kernel
  have htn : str "PGBACKREST_REPO1_TYPE" = str "PGBACKREST_REPO" ++ (str "1_TYP" ++ [byte 'E']) := by decide +kernel
  have hp : (str "PGBACKREST_REPO" ++ (itoaNat k ++ str "_PATH") == str "PGBACKREST_REPO1_PATH") =
      decide (k = 1) := by
    rw [hpn, Bool.eq_iff_iff, beq_iff_eq, decide_eq_true_iff, append_cancel_left_eq, append_cancel_right_eq]
    exact itoaNat_injective.eq_iff
  have ht : (str "PGBACKREST_REPO" ++ (itoaNat k ++ str "_PATH") == str "PGBACKREST_REPO1_TYPE") = false := by
    have hl : str "_PATH" = str "_PAT" ++ [byte 'H'] := by decide +kernel
    rw [htn, beq_eq_false_iff_ne, ne_eq, append_cancel_left_eq, hl, ← append_assoc]
    intro h
    have hb : byte 'H' = byte 'E' := by simpa using congrArg getLast? h
    exact absurd hb (by decide)
  simp only [repoInvocation, lookup_cons, ht, hp, lookup_nil]
  by_cases hk : k = 1 <;> simp [hk]

theorem repository_of_number (hs : args.findSome? (optionValue "--stanza=") = none)
    (hr : args.findSome? (optionValue "--repo=") = none) (stanza : Str) (k : Nat) (rest : List Str) :
    (repoInvocation path (args ++ ("--stanza=" ++ stanza) :: ("--repo=" ++ itoaNat k) :: rest)).repository =
      if k = 1 then some ⟨path, stanza⟩ else none := by
  have ho : optionValue "--repo=" ("--stanza=" ++ stanza) = none := by
    rw [optionValue, str_ofList, str_ofList]
    rfl
  have hv : optionValue "--repo=" ("--repo=" ++ itoaNat k) = some (itoaNat k) := by
    rw [optionValue, if_pos ( isPrefixOf_iff_prefix.2 (prefix_append _ _)), drop_left]
  have hn : (repoInvocation path (args ++ ("--stanza=" ++ stanza) :: ("--repo=" ++ itoaNat k) :: rest)).option
      "--repo=" = some (itoaNat k) := by
    simp only [Invocation.option, repoInvocation, findSome?_append, hr, none_or, findSome?_cons, ho,
      hv]
  rw [Invocation.repository, option_stanza hs, hn]
  simp only [getD_some, lookup_repo_path]
  by_cases hk : k = 1 <;> simp [hk]

/-- A backup goes to the repository of the number that the job names. -/
theorem backsUpTo_iff (hn : PlainName name) (ns : Str) (opts : BackupOptions)
    (hbc : opts.type ≠ .restore) {k : Nat} (hr : NamesRepository opts.repo k) (r : Repository) :
    BacksUpTo ⟨ns, name⟩ opts r ↔ k = 1 ∧ r = ⟨filesystemRepoPath, name⟩ := by
  have hnr := normalizeRepo_of_namesRepository hr
  have hd : ∀ c ∈ itoaNat k, _ := fun c hc => isDigitByte_plain c (isDigitByte_of_mem_itoaNat hc)
  obtain ⟨backupType, ht⟩ : ∃ backupType, normalizeBackupType opts.type = .ok backupType := by
    cases h : opts.type with
    | restore => exact absurd h hbc
    | full | incremental | differential => exact ⟨_, rfl⟩
  have hm : Plugin.backupCommand {} ⟨ns, name⟩ opts =
      .ok ["sh", "-c", Plugin.backupScript {} name opts.repo backupType] := by
    simp only [Plugin.backupCommand, ht]
    rw [if_neg hn.1]
  have hine : inert (normalizeRepo opts.repo) := by
    rw [hnr]
    exact (inert_iff _).2 ⟨_, scan_plain fun c hc => (hd c hc).1, all_static_plain fun c hc => (hd c hc).2.1⟩
  obtain ⟨script, repo, backupType', hsr, -, hw, hp, hsta⟩ :=
    (backupReads_iff hn ns opts).2 (fun _ => hine) _ hm
  simp only [List.cons.injEq, and_true, true_and] at hsr
  subst hsr
  -- the same parse, with the word of the repository written out
  have hs : WordMode.plain.scan (normalizeRepo opts.repo) = some ((itoaNat k).map (.char false), .plain) := by
    rw [hnr]
    exact scan_plain fun c hc => (hd c hc).1
  have htp : ∀ c ∈ backupType, isSpecial c = false := by
    cases h : opts.type with
    | restore => exact absurd h hbc
    | full | incremental | differential =>
      rw [h, normalizeBackupType, Except.ok.injEq] at ht
      subst ht
      decide +kernel
  have hp' := parse_backupScript (fun c hc => (hn.2 c hc).1) hs htp
  rw [hnr, append_ofText] at hp'
  have hnd := some.inj (hp.symm.trans hp')
  rw [hnd] at hsta
  have hb : backupTemplate name (.ofText ("--repo=" ++ itoaNat k)) backupType =
      stanzaCreate name filesystemRepoPath ++
      [.simple { words := words "exec" ++ (repoWords filesystemRepoPath ++ (connectionWords ++ [stanzaWord name,
        .ofText ("--repo=" ++ itoaNat k), .ofText ("--type=" ++ backupType), .ofText "backup"])) }] := by
    simp [backupTemplate, backupWords]
  rw [hb] at hsta hp'
  have he := hsta
  rw [all_append, Bool.and_eq_true] at he
  have hv : commonArgs ++ (connectionWords ++ [stanzaWord name, .ofText ("--repo=" ++ itoaNat k),
      .ofText ("--type=" ++ backupType), .ofText "backup"]).map value = commonArgs ++ connectionArgs ++
      ["--stanza=" ++ name, "--repo=" ++ itoaNat k, "--type=" ++ backupType, "backup"] := by
    rw [map_append, value_connectionWords, append_assoc]
    simp only [map_cons, map_nil, stanzaWord, value_ofText]
  have hcl := calls_stanzaCreate hsta
  rw [calls_exec he.2, hv] at hcl
  have ha : (commonArgs ++ connectionArgs).findSome? (optionValue "--stanza=") = none ∧
      (commonArgs ++ connectionArgs).findSome? (optionValue "--repo=") = none := by decide +kernel
  have hl := @repository_of_number filesystemRepoPath _ ha.1 ha.2 name k ["--type=" ++ backupType, "backup"]
  constructor
  · rintro ⟨script, hsr, ns', hp₂, -, hal⟩
    have heq := Except.ok.inj (hm.symm.trans hsr)
    simp only [List.cons.injEq, and_true, true_and] at heq
    subst heq
    obtain rfl := some.inj (hp'.symm.trans hp₂)
    rw [hcl] at hal
    have hf := hal _ mem_cons_self
    have hsc := hal _ (mem_cons_of_mem _ mem_cons_self)
    rw [hl] at hsc
    rw [stanzaInvocation_repository, some.injEq] at hf
    split_ifs at hsc with hk
    exact ⟨hk, hf.symm⟩
  · rintro ⟨hk, rfl⟩
    rw [if_pos hk] at hl
    refine ⟨_, hm, _, hp', by simp [hcl], ?_⟩
    rw [hcl]
    intro i hi
    simp only [mem_cons, not_mem_nil, or_false] at hi
    obtain rfl | rfl := hi
    · exact stanzaInvocation_repository name filesystemRepoPath
    · exact hl

/-- Archiving, backups and restores use one repository exactly if the cluster leaves the path of the repository at its
default and the backup names the first repository. -/
theorem same_repository_iff (name : Str) (hname : isDNSSubdomain name) (ns : Str) (spec : ClusterBackupSpec)
    (henabled : spec.enabled) (opts : BackupOptions) (hbackup : opts.type ≠ .restore) (k : Nat)
    (hrepo : NamesRepository opts.repo k) (ts : Int) :
    SameRepository ⟨ns, name⟩ (some spec) opts ts ↔ spec.DefaultPath ∧ k = 1 := by
  have hp := plainName_of_isDNSSubdomain hname
  rw [← archiveRepoPath_eq_iff]
  constructor
  · rintro ⟨r, ha, hb, -, -⟩
    rw [archivesTo_iff hp spec henabled] at ha
    rw [backsUpTo_iff hp ns opts hbackup hrepo] at hb
    refine ⟨?_, hb.1⟩
    have hpt := congrArg Repository.path (ha.symm.trans hb.2)
    exact hpt
  · rintro ⟨hpt, hk⟩
    refine ⟨⟨filesystemRepoPath, name⟩, ?_, ?_, ?_, installsRestoreFrom hp ns ts⟩
    · rw [archivesTo_iff hp spec henabled, hpt]
    · rw [backsUpTo_iff hp ns opts hbackup hrepo]
      exact ⟨hk, rfl⟩
    · rw [restoresFrom_iff hp]

/-- The filter refuses a path with a space, so that the default path is used. -/
theorem same_repository_refused_path :
    SameRepository ⟨"default", "demo"⟩ (some ⟨true, some "/my backups"⟩) ⟨.full, "repo1", [], .sidecar⟩ 0 := by
  refine (same_repository_iff "demo" (by decide) "default" ⟨true, some "/my backups"⟩ rfl
    ⟨.full, "repo1", [], .sidecar⟩ (by decide) 1 (.inr (by decide)) 0).2 ⟨?_, rfl⟩
  rintro path hp
  cases hp
  exact .inr (.inl (by decide +kernel))

/-- With the path `/backup`, the log is archived in another repository than the one that backups are written to and
restores read from. -/
theorem archive_in_other_repository : ArchivesTo "demo" (some ⟨true, some "/backup"⟩) ⟨"/backup", "demo"⟩ ∧
    BacksUpTo ⟨"default", "demo"⟩ ⟨.full, "repo1", [], .sidecar⟩
      ⟨"/var/lib/postgresql/data/pgbackrest", "demo"⟩ ∧
    RestoresFrom ⟨"default", "demo"⟩ 0 ⟨"/var/lib/postgresql/data/pgbackrest", "demo"⟩ := by
  have hp : PlainName "demo" := plainName_of_isDNSSubdomain (by decide)
  refine ⟨(archivesTo_iff hp _ rfl _).2 (by decide), ?_, (restoresFrom_iff hp _ _ _).2 rfl⟩
  exact (backsUpTo_iff hp _ _ (by decide) (.inr (by decide)) _).2 ⟨rfl, rfl⟩

end PostgresOperator.Backup
