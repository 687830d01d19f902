import PostgresOperator.Backup.PgBackRest
import PostgresOperator.Shell.Parse

/-!
# What the shell makes of the backup scripts

The scripts of `BackupCommand` and `RestoreCommand` and the `archive_command` are parsed as the shell parses them.
The commands that their templates show are written down here with the strings of the user as arguments.
-/

namespace PostgresOperator.Backup

open Go Shell State Word Option

/-! ### Templates -/

def words (s : String) : List Word := (split ' ' (str s)).map .ofText

example : words "set -eu" = [.ofText "set", .ofText "-eu"] := by decide +kernel

def quoted (raw value : Str) : Word := ⟨raw, value.map (.char true)⟩

def repoWords (repoPath : Str) : List Word :=
  words "env PGBACKREST_REPO1_TYPE=posix" ++ .ofText ("PGBACKREST_REPO1_PATH=" ++ repoPath) ::
    words "pgbackrest --config=/dev/null --log-level-file=off --pg1-path=/var/lib/postgresql/data/pgdata"

def connectionWords : List Word := words "--pg1-user=postgres --pg1-database=postgres"

def stanzaWord (stanza : Str) : Word := .ofText ("--stanza=" ++ stanza)

def stanzaCreate (stanza repoPath : Str) : List Node :=
  [.simple {
      words := repoWords repoPath ++ connectionWords ++ [stanzaWord stanza, .ofText "stanza-create"]
      redirects := [⟨some "2", .great, .ofText "/dev/null"⟩] },
    .op .orIf, .simple { words := words "true" }, .op .semi]

def backupWords (stanza : Str) : List Word :=
  words "exec" ++ repoWords filesystemRepoPath ++ connectionWords ++ [stanzaWord stanza]

/-- The commands of `BackupCommand`; `repo` is the argument with the repository. -/
def backupTemplate (stanza : Str) (repo : Word) (backupType : Str) : List Node :=
  stanzaCreate stanza filesystemRepoPath ++
    [.simple { words := backupWords stanza ++ [repo, .ofText ("--type=" ++ backupType), .ofText "backup"] }]

def installedRestoreCommand (stanza : Str) : Str :=
  "env " ++ repoEnv ++
    " pgbackrest --config=/dev/null --log-level-file=off --pg1-path=/var/lib/postgresql/data/pgdata --stanza=" ++
    stanza ++ " archive-get %f \"%p\""

def restoreLineWord (stanza : Str) : Word :=
  quoted ("\"restore_command = 'env " ++ repoEnv ++
      " pgbackrest --config=/dev/null --log-level-file=off --pg1-path=/var/lib/postgresql/data/pgdata --stanza=" ++
      stanza ++ " archive-get %f \\\"%p\\\"'\"")
    ("restore_command = '" ++ installedRestoreCommand stanza ++ "'")

def sedWord : Word :=
  quoted "\"/^[[:space:]]*restore_command[[:space:]]*=/d\"" "/^[[:space:]]*restore_command[[:space:]]*=/d"

def restoreTemplate (stanza target : Str) : List Node :=
  [.simple { words := words "rm -f /var/lib/postgresql/data/pgdata/postmaster.pid" }, .op .semi,
    .simple { words := repoWords filesystemRepoPath ++ [stanzaWord stanza, .ofText "--type=time",
      ⟨str "--target=" ++ shellSingleQuote target, (str "--target=").map (.char false) ++ target.map (.char true)⟩,
      .ofText "--delta", .ofText "restore"] }, .op .andIf,
    .simple { words := words "touch /var/lib/postgresql/data/pgdata/postgresql.auto.conf" }, .op .andIf,
    .simple { words := words "sed -i" ++ sedWord :: words "/var/lib/postgresql/data/pgdata/postgresql.auto.conf" },
    .op .andIf,
    .simple {
      words := words "printf" ++ [quoted "\"%s\\n\"" "%s\\n", restoreLineWord stanza]
      redirects := [⟨none, .dgreat, .ofText postgresqlAutoConfPath⟩] }]

/-- The script that `archive_command` gives to `sh -c`. -/
def archiveScript (stanza repoPath : Str) : Str :=
  let repoEnv := sprintf "PGBACKREST_REPO1_TYPE=posix PGBACKREST_REPO1_PATH=%s" [repoPath]
  let archiveArgs := "--config=/dev/null --log-level-file=off --pg1-path=" ++ pgDataSubdir
  let stanzaArgs := archiveArgs ++ " --pg1-user=postgres --pg1-database=postgres"
  sprintf "env %s pgbackrest %s --stanza=%s stanza-create 2>/dev/null || true; exec env %s pgbackrest %s --stanza=%s archive-push \"%%p\""
    [repoEnv, stanzaArgs, stanza, repoEnv, archiveArgs, stanza]

def archiveTemplate (stanza repoPath : Str) : List Node :=
  stanzaCreate stanza repoPath ++
    [.simple { words := words "exec" ++ repoWords repoPath ++
      [stanzaWord stanza, .ofText "archive-push", quoted "\"%p\"" "%p"] }]

/-! ### Creating the stanza -/

private def stanzaTokens (stanza repoPath : Str) : List Shell.Token :=
  (repoWords repoPath ++ connectionWords ++ [stanzaWord stanza, .ofText "stanza-create"]).map .word ++
    ([.ioNumber "2", .op .great, .word (.ofText "/dev/null"), .op .orIf] ++
      ((words "true").map .word ++ [.op .semi]))

theorem repoWords_head (repoPath : Str) : (repoWords repoPath).head?.any isCommandName :=
  head?_any_append (by decide +kernel) _

theorem run_stanzaTokens (stanza repoPath : Str) (ts : List Shell.Token) :
    Parser.run {} (stanzaTokens stanza repoPath ++ ts) =
      Parser.run ⟨stanzaCreate stanza repoPath, [], .start false⟩ ts := by
  have he := head?_any_append (head?_any_append (repoWords_head repoPath) connectionWords)
    [stanzaWord stanza, .ofText "stanza-create"]
  have ht : (words "true").head?.any isCommandName := by decide +kernel
  have hr : ∀ c us, Parser.run ⟨[], [], .command c⟩
      ([.ioNumber "2", .op .great, .word (.ofText "/dev/null"), .op .orIf] ++ us) =
      Parser.run ⟨[.simple { c with redirects := c.redirects ++ [⟨some "2", .great, .ofText "/dev/null"⟩] },
        .op .orIf], [], .start true⟩ us := fun _ _ => rfl
  have hk : stanzaTokens stanza repoPath ++ ts =
      (repoWords repoPath ++ connectionWords ++ [stanzaWord stanza, .ofText "stanza-create"]).map .word ++
        ([.ioNumber "2", .op .great, .word (.ofText "/dev/null"), .op .orIf] ++
          ((words "true").map .word ++ .op .semi :: ts)) := by
    simp [stanzaTokens]
  rw [hk, Parser.run_command he, hr, Parser.run_command ht]
  rfl

/-! ### Backups -/

private def backupHead : Str :=
  "env " ++ (repoEnv ++ (" " ++ ("pgbackrest" ++ (" " ++ (pgbackrestCommonArgs ++ " --stanza=")))))

private def backupMiddle : Str :=
  " stanza-create 2>/dev/null || true; exec env " ++
    (repoEnv ++ (" " ++ ("pgbackrest" ++ (" " ++ (pgbackrestCommonArgs ++ " --stanza=")))))

theorem backupScript_eq (stanza repo backupType : Str) :
    Plugin.backupScript
      {} stanza repo backupType = backupHead ++ (stanza ++ (backupMiddle ++ (stanza ++ (str " --repo=" ++
      (normalizeRepo repo ++ (str " --type=" ++ (backupType ++ str " backup"))))))) := by
  have hv : verbTexts
      (str "env %s %s %s --stanza=%s stanza-create 2>/dev/null || true; exec env %s %s %s --stanza=%s --repo=%s --type=%s backup") =
      [str "env ", str " ", str " ", str " --stanza=", str " stanza-create 2>/dev/null || true; exec env ", str " ",
        str " ",
        str " --stanza=", str " --repo=", str " --type=", str " backup"] := by
    repeat rw [str_ofList]
    decide +kernel
  simp only [Plugin.backupScript, sprintf, hv, interleave, backupHead, backupMiddle, List.append_assoc]

theorem run_backupHead : run {} backupHead =
    ⟨(repoWords filesystemRepoPath ++ connectionWords).map .word, .word .plain (.ofText "--stanza=")⟩ := by
  unfold backupHead repoEnv filesystemRepoPath pgbackrestCommonArgs repoWords connectionWords words
  repeat rw [str_ofList]
  decide +kernel

theorem run_backupMiddle : run {} backupMiddle =
    ⟨.word (.ofText "stanza-create") :: ([.ioNumber "2", .op .great, .word (.ofText "/dev/null"), .op .orIf] ++
      ((words "true").map .word ++
      .op .semi :: (words "exec" ++ repoWords filesystemRepoPath ++ connectionWords).map .word)),
      .word .plain (.ofText "--stanza=")⟩ := by
  unfold backupMiddle repoEnv filesystemRepoPath pgbackrestCommonArgs repoWords connectionWords words
  repeat rw [str_ofList]
  decide +kernel

private def backupTokens (stanza : Str) : List Shell.Token :=
  stanzaTokens stanza filesystemRepoPath ++ (backupWords stanza).map .word

variable {stanza : Str}

theorem run_backupHead_middle (hs : ∀ c ∈ stanza, isSpecial c = false) (t : Str) :
    run {} (backupHead ++ (stanza ++ (backupMiddle ++ (stanza ++ (" --repo=" ++ t))))) =
      run ⟨backupTokens stanza, .word .plain (.ofText "--repo=")⟩ t := by
  have hr : run {} " --repo=" = ⟨[], .word .plain (.ofText "--repo=")⟩ := by decide +kernel
  have hm : backupMiddle.head?.any separates := by decide +kernel
  rw [run_append, run_backupHead, run_append, run_scan (scan_plain hs), run_append,
    run_separated _ _ hm, run_backupMiddle, after, run_append, run_scan (scan_plain hs),
    run_append, run_separated _ _ (by decide +kernel), hr]
  simp [after, backupTokens, stanzaTokens, backupWords, stanzaWord]

/-- The backup script, as the shell reads it. -/
theorem parse_backupScript {repo backupType : Str} (hs : ∀ c ∈ stanza, isSpecial c = false)
    {ps : List Part} (hr : WordMode.plain.scan (normalizeRepo repo) = some (ps, .plain))
    (ht : ∀ c ∈ backupType, isSpecial c = false) :
    parse (Plugin.backupScript {} stanza repo backupType) =
      some (backupTemplate stanza ((ofText "--repo=").append (normalizeRepo repo) ps) backupType) := by
  have htw : run {} " --type=" = ⟨[], .word .plain (.ofText "--type=")⟩ := by decide +kernel
  have hb : run {} " backup" = ⟨[], .word .plain (.ofText "backup")⟩ := by decide +kernel
  have hl : lex (Plugin.backupScript {} stanza repo backupType) = some (backupTokens stanza ++
      ([(ofText "--repo=").append (normalizeRepo repo) ps, .ofText ("--type=" ++ backupType),
        .ofText "backup"]).map .word) := by
    rw [lex, backupScript_eq, run_backupHead_middle hs, run_append, run_scan hr, run_append,
      run_separated _ _ (by decide +kernel), htw, after, run_append,
      run_scan (scan_plain ht), run_separated _ _ (by decide +kernel), hb]
    simp [after, finish, WordMode.closing, append, ofText]
  have hw := head?_any_append (head?_any_append (head?_any_append (head?_any_append
    (by decide +kernel : (words "exec").head?.any isCommandName) (repoWords filesystemRepoPath)) connectionWords)
    [stanzaWord stanza]) [(ofText "--repo=").append (normalizeRepo repo) ps, .ofText ("--type=" ++ backupType),
      .ofText "backup"]
  rw [parse, hl, bind_some, parseTokens, backupTokens, List.append_assoc, ← List.map_append, run_stanzaTokens,
    ← List.append_nil (List.map _ _), backupWords, Parser.run_command hw]
  rfl

/-- If the script is read as the template, the repository is inert. -/
theorem inert_of_parse_backupScript {repo backupType : Str} (hs : ∀ c ∈ stanza, isSpecial c = false)
    {w : Word} (hr : w.raw = "--repo=" ++ normalizeRepo repo) (hstt : w.static)
    (h : parse (Plugin.backupScript {} stanza repo backupType) = some (backupTemplate stanza w backupType)) :
    inert (normalizeRepo repo) := by
  have hn : (ofText "--repo=").raw.all isDigit = false := by decide +kernel
  obtain ⟨ts, hl, hts⟩ := bind_eq_some_iff.1 h
  rw [lex, backupScript_eq, run_backupHead_middle hs] at hl
  obtain ⟨v, more, rfl, -⟩ := exists_word_of_finish hn hl
  -- the next word is the one that the template has there
  have hv : v = w := by
    have hw := head?_any_append (head?_any_append (head?_any_append (head?_any_append
      (by decide +kernel : (words "exec").head?.any isCommandName) (repoWords filesystemRepoPath)) connectionWords)
      [stanzaWord stanza]) [v]
    have ht : backupTokens stanza ++ .word v :: more =
        stanzaTokens stanza filesystemRepoPath ++ ((backupWords stanza ++ [v]).map .word ++ more) := by
      simp [backupTokens]
    rw [parseTokens, ht, run_stanzaTokens, backupWords, Parser.run_command hw] at hts
    obtain ⟨c, rest, heq, hp⟩ := Parser.exists_simple_of_finish rfl hts
    rw [backupTemplate, List.append_cancel_left_eq] at heq
    obtain ⟨hc, -⟩ := List.cons.inj heq
    have hc := Node.simple.inj hc
    subst hc
    rw [← backupWords, List.prefix_append_right_inj] at hp
    obtain ⟨us, hus⟩ := hp
    exact (List.cons.inj hus).1
  subst hv
  refine inert_of_finish hn (head?_any_append (by decide +kernel) _) hl hr ?_
  simp only [static, Bool.and_eq_true] at hstt
  exact hstt.1

/-! ### Restores -/

theorem shellSingleQuote_eq (value : Str) : shellSingleQuote value = singleQuote value := rfl

example : shellSingleQuote "it's" = "'it'\"'\"'s'" := by decide +kernel

private def restoreHead : Str :=
  "rm -f " ++ (pgDataPath ++ ("/postmaster.pid; env " ++ (repoEnv ++ (" " ++ ("pgbackrest" ++ (" " ++
    (pgbackrestRestoreArgs ++ " --stanza=")))))))

private def restoreMiddle : Str :=
  " --delta restore && " ++ ("touch " ++ (postgresqlAutoConfPath ++
    (" && sed -i \"/^[[:space:]]*restore_command[[:space:]]*=/d\" " ++ (postgresqlAutoConfPath ++
    (" && printf \"%s\\n\" \"restore_command = 'env " ++ (repoEnv ++ (" " ++ ("pgbackrest" ++
    (" --config=/dev/null --log-level-file=off --pg1-path=" ++ (pgDataPath ++ " --stanza="))))))))))

private def restoreTail : Str := " >> " ++ postgresqlAutoConfPath

theorem restoreScript_eq (stanza : Str) (ts : Int) :
    Plugin.restoreScript {} stanza ts = restoreHead ++ (stanza ++ (str " --type=time --target=" ++
      (singleQuote (formatTargetTime ts) ++ (restoreMiddle ++ ((stanza ++ str " archive-get %f \\\"%p\\\"'\"") ++
        restoreTail))))) := by
  have hv : verbTexts
      (str "rm -f %s/postmaster.pid; env %s %s %s --stanza=%s --type=time --target=%s --delta restore && %s") =
      [str "rm -f ", str "/postmaster.pid; env ", str " ", str " ", str " --stanza=", str " --type=time --target=",
        str " --delta restore && ", []] := by
    repeat rw [str_ofList]
    decide +kernel
  have hv' : verbTexts
      (str "touch %s && sed -i \"/^[[:space:]]*restore_command[[:space:]]*=/d\" %s && printf \"%%s\\n\" \"restore_command = 'env %s %s --config=/dev/null --log-level-file=off --pg1-path=%s --stanza=%s archive-get %%f \\\"%%p\\\"'\" >> %s") =
      [str "touch ", str " && sed -i \"/^[[:space:]]*restore_command[[:space:]]*=/d\" ",
        str " && printf \"%s\\n\" \"restore_command = 'env ", str " ",
        str " --config=/dev/null --log-level-file=off --pg1-path=", str " --stanza=",
        str " archive-get %f \\\"%p\\\"'\"" ++ str " >> ", []] := by
    repeat rw [str_ofList]
    decide +kernel
  simp only [Plugin.restoreScript, Plugin.restoreCommandOverride, sprintf, hv, hv', interleave, restoreHead,
    restoreMiddle, restoreTail, shellSingleQuote_eq, List.append_assoc, List.append_nil]

theorem run_restoreHead : run {} restoreHead =
    ⟨(words "rm -f /var/lib/postgresql/data/pgdata/postmaster.pid").map .word ++ .op .semi ::
      (repoWords filesystemRepoPath).map .word, .word .plain (.ofText "--stanza=")⟩ := by
  unfold restoreHead repoEnv filesystemRepoPath pgbackrestRestoreArgs pgDataPath repoWords words
  repeat rw [str_ofList]
  decide +kernel

theorem run_restoreMiddle : run {} restoreMiddle = ⟨(words "--delta restore").map .word ++ .op .andIf ::
      ((words "touch /var/lib/postgresql/data/pgdata/postgresql.auto.conf").map .word ++ .op .andIf ::
      ((words "sed -i" ++ sedWord :: words "/var/lib/postgresql/data/pgdata/postgresql.auto.conf").map .word ++
      .op .andIf ::
      (words "printf" ++ [quoted "\"%s\\n\"" "%s\\n"]).map .word)),
      .word .double (quoted ("\"restore_command = 'env " ++ repoEnv ++
        " pgbackrest --config=/dev/null --log-level-file=off --pg1-path=/var/lib/postgresql/data/pgdata --stanza=")
        ("restore_command = '" ++ ("env " ++ repoEnv ++
        " pgbackrest --config=/dev/null --log-level-file=off --pg1-path=/var/lib/postgresql/data/pgdata --stanza=")))⟩ := by
  unfold restoreMiddle sedWord repoEnv filesystemRepoPath postgresqlAutoConfPath pgDataPath words
  repeat rw [str_ofList]
  decide +kernel

theorem lex_restoreTail : lex restoreTail = some [.op .dgreat, .word (.ofText postgresqlAutoConfPath)] := by
  unfold restoreTail postgresqlAutoConfPath pgDataPath
  repeat rw [str_ofList]
  decide +kernel

/-- The restore script, as the shell reads it: the target time is quoted. -/
theorem parse_restoreScript (hsta : ∀ c ∈ stanza, isSpecial c = false) (ts : Int) :
    parse (Plugin.restoreScript {} stanza ts) = some (restoreTemplate stanza (formatTargetTime ts)) := by
  have hr : run {} (str " --type=time --target=") =
      ⟨[.word (.ofText (str "--type=time"))], .word .plain (.ofText (str "--target="))⟩ := by decide +kernel
  have he : WordMode.double.scan (str " archive-get %f \\\"%p\\\"'\"") =
      some ((str " archive-get %f \"%p\"" ++ str "'").map (.char true), .plain) := by decide +kernel
  have hdo : ∀ c ∈ stanza, isDoubleSpecial c = false := by
    intro c hc
    have hsp := hsta c hc
    simp only [isSpecial, Bool.or_eq_false_iff] at hsp
    exact hsp.2
  have hl : WordMode.double.scan (stanza ++ str " archive-get %f \\\"%p\\\"'\"") =
      some (stanza.map (.char true) ++ (str " archive-get %f \"%p\"" ++ str "'").map (.char true), .plain) := by
    rw [WordMode.scan_append (scan_double hdo), he]
    rfl
  have hx : lex (Plugin.restoreScript {} stanza ts) = some (
      (words "rm -f /var/lib/postgresql/data/pgdata/postmaster.pid").map .word ++ .op .semi ::
      ((repoWords filesystemRepoPath ++ [stanzaWord stanza, .ofText (str "--type=time"),
        ⟨str "--target=" ++ shellSingleQuote (formatTargetTime ts),
          (str "--target=").map (.char false) ++ (formatTargetTime ts).map (.char true)⟩,
        .ofText (str "--delta"), .ofText (str "restore")]).map .word ++ .op .andIf ::
      ((words "touch /var/lib/postgresql/data/pgdata/postgresql.auto.conf").map .word ++ .op .andIf ::
      ((words "sed -i" ++ sedWord :: words "/var/lib/postgresql/data/pgdata/postgresql.auto.conf").map .word ++
      .op .andIf ::
      ((words "printf" ++ [quoted (str "\"%s\\n\"") (str "%s\\n"), restoreLineWord stanza]).map .word ++
        [.op .dgreat, .word (.ofText postgresqlAutoConfPath)]))))) := by
    have hd : words "--delta restore" = [.ofText (str "--delta"), .ofText (str "restore")] := by decide +kernel
    rw [restoreScript_eq, lex_append run_restoreHead (scan_plain hsta) (head?_any_append (by decide +kernel) _),
      lex_append hr (scan_singleQuote _) (head?_any_append (by decide +kernel) _),
      lex_append run_restoreMiddle hl (by decide +kernel), lex_restoreTail]
    simp [hd, stanzaWord, restoreLineWord, installedRestoreCommand, quoted, append, ofText, shellSingleQuote_eq]
  have hrm : (words "rm -f /var/lib/postgresql/data/pgdata/postmaster.pid").head?.any isCommandName := by
    decide +kernel
  have ht : (words "touch /var/lib/postgresql/data/pgdata/postgresql.auto.conf").head?.any isCommandName := by
    decide +kernel
  have hsd : (words "sed -i").head?.any isCommandName := by decide +kernel
  have hp : (words "printf").head?.any isCommandName := by decide +kernel
  have hs : ∀ out c us, Parser.run ⟨out, [], .command c⟩ (.op .semi :: us) =
      Parser.run ⟨out ++ [.simple c, .op .semi], [], .start false⟩ us := fun _ _ _ => rfl
  have ha : ∀ out c us, Parser.run ⟨out, [], .command c⟩ (.op .andIf :: us) =
      Parser.run ⟨out ++ [.simple c, .op .andIf], [], .start true⟩ us := fun _ _ _ => rfl
  rw [parse, hx, bind_some, parseTokens, Parser.run_command hrm, hs,
    Parser.run_command (head?_any_append (repoWords_head _) _), ha, Parser.run_command ht, ha,
    Parser.run_command (head?_any_append hsd _), ha, Parser.run_command (head?_any_append hp _)]
  rfl

/-! ### Archiving -/

private def archiveHead : Str := "env " ++ "PGBACKREST_REPO1_TYPE=posix PGBACKREST_REPO1_PATH="

private def archiveStanza : Str :=
  " pgbackrest " ++ ("--config=/dev/null --log-level-file=off --pg1-path=" ++ (pgDataSubdir ++
    (" --pg1-user=postgres --pg1-database=postgres" ++ " --stanza=")))

private def archiveExec : Str :=
  " stanza-create 2>/dev/null || true; exec env " ++ "PGBACKREST_REPO1_TYPE=posix PGBACKREST_REPO1_PATH="

private def archivePush : Str :=
  " pgbackrest " ++ ("--config=/dev/null --log-level-file=off --pg1-path=" ++ (pgDataSubdir ++ " --stanza="))

private def archiveBody (stanza repoPath : Str) : Str :=
  archiveHead ++ (repoPath ++ (archiveStanza ++ (stanza ++ (archiveExec ++ (repoPath ++ (archivePush ++ (stanza ++
    " archive-push ")))))))

theorem verbTexts_repoEnv : verbTexts "PGBACKREST_REPO1_TYPE=posix PGBACKREST_REPO1_PATH=%s" =
    [str "PGBACKREST_REPO1_TYPE=posix PGBACKREST_REPO1_PATH=", []] := by
  repeat rw [str_ofList]
  decide +kernel

example : sprintf "PGBACKREST_REPO1_TYPE=posix PGBACKREST_REPO1_PATH=%s" ["/b"] =
    "PGBACKREST_REPO1_TYPE=posix PGBACKREST_REPO1_PATH=/b" := by decide +kernel

theorem archiveScript_eq (stanza repoPath : Str) :
    archiveScript stanza repoPath = archiveBody stanza repoPath ++ str "\"%p\"" := by
  have hv : verbTexts
      (str "env %s pgbackrest %s --stanza=%s stanza-create 2>/dev/null || true; exec env %s pgbackrest %s --stanza=%s archive-push \"%%p\"") =
      [str "env ", str " pgbackrest ", str " --stanza=", str " stanza-create 2>/dev/null || true; exec env ",
        str " pgbackrest ", str " --stanza=", str " archive-push " ++ str "\"%p\""] := by
    repeat rw [str_ofList]
    decide +kernel
  simp only [archiveScript, sprintf, hv, verbTexts_repoEnv, interleave, archiveBody, archiveHead, archiveStanza,
    archiveExec, archivePush, List.append_assoc, List.append_nil]

theorem archiveCommand_eq (stanza repoPath : Str) :
    archiveCommand stanza repoPath = str "sh -c \"" ++ (archiveBody stanza repoPath ++ str "\\\"%p\\\"\"") := by
  have hv : verbTexts
      (str "sh -c \"env %s pgbackrest %s --stanza=%s stanza-create 2>/dev/null || true; exec env %s pgbackrest %s --stanza=%s archive-push \\\"%%p\\\"\"") =
      [str "sh -c \"" ++ str "env ", str " pgbackrest ", str " --stanza=",
        str " stanza-create 2>/dev/null || true; exec env ",
        str " pgbackrest ", str " --stanza=", str " archive-push " ++ str "\\\"%p\\\"\""] := by
    repeat rw [str_ofList]
    decide +kernel
  simp only [archiveCommand, sprintf, hv, verbTexts_repoEnv, interleave, archiveBody, archiveHead, archiveStanza,
    archiveExec, archivePush, List.append_assoc, List.append_nil]

theorem parse_archiveCommand {repoPath : Str} (hsta : ∀ c ∈ stanza, isSpecial c = false)
    (hp : ∀ c ∈ repoPath, isSpecial c = false) :
    ∃ raw, parse (archiveCommand stanza repoPath) =
      some [.simple { words := words "sh -c" ++ [quoted raw (archiveScript stanza repoPath)] }] := by
  have hd : ∀ {t : Str}, (∀ c ∈ t, isSpecial c = false) → ∀ c ∈ t, isDoubleSpecial c = false := by
    intro t ht c hc
    have hsp := ht c hc
    simp only [isSpecial, Bool.or_eq_false_iff] at hsp
    exact hsp.2
  have ha : ([archiveHead, archiveStanza, archiveExec, archivePush, " archive-push "].all fun t =>
      t.all fun c => !isDoubleSpecial c) := by
    unfold archiveHead archiveStanza archiveExec archivePush pgDataSubdir pgDataMountPath
    repeat rw [str_ofList]
    decide +kernel
  have hcl : ∀ t ∈ [archiveHead, archiveStanza, archiveExec, archivePush, " archive-push "],
      ∀ c ∈ t, isDoubleSpecial c = false := by
    intro t ht c hc
    simpa using List.all_eq_true.1 (List.all_eq_true.1 ha t ht) c hc
  have hb : ∀ c ∈ archiveBody stanza repoPath, isDoubleSpecial c = false := by
    intro c hc
    simp only [archiveBody, List.mem_append] at hc
    obtain hc | hc | hc | hc | hc | hc | hc | hc | hc := hc
    · exact hcl archiveHead (by simp) c hc
    · exact hd hp c hc
    · exact hcl archiveStanza (by simp) c hc
    · exact hd hsta c hc
    · exact hcl archiveExec (by simp) c hc
    · exact hd hp c hc
    · exact hcl archivePush (by simp) c hc
    · exact hd hsta c hc
    · exact hcl " archive-push " (by simp) c hc
  have hsh : run {} "sh -c \"" = ⟨(words "sh -c").map .word, .word .double ⟨"\"", []⟩⟩ := by decide +kernel
  have hl : WordMode.double.scan (str "\\\"%p\\\"\"") = some ((str "\"%p\"").map (.char true), .plain) := by
    decide +kernel
  have hs : WordMode.double.scan (archiveBody stanza repoPath ++ "\\\"%p\\\"\"") =
      some ((archiveScript stanza repoPath).map (.char true), .plain) := by
    rw [WordMode.scan_append (scan_double hb), hl, archiveScript_eq, List.map_append]
    rfl
  refine ⟨"\"" ++ (archiveBody stanza repoPath ++ "\\\"%p\\\"\""), ?_⟩
  rw [parse, archiveCommand_eq, lex_append_last hsh hs, bind_some, parseTokens]
  have hk : (words "sh -c").map Shell.Token.word ++ [.word ((⟨"\"", []⟩ : Word).append
      (archiveBody stanza repoPath ++ "\\\"%p\\\"\"") ((archiveScript stanza repoPath).map (.char true)))] =
      (words "sh -c" ++ [quoted ("\"" ++ (archiveBody stanza repoPath ++ "\\\"%p\\\"\""))
        (archiveScript stanza repoPath)]).map .word ++ [] := by
    simp [append, quoted]
  rw [hk, Parser.run_command (head?_any_append (by decide +kernel) _)]
  rfl

/-- The archive command, inside the `sh -c`. -/
theorem parse_archiveScript {repoPath : Str} (hs : ∀ c ∈ stanza, isSpecial c = false)
    (hp : ∀ c ∈ repoPath, isSpecial c = false) :
    parse (archiveScript stanza repoPath) = some (archiveTemplate stanza repoPath) := by
  have hh : run {} archiveHead =
      ⟨(words "env PGBACKREST_REPO1_TYPE=posix").map .word, .word .plain (.ofText "PGBACKREST_REPO1_PATH=")⟩ := by
    unfold archiveHead words
    repeat rw [str_ofList]
    decide +kernel
  have hsa : run {} archiveStanza =
      ⟨(words "pgbackrest --config=/dev/null --log-level-file=off --pg1-path=/var/lib/postgresql/data/pgdata" ++
        connectionWords).map .word, .word .plain (.ofText "--stanza=")⟩ := by
    unfold archiveStanza pgDataSubdir pgDataMountPath connectionWords words
    repeat rw [str_ofList]
    decide +kernel
  have he : run {} archiveExec =
      ⟨.word (.ofText "stanza-create") :: ([.ioNumber "2", .op .great, .word (.ofText "/dev/null"), .op .orIf] ++
        ((words "true").map .word ++
        .op .semi :: (words "exec" ++ words "env PGBACKREST_REPO1_TYPE=posix").map .word)),
        .word .plain (.ofText "PGBACKREST_REPO1_PATH=")⟩ := by
    unfold archiveExec words
    repeat rw [str_ofList]
    decide +kernel
  have hps : run {} archivePush =
      ⟨(words "pgbackrest --config=/dev/null --log-level-file=off --pg1-path=/var/lib/postgresql/data/pgdata").map
        .word,
        .word .plain (.ofText "--stanza=")⟩ := by
    unfold archivePush pgDataSubdir pgDataMountPath words
    repeat rw [str_ofList]
    decide +kernel
  have hl : lex (" archive-push " ++ "\"%p\"") =
      some [.word (.ofText "archive-push"), .word (quoted "\"%p\"" "%p")] := by decide +kernel
  have hx : lex (archiveScript stanza repoPath) = some (stanzaTokens stanza repoPath ++
      ((words "exec" ++ repoWords repoPath ++ [stanzaWord stanza, .ofText "archive-push",
        quoted "\"%p\"" "%p"]).map .word ++ [])) := by
    simp only [archiveScript_eq, archiveBody, List.append_assoc]
    rw [lex_append hh (scan_plain hp) (head?_any_append (by decide +kernel) _),
      lex_append hsa (scan_plain hs) (head?_any_append (by decide +kernel) _),
      lex_append he (scan_plain hp) (head?_any_append (by decide +kernel) _),
      lex_append hps (scan_plain hs) (by decide +kernel), hl]
    simp [stanzaTokens, repoWords, stanzaWord]
  have hc : (words "exec").head?.any isCommandName := by decide +kernel
  rw [parse, hx, bind_some, parseTokens, run_stanzaTokens,
    Parser.run_command (head?_any_append (head?_any_append hc _) _)]
  rfl

end PostgresOperator.Backup
