import PostgresOperator.Ini
import PostgresOperator.Pooler.Config

/-!
# What PgBouncer reads

The text of `renderPgBouncerConfig`, read as an ini file, has the targets and the parameters that `validatePoolerSpec`
lets pass exactly if no line that the value of a parameter adds says anything else.
-/

namespace PostgresOperator.Pooler

open Go Ini AList

/-! ### The promise -/

def operatorParameters (pooler : Pooler) : List (Str × Str) :=
  [("listen_addr", "0.0.0.0"), ("listen_port", "5432"), ("auth_file", poolerAuthMountPath),
    ("auth_hba_file", poolerHBAMountPath), ("pool_mode", (defaultPoolerPoolMode pooler.pgbouncer.poolMode).toGo),
    ("unix_socket_dir", [])]

def promisedKeys (pooler : Pooler) (targets : List Str) : List Str :=
  (defaultParameters pooler ++ hbaParameters pooler ++ tlsParameters pooler ++
    roundRobinParameters pooler targets).map Prod.fst ++
    pooler.pgbouncer.parameters.keys

/-- An entry with a promised key, and with the operator's value if the key belongs to the operator. -/
def EntryFits (pooler : Pooler) (targets : List Str) (e : Entry) : Prop :=
  e.1 ∈ promisedKeys pooler targets ∧ (isOperatorOwnedPgBouncerParameter e.1 → e ∈ operatorParameters pooler)

/-- PgBouncer reads one database entry with the targets, and the promised keys. -/
def ReadsAsPromised (pooler : Pooler) (targets : List Str) : Prop :=
  ∃ entries, parse (renderPgBouncerConfig pooler targets) =
      some [(str "databases", [(str "*", str "host=" ++ join (byte ',') targets ++ str " port=5432")]),
        (str "pgbouncer", entries)] ∧
    (∀ key ∈ promisedKeys pooler targets, ∃ value, (key, value) ∈ entries) ∧ ∀ e ∈ entries, EntryFits pooler targets e

def Harmless (pooler : Pooler) (targets : List Str) (line : Str) : Prop :=
  readLine line = .blank ∨ ∃ key value, readLine line = .entry key value ∧ EntryFits pooler targets (key, value)

def writtenValue (key value : Str) : Str :=
  if key = pgBouncerIgnoreStartupParametersKey then ignoredStartupParameters value else value

/-- No target has a line break, and every further line in the value of a parameter is harmless.  The parameters that
TLS sets replace those of the user. -/
def NothingAdded (pooler : Pooler) (targets : List Str) : Prop :=
  (∀ t ∈ targets, byte '\n' ∉ t) ∧
  ∀ key value, pooler.pgbouncer.parameters.lookup key = some value → key ∉ (tlsParameters pooler).map Prod.fst →
    ∀ line ∈ (split '\n' (writtenValue key value)).tail, Harmless pooler targets line

/-! ### Maps -/

variable {es : List (Str × Str)} {params : StringMap} {key : Str}

/-- A value comes from the entries that are set or from before. -/
theorem lookup_setAll {value : Str} (h : (setAll es params).lookup key = some value) :
    (key, value) ∈ es ∨ key ∉ es.map Prod.fst ∧ params.lookup key = some value := by
  induction es generalizing params with
  | nil => exact .inr ⟨by simp, h⟩
  | cons e es ih =>
    obtain hm | ⟨hk, hl⟩ := ih h
    · exact .inl (List.mem_cons_of_mem _ hm)
    by_cases hkey : key = e.1
    · subst hkey
      rw [lookup_insert, Option.some.injEq] at hl
      subst hl
      exact .inl List.mem_cons_self
    · rw [lookup_insert_ne hkey] at hl
      exact .inr ⟨by simp [hkey, hk], hl⟩

theorem mem_setAll : key ∈ setAll es params ↔ key ∈ es.map Prod.fst ∨ key ∈ params := by
  induction es generalizing params with
  | nil => simp [setAll]
  | cons e es ih =>
    have hc : setAll (e :: es) params = setAll es (params.insert e.1 e.2) := rfl
    rw [hc, ih, mem_insert, List.map_cons, List.mem_cons]
    tauto

theorem lookup_setAll_of_notMem (h : key ∉ es.map Prod.fst) : (setAll es params).lookup key = params.lookup key := by
  induction es generalizing params with
  | nil => rfl
  | cons e es ih =>
    rw [List.map_cons, List.mem_cons, not_or] at h
    have hc : setAll (e :: es) params = setAll es (params.insert e.1 e.2) := rfl
    rw [hc, ih h.2, lookup_insert_ne h.1]

/-! ### Constants -/

private def allTLS : List (Str × Str) := tlsSide "server" [0] [0] ++ tlsSide "client" [0] [0]

theorem mem_allTLS {pooler : Pooler} {e : Str × Str} (h : e ∈ tlsParameters pooler) : e ∈ allTLS := by
  have hs : ∀ side secret ca, e ∈ tlsSide side secret ca → e ∈ tlsSide side [0] [0] := by
    intro side secret ca he
    unfold tlsSide at he ⊢
    rw [if_pos (by simp), if_pos (by simp)]
    obtain he | he := List.mem_append.1 he
    · split_ifs at he
      · exact List.mem_append_left _ he
      · cases he
    · split_ifs at he
      · exact List.mem_append_right _ he
      · cases he
  obtain h | h := List.mem_append.1 h
  · exact List.mem_append_left _ (hs _ _ _ h)
  · exact List.mem_append_right _ (hs _ _ _ h)

private def keyOk (key : Str) : Bool := key.all isKeyByte && key ≠ []

private def valueOk (value : Str) : Bool := value.all (· ≠ '\n') && strip value = value

private def hbaConstants : List (Str × Str) := [("auth_type", "hba"), ("auth_hba_file", poolerHBAMountPath)]

private def roundRobinConstants : List (Str × Str) := [("server_round_robin", "1"), ("server_login_retry", "2")]

theorem constants_ok : (allTLS.all fun e => keyOk e.1 && valueOk e.2 && !isOperatorOwnedPgBouncerParameter e.1 &&
      e.1 ≠ pgBouncerIgnoreStartupParametersKey) ∧
    (hbaConstants.all fun e => keyOk e.1 && valueOk e.2 && e.1 ≠ pgBouncerIgnoreStartupParametersKey) ∧
    (roundRobinConstants.all fun e => keyOk e.1 && valueOk e.2 && !isOperatorOwnedPgBouncerParameter e.1) ∧
    (supportedKeys.all keyOk) ∧ valueOk (ignoredStartupParameters "extra_float_digits,options") ∧
    isOperatorOwnedPgBouncerParameter pgBouncerIgnoreStartupParametersKey = false := by
  unfold allTLS tlsSide hbaConstants roundRobinConstants supportedKeys isOperatorOwnedPgBouncerParameter
    operatorOwnedKeys
    pgBouncerIgnoreStartupParametersKey ignoredStartupParameters poolerHBAMountPath
  repeat rw [str_ofList]
  decide +kernel

/-! ### Poolers that are accepted -/

theorem str_eq_nil {s : String} : str s = [] ↔ s = "" := by
  rw [str, List.map_eq_nil_iff]
  exact String.toList_eq_nil_iff

section Accepted

variable {pooler : Pooler} {targets : List Str} {cluster : Str} (hvalid : validatePoolerSpec pooler cluster = [])
include hvalid

theorem accepted : validatePgBouncerParameters pooler.pgbouncer.parameters = [] ∧ validatePoolerHBA pooler = [] ∧
      defaultPoolerPoolMode pooler.pgbouncer.poolMode ∈ [PoolerPoolMode.session, .transaction, .statement] := by
  unfold validatePoolerSpec at hvalid
  split_ifs at hvalid with h1 h2 h3 h4 h5 h6 h7
  any_goals simp [str_eq_nil] at hvalid
  · exact absurd hvalid h4
  · exact absurd hvalid h5
  · exact ⟨not_not.1 h4, not_not.1 h5, h6⟩

variable {key : Str}

/-- A parameter that is accepted is supported and not the operator's. -/
theorem accepted_key (hkey : key ∈ pooler.pgbouncer.parameters) :
    isOperatorOwnedPgBouncerParameter key = false ∧ key ∈ supportedKeys := by
  have hp := (accepted hvalid).1
  have ho : validatePgBouncerParameter key = [] := by
    by_contra hne
    unfold validatePgBouncerParameters at hp
    cases hf : (pooler.pgbouncer.parameters.keys.map validatePgBouncerParameter).find? (· ≠ []) with
    | none => exact absurd (List.find?_eq_none.1 hf _ (List.mem_map_of_mem hkey)) (by simpa using hne)
    | some text =>
      rw [hf] at hp
      exact absurd hp (by simpa using List.find?_some hf)
  unfold validatePgBouncerParameter at ho
  split_ifs at ho with h1 h2 h3 h4
  any_goals simp [str_eq_nil] at ho
  simp only [isSupportedPgBouncerParameter, Bool.not_eq_true', decide_eq_false_iff_not, not_not] at h4
  exact ⟨by simpa using h3, h4⟩

variable {e : Str × Str}

theorem defaults_ok (he : e ∈ defaultParameters pooler) :
    keyOk e.1 ∧ valueOk e.2 ∧ (isOperatorOwnedPgBouncerParameter e.1 → e ∈ operatorParameters pooler) := by
  have ha : ∀ mode ∈ [PoolerPoolMode.session, .transaction, .statement],
      ([(str "listen_addr", str "0.0.0.0"), (str "listen_port", str "5432"), (str "auth_type", str "scram-sha-256"),
        (str "auth_file", poolerAuthMountPath), (str "pool_mode", mode.toGo), (str "unix_socket_dir", []),
        (pgBouncerIgnoreStartupParametersKey, str "extra_float_digits,options")].all fun e =>
      keyOk e.1 && valueOk e.2 &&
      (!isOperatorOwnedPgBouncerParameter e.1 || decide (e ∈ [(str "listen_addr", str "0.0.0.0"),
        (str "listen_port", str "5432"), (str "auth_file", poolerAuthMountPath),
        (str "auth_hba_file", poolerHBAMountPath),
        (str "pool_mode", mode.toGo), (str "unix_socket_dir", [])]))) := by
    unfold isOperatorOwnedPgBouncerParameter operatorOwnedKeys poolerAuthMountPath poolerHBAMountPath
      pgBouncerIgnoreStartupParametersKey PoolerPoolMode.toGo
    repeat rw [str_ofList]
    decide +kernel
  have hone := List.all_eq_true.1 (ha _ (accepted hvalid).2.2) e he
  simp only [Bool.and_eq_true, Bool.or_eq_true, Bool.not_eq_true', decide_eq_true_eq] at hone
  refine ⟨hone.1.1, hone.1.2, ?_⟩
  intro ho
  obtain hf | hm := hone.2
  · rw [ho] at hf
    cases hf
  · exact hm

omit hvalid in
theorem tls_ok (he : e ∈ tlsParameters pooler) : keyOk e.1 ∧ valueOk e.2 ∧
    isOperatorOwnedPgBouncerParameter e.1 = false ∧ e.1 ≠ pgBouncerIgnoreStartupParametersKey := by
  have ho := List.all_eq_true.1 constants_ok.1 e (mem_allTLS he)
  simp only [Bool.and_eq_true, Bool.not_eq_true', decide_eq_true_eq] at ho
  exact ⟨ho.1.1.1, ho.1.1.2, ho.1.2, ho.2⟩

omit hvalid in
theorem hba_ok (he : e ∈ hbaParameters pooler) : keyOk e.1 ∧ valueOk e.2 ∧
    e.1 ≠ pgBouncerIgnoreStartupParametersKey ∧
      (isOperatorOwnedPgBouncerParameter e.1 → e ∈ operatorParameters pooler) := by
  have hm : e ∈ hbaConstants := by
    unfold hbaParameters at he
    split_ifs at he
    · cases he
    · exact he
  have hone := List.all_eq_true.1 constants_ok.2.1 e hm
  simp only [Bool.and_eq_true, decide_eq_true_eq] at hone
  refine ⟨hone.1.1, hone.1.2, hone.2, ?_⟩
  intro ho
  simp only [hbaConstants, List.mem_cons, List.not_mem_nil, or_false] at hm
  obtain rfl | rfl := hm
  · exact absurd ho (by decide)
  · simp [operatorParameters]

omit hvalid in
theorem roundRobin_ok (he : e ∈ roundRobinParameters pooler targets) :
    keyOk e.1 ∧ valueOk e.2 ∧ isOperatorOwnedPgBouncerParameter e.1 = false := by
  have hm : e ∈ roundRobinConstants := by
    unfold roundRobinParameters at he
    split_ifs at he
    · exact he
    · cases he
  have ho := List.all_eq_true.1 constants_ok.2.2.1 e hm
  simp only [Bool.and_eq_true, Bool.not_eq_true'] at ho
  exact ⟨ho.1.1, ho.1.2, ho.2⟩

/-! ### The parameters in the end -/

variable {value : Str}

/-- Where a rendered value comes from. -/
theorem lookup_rendered (h : (renderedParameters pooler targets).lookup key = some value) :
    (∃ given, pooler.pgbouncer.parameters.lookup key = some given ∧ key ∉ (tlsParameters pooler).map Prod.fst ∧
      value = writtenValue key given) ∨
    valueOk value ∧ (isOperatorOwnedPgBouncerParameter key → (key, value) ∈ operatorParameters pooler) := by
  have hem : ∀ {es : List (Str × Str)}, (setAll es ∅).lookup key = some value → (key, value) ∈ es := by
    intro es h
    obtain h | ⟨-, h⟩ := lookup_setAll h
    · exact h
    · simp at h
  obtain h | ⟨-, h⟩ := mem_lookup_union.1 h
  · by_cases hkey : key = pgBouncerIgnoreStartupParametersKey
    · subst hkey
      have ht : pgBouncerIgnoreStartupParametersKey ∉ (tlsParameters pooler).map Prod.fst := by
        intro hm
        obtain ⟨e, he, heq⟩ := List.mem_map.1 hm
        exact (tls_ok he).2.2.2 heq
      have hh : pgBouncerIgnoreStartupParametersKey ∉ (hbaParameters pooler).map Prod.fst := by
        intro hm
        obtain ⟨e, he, heq⟩ := List.mem_map.1 hm
        exact (hba_ok he).2.2.1 heq
      rw [lookup_insert, lookup_setAll_of_notMem ht, lookup_setAll_of_notMem hh, Option.mem_some_iff] at h
      subst h
      by_cases hg : pgBouncerIgnoreStartupParametersKey ∈ pooler.pgbouncer.parameters
      · obtain ⟨given, hl⟩ := Option.isSome_iff_exists.1 (lookup_isSome.2 hg)
        refine .inl ⟨given, hl, ht, ?_⟩
        rw [lookup_union_left hg, hl, Option.getD_some, writtenValue, if_pos rfl]
      · have hd : (setAll (defaultParameters pooler) ∅).lookup pgBouncerIgnoreStartupParametersKey =
            some (str "extra_float_digits,options") := lookup_insert _
        rw [lookup_union_right hg, hd, Option.getD_some]
        refine .inr ⟨constants_ok.2.2.2.2.1, fun ho => ?_⟩
        rw [constants_ok.2.2.2.2.2] at ho
        cases ho
    · rw [lookup_insert_ne hkey] at h
      obtain hm | ⟨ht, h⟩ := lookup_setAll h
      · have hok := tls_ok hm
        refine .inr ⟨hok.2.1, fun ho => ?_⟩
        rw [hok.2.2.1] at ho
        cases ho
      obtain hm | ⟨-, h⟩ := lookup_setAll h
      · exact .inr ⟨(hba_ok hm).2.1, (hba_ok hm).2.2.2⟩
      obtain h | ⟨-, h⟩ := mem_lookup_union.1 h
      · exact .inl ⟨value, h, ht, by rw [writtenValue, if_neg hkey]⟩
      · exact .inr ⟨(defaults_ok hvalid (hem h)).2.1, (defaults_ok hvalid (hem h)).2.2⟩
  · have hm := hem h
    have hok := roundRobin_ok hm
    refine .inr ⟨hok.2.1, fun ho => ?_⟩
    rw [hok.2.2] at ho
    cases ho

theorem lookup_given {given : Str} (hg : pooler.pgbouncer.parameters.lookup key = some given)
    (ht : key ∉ (tlsParameters pooler).map Prod.fst) :
    (renderedParameters pooler targets).lookup key = some (writtenValue key given) := by
  have hm : key ∈ pooler.pgbouncer.parameters := lookup_isSome.1 (by rw [hg]; rfl)
  have hh : key ∉ (hbaParameters pooler).map Prod.fst := by
    have hc := (accepted hvalid).2.1
    unfold validatePoolerHBA at hc
    unfold hbaParameters
    split_ifs at hc ⊢ with hn ha
    · simp
    · simp [str_eq_nil] at hc
    · simp [str_eq_nil] at hc
    · have ho := (accepted_key hvalid hm).1
      simp only [List.map_cons, List.map_nil, List.mem_cons, List.not_mem_nil, or_false, not_or]
      constructor
      · rintro rfl
        exact ha hm
      · rintro rfl
        exact absurd ho (by decide)
  have hb : (setAll (tlsParameters pooler) (setAll (hbaParameters pooler)
      (pooler.pgbouncer.parameters ∪ setAll (defaultParameters pooler) ∅))).lookup key = some given := by
    rw [lookup_setAll_of_notMem ht, lookup_setAll_of_notMem hh, lookup_union_left hm, hg]
  refine mem_lookup_union.2 (.inl ?_)
  by_cases hkey : key = pgBouncerIgnoreStartupParametersKey
  · subst hkey
    rw [lookup_insert, hb, writtenValue, if_pos rfl]
    rfl
  · rw [lookup_insert_ne hkey, hb, writtenValue, if_neg hkey]
    rfl

omit hvalid in
/-- The keys that are rendered are the promised ones. -/
theorem mem_rendered : key ∈ renderedParameters pooler targets ↔ key ∈ promisedKeys pooler targets := by
  have hn : pgBouncerIgnoreStartupParametersKey ∈ (defaultParameters pooler).map Prod.fst := by
    simp [defaultParameters]
  unfold renderedParameters promisedKeys
  simp only [mem_union, mem_insert, mem_setAll, notMem_empty, or_false, List.map_append, List.mem_append,
    ← mem_keys]
  constructor
  · rintro ((rfl | ht | hh | hg | hd) | hr)
    · exact .inl (.inl (.inl (.inl hn)))
    · exact .inl (.inl (.inr ht))
    · exact .inl (.inl (.inl (.inr hh)))
    · exact .inr hg
    · exact .inl (.inl (.inl (.inl hd)))
    · exact .inl (.inr hr)
  · rintro ((((hd | hh) | ht) | hr) | hg)
    · exact .inl (.inr (.inr (.inr (.inr hd))))
    · exact .inl (.inr (.inr (.inl hh)))
    · exact .inl (.inr (.inl ht))
    · exact .inr hr
    · exact .inl (.inr (.inr (.inr (.inl hg))))

theorem keyOk_rendered (hkey : key ∈ renderedParameters pooler targets) : keyOk key := by
  have hf : ∀ es : List (Str × Str), (∀ e ∈ es, keyOk e.1) → key ∈ es.map Prod.fst → keyOk key := by
    intro es hes hm
    obtain ⟨e, he, rfl⟩ := List.mem_map.1 hm
    exact hes e he
  rw [mem_rendered, promisedKeys, List.map_append, List.map_append, List.map_append] at hkey
  simp only [List.mem_append] at hkey
  obtain (((hd | hh) | ht) | hr) | hg := hkey
  · exact hf _ (fun e he => (defaults_ok hvalid he).1) hd
  · exact hf _ (fun e he => (hba_ok he).1) hh
  · exact hf _ (fun e he => (tls_ok he).1) ht
  · exact hf _ (fun e he => (roundRobin_ok he).1) hr
  · exact List.all_eq_true.1 constants_ok.2.2.2.1 _ (accepted_key hvalid hg).2

/-! ### The text -/

omit hvalid in
private def bodyLines (pooler : Pooler) (targets : List Str) : List Str :=
  (((renderedParameters pooler targets).keys.insertionSort (· ≤ ·)).map
    (parameterLine (renderedParameters pooler targets))).flatMap
    (split '\n')

omit hvalid in
/-- The lines of the file. -/
theorem split_render (pooler : Pooler) (targets : List Str) :
    split (byte '\n') (renderPgBouncerConfig pooler targets) = str "[databases]" ::
      (split (byte '\n') (str "* = " ++ (str "host=" ++ join (byte ',') targets ++ str " port=5432")) ++
        [] :: str "[pgbouncer]" :: (bodyLines pooler targets ++ [[]])) := by
  have hh : str "[databases]\n" = str "[databases]" ++ [byte '\n'] := by decide
  have hhs : str "* = host=" = str "* = " ++ str "host=" := by decide
  have hp : str " port=5432\n\n[pgbouncer]\n" = str " port=5432" ++
      byte '\n' :: byte '\n' :: (str "[pgbouncer]" ++ [byte '\n']) := by
    decide
  have hd : byte '\n' ∉ str "[databases]" := by decide
  have hb : byte '\n' ∉ str "[pgbouncer]" := by decide
  have ht : renderPgBouncerConfig pooler targets = str "[databases]" ++ byte '\n' ::
      ((str "* = " ++ (str "host=" ++ join (byte ',') targets ++ str " port=5432")) ++ byte '\n' ::
        ([] ++ byte '\n' :: (str "[pgbouncer]" ++ byte '\n' ::
          ((((renderedParameters pooler targets).keys.insertionSort (· ≤ ·)).map
            (parameterLine (renderedParameters pooler targets))).flatMap fun l => l ++ str "\n")))) := by
    simp only [renderPgBouncerConfig, hh, hhs, hp, List.flatMap_map, List.append_assoc, List.cons_append,
      List.nil_append]
  rw [ht, split_append_sep hd, split_append, split_append_sep (by simp), split_append_sep hb, split_flatMap]
  rfl

omit hvalid in
theorem mem_join {c sep : UInt8} (hc : c ≠ sep) {ws : List Str} : c ∈ join sep ws ↔ ∃ w ∈ ws, c ∈ w := by
  induction ws with
  | nil => simp [join]
  | cons w ws ih =>
    cases ws with
    | nil => simp [join]
    | cons w' ws => simp [join, hc, ih]

omit hvalid in
/-- PgBouncer reads the file section by section. -/
theorem parse_render (hr : ∀ t ∈ targets, byte '\n' ∉ t) (entries : List Entry) :
    parse (renderPgBouncerConfig pooler targets) =
        some [(str "databases", [(str "*", str "host=" ++ join (byte ',') targets ++ str " port=5432")]),
          (str "pgbouncer", entries)] ↔
      ((bodyLines pooler targets).map readLine).all Line.plain ∧
        entries = ((bodyLines pooler targets).map readLine).filterMap Line.entry? := by
  have hj : byte '\n' ∉ join (byte ',') targets := by
    rw [mem_join (by decide)]
    rintro ⟨t, ht, hc⟩
    exact hr t ht hc
  have hl : byte '\n' ∉ str "* = " ++ (str "host=" ++ join (byte ',') targets ++ str " port=5432") := by
    have hs : byte '\n' ∉ str "* = " := by decide
    have hh : byte '\n' ∉ str "host=" := by decide
    have hp : byte '\n' ∉ str " port=5432" := by decide
    simp [hs, hh, hp, hj]
  have hv : strip (str "host=" ++ join (byte ',') targets ++ str " port=5432") =
      str "host=" ++ join (byte ',') targets ++ str " port=5432" := by
    have hf : str "host=" = byte 'h' :: str "ost=" := by decide
    have hls : str " port=5432" = str " port=543" ++ [byte '2'] := by decide
    have hen := strip_of_ends (c := byte 'h') (d := byte '2') (by decide) (by decide)
      (str "ost=" ++ join (byte ',') targets ++ str " port=543")
    simpa [hf, hls] using hen
  have he : readLine (str "* = " ++ (str "host=" ++ join (byte ',') targets ++ str " port=5432")) =
      .entry (str "*") (str "host=" ++ join (byte ',') targets ++ str " port=5432") := by
    have hs : str "* = " = str "*" ++ str " = " := by decide
    rw [hs, readLine_entry (by decide) (by decide), hv]
  have hhe : readLine (str "[databases]") = .header (str "databases") ∧
      readLine (str "[pgbouncer]") = .header (str "pgbouncer") ∧
      readLine [] = .blank := by decide
  rw [parse, split_render, split_of_notMem hl]
  simp only [List.map_cons, List.map_append, List.singleton_append, hhe, he, sections, List.map_nil]
  have hb : ∀ es, sections ((bodyLines pooler targets).map readLine ++ [.blank]) = some (es, []) ↔
      ((bodyLines pooler targets).map readLine).all Line.plain ∧
        es = ((bodyLines pooler targets).map readLine).filterMap Line.entry? := by
    intro es
    rw [sections_eq_nil_iff, List.all_append, List.filterMap_append]
    simp [Line.plain]
  rw [← hb]
  cases hsc : sections ((bodyLines pooler targets).map readLine ++ [.blank]) with
  | none => simp
  | some rest =>
    obtain ⟨es, ss⟩ := rest
    simp only [Option.map_some, Option.bind_some, if_true, Option.some.injEq, List.cons.injEq, Prod.mk.injEq,
      true_and]

theorem split_parameterLine (h : (renderedParameters pooler targets).lookup key = some value) :
    split '\n' (parameterLine (renderedParameters pooler targets) key) =
        (key ++ " = " ++ (split '\n' value).headD []) :: (split '\n' value).tail ∧
      readLine (key ++ " = " ++ (split '\n' value).headD []) = .entry key (strip ((split '\n' value).headD [])) := by
  have hkey := keyOk_rendered hvalid (lookup_isSome.1 (by rw [h]; rfl))
  simp only [keyOk, Bool.and_eq_true, decide_eq_true_eq] at hkey
  have hn : byte '\n' ∉ key ++ str " = " := by
    rw [List.mem_append, not_or]
    exact ⟨fun hm => (isKeyByte_plain _ (List.all_eq_true.1 hkey.1 _ hm)).2.2.2.2.2 rfl, by decide⟩
  rw [parameterLine, h, Option.getD_some, split_prepend hn]
  exact ⟨rfl, readLine_entry hkey.1 hkey.2 _⟩

theorem mem_bodyLines {line : Str} : line ∈ bodyLines pooler targets ↔
    ∃ key value, (renderedParameters pooler targets).lookup key = some value ∧
      (line = key ++ " = " ++ (split '\n' value).headD [] ∨ line ∈ (split '\n' value).tail) := by
  unfold bodyLines
  simp only [List.mem_flatMap, List.mem_map, List.mem_insertionSort, exists_exists_and_eq_and]
  constructor
  · rintro ⟨key, hkey, hl⟩
    obtain ⟨value, hv⟩ := Option.isSome_iff_exists.1 (lookup_isSome.2 hkey)
    rw [(split_parameterLine hvalid hv).1, List.mem_cons] at hl
    exact ⟨key, value, hv, hl⟩
  · rintro ⟨key, value, hv, hl⟩
    refine ⟨key, lookup_isSome.1 (by rw [hv]; rfl), ?_⟩
    rw [(split_parameterLine hvalid hv).1, List.mem_cons]
    exact hl

theorem entryFits_first (h : (renderedParameters pooler targets).lookup key = some value) :
    EntryFits pooler targets (key, strip ((split '\n' value).headD [])) := by
  have hm : key ∈ renderedParameters pooler targets := lookup_isSome.1 (by rw [h]; rfl)
  refine ⟨mem_rendered.1 hm, ?_⟩
  intro ho
  obtain ⟨given, hg, -, -⟩ | ⟨hok, hop⟩ := lookup_rendered hvalid h
  · have hn := (accepted_key hvalid (lookup_isSome.1 (by rw [hg]; rfl))).1
    rw [ho] at hn
    cases hn
  · simp only [valueOk, Bool.and_eq_true, List.all_eq_true, decide_eq_true_eq] at hok
    have hs : split '\n' value = [value] := split_of_notMem fun hc => hok.1 _ hc rfl
    rw [hs, List.headD_cons, hok.2]
    exact hop ho

end Accepted

/-- PgBouncer reads what was promised exactly if the values of the user add no line that says anything else. -/
theorem reads_as_promised_iff (pooler : Pooler) (cluster : Str) (hvalid : validatePoolerSpec pooler cluster = [])
    (targets : List Str) : ReadsAsPromised pooler targets ↔ NothingAdded pooler targets := by
  constructor
  · rintro ⟨entries, hp, -, hf⟩
    have htr : ∀ t ∈ targets, byte '\n' ∉ t := by
      intro t ht hc
      have hj : byte '\n' ∈ join (byte ',') targets := (mem_join (by decide)).2 ⟨t, ht, hc⟩
      refine newline_notMem_of_parse hp List.mem_cons_self List.mem_cons_self ?_
      simp [hj]
    refine ⟨htr, ?_⟩
    intro key given hg hs line hln
    obtain ⟨hpl, rfl⟩ := (parse_render htr entries).1 hp
    have hbd : line ∈ bodyLines pooler targets :=
      (mem_bodyLines hvalid).2 ⟨key, _, lookup_given hvalid hg hs, .inr hln⟩
    have hr := List.mem_map_of_mem (f := readLine) hbd
    have ho := List.all_eq_true.1 hpl _ hr
    cases hl : readLine line with
    | blank => exact .inl hl
    | entry key' value =>
      rw [hl] at hr
      exact .inr ⟨key', value, hl, hf _ (List.mem_filterMap.2 ⟨_, hr, rfl⟩)⟩
    | header name =>
      rw [hl] at ho
      cases ho
    | bad =>
      rw [hl] at ho
      cases ho
  · rintro ⟨htr, hh⟩
    have hli : ∀ line ∈ bodyLines pooler targets, Harmless pooler targets line := by
      intro line hln
      obtain ⟨key, value, hv, rfl | hln⟩ := (mem_bodyLines hvalid).1 hln
      · exact .inr ⟨_, _, (split_parameterLine hvalid hv).2, entryFits_first hvalid hv⟩
      · obtain ⟨given, hg, hs, rfl⟩ | ⟨hok, -⟩ := lookup_rendered hvalid hv
        · exact hh key given hg hs line hln
        · simp only [valueOk, Bool.and_eq_true, List.all_eq_true, decide_eq_true_eq] at hok
          rw [split_of_notMem fun hc => hok.1 _ hc rfl] at hln
          cases hln
    refine ⟨_, (parse_render htr _).2 ⟨?_, rfl⟩, ?_, ?_⟩
    · rw [List.all_eq_true]
      intro l hl
      obtain ⟨line, hln, rfl⟩ := List.mem_map.1 hl
      obtain hb | ⟨key, value, hen, -⟩ := hli line hln
      · rw [hb]
        rfl
      · rw [hen]
        rfl
    · intro key hkey
      obtain ⟨value, hv⟩ := Option.isSome_iff_exists.1 (lookup_isSome.2 (mem_rendered.2 hkey))
      have hr := List.mem_map_of_mem (f := readLine) ((mem_bodyLines hvalid).2 ⟨key, value, hv, .inl rfl⟩)
      rw [(split_parameterLine hvalid hv).2] at hr
      exact ⟨_, List.mem_filterMap.2 ⟨_, hr, rfl⟩⟩
    · intro e he
      obtain ⟨l, hl, hen⟩ := List.mem_filterMap.1 he
      obtain ⟨line, hln, rfl⟩ := List.mem_map.1 hl
      obtain hb | ⟨key, value, hr, hf⟩ := hli line hln
      · rw [hb] at hen
        cases hen
      · rw [hr] at hen
        cases hen
        exact hf

private def tunedPooler : Pooler :=
  { name := "pool"
    pgbouncer := { image := "pgbouncer"
                   parameters := AList.singleton "verbose" "1"
                   pgHBA := ["hostssl all all 0.0.0.0/0 scram-sha-256"]
                   serverTLSSecret := some "pool-server-tls" } }

/-- A Pooler with a parameter of the user, a line for pg_hba.conf and TLS towards the servers. -/
theorem reads_as_promised_tuned : ReadsAsPromised tunedPooler ["demo-rw"] := by
  refine (reads_as_promised_iff tunedPooler "demo" (by decide +kernel) _).2 ⟨by decide +kernel, ?_⟩
  intro key value hv hk line hl
  have hm : (⟨key, value⟩ : Σ _ : Str, Str) ∈ [⟨str "verbose", str "1"⟩] :=
    AList.mem_lookup_iff.1 (Option.mem_def.2 hv)
  cases List.mem_singleton.1 hm
  have ht : (split '\n' (writtenValue "verbose" "1")).tail = [] := by decide +kernel
  rw [ht] at hl
  cases hl

private def verbosePooler : Pooler :=
  { name := "pool"
    pgbouncer := { image := "pgbouncer"
                   parameters := AList.singleton "verbose" "0\nlisten_addr = 127.0.0.1" } }

/-- The value of a parameter that is accepted moves the address on which PgBouncer listens. -/
theorem verbose_sets_listen_addr : validatePoolerSpec verbosePooler (str "demo") = [] ∧
    ((parse (renderPgBouncerConfig verbosePooler [str "demo-rw"])).any fun sections =>
      sections.any fun s => (str "listen_addr", str "127.0.0.1") ∈ s.2) ∧
    ¬ ReadsAsPromised verbosePooler [str "demo-rw"] := by
  have hr : ((parse (renderPgBouncerConfig verbosePooler [str "demo-rw"])).any fun sections =>
      sections.any fun s => (str "listen_addr", str "127.0.0.1") ∈ s.2) := by decide +kernel
  refine ⟨by decide +kernel, hr, ?_⟩
  rintro ⟨entries, hp, -, hf⟩
  rw [hp] at hr
  have hm : (str "listen_addr", str "127.0.0.1") ∈ entries := by
    have ho : str "listen_addr" ≠ str "*" := by decide
    simpa [ho] using hr
  exact absurd ((hf _ hm).2 (by decide)) (by decide +kernel)

end PostgresOperator.Pooler
