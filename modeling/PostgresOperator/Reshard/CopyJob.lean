import PostgresOperator.Reshard.DataJob
import PostgresOperator.Reshard.Routing
import PostgresOperator.Router.Owner

/-!
# Where the copy Jobs put a row

The command `reshard-copy-poc` rebuilds the topology from its environment and copies the rows whose key it resolves to
its own target.  The router resolves the same keys on the merged ranges of the `ShardRange`.  Three things may part
the two: the environment variable, whose separators may occur in the texts of a range; the other shards of the
keyspace, which the Job does not see; and, for a consistent-hash vindex, the number of virtual nodes, which is not
passed on either.
-/

namespace PostgresOperator

open Go List

/-! ### `cmd/reshard-copy-poc` -/

def csv (s : Str) : List Str :=
  if trimSpace s = [] then [] else ((split ',' s).map trimSpace).filter fun p => decide (p ≠ [])

def parseRange (part : Str) : Option ShardRangeEntry :=
  match split ':' part with
  | [shard, lo, hi] => some ⟨lo, hi, shard⟩
  | _ => none

def parseRanges (s : Str) : Option (List ShardRangeEntry) := (csv s).mapM parseRange

/-- The ranges of `reshardSpec`, with its default for standalone use. -/
def reshardRanges (rangesEnv : Str) : Option (List ShardRangeEntry) :=
  (parseRanges rangesEnv).map fun ranges =>
    if ranges = [] then
      [⟨"0x00000000", "0x7fffffff", "shard-0"⟩, ⟨"0x80000000", "0xffffffff", "shard-1"⟩]
    else ranges

def reshardSpec (vtype col fn rangesEnv : Str) : Option ShardRangeSpec :=
  let vtype := if vtype = [] then str "hash" else vtype
  let fn := if fn = [] ∧ (vtype = str "hash" ∨ vtype = str "consistent-hash") then str "murmur3" else fn
  (reshardRanges rangesEnv).map fun ranges =>
    { vindex := { type := .ofGo vtype, column := col, function := .ofGo fn }, ranges }

variable (env : List (Str × Str))

def getenv (name : Str) : Str := (env.lookup name).getD []

def copySpec : Option ShardRangeSpec :=
  let col := getenv env "PGROUTER_VINDEX_COLUMN"
  reshardSpec (getenv env "PGROUTER_VINDEX_TYPE") (if col = [] then "id" else col)
    (getenv env "PGROUTER_VINDEX_FUNCTION") (getenv env "PGROUTER_RANGES")

/-- `CopyShardRange` copies a row with this key: the key resolves to the target of the Job. -/
def CopiesRow (key : Str) : Prop :=
  ∃ spec, copySpec env = some spec ∧ resolveShard spec key = .ok (getenv env "PGROUTER_RESHARD_TARGET_SHARD")

def copyJobEnv (op : Operator) (ssj : ShardSplitJob) (sr : ShardRangeSpec) (srcDNS t : Str) :
    List (Str × Str) :=
  (buildReshardJob op ssj (modeJobParams op ssj.spec .copy (keyspaceVindexOf sr) srcDNS t)).env

/-! ### What a copy Job reads -/

variable {op : Operator} {ssj : ShardSplitJob} {sr : ShardRangeSpec} {srcDNS : Str}

theorem getenv_target (t : Str) : getenv (copyJobEnv op ssj sr srcDNS t) "PGROUTER_RESHARD_TARGET_SHARD" = t := rfl

theorem copySpec_copyJobEnv (t : Str) : copySpec (copyJobEnv op ssj sr srcDNS t) =
      reshardSpec sr.vindex.type.toGo (if sr.vindex.column = [] then "id" else sr.vindex.column)
        sr.vindex.function.toGo (rangesEnvValue ssj.spec.targets) := rfl

def readBack (spec : ShardSplitJobSpec) : Option (List ShardRangeEntry) := reshardRanges (rangesEnvValue spec.targets)

def jobVindex (v : VindexSpec) : VindexSpec := { v with virtualNodes := 0 }

variable {key : Str}

theorem toGo_ne_nil {f : VindexHashFunction} (hf : hashKey f key ≠ none) : f.toGo ≠ [] := by
  cases f with
  | other name hn => exact absurd rfl hf
  | murmur3 | fnv | crc32 => decide

/-- The Job copies a row if and only if the ranges it reads back give the key to its target. -/
theorem copiesRow_iff (hk : sr.vindex.type = .range ∨
      (sr.vindex.type = .hash ∨ sr.vindex.type = .consistentHash) ∧ hashKey sr.vindex.function key ≠ none)
    (t : Str) :
    CopiesRow (copyJobEnv op ssj sr srcDNS t) key ↔
      ∃ rs, readBack ssj.spec = some rs ∧ Owns (jobVindex sr.vindex) rs key t := by
  unfold CopiesRow
  rw [getenv_target, copySpec_copyJobEnv]
  have ht : sr.vindex.type.toGo ≠ [] := by
    rcases hk with h | ⟨h | h, -⟩ <;> rw [h] <;> decide
  have hfn : ¬ (sr.vindex.function.toGo = [] ∧
      (sr.vindex.type.toGo = "hash" ∨ sr.vindex.type.toGo = "consistent-hash")) := by
    rintro ⟨hn, hh⟩
    rcases hk with h | ⟨-, hkey⟩
    · rw [h] at hh
      revert hh
      decide
    · exact toGo_ne_nil hkey hn
  unfold reshardSpec
  simp only [if_neg ht, if_neg hfn, Option.map_eq_some_iff, VindexType.ofGo_toGo, VindexHashFunction.ofGo_toGo]
  have how : ∀ (col : Str) (rs : List ShardRangeEntry),
      resolveShard ⟨[], [], ⟨sr.vindex.type, col, sr.vindex.function, 0⟩, rs, [], false⟩ key = .ok t ↔
        Owns (jobVindex sr.vindex) rs key t := by
    intro col rs
    rw [resolveShard_iff_owns]
    exact owns_congr rfl (.inr rfl) rfl
  constructor
  · rintro ⟨spec, ⟨rs, hrs, rfl⟩, hr⟩
    exact ⟨rs, hrs, (how _ rs).1 hr⟩
  · rintro ⟨rs, hrs, ho⟩
    exact ⟨_, ⟨rs, hrs, rfl⟩, (how _ rs).2 ho⟩

/-! ### Data location and routing -/

/-- The range comes back from `PGROUTER_RANGES` as it was written: no separator in its texts, no white space around
them. -/
def EnvSafe (r : ShardRangeEntry) : Prop :=
  (∀ s ∈ [r.shard, r.lo, r.hi], byte ':' ∉ s ∧ byte ',' ∉ s) ∧ trimSpace (rangeEnvPart r) = rangeEnvPart r

/-- The Jobs and the router make the same ring of the shards of the targets: no other shard is left in the keyspace,
and it has the number of virtual nodes that a Job falls back to, or there is one target only. -/
def RingsAlike (sr : ShardRangeSpec) (spec : ShardSplitJobSpec) (src : Str) : Prop :=
  let ts := flattenTargetRanges spec.targets
  (∃ r ∈ ts, r.shard ≠ []) ∧ (∀ r ∈ ts, r.shard ≠ [] → r.shard ∈ spec.targetIDs) ∧
    (∀ r ∈ otherRanges sr src, r.shard ≠ [] → ∃ r' ∈ ts, r'.shard = r.shard) ∧
      (vnodes sr.vindex = defaultVirtualNodes ∨
        ∀ r ∈ ts, ∀ r' ∈ ts, r.shard ≠ [] → r'.shard ≠ [] → r.shard = r'.shard)

/-- No range of another shard that comes after a range of the source shares a key with it. -/
def OthersClear (sr : ShardRangeSpec) (src : Str) : Prop :=
  ∀ pre e post, sr.ranges = pre ++ e :: post → e.shard = src →
    ∀ r ∈ post, r.shard ≠ src → ClearOf sr.vindex e r

/-- By the names and bounds of the plan the Jobs and the router give the keys of the source to the same targets. -/
def PlacesAlike (sr : ShardRangeSpec) (spec : ShardSplitJobSpec) (src : Str) : Prop :=
  match sr.vindex.type with
  | .consistentHash => RingsAlike sr spec src
  | _ => TargetsTakeUp sr spec src ∧ OthersClear sr src

theorem parseRange_rangeEnvPart {r : ShardRangeEntry} (h : EnvSafe r) : parseRange (rangeEnvPart r) = some r := by
  have hs := h.1 r.shard (by simp)
  have hl := h.1 r.lo (by simp)
  have hh := h.1 r.hi (by simp)
  have hc : str ":" = [byte ':'] := by decide
  rw [parseRange, rangeEnvPart, hc, append_assoc, append_assoc, append_assoc, singleton_append, singleton_append,
    split_append_sep hs.1, split_append_sep hl.1, split_of_notMem hh.1]

theorem csv_join {ps : List Str} (hne : ps ≠ []) (hps : ∀ p ∈ ps, byte ',' ∉ p ∧ trimSpace p = p ∧ byte ':' ∈ p) :
    csv (join ',' ps) = ps := by
  obtain ⟨p, hp⟩ := exists_mem_of_ne_nil ps hne
  have ht : trimSpace (join ',' ps) ≠ [] := ne_nil_of_mem (mem_trimSpace (mem_join hp (hps p hp).2.2) (by decide))
  have hmap : ps.map trimSpace = ps := (map_congr_left fun p hp => (hps p hp).2.1).trans (map_id' ps)
  rw [csv, if_neg ht, split_join hne fun p hp => (hps p hp).1, hmap, filter_eq_self]
  intro p hp
  exact decide_eq_true (ne_nil_of_mem (hps p hp).2.2)

theorem mapM_parseRange {rs : List ShardRangeEntry} (hrs : ∀ r ∈ rs, EnvSafe r) :
    (rs.map rangeEnvPart).mapM parseRange = some rs := by
  induction rs with
  | nil => rfl
  | cons r rs ih =>
    rw [map_cons, mapM_cons, parseRange_rangeEnvPart (hrs r mem_cons_self),
      ih fun r' hr' => hrs r' (mem_cons_of_mem r hr')]
    rfl

/-- The ranges survive the environment variable if no separator occurs in them. -/
theorem readBack_eq {spec : ShardSplitJobSpec} (hne : flattenTargetRanges spec.targets ≠ [])
    (hsafe : ∀ r ∈ flattenTargetRanges spec.targets, EnvSafe r) :
    readBack spec = some (flattenTargetRanges spec.targets) := by
  have hv : rangesEnvValue spec.targets = join ',' ((flattenTargetRanges spec.targets).map rangeEnvPart) := by
    rw [rangesEnvValue, flattenTargetRanges, map_flatMap]
  have hc : csv (join ',' ((flattenTargetRanges spec.targets).map rangeEnvPart)) =
      (flattenTargetRanges spec.targets).map rangeEnvPart := by
    refine csv_join (by simpa using hne) fun p hp => ?_
    obtain ⟨r, hr, rfl⟩ := mem_map.1 hp
    obtain ⟨hs, ht⟩ := hsafe r hr
    have hx : byte ',' ∉ str ":" ∧ byte ':' ∈ str ":" := by decide
    simp only [mem_cons, not_mem_nil, or_false, forall_eq_or_imp, forall_eq] at hs
    refine ⟨?_, ht, ?_⟩
    · simp [rangeEnvPart, hs, hx.1]
    · simp [rangeEnvPart, hx.2]
  have hp : parseRanges (rangesEnvValue spec.targets) = some (flattenTargetRanges spec.targets) := by
    rw [parseRanges, hv, hc]
    exact mapM_parseRange hsafe
  rw [readBack, reshardRanges, hp, Option.map_some, if_neg hne]

/-! ### The same ring -/

variable {v : VindexSpec} {rs : List ShardRangeEntry} {s : Str}

theorem Owns.named (hv : v.type = .consistentHash) (ho : Owns v rs key s) : s ≠ [] ∧ ∃ r ∈ rs, r.shard = s := by
  simp only [Owns, hv] at ho
  obtain ⟨-, p, -, ⟨r, hr, hne, -, -, -, hp⟩, rfl, -⟩ := ho
  exact ⟨hp ▸ hne, r, hr, hp.symm⟩

theorem exists_owner (hv : v.type = .consistentHash) {h : UInt32} (hk : hashKey v.function key = some h)
    (hr : ∃ r ∈ rs, r.shard ≠ []) : ∃ s, Owns v rs key s := by
  obtain ⟨r, hr, hne⟩ := hr
  obtain ⟨hash, hh⟩ := exists_hash hk
  have hd : distinctShards [] rs ≠ [] := ne_nil_of_mem (mem_distinctShards.2 ⟨hne, by simp, r, hr, rfl⟩)
  let spec : ShardRangeSpec := { vindex := v, ranges := rs }
  have hring : newConsistentHashRing spec =
      .ok ⟨(ringPoints hash (vnodes v) (distinctShards [] rs)).insertionSort ChPoint.le⟩ :=
    newConsistentHashRing_eq_ok hh hd
  have hs : ∃ s, resolveShard spec key = .ok s := by
    simp only [resolveShard, resolveShardIn, spec, hv, resolveConsistentHash, lookup_nil] at hring ⊢
    simp only [hring, hk, Except.ok.injEq, exists_eq']
  exact hs.imp fun s => resolveShard_iff_owns.1

/-- On a ring the owner depends on the names of the shards and the number of virtual nodes alone. -/
theorem owns_congr_names {v' : VindexSpec} {rs' : List ShardRangeEntry} (ht : v.type = .consistentHash)
    (ht' : v'.type = .consistentHash) (hfn : v.function = v'.function) (hn : vnodes v = vnodes v')
    (hrs : ∀ s, s ≠ [] → ((∃ r ∈ rs, r.shard = s) ↔ ∃ r ∈ rs', r.shard = s)) :
      Owns v rs key s ↔ Owns v' rs' key s := by
  have hvn : ∀ p, VirtualNode v rs p ↔ VirtualNode v' rs' p := by
    intro p
    unfold VirtualNode
    rw [hfn, hn]
    constructor
    · rintro ⟨r, hr, hne, i, hi, hh, hp⟩
      obtain ⟨r', hr', heq⟩ := (hrs r.shard hne).1 ⟨r, hr, rfl⟩
      exact ⟨r', hr', heq ▸ hne, i, hi, heq ▸ hh, heq ▸ hp⟩
    · rintro ⟨r, hr, hne, i, hi, hh, hp⟩
      obtain ⟨r', hr', heq⟩ := (hrs r.shard hne).2 ⟨r, hr, rfl⟩
      exact ⟨r', hr', heq ▸ hne, i, hi, heq ▸ hh, heq ▸ hp⟩
  simp only [Owns, ht, ht', hfn, hvn]

theorem RingsAlike.owner {sr : ShardRangeSpec} {spec : ShardSplitJobSpec} {src : Str} (h : RingsAlike sr spec src)
    (hv : sr.vindex.type = .consistentHash) {x : UInt32} (hk : hashKey sr.vindex.function key = some x) :
    ∃ t ∈ spec.targetIDs, Owns (jobVindex sr.vindex) (flattenTargetRanges spec.targets) key t ∧
      Owns sr.vindex (otherRanges sr src ++ flattenTargetRanges spec.targets) key t := by
  obtain ⟨hne, hid, hother, hn⟩ := h
  have hjv : (jobVindex sr.vindex).type = .consistentHash := hv
  obtain ⟨t, ht⟩ := exists_owner hjv hk hne
  obtain ⟨htn, r, hr, rfl⟩ := ht.named hjv
  refine ⟨r.shard, hid r hr htn, ht, ?_⟩
  have hnames : ∀ s, s ≠ [] → ((∃ r ∈ flattenTargetRanges spec.targets, r.shard = s) ↔
      ∃ r ∈ otherRanges sr src ++ flattenTargetRanges spec.targets, r.shard = s) := by
    intro s hs
    constructor
    · rintro ⟨r, hr, rfl⟩
      exact ⟨r, mem_append_right _ hr, rfl⟩
    · rintro ⟨r, hr, rfl⟩
      exact (mem_append.1 hr).elim (fun hr => hother r hr hs) fun hr => ⟨r, hr, rfl⟩
  rcases hn with hn | hone
  · exact (owns_congr_names hjv hv rfl hn.symm hnames).1 ht
  · -- whatever the number of virtual nodes, the only name wins
    have hne' : ∃ r ∈ otherRanges sr src ++ flattenTargetRanges spec.targets, r.shard ≠ [] :=
      hne.imp fun r hr => ⟨mem_append_right _ hr.1, hr.2⟩
    obtain ⟨t', ht'⟩ := exists_owner hv hk hne'
    obtain ⟨htn', r', hr', heq⟩ := ht'.named hv
    obtain ⟨r', hr', rfl⟩ := (hnames t' htn').2 ⟨r', hr', heq⟩
    rwa [hone r hr r' hr' htn htn']

/-! ### Data location and routing -/

/-- With the bounds of an interval vindex the target that takes up the key is the same for the Jobs and for the
router. -/
theorem TargetsTakeUp.owner {sr : ShardRangeSpec} {spec : ShardSplitJobSpec} {src : Str}
    (htake : TargetsTakeUp sr spec src) (hclear : OthersClear sr src) (hv : sr.vindex.type.IsInterval)
    (ho : Owns sr.vindex sr.ranges key src) :
    ∃ t ∈ spec.targetIDs, Owns (jobVindex sr.vindex) (flattenTargetRanges spec.targets) key t ∧
      Owns sr.vindex (otherRanges sr src ++ flattenTargetRanges spec.targets) key t := by
  have how : ∀ (v : VindexSpec) (rs : List ShardRangeEntry) (t : Str), v.type.IsInterval →
      (Owns v rs key t ↔ ∃ e, FirstMeets (entryContains v key) rs e ∧ e.shard = t) := by
    rintro v rs t (hv | hv) <;> simp only [Owns, hv]
  have hjv : (jobVindex sr.vindex).type.IsInterval := hv
  obtain ⟨e, ⟨pre, post, heq, hpre, he⟩, hsrc⟩ := (how _ _ _ hv).1 ho
  obtain ⟨r, hr, hid⟩ := htake.firstMeets hv heq hsrc he
  refine ⟨r.shard, hid, (how _ _ _ hjv).2 ⟨r, ?_, rfl⟩, (how _ _ _ hv).2 ⟨r, firstMeets_after heq hsrc hpre hr, rfl⟩⟩
  refine ((firstMeets_append.1 hr).resolve_left fun hf => ?_).2
  obtain ⟨hm, hne⟩ := mem_filter.1 hf.mem
  exact not_clearOf hv ((htake pre e post heq hsrc).1 r hr.mem).1 he hf.contains
    (hclear pre e post heq hsrc r hm (of_decide_eq_true hne))

/-- A key has one owner. -/
theorem owns_unique {rs : List ShardRangeEntry} {s' : Str} (ho : Owns v rs key s) (ho' : Owns v rs key s') :
    s = s' := by
  have hs : ∀ s, resolveShard { vindex := v, ranges := rs } key = .ok s ↔ Owns v rs key s := fun s =>
    resolveShard_iff_owns
  have heq := ((hs s).2 ho).symm.trans ((hs s').2 ho')
  exact Except.ok.inj heq

/-- After a split of an accepted job, the row of each key of the source lies where the router looks for it, with
exactly one copy Job that moves it there, when the ranges of the targets survive the environment and the Jobs and the
router place the keys of the source alike. -/
theorem split_copies_where_routed (op : Operator) (ssj : ShardSplitJob) (sr : ShardRangeSpec) (src srcDNS : Str)
    (hs : ssj.spec.sources = [src]) (hgate : GateAccepts ssj.spec)
    (hsafe : ∀ r ∈ flattenTargetRanges ssj.spec.targets, EnvSafe r) (hplace : PlacesAlike sr ssj.spec src) (key : Str)
    (hkey : resolveShard sr key = .ok src) :
    ∃ t ∈ ssj.spec.targetIDs, CopiesRow (copyJobEnv op ssj sr srcDNS t) key ∧
      (∀ t' ∈ ssj.spec.targetIDs, CopiesRow (copyJobEnv op ssj sr srcDNS t') key → t' = t) ∧
      resolveShard (splitRouting sr ssj.spec) key = .ok t := by
  rw [resolveShard_iff_owns] at hkey
  have hb := readBack_eq hgate.ranges_ne_nil hsafe
  have hc : ∀ t, CopiesRow (copyJobEnv op ssj sr srcDNS t) key ↔
      Owns (jobVindex sr.vindex) (flattenTargetRanges ssj.spec.targets) key t := by
    intro t
    rw [copiesRow_iff hkey.vindex_known, hb]
    simp only [Option.some.injEq, exists_eq_left']
  obtain ⟨t, hid, hj, hr⟩ : ∃ t ∈ ssj.spec.targetIDs,
      Owns (jobVindex sr.vindex) (flattenTargetRanges ssj.spec.targets) key t ∧
        Owns sr.vindex (otherRanges sr src ++ flattenTargetRanges ssj.spec.targets) key t := by
    unfold PlacesAlike at hplace
    rcases hkey.vindex_known with hv | ⟨hv | hv, hk⟩
    · rw [hv] at hplace
      exact hplace.1.owner hplace.2 (.inr hv) hkey
    · rw [hv] at hplace
      exact hplace.1.owner hplace.2 (.inl hv) hkey
    · rw [hv] at hplace
      obtain ⟨x, hx⟩ := Option.ne_none_iff_exists'.1 hk
      exact hplace.owner hv hx
  refine ⟨t, hid, (hc t).2 hj, fun t' _ ht' => owns_unique ((hc t').1 ht') hj, ?_⟩
  rw [resolveShard_iff_owns, splitRouting_ranges hs]
  exact hr

def wholeShard : ShardSplitJob := { uid := 1, spec := oneTarget "0x00000000" "0xffffffff" }

def splitInHalves : ShardSplitJob := { uid := 1, spec := halves }

theorem split_copies_where_routed_halves : GateAccepts splitInHalves.spec ∧
    ∀ key, resolveShard (oneShard .hash) key = .ok "shard-0" → ∃ t ∈ splitInHalves.spec.targetIDs,
      CopiesRow (copyJobEnv demoOperator splitInHalves (oneShard .hash) [] t) key ∧
      (∀ t' ∈ splitInHalves.spec.targetIDs,
        CopiesRow (copyJobEnv demoOperator splitInHalves (oneShard .hash) [] t') key → t' = t) ∧
      resolveShard (splitRouting (oneShard .hash) splitInHalves.spec) key = .ok t := by
  have hplace : PlacesAlike (oneShard .hash) splitInHalves.spec "shard-0" := by
    refine ⟨halves_takeUp, fun pre e post heq hsrc r hr => ?_⟩
    obtain ⟨-, -, rfl⟩ := oneShard_split heq
    cases hr
  have hgate : GateAccepts splitInHalves.spec := by decide +kernel
  refine ⟨hgate, split_copies_where_routed demoOperator splitInHalves
    (oneShard .hash) "shard-0" [] rfl hgate ?_ hplace⟩
  unfold EnvSafe
  decide +kernel

def twoOnRing : ShardRangeSpec where
  cluster := "demo"
  keyspace := "default"
  vindex := { type := .consistentHash, column := "id", function := .murmur3, virtualNodes := 64 }
  ranges :=
    [⟨"0x00000000", "0x7fffffff", "shard-0"⟩, ⟨"0x80000000", "0xffffffff", "shard-1"⟩]

/-- The key `11` of `shard-0` is copied to the target `t0`, but the router looks for it on `shard-1`, whose virtual
node comes next on the ring. -/
theorem split_misplaces_key : GateAccepts wholeShard.spec ∧ resolveShard twoOnRing "11" = .ok "shard-0" ∧
      CopiesRow (copyJobEnv demoOperator wholeShard twoOnRing [] "t0") "11" ∧
      resolveShard (splitRouting twoOnRing wholeShard.spec) "11" = .ok "shard-1" :=
  ⟨by decide, by decide +kernel, ⟨_, rfl, by decide +kernel⟩, by decide +kernel⟩

end PostgresOperator
