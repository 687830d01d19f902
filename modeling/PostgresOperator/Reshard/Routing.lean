import PostgresOperator.Reshard.Plan
import PostgresOperator.Router.SplitPlanRanges

/-!
# Routing after a split

Where the keys of the source go once `applyRouting` has replaced the ranges of a keyspace.  The gate of the Pending
phase looks at the targets alone, so whether the keys of the source reach the targets depends on how the ranges of the
targets lie to those of the source and of the other shards.
-/

namespace PostgresOperator

open Go List

variable (spec : ShardSplitJobSpec) (sr : ShardRangeSpec)

def splitRouting (spec : ShardSplitJobSpec) : ShardRangeSpec :=
  { sr with ranges := mergeSplitRanges sr.ranges spec.sources spec.targets, writeBlocked := false }

def ShardSplitJobSpec.targetIDs : List Str := spec.targets.map (·.shardID)

def otherRanges (src : Str) : List ShardRangeEntry :=
  sr.ranges.filter fun e => decide (e.shard ≠ src)

theorem splitRouting_ranges {sr : ShardRangeSpec} {spec : ShardSplitJobSpec} {src : Str}
    (hs : spec.sources = [src]) :
    (splitRouting sr spec).ranges = otherRanges sr src ++ flattenTargetRanges spec.targets := by
  simp [splitRouting, mergeSplitRanges, otherRanges, hs]

/-! ### Bounds under which the keys of the source stay with the targets -/

variable (v : VindexSpec)

/-- The bounds of the range can be read; those of a range vindex are the texts themselves. -/
def Readable (v : VindexSpec) (r : ShardRangeEntry) : Prop := v.type = .hash → HashReadable r

/-- By their bounds the ranges `e` and `r` have no key in common. -/
def ClearOf (v : VindexSpec) (e r : ShardRangeEntry) : Prop :=
  match v.type with
  | .hash => boundValue r.hi < boundValue e.lo ∨ boundValue e.hi < boundValue r.lo ∨ boundValue r.hi < boundValue r.lo
  | _ => r.hi < e.lo ∨ e.hi < r.lo ∨ r.hi < r.lo

/-- By their bounds the ranges `rs` take up every key of `e`.  The numbers of a hash vindex are compared at the lower
bound of `e` and at the ends and breaks of `rs`.  Between two texts that `adjacent` accepts there are always others,
so that one range has to take up all the keys of a range vindex. -/
def TakenUp (v : VindexSpec) (e : ShardRangeEntry) (rs : List ShardRangeEntry) : Prop :=
  match v.type with
  | .hash =>
    (boundValue e.lo ≤ boundValue e.hi → Intervals.Covers (readings rs) (boundValue e.lo)) ∧
      ∀ n ∈ Intervals.ends (readings rs) ++ Intervals.breaks (readings rs),
        Intervals.Within (hashInterval e) n → Intervals.Covers (readings rs) n
  | _ => e.lo ≤ e.hi → ∃ r ∈ rs, r.lo ≤ e.lo ∧ e.hi ≤ r.hi

instance (e r : ShardRangeEntry) : Decidable (ClearOf v e r) := by
  unfold ClearOf
  split <;> infer_instance

instance (e : ShardRangeEntry) (rs : List ShardRangeEntry) : Decidable (TakenUp v e rs) := by
  unfold TakenUp
  split <;> infer_instance

/-- Each range of the source is taken up by the ranges that come after it once the source is gone, and those of them
that share a key with it are ranges of targets. -/
def TargetsTakeUp (sr : ShardRangeSpec) (spec : ShardSplitJobSpec) (src : Str) : Prop :=
  ∀ pre e post, sr.ranges = pre ++ e :: post → e.shard = src →
    let later := post.filter (fun r => decide (r.shard ≠ src)) ++ flattenTargetRanges spec.targets
    (∀ r ∈ later, Readable sr.vindex r ∧ (r.shard ∈ spec.targetIDs ∨ ClearOf sr.vindex e r)) ∧
      TakenUp sr.vindex e later

section Bounds

variable {v : VindexSpec} {key : Str} {e r : ShardRangeEntry} {rs : List ShardRangeEntry}

theorem hashContains_of_entryContains (hv : v.type = .hash) (he : entryContains v key e = .ok true) :
    ∃ h, entryContains v key = hashContains h ∧ Intervals.Within (hashInterval e) h.toNat := by
  cases hk : hashKey v.function key with
  | none => simp [entryContains, hv, hk] at he
  | some h =>
    have hc : entryContains v key = hashContains h := by
      funext r
      simp [entryContains, hv, hk]
    refine ⟨h, hc, ?_⟩
    rw [hc] at he
    have hr : HashReadable e := by
      unfold hashContains at he
      unfold HashReadable
      split at he
      · cases he
      split at he
      · cases he
      simp [*]
    exact hr.contains_iff.1 he

theorem not_clearOf (hv : v.type.IsInterval) (hr : Readable v r) (he : entryContains v key e = .ok true)
    (hc : entryContains v key r = .ok true) : ¬ ClearOf v e r := by
  unfold ClearOf
  rcases hv with hv | hv
  · obtain ⟨h, hk, hw⟩ := hashContains_of_entryContains hv he
    have hw' := (hr hv).contains_iff.1 (hk ▸ hc)
    simp only [hv]
    simp only [Intervals.Within, hashInterval] at hw hw'
    omega
  · simp only [entryContains, rangeContains, hv, Except.ok.injEq, decide_eq_true_eq] at he hc
    simp only [hv, not_or, not_lt]
    exact ⟨he.1.trans hc.2, hc.1.trans he.2, hc.1.trans hc.2⟩

theorem exists_entryContains (hv : v.type.IsInterval) (hrs : ∀ r ∈ rs, Readable v r) (ht : TakenUp v e rs)
    (he : entryContains v key e = .ok true) : ∃ r ∈ rs, entryContains v key r = .ok true := by
  unfold TakenUp at ht
  rcases hv with hv | hv
  · obtain ⟨h, hk, hw⟩ := hashContains_of_entryContains hv he
    simp only [hv] at ht
    have hcv : Intervals.Covers (readings rs) h.toNat := by
      cases hre : readings rs with
      | nil =>
        rw [hre] at ht
        exact absurd (ht.1 (hw.1.trans hw.2)) (by simp [Intervals.Covers])
      | cons i l =>
        rw [hre] at ht
        exact Intervals.covers_of_within ht.1 ht.2 hw
    rw [hk, hashes_iff_covers fun r hr => hrs r hr hv, ← covers_readings]
    exact hcv
  · simp only [entryContains, rangeContains, hv, Except.ok.injEq, decide_eq_true_eq] at he ht ⊢
    obtain ⟨r, hr, hlo, hhi⟩ := ht (he.1.trans he.2)
    exact ⟨r, hr, hlo.trans he.1, he.2.trans hhi⟩

theorem entryContains_eq_ok (hv : v.type.IsInterval) (hr : Readable v r) (he : entryContains v key e = .ok true) :
    ∃ b, entryContains v key r = .ok b := by
  rcases hv with hv | hv
  · obtain ⟨h, hk, -⟩ := hashContains_of_entryContains hv he
    exact ⟨_, hk ▸ (hr hv).contains h⟩
  · exact ⟨decide (r.lo ≤ key ∧ key ≤ r.hi), by simp only [entryContains, hv, rangeContains]⟩

end Bounds

theorem FirstMeets.mem {contains : ShardRangeEntry → Except ResolveError Bool} {rs : List ShardRangeEntry}
    {r : ShardRangeEntry} (h : FirstMeets contains rs r) : r ∈ rs := by
  obtain ⟨pre, post, rfl, -, -⟩ := h
  simp

theorem FirstMeets.contains {contains : ShardRangeEntry → Except ResolveError Bool} {rs : List ShardRangeEntry}
    {r : ShardRangeEntry} (h : FirstMeets contains rs r) : contains r = .ok true := by
  obtain ⟨-, -, -, -, hc⟩ := h
  exact hc

theorem exists_firstMeets {contains : ShardRangeEntry → Except ResolveError Bool} {rs : List ShardRangeEntry}
    (hok : ∀ r ∈ rs, ∃ b, contains r = .ok b) (h : ∃ r ∈ rs, contains r = .ok true) :
      ∃ r, FirstMeets contains rs r := by
  induction rs with
  | nil => simp at h
  | cons r rs ih =>
    obtain ⟨b, hb⟩ := hok r mem_cons_self
    cases b with
    | true => exact ⟨r, [], rs, rfl, by simp, hb⟩
    | false =>
      have hr : ∃ r' ∈ rs, contains r' = .ok true := by simpa [hb] using h
      obtain ⟨r', hr'⟩ := ih (fun x hx => hok x (mem_cons_of_mem r hx)) hr
      obtain ⟨pre, post, rfl, hpre, hc⟩ := hr'
      exact ⟨r', r :: pre, post, rfl, by simpa [hb] using hpre, hc⟩

/-- The search of the merged ranges ends at a target for every key that the source had. -/
theorem TargetsTakeUp.firstMeets {sr : ShardRangeSpec} {spec : ShardSplitJobSpec} {src : Str}
    (htake : TargetsTakeUp sr spec src) (hv : sr.vindex.type.IsInterval) {pre post : List ShardRangeEntry}
    {e : ShardRangeEntry} (heq : sr.ranges = pre ++ e :: post) (hsrc : e.shard = src) {key : Str}
    (he : entryContains sr.vindex key e = .ok true) :
    ∃ r, FirstMeets (entryContains sr.vindex key)
      (post.filter (fun r => decide (r.shard ≠ src)) ++ flattenTargetRanges spec.targets) r ∧
        r.shard ∈ spec.targetIDs := by
  obtain ⟨hlater, htaken⟩ := htake pre e post heq hsrc
  obtain ⟨r, hr⟩ := exists_firstMeets (fun r hr => entryContains_eq_ok hv (hlater r hr).1 he)
    (exists_entryContains hv (fun r hr => (hlater r hr).1) htaken he)
  obtain ⟨hreadable, hid⟩ := hlater r hr.mem
  exact ⟨r, hr, hid.resolve_right (not_clearOf hv hreadable he hr.contains)⟩

/-- The ranges before the first one that contains the key do not matter after the split either. -/
theorem firstMeets_after {sr : ShardRangeSpec} {spec : ShardSplitJobSpec} {src : Str}
    {contains : ShardRangeEntry → Except ResolveError Bool} {pre post : List ShardRangeEntry} {e r : ShardRangeEntry}
    (heq : sr.ranges = pre ++ e :: post) (hsrc : e.shard = src) (hpre : ∀ x ∈ pre, contains x = .ok false)
    (hr : FirstMeets contains (post.filter (fun r => decide (r.shard ≠ src)) ++ flattenTargetRanges spec.targets) r) :
    FirstMeets contains (otherRanges sr src ++ flattenTargetRanges spec.targets) r := by
  have hsplit : otherRanges sr src ++ flattenTargetRanges spec.targets =
      pre.filter (fun r => decide (r.shard ≠ src)) ++
        (post.filter (fun r => decide (r.shard ≠ src)) ++ flattenTargetRanges spec.targets) := by
    simp [otherRanges, heq, hsrc]
  rw [hsplit]
  exact firstMeets_append.2 (.inr ⟨fun x hx => hpre x (mem_of_mem_filter hx), hr⟩)

/-- After a split of one source every key of the source goes to a target, when by their bounds the targets take up the
ranges of the source.  This holds of every job, whatever the gate says: it compares the plan with itself. -/
theorem split_keeps_source_keys (sr : ShardRangeSpec) (spec : ShardSplitJobSpec) (src : Str)
    (hv : sr.vindex.type.IsInterval) (hs : spec.sources = [src]) (htake : TargetsTakeUp sr spec src) (key : Str)
    (hkey : resolveShard sr key = .ok src) :
    ∃ t ∈ spec.targetIDs, resolveShard (splitRouting sr spec) key = .ok t := by
  obtain ⟨e, ⟨pre, post, heq, hpre, he⟩, hsrc⟩ := (resolveShard_eq_ok_iff hv).1 hkey
  obtain ⟨r, hr, hid⟩ := htake.firstMeets hv heq hsrc he
  have hv' : (splitRouting sr spec).vindex.type.IsInterval := hv
  refine ⟨r.shard, hid, ?_⟩
  rw [resolveShard_eq_ok_iff hv', splitRouting_ranges hs]
  exact ⟨r, firstMeets_after heq hsrc hpre hr, rfl⟩

def oneShard (type : VindexType) : ShardRangeSpec where
  cluster := "demo"
  keyspace := "default"
  vindex := { type := type, column := "id", function := .murmur3 }
  ranges := [⟨"0x00000000", "0xffffffff", "shard-0"⟩]

def oneTarget (lo hi : Str) : ShardSplitJobSpec where
  cluster := "demo"
  keyspace := "default"
  sources := ["shard-0"]
  targets := [{ shardID := "t0", ranges := [⟨lo, hi, "t0"⟩] }]

def halves : ShardSplitJobSpec where
  cluster := "demo"
  keyspace := "default"
  sources := ["shard-0"]
  targets := [{ shardID := "t0", ranges := [⟨"0x00000000", "0x7fffffff", "t0"⟩] },
    { shardID := "t1", ranges := [⟨"0x80000000", "0xffffffff", "t1"⟩] }]

theorem oneShard_split {type : VindexType} {pre post : List ShardRangeEntry} {e : ShardRangeEntry}
    (h : (oneShard type).ranges = pre ++ e :: post) :
    pre = [] ∧ e = ⟨"0x00000000", "0xffffffff", "shard-0"⟩ ∧ post = [] := by
  cases pre with
  | nil => simpa [oneShard, eq_comm] using h
  | cons x pre => simp [oneShard] at h

theorem halves_takeUp : TargetsTakeUp (oneShard .hash) halves "shard-0" := by
  intro pre e post heq _
  obtain ⟨rfl, rfl, rfl⟩ := oneShard_split heq
  unfold Readable HashReadable
  exact ⟨by decide +kernel, by decide +kernel⟩

theorem split_keeps_source_keys_halves :
    GateAccepts halves ∧ ∀ key, resolveShard (oneShard .hash) key = .ok "shard-0" →
      ∃ t ∈ halves.targetIDs, resolveShard (splitRouting (oneShard .hash) halves) key = .ok t :=
  ⟨by decide +kernel, split_keeps_source_keys _ _ _ (.inl rfl) rfl halves_takeUp⟩

/-- The gate accepts a plan for the lower half of the keys of `shard-0`; the key `b`, in the upper half, has no shard
after the split. -/
theorem split_drops_key :
    GateAccepts (oneTarget "0x00000000" "0x7fffffff") ∧
      resolveShard (oneShard .hash) "b" = .ok "shard-0" ∧
      resolveShard (splitRouting (oneShard .hash) (oneTarget "0x00000000" "0x7fffffff")) "b" =
        .error (.noMatch (some 0x95de7e03) "b") := by
  decide +kernel

/-! ### Executing it again -/

/-- What `applyRouting` writes when it has been executed `n` times. -/
def splitRoutings (n : Nat) : ShardRangeSpec := (splitRouting · spec)^[n] sr

theorem splitRoutings_succ (n : Nat) :
    splitRoutings spec sr (n + 1) = splitRouting (splitRoutings spec sr n) spec :=
  Function.iterate_succ_apply' _ _ _

/-- Each further switch appends the targets once more. -/
theorem length_splitRoutings (n : Nat) :
    ((splitRoutings spec sr (n + 1)).ranges.filter fun e => decide (e.shard ∉ spec.sources)).length =
      (sr.ranges.filter fun e => decide (e.shard ∉ spec.sources)).length +
        (n + 1) * ((flattenTargetRanges spec.targets).filter fun e => decide (e.shard ∉ spec.sources)).length := by
  induction n with
  | zero => simp [splitRoutings, splitRouting, mergeSplitRanges]
  | succ n ih =>
    rw [splitRoutings_succ]
    simp only [splitRouting, mergeSplitRanges, filter_append, filter_filter, Bool.and_self, length_append, ih]
    rw [Nat.add_assoc, ← Nat.succ_mul]

/-- The ranges after several executions are those after one exactly when there was only one, or every range of the
targets is one of a source. -/
theorem routing_switch_idempotent_iff (sr : ShardRangeSpec) (spec : ShardSplitJobSpec) (n : Nat) :
    (splitRoutings spec sr (n + 1)).ranges = (splitRouting sr spec).ranges ↔
      n = 0 ∨ ∀ e ∈ flattenTargetRanges spec.targets, e.shard ∈ spec.sources := by
  constructor
  · intro h
    have hl := length_splitRoutings spec sr n
    have ho := length_splitRoutings spec sr 0
    change ((splitRouting sr spec).ranges.filter _).length = _ at ho
    rw [h, ho] at hl
    rcases Nat.eq_zero_or_pos n with hn | hn
    · exact .inl hn
    · refine .inr fun e he => ?_
      by_contra hs
      have hp : 0 < ((flattenTargetRanges spec.targets).filter fun e => decide (e.shard ∉ spec.sources)).length :=
        length_pos_of_mem (mem_filter.2 ⟨he, decide_eq_true hs⟩)
      have hm := Nat.mul_lt_mul_of_pos_right (Nat.succ_lt_succ hn) hp
      simp only [Nat.succ_eq_add_one] at hm
      omega
  · rintro (rfl | ht)
    · rfl
    · induction n with
      | zero => rfl
      | succ n ih =>
        rw [splitRoutings_succ, splitRouting, mergeSplitRanges, ih]
        simpa [splitRouting, mergeSplitRanges, filter_append, filter_filter] using ht

/-- The second execution writes the range of the target twice. -/
theorem second_switch_repeats_target :
    let sr := oneShard .hash
    let spec := oneTarget "0x00000000" "0xffffffff"
    sr.ranges.Nodup ∧ (∀ s ∈ spec.sources, s ∉ spec.targetIDs) ∧
      (splitRoutings spec sr 1).ranges = [⟨"0x00000000", "0xffffffff", "t0"⟩] ∧
      (splitRoutings spec sr 2).ranges =
        [⟨"0x00000000", "0xffffffff", "t0"⟩, ⟨"0x00000000", "0xffffffff", "t0"⟩] := by
  decide +kernel

end PostgresOperator
