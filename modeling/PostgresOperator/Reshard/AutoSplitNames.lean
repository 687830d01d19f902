import PostgresOperator.Reshard.AutoSplit

/-!
# Names of automatic splits

The name of the `ShardSplitJob` and the IDs of the target shards that `internal/controller/autosplit.go` derives from
a candidate. The job name leaves the cluster out and is cut at 63 bytes; the IDs are a checksum of 24 bits of the
bounds alone.
-/

namespace PostgresOperator

open Go List

def trimDashesRight (s : Str) : Str := (s.reverse.dropWhile (· = byte '-')).reverse

def sanitizeRune (r : Rune) : UInt8 := if 0x61 ≤ r ∧ r ≤ 0x7a ∨ 0x30 ≤ r ∧ r ≤ 0x39 then UInt8.ofNat r else '-'

def sanitizeName (s : Str) : Str :=
  trimDashesRight (((chars (toLower s)).map fun c => sanitizeRune c.rune).dropWhile (· = '-'))

def autoSplitJobName (keyspace sourceShard lo hi : Str) : Str :=
  trimDashesRight ((sprintf "autosplit-%s-%s-%s"
    [sanitizeName keyspace, sanitizeName sourceShard, shortRangeHash lo hi]).take 63)

/-- A candidate of a namespace; the source is the shard of the range. -/
structure AutoSplitCandidate where
  cluster : Str
  keyspace : Str
  range : ShardRangeEntry
  deriving DecidableEq

namespace AutoSplitCandidate

variable (c c' : AutoSplitCandidate)

def jobName : Str := autoSplitJobName c.keyspace c.range.shard c.range.lo c.range.hi

def targetIDs : List Str := [halfID c.range 'a', halfID c.range 'b']

def text : Str := sanitizeName c.keyspace ++ "-" ++ sanitizeName c.range.shard

def checksum : Nat := rangeChecksum c.range.lo c.range.hi

/-- What the job name has after `autosplit-`, before it is cut. -/
def slug : Str := c.text ++ "-" ++ shortRangeHash c.range.lo c.range.hi

/-- The jobs have different names, and the targets are new shards; `shards` are the names in all keyspaces of the
cluster of `c`. -/
def NamesUnique (shards : List Str) : Prop :=
  c.jobName ≠ c'.jobName ∧ (c.cluster = c'.cluster → ∀ id ∈ c.targetIDs, id ∉ c'.targetIDs) ∧
    ∀ id ∈ c.targetIDs, id ∉ shards

/-- The texts or the checksums differ, and if a name is cut, also what is left of them. -/
def TextsApart : Prop :=
  (c.text ≠ c'.text ∨ c.checksum ≠ c'.checksum) ∧
    (46 < c.text.length ∨ 46 < c'.text.length → trimDashesRight (c.slug.take 53) ≠ trimDashesRight (c'.slug.take 53))

end AutoSplitCandidate

theorem trimDashesRight_append (s t : Str) :
    trimDashesRight (s ++ t) = if trimDashesRight t = [] then trimDashesRight s else s ++ trimDashesRight t := by
  unfold trimDashesRight
  rw [List.reverse_append, dropWhile_append]
  simp only [List.isEmpty_iff, List.reverse_eq_nil_iff]
  split
  · rfl
  · rw [List.reverse_append, List.reverse_reverse]

theorem trimDashesRight_of_last {s : Str} {c : UInt8} (hc : c ≠ '-') : trimDashesRight (s ++ [c]) = s ++ [c] := by
  simp [trimDashesRight, hc]

section Names

variable {c c' : AutoSplitCandidate}

theorem shortRangeHash_inj {lo hi lo' hi' : Str} :
    shortRangeHash lo hi = shortRangeHash lo' hi' ↔ rangeChecksum lo hi = rangeChecksum lo' hi' := by
  constructor
  · intro h
    rw [← (shortRangeHash_spec lo hi).2.2, h, (shortRangeHash_spec lo' hi').2.2]
  · intro h
    rw [shortRangeHash, h, shortRangeHash]

theorem AutoSplitCandidate.slug_inj : c.slug = c'.slug ↔ c.text = c'.text ∧ c.checksum = c'.checksum := by
  unfold AutoSplitCandidate.slug
  rw [AutoSplitCandidate.checksum, AutoSplitCandidate.checksum, ← shortRangeHash_inj]
  constructor
  · intro h
    obtain ⟨ht, hs⟩ := append_inj' h (by rw [(shortRangeHash_spec _ _).1, (shortRangeHash_spec _ _).1])
    exact ⟨append_cancel_right ht, hs⟩
  · rintro ⟨ht, hs⟩
    rw [ht, hs]

theorem AutoSplitCandidate.trim_slug (c : AutoSplitCandidate) : trimDashesRight c.slug = c.slug := by
  obtain ⟨hn, hl, -⟩ := shortRangeHash_spec c.range.lo c.range.hi
  have hne : shortRangeHash c.range.lo c.range.hi ≠ [] := fun h => by rw [h] at hn; cases hn
  have hd : ∀ x, isLowerHex x → x ≠ '-' := by
    rw [forall_byte_iff]
    decide +kernel
  rw [AutoSplitCandidate.slug, ← dropLast_append_getLast hne, ← append_assoc]
  exact trimDashesRight_of_last (hd _ (hl _ (getLast_mem hne)))

theorem AutoSplitCandidate.jobName_eq (c : AutoSplitCandidate) :
    c.jobName = trimDashesRight ("autosplit-" ++ c.slug.take 53) := by
  have ht : verbTexts (str "autosplit-%s-%s-%s") = [str "autosplit-", str "-", str "-", []] := by decide +kernel
  have hl : (str "autosplit-").length = 10 := by decide
  rw [AutoSplitCandidate.jobName, autoSplitJobName, sprintf, ht]
  simp only [Go.interleave, append_nil]
  rw [take_append, hl, take_of_length_le (by rw [hl]; decide)]
  simp only [AutoSplitCandidate.slug, AutoSplitCandidate.text, append_assoc]

/-- Two names agree as soon as the first 53 bytes of the slugs do. -/
theorem AutoSplitCandidate.jobName_inj :
    c.jobName = c'.jobName ↔ trimDashesRight (c.slug.take 53) = trimDashesRight (c'.slug.take 53) := by
  have hp : trimDashesRight (str "autosplit-") = str "autosplit" := by decide
  have hd : ∀ s, str "autosplit-" ++ s ≠ str "autosplit" := by
    intro s h
    have hl := congrArg length h
    rw [length_append, show (str "autosplit-").length = 10 by decide, show (str "autosplit").length = 9 by decide]
      at hl
    omega
  rw [c.jobName_eq, c'.jobName_eq, trimDashesRight_append, trimDashesRight_append, hp]
  split <;> split
  · simp_all
  · rename_i h h'
    simp only [h, (hd _).symm, false_iff]
    exact fun heq => h' heq.symm
  · rename_i h h'
    simp [h', hd, h]
  · exact append_right_inj _

theorem AutoSplitCandidate.textsApart_iff : c.jobName ≠ c'.jobName ↔ c.TextsApart c' := by
  have hu : ∀ c : AutoSplitCandidate, c.text.length ≤ 46 → trimDashesRight (c.slug.take 53) = c.slug := by
    intro c hc
    rw [take_of_length_le, c.trim_slug]
    simp only [AutoSplitCandidate.slug, length_append, (shortRangeHash_spec _ _).1]
    change c.text.length + 1 + 6 ≤ 53
    omega
  rw [ne_eq, AutoSplitCandidate.jobName_inj, AutoSplitCandidate.TextsApart, ← not_and_or,
    ← AutoSplitCandidate.slug_inj]
  constructor
  · intro h
    exact ⟨fun heq => h (by rw [heq]), fun _ => h⟩
  · rintro ⟨hs, ht⟩ h
    by_cases hl : 46 < c.text.length ∨ 46 < c'.text.length
    · exact ht hl h
    · rw [not_or, not_lt, not_lt] at hl
      rw [hu c hl.1, hu c' hl.2] at h
      exact hs h

/-- The IDs of the halves know the bounds only by their checksum. -/
theorem AutoSplitCandidate.targetIDs_disjoint_iff : (∀ id ∈ c.targetIDs, id ∉ c'.targetIDs) ↔
    c.checksum ≠ c'.checksum := by
  have hid : ∀ ha ha' : Char, halfID c.range ha = halfID c'.range ha' ↔
      c.checksum = c'.checksum ∧ byte ha = byte ha' := by
    intro ha ha'
    rw [halfID, halfID, append_assoc, append_assoc, append_right_inj, AutoSplitCandidate.checksum,
      AutoSplitCandidate.checksum, ← shortRangeHash_inj]
    constructor
    · intro h
      obtain ⟨hs, hh⟩ := append_inj' h rfl
      exact ⟨hs, by simpa using hh⟩
    · rintro ⟨hs, hh⟩
      rw [hs, hh]
  have hab : byte 'a' ≠ byte 'b' := by decide
  simp [AutoSplitCandidate.targetIDs, hid, hab, hab.symm]

end Names

/-- The names are unique exactly when the texts are apart, candidates of one cluster have different checksums, and no
shard of the cluster is called like a target. -/
theorem autosplit_names_unique_iff (c c' : AutoSplitCandidate) (shards : List Str) : c.NamesUnique c' shards ↔
    c.TextsApart c' ∧ (c.cluster = c'.cluster → c.checksum ≠ c'.checksum) ∧
      halfID c.range 'a' ∉ shards ∧ halfID c.range 'b' ∉ shards := by
  rw [AutoSplitCandidate.NamesUnique, AutoSplitCandidate.textsApart_iff, AutoSplitCandidate.targetIDs_disjoint_iff]
  simp [AutoSplitCandidate.targetIDs]

/-- Two keyspaces of a cluster with the same range give the same targets, and two clusters with the same keyspace the
same job. -/
theorem autosplit_names_collide :
    let c (cluster keyspace : String) : AutoSplitCandidate :=
      ⟨str cluster, str keyspace, ⟨"0x00000000", "0xffffffff", "shard-0"⟩⟩
    (c "demo" "orders").targetIDs = (c "demo" "users").targetIDs ∧
      (c "demo" "orders").jobName = (c "other" "orders").jobName := by
  decide +kernel

end PostgresOperator
