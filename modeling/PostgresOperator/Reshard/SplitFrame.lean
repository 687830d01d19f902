import PostgresOperator.Reshard.Plan
import PostgresOperator.Router.RingMovement

/-!
# Keys that a split must leave alone

`mergeSplitRanges` takes the entries of the sources out of the list and puts those of the targets behind it.  For a
list that is searched in order no other key moves; on a ring the virtual nodes of a target may come in front of those
of any shard.
-/

namespace PostgresOperator

open Go List

variable (sr : ShardRangeSpec)

def afterSplit (sources : List Str) (targets : List ShardSplitTarget) : ShardRangeSpec :=
  { sr with ranges := mergeSplitRanges sr.ranges sources targets }

/-- A key of a shard that is no source stays there, and the key is on no source afterwards. -/
def MovesOnlySources (sources : List Str) (targets : List ShardSplitTarget) (key : Str) : Prop :=
  (∀ s ∉ sources, resolveShard sr key = .ok s → resolveShard (afterSplit sr sources targets) key = .ok s) ∧
    ∀ s ∈ sources, resolveShard (afterSplit sr sources targets) key ≠ .ok s

/-- If the first virtual node from the key is of a shard that stays, no virtual node of a target comes in front of
it. -/
def NoTargetInFront (sources : List Str) (targets : List ShardSplitTarget) (key : Str) : Prop :=
  ∀ h p, hashKey sr.vindex.function key = some h → VirtualNode sr.vindex sr.ranges p →
    (∀ q, VirtualNode sr.vindex sr.ranges q → NodeClockwise h p q) → p.shard ∉ sources →
      ∀ q, VirtualNode sr.vindex (flattenTargetRanges targets) q → NodeClockwise h p q

variable {rs : List ShardRangeEntry}

theorem VirtualNode.shard_mem {v : VindexSpec} {p : ChPoint} (hp : VirtualNode v rs p) : p.shard ∈ shardsOf rs := by
  obtain ⟨r, hr, -, i, -, -, hs⟩ := hp
  exact hs ▸ mem_map_of_mem hr

theorem Owns.shard_mem {v : VindexSpec} {key s : Str} (ho : Owns v rs key s) : s ∈ shardsOf rs := by
  have hf : (∃ e, FirstMeets (entryContains v key) rs e ∧ e.shard = s) → s ∈ shardsOf rs := by
    rintro ⟨e, ⟨pre, post, rfl, -⟩, rfl⟩
    simp [shardsOf]
  unfold Owns at ho
  split at ho
  · exact hf ho
  · exact hf ho
  · obtain ⟨h, p, -, hp, rfl, -⟩ := ho
    exact hp.shard_mem
  · exact ho.elim
  · exact ho.elim

theorem FirstMeets.filter {contains : ShardRangeEntry → Except ResolveError Bool} {e : ShardRangeEntry}
    (hf : FirstMeets contains rs e) {p : ShardRangeEntry → Bool} (he : p e) :
      FirstMeets contains (rs.filter p) e := by
  obtain ⟨pre, post, rfl, hp, hc⟩ := hf
  refine ⟨pre.filter p, post.filter p, ?_, fun r hr => hp r (mem_of_mem_filter hr), hc⟩
  rw [filter_append, filter_cons_of_pos he]

section Split

variable {sr : ShardRangeSpec} {sources : List Str} {targets : List ShardSplitTarget}

/-- The ring after a split: the sources' nodes are gone, the targets' have come. -/
theorem virtualNode_afterSplit {p : ChPoint} : VirtualNode sr.vindex (mergeSplitRanges sr.ranges sources targets) p ↔
      VirtualNode sr.vindex sr.ranges p ∧ p.shard ∉ sources ∨ VirtualNode sr.vindex
        (flattenTargetRanges targets) p := by
  constructor
  · rintro ⟨r, hr, hrs⟩
    obtain hr | hr := mem_append.1 hr
    · obtain ⟨hr, hs⟩ := mem_filter.1 hr
      exact .inl ⟨⟨r, hr, hrs⟩, by simpa [hrs.2.choose_spec.2.2] using hs⟩
    · exact .inr ⟨r, hr, hrs⟩
  · rintro (⟨⟨r, hr, hne, i, hi, hh, hsh⟩, hs⟩ | ⟨r, hr, hrs⟩)
    · refine ⟨r, mem_append_left _ (mem_filter.2 ⟨hr, ?_⟩), hne, i, hi, hh, hsh⟩
      simpa [← hsh] using hs
    · exact ⟨r, mem_append_right _ hr, hrs⟩

variable {key : Str}

theorem owns_afterSplit_of_interval (hv : sr.vindex.type.IsInterval) {s : Str} (hs : s ∉ sources)
    (ho : resolveShard sr key = .ok s) : resolveShard (afterSplit sr sources targets) key = .ok s := by
  obtain ⟨e, hf, rfl⟩ := (resolveShard_eq_ok_iff hv).1 ho
  have hl := hf.filter (p := fun e => decide (e.shard ∉ sources)) (by simpa using hs)
  have hv' : (afterSplit sr sources targets).vindex.type.IsInterval := hv
  exact (resolveShard_eq_ok_iff hv').2 ⟨e, firstMeets_append.2 (.inl hl), rfl⟩

variable (hnew : ∀ e ∈ flattenTargetRanges targets, e.shard ∉ shardsOf sr.ranges ∧ e.shard ∉ sources)
include hnew

theorem not_source_afterSplit {s : Str} (hr : resolveShard (afterSplit sr sources targets) key = .ok s) :
    s ∉ sources := by
  obtain ⟨e, he, rfl⟩ := mem_map.1 (resolveShard_iff_owns.1 hr).shard_mem
  obtain he | he := mem_append.1 he
  · simpa using (mem_filter.1 he).2
  · exact (hnew e he).2

/-- On a ring a key of another shard stays unless a node of a target comes before its owner's. -/
theorem moves_ring_iff (hv : sr.vindex.type = .consistentHash) :
    (∀ s ∉ sources, resolveShard sr key = .ok s → resolveShard (afterSplit sr sources targets) key = .ok s) ↔
      NoTargetInFront sr sources targets key := by
  have hv' : (afterSplit sr sources targets).vindex.type = .consistentHash := hv
  simp only [resolveShard_iff_owns, Owns, hv, hv']
  constructor
  · intro hk h p hkey hp hfr hs q hq
    obtain ⟨h', p', hkey', hp', hsh, hfr'⟩ := hk _ hs ⟨h, p, hkey, hp, rfl, hfr⟩
    cases hkey.symm.trans hkey'
    -- the new first node is of the same shard, so it is an old node, and there is one first node only
    have hold : VirtualNode sr.vindex sr.ranges p' := by
      obtain ⟨hold, -⟩ | ht := virtualNode_afterSplit.1 hp'
      · exact hold
      · obtain ⟨e, he, heq⟩ := mem_map.1 ht.shard_mem
        exact absurd (by rw [heq, hsh]; exact hp.shard_mem) (hnew e he).1
    have hb : NodeClockwise h p' p := hfr' p (virtualNode_afterSplit.2 (.inl ⟨hp, hs⟩))
    obtain rfl : p = p' := Ring.Clockwise.antisymm chPoint_le_antisymm (hfr p' hold) hb
    exact hfr' q (virtualNode_afterSplit.2 (.inr hq))
  · rintro hf s hs ⟨h, p, hkey, hp, rfl, hfr⟩
    refine ⟨h, p, hkey, virtualNode_afterSplit.2 (.inl ⟨hp, hs⟩), rfl, fun q hq => ?_⟩
    obtain ⟨hq, -⟩ | hq := virtualNode_afterSplit.1 hq
    · exact hfr q hq
    · exact hf h p hkey hp hfr hs q hq

end Split

/-- A split to new shards moves the keys of the sources only, except on a ring where a virtual node of a target comes
in front of the node of another shard. -/
theorem moves_only_sources_iff (sr : ShardRangeSpec) (sources : List Str) (targets : List ShardSplitTarget)
    (hnew : ∀ e ∈ flattenTargetRanges targets, e.shard ∉ shardsOf sr.ranges ∧ e.shard ∉ sources) (key : Str) :
    MovesOnlySources sr sources targets key ↔
      (sr.vindex.type = .consistentHash → NoTargetInFront sr sources targets key) := by
  have hso : ∀ s ∈ sources, resolveShard (afterSplit sr sources targets) key ≠ .ok s :=
    fun s hs hrs => not_source_afterSplit hnew hrs hs
  constructor
  · intro hm hv
    exact (moves_ring_iff hnew hv).1 hm.1
  · intro hf
    refine ⟨?_, hso⟩
    by_cases hv : sr.vindex.type = .consistentHash
    · exact (moves_ring_iff hnew hv).2 (hf hv)
    · intro s hs hrs
      have ht : sr.vindex.type.IsInterval := by
        obtain hr | ⟨hh | hrn, -⟩ := (resolveShard_iff_owns.1 hrs).vindex_known
        · exact .inr hr
        · exact .inl hh
        · exact absurd hrn hv
      exact owns_afterSplit_of_interval ht hs hrs

private def twoShards (type : VindexType) : ShardRangeSpec where
  vindex := { type := type, function := .murmur3, virtualNodes := 64 }
  ranges := [⟨"0x00000000", "0x7fffffff", "shard-0"⟩, ⟨"0x80000000", "0xffffffff", "shard-1"⟩]

private def toTarget : List ShardSplitTarget :=
  [{ shardID := "t0", ranges := [⟨"0x00000000", "0x7fffffff", "t0"⟩] }]

theorem moves_only_sources_range : MovesOnlySources (twoShards .range) ["shard-0"] toTarget "0x9" :=
  (moves_only_sources_iff _ _ _ (by decide) _).2 fun h => by cases h

/-- On a ring the split of `shard-0` takes the key `g` from `shard-1`. -/
theorem split_takes_key_of_other_shard : resolveShard (twoShards .consistentHash) "g" = .ok "shard-1" ∧
      resolveShard (afterSplit (twoShards .consistentHash) ["shard-0"] toTarget) "g" = .ok "t0" := by
  decide +kernel

end PostgresOperator
