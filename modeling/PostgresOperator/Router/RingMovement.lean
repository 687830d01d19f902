import PostgresOperator.Go.Decimal
import PostgresOperator.Router.Owner

/-!
# Rings that change, rings that are kept

`NewConsistentHashRing` and `Lookup` for any hash function: how the shard of a key moves when a shard is added or
removed, and when the ring that `resolveConsistentHash` takes from its cache is the one that it would build.
-/

namespace PostgresOperator

open Go List

variable (rs : List ShardRangeEntry) (hash : Str → UInt32)

def shardsOf : List Str := rs.map (·.shard)

def lookupOn (v : VindexSpec) (rs : List ShardRangeEntry) (h : UInt32) : Option Str :=
  (ringOf hash v rs).map (·.lookup h)

def FirstNode (v : VindexSpec) (rs : List ShardRangeEntry) (h : UInt32) (p : ChPoint) : Prop :=
  IsNode hash v rs p ∧ ∀ q, IsNode hash v rs q → NodeClockwise h p q

/-! ### Keys that move -/

section Movement

variable {hash : Str → UInt32} {v : VindexSpec} {rs rs' : List ShardRangeEntry} {h : UInt32}

theorem isNode_iff {p : ChPoint} :
    IsNode hash v rs p ↔ p.shard ∈ shardsOf rs ∧ p.shard ≠ [] ∧ ∃ i < vnodes v, hash
      (p.shard ++ byte ':' :: itoaNat i) = p.hash := by
  simp only [IsNode, shardsOf, mem_map]
  constructor
  · rintro ⟨r, hr, hne, i, hi, hh, hs⟩
    rw [hs]
    exact ⟨⟨r, hr, rfl⟩, hne, i, hi, hh⟩
  · rintro ⟨⟨r, hr, hs⟩, hne, i, hi, hh⟩
    exact ⟨r, hr, by rwa [hs], i, hi, by rwa [hs], hs.symm⟩

theorem lookupOn_eq_some_iff {s : Str} : lookupOn hash v rs h = some s ↔ ∃ p, FirstNode hash v rs h p ∧
    p.shard = s := by
  unfold lookupOn ringOf FirstNode
  simp only [← mem_ringPoints]
  split
  · rename_i hn
    simp [hn, ringPoints]
  · rename_i hne
    rw [Option.map_some, Option.some.injEq, lookup_insertionSort_iff (ringPoints_ne_nil hne)]
    refine exists_congr fun p => ?_
    rw [and_comm (a := p.shard = s), and_assoc]

theorem lookupOn_isSome {p : ChPoint} (hp : IsNode hash v rs p) : ∃ s, lookupOn hash v rs h = some s := by
  have hm := mem_ringPoints.2 hp
  have hne : distinctShards [] rs ≠ [] := by
    intro hn
    simp [hn, ringPoints] at hm
  exact ⟨_, by rw [lookupOn, ringOf, if_neg hne, Option.map_some]⟩

theorem lookupOn_congr (hs : ∀ s, s ∈ shardsOf rs' ↔ s ∈ shardsOf rs) :
    lookupOn hash v rs' h = lookupOn hash v rs h := by
  refine Option.ext fun s => ?_
  rw [lookupOn_eq_some_iff, lookupOn_eq_some_iff]
  simp only [FirstNode, isNode_iff, hs]

/-- A shard that joins the ring takes keys over; no key moves between the others. -/
theorem lookupOn_grow {s : Str} (hsb : ∀ t ∈ shardsOf rs, t ∈ shardsOf rs')
    (hn : ∀ t ∈ shardsOf rs', t = s ∨ t ∈ shardsOf rs) :
    lookupOn hash v rs' h = some s ∨ lookupOn hash v rs' h = lookupOn hash v rs h := by
  have hm : ∀ p, IsNode hash v rs p → IsNode hash v rs' p := by
    intro p hp
    rw [isNode_iff] at hp ⊢
    exact ⟨hsb _ hp.1, hp.2⟩
  cases hl : lookupOn hash v rs' h with
  | none =>
    right
    cases hb : lookupOn hash v rs h with
    | none => rfl
    | some t =>
      obtain ⟨p, hp, -⟩ := lookupOn_eq_some_iff.1 hb
      obtain ⟨t', ht'⟩ := lookupOn_isSome (h := h) (hm p hp.1)
      rw [hl] at ht'
      cases ht'
  | some t =>
    obtain ⟨p, ⟨hp, hf⟩, rfl⟩ := lookupOn_eq_some_iff.1 hl
    by_cases hs : p.shard = s
    · exact .inl (by rw [hs])
    · -- the first node is an old one, so that it was the first before
      rw [isNode_iff] at hp
      have hold : IsNode hash v rs p := isNode_iff.2 ⟨(hn _ hp.1).resolve_left hs, hp.2⟩
      have hb : lookupOn hash v rs h = some p.shard :=
        lookupOn_eq_some_iff.2 ⟨p, ⟨hold, fun q hq => hf q (hm q hq)⟩, rfl⟩
      exact .inr hb.symm

end Movement

/-- The shard of a key is that of the first virtual node, whatever the order and the repetition of the shards; a new
shard takes keys to itself only, and a removed one gives only its own keys away. -/
theorem lookup_moves_least (hash : Str → UInt32) (v : VindexSpec) (rs rs' : List ShardRangeEntry) (h : UInt32) :
    (∀ s, lookupOn hash v rs h = some s ↔ ∃ p, FirstNode hash v rs h p ∧ p.shard = s) ∧
    ((∀ s, s ∈ shardsOf rs' ↔ s ∈ shardsOf rs) → lookupOn hash v rs' h = lookupOn hash v rs h) ∧
    (∀ s ∉ shardsOf rs, (∀ t, t ∈ shardsOf rs' ↔ t = s ∨ t ∈ shardsOf rs) →
      lookupOn hash v rs' h = some s ∨ lookupOn hash v rs' h = lookupOn hash v rs h) ∧
    ∀ s, (∀ t, t ∈ shardsOf rs' ↔ t ≠ s ∧ t ∈ shardsOf rs) → lookupOn hash v rs h ≠ some s →
      lookupOn hash v rs' h = lookupOn hash v rs h := by
  refine ⟨fun s => lookupOn_eq_some_iff, lookupOn_congr, ?_, ?_⟩
  · intro s _ hsh
    exact lookupOn_grow (fun t ht => (hsh t).2 (.inr ht)) (fun t ht => (hsh t).1 ht)
  · intro s hsh hs
    have hb : ∀ t ∈ shardsOf rs, t = s ∨ t ∈ shardsOf rs' := by
      intro t ht
      by_cases hts : t = s
      · exact .inl hts
      · exact .inr ((hsh t).2 ⟨hts, ht⟩)
    have hg : lookupOn hash v rs h = some s ∨ lookupOn hash v rs h = lookupOn hash v rs' h :=
      lookupOn_grow (fun t ht => ((hsh t).1 ht).2) hb
    exact (hg.resolve_left hs).symm

/-! ### The cache -/

/-- The results of calls of `ResolveShard`, one after the other in one process. -/
def resolveCalls : RingCache → List (ShardRangeSpec × Str) → List (Except ResolveError Str)
  | _, [] => []
  | cache, (spec, key) :: calls =>
    (resolveShardIn cache spec key).1 :: resolveCalls (resolveShardIn cache spec key).2 calls

/-- Names that the separators of `ringFingerprint` do not occur in. -/
def PlainNames (spec : ShardRangeSpec) : Prop :=
  (∀ r ∈ spec.ranges, byte ',' ∉ r.shard) ∧ byte '|' ∉ spec.vindex.function.toGo

/-- Every ring in the cache was built for a spec with plain names, and is stored under its fingerprint. -/
def CacheOk (cache : RingCache) : Prop :=
  ∀ fp ring, (fp, ring) ∈ cache → ∃ spec, PlainNames spec ∧ ringFingerprint spec = fp ∧
    newConsistentHashRing spec = .ok ring

/-- The fingerprint tells apart rings whose shards have plain names. -/
theorem ringFingerprint_inj {s t : ShardRangeSpec} (hs : PlainNames s) (ht : PlainNames t)
    (hne : distinctShards [] t.ranges ≠ []) (heq : ringFingerprint s = ringFingerprint t) :
    s.vindex.function = t.vindex.function ∧ vnodes s.vindex = vnodes t.vindex ∧
      ∀ x, x ∈ distinctShards [] s.ranges ↔ x ∈ distinctShards [] t.ranges := by
  have hnm : ∀ n : Int, byte '|' ∉ itoa n := fun n hm => absurd (isNumberByte_of_mem_itoa hm) (by decide)
  simp only [ringFingerprint, append_assoc, cons_append] at heq
  obtain ⟨hfn, heq⟩ := append_sep_inj hs.2 ht.2 heq
  obtain ⟨hvn, hj⟩ := append_sep_inj (hnm _) (hnm _) heq
  have hfn' : s.vindex.function = t.vindex.function := by
    rw [← VindexHashFunction.ofGo_toGo s.vindex.function, hfn, VindexHashFunction.ofGo_toGo]
  have hvn' : vnodes s.vindex = vnodes t.vindex := by rw [vnodes, vnodes, itoa_injective hvn]
  refine ⟨hfn', hvn', ?_⟩
  -- the names have no comma, so that the joined text splits into them again
  have hp : ∀ u : ShardRangeSpec, PlainNames u →
      ∀ w ∈ (distinctShards [] u.ranges).insertionSort (· ≤ ·), w ≠ [] ∧ byte ',' ∉ w := by
    intro u hu w hw
    rw [mem_insertionSort, mem_distinctShards] at hw
    obtain ⟨hw, -, r, hr, rfl⟩ := hw
    exact ⟨hw, hu.1 r hr⟩
  have hsp : ∀ u : ShardRangeSpec, PlainNames u → distinctShards [] u.ranges ≠ [] →
      split ',' (join ',' ((distinctShards [] u.ranges).insertionSort (· ≤ ·))) =
        (distinctShards [] u.ranges).insertionSort (· ≤ ·) := by
    intro u hu hu'
    refine split_join (fun hn => hu' ?_) fun w hw => (hp u hu w hw).2
    have hpr := perm_insertionSort (· ≤ ·) (distinctShards [] u.ranges)
    rw [hn] at hpr
    exact hpr.nil_eq.symm
  by_cases hn : distinctShards [] s.ranges = []
  · have hb := hsp t ht hne
    rw [← hj, hn] at hb
    have hm : ([] : Str) ∈ (distinctShards [] t.ranges).insertionSort (· ≤ ·) := by
      rw [← hb]
      exact mem_singleton.2 rfl
    exact absurd rfl (hp t ht _ hm).1
  · have hsr := (hsp s hs hn).symm.trans ((congrArg (split ',') hj).trans (hsp t ht hne))
    intro x
    rw [← mem_insertionSort (· ≤ ·), hsr, mem_insertionSort]

variable {spec : ShardRangeSpec}

theorem known_of_ring {ring : ConsistentHashRing} (hr : newConsistentHashRing spec = .ok ring) :
    distinctShards [] spec.ranges ≠ [] ∧ ∃ hash :
      Str → UInt32, ∀ s, hashKey spec.vindex.function s = some (hash s) := by
  unfold newConsistentHashRing at hr
  split at hr
  · cases hr
  · rename_i hne
    refine ⟨hne, ?_⟩
    cases hfn : spec.vindex.function with
    | other name hn =>
      rw [hfn] at hr
      cases hr
    | _ => exact ⟨_, fun _ => rfl⟩

variable {cache : RingCache}

theorem lookup_of_cached (hc : CacheOk cache) (hpl : PlainNames spec)
    {ring : ConsistentHashRing} (hm : (ringFingerprint spec, ring) ∈ cache) :
    ∃ ring', newConsistentHashRing spec = .ok ring' ∧ ∀ h, ring'.lookup h = ring.lookup h := by
  obtain ⟨spec', hpl', hfp, hr⟩ := hc _ _ hm
  obtain ⟨hne, hash, hh⟩ := known_of_ring hr
  obtain ⟨hfn, hvn, hsh⟩ := ringFingerprint_inj hpl hpl' hne hfp.symm
  have hh' : ∀ s, hashKey spec.vindex.function s = some (hash s) := fun s => by rw [hfn, hh]
  have hne' : distinctShards [] spec.ranges ≠ [] := by
    obtain ⟨x, hx⟩ := exists_mem_of_ne_nil _ hne
    exact ne_nil_of_mem ((hsh x).2 hx)
  refine ⟨_, newConsistentHashRing_eq_ok hh' hne', fun h => ?_⟩
  rw [newConsistentHashRing_eq_ok hh hne, Except.ok.injEq] at hr
  subst hr
  rw [lookup_insertionSort_iff (ringPoints_ne_nil hne')]
  have hn : ringPoints hash (vnodes spec'.vindex) (distinctShards [] spec'.ranges) ≠ [] := ringPoints_ne_nil hne
  obtain ⟨p, hp, hs, hf⟩ := (lookup_insertionSort_iff hn (h := h)).1 rfl
  have hpo : ∀ q, q ∈ ringPoints hash (vnodes spec.vindex) (distinctShards [] spec.ranges) ↔
      q ∈ ringPoints hash (vnodes spec'.vindex) (distinctShards [] spec'.ranges) := by
    intro q
    simp only [ringPoints, mem_flatMap, hsh, hvn]
  exact ⟨p, (hpo p).2 hp, hs, fun q hq => hf q ((hpo q).1 hq)⟩

/-- A sound cache changes no answer and stays sound. -/
theorem resolveShardIn_eq (hc : CacheOk cache) (hp : PlainNames spec) (key : Str) :
    (resolveShardIn cache spec key).1 = resolveShard spec key ∧ CacheOk (resolveShardIn cache spec key).2 := by
  unfold resolveShard resolveShardIn
  cases spec.vindex.type with
  | consistentHash =>
    simp only [resolveConsistentHash, lookup_nil]
    cases hl : cache.lookup (ringFingerprint spec) with
    | some ring =>
      obtain ⟨before, after, rfl, -⟩ := lookup_eq_some_iff.1 hl
      obtain ⟨ring', hr', hs⟩ := lookup_of_cached hc hp (mem_append_right before mem_cons_self)
      simp only [hr']
      cases hashKey spec.vindex.function key with
      | none => exact ⟨rfl, hc⟩
      | some h => exact ⟨congrArg Except.ok (hs h).symm, hc⟩
    | none =>
      cases hr : newConsistentHashRing spec with
      | error e => exact ⟨rfl, hc⟩
      | ok ring =>
        have hcn : CacheOk ((ringFingerprint spec, ring) :: cache) := by
          intro fp ring' hm
          obtain heq | hm := mem_cons.1 hm
          · cases heq
            exact ⟨spec, hp, rfl, hr⟩
          · exact hc fp ring' hm
        cases hashKey spec.vindex.function key with
        | none => exact ⟨rfl, hcn⟩
        | some h => exact ⟨rfl, hcn⟩
  | _ => exact ⟨rfl, hc⟩

theorem resolveCalls_of_cacheOk (hcc : CacheOk cache) {calls : List (ShardRangeSpec × Str)}
    (hp : ∀ c ∈ calls, PlainNames c.1) : resolveCalls cache calls = calls.map fun c => resolveShard c.1 c.2 := by
  induction calls generalizing cache with
  | nil => rfl
  | cons c calls ih =>
    obtain ⟨hr, hcc'⟩ := resolveShardIn_eq hcc (hp c mem_cons_self) c.2
    rw [resolveCalls, hr, ih hcc' fun c' hc' => hp c' (mem_cons_of_mem c hc'), map_cons]

/-- The cache does not show, as long as no shard has a comma in its name and no hash function a bar. -/
theorem resolveCalls_eq (calls : List (ShardRangeSpec × Str)) (hplain : ∀ c ∈ calls, PlainNames c.1) :
    resolveCalls [] calls = calls.map fun c => resolveShard c.1 c.2 :=
  resolveCalls_of_cacheOk (fun _ _ hm => by cases hm) hplain

private def ringSpec (shards : List Str) : ShardRangeSpec where
  vindex := { type := .consistentHash, function := .murmur3, virtualNodes := 64 }
  ranges := shards.map fun s => ⟨[], [], s⟩

theorem resolveCalls_two_specs : resolveCalls [] [(ringSpec ["a"], "k"), (ringSpec ["a", "b"], "k")] =
      [resolveShard (ringSpec ["a"]) "k", resolveShard (ringSpec ["a", "b"]) "k"] :=
  resolveCalls_eq _ (by unfold PlainNames; decide)

/-- The shard `a,b` and the two shards `a` and `b` have one ring in the cache. -/
theorem cached_ring_of_other_shards : resolveShard (ringSpec ["a", "b"]) "k" ≠ .ok "a,b" ∧
      resolveCalls [] [(ringSpec ["a,b"], "k"), (ringSpec ["a", "b"], "k")] =
        [.ok "a,b", .ok "a,b"] := by
  decide +kernel

end PostgresOperator
