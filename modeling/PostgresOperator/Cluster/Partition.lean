import Mathlib.Data.List.Perm.Basic
import PostgresOperator.Cluster.Aggregate

/-!
# The pods of a shard in its status

What `aggregateShardStatusMatching` makes of the pods of a shard: each of them is listed once, a fenced one is neither
primary nor ready, a promoted primary is preferred, the order of the list settles only a choice between equals, and a
pod with the promoted marker is not called rogue.  A target of a resharding that never reports breaks these laws when
it is not the only pod that can be primary, or when it is fenced (`partition_iff`).
-/

namespace PostgresOperator.Cluster

open Go List

def ShardStatus.endpoints (s : ShardStatus) : List ShardEndpoint := s.primary.toList ++ s.replicas

namespace Aggregation

variable (g : Aggregation)

def eligible (pod : Pod) : Bool := g.counts pod || g.silentTarget pod

def marked (pod : Pod) : Bool := (parsePodStatus g.codec pod).any Status.promoted

def promotedPrimary (pod : Pod) : Bool := g.reportsPrimary pod && g.marked pod && !g.podFenced pod

def EquallyEligible (p q : Pod) : Prop :=
  g.eligible p ∧ g.eligible q ∧ g.silentTarget p = g.silentTarget q ∧ g.marked p = g.marked q

def withPods (pods : PodList) : Aggregation := { g with pods := some pods }

structure Partition : Prop where
  /-- Every pod is listed once. -/
  once : (g.aggregateShardStatusMatching.endpoints.map ShardEndpoint.pod).Perm (g.members.map Pod.name)
  /-- A fenced pod is not the primary. -/
  fenced_primary : ∀ pod ∈ g.members, g.podFenced pod → ∀ e ∈ g.aggregateShardStatusMatching.primary, e.pod ≠ pod.name
  /-- A fenced pod is not ready. -/
  fenced_ready : ∀ pod ∈ g.members, g.podFenced pod →
    ∀ e ∈ g.aggregateShardStatusMatching.endpoints, e.pod = pod.name → e.ready = false
  /-- A promoted primary is preferred. -/
  promoted : (∃ pod ∈ g.members, g.promotedPrimary pod) →
    ∃ pod ∈ g.members, g.promotedPrimary pod ∧
      g.aggregateShardStatusMatching.primary.map ShardEndpoint.pod = some pod.name
  /-- The order of the pods settles only the choice between equals. -/
  order : ∀ pods pods' : PodList, g.pods = some pods → pods'.items.Perm pods.items →
    (g.withPods pods').aggregateShardStatusMatching.endpoints.Perm g.aggregateShardStatusMatching.endpoints ∧
      ((g.withPods pods').aggregateShardStatusMatching.primary = g.aggregateShardStatusMatching.primary ∨
        ∃ p ∈ g.members, ∃ q ∈ g.members, g.EquallyEligible p q ∧
          g.aggregateShardStatusMatching.primary = some (g.listed p) ∧
          (g.withPods pods').aggregateShardStatusMatching.primary = some (g.listed q))
  /-- What is called rogue does not report the promoted marker. -/
  rogue : ∀ pod ∈ g.members, ∀ e ∈ g.aggregateShardStatusMatching.endpoints, e.pod = pod.name →
    e.reason = roguePrimaryReason → g.marked pod = false

/-- A ready target that does not report is not fenced and is the only pod that can be primary, and no pod with the
promoted marker itself reports the reason of a rogue primary. -/
structure Unambiguous : Prop where
  unfenced : ∀ s ∈ g.members, g.silentTarget s → g.podFenced s = false
  alone : ∀ s ∈ g.members, g.silentTarget s → ∀ x ∈ g.members, g.eligible x → x.name = s.name
  reason : ∀ pod ∈ g.members, ∀ st, parsePodStatus g.codec pod = some st → st.promoted →
    st.reason ≠ roguePrimaryReason

/-! ### One pod -/

variable {g}

variable {pod : Pod}

/-- A primary counts unless it is fenced, or another one is marked as promoted and it is not. -/
theorem counts_iff :
    g.counts pod ↔ g.reportsPrimary pod ∧ g.podFenced pod = false ∧ (g.promoted → g.marked pod) := by
  cases hst : parsePodStatus g.codec pod with
  | none => simp [counts, reportsPrimary, hst]
  | some st =>
    cases hf : g.podFenced pod <;> cases hp : g.promoted <;> cases hm : st.promoted <;>
      by_cases hr : st.role = .primary <;> simp [counts, reportsPrimary, rogue, marked, *]

theorem promoted_iff : g.promoted ↔ ∃ pod ∈ g.members, g.promotedPrimary pod := by
  have ha : ∀ pods, g.hasPromotedPrimary pods = pods.any fun pod => g.isMember pod && g.promotedPrimary pod := by
    intro pods
    unfold hasPromotedPrimary promotedPrimary reportsPrimary marked
    congr
    funext pod
    cases parsePodStatus g.codec pod <;> rfl
  unfold promoted members
  simp [ha, and_assoc]

theorem listed_ready_of_fenced (hf : g.podFenced pod) (hs : g.silentTarget pod = false) :
    (g.listed pod).ready = false := by
  unfold listed
  cases hst : parsePodStatus g.codec pod with
  | none => exact hs
  | some st =>
    dsimp only
    split
    · rfl
    · simp [statusEndpoint, hf]

theorem listed_reason_of_marked {st : Status} (hst : parsePodStatus g.codec pod = some st)
    (hm : st.promoted) : (g.listed pod).reason = roguePrimaryReason ↔ st.reason = roguePrimaryReason := by
  have hr : g.rogue pod = false := by simp [rogue, hst, hm]
  have hrd : podNotReadyReason ≠ roguePrimaryReason := by decide +kernel
  have hf : fencedMemberReason ≠ roguePrimaryReason := by decide +kernel
  have he : ([] : Str) ≠ roguePrimaryReason := by decide +kernel
  have he' : podNotReadyReason ≠ [] := by decide +kernel
  simp only [listed, hst, hr, statusEndpoint, ShardEndpoint.because]
  by_cases hre : st.reason = [] <;> cases kubernetesPodNotReady pod <;> cases g.podFenced pod <;>
    simp [hre, hrd, hf, he, he']

theorem eq_of_name_eq {p q : Pod} (hp : p ∈ g.members) (hq : q ∈ g.members) (h : p.name = q.name) : p = q :=
  inj_on_of_nodup_map g.members_nodup hp hq h

theorem eligible_of_candidate {c : Pod} (h : g.candidate = some c) : c ∈ g.members ∧ g.eligible c := by
  have hf : g.members.find? g.eligible = some c := h
  exact ⟨mem_of_find?_eq_some hf, find?_some hf⟩

theorem isSome_candidate (hp : pod ∈ g.members) (h : g.eligible pod) : ∃ c, g.candidate = some c := by
  rw [← Option.isSome_iff_exists, candidate, find?_isSome]
  exact ⟨pod, hp, h⟩

/-! ### All pods -/

/-- The pods that are listed: all members but the silent targets that did not become primary. -/
theorem endpoints_perm : g.aggregateShardStatusMatching.endpoints.Perm
      ((g.members.filter fun pod => (g.candidate.any fun c => c.name = pod.name) || !g.silentTarget pod).map
        g.listed) := by
  cases hc : g.candidate with
  | none =>
    obtain ⟨hpri, hr⟩ := g.aggregate_of_candidate_eq_none hc
    have hs : ∀ pod ∈ g.members, g.silentTarget pod = false := by
      intro pod hp
      have hn : (g.counts pod || g.silentTarget pod) = false := by simpa using find?_eq_none.1 hc pod hp
      exact (Bool.or_eq_false_iff.1 hn).2
    have ha : g.members.filter
        (fun pod => ((none : Option Pod).any fun c => c.name = pod.name) || !g.silentTarget pod) =
        g.members := by
      rw [filter_eq_self]
      intro pod hp
      simp [hs pod hp]
    rw [ha, ShardStatus.endpoints, hpri, hr]
    exact List.Perm.refl _
  | some c =>
    obtain ⟨before, after, hm, hb, hpri, hr⟩ := g.aggregate_split hc
    have hne := g.name_ne_of_members_eq hm
    have hk : ∀ l : List Pod, (∀ pod ∈ l, pod ∈ before ++ after) →
        l.filter (fun pod => ((some c).any fun c => c.name = pod.name) || !g.silentTarget pod) =
          l.filter fun pod => !g.silentTarget pod := by
      intro l hl
      refine filter_congr ?_
      intro pod hp
      simp [Ne.symm (hne pod (hl pod hp))]
    have hb' : before.filter (fun pod => !g.silentTarget pod) = before := by
      rw [filter_eq_self]
      intro pod hp
      simp [(Bool.or_eq_false_iff.1 (hb pod hp)).2]
    rw [ShardStatus.endpoints, hpri, hr, hm, filter_append, filter_cons_of_pos (by simp),
      hk before (by simp +contextual), hk after (by simp +contextual), hb', map_append, map_append,
      map_cons, Option.toList_some, singleton_append]
    exact perm_middle.symm

theorem endpoints_perm_iff :
    (g.aggregateShardStatusMatching.endpoints.map ShardEndpoint.pod).Perm (g.members.map Pod.name) ↔
      ∀ s ∈ g.members, g.silentTarget s → ∃ c, g.candidate = some c ∧ c.name = s.name := by
  have hn : (g.aggregateShardStatusMatching.endpoints.map ShardEndpoint.pod).Perm
      ((g.members.filter fun pod => (g.candidate.any fun c => c.name = pod.name) || !g.silentTarget pod).map
        Pod.name) := by
    have hpr := g.endpoints_perm.map ShardEndpoint.pod
    rw [map_map] at hpr
    have hc : ShardEndpoint.pod ∘ g.listed = Pod.name := funext g.listed_pod
    rwa [hc] at hpr
  have hf : (∀ s ∈ g.members, g.silentTarget s → ∃ c, g.candidate = some c ∧ c.name = s.name) ↔
      g.members.filter (fun pod => (g.candidate.any fun c => c.name = pod.name) || !g.silentTarget pod) =
        g.members := by
    rw [filter_eq_self]
    refine forall₂_congr fun s _ => ?_
    cases g.silentTarget s <;> cases g.candidate <;> simp
  rw [hf]
  constructor
  · intro hpr
    have hl := (hn.symm.trans hpr).length_eq
    rw [length_map, length_map] at hl
    exact filter_eq_self.2 (length_filter_eq_length_iff.1 hl)
  · intro heq
    rwa [heq] at hn

theorem exists_of_mem_endpoints {e : ShardEndpoint} (he : e ∈ g.aggregateShardStatusMatching.endpoints) :
    ∃ pod ∈ g.members, e = g.listed pod := by
  obtain ⟨pod, hp, rfl⟩ := mem_map.1 (g.endpoints_perm.mem_iff.1 he)
  exact ⟨pod, (mem_filter.1 hp).1, rfl⟩

theorem eq_listed (hp : pod ∈ g.members) {e : ShardEndpoint}
    (he : e ∈ g.aggregateShardStatusMatching.endpoints) (hn : e.pod = pod.name) : e = g.listed pod := by
  obtain ⟨q, hq, rfl⟩ := exists_of_mem_endpoints he
  rw [listed_pod] at hn
  rw [eq_of_name_eq hq hp hn]

theorem primary_eq : g.aggregateShardStatusMatching.primary = g.candidate.map g.listed := by
  cases hc : g.candidate with
  | none => exact (g.aggregate_of_candidate_eq_none hc).1
  | some c => exact (g.aggregate_of_candidate_eq_some hc).1

/-! ### Another order -/

section Order

variable {pods pods' : PodList} (hpd : g.pods = some pods) (hpr : pods'.items.Perm pods.items)

include hpd hpr

/-- Another order of the pods gives the same members. -/
theorem members_withPods : (g.withPods pods').members.Perm g.members := by
  unfold members withPods
  rw [hpd]
  exact hpr.filter _

theorem promoted_withPods : (g.withPods pods').promoted = g.promoted := by
  rw [Bool.eq_iff_iff, promoted_iff, promoted_iff]
  simp only [(members_withPods hpd hpr).mem_iff]
  rfl

theorem eligible_withPods (pod : Pod) : (g.withPods pods').eligible pod = g.eligible pod := by
  have hr : (g.withPods pods').rogue pod = g.rogue pod := by
    unfold rogue
    rw [promoted_withPods hpd hpr]
    rfl
  unfold eligible counts
  rw [hr]
  rfl

theorem listed_withPods : (g.withPods pods').listed = g.listed := by
  funext pod
  have hr : (g.withPods pods').rogue pod = g.rogue pod := by
    unfold rogue
    rw [promoted_withPods hpd hpr]
    rfl
  unfold listed
  rw [hr]
  rfl

theorem Unambiguous.withPods (h : g.Unambiguous) : (g.withPods pods').Unambiguous := by
  have hm : ∀ {pod}, pod ∈ (g.withPods pods').members ↔ pod ∈ g.members := (members_withPods hpd hpr).mem_iff
  constructor
  · intro s hs
    exact h.unfenced s (hm.1 hs)
  · intro s hs hl x hx hx'
    rw [eligible_withPods hpd hpr] at hx'
    exact h.alone s (hm.1 hs) hl x (hm.1 hx) hx'
  · intro pod hp
    exact h.reason pod (hm.1 hp)

end Order

/-! ### The laws -/

theorem Unambiguous.candidate (h : g.Unambiguous) {s : Pod} (hs : s ∈ g.members) (hl : g.silentTarget s) :
    ∃ c, g.candidate = some c ∧ c.name = s.name := by
  obtain ⟨c, hc⟩ := isSome_candidate hs (by simp [eligible, hl])
  obtain ⟨hm, he⟩ := eligible_of_candidate hc
  exact ⟨c, hc, h.alone s hs hl c hm he⟩

theorem Unambiguous.endpoints (h : g.Unambiguous) :
    g.aggregateShardStatusMatching.endpoints.Perm (g.members.map g.listed) := by
  have ha : g.members.filter (fun pod => (g.candidate.any fun c => c.name = pod.name) || !g.silentTarget pod) =
      g.members := by
    rw [filter_eq_self]
    intro s hs
    cases hl : g.silentTarget s with
    | false => simp
    | true =>
      obtain ⟨c, hc, hn⟩ := h.candidate hs hl
      simp [hc, hn]
  have hpr := g.endpoints_perm
  rwa [ha] at hpr

theorem Unambiguous.equallyEligible (h : g.Unambiguous) {p q : Pod} (hp : p ∈ g.members) (hq : q ∈ g.members)
    (hep : g.eligible p) (heq : g.eligible q) (hne : p.name ≠ q.name) : g.EquallyEligible p q := by
  have hs : ∀ {x y}, x ∈ g.members → y ∈ g.members → g.eligible y → x.name ≠ y.name → g.silentTarget x = false := by
    intro x y hx hy hey hxy
    by_contra hs
    exact hxy (h.alone x hx (by simpa using hs) y hy hey).symm
  have hsp := hs hp hq heq hne
  have hsq := hs hq hp hep (Ne.symm hne)
  have hcp : g.counts p := by simpa [eligible, hsp] using hep
  have hcq : g.counts q := by simpa [eligible, hsq] using heq
  refine ⟨hep, heq, by rw [hsp, hsq], ?_⟩
  by_cases hpr : g.promoted
  · rw [(counts_iff.1 hcp).2.2 hpr, (counts_iff.1 hcq).2.2 hpr]
  · -- no promoted primary: what counts as primary has no marker
    have hr : ∀ {x}, x ∈ g.members → g.counts x → g.marked x = false := by
      intro x hx hcx
      obtain ⟨hrp, hf, -⟩ := counts_iff.1 hcx
      by_contra hm
      refine hpr (promoted_iff.2 ⟨x, hx, ?_⟩)
      simp [promotedPrimary, hrp, hf, show g.marked x by simpa using hm]
    rw [hr hp hcp, hr hq hcq]

/-- If the reports are unambiguous, every pod is listed once, in whatever order the pods come. -/
theorem Unambiguous.partition (h : g.Unambiguous) : g.Partition := by
  constructor
  · exact endpoints_perm_iff.2 fun s hs hl => h.candidate hs hl
  · intro pod hd hfn e he hn
    rw [primary_eq] at he
    obtain ⟨c, hc, rfl⟩ := Option.map_eq_some_iff.1 he
    obtain ⟨hmm, hel⟩ := eligible_of_candidate hc
    rw [listed_pod] at hn
    rw [eq_of_name_eq hmm hd hn] at hel
    rcases Bool.or_eq_true_iff.1 hel with hco | hl
    · rw [(counts_iff.1 hco).2.1] at hfn
      cases hfn
    · rw [h.unfenced pod hd hl] at hfn
      cases hfn
  · intro pod hd hfn e he hn
    rw [eq_listed hd he hn]
    refine listed_ready_of_fenced hfn ?_
    by_contra hl
    rw [h.unfenced pod hd (by simpa using hl)] at hfn
    cases hfn
  · rintro ⟨pod, hd, hp⟩
    have hpro : g.promoted := promoted_iff.2 ⟨pod, hd, hp⟩
    obtain ⟨⟨hrp, hmr⟩, hfn⟩ : (g.reportsPrimary pod ∧ g.marked pod) ∧ g.podFenced pod = false := by
      simpa [promotedPrimary] using hp
    have hco : g.counts pod := counts_iff.2 ⟨hrp, hfn, fun _ => hmr⟩
    obtain ⟨c, hc⟩ := isSome_candidate hd (by simp [eligible, hco])
    obtain ⟨hmm, hel⟩ := eligible_of_candidate hc
    refine ⟨c, hmm, ?_, by rw [primary_eq, hc]; simp⟩
    rcases Bool.or_eq_true_iff.1 hel with hcc | hl
    · obtain ⟨hr, hf, hm⟩ := counts_iff.1 hcc
      simp [promotedPrimary, hr, hf, hm hpro]
    · have hn := h.alone c hmm hl pod hd (by simp [eligible, hco])
      rw [← eq_of_name_eq hd hmm hn]
      exact hp
  · intro pods pods' hpd hpr
    have hls := listed_withPods hpd hpr
    have hme := members_withPods hpd hpr
    have hen := (h.withPods hpd hpr).endpoints
    rw [hls] at hen
    refine ⟨hen.trans ((hme.map g.listed).trans h.endpoints.symm), ?_⟩
    rw [primary_eq, primary_eq, hls]
    cases hc : g.candidate with
    | none =>
      cases hc' : (g.withPods pods').candidate with
      | none => exact .inl rfl
      | some c' =>
        obtain ⟨hmm, hel⟩ := eligible_of_candidate hc'
        rw [eligible_withPods hpd hpr] at hel
        have hnn := find?_eq_none.1 hc c' (hme.mem_iff.1 hmm)
        exact absurd hel hnn
    | some c =>
      obtain ⟨hmm, hel⟩ := eligible_of_candidate hc
      cases hc' : (g.withPods pods').candidate with
      | none =>
        rw [← eligible_withPods hpd hpr] at hel
        exact absurd hel (find?_eq_none.1 hc' c (hme.mem_iff.2 hmm))
      | some c' =>
        obtain ⟨hmm', hel'⟩ := eligible_of_candidate hc'
        rw [eligible_withPods hpd hpr] at hel'
        by_cases hn : c.name = c'.name
        · rw [eq_of_name_eq hmm (hme.mem_iff.1 hmm') hn]
          exact .inl rfl
        · exact .inr ⟨c, hmm, c', hme.mem_iff.1 hmm',
            h.equallyEligible hmm (hme.mem_iff.1 hmm') hel hel' hn, rfl, rfl⟩
  · intro pod hd e he hn hre
    rw [eq_listed hd he hn] at hre
    cases hst : parsePodStatus g.codec pod with
    | none => simp [marked, hst]
    | some st =>
      by_contra hmr
      have hpro : st.promoted := by simpa [marked, hst] using hmr
      exact h.reason pod hd st hst hpro ((listed_reason_of_marked hst hpro).1 hre)

theorem exists_first {pods : PodList} {x : Pod} (hx : x ∈ pods.items) :
    ∃ pods' : PodList, pods'.items.Perm pods.items ∧ ∃ rest, pods'.items = x :: rest := by
  obtain ⟨l, l', hit⟩ := append_of_mem hx
  have hpr : (x :: (l ++ l')).Perm pods.items := hit ▸ perm_middle.symm
  exact ⟨⟨x :: (l ++ l'), (hpr.map Pod.name).nodup_iff.2 pods.nodup⟩, hpr, _, rfl⟩

/-- Ambiguous reports have an order of the pods that lists one of them wrongly. -/
theorem Partition.unambiguous (h : g.Partition) : g.Unambiguous := by
  have hpri := endpoints_perm_iff.1 h.once
  constructor
  · intro s hs hl
    obtain ⟨c, hc, hn⟩ := hpri s hs hl
    by_contra hfn
    refine h.fenced_primary s hs (by simpa using hfn) (g.listed c) ?_ ?_
    · rw [primary_eq, hc]
      rfl
    · rw [listed_pod, hn]
  · intro s hs hl x hx hel
    cases hpd : g.pods with
    | none => simp [members, hpd] at hs
    | some pods =>
      -- with `x` in front of the list it is the primary, and then `s` is left out
      have hxp : x ∈ pods.items := by
        have hm := (mem_filter.1 hx).1
        rwa [hpd] at hm
      obtain ⟨pods', hpr, rest, hit⟩ := exists_first hxp
      have hme := members_withPods hpd hpr
      have hf : (g.withPods pods').candidate = some x := by
        have hsp : (g.withPods pods').members = x :: rest.filter g.isMember := by
          change filter g.isMember pods'.items = _
          rw [hit, filter_cons_of_pos (g.isMember_of_mem hx)]
        have hel' := eligible_withPods hpd hpr x
        rw [hel] at hel'
        rw [candidate, hsp]
        exact find?_cons_of_pos hel'
      have ho : ((g.withPods pods').aggregateShardStatusMatching.endpoints.map ShardEndpoint.pod).Perm
          ((g.withPods pods').members.map Pod.name) :=
        (((h.order pods pods' hpd hpr).1.map _).trans h.once).trans (hme.map _).symm
      obtain ⟨c, hc, hn⟩ := endpoints_perm_iff.1 ho s (hme.mem_iff.2 hs) hl
      rw [hf] at hc
      cases hc
      exact hn
  · intro pod hp st hst hpro hre
    have hls : pod.name ∈ g.aggregateShardStatusMatching.endpoints.map ShardEndpoint.pod :=
      h.once.mem_iff.2 (mem_map_of_mem hp)
    obtain ⟨e, he, hn⟩ := mem_map.1 hls
    have hr : e.reason = roguePrimaryReason := by
      rw [eq_listed hp he hn]
      exact (listed_reason_of_marked hst hpro).2 hre
    have hmr := h.rogue pod hp e he hn hr
    simp [marked, hst, hpro] at hmr

end Aggregation

/-- The laws hold exactly if every ready target without a report is unfenced and the only pod that can be primary, and
no pod with the promoted marker reports the reason of a rogue primary. -/
theorem partition_iff (g : Aggregation) : g.Partition ↔ g.Unambiguous :=
  ⟨Aggregation.Partition.unambiguous, Aggregation.Unambiguous.partition⟩

def targetPod (name report : String) (h : str name ≠ [] := by decide +kernel) : Pod where
  name := str name
  labels key := if key = reshardTargetLabelKey then "t1" else []
  annotations key := if key = annotationKey ∧ report ≠ "" then some (str report) else none
  name_ne := h

def promotedCodec : Codec where
  unmarshalStatus raw := if raw = "promoted" then some { role := .primary, promoted := true, ready := true } else none
  parseTime _ := none
  formatTime _ := []

def targetShard (pods : PodList) (pvcs : List PersistentVolumeClaim) : Aggregation :=
  ShardView.aggregation { kind := .named "t1", pods := some pods, pvcs := some pvcs, now := 0 } promotedCodec
    demoCluster

/-- Of two ready targets without a report the second is not listed; a fenced one is the primary and ready; and one
that comes first in the list is preferred to a promoted primary. -/
theorem silent_targets :
    (targetShard ⟨[targetPod "a" "", targetPod "b" ""], by decide +kernel⟩
      []).aggregateShardStatusMatching.endpoints.map
      ShardEndpoint.pod = [str "a"] ∧
    (targetShard ⟨[targetPod "a" ""], by decide +kernel⟩
      [{ name := "data-a", labels := fun key => if key = fenceLabelKey then fenceLabelValue else [] }]
      ).aggregateShardStatusMatching.primary.map (fun e => (e.pod, e.ready)) = some (str "a", true) ∧
    (targetShard ⟨[targetPod "a" "", targetPod "b" "promoted"], by decide +kernel⟩
      []).aggregateShardStatusMatching.primary.map
      ShardEndpoint.pod = some (str "a") := by
  decide +kernel

end PostgresOperator.Cluster
