import Mathlib.Algebra.Group.Int.Defs
import PostgresOperator.Cluster.Failover
import PostgresOperator.Cluster.Reseed
import PostgresOperator.Go.Decimal

/-!
# The failback guard

`shouldSkipFencedCandidate`: a candidate whose claim is fenced is not promoted while another member is not fenced,
unless the position of its write-ahead log is far ahead.  The members of a StatefulSet are found by the beginning of
the name of their claims, and the positions are read from the status of their pods; a pod that cannot be read has no
position, and a status without a position, or one that the operator has written itself, has position zero.
-/

namespace PostgresOperator.Cluster

open Go List

/-! ### Names -/

def statefulSetNameFromPod (pod : Str) : Str :=
  match splitLast '-' pod with
  | none => []
  | some (sts, ordinal) => if sts = [] ∨ ordinal = [] ∨ ordinal.any (fun c => !isDigitByte c) then [] else sts

def memberPod (sts : Str) (n : Nat) : Str := sts ++ "-" ++ itoaNat n

/-- `pvcPrefix`, what the names of the claims of a StatefulSet begin with. -/
def pvcStart (sts : Str) : Str := "data-" ++ sts ++ "-"

theorem splitLast_memberPod (sts : Str) (n : Nat) : splitLast '-' (memberPod sts n) = some (sts, itoaNat n) := by
  have hd : byte '-' ∉ itoaNat n := fun hm => absurd (isDigitByte_of_mem_itoaNat hm) (by decide)
  rw [memberPod, append_assoc]
  exact splitLast_append sts hd

variable {sts : Str}

/-- The name of a member gives back that of its set. -/
theorem statefulSetNameFromPod_memberPod (h : sts ≠ []) (n : Nat) :
    statefulSetNameFromPod (memberPod sts n) = sts := by
  have ha : (itoaNat n).any (fun c => !isDigitByte c) = false := by
    rw [any_eq_false]
    intro c hc
    simp [isDigitByte_of_mem_itoaNat hc]
  simp [statefulSetNameFromPod, splitLast_memberPod, h, itoaNat_ne_nil, ha]

theorem isPrefixOf_dataPvc {pod : Str} (h : statefulSetNameFromPod pod ≠ []) :
    (pvcStart (statefulSetNameFromPod pod)).isPrefixOf (dataPvc pod) := by
  unfold statefulSetNameFromPod at h ⊢
  cases hs : splitLast '-' pod with
  | none => simp [hs] at h
  | some x =>
    obtain ⟨sts, ordinal⟩ := x
    rw [hs] at h
    dsimp only at h ⊢
    split at h
    · exact absurd rfl h
    · rename_i hc
      rw [if_neg hc, isPrefixOf_iff_prefix, eq_append_of_splitLast hs]
      exact ⟨ordinal, by simp [pvcStart, dataPvc, str, byte]⟩

theorem memberPod_inj {m n : Nat} (h : memberPod sts m = memberPod sts n) : m = n :=
  itoaNat_injective (append_cancel_left h)

/-! ### Claims -/

structure ClaimList where
  items : List PersistentVolumeClaim
  nodup : (items.map PersistentVolumeClaim.name).Nodup

def PersistentVolumeClaim.fenced (pvc : PersistentVolumeClaim) : Bool := pvc.labels fenceLabelKey = fenceLabelValue

structure Fences where
  candidateFenced : Bool := false
  unfencedMembers : List Str := []

def guardStep (sts candidatePod : Str) (f : Fences) (pvc : PersistentVolumeClaim) : Fences :=
  if !(pvcStart sts).isPrefixOf pvc.name then f
  else
    { candidateFenced := if pvc.name = dataPvc candidatePod then pvc.fenced else f.candidateFenced
      unfencedMembers :=
      if !pvc.fenced then f.unfencedMembers ++ [pvc.name.drop (str "data-").length] else f.unfencedMembers }

structure GuardReads where
  list : Except ApiError (List PersistentVolumeClaim)
  get : Str → Except ApiError Pod

def reportedWALPosition (codec : Codec) (reads : GuardReads) (podName : Str) : Int :=
  match reads.get podName with
  | .error _ => -1
  | .ok pod => match parsePodStatus codec pod with
    | none => -1
    | some st => st.walLsnBytes

def promotionFreshnessLeadBytes : Int := 2 ^ 30

def servingWAL (codec : Codec) (reads : GuardReads) (unfencedMembers : List Str) : Int :=
  unfencedMembers.foldl
    (fun best pod => if best < reportedWALPosition codec reads pod then reportedWALPosition codec reads pod else best)
    (-1)

def shouldSkipFencedCandidate (codec : Codec) (reads : GuardReads) (candidatePod : Str) : Bool × Option ApiError :=
  let stsName := statefulSetNameFromPod candidatePod
  if stsName = [] then (false, none)
  else match reads.list with
    | .error e => (false, some e)
    | .ok pvcs =>
      let f := pvcs.foldl (guardStep stsName candidatePod) {}
      if !f.candidateFenced || f.unfencedMembers.length = 0 then (false, none)
      else
        let candWAL := reportedWALPosition codec reads candidatePod
        if candWAL < 0 then (true, none)
        else
          let serving := servingWAL codec reads f.unfencedMembers
          if serving < 0 then (true, none)
          else if promotionFreshnessLeadBytes ≤ candWAL - serving then (false, none)
          else (true, none)

/-! ### What the guard does -/

def countedMembers (sts : Str) (pvcs : List PersistentVolumeClaim) : List Str :=
  (pvcs.filter fun pvc => (pvcStart sts).isPrefixOf pvc.name && !pvc.fenced).map fun pvc =>
    pvc.name.drop (str "data-").length

def Leads (codec : Codec) (reads : GuardReads) (members : List Str) (candidatePod : Str) : Prop :=
  (∃ pod ∈ members, 0 ≤ reportedWALPosition codec reads pod) ∧
    ∀ pod ∈ members, reportedWALPosition codec reads pod + promotionFreshnessLeadBytes ≤
      reportedWALPosition codec reads candidatePod

theorem foldl_guardStep (sts candidatePod : Str) (pvcs : List PersistentVolumeClaim) (f : Fences) :
    (pvcs.foldl (guardStep sts candidatePod) f).unfencedMembers = f.unfencedMembers ++ countedMembers sts pvcs := by
  induction pvcs generalizing f with
  | nil => simp [countedMembers]
  | cons pvc pvcs ih =>
    rw [foldl_cons, ih]
    unfold guardStep countedMembers
    cases hs : (pvcStart sts).isPrefixOf pvc.name <;> cases hf : pvc.fenced <;> simp [hs, hf]

theorem candidateFenced_eq {candidatePod : Str} {pvcs : List PersistentVolumeClaim} {pvc : PersistentVolumeClaim}
    (hs : (pvcStart sts).isPrefixOf (dataPvc candidatePod))
    (hn : (pvcs.map PersistentVolumeClaim.name).Nodup) (hp : pvc ∈ pvcs) (hnm : pvc.name = dataPvc candidatePod)
    (f : Fences) :
    (pvcs.foldl (guardStep sts candidatePod) f).candidateFenced = pvc.fenced := by
  have ho : ∀ (l : List PersistentVolumeClaim) (f : Fences), (∀ x ∈ l, x.name ≠ dataPvc candidatePod) →
      (l.foldl (guardStep sts candidatePod) f).candidateFenced = f.candidateFenced := by
    intro l
    induction l with
    | nil => simp
    | cons x l ih =>
      intro f hl
      rw [foldl_cons, ih _ fun y hy => hl y (by simp [hy])]
      unfold guardStep
      rw [if_neg (hl x (by simp))]
      split <;> rfl
  obtain ⟨before, after, rfl⟩ := append_of_mem hp
  rw [map_append, map_cons, nodup_middle, nodup_cons, ← map_append] at hn
  have ha : ∀ x ∈ after, x.name ≠ dataPvc candidatePod := by
    intro x hx heq
    exact hn.1 (hnm ▸ heq ▸ mem_map_of_mem (mem_append_right _ hx))
  rw [foldl_append, foldl_cons, ho after _ ha]
  unfold guardStep
  rw [hnm, hs, Bool.not_true, if_neg (by simp), if_pos rfl]

/-- The position that is compared is the highest that an open member reports. -/
theorem servingWAL_spec (codec : Codec) (reads : GuardReads) (members : List Str) :
    (∀ pod ∈ members, reportedWALPosition codec reads pod ≤ servingWAL codec reads members) ∧
      (servingWAL codec reads members = -1 ∨
        ∃ pod ∈ members, reportedWALPosition codec reads pod = servingWAL codec reads members) := by
  induction members using reverseRecOn with
  | nil => exact ⟨by simp, Or.inl rfl⟩
  | append_singleton members pod ih =>
    obtain ⟨hle, hf⟩ := ih
    unfold servingWAL at hle hf ⊢
    rw [foldl_concat]
    split
    · rename_i hlt
      refine ⟨?_, Or.inr ⟨pod, by simp, rfl⟩⟩
      intro x hx
      rcases mem_append.1 hx with hx | hx
      · have := hle x hx
        omega
      · rw [mem_singleton.1 hx]
    · rename_i hge
      constructor
      · intro x hx
        rcases mem_append.1 hx with hx | hx
        · exact hle x hx
        · rw [mem_singleton.1 hx]
          omega
      · rcases hf with h | ⟨x, hx, h⟩
        · exact .inl h
        · exact .inr ⟨x, by simp [hx], h⟩

variable {codec : Codec}

/-- When a candidate passes for the leader. -/
theorem leads_iff {reads : GuardReads} {members : List Str} {candidatePod : Str} :
    Leads codec reads members candidatePod ↔ 0 ≤ reportedWALPosition codec reads candidatePod ∧
      0 ≤ servingWAL codec reads members ∧
      promotionFreshnessLeadBytes ≤
        reportedWALPosition codec reads candidatePod - servingWAL codec reads members := by
  obtain ⟨hle, hf⟩ := servingWAL_spec codec reads members
  have hl : 0 ≤ promotionFreshnessLeadBytes := by decide
  constructor
  · rintro ⟨⟨pod, hp, hps⟩, hal⟩
    have hs : 0 ≤ servingWAL codec reads members := hps.trans (hle pod hp)
    obtain ⟨best, hb, heq⟩ := hf.resolve_left (by omega)
    have hb' := hal best hb
    refine ⟨?_, hs, ?_⟩ <;> omega
  · rintro ⟨-, hs, ha⟩
    obtain ⟨best, hb, heq⟩ := hf.resolve_left (by omega)
    refine ⟨⟨best, hb, by omega⟩, ?_⟩
    intro pod hp
    have := hle pod hp
    omega

/-- The guard skips a fenced candidate beside an open member, unless it leads. -/
theorem shouldSkip_iff {reads : GuardReads} {pod : Str} {claims : ClaimList}
    (hsts : statefulSetNameFromPod pod ≠ []) (hl : reads.list = .ok claims.items) {pvc : PersistentVolumeClaim}
    (hp : pvc ∈ claims.items) (hn : pvc.name = dataPvc pod) :
    (shouldSkipFencedCandidate codec reads pod).1 ↔
      pvc.fenced ∧ countedMembers (statefulSetNameFromPod pod) claims.items ≠ [] ∧
        ¬ Leads codec reads (countedMembers (statefulSetNameFromPod pod) claims.items) pod := by
  have hc := candidateFenced_eq (isPrefixOf_dataPvc hsts) claims.nodup hp hn {}
  have hco := foldl_guardStep (statefulSetNameFromPod pod) pod claims.items {}
  rw [nil_append] at hco
  unfold shouldSkipFencedCandidate
  rw [if_neg hsts, hl, leads_iff]
  dsimp only
  rw [hc, hco]
  cases pvc.fenced with
  | false => simp
  | true =>
    by_cases hnl : countedMembers (statefulSetNameFromPod pod) claims.items = []
    · simp [hnl]
    · simp only [Bool.not_true, Bool.false_or, decide_eq_true_eq, length_eq_zero_iff, hnl, if_false, ne_eq,
        not_false_eq_true, true_and]
      split
      · simp only [true_iff]
        omega
      split
      · simp only [true_iff]
        omega
      split
      · simp only [Bool.false_eq_true, false_iff, not_not]
        omega
      · simp only [true_iff]
        omega

/-! ### Measured positions -/

def promotedStatus (endpoint : Str) (now : Int) : Status :=
  { role := .primary, ready := true, endpoint, lagBytes := 0, lastUpdate := now }

/-- The claims and the pods of a namespace.  `measured` is the position that the instance manager of a pod has
measured and reported.  A status without one has position -1, which says so, or position 0: the field is not there, or
the operator wrote the status (`promotedStatus`). -/
structure Namespace (codec : Codec) where
  claims : ClaimList
  pod : Str → Option Pod
  measured : Str → Option Nat
  status_of_measured : ∀ name n, measured name = some n →
    ∃ p st, pod name = some p ∧ parsePodStatus codec p = some st ∧ st.walLsnBytes = n
  status_of_unmeasured : ∀ name p st, measured name = none → pod name = some p → parsePodStatus codec p = some st →
    st.walLsnBytes = -1 ∨ st.walLsnBytes = 0

structure ReadErrors where
  list : Option ApiError := none
  get : Str → Option ApiError := fun _ => none

namespace Namespace

variable {codec : Codec} (s : Namespace codec)

def reads (errors : ReadErrors) : GuardReads where
  list := match errors.list with
    | some e => .error e
    | none => .ok s.claims.items
  get name := match errors.get name with
    | some e => .error e
    | none => match s.pod name with
      | some pod => .ok pod
      | none => .error (.notFound name)

def UnfencedMember (sts pod : Str) : Prop :=
  (∃ n, pod = memberPod sts n) ∧ ∃ pvc ∈ s.claims.items, pvc.name = dataPvc pod ∧ pvc.fenced = false

/-- The candidate and an unfenced member have measured positions, and that of the candidate leads all of them. -/
def Evidence (sts candidatePod : Str) : Prop :=
  ∃ c, s.measured candidatePod = some c ∧ (∃ pod, s.UnfencedMember sts pod ∧ (s.measured pod).isSome) ∧
    ∀ pod n, s.UnfencedMember sts pod → s.measured pod = some n → (n : Int) + promotionFreshnessLeadBytes ≤ c

/-- The positions that count are measured and can be read: an unfenced member has a measured position, and the pod of
every unfenced member that has one was read. -/
def Readable (errors : ReadErrors) (sts : Str) : Prop :=
  (∃ pod, s.UnfencedMember sts pod ∧ (s.measured pod).isSome) ∧
    ∀ pod, s.UnfencedMember sts pod → (s.measured pod).isSome → errors.get pod = none

/-- What the guard reads is enough for it: the claims could be listed, and the candidate shows no position of its own
or those of the unfenced members are `Readable`. -/
def ReadsEnough (errors : ReadErrors) (sts candidatePod : Str) : Prop :=
  errors.list = none ∧
    (errors.get candidatePod ≠ none ∨ s.measured candidatePod = none ∨ s.Readable errors sts)

variable {s}

variable {errors : ReadErrors} {pod : Str}

theorem reported_of_measured {n : Nat} (hg : errors.get pod = none)
    (h : s.measured pod = some n) : reportedWALPosition codec (s.reads errors) pod = n := by
  obtain ⟨p, st, hp, hst, hw⟩ := s.status_of_measured pod n h
  simp [reportedWALPosition, reads, hg, hp, hst, hw]

/-- A position above zero was measured by the pod itself. -/
theorem measured_of_reported (h : 0 < reportedWALPosition codec (s.reads errors) pod) :
    ∃ n, s.measured pod = some n ∧ reportedWALPosition codec (s.reads errors) pod = n := by
  cases hg : errors.get pod with
  | some e => simp [reportedWALPosition, reads, hg] at h
  | none =>
    cases hm : s.measured pod with
    | some n => exact ⟨n, rfl, reported_of_measured hg hm⟩
    | none =>
      exfalso
      cases hp : s.pod pod with
      | none => simp [reportedWALPosition, reads, hg, hp] at h
      | some p =>
        cases hst : parsePodStatus codec p with
        | none => simp [reportedWALPosition, reads, hg, hp, hst] at h
        | some st =>
          simp only [reportedWALPosition, reads, hg, hp, hst] at h
          rcases s.status_of_unmeasured pod p st hm hp hst with hw | hw <;> omega

theorem mem_countedMembers {sts : Str} (h : s.UnfencedMember sts pod) : pod ∈ countedMembers sts s.claims.items := by
  obtain ⟨⟨n, rfl⟩, pvc, hp, hn, hf⟩ := h
  refine mem_map.2 ⟨pvc, mem_filter.2 ⟨hp, ?_⟩, ?_⟩
  · rw [hn, hf, Bool.not_false, Bool.and_true, isPrefixOf_iff_prefix]
    exact ⟨itoaNat n, by simp [pvcStart, dataPvc, memberPod]⟩
  · rw [hn, dataPvc, drop_left]

theorem reported_of_leads {members : List Str} {candidatePod : Str}
    (h : Leads codec (s.reads errors) members candidatePod) :
    0 < reportedWALPosition codec (s.reads errors) candidatePod := by
  obtain ⟨⟨pod, hp, hps⟩, ha⟩ := h
  have hl : 0 < promotionFreshnessLeadBytes := by decide
  have := ha pod hp
  omega

/-- A candidate that leads all that was read has the evidence, if what was read is enough. -/
theorem evidence_of_leads {sts candidatePod : Str} (he : s.ReadsEnough errors sts candidatePod)
    (h : Leads codec (s.reads errors) (countedMembers sts s.claims.items) candidatePod) :
    s.Evidence sts candidatePod := by
  have hpos := reported_of_leads h
  obtain ⟨c, hc, hr⟩ := measured_of_reported hpos
  have hrd : s.Readable errors sts := by
    rcases he.2 with hg | hm | hrd
    · -- a pod that could not be read has no position to lead with
      obtain ⟨e, he⟩ := Option.ne_none_iff_exists'.1 hg
      simp [reportedWALPosition, reads, he] at hpos
    · rw [hm] at hc
      cases hc
    · exact hrd
  refine ⟨c, hc, hrd.1, ?_⟩
  intro pod n hp hn
  have hg : errors.get pod = none := hrd.2 pod hp (by rw [hn]; rfl)
  have hb := h.2 pod (mem_countedMembers hp)
  rwa [reported_of_measured hg hn, hr] at hb

end Namespace

/-! ### The failover part of Reconcile -/

def reconcileFailover (codec : Codec) (reads : GuardReads) (pending : Pending) (o : Observation) :
    Pending × Option (Str × Decision) :=
  Observation.failover pending
    { o with skipFenced := o.decision.2.promotionCandidate.any fun c =>
      (shouldSkipFencedCandidate codec reads c.pod).1 }

def Observation.Due (pending : Pending) (o : Observation) : Prop :=
  (shouldPromoteAfterDebounce pending o.cluster.key o.detected (o.cluster.phase = .ready) o.now).1

theorem reconcileFailover_isSome {reads : GuardReads} {pending : Pending} {o : Observation} {c : ShardEndpoint}
    (hc : o.decision.2.promotionCandidate = some c) :
    (reconcileFailover codec reads pending o).2.isSome ↔
      o.Due pending ∧ (shouldSkipFencedCandidate codec reads c.pod).1 = false := by
  unfold reconcileFailover Observation.failover Observation.Due
  simp only [hc, Option.any_some]
  cases hs : (shouldSkipFencedCandidate codec reads c.pod).1 <;>
    cases hd : (shouldPromoteAfterDebounce pending o.cluster.key o.detected (o.cluster.phase = .ready) o.now).1 <;>
      simp_all [Observation.detected, Observation.decision]

def walPod (name report : String) (h : str name ≠ [] := by decide +kernel) : Pod where
  name := str name
  annotations key := if key = annotationKey then some (str report) else none
  name_ne := h

def walPosition (raw : Str) : Option Nat :=
  if raw = "ahead" then some (2 ^ 31) else if raw = "behind" then some 5 else none

def walCodec : Codec where
  unmarshalStatus raw := match walPosition raw with
    | some n => some { role := .replica, walLsnBytes := n }
    | none => if raw = "promoted" then some (promotedStatus [] 0) else none
  parseTime _ := none
  formatTime _ := []

theorem parsePodStatus_walPod {name report : String} {h : str name ≠ []} :
    parsePodStatus walCodec (walPod name report h) =
      if str report = [] then none else walCodec.unmarshalStatus (str report) := by
  simp [parsePodStatus, walPod]

def fencedClaim (pod : String) : PersistentVolumeClaim where
  name := dataPvc (str pod)
  labels key := if key = fenceLabelKey then fenceLabelValue else []

def openClaim (pod : String) : PersistentVolumeClaim := { name := dataPvc (str pod) }

theorem nodup_twoClaims :
    ([fencedClaim "demo-shard-0-0", openClaim "demo-shard-0-1"].map PersistentVolumeClaim.name).Nodup := by
  decide +kernel

def twoMembers (report₀ report₁ : String) : Namespace walCodec where
  claims := ⟨[fencedClaim "demo-shard-0-0", openClaim "demo-shard-0-1"], nodup_twoClaims⟩
  pod name :=
    if name = "demo-shard-0-0" then some (walPod "demo-shard-0-0" report₀ firstPod_ne)
    else if name = "demo-shard-0-1" then some (walPod "demo-shard-0-1" report₁ secondPod_ne)
    else none
  measured name :=
    if name = "demo-shard-0-0" then walPosition (str report₀)
    else if name = "demo-shard-0-1" then walPosition (str report₁)
    else none
  status_of_measured := by
    have hpod : ∀ (name report : String) (h : str name ≠ []) n, walPosition (str report) = some n →
        ∃ st, parsePodStatus walCodec (walPod name report h) = some st ∧ st.walLsnBytes = n := by
      intro name report h n hn
      have hne : str report ≠ [] := by
        intro hnil
        have hnone : walPosition [] = none := by decide +kernel
        rw [hnil, hnone] at hn
        cases hn
      exact ⟨{ role := .replica, walLsnBytes := n },
        by rw [parsePodStatus_walPod, if_neg hne]; simp [walCodec, hn], rfl⟩
    intro name n h
    by_cases h₀ : name = "demo-shard-0-0"
    · rw [if_pos h₀] at h ⊢
      obtain ⟨st, hst, hwal⟩ := hpod "demo-shard-0-0" report₀ (by decide +kernel) n h
      exact ⟨_, st, rfl, hst, hwal⟩
    rw [if_neg h₀] at h ⊢
    by_cases h₁ : name = "demo-shard-0-1"
    · rw [if_pos h₁] at h ⊢
      obtain ⟨st, hst, hwal⟩ := hpod "demo-shard-0-1" report₁ (by decide +kernel) n h
      exact ⟨_, st, rfl, hst, hwal⟩
    · rw [if_neg h₁] at h
      cases h
  status_of_unmeasured := by
    have hpod : ∀ (name report : String) (h : str name ≠ []) st, walPosition (str report) = none →
        parsePodStatus walCodec (walPod name report h) = some st → st.walLsnBytes = -1 ∨ st.walLsnBytes = 0 := by
      intro name report h st hn hst
      rw [parsePodStatus_walPod] at hst
      split at hst
      · cases hst
      · simp only [walCodec, hn] at hst
        split at hst
        · cases hst
          exact .inr rfl
        · cases hst
    intro name p st hm hp hst
    by_cases h₀ : name = "demo-shard-0-0"
    · rw [if_pos h₀] at hm hp
      cases hp
      exact hpod _ _ _ st hm hst
    rw [if_neg h₀] at hm hp
    by_cases h₁ : name = "demo-shard-0-1"
    · rw [if_pos h₁] at hm hp
      cases hp
      exact hpod _ _ _ st hm hst
    · rw [if_neg h₁] at hp
      cases hp

def tenSecondsDown : Observation where
  cluster := demoCluster
  shards := [{ name := "shard-0", ordinal := 0, replicas := [readyReplica "demo-shard-0-0" 0] }]
  now := 10 * second

end PostgresOperator.Cluster
