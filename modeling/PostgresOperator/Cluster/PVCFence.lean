import PostgresOperator.Go.Strings

/-!
# The fence decisions of the PVC runbook

`DecidePVCFence` of `internal/controller/failover/pvc_fence_runbook.go`.  It compares the names of the pods with the
holder of the lease, and the instance manager writes its pod and its UID there (`buildElectionIdentity`), so no pod is
ever found to be the holder (`fence_keeps_holder_iff`).
-/

namespace PostgresOperator.Cluster

open Go List

def buildElectionIdentity (podName podUID : Str) : Str := podName ++ "/" ++ podUID

inductive PVCFenceReason
  | splitBrain
  | staleLease
  | multiAttach
  deriving DecidableEq

structure PVCFenceDecision where
  pvcName : Str
  podName : Str
  shouldFence : Bool
  reason : Option PVCFenceReason

structure PVCFenceMountedPod where
  name : Str
  instanceRole : Str := []
  ready : Bool := true

/-- `PVCFenceInput`; times are in nanoseconds, and `none` is the zero time. -/
structure PVCFenceInput where
  pvcName : Str := []
  mountedPods : List PVCFenceMountedPod
  leaseHolderIdentity : Str
  leaseRenewTime : Option Int := none
  leaseDurationSeconds : Int32 := 0
  now : Int := 0
  csiControllerReportsMultiAttach : Bool := false

namespace PVCFenceInput

variable (input : PVCFenceInput)

def primaryPods : List PVCFenceMountedPod := input.mountedPods.filter fun p => p.instanceRole = "primary" ∧ p.ready

def leaseStale : Bool :=
  match input.leaseRenewTime with
  | none => false
  | some renew => input.leaseDurationSeconds ≠ 0 ∧ renew + input.leaseDurationSeconds.toInt * 1000000000 < input.now

def decidePVCFence : List PVCFenceDecision :=
  if input.csiControllerReportsMultiAttach then
    input.mountedPods.map fun p => ⟨input.pvcName, p.name, true, some .multiAttach⟩
  else if 2 ≤ input.primaryPods.length then
    input.primaryPods.map fun p => ⟨input.pvcName, p.name, p.name ≠ input.leaseHolderIdentity, some .splitBrain⟩
  else
    match input.primaryPods with
    | [p] =>
      if input.leaseStale ∧ p.name ≠ input.leaseHolderIdentity then [⟨input.pvcName, p.name, true, some .staleLease⟩]
      else input.mountedPods.map fun p => ⟨input.pvcName, p.name, false, none⟩
    | _ => input.mountedPods.map fun p => ⟨input.pvcName, p.name, false, none⟩

def fenced : List Str := (input.decidePVCFence.filter (·.shouldFence)).map (·.podName)

def primaries : List Str := input.primaryPods.map (·.name)

theorem fenced_none {pvc : Str} (pods : List PVCFenceMountedPod) :
    ((pods.map fun p => (⟨pvc, p.name, false, none⟩ : PVCFenceDecision)).filter (·.shouldFence)).map
    (·.podName) = [] := by
  simp

/-- Without the report of the CSI driver, the primaries other than the holder are fenced when there are two or the
lease is stale. -/
theorem fenced_eq (hcsi : input.csiControllerReportsMultiAttach = false) : input.fenced =
    if 2 ≤ input.primaries.length ∨ input.leaseStale then input.primaries.filter
      (· ≠ input.leaseHolderIdentity) else [] := by
  unfold fenced decidePVCFence primaries
  rw [hcsi, if_neg Bool.false_ne_true, length_map]
  split
  · rename_i h
    rw [if_pos (.inl h), filter_map, filter_map, map_map]
    rfl
  · rename_i h
    split
    · rename_i p hp
      rw [hp]
      by_cases hs : input.leaseStale
      · by_cases hn : p.name = input.leaseHolderIdentity <;> simp [hs, hn]
      · simp [hs]
    · rename_i hp
      rw [fenced_none]
      cases hl : input.primaryPods with
      | nil => simp
      | cons p ps =>
        cases ps with
        | nil => exact absurd hl (hp p)
        | cons q qs =>
          rw [hl] at h
          exact absurd (by simp) h

end PVCFenceInput

theorem ne_buildElectionIdentity (pod uid : Str) : pod ≠ buildElectionIdentity pod uid := by
  intro h
  have hl := congrArg length h
  simp only [buildElectionIdentity, length_append, show (str "/").length = 1 by decide] at hl
  omega

/-- Without a report of the CSI controller: the holder of the lease is kept, only the others are fenced if there are
several primaries with the holder among them, and nobody is with a fresh lease and at most one primary, exactly if the
holder is no Ready primary, or is the only one and its lease is fresh. -/
theorem fence_keeps_holder_iff (pods : List PVCFenceMountedPod) (pvc pod uid : Str) (renew : Option Int)
    (seconds : Int32)
    (now : Int) :
    let input : PVCFenceInput := ⟨pvc, pods, buildElectionIdentity pod uid, renew, seconds, now, false⟩
    (pod ∉ input.fenced ∧
        (2 ≤ input.primaries.length → pod ∈ input.primaries → input.fenced = input.primaries.filter (· ≠ pod)) ∧
        (input.leaseStale = false → input.primaries.length ≤ 1 → input.fenced = [])) ↔
      (pod ∈ input.primaries → input.primaries.length = 1 ∧ input.leaseStale = false) := by
  intro input
  have hf := input.fenced_eq rfl
  constructor
  · rintro ⟨hk, -, -⟩ hm
    rw [hf] at hk
    have hpos := length_pos_of_mem hm
    split at hk
    · have : pod ∈ input.primaries.filter (· ≠ input.leaseHolderIdentity) :=
        mem_filter.2 ⟨hm, decide_eq_true (ne_buildElectionIdentity pod uid)⟩
      exact absurd this hk
    · rename_i h
      rw [not_or, Bool.not_eq_true] at h
      exact ⟨by omega, h.2⟩
  · intro h
    refine ⟨?_, ?_, ?_⟩
    · rw [hf]
      split
      · rename_i hc
        intro hm
        obtain ⟨hl, hs⟩ := h (mem_of_mem_filter hm)
        rw [hs, hl] at hc
        simp at hc
      · exact not_mem_nil
    · intro hl hm
      have := (h hm).1
      omega
    · intro hs hl
      rw [hf, hs]
      simp only [Bool.false_eq_true, or_false, ite_eq_right_iff]
      omega

/-- Of two primaries both are fenced, the holder `a` too. -/
theorem holder_is_fenced :
    let input : PVCFenceInput :=
      { mountedPods := [⟨"a", "primary", true⟩, ⟨"b", "primary", true⟩],
        leaseHolderIdentity := buildElectionIdentity "a" "u" }
    input.csiControllerReportsMultiAttach = false ∧ input.primaries = [str "a", str "b"] ∧
      str "a" ∈ input.fenced := by
  decide +kernel

end PostgresOperator.Cluster
