import Mathlib.Algebra.Group.Int.Defs
import PostgresOperator.Go.Strings

/-!
# The triggers of an automatic split

`autoSplitTriggerBreached`, `pvcUtilizationBreached` and `autoSplitDuration` of `internal/controller/autosplit.go`.
The comparison of a ratio with a percentage is done with products of 64-bit numbers, and the window is counted in
nanoseconds, so both are exact as long as these products fit (`triggers_exact_iff`).
-/

namespace PostgresOperator

open Go

structure AutoSplitTriggers where
  sizeThresholdGB : Int32 := 0
  p99LatencyMs : Int32 := 0
  cpuPercent : Int32 := 0
  pvcUtilizationPercent : Int32 := 0
  durationMinutes : Int32 := 0

structure ShardObservation where
  shardID : Str := []
  sizeBytes : Int64 := 0
  cpuPercent : Int32 := 0
  p99LatencyMs : Int32 := 0
  pvcCapacityBytes : Int64 := 0

def bytesPerGB : Int64 := 1000000000

def minute : Int64 := 60000000000

variable (t : AutoSplitTriggers) (obs : ShardObservation) (thresholdPercent : Int32)

def pvcUtilizationBreached : Bool :=
  if obs.pvcCapacityBytes ≤ 0 ∨ obs.sizeBytes ≤ 0 then false
  else thresholdPercent.toInt64 * obs.pvcCapacityBytes ≤ obs.sizeBytes * 100

/-- `autoSplitTriggerBreached`: all triggers that are set are breached, and which ones are set: size, CPU, latency,
PVC. -/
def autoSplitTriggerBreached (t : Option AutoSplitTriggers) (obs : ShardObservation) :
    Bool × Bool × Bool × Bool × Bool :=
  match t with
  | none => (false, false, false, false, false)
  | some t =>
    let enabledSize : Bool := 0 < t.sizeThresholdGB
    let enabledCPU : Bool := 0 < t.cpuPercent
    let enabledLat : Bool := 0 < t.p99LatencyMs
    let enabledPVC : Bool := 0 < t.pvcUtilizationPercent
    let breached := (enabledSize || enabledCPU || enabledLat || enabledPVC) &&
      !(enabledSize && obs.sizeBytes < t.sizeThresholdGB.toInt64 * bytesPerGB) &&
        !(enabledCPU && obs.cpuPercent < t.cpuPercent) &&
      !(enabledLat && obs.p99LatencyMs < t.p99LatencyMs) &&
        !(enabledPVC && !pvcUtilizationBreached obs t.pvcUtilizationPercent)
    (breached, enabledSize, enabledCPU, enabledLat, enabledPVC)

def autoSplitDuration (t : Option AutoSplitTriggers) : Int64 :=
  match t with
  | none => 0
  | some t => if t.durationMinutes ≤ 0 then 0 else t.durationMinutes.toInt64 * minute

/-! ### Products of 64-bit numbers -/

def Fits (x : Int) : Prop := -2 ^ 63 ≤ x ∧ x < 2 ^ 63

theorem toInt_mul_iff (a b : Int64) : (a * b).toInt = a.toInt * b.toInt ↔ Fits (a.toInt * b.toInt) := by
  have hl := (a * b).le_toInt
  have hu := (a * b).toInt_lt
  rw [Int64.toInt_mul] at hl hu ⊢
  constructor
  · intro h
    rw [h] at hl hu
    exact ⟨hl, hu⟩
  · rintro ⟨hl, hu⟩
    exact Int.bmod_eq_of_le (by omega) (by omega)

theorem toInt_size (gb : Int32) : (gb.toInt64 * bytesPerGB).toInt = gb.toInt * 1000000000 := by
  have hl := gb.le_toInt
  have hu := gb.toInt_lt
  have hb : bytesPerGB.toInt = 1000000000 := by decide
  have h := (toInt_mul_iff gb.toInt64 bytesPerGB).2
  rw [Int32.toInt_toInt64, hb] at h
  exact h ⟨by omega, by omega⟩

structure TriggersFit : Prop where
  pvc : 0 < obs.sizeBytes → 0 < obs.pvcCapacityBytes →
    Fits (obs.sizeBytes.toInt * 100) ∧ Fits (thresholdPercent.toInt * obs.pvcCapacityBytes.toInt)
  window : 0 ≤ t.durationMinutes ∧ Fits (t.durationMinutes.toInt * 60000000000)

/-- The triggers compare and count exactly, and no product wraps. -/
structure TriggersExact : Prop where
  pvc : pvcUtilizationBreached obs thresholdPercent ↔ 0 < obs.sizeBytes.toInt ∧ 0 < obs.pvcCapacityBytes.toInt ∧
    (thresholdPercent.toInt : Rat) ≤ obs.sizeBytes.toInt / obs.pvcCapacityBytes.toInt * 100
  products : 0 < obs.sizeBytes → 0 < obs.pvcCapacityBytes → (obs.sizeBytes * 100).toInt = obs.sizeBytes.toInt * 100 ∧
    (thresholdPercent.toInt64 * obs.pvcCapacityBytes).toInt = thresholdPercent.toInt * obs.pvcCapacityBytes.toInt
  window : (autoSplitDuration (some t)).toInt = t.durationMinutes.toInt * 60000000000

variable {t obs thresholdPercent}

/-- Both products are exact if and only if they fit in 64 bits. -/
theorem products_iff : ((obs.sizeBytes * 100).toInt = obs.sizeBytes.toInt * 100 ∧
      (thresholdPercent.toInt64 * obs.pvcCapacityBytes).toInt = thresholdPercent.toInt * obs.pvcCapacityBytes.toInt) ↔
    Fits (obs.sizeBytes.toInt * 100) ∧ Fits (thresholdPercent.toInt * obs.pvcCapacityBytes.toInt) := by
  have hs := toInt_mul_iff obs.sizeBytes 100
  have hc := toInt_mul_iff thresholdPercent.toInt64 obs.pvcCapacityBytes
  rw [Int32.toInt_toInt64] at hc
  exact and_congr hs hc

theorem window_iff : (autoSplitDuration (some t)).toInt = t.durationMinutes.toInt * 60000000000 ↔
    0 ≤ t.durationMinutes ∧ Fits (t.durationMinutes.toInt * 60000000000) := by
  have hm := toInt_mul_iff t.durationMinutes.toInt64 minute
  rw [Int32.toInt_toInt64, show minute.toInt = 60000000000 by decide] at hm
  have hz : (0 : Int64).toInt = 0 := rfl
  rw [Int32.le_iff_toInt_le, show (0 : Int32).toInt = 0 from rfl]
  unfold autoSplitDuration
  dsimp only
  split
  · rename_i h
    rw [Int32.le_iff_toInt_le, show (0 : Int32).toInt = 0 from rfl] at h
    unfold Fits
    omega
  · rename_i h
    rw [Int32.le_iff_toInt_le, show (0 : Int32).toInt = 0 from rfl] at h
    rw [hm]
    exact (and_iff_right (by omega)).symm

theorem pvc_iff (hs : Fits (obs.sizeBytes.toInt * 100))
    (hc : Fits (thresholdPercent.toInt * obs.pvcCapacityBytes.toInt)) (hpos : 0 < obs.pvcCapacityBytes.toInt) :
    thresholdPercent.toInt64 * obs.pvcCapacityBytes ≤ obs.sizeBytes * 100 ↔
      (thresholdPercent.toInt : Rat) ≤ obs.sizeBytes.toInt / obs.pvcCapacityBytes.toInt * 100 := by
  obtain ⟨h₁, h₂⟩ := products_iff.2 ⟨hs, hc⟩
  have hq : (0 : Rat) < obs.pvcCapacityBytes.toInt := Rat.intCast_pos.2 hpos
  rw [Int64.le_iff_toInt_le, h₁, h₂, Rat.div_def, Rat.mul_assoc, Rat.mul_comm _ 100, ← Rat.mul_assoc, ← Rat.div_def,
    ← Rat.not_lt, Rat.div_lt_iff hq, Rat.not_lt, ← Rat.intCast_le_intCast, Rat.intCast_mul, Rat.intCast_mul]
  rfl

/-- Every trigger that is set is compared as it should be, the size as an integer.  The ratio and the window are
exact, without a product that wraps, exactly for numbers whose products fit. -/
theorem triggers_exact_iff (t : AutoSplitTriggers) (obs : ShardObservation) (thresholdPercent : Int32) :
    ((autoSplitTriggerBreached (some t) obs).1 ↔
      (0 < t.sizeThresholdGB ∨ 0 < t.cpuPercent ∨ 0 < t.p99LatencyMs ∨ 0 < t.pvcUtilizationPercent) ∧
      (0 < t.sizeThresholdGB → t.sizeThresholdGB.toInt * 1000000000 ≤ obs.sizeBytes.toInt) ∧
      (0 < t.cpuPercent → t.cpuPercent ≤ obs.cpuPercent) ∧ (0 < t.p99LatencyMs → t.p99LatencyMs ≤ obs.p99LatencyMs) ∧
      (0 < t.pvcUtilizationPercent → pvcUtilizationBreached obs t.pvcUtilizationPercent)) ∧
    (TriggersExact t obs thresholdPercent ↔ TriggersFit t obs thresholdPercent) := by
  have hz : (0 : Int64).toInt = 0 := rfl
  refine ⟨?_, ?_, ?_⟩
  · have hsz : obs.sizeBytes < t.sizeThresholdGB.toInt64 * bytesPerGB ↔
        obs.sizeBytes.toInt < t.sizeThresholdGB.toInt * 1000000000 := by
      rw [Int64.lt_iff_toInt_lt, toInt_size]
    simp only [autoSplitTriggerBreached, Bool.and_eq_true, Bool.or_eq_true, Bool.not_eq_true', Bool.and_eq_false_imp,
      decide_eq_true_eq, decide_eq_false_iff_not, hsz, Int.not_lt, Int32.not_lt, Bool.not_eq_false', or_assoc,
      and_assoc]
  · intro h
    exact ⟨fun hs hc => products_iff.1 (h.products hs hc), window_iff.1 h.window⟩
  · intro h
    refine ⟨?_, fun hs hc => products_iff.2 (h.pvc hs hc), window_iff.2 h.window⟩
    unfold pvcUtilizationBreached
    split
    · rename_i hn
      rw [Int64.le_iff_toInt_le, Int64.le_iff_toInt_le, hz] at hn
      simp only [Bool.false_eq_true, false_iff]
      omega
    · rename_i hn
      rw [not_or, Int64.not_le, Int64.not_le] at hn
      obtain ⟨hs, hc⟩ := h.pvc hn.2 hn.1
      rw [Int64.lt_iff_toInt_lt, Int64.lt_iff_toInt_lt, hz] at hn
      rw [decide_eq_true_eq, pvc_iff hs hc hn.1]
      simp only [hn.1, hn.2, true_and]

/-- A volume that is full, of which the product with 100 wraps, and a window of 2^31 - 1 minutes. -/
theorem trigger_products_wrap :
    pvcUtilizationBreached { sizeBytes := 92233720368547759, pvcCapacityBytes := 92233720368547759 } 80 = false ∧
      (80 : Rat) ≤ 92233720368547759 / 92233720368547759 * 100 ∧
      (autoSplitDuration (some { durationMinutes := 2147483647 })).toInt < 0 := by
  decide +kernel

end PostgresOperator
