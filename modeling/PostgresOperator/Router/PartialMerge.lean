import Mathlib.Algebra.Ring.Int.Defs
import Mathlib.Data.Finset.Card
import Mathlib.Data.List.ReduceOption
import PostgresOperator.Router.AggregateMerge

/-!
# Where the merge of partial results is exact

The group of a row is a text made of its group columns, MIN and MAX compare texts as numbers if both are numbers, and
COUNT and SUM add with `int64` and go on with `float64` when a partial result does not fit.
-/

namespace PostgresOperator

open Go Grouping List

/-! ### Groups -/

/-- The columns of a row that are not aggregated, `none` for NULL. -/
def keyColumns (aggs : List AggregateFunc) (row : List (Option Str)) : List (Option Str) :=
  (aggs.mapIdx fun i fn => if fn ≠ .none then [] else [row.getD i none]).flatten

def segments (v : Option Str) : List Str := Go.split 0x1f (v.getD "<nil>")

/-- Rows are in one group if their group columns are the same, and the merge has a row for every group. -/
structure Separated (N : Numbers) (aggs : List AggregateFunc) (rows : List (List (Option Str))) : Prop where
  key_iff : ∀ r ∈ rows, ∀ r' ∈ rows, aggGroupKey (decodeRow r : ResultRow N) aggs =
    aggGroupKey (decodeRow r' : ResultRow N) aggs ↔
    keyColumns aggs r = keyColumns aggs r'
  length_eq : (mergeAggregate aggs (rows.map (decodeRow (N := N)))).length = (rows.map (keyColumns aggs)).dedup.length

theorem split_append (sep : UInt8) (v s : Str) : Go.split sep (v ++ sep :: s) = Go.split sep v ++ Go.split sep s := by
  induction v with
  | nil => simp [Go.split]
  | cons c v ih =>
    by_cases hc : c = sep
    · simp [Go.split, hc, ih]
    · simp only [cons_append, Go.split, hc, if_false, ih]
      cases hv : Go.split sep v with
      | nil => exact absurd hv (split_ne_nil sep v)
      | cons w ws => rfl

theorem join_split (sep : UInt8) (s : Str) : join sep (Go.split sep s) = s := by
  induction s with
  | nil => rfl
  | cons c s ih =>
    rw [Go.split]
    cases hs : Go.split sep s with
    | nil => exact absurd hs (split_ne_nil sep s)
    | cons w ws =>
      rw [hs] at ih
      by_cases hc : c = sep
      · rw [if_pos hc, join, ih, hc, nil_append]
      · rw [if_neg hc]
        cases ws <;> rw [← ih] <;> rfl

private def keyText (vs : List (Option Str)) : Str := vs.flatMap fun v => v.getD "<nil>" ++ [0x1f]

/-- The group key can be read back up to the separators that the values contain. -/
theorem split_keyText (vs : List (Option Str)) : Go.split 0x1f (keyText vs) = vs.flatMap segments ++ [[]] := by
  induction vs with
  | nil => rfl
  | cons v vs ih =>
    rw [keyText, flatMap_cons, append_assoc, singleton_append, split_append, flatMap_cons, append_assoc, ← ih]
    rfl

theorem keyText_eq_iff (vs vs' : List (Option Str)) :
    keyText vs = keyText vs' ↔ vs.flatMap segments = vs'.flatMap segments := by
  constructor
  · intro h
    have hs := congrArg (Go.split 0x1f) h
    rw [split_keyText, split_keyText] at hs
    exact append_cancel_right hs
  · intro h
    rw [← join_split 0x1f (keyText vs), split_keyText, h, ← split_keyText, join_split]

variable {N : Numbers} {aggs : List AggregateFunc}

theorem aggGroupKey_decodeRow (row : List (Option Str)) :
    aggGroupKey (decodeRow row : ResultRow N) aggs = keyText (keyColumns aggs row) := by
  have hv : ∀ i, toStr (valueAt (decodeRow row : ResultRow N) i) = (row.getD i none).getD "<nil>" := by
    intro i
    rw [valueAt, decodeRow, getD_map row none]
    cases row.getD i none <;> rfl
  rw [aggGroupKey, keyText, keyColumns, flatMap_def, map_flatten, flatten_flatten, map_map]
  congr 1
  rw [mapIdx_eq_iff]
  intro i
  rw [getElem?_map, getElem?_mapIdx, Option.map_map]
  congr 1
  funext fn
  by_cases hf : fn = .none <;> simp [hf, hv]

/-- One row is returned for each group key. -/
theorem length_mergeAggregate (rows : List (ResultRow N)) :
    (mergeAggregate aggs rows).length = (rows.map fun row => aggGroupKey row aggs).dedup.length := by
  have h := @foldl_upsert _ _ _ _ (fun row : ResultRow N => aggGroupKey row aggs) (Group.start aggs) Group.add
    (fun rows => rows.foldl (fun g r => Group.add r g) (Group.start aggs (rows.headD []))) (fun _ => rfl)
    (fun rows row hne => ?_) rows
  · rw [mergeAggregate, h]
    simpa [firstKeys] using (reverse_perm _).dedup.length_eq
  · obtain ⟨r, rs, rfl⟩ := exists_cons_of_ne_nil hne
    rw [foldl_concat]
    rfl

/-- The merge keeps the groups apart exactly if different group columns stay different when NULL is written as `<nil>`
and every text is cut at its separators. -/
theorem groups_separated_iff (N : Numbers) (aggs : List AggregateFunc) (rows : List (List (Option Str))) :
    Separated N aggs rows ↔ ∀ r ∈ rows, ∀ r' ∈ rows,
      (keyColumns aggs r).flatMap segments = (keyColumns aggs r').flatMap segments →
        keyColumns aggs r = keyColumns aggs r' := by
  constructor
  · intro h r hr r' hr' hs
    rw [← h.key_iff r hr r' hr', aggGroupKey_decodeRow, aggGroupKey_decodeRow, keyText_eq_iff]
    exact hs
  · intro h
    have hj : Set.InjOn keyText ((rows.map (keyColumns aggs)).toFinset : Set (List (Option Str))) := by
      simp only [coe_toFinset, mem_map]
      rintro _ ⟨r, hr, rfl⟩ _ ⟨r', hr', rfl⟩ hk
      exact h r hr r' hr' ((keyText_eq_iff _ _).1 hk)
    constructor
    · intro r hr r' hr'
      rw [aggGroupKey_decodeRow, aggGroupKey_decodeRow]
      exact ⟨fun hk => h r hr r' hr' ((keyText_eq_iff _ _).1 hk), congrArg keyText⟩
    · have hk : (rows.map decodeRow).map (fun row : ResultRow N => aggGroupKey row aggs) =
          (rows.map (keyColumns aggs)).map keyText := by
        rw [map_map, map_map]
        exact map_congr_left fun row _ => aggGroupKey_decodeRow row
      have hg : ((rows.map (keyColumns aggs)).map keyText).toFinset =
          (rows.map (keyColumns aggs)).toFinset.image keyText := by
        ext
        simp
      rw [length_mergeAggregate, hk, ← card_toFinset, hg, Finset.card_image_of_injOn hj, card_toFinset]

/-- NULL and the text `<nil>`; two texts with a separator. -/
theorem groups_blurred : ¬ Separated exactNumbers [.none, .count] [[none, some "1"], [some "<nil>", some "1"]] ∧
    ¬ Separated exactNumbers [.none, .none, .count]
      [[some [97, 0x1f], some [], some "1"], [some [97], some [0x1f], some "1"]] := by
  constructor
  · intro h
    exact absurd ((h.key_iff _ (.head _) _ (.tail _ (.head _))).1 (by decide)) (by decide)
  · intro h
    exact absurd ((h.key_iff _ (.head _) _ (.tail _ (.head _))).1 (by decide)) (by decide)

/-! ### Sums -/

def fits64 (n : Int) : Bool := -2 ^ 63 ≤ n && n < 2 ^ 63

def wrap64 (n : Int) : Int := (n + 2 ^ 63) % 2 ^ 64 - 2 ^ 63

/-- `strconv.ParseInt` and the sum of `int64`, which wraps around. -/
structure Numbers.Int64 (N : Numbers) : Prop where
  parseInt_itoa : ∀ n, N.parseInt (itoa n) = if fits64 n then some n else none
  addInt_eq : ∀ m n, N.addInt m n = wrap64 (m + n)

/-- The sum of the values that are not NULL; SUM of none is NULL. -/
def exactTotal (f : AggregateFunc) (vs : List (Option Int)) : Value N :=
  if f = .sum ∧ vs.reduceOption = [] then .nil else .int vs.reduceOption.sum

/-- The sum fits.  So does every partial result, except for some that not even `float64` holds; these are skipped, so
they have to cancel out, and they are not all. -/
structure AddsUp (N : Numbers) (f : AggregateFunc) (ns : List Int) : Prop where
  total : fits64 ns.sum
  skipped : ∀ n ∈ ns, fits64 n = false → N.parseFloat (itoa n) = none
  cancel : (2 ^ 64 : Int) ∣ (ns.filter fun n => !fits64 n).sum
  rest : f = .sum → ns ≠ [] → ∃ n ∈ ns, fits64 n

private def turnsFloat (N : Numbers) (n : Int) : Bool := !fits64 n && (N.parseFloat (itoa n)).isSome

theorem addNum_itoa (hN : N.Int64) {a : AggAcc N} (ha : a.isFloat → a.hasNum) (n : Int) :
    (a.addNum (.text (itoa n))).isFloat = (a.isFloat || turnsFloat N n) ∧
      (a.addNum (.text (itoa n))).hasNum = (a.hasNum || (fits64 n || turnsFloat N n)) ∧
      ((a.isFloat || turnsFloat N n) = false →
        (a.addNum (.text (itoa n))).i = if fits64 n then wrap64 (a.i + n) else a.i) := by
  rw [AggAcc.addNum, toInt64, toFloat, trimSpace_itoa, hN.parseInt_itoa, turnsFloat]
  cases hf : a.isFloat <;> cases hn : fits64 n <;> cases hp : N.parseFloat (itoa n) <;> simp_all [hN.addInt_eq]

/-- The sum of a column, with the moment at which it turns to floating point. -/
theorem accOf_sums (hN : N.Int64) {f : AggregateFunc} (hf : f = .count ∨ f = .sum) (vs : List (Option Int)) :
    (accOf f vs : AggAcc N).isFloat = vs.reduceOption.any (turnsFloat N) ∧
      (accOf f vs : AggAcc N).hasNum = vs.reduceOption.any (fun n => fits64 n || turnsFloat N n) ∧
      ((accOf f vs : AggAcc N).isFloat = false →
        (accOf f vs : AggAcc N).i = wrap64 (vs.reduceOption.filter fits64).sum) := by
  induction vs using reverseRecOn with
  | nil => exact ⟨rfl, rfl, fun _ => rfl⟩
  | append_singleton vs v ih =>
    have hfn := fn_accOf (N := N) f vs
    have hs : accOf f (vs ++ [v]) = (accOf f vs : AggAcc N).add (ofWire v) := foldl_concat ..
    rw [hs]
    generalize (accOf f vs : AggAcc N) = a at ih hfn
    obtain ⟨hfl, hnm, hi⟩ := ih
    cases v with
    | none =>
      have ha : a.add (ofWire none) = a := by
        rcases hf with rfl | rfl <;> simp [AggAcc.add, hfn, ofWire]
      rw [ha, reduceOption_append, reduceOption_singleton, Option.toList_none, append_nil]
      exact ⟨hfl, hnm, hi⟩
    | some n =>
      have ha : a.add (ofWire (some n)) = a.addNum (.text (itoa n)) := by
        rcases hf with rfl | rfl <;> simp [AggAcc.add, hfn, ofWire]
      have hmark : a.isFloat → a.hasNum := by
        rw [hfl, hnm, any_eq_true, any_eq_true]
        rintro ⟨m, hm, ht⟩
        exact ⟨m, hm, by simp [ht]⟩
      obtain ⟨h1, h2, h3⟩ := addNum_itoa hN hmark n
      rw [ha, h1, h2, hfl, hnm, reduceOption_append, reduceOption_singleton, Option.toList_some]
      refine ⟨by simp, by simp, ?_⟩
      intro hno
      rw [← hfl] at hno
      rw [h3 hno, hi (Bool.or_eq_false_iff.1 hno).1, filter_append, sum_append]
      cases hn : fits64 n with
      | false => simp [hn]
      | true =>
        simp only [hn, if_true, filter_cons, filter_nil, sum_singleton, wrap64]
        omega

/-- When a wrapped sum is the sum. -/
theorem wrap64_eq_iff (ns : List Int) : wrap64 (ns.filter fits64).sum = ns.sum ↔
    fits64 ns.sum ∧ (2 ^ 64 : Int) ∣ (ns.filter fun n => !fits64 n).sum := by
  have hs : ns.sum = (ns.filter fits64).sum + (ns.filter fun n => !fits64 n).sum := by
    induction ns with
    | nil => rfl
    | cons n ns ih => cases hn : fits64 n <;> simp [hn, ih] <;> omega
  rw [hs]
  generalize (ns.filter fits64).sum = a
  generalize (ns.filter fun n => !fits64 n).sum = b
  simp only [wrap64, fits64, Bool.and_eq_true, decide_eq_true_eq]
  omega

/-- The merged COUNT or SUM is the exact one exactly if the partial results add up: the code adds in 64 bits and goes
on with `float64` once a partial result does not fit. -/
theorem sum_exact_iff (N : Numbers) (hN : N.Int64) (f : AggregateFunc) (hf : f = .count ∨ f = .sum)
    (vs : List (Option Int)) :
    (accOf f vs : AggAcc N).result = exactTotal f vs ↔ AddsUp N f vs.reduceOption := by
  obtain ⟨hfl, hm, hi⟩ := accOf_sums hN hf vs
  have hfn := fn_accOf (N := N) f vs
  unfold exactTotal
  generalize (accOf f vs : AggAcc N) = a at hfl hm hi hfn
  generalize vs.reduceOption = ns at hfl hm hi
  cases ht : ns.any (turnsFloat N) with
  | true =>
    obtain ⟨n, hn, htn⟩ := any_eq_true.1 ht
    have hy : a.hasNum := hm.trans (any_eq_true.2 ⟨n, hn, by simp [htn]⟩)
    refine iff_of_false ?_ ?_
    · rcases hf with rfl | rfl <;> simp only [AggAcc.result, hfn, hy, AggAcc.total, hfl, ht, if_true] <;> split <;>
        simp
    · intro h
      simp only [turnsFloat, Bool.and_eq_true, Bool.not_eq_true'] at htn
      simp [h.skipped n hn htn.1] at htn
  | false =>
    have hskip : ∀ n ∈ ns, fits64 n = false → N.parseFloat (itoa n) = none := by
      intro n hn hno
      simpa [turnsFloat, hno] using any_eq_false.1 ht n hn
    have hfits : a.hasNum = ns.any fits64 := by
      rw [hm, Bool.eq_iff_iff, any_eq_true, any_eq_true]
      refine exists_congr fun n => and_congr_right fun hn => ?_
      rw [Bool.or_eq_true, or_iff_left (any_eq_false.1 ht n hn)]
    have hif : (f = .sum → ns ≠ [] → ∃ n ∈ ns, fits64 n) →
        (wrap64 (ns.filter fits64).sum = ns.sum ↔ AddsUp N f ns) := by
      intro h
      rw [wrap64_eq_iff]
      exact ⟨fun h' => ⟨h'.1, hskip, h'.2, h⟩, fun h' => ⟨h'.total, h'.cancel⟩⟩
    simp only [AggAcc.result, AggAcc.total, hfn, hfl, ht, hfits, hi (hfl.trans ht), Bool.false_eq_true, if_false]
    cases ha : ns.any fits64 with
    | true =>
      have hsome := any_eq_true.1 ha
      have hne : ns ≠ [] := by
        rintro rfl
        cases ha
      rw [← hif fun _ _ => hsome]
      rcases hf with rfl | rfl <;> simp [hne]
    | false =>
      have hzero : (ns.filter fits64).sum = 0 := by
        rw [filter_eq_nil_iff.2 fun n hn => any_eq_false.1 ha n hn, sum_nil]
      rcases hf with rfl | rfl
      · rw [← hif (by simp), hzero]
        simp [wrap64]
      · by_cases hne : ns = []
        · subst hne
          simpa using (hif fun _ h => absurd rfl h).1 (by simp [wrap64])
        · simp only [hne, and_false, if_false, Bool.false_eq_true, reduceCtorEq, false_iff]
          intro h
          obtain ⟨n, hn, hf⟩ := h.rest rfl hne
          exact any_eq_false.1 ha n hn hf

def machineNumbers : Numbers :=
  { exactNumbers with
    parseInt := fun s => (decimal s).filter fits64
    addInt := fun m n => wrap64 (m + n) }

theorem machineNumbers_int64 : machineNumbers.Int64 where
  parseInt_itoa n := by
    change (decimal (itoa n)).filter fits64 = _
    rw [decimal_itoa]
    rfl
  addInt_eq _ _ := rfl

theorem sum_exact_demo : AddsUp machineNumbers .sum [2 ^ 62, 2 ^ 62 - 1] ∧
    (accOf .sum [some (2 ^ 62), none, some (2 ^ 62 - 1)] : AggAcc machineNumbers).result = .int (2 ^ 63 - 1) := by
  have h : AddsUp machineNumbers .sum [2 ^ 62, 2 ^ 62 - 1] :=
    ⟨by decide, by decide, by decide, fun _ _ => ⟨2 ^ 62, by decide⟩⟩
  exact ⟨h, (sum_exact_iff _ machineNumbers_int64 .sum (.inr rfl) [some (2 ^ 62), none, some (2 ^ 62 - 1)]).2 h⟩

/-- Two partial sums of 2^62 are merged to a negative number. -/
theorem sum_wraps : encodeValue (accOf .sum [some (2 ^ 62), some (2 ^ 62)] : AggAcc machineNumbers).result =
      some (str "-9223372036854775808") ∧
    encodeValue (exactTotal .sum [some (2 ^ 62), some (2 ^ 62)] : Value machineNumbers) = some
      (str "9223372036854775808") := by
  decide +kernel

/-! ### MIN and MAX -/

def merged (fn : AggregateFunc) (vals : List (Value N)) : Value N := (vals.foldl AggAcc.add { fn := fn }).result

/-- MIN or MAX over the results of the shards. -/
def extreme (fn : AggregateFunc) (shards : List (List Str)) : Value N :=
  merged fn (shards.map fun vs => merged fn (vs.map .text))

def AggregateFunc.better : AggregateFunc → Ordering
  | .max => .gt
  | _ => .lt

def AsGood (N : Numbers) (fn : AggregateFunc) (v w : Str) : Prop :=
  compareValues (.text v : Value N) (.text w) ≠ fn.better.swap

/-- MIN and MAX over any values of `V` do not depend on how these are ordered and spread over shards. -/
structure OrderFree (N : Numbers) (V : Set Str) : Prop where
  total : ∀ v ∈ V, ∀ w ∈ V, AsGood N .min v w ∨ AsGood N .min w v
  trans : ∀ u ∈ V, ∀ v ∈ V, ∀ w ∈ V, AsGood N .min u v → AsGood N .min v w → AsGood N .min u w
  same : ∀ fn, fn = .min ∨ fn = .max → ∀ shards shards' : List (List Str), (∀ v ∈ shards.flatten, v ∈ V) →
    shards.flatten.Perm shards'.flatten → (extreme fn shards : Value N) = extreme fn shards'
  best : ∀ fn, fn = .min ∨ fn = .max → ∀ shards : List (List Str), (∀ v ∈ shards.flatten, v ∈ V) →
    shards.flatten ≠ [] → ∃ v ∈ shards.flatten, (extreme fn shards : Value N) = .text v ∧
      ∀ w ∈ shards.flatten, AsGood N fn v w

def number (N : Numbers) (v : Str) : Option N.Float := N.parseFloat (trimSpace v)

/-- Different texts are different numbers, and no text that is not a number lies between two numbers that are ordered
the other way round as texts. -/
structure Consistent (N : Numbers) (V : Set Str) : Prop where
  apart : ∀ v ∈ V, ∀ w ∈ V, ∀ x y, number N v = some x → number N w = some y → N.less x y = false →
    N.less y x = false → v = w
  between : ∀ v ∈ V, ∀ w ∈ V, ∀ u ∈ V, ∀ x y, number N v = some x → number N w = some y → number N u = none →
    N.less x y → ¬(w < u ∧ u < v)

structure Numbers.Ordered (N : Numbers) : Prop where
  irrefl : ∀ x, N.less x x = false
  trans : ∀ x y z, N.less x y → N.less y z → N.less x z

section Order

variable {V : Set Str} {u v w : Str}

private def Before (N : Numbers) (v w : Str) : Prop :=
  match number N v, number N w with
  | some x, some y => N.less x y
  | _, _ => v < w

theorem less_asymm (hN : N.Ordered) {x y : N.Float} (h : N.less x y) : N.less y x = false := by
  rw [Bool.eq_false_iff]
  intro h'
  simpa [hN.irrefl] using hN.trans x y x h h'

theorem before_asymm (hN : N.Ordered) (h : Before N v w) : ¬ Before N w v := by
  unfold Before at h ⊢
  cases hv : number N v <;> cases hw : number N w <;> simp only [hv, hw] at h ⊢
  case some.some x y => simp [less_asymm hN h]
  all_goals exact h.not_gt

/-- Texts are compared as numbers if both are, otherwise byte by byte. -/
theorem compareValues_text (hN : N.Ordered) (v w : Str) :
    (compareValues (.text v : Value N) (.text w) = .lt ↔ Before N v w) ∧
      (compareValues (.text v : Value N) (.text w) = .gt ↔ Before N w v) := by
  have hl : ((if v < w then Ordering.lt else if v = w then .eq else .gt) = .lt ↔ v < w) ∧
      ((if v < w then Ordering.lt else if v = w then .eq else .gt) = .gt ↔ w < v) := by
    rcases lt_trichotomy v w with h | rfl | h
    · simp [h, h.not_gt]
    · simp
    · simp [h, h.not_gt, h.ne']
  have hf : ∀ v, toFloat (.text v : Value N) = number N v := fun _ => rfl
  unfold compareValues Before
  rw [hf, hf]
  cases number N v with
  | none => cases number N w <;> exact hl
  | some x =>
    cases number N w with
    | none => exact hl
    | some y =>
      cases h : N.less x y with
      | false => cases h' : N.less y x <;> simp [h, h']
      | true => simp [h, less_asymm hN h]

private def Beats (N : Numbers) (fn : AggregateFunc) (v w : Str) : Prop :=
  if fn = .max then Before N w v else Before N v w

variable {fn : AggregateFunc}

theorem beats_iff (hN : N.Ordered) : compareValues (.text v : Value N) (.text w) = fn.better ↔ Beats N fn v w := by
  cases fn
  case max => exact (compareValues_text hN v w).2
  all_goals exact (compareValues_text hN v w).1

theorem beats_asymm (hN : N.Ordered) (h : Beats N fn v w) : ¬ Beats N fn w v := by
  unfold Beats at h ⊢
  split at h
  · rw [if_pos ‹_›]
    exact before_asymm hN h
  · rw [if_neg ‹_›]
    exact before_asymm hN h

theorem asGood_iff (hN : N.Ordered) : AsGood N fn v w ↔ ¬ Beats N fn w v := by
  refine not_congr ?_
  cases fn
  case max => exact (compareValues_text hN v w).1
  all_goals exact (compareValues_text hN v w).2

theorem Consistent.before_connex (hV : Consistent N V) (hv : v ∈ V) (hw : w ∈ V) :
    v = w ∨ Before N v w ∨ Before N w v := by
  unfold Before
  cases hx : number N v with
  | none => cases number N w <;> exact or_left_comm.1 (lt_trichotomy v w)
  | some x =>
    cases hy : number N w with
    | none => exact or_left_comm.1 (lt_trichotomy v w)
    | some y =>
      by_contra! h
      exact h.1 (hV.apart v hv w hw x y hx hy (Bool.eq_false_iff.2 h.2.1) (Bool.eq_false_iff.2 h.2.2))

/-- On consistent values the comparison is transitive. -/
theorem Consistent.before_trans (hN : N.Ordered) (hV : Consistent N V) (hu : u ∈ V) (hv : v ∈ V) (hw : w ∈ V)
    (huv : Before N u v) (hvw : Before N v w) : Before N u w := by
  -- otherwise `w` is before `u`, and the three go round in a circle
  refine ((hV.before_connex hu hw).resolve_left ?_).resolve_right ?_
  · rintro rfl
    exact before_asymm hN huv hvw
  · intro hwu
    unfold Before at huv hvw hwu
    cases hx : number N u <;> cases hy : number N v <;> cases hz : number N w <;>
      simp only [hx, hy, hz] at huv hvw hwu
    case some.some.some x y z => simpa [hN.irrefl] using hN.trans x z x (hN.trans x y z huv hvw) hwu
    case some.some.none x y => exact hV.between u hu v hv w hw x y hx hy hz huv ⟨hvw, hwu⟩
    case some.none.some x z => exact hV.between w hw u hu v hv z x hz hx hy hwu ⟨huv, hvw⟩
    case none.some.some y z => exact hV.between v hv w hw u hu y z hy hz hx hvw ⟨hwu, huv⟩
    all_goals exact (huv.trans hvw).not_gt hwu

private def IsBest (N : Numbers) (fn : AggregateFunc) (S : Set Str) (r : Value N) : Prop :=
  r = .nil ∧ S = ∅ ∨ ∃ v ∈ S, r = .text v ∧ ∀ w ∈ S, ¬ Beats N fn w v

variable (hN : N.Ordered) (hV : Consistent N V)
include hN hV

theorem not_before_trans (hu : u ∈ V) (hv : v ∈ V) (hw : w ∈ V) (hvu : ¬ Before N v u) (hwv : ¬ Before N w v) :
    ¬ Before N w u := by
  intro hwu
  rcases hV.before_connex hu hv with rfl | huv | h
  · exact hwv hwu
  · rcases hV.before_connex hv hw with rfl | hvw | h
    · exact hvu hwu
    · exact before_asymm hN (hV.before_trans hN hu hv hw huv hvw) hwu
    · exact hwv h
  · exact hvu h

theorem not_beats_trans (hu : u ∈ V) (hv : v ∈ V) (hw : w ∈ V) (hvu : ¬ Beats N fn v u) (hwv : ¬ Beats N fn w v) :
    ¬ Beats N fn w u := by
  unfold Beats at hvu hwv ⊢
  split
  · rw [if_pos ‹_›] at hvu hwv
    exact not_before_trans hN hV hw hv hu hwv hvu
  · rw [if_neg ‹_›] at hvu hwv
    exact not_before_trans hN hV hu hv hw hvu hwv

/-- Step lemma: the accumulator keeps the best of what it has seen. -/
theorem isBest_add (hfn : fn = .min ∨ fn = .max) {a : AggAcc N} {S T : Set Str} {x : Value N} (hf : a.fn = fn)
    (hh : a.hasBest ↔ a.best ≠ .nil) (hS : S ⊆ V) (hT : T ⊆ V) (hb : IsBest N fn S a.best) (hx : IsBest N fn T x) :
    ((a.add x).hasBest ↔ (a.add x).best ≠ .nil) ∧ IsBest N fn (S ∪ T) (a.add x).best := by
  obtain ⟨rfl, rfl⟩ | ⟨v, hv, rfl, hvT⟩ := hx
  · have ha : a.add .nil = a := by
      unfold AggAcc.add
      cases a.fn <;> rfl
    rw [ha, Set.union_empty]
    exact ⟨hh, hb⟩
  · have ha : a.add (.text v) = a.addBest fn.better (.text v) := by
      rcases hfn with rfl | rfl <;> simp [AggAcc.add, hf, AggregateFunc.better]
    rw [ha, AggAcc.addBest]
    obtain ⟨hn, rfl⟩ | ⟨w, hw, hwb, hwS⟩ := hb
    · rw [if_pos (by simpa [hn] using hh), Set.empty_union]
      exact ⟨by simp, .inr ⟨v, hv, rfl, hvT⟩⟩
    · rw [if_neg (by simp [hh, hwb]), hwb]
      split
      · have hvw := beats_asymm hN ((beats_iff hN).1 ‹_›)
        refine ⟨by simp [hh, hwb], .inr ⟨v, .inr hv, rfl, ?_⟩⟩
        rintro y (hy | hy)
        · exact not_beats_trans hN hV (hT hv) (hS hw) (hS hy) hvw (hwS y hy)
        · exact hvT y hy
      · have hvw : ¬ Beats N fn v w := fun h => ‹¬ _› ((beats_iff hN).2 h)
        refine ⟨hh, .inr ⟨w, .inl hw, hwb, ?_⟩⟩
        rintro y (hy | hy)
        · exact hwS y hy
        · exact not_beats_trans hN hV (hS hw) (hT hv) (hT hy) hvw (hvT y hy)

theorem isBest_foldl {α : Type} (hfn : fn = .min ∨ fn = .max) {f : α → Value N} {T : α → Set Str} (l : List α)
    {a : AggAcc N} {S : Set Str} (hf : a.fn = fn) (hh : a.hasBest ↔ a.best ≠ .nil) (hS : S ⊆ V)
    (hb : IsBest N fn S a.best) (hl : ∀ x ∈ l, T x ⊆ V ∧ IsBest N fn (T x) (f x)) :
    IsBest N fn (S ∪ {w | ∃ x ∈ l, w ∈ T x}) ((l.map f).foldl AggAcc.add a).result := by
  induction l generalizing a S with
  | nil =>
    have hr : a.result = a.best := by
      rcases hfn with rfl | rfl <;> simp [AggAcc.result, hf]
    simpa [hr] using hb
  | cons x l ih =>
    obtain ⟨⟨hT, hx⟩, hl⟩ := forall_mem_cons.1 hl
    obtain ⟨hh', hb'⟩ := isBest_add hN hV hfn hf hh hS hT hb hx
    have h := ih ((a.fn_add (f x)).trans hf) hh' (Set.union_subset hS hT) hb' hl
    have hU : S ∪ {w | ∃ y ∈ x :: l, w ∈ T y} = S ∪ T x ∪ {w | ∃ y ∈ l, w ∈ T y} := by
      ext w
      simp [or_assoc]
    rw [hU]
    exact h

/-- The best of the bests is the best. -/
theorem isBest_merged {α : Type} (hfn : fn = .min ∨ fn = .max) {f : α → Value N} {T : α → Set Str} {l : List α}
    (hl : ∀ x ∈ l, T x ⊆ V ∧ IsBest N fn (T x) (f x)) : IsBest N fn {w | ∃ x ∈ l, w ∈ T x} (merged fn (l.map f)) := by
  have h := isBest_foldl hN hV hfn (a := { fn := fn }) (S := ∅) l rfl (by simp) (Set.empty_subset V)
    (.inl ⟨rfl, rfl⟩) hl
  rwa [Set.empty_union] at h

theorem isBest_extreme (hfn : fn = .min ∨ fn = .max) {shards : List (List Str)} (hs : ∀ v ∈ shards.flatten, v ∈ V) :
    IsBest N fn {v | v ∈ shards.flatten} (extreme fn shards) := by
  have hself : ∀ v, IsBest N fn {v} (.text v) :=
    fun v => .inr ⟨v, rfl, rfl, fun w hw h => beats_asymm hN (hw ▸ h) (hw ▸ h)⟩
  have hin : ∀ vs ∈ shards, {v | v ∈ vs} ⊆ V ∧ IsBest N fn {v | v ∈ vs} (merged fn (vs.map .text)) := by
    intro vs hvs
    have hb : ∀ v ∈ vs, v ∈ V := fun v hv => hs v (mem_flatten.2 ⟨vs, hvs, hv⟩)
    have h := isBest_merged hN hV hfn (T := fun v => {v}) (l := vs) fun v hv =>
      ⟨Set.singleton_subset_iff.2 (hb v hv), hself v⟩
    exact ⟨hb, by simpa using h⟩
  simpa [mem_flatten, extreme] using isBest_merged hN hV hfn hin

omit hN in
/-- There is one best value. -/
theorem IsBest.unique {S : Set Str} {r r' : Value N} (hS : S ⊆ V) (h : IsBest N fn S r) (h' : IsBest N fn S r') :
    r = r' := by
  obtain ⟨rfl, rfl⟩ | ⟨v, hv, rfl, hb⟩ := h
  · obtain ⟨rfl, -⟩ | ⟨w, hw, -⟩ := h'
    · rfl
    · exact hw.elim
  · obtain ⟨rfl, rfl⟩ | ⟨w, hw, rfl, hb'⟩ := h'
    · exact hv.elim
    · have h1 := hb w hw
      have h2 := hb' v hv
      rcases hV.before_connex (hS hv) (hS hw) with rfl | h | h
      · rfl
      · unfold Beats at h1 h2
        split at h1 <;> simp_all
      · unfold Beats at h1 h2
        split at h1 <;> simp_all

end Order

/-- MIN and MAX are right, and do not depend on the order of the shards, exactly if the values are consistent: the
code compares two numbers as numbers and any other pair as texts. -/
theorem min_max_iff (N : Numbers) (hN : N.Ordered) (V : Set Str) : OrderFree N V ↔ Consistent N V := by
  constructor
  · intro h
    refine ⟨fun v hv w hw x y hx hy hxy hyx => ?_, fun v hv w hw u hu x y hx hy hz hlt hb => ?_⟩
    · have hs := h.same .min (.inl rfl) [[v], [w]] [[w], [v]] (by simp [hv, hw]) (Perm.swap w v [])
      have hpair : ∀ {v w x y}, number N v = some x → number N w = some y → N.less y x = false →
          (extreme .min [[v], [w]] : Value N) = .text v := by
        intro v w x y hx hy h
        have hno : compareValues (.text w : Value N) (.text v) ≠ .lt := by
          simp [(compareValues_text hN w v).1, Before, hx, hy, h]
        simp [extreme, merged, AggAcc.add, AggAcc.addBest, AggAcc.result, hno]
      rw [hpair hx hy hyx, hpair hy hx hxy] at hs
      exact Value.text.inj hs
    · have hc : Before N v w ∧ Before N w u ∧ Before N u v := by
        simpa [Before, hx, hy, hz, hlt] using hb
      obtain ⟨z, hm, -, hbest⟩ := h.best .min (.inl rfl) [[v], [w], [u]] (by simp [hv, hw, hu]) (by simp)
      simp only [asGood_iff hN] at hbest
      have hm' : z = v ∨ z = w ∨ z = u := by simpa using hm
      rcases hm' with rfl | rfl | rfl
      · exact hbest u (by simp) hc.2.2
      · exact hbest v (by simp) hc.1
      · exact hbest w (by simp) hc.2.1
  · intro hV
    refine ⟨fun v _ w _ => ?_, fun u hu v hv w hw huv hvw => ?_, fun fn hfn l l' hl hp => ?_,
      fun fn hfn l hl hne => ?_⟩
    · rw [asGood_iff hN, asGood_iff hN, or_iff_not_imp_left, not_not]
      exact beats_asymm hN
    · rw [asGood_iff hN] at huv hvw ⊢
      exact not_beats_trans hN hV hu hv hw huv hvw
    · have hl' : ∀ v ∈ l'.flatten, v ∈ V := fun v hv => hl v (hp.mem_iff.2 hv)
      have h := isBest_extreme hN hV hfn hl
      simp only [hp.mem_iff] at h
      exact h.unique hV hl' (isBest_extreme hN hV hfn hl')
    · obtain ⟨-, hno⟩ | ⟨v, hv, hr, hb⟩ := isBest_extreme hN hV hfn hl
      · obtain ⟨v, hv⟩ := exists_mem_of_ne_nil _ hne
        exact (hno ▸ hv : v ∈ (∅ : Set Str)).elim
      · exact ⟨v, hv, hr, fun w hw => (asGood_iff hN).2 (hb w hw)⟩

theorem exactNumbers_ordered : exactNumbers.Ordered where
  irrefl (x : Int) := decide_eq_false (lt_irrefl x)
  trans (_ _ _ : Int) h h' := decide_eq_true ((of_decide_eq_true h).trans (of_decide_eq_true h'))

theorem min_max_demo : OrderFree exactNumbers {v | v = "9" ∨ v = "10"} := by
  have h9 : number exactNumbers "9" = some (9 : Int) := rfl
  have h10 : number exactNumbers "10" = some (10 : Int) := rfl
  refine (min_max_iff _ exactNumbers_ordered _).2 ⟨?_, ?_⟩
  · rintro v (rfl | rfl) w (rfl | rfl) x y hx hy hxy hyx
    · rfl
    · cases h9.symm.trans hx
      cases h10.symm.trans hy
      cases hxy
    · cases h9.symm.trans hy
      cases h10.symm.trans hx
      cases hyx
    · rfl
  · rintro v - w - u (rfl | rfl) x y - - hu
    · cases h9.symm.trans hu
    · cases h10.symm.trans hu

/-- The minimum of 2, 10 and 1a is 1a or 10, depending on the order of the shards. -/
theorem min_depends_on_order : (extreme .min [["2"], ["10"], ["1a"]] : Value exactNumbers) = .text "1a" ∧
    (extreme .min [["2"], ["1a"], ["10"]] : Value exactNumbers) = .text "10" :=
  ⟨rfl, rfl⟩

end PostgresOperator
