import Mathlib.Data.List.GetD
import PostgresOperator.Router.Aggregate
import PostgresOperator.Router.SelectQuery

/-!
# Merging rows of integers

If the numbers are exact, `MergeAggregatePartials` on rows of integers and NULL groups the rows by the columns that
are not aggregated and combines the values of every other column (`coe_mergeAggregatePartials`).
-/

namespace PostgresOperator

open Go Grouping List AggAcc

/-- Arithmetic without rounding and overflow, on integers at least. -/
structure Numbers.Exact (N : Numbers) : Prop where
  parseInt_itoa : ∀ n, N.parseInt (itoa n) = some n
  addInt_eq : ∀ m n, N.addInt m n = m + n
  parseFloat_itoa : ∀ n, N.parseFloat (itoa n) = some (N.ofInt n)
  less_ofInt : ∀ m n, N.less (N.ofInt m) (N.ofInt n) = decide (m < n)

def exactNumbers : Numbers where
  parseInt := decimal
  addInt := (· + ·)
  Float := Int
  parseFloat := decimal
  ofInt := id
  addFloat := (· + ·)
  less m n := m < n
  format := itoa

theorem exactNumbers_exact : exactNumbers.Exact where
  parseInt_itoa := decimal_itoa
  addInt_eq _ _ := rfl
  parseFloat_itoa := decimal_itoa
  less_ofInt _ _ := rfl

def wireRow (row : IntRow) : List (Option Str) := row.map (Option.map itoa)

theorem wireRow_injective : Function.Injective wireRow :=
  map_injective_iff.2 (Option.map_injective itoa_injective)

/-! ### The merge of rows of integers -/

def AggregateFunc.op : AggregateFunc → Int → Int → Int
  | .none | .count | .sum => (· + ·)
  | .min => Min.min
  | .max => Max.max

instance (f : AggregateFunc) : Std.Commutative f.op where
  comm a b := by
    cases f
    case min => exact min_comm a b
    case max => exact max_comm a b
    all_goals exact Int.add_comm a b

instance (f : AggregateFunc) : Std.Associative f.op where
  assoc a b c := by
    cases f
    case min => exact min_assoc a b c
    case max => exact max_assoc a b c
    all_goals exact Int.add_assoc a b c

def AggregateFunc.combine (f : AggregateFunc) (vs : Multiset (Option Int)) : Option Int :=
  if f = .count then some ((foldSome f.op vs).getD 0) else foldSome f.op vs

def IntRow.at (row : IntRow) (i : Nat) : Option Int := row.getD i none

variable (aggs : List AggregateFunc)

def visible (row : IntRow) : IntRow :=
  aggs.mapIdx fun i f => if f = .none then IntRow.at row i else none

/-- The row of a group: the columns of `key` that are not aggregated and the combined values of the others. -/
def combineRows (key : IntRow) (rows : Multiset IntRow) : IntRow :=
  aggs.mapIdx fun i f => if f = .none then IntRow.at key i else f.combine (rows.map fun row => IntRow.at row i)

def remerge (rows : Multiset IntRow) : Multiset IntRow :=
  regroup (visible aggs) (combineRows aggs) rows

@[simp] theorem remerge_zero (aggs : List AggregateFunc) : remerge aggs 0 = 0 := rfl

/-! ### One column -/

section Merge

variable {N : Numbers}

def ofWire : Option Int → Value N
  | none => .nil
  | some n => .text (itoa n)

theorem decodeRow_wireRow (row : IntRow) : decodeRow (wireRow row) = row.map (ofWire (N := N)) := by
  rw [wireRow, decodeRow, map_map]
  refine map_congr_left ?_
  intro v _
  cases v <;> rfl

theorem valueAt_map_ofWire (row : IntRow) (i : Nat) :
    valueAt (row.map (ofWire (N := N))) i = ofWire (IntRow.at row i) :=
  getD_map _ none _

structure AggAcc.Stands (a : AggAcc N) (o : Option Int) : Prop where
  num : a.fn = .count ∨ a.fn = .sum → a.isFloat = false ∧ a.hasNum = o.isSome ∧ a.i = o.getD 0
  best : a.fn = .min ∨ a.fn = .max → a.best = ofWire o ∧ a.hasBest = o.isSome

theorem AggAcc.fn_add (a : AggAcc N) (v : Value N) : (a.add v).fn = a.fn := by
  unfold add
  split
  · rfl
  · rfl
  · unfold addNum
    split
    · rfl
    · split <;> rfl
  · unfold addNum
    split
    · rfl
    · split <;> rfl
  · unfold addBest
    split
    · rfl
    · split <;> rfl
  · unfold addBest
    split
    · rfl
    · split <;> rfl

theorem compareValues_ofWire (hN : N.Exact) (m n : Int) :
    compareValues (ofWire (some m) : Value N) (ofWire (some n)) =
      if m < n then .lt else if n < m then .gt else .eq := by
  have hf : ∀ n, toFloat (ofWire (some n) : Value N) = some (N.ofInt n) := by
    intro n
    rw [ofWire, toFloat, trimSpace_itoa, hN.parseFloat_itoa]
  simp only [compareValues, hf, hN.less_ofInt, decide_eq_true_eq]

variable {a : AggAcc N} {o : Option Int}

theorem addNum_ofWire (hN : N.Exact) (n : Int) (h : a.isFloat = false ∧ a.hasNum = o.isSome ∧ a.i = o.getD 0) :
    (a.addNum (ofWire (some n))).isFloat = false ∧
      (a.addNum (ofWire (some n))).hasNum = (Option.merge (· + ·) o (some n)).isSome ∧
      (a.addNum (ofWire (some n))).i = (Option.merge (· + ·) o (some n)).getD 0 := by
  have ht : toInt64 (ofWire (some n) : Value N) = some n := by
    rw [ofWire, toInt64, trimSpace_itoa, hN.parseInt_itoa]
  obtain ⟨hf, -, hi⟩ := h
  have ha : a.addNum (ofWire (some n)) = { a with i := N.addInt a.i n, hasNum := true } := by
    rw [addNum, ht, hf]
  rw [ha]
  cases o with
  | none => simpa [hN.addInt_eq, hf] using hi
  | some m => simpa [hN.addInt_eq, hf] using hi

theorem addBest_ofWire (hN : N.Exact) (n : Int) {better : Ordering}
    {op : Int → Int → Int}
    (hop : ∀ m, op m n = if (if n < m then Ordering.lt else if m < n then .gt else .eq) = better
      then n else m)
    (h : a.best = ofWire o ∧ a.hasBest = o.isSome) :
    (a.addBest better (ofWire (some n))).best = ofWire (Option.merge op o (some n)) ∧
      (a.addBest better (ofWire (some n))).hasBest = (Option.merge op o (some n)).isSome := by
  obtain ⟨hb, hh⟩ := h
  unfold addBest
  cases o with
  | none =>
    rw [if_pos (by simpa using hh)]
    exact ⟨rfl, rfl⟩
  | some m =>
    rw [if_neg (by simp [hh]), hb, compareValues_ofWire hN]
    simp only [Option.merge_some_some, hop m]
    by_cases hc : (if n < m then Ordering.lt else if m < n then .gt else .eq) = better
    · rw [if_pos hc, if_pos hc]
      exact ⟨rfl, hh⟩
    · rw [if_neg hc, if_neg hc]
      exact ⟨hb, hh⟩

/-- The accumulator follows the fold over the values it has seen. -/
theorem AggAcc.Stands.add (hN : N.Exact) (h : a.Stands o) (v : Option Int) :
    (a.add (ofWire v)).Stands (Option.merge a.fn.op o v) := by
  cases v with
  | none =>
    have hs : a.add (ofWire none) = a := by
      unfold AggAcc.add
      cases a.fn <;> rfl
    rw [hs, Option.merge_none_right]
    exact h
  | some n =>
    constructor
    · rw [fn_add]
      intro hfn
      have ha : a.add (ofWire (some n)) = a.addNum (ofWire (some n)) := by
        rcases hfn with hfn | hfn <;> simp [AggAcc.add, hfn, ofWire]
      have hop : a.fn.op = (· + ·) := by
        rcases hfn with hfn | hfn <;> rw [hfn] <;> rfl
      rw [ha, hop]
      exact addNum_ofWire hN n (h.num hfn)
    · rw [fn_add]
      rintro (hfn | hfn)
      · have ha : a.add (ofWire (some n)) = a.addBest .lt (ofWire (some n)) := by
          simp [AggAcc.add, hfn, ofWire]
        rw [ha, hfn]
        refine addBest_ofWire hN n ?_ (h.best (.inl hfn))
        intro m
        simp only [AggregateFunc.op]
        grind
      · have ha : a.add (ofWire (some n)) = a.addBest .gt (ofWire (some n)) := by
          simp [AggAcc.add, hfn, ofWire]
        rw [ha, hfn]
        refine addBest_ofWire hN n ?_ (h.best (.inr hfn))
        intro m
        simp only [AggregateFunc.op]
        grind

def accOf (f : AggregateFunc) (vs : List (Option Int)) : AggAcc N :=
  vs.foldl (fun a v => a.add (ofWire v)) { fn := f }

theorem fn_accOf (f : AggregateFunc) (vs : List (Option Int)) : (accOf f vs : AggAcc N).fn = f := by
  induction vs using reverseRecOn with
  | nil => rfl
  | append_singleton vs v ih =>
    rw [accOf, foldl_concat, fn_add]
    exact ih

/-- The accumulator of a column stands for the fold of its values. -/
theorem stands_accOf (hN : N.Exact) (f : AggregateFunc) (vs : List (Option Int)) :
    (accOf f vs : AggAcc N).Stands (foldSome f.op vs) := by
  induction vs using reverseRecOn with
  | nil =>
    constructor
    · intro _
      exact ⟨rfl, rfl, rfl⟩
    · intro _
      exact ⟨rfl, rfl⟩
  | append_singleton vs v ih =>
    have hs := ih.add hN v
    rw [fn_accOf, ← foldl_merge] at hs
    rw [accOf, foldl_concat, ← foldl_merge, foldl_concat]
    exact hs

def encodeValue : Value N → Option Str
  | .nil => none
  | v => some (toStr v)

theorem encodeRow_eq (row : ResultRow N) : encodeRow row = row.map encodeValue := rfl

theorem encodeValue_ofWire (o : Option Int) : encodeValue (ofWire o : Value N) = o.map itoa := by
  cases o <;> rfl

/-- What is sent back is the combined value. -/
theorem encodeValue_result (hN : N.Exact) {f : AggregateFunc} (hf : f ≠ .none) (vs : List (Option Int)) :
    encodeValue (accOf f vs : AggAcc N).result = (f.combine vs).map itoa := by
  have hfn := fn_accOf (N := N) f vs
  have h := stands_accOf hN f vs
  unfold result AggregateFunc.combine
  rw [hfn]
  cases f with
  | none => exact absurd rfl hf
  | count =>
    obtain ⟨hfl, hn, hi⟩ := h.num (.inl hfn)
    simp only [total, hfl, hn, hi, if_true]
    cases foldSome AggregateFunc.count.op (vs : Multiset (Option Int)) <;> rfl
  | sum =>
    obtain ⟨hfl, hn, hi⟩ := h.num (.inr hfn)
    simp only [total, hfl, hn, hi]
    cases foldSome AggregateFunc.sum.op (vs : Multiset (Option Int)) <;> rfl
  | min =>
    simp only [(h.best (.inl hfn)).1]
    exact encodeValue_ofWire _
  | max =>
    simp only [(h.best (.inr hfn)).1]
    exact encodeValue_ofWire _

/-! ### The groups -/

theorem toStr_ofWire_injective {o' : Option Int} (h : toStr (ofWire o : Value N) = toStr (ofWire o' : Value N)) :
    o = o' := by
  have hn : ∀ n, itoa n ≠ str "<nil>" := by
    intro n heq
    have hm : byte '<' ∈ itoa n := by
      rw [heq]
      decide
    exact absurd (isNumberByte_of_mem_itoa hm) (by decide)
  cases o with
  | none =>
    cases o' with
    | none => rfl
    | some n => exact absurd h.symm (hn n)
  | some m =>
    cases o' with
    | none => exact absurd h (hn m)
    | some n => exact congrArg some (itoa_injective h)

theorem separator_notMem_toStr (o : Option Int) : (0x1f : UInt8) ∉ toStr (ofWire o : Value N) := by
  cases o with
  | none =>
    rw [ofWire, toStr]
    decide
  | some n =>
    intro h
    exact absurd (isNumberByte_of_mem_itoa (n := n) h) (by decide)

theorem aggGroupKey_cons (f : AggregateFunc) (aggs : List AggregateFunc) (row : ResultRow N) :
    aggGroupKey row (f :: aggs) =
      (if f ≠ .none then [] else toStr (valueAt row 0) ++ [0x1f]) ++ aggGroupKey row.tail aggs := by
  have ht : ∀ i, valueAt row (i + 1) = valueAt row.tail i := by
    intro i
    cases row <;> rfl
  rw [aggGroupKey, mapIdx_cons, flatten_cons]
  simp only [ht]
  rfl

theorem visible_cons (f : AggregateFunc) (aggs : List AggregateFunc) (row : IntRow) :
    visible (f :: aggs) row = (if f = .none then IntRow.at row 0 else none) :: visible aggs row.tail := by
  have ht : ∀ i, IntRow.at row (i + 1) = IntRow.at row.tail i := by
    intro i
    cases row <;> rfl
  rw [visible, mapIdx_cons]
  simp only [ht]
  rfl

/-- Two rows share a group key if and only if their plain columns agree. -/
theorem aggGroupKey_eq_iff (aggs : List AggregateFunc) (row row' : IntRow) :
    aggGroupKey (row.map (ofWire (N := N))) aggs = aggGroupKey (row'.map (ofWire (N := N))) aggs ↔
      visible aggs row = visible aggs row' := by
  induction aggs generalizing row row' with
  | nil => simp [aggGroupKey, visible]
  | cons f aggs ih =>
    rw [aggGroupKey_cons, aggGroupKey_cons, visible_cons, visible_cons, valueAt_map_ofWire, valueAt_map_ofWire,
      ← map_tail, ← map_tail]
    by_cases hf : f = .none
    · simp only [hf, ne_eq, not_true_eq_false, if_false, if_true, append_assoc, singleton_append,
        cons.injEq, ← ih]
      constructor
      · intro h
        have hs := congrArg (Go.split 0x1f) h
        rw [split_append_sep (separator_notMem_toStr _), split_append_sep (separator_notMem_toStr _)] at hs
        have hh := toStr_ofWire_injective (cons.inj hs).1
        rw [hh] at h
        exact ⟨hh, (cons.inj (append_cancel_left h)).2⟩
      · rintro ⟨hh, ht⟩
        rw [hh, ht]
    · simp only [hf, ne_eq, not_false_eq_true, if_true, if_false, nil_append, ih, cons.injEq, true_and]

private def groupOf (rows : List IntRow) : Group N where
  keyRow := (rows.headD []).map ofWire
  accs := aggs.mapIdx fun i f => accOf f (rows.map fun row => IntRow.at row i)

theorem groupOf_singleton (aggs : List AggregateFunc) (row : IntRow) :
    groupOf aggs [row] = Group.add (row.map ofWire) (Group.start aggs (row.map (ofWire (N := N)))) := by
  have ha : (aggs.mapIdx fun i f => (accOf f [IntRow.at row i] : AggAcc N)) =
      (aggs.map fun f => ({ fn := f } : AggAcc N)).mapIdx fun i acc => acc.add (valueAt (row.map ofWire) i) := by
    apply ext_getElem?
    intro i
    rw [getElem?_mapIdx, getElem?_mapIdx, getElem?_map, Option.map_map, valueAt_map_ofWire]
    rfl
  exact congrArg (Group.mk (row.map ofWire)) ha

theorem groupOf_concat (aggs : List AggregateFunc) {rows : List IntRow} (row : IntRow) (hne : rows ≠ []) :
    groupOf aggs (rows ++ [row]) = Group.add (row.map ofWire) (groupOf (N := N) aggs rows) := by
  have ha : (aggs.mapIdx fun i f => (accOf f ((rows ++ [row]).map fun row => IntRow.at row i) : AggAcc N)) =
      (aggs.mapIdx fun i f => accOf f (rows.map fun row => IntRow.at row i)).mapIdx
        fun i acc => acc.add (valueAt (row.map ofWire) i) := by
    apply ext_getElem?
    intro i
    rw [getElem?_mapIdx, getElem?_mapIdx, getElem?_mapIdx, Option.map_map, valueAt_map_ofWire]
    congr 1
    funext f
    rw [map_append, accOf, map_singleton, foldl_concat]
    rfl
  have hh : (rows ++ [row]).headD [] = rows.headD [] := by
    cases rows with
    | nil => exact absurd rfl hne
    | cons r rows => rfl
  unfold groupOf Group.add
  rw [ha, hh]

/-- A group is sent back as the combination of its rows. -/
theorem encodeRow_groupOf (hN : N.Exact) (aggs : List AggregateFunc) {key : IntRow} {rows : List IntRow}
    (hne : rows ≠ []) (hkey : ∀ row ∈ rows, visible aggs row = key) :
    encodeRow (groupOf (N := N) aggs rows).row = wireRow (combineRows aggs key rows) := by
  obtain ⟨first, rest, rfl⟩ := exists_cons_of_ne_nil hne
  have hfr := hkey first (by simp)
  rw [encodeRow_eq, Group.row, wireRow, combineRows, groupOf]
  apply ext_getElem?
  intro i
  simp only [getElem?_map, getElem?_mapIdx, Option.map_map]
  cases hf : aggs[i]? with
  | none => rfl
  | some f =>
    simp only [Option.map_some, Function.comp_apply, fn_accOf, Option.some.injEq]
    by_cases hn : f = .none
    · have hat : IntRow.at first i = IntRow.at key i := by
        rw [← hfr]
        simp [visible, IntRow.at, getD_eq_getElem?_getD, getElem?_mapIdx, hf, hn]
      rw [if_pos hn, if_pos hn, headD_cons, valueAt_map_ofWire, encodeValue_ofWire, hat]
    · rw [if_neg hn, if_neg hn, encodeValue_result hN hn, Multiset.map_coe]

/-- The merge of the code is `remerge`, up to the order of the rows. -/
theorem coe_mergeAggregatePartials (hN : N.Exact) {aggs : List AggregateFunc} (ha : aggs ≠ []) (rows : List IntRow) :
    (((mergeAggregatePartials ((rows.map wireRow).map decodeRow) aggs : List (ResultRow N)).map encodeRow :
      List (List (Option Str))) : Multiset (List (Option Str))) = (remerge aggs rows).map wireRow := by
  have hd : (rows.map wireRow).map decodeRow = rows.map fun row => row.map (ofWire (N := N)) := by
    rw [map_map]
    exact map_congr_left fun row _ => decodeRow_wireRow row
  have hl := foldl_upsert (fun row : IntRow => aggGroupKey (row.map (ofWire (N := N))) aggs)
    (groupOf_singleton (N := N) aggs) (fun rows row hne => groupOf_concat aggs row hne) rows
  have hg : (firstKeys (visible aggs) rows).map
      (fun k => encodeRow (groupOf (N := N) aggs (rows.filter fun row => visible aggs row = k)).row) =
      (firstKeys (visible aggs) rows).map
        fun k => wireRow (combineRows aggs k (rows.filter fun row => visible aggs row = k)) := by
    refine map_congr_left ?_
    intro k hk
    obtain ⟨row, hw, hv⟩ := mem_firstKeys.1 hk
    refine encodeRow_groupOf hN aggs ?_ ?_
    · exact ne_nil_of_mem (mem_filter.2 ⟨hw, by simpa using hv⟩)
    · intro row' hw'
      simpa using (mem_filter.1 hw').2
  have hr : (mergeAggregatePartials ((rows.map wireRow).map decodeRow) aggs : List (ResultRow N)).map encodeRow =
      (firstKeys (visible aggs) rows).map
        fun k => wireRow (combineRows aggs k (rows.filter fun row => visible aggs row = k)) := by
    rw [mergeAggregatePartials, if_neg ha, mergeAggregate, hd, foldl_map, hl, map_map, map_map,
      ← hg]
    exact map_firstKeys_congr (aggGroupKey_eq_iff aggs) (fun rows => encodeRow (groupOf (N := N) aggs rows).row) rows
  rw [hr, ← Multiset.map_coe, coe_firstKeys, remerge, regroup, Multiset.map_map]
  rfl

end Merge

end PostgresOperator
