import PostgresOperator.Router.AggregateMerge

/-!
# Answers of the shards and of the whole table

The answers of a query on the shards, merged by the aggregate functions of its select list, are an answer on the whole
table if it has no HAVING and either its groups can be told apart by the selected columns, no COUNT or SUM is over
DISTINCT values and LIMIT does not cut groups off (`Select.Distributes`), or any value of a group will do
(`Select.OneExtreme`).
-/

namespace PostgresOperator

open Go Grouping Multiset Select

/-! ### Which queries can be merged -/

def SqlAggregate.func : SqlAggregate → AggregateFunc
  | .count => .count
  | .sum => .sum
  | .min => .min
  | .max => .max

def Item.aggregate : Item → AggregateFunc
  | .column _ _ => .none
  | .countAll _ => .count
  | .call fn _ _ _ => fn.func

theorem SqlAggregate.func_ne_none (fn : SqlAggregate) : fn.func ≠ .none := by
  cases fn <;> decide

def Select.aggregates (s : Select) : List AggregateFunc := s.items.map Item.aggregate

/-- `COUNT(DISTINCT …)` or `SUM(DISTINCT …)` -/
def Item.distinctTotal : Item → Bool
  | .call .count distinct _ _ | .call .sum distinct _ _ => distinct
  | _ => false

def Item.Calls (fn : SqlAggregate) (c : Str) : Item → Prop
  | .call fn' _ c' _ => fn' = fn ∧ c'.column = c
  | _ => False

variable {item : Item}

theorem Item.Calls.aggregate_ne {fn : SqlAggregate} {c : Str} (h : item.Calls fn c) : item.aggregate ≠ .none := by
  cases item with
  | call fn' distinct c' label => exact fn'.func_ne_none
  | _ => exact h.elim

structure Select.Distributes (s : Select) : Prop where
  total : ∀ item ∈ s.items, item.distinctTotal = false
  selected : ∀ c ∈ s.groupColumns, c ∈ s.columns
  uncut : s.limit = none ∨ s.groupBy = []

/-- `SELECT MIN(c), … GROUP BY c, … LIMIT 1` -/
structure Select.OneExtreme (s : Select) : Prop where
  one : s.limit = some 1
  calls : ∃ fn c, (fn = .min ∨ fn = .max) ∧ c ∈ s.groupColumns ∧ ∀ item ∈ s.items, item.Calls fn c

def Select.Mergeable (s : Select) : Prop := s.having = none ∧ (s.Distributes ∨ s.OneExtreme)

/-- Answers on the shards, merged by `aggs`, are an answer on the whole table, for all conditions, tables and ways to
spread their rows over one or more shards. -/
def Select.Merges (s : Select) (aggs : List AggregateFunc) : Prop :=
  ∀ (M : Conditions) (tables : List (Multiset Tuple)), tables ≠ [] → ∀ answers : List (Multiset IntRow),
    List.Forall₂ (s.IsAnswer M) tables answers → s.IsAnswer M tables.sum (remerge aggs answers.sum)

/-! ### Rows of a group -/

variable {s : Select}

theorem IntRow.at_row {i : Nat} (h : s.items[i]? = some item)
    (g : GroupKey × Multiset Tuple) : IntRow.at (s.row g) i = item.value g := by
  simp [IntRow.at, row, List.getD_eq_getElem?_getD, h]

theorem visible_row (s : Select) (k : GroupKey) (rows rows' : Multiset Tuple) :
    visible s.aggregates (s.row (k, rows)) = visible s.aggregates (s.row (k, rows')) := by
  unfold visible aggregates
  apply List.ext_getElem?
  intro i
  rw [List.getElem?_mapIdx, List.getElem?_mapIdx, List.getElem?_map]
  cases h : s.items[i]? with
  | none => rfl
  | some item =>
    simp only [Option.map_some, IntRow.at_row h]
    cases item with
    | column c label => rfl
    | countAll label => rfl
    | call fn distinct c label => simp [Item.aggregate, fn.func_ne_none]

theorem at_visible_row {i : Nat} {c : Ident} {label : Alias} (h : s.items[i]? = some (.column c label))
    (g : GroupKey × Multiset Tuple) :
    IntRow.at (visible s.aggregates (s.row g)) i = (g.1.lookup c.column).getD none := by
  rw [IntRow.at, visible, List.getD_eq_getElem?_getD, List.getElem?_mapIdx, aggregates, List.getElem?_map, h]
  simp only [Option.map_some, Item.aggregate, if_true, IntRow.at_row h, Option.getD_some]
  rfl

theorem visible_of_no_column (h : ∀ item ∈ s.items, item.aggregate ≠ .none) (row : IntRow) :
    visible s.aggregates row = s.items.map fun _ => none := by
  unfold visible aggregates
  apply List.ext_getElem?
  intro i
  rw [List.getElem?_mapIdx, List.getElem?_map, List.getElem?_map]
  cases hi : s.items[i]? with
  | none => rfl
  | some item => simp [h item (List.mem_of_getElem? hi)]

theorem combineRows_eq_row_iff (s : Select) (key : IntRow) (gs : List (GroupKey × Multiset Tuple))
    (g : GroupKey × Multiset Tuple) :
    combineRows s.aggregates key (gs.map s.row : List IntRow) = s.row g ↔
      ∀ i item, s.items[i]? = some item →
        (if item.aggregate = .none then IntRow.at key i
          else item.aggregate.combine (gs.map fun g => item.value g : List (Option Int))) = item.value g := by
  have hl : ∀ i, (combineRows s.aggregates key (gs.map s.row : List IntRow))[i]? =
      s.items[i]?.map fun item => if item.aggregate = .none then IntRow.at key i
        else item.aggregate.combine (gs.map fun g => item.value g : List (Option Int)) := by
    intro i
    rw [combineRows, List.getElem?_mapIdx, aggregates, List.getElem?_map]
    cases h : s.items[i]? with
    | none => rfl
    | some item =>
      simp only [Option.map_some, map_coe, List.map_map]
      have hat : (fun row => IntRow.at row i) ∘ s.row = fun g => item.value g := funext fun g => IntRow.at_row h g
      rw [hat]
  have hr : ∀ i : Nat, (s.row g)[i]? = s.items[i]?.map fun item : Item => item.value g := by
    intro i
    rw [row, List.getElem?_map]
  constructor
  · intro heq i item h
    have hi := hl i
    rw [heq, hr i, h] at hi
    exact (Option.some.inj hi).symm
  · intro ha
    apply List.ext_getElem?
    intro i
    rw [hl i, hr i]
    cases h : s.items[i]? with
    | none => rfl
    | some item => exact congrArg some (ha i item h)

/-! ### Merging the values of an item -/

theorem combine_count {f : Multiset Tuple → Nat} (hz : f 0 = 0) (ha : ∀ a b, f (a + b) = f a + f b)
    (gs : List (Multiset Tuple)) :
    AggregateFunc.count.combine (gs.map fun g => some (f g : Int) : List (Option Int)) = some (f gs.sum : Int) := by
  have hf : (foldSome AggregateFunc.count.op (gs.map fun g => some (f g : Int) : List (Option Int))).getD 0 =
      (f gs.sum : Int) := by
    induction gs with
    | nil => simp [hz]
    | cons g gs ih =>
      rw [List.sum_cons, ha, List.map_cons, ← cons_coe, foldSome_cons]
      push_cast
      rw [← ih]
      cases foldSome AggregateFunc.count.op (gs.map fun g => some (f g : Int) : List (Option Int)) with
      | none => simp
      | some n => rfl
  rw [AggregateFunc.combine, if_pos rfl, hf]

/-- Folding the parts and then their results is folding the whole. -/
theorem combine_fold {f : AggregateFunc} (hf : f ≠ .count) (c : Str) (gs : List (Multiset Tuple)) :
    f.combine (gs.map fun g => foldSome f.op (g.map fun r => r c) : List (Option Int)) =
      foldSome f.op (gs.sum.map fun r => r c) := by
  have hs : gs.sum.map (fun r : Tuple => r c) = (gs.map fun g => g.map fun r => r c).sum := by
    induction gs with
    | nil => rfl
    | cons g gs ih => rw [List.sum_cons, map_add, ih, List.map_cons, List.sum_cons]
  rw [AggregateFunc.combine, if_neg hf, hs, foldSome_sum, List.map_map]
  rfl

theorem Item.value_extreme {fn : SqlAggregate} (hfn : fn = .min ∨ fn = .max) (distinct : Bool) (c : Ident)
    (label : Alias) (g : GroupKey × Multiset Tuple) :
    (Item.call fn distinct c label).value g = foldSome fn.func.op (g.2.map fun r => r c.column) := by
  rcases hfn with rfl | rfl
  · cases distinct with
    | false => rfl
    | true => exact foldSome_dedup Min.min _
  · cases distinct with
    | false => rfl
    | true => exact foldSome_dedup Max.max _

/-- The values of the parts of a group combine to that of the group. -/
theorem Item.combine_value (ha : item.aggregate ≠ .none) (ht : item.distinctTotal = false)
    (k : GroupKey) (gs : List (Multiset Tuple)) :
    item.aggregate.combine (gs.map fun g => item.value (k, g) : List (Option Int)) = item.value (k, gs.sum) := by
  cases item with
  | column c label => exact absurd rfl ha
  | countAll label => exact combine_count (f := card) rfl card_add gs
  | call fn distinct c label =>
    cases fn with
    | count =>
      obtain rfl : distinct = false := ht
      refine combine_count (f := fun g => (g.map fun r => r c.column).countP fun v => v.isSome) rfl ?_ gs
      intro a b
      rw [map_add, countP_add]
    | sum =>
      obtain rfl : distinct = false := ht
      exact combine_fold (f := .sum) (by decide) c.column gs
    | min =>
      simp only [Item.value_extreme (.inl rfl)]
      exact combine_fold (f := .min) (by decide) c.column gs
    | max =>
      simp only [Item.value_extreme (.inr rfl)]
      exact combine_fold (f := .max) (by decide) c.column gs

theorem Select.combineRows_row (ht : ∀ item ∈ s.items, item.distinctTotal = false) (k : GroupKey)
    (gs : List (Multiset Tuple)) :
    combineRows s.aggregates (visible s.aggregates (s.row (k, 0)))
      ((gs.map fun g => s.row (k, g) : List IntRow) : Multiset IntRow) = s.row (k, gs.sum) := by
  have h := combineRows_eq_row_iff s (visible s.aggregates (s.row (k, 0))) (gs.map fun g => (k, g)) (k, gs.sum)
  rw [List.map_map] at h
  refine h.2 ?_
  intro i item hit
  rw [List.map_map]
  by_cases ha : item.aggregate = .none
  · rw [if_pos ha]
    cases item with
    | column c label => exact at_visible_row hit _
    | countAll label => cases ha
    | call fn distinct c label => exact absurd ha fn.func_ne_none
  · rw [if_neg ha]
    exact Item.combine_value ha (ht item (List.mem_of_getElem? hit)) k gs

/-! ### Groups that can be told apart -/

section Meaning

variable {M : Conditions}

variable {s : Select}

theorem Select.result_of_having_none (h : s.having = none) (table : Multiset Tuple) :
    s.result M table = (s.groups (table.filter fun r => s.admits M r)).map s.row := by
  rw [result, filter_eq_self.2]
  intro g _
  simp [keeps, h]

theorem sum_filter (p : Tuple → Prop) [DecidablePred p] (tables : List (Multiset Tuple)) :
    (tables.map (filter p)).sum = tables.sum.filter p := by
  induction tables with
  | nil => rfl
  | cons t tables ih => rw [List.map_cons, List.sum_cons, ih, List.sum_cons, filter_add]

theorem visible_key_injective (h : ∀ c ∈ s.groupColumns, c ∈ s.columns) (x y : Tuple)
    (heq : visible s.aggregates (s.row (s.key x, 0)) = visible s.aggregates (s.row (s.key y, 0))) :
      s.key x = s.key y := by
  refine List.map_congr_left ?_
  intro c hc
  obtain ⟨item, hit, hcol⟩ := List.mem_filterMap.1 (h c hc)
  obtain ⟨i, hi⟩ := List.mem_iff_getElem?.1 hit
  cases item with
  | column c' label =>
    obtain rfl : c'.column = c := Option.some.inj hcol
    have hat := congrArg (fun row => IntRow.at row i) heq
    simp only [at_visible_row hi, s.lookup_key _ hc, Option.getD_some] at hat
    rw [hat]
  | countAll label => cases hcol
  | call fn distinct c' label => cases hcol

/-- Merging the results of the shards gives the result of the whole table. -/
theorem Select.Distributes.remerge_result (h : s.Distributes) (hh : s.having = none)
    {tables : List (Multiset Tuple)} (hne : tables ≠ []) :
    remerge s.aggregates (tables.map (s.result M)).sum = s.result M tables.sum := by
  have hm : ∀ k (gs : List (Multiset Tuple)), gs ≠ [] →
      combineRows s.aggregates (visible s.aggregates (s.row (k, 0)))
        ((gs.map fun g => s.row (k, g) : List IntRow) : Multiset IntRow) = s.row (k, gs.sum) :=
    fun k gs _ => combineRows_row h.total k gs
  have hmp : tables.map (s.result M) =
      (tables.map (filter fun r => s.admits M r)).map fun t => (s.groups t).map s.row := by
    rw [List.map_map]
    exact List.map_congr_left fun t _ => Select.result_of_having_none hh t
  rw [hmp, Select.result_of_having_none hh, ← sum_filter]
  have hp : tables.map (filter fun r => s.admits M r) ≠ [] := by simpa using hne
  generalize tables.map (filter fun r => s.admits M r) = parts at hp
  by_cases hg : s.groupBy = []
  · -- one group for every shard
    have hgr : ∀ t, s.groups t = {([], t)} := fun t => if_pos hg
    have hr : (parts.map fun t => (s.groups t).map s.row).sum =
        ((parts.map fun t => s.row ([], t) : List IntRow) : Multiset IntRow) := by
      clear hp hmp
      induction parts with
      | nil => rfl
      | cons t parts ih =>
        rw [List.map_cons, List.sum_cons, ih, hgr, map_singleton, singleton_add, List.map_cons,
          cons_coe]
    rw [hr, hgr, map_singleton, ← hm [] parts hp]
    refine regroup_of_const _ (by simpa using hp) ?_
    intro row hw
    obtain ⟨t, -, rfl⟩ := List.mem_map.1 (mem_coe.1 hw)
    exact visible_row s [] t 0
  · have hgr : ∀ t, s.groups t = Grouping.groups s.key t := fun t => if_neg hg
    simp only [hgr]
    exact regroup_groups (fun k g => visible_row s k g 0) (visible_key_injective h.selected) hm parts

theorem Select.Distributes.merges (h : s.Distributes) (hh : s.having = none)
    (hl : s.limit ≠ some 0) : s.Merges s.aggregates := by
  intro M tables hne answers ha
  have hc : ∀ t n, s.limit = some n → card (s.result M t) ≤ n := by
    intro t n hn
    have hg : s.groupBy = [] := h.uncut.resolve_left (by rw [hn]; simp)
    have hp : n ≠ 0 := by
      rintro rfl
      exact hl hn
    rw [Select.result_of_having_none hh, Select.groups, if_pos hg]
    simpa using Nat.one_le_iff_ne_zero.2 hp
  have heq : answers = tables.map (s.result M) := by
    clear hne
    induction ha with
    | nil => rfl
    | cons hr _ ih => rw [List.map_cons, ← ih, (isAnswer_iff_of_card_le (hc _)).1 hr]
  rw [isAnswer_iff_of_card_le (hc _), heq]
  exact h.remerge_result hh hne

theorem Select.merges_of_limit_zero (hl : s.limit = some 0) (aggs : List AggregateFunc) : s.Merges aggs := by
  intro M tables hne answers ha
  have hs : answers.sum = 0 := by
    clear hne
    induction ha with
    | nil => rfl
    | cons hr _ ih => rw [List.sum_cons, hr.eq_zero hl, ih, add_zero]
  rw [hs, remerge_zero]
  refine ⟨zero_le _, ?_⟩
  rw [hl]
  simp

/-! ### Any value of a group -/

theorem foldSome_mem {op : Int → Int → Int} [Std.Commutative op] [Std.Associative op]
    (hop : ∀ a b, op a b = a ∨ op a b = b) {vs : Multiset (Option Int)} (hne : vs ≠ 0) : foldSome op vs ∈ vs := by
  induction vs using Multiset.induction_on with
  | empty => exact absurd rfl hne
  | cons v vs ih =>
    rw [foldSome_cons]
    by_cases hvs : vs = 0
    · subst hvs
      cases v <;> simp
    · have hm := ih hvs
      cases v with
      | none =>
        rw [Option.merge_none_left]
        exact mem_cons_of_mem hm
      | some a =>
        cases hf : foldSome op vs with
        | none =>
          rw [Option.merge_none_right]
          exact mem_cons_self _ _
        | some b =>
          rw [hf] at hm
          rw [Option.merge_some_some]
          rcases hop a b with h | h
          · rw [h]
            exact mem_cons_self _ _
          · rw [h]
            exact mem_cons_of_mem hm

theorem foldSome_const {op : Int → Int → Int} [Std.Commutative op] [Std.Associative op]
    (hop : ∀ a b, op a b = a ∨ op a b = b) {vs : Multiset (Option Int)} (hne : vs ≠ 0) {v : Option Int}
    (h : ∀ x ∈ vs, x = v) : foldSome op vs = v :=
  h _ (foldSome_mem hop hne)

variable {fn : SqlAggregate}

theorem op_extreme (hfn : fn = .min ∨ fn = .max) (a b : Int) : fn.func.op a b = a ∨ fn.func.op a b = b := by
  rcases hfn with rfl | rfl
  · exact min_choice a b
  · exact max_choice a b

variable {c : Str}

theorem Item.Calls.value (hfn : fn = .min ∨ fn = .max)
    (hc : c ∈ s.groupColumns) {item : Item} (hit : item.Calls fn c) {k : GroupKey} {rows : Multiset Tuple}
    (hne : rows ≠ 0) (hkey : ∀ r ∈ rows, s.key r = k) : item.value (k, rows) = (k.lookup c).getD none := by
  cases item with
  | column c' label => exact hit.elim
  | countAll label => exact hit.elim
  | call fn' distinct c' label =>
    obtain ⟨rfl, rfl⟩ := hit
    rw [Item.value_extreme hfn]
    refine foldSome_const (op_extreme hfn) (by simpa using hne) ?_
    intro v hv
    obtain ⟨r, hr, rfl⟩ := mem_map.1 hv
    rw [← hkey r hr, s.lookup_key r hc]
    rfl

theorem exists_rel_of_mem {α β : Type} {R : α → β → Prop} {as : List α} {bs : List β}
    (h : List.Forall₂ R as bs) {a : α} (ha : a ∈ as) : ∃ b ∈ bs, R a b := by
  induction h with
  | nil => cases ha
  | @cons a' b as bs hab _ ih =>
    rcases List.mem_cons.1 ha with rfl | ha
    · exact ⟨b, by simp, hab⟩
    · obtain ⟨b', hb', hr⟩ := ih ha
      exact ⟨b', by simp [hb'], hr⟩

/-- A query of one extreme over a grouping column returns one value of that column in each row. -/
theorem mem_result_of_calls (hh : s.having = none)
    (hfn : fn = .min ∨ fn = .max) (hc : c ∈ s.groupColumns) (hcl : ∀ item ∈ s.items, item.Calls fn c)
    {t : Multiset Tuple} {row : IntRow} :
    row ∈ s.result M t ↔ ∃ r ∈ t, s.admits M r ∧ row = s.items.map fun _ => r c := by
  have hg : s.groupBy ≠ [] := by
    intro hn
    rw [groupColumns, hn] at hc
    cases hc
  have hv : ∀ r ∈ t.filter (fun r => s.admits M r),
      s.row (s.key r, (t.filter fun r => s.admits M r).filter fun x => s.key x = s.key r) =
        s.items.map fun _ => r c := by
    intro r hr
    refine List.map_congr_left ?_
    intro item hit
    have hne : (t.filter fun r => s.admits M r).filter (fun x => s.key x = s.key r) ≠ 0 := by
      intro hz
      exact eq_zero_iff_forall_notMem.1 hz r (mem_filter.2 ⟨hr, rfl⟩)
    rw [(hcl item hit).value hfn hc hne (fun x hx => (mem_filter.1 hx).2), s.lookup_key r hc]
    rfl
  rw [Select.result_of_having_none hh, Select.groups, if_neg hg, Grouping.groups, map_map,
    mem_map]
  constructor
  · rintro ⟨k, hk, rfl⟩
    obtain ⟨r, hr, rfl⟩ := mem_map.1 (mem_dedup.1 hk)
    obtain ⟨hrt, ha⟩ := mem_filter.1 hr
    exact ⟨r, hrt, ha, hv r hr⟩
  · rintro ⟨r, hrt, ha, rfl⟩
    have hr : r ∈ t.filter (fun r => s.admits M r) := mem_filter.2 ⟨hrt, ha⟩
    exact ⟨s.key r, mem_dedup.2 (mem_map_of_mem _ hr), hv r hr⟩

theorem combineRows_mem (hfn : fn = .min ∨ fn = .max)
    (hcl : ∀ item ∈ s.items, item.Calls fn c) {rows : Multiset IntRow} (hne : rows ≠ 0)
    (key : IntRow) (hr : ∀ row ∈ rows, ∃ v, row = s.items.map fun _ => v) :
    combineRows s.aggregates key rows ∈ rows := by
  have hmm := foldSome_mem (op_extreme hfn) (mt map_eq_zero.1 hne : rows.map (fun row => IntRow.at row 0) ≠ 0)
  obtain ⟨first, hfr, hf⟩ := mem_map.1 hmm
  obtain ⟨v, rfl⟩ := hr first hfr
  have heq : combineRows s.aggregates key rows = s.items.map fun _ => v := by
    apply List.ext_getElem?
    intro i
    rw [combineRows, List.getElem?_mapIdx, aggregates, List.getElem?_map, List.getElem?_map]
    cases hi : s.items[i]? with
    | none => rfl
    | some item =>
      have hfu : item.aggregate = fn.func := by
        have hc := hcl item (List.mem_of_getElem? hi)
        cases item with
        | call fn' distinct c' label => rw [Item.aggregate, hc.1]
        | _ => exact hc.elim
      have hat : ∀ (w : Option Int) (j : Nat), j ≤ i → IntRow.at (s.items.map fun _ => w) j = w := by
        intro w j hj
        have hlt : j < s.items.length := lt_of_le_of_lt hj (List.getElem?_eq_some_iff.1 hi).1
        simp [IntRow.at, List.getD_eq_getElem?_getD, hlt]
      have hco : rows.map (fun row => IntRow.at row i) = rows.map fun row => IntRow.at row 0 := by
        refine map_congr rfl ?_
        intro row hw
        obtain ⟨w, rfl⟩ := hr row hw
        rw [hat w i (le_refl i), hat w 0 (Nat.zero_le i)]
      have hm : fn.func ≠ .none ∧ fn.func ≠ .count := by
        rcases hfn with rfl | rfl <;> decide
      simp only [Option.map_some, hfu, if_neg hm.1, AggregateFunc.combine, if_neg hm.2, hco, ← hf]
      rw [hat v 0 (Nat.zero_le i)]
  rw [heq]
  exact hfr

/-- Such a query merges under any LIMIT. -/
theorem Select.OneExtreme.merges (h : s.OneExtreme) (hh : s.having = none) : s.Merges s.aggregates := by
  obtain ⟨fn, c, hfn, hc, hcl⟩ := h.calls
  intro M tables _ answers han
  have hs : ∀ {t : Multiset Tuple} {row : IntRow}, row ∈ s.result M t ↔
      ∃ r ∈ t, s.admits M r ∧ row = s.items.map fun _ => r c := mem_result_of_calls hh hfn hc hcl
  have hb : ∀ row ∈ answers.sum, row ∈ s.result M tables.sum := by
    intro row hm
    obtain ⟨rows, hrw, hw⟩ := exists_mem_of_mem_sum hm
    obtain ⟨t, ht, ha⟩ := exists_rel_of_mem han.flip hrw
    obtain ⟨r, hr, ham⟩ := hs.1 (mem_of_le ha.1 hw)
    exact hs.2 ⟨r, mem_sum_of_mem ht hr, ham⟩
  have he : answers.sum = 0 → s.result M tables.sum = 0 := by
    intro hz
    rw [eq_zero_iff_forall_notMem]
    intro row hm
    obtain ⟨r, hr, ham⟩ := hs.1 hm
    obtain ⟨t, ht, hrt⟩ := exists_mem_of_mem_sum hr
    obtain ⟨rows, hrw, ha⟩ := exists_rel_of_mem han ht
    -- the shard with this row answers with one row
    have hp := card_pos_iff_exists_mem.2 ⟨_, hs.2 ⟨r, hrt, ham⟩⟩
    have hcr := ha.2
    rw [h.one] at hcr
    dsimp only at hcr
    obtain ⟨x, hx⟩ := card_pos_iff_exists_mem.1 (show 0 < card rows by omega)
    exact eq_zero_iff_forall_notMem.1 hz x (mem_sum_of_mem hrw hx)
  rw [Select.IsAnswer, h.one]
  by_cases hz : answers.sum = 0
  · rw [hz, remerge_zero, he hz]
    exact ⟨le_refl _, rfl⟩
  · have hv : ∀ row ∈ answers.sum, visible s.aggregates row = s.items.map fun _ => none := by
      intro row _
      refine visible_of_no_column ?_ row
      intro item hit
      exact (hcl item hit).aggregate_ne
    have hm := combineRows_mem hfn hcl hz (s.items.map fun _ => none) (by
      intro row hw
      obtain ⟨r, -, -, hr⟩ := hs.1 (hb row hw)
      exact ⟨r c, hr⟩)
    have ho : remerge s.aggregates answers.sum = {combineRows s.aggregates (s.items.map fun _ => none) answers.sum} :=
      regroup_of_const _ hz hv
    rw [ho]
    have hin := hb _ hm
    refine ⟨singleton_le.2 hin, ?_⟩
    have hp := card_pos_iff_exists_mem.2 ⟨_, hin⟩
    rw [card_singleton]
    dsimp only
    omega

end Meaning

end PostgresOperator
