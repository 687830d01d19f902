import PostgresOperator.Router.AggregateDetect

/-!
# Exactly when the answers of the shards can be merged

For every other query than the mergeable ones there are tables on which the merged answers of the shards are no answer
on the whole table.  So what the router sends to the client for a text whose aggregates it detects is right, for all
tables, exactly when LIMIT is 0 or the query is mergeable and its select list is read to its end
(`scatter_answer_iff`).
-/

namespace PostgresOperator

open Go Grouping Multiset Select Function

/-! ### Tables on which the merge fails -/

def openConditions : Conditions where
  ofRow _ _ := true
  ofGroup _ _ := true

def pairConditions : Conditions where
  ofRow _ _ := true
  ofGroup _ rows := 2 ≤ Multiset.card rows

def same (n : Int) : Tuple := fun _ => some n

section

variable {s : Select}

theorem Select.result_open (t : Multiset Tuple) : s.result openConditions t = (s.groups t).map s.row := by
  have ha : ∀ r, s.admits openConditions r := by
    intro r
    rw [admits]
    cases s.cond <;> rfl
  have hk : ∀ g, s.keeps openConditions g := by
    intro g
    rw [keeps]
    cases s.having <;> rfl
  rw [result, filter_eq_self.2 fun r _ => ha r, filter_eq_self.2 fun g _ => hk g]

theorem Select.groups_of_const {t : Multiset Tuple} {k : GroupKey} (hne : t ≠ 0) (hkey : ∀ r ∈ t, s.key r = k) :
    s.groups t = {(k, t)} := by
  unfold Select.groups
  split
  · rename_i hg
    obtain ⟨r, hr⟩ := exists_mem_of_ne_zero hne
    have hn : s.key r = [] := by simp [Select.key, groupColumns, hg]
    rw [← hkey r hr, hn]
  · exact Grouping.groups_of_const hne hkey

theorem Select.groups_singleton (r : Tuple) : s.groups {r} = {(s.key r, {r})} :=
  groups_of_const (by simp) (by simp)

variable {r r' : Tuple}

theorem Select.key_eq_iff : s.key r = s.key r' ↔ ∀ c ∈ s.groupColumns, r c = r' c := by
  simp [Select.key]

theorem Select.key_same_ne (hg : s.groupBy ≠ []) {m n : Int} (hne : m ≠ n) : s.key (same m) ≠ s.key (same n) := by
  intro h
  obtain ⟨c, hc⟩ := List.exists_mem_of_ne_nil s.groupColumns (by simpa [groupColumns] using hg)
  have heq := key_eq_iff.1 h c hc
  exact hne (Option.some.inj heq)

theorem Select.isAnswer_singleton (hl : s.limit ≠ some 0) (r : Tuple) :
    s.IsAnswer openConditions {r} {s.row (s.key r, {r})} := by
  have hr : s.result openConditions {r} = {s.row (s.key r, {r})} := by
    rw [result_open, groups_singleton, map_singleton]
  rw [isAnswer_iff_of_card_le, hr]
  intro n hn
  rw [hr, card_singleton]
  have hp : n ≠ 0 := by
    rintro rfl
    exact hl hn
  omega

/-! ### What a query that can be merged does not have -/

/-- A HAVING is applied on each shard to a part of the group only. -/
theorem Select.Merges.having_eq_none (h : s.Merges s.aggregates) (hlm : s.limit ≠ some 0) : s.having = none := by
  cases hh : s.having with
  | none => rfl
  | some cond =>
    have hs : ∀ t ≠ 0, (∀ r ∈ t, r = same 1) → s.result pairConditions t =
        if 2 ≤ card t then {s.row (s.key (same 1), t)} else 0 := by
      intro t hne hrw
      have ha : t.filter (fun r => s.admits pairConditions r) = t := by
        rw [filter_eq_self]
        intro r _
        rw [admits]
        cases s.cond <;> rfl
      rw [result, ha, groups_of_const hne fun r hr => by rw [hrw r hr], filter_singleton]
      by_cases hc : 2 ≤ card t
      · simp [keeps, hh, pairConditions, hc]
      · simp [keeps, hh, pairConditions, hc]
    have he : s.IsAnswer pairConditions {same 1} 0 := by
      refine ⟨zero_le _, ?_⟩
      rw [hs _ (by simp) (by simp), if_neg (by simp)]
      cases s.limit <;> simp
    have hm := h pairConditions [{same 1}, {same 1}] (by simp) [0, 0] (.cons he (.cons he .nil))
    have hc := hm.2
    rw [hs _ (by simp) (by simp), if_pos (by simp)] at hc
    cases hl : s.limit with
    | none => simp [hl] at hc
    | some n =>
      have hp : n ≠ 0 := by
        rintro rfl
        exact hlm hl
      rw [hl] at hc
      simp at hc
      omega

theorem sum_singletons (gs : List (GroupKey × Multiset Tuple)) :
    (gs.map fun g => ({s.row g} : Multiset IntRow)).sum = ((gs.map s.row : List IntRow) : Multiset IntRow) := by
  induction gs with
  | nil => rfl
  | cons g gs ih => rw [List.map_cons, List.sum_cons, ih, singleton_add, List.map_cons, cons_coe]

/-- If every shard answers with the row of one group and these rows are merged into one, the values of every aggregate
are merged into its value for some group of the whole table. -/
theorem Select.Merges.exists_group (h : s.Merges s.aggregates) {tables : List (Multiset Tuple)}
    (gs : List (GroupKey × Multiset Tuple)) (hne : tables ≠ [])
    (ha : List.Forall₂ (s.IsAnswer openConditions) tables (gs.map fun g => {s.row g})) {n : IntRow}
    (hs : ∀ g ∈ gs, visible s.aggregates (s.row g) = n) :
    ∃ g ∈ s.groups tables.sum, ∀ item ∈ s.items, item.aggregate ≠ .none →
      item.aggregate.combine (gs.map fun g => item.value g : List (Option Int)) = item.value g := by
  have hgs : gs ≠ [] := by
    rintro rfl
    cases ha
    exact hne rfl
  have hm := (h openConditions tables hne _ ha).1
  have ho : remerge s.aggregates ((gs.map s.row : List IntRow) : Multiset IntRow) =
      {combineRows s.aggregates n (gs.map s.row : List IntRow)} := by
    refine regroup_of_const _ (by simpa using hgs) ?_
    intro row hr
    obtain ⟨g, hg, rfl⟩ := List.mem_map.1 (mem_coe.1 hr)
    exact hs g hg
  rw [sum_singletons, ho, singleton_le, result_open] at hm
  obtain ⟨g, hg, hr⟩ := mem_map.1 hm
  refine ⟨g, hg, ?_⟩
  intro item hit hag
  obtain ⟨i, hi⟩ := List.mem_iff_getElem?.1 hit
  have hv := (combineRows_eq_row_iff s n gs g).1 hr.symm i item hi
  rwa [if_neg hag] at hv

variable {item : Item}

/-- A value that two shards have is counted twice. -/
theorem Select.Merges.distinctTotal_eq_false (h : s.Merges s.aggregates) (hl : s.limit ≠ some 0)
    (hit : item ∈ s.items) : item.distinctTotal = false := by
  have ho := isAnswer_singleton hl (same 1)
  obtain ⟨g, hg, hv⟩ := h.exists_group [(s.key (same 1), {same 1}), (s.key (same 1), {same 1})]
    (List.cons_ne_nil _ _) (.cons ho (.cons ho .nil))
    (n := visible s.aggregates (s.row (s.key (same 1), {same 1}))) (by simp)
  have hgr : s.groups [{same 1}, {same 1}].sum = {(s.key (same 1), {same 1, same 1})} :=
    groups_of_const (by simp) (by simp)
  rw [hgr, mem_singleton] at hg
  subst hg
  -- the value 1 is counted and summed twice
  cases item with
  | column c label => rfl
  | countAll label => rfl
  | call fn distinct c label =>
    have hc := hv _ hit fn.func_ne_none
    cases distinct with
    | false => cases fn <;> rfl
    | true =>
      cases fn with
      | count =>
        have ht : (some 2 : Option Int) = some 1 := hc
        cases ht
      | sum =>
        have ht : (some 2 : Option Int) = some 1 := hc
        cases ht
      | min => rfl
      | max => rfl

theorem visible_row_congr (h : ∀ c ∈ s.columns, r c = r' c) (rows rows' : Multiset Tuple) :
    visible s.aggregates (s.row (s.key r, rows)) = visible s.aggregates (s.row (s.key r', rows')) := by
  unfold visible
  apply List.ext_getElem?
  intro i
  rw [List.getElem?_mapIdx, List.getElem?_mapIdx, aggregates, List.getElem?_map]
  cases hi : s.items[i]? with
  | none => rfl
  | some item =>
    simp only [Option.map_some, IntRow.at_row hi]
    cases item with
    | column c label =>
      have hc : c.column ∈ s.columns := List.mem_filterMap.2 ⟨_, List.mem_of_getElem? hi, rfl⟩
      simp only [Item.value, s.lookup_key _ (s.grouped _ hc), h _ hc]
    | countAll label => rfl
    | call fn distinct c label => simp [Item.aggregate, fn.func_ne_none]

theorem Select.Merges.lt_two (h : s.Merges s.aggregates) (hg : s.groupBy ≠ [])
    (hkey : s.key r ≠ s.key r') (hs : ∀ c ∈ s.columns, r c = r' c) : ∃ n, s.limit = some n ∧ n < 2 := by
  have hr : s.result openConditions ({r} + {r'}) = {s.row (s.key r, {r}), s.row (s.key r', {r'})} := by
    have hgr := groups_add_of_const s.key (s := {r}) (t := {r'}) (by simp) (by simp) (by simp) (by simp) hkey
    rw [result_open, Select.groups, if_neg hg, hgr]
    rfl
  by_contra hno
  push Not at hno
  have hc : ∀ n, s.limit = some n → card (s.result openConditions ({r} + {r'})) ≤ n := by
    intro n hn
    rw [hr]
    exact hno n hn
  have ha : ∀ rows, s.IsAnswer openConditions ({r} + {r'}) rows ↔ rows = s.result openConditions ({r} + {r'}) :=
    fun rows => isAnswer_iff_of_card_le hc
  have hm := h openConditions [{r} + {r'}] (by simp) [s.result openConditions ({r} + {r'})]
    (.cons ((ha _).2 (Eq.refl (s.result openConditions ({r} + {r'})))) .nil)
  rw [List.sum_singleton, List.sum_singleton, ha, hr] at hm
  have hv : ∀ row ∈ ({s.row (s.key r, {r}), s.row (s.key r', {r'})} : Multiset IntRow),
      visible s.aggregates row = visible s.aggregates (s.row (s.key r, {r})) := by
    intro row hw
    simp only [insert_eq_cons, mem_cons, mem_singleton] at hw
    rcases hw with rfl | rfl
    · rfl
    · exact (visible_row_congr hs _ _).symm
  rw [remerge, regroup_of_const _ (by simp) hv] at hm
  have hc := congrArg card hm
  simp at hc

variable {c : Str}

/-- A grouping column that is not selected lets two groups fall together. -/
theorem Select.Merges.selected (h : s.Merges s.aggregates) (hl : s.limit = none) (hc : c ∈ s.groupColumns) :
    c ∈ s.columns := by
  by_contra hno
  have hg : s.groupBy ≠ [] := by
    intro hnl
    rw [groupColumns, hnl] at hc
    cases hc
  have hkey : s.key (same 1) ≠ s.key (update (same 1) c (some 2)) := by
    intro heq
    have hv := key_eq_iff.1 heq c hc
    rw [update_self] at hv
    cases hv
  obtain ⟨n, hn, -⟩ := h.lt_two hg hkey (by
    intro c' hc'
    have hne : c' ≠ c := by
      rintro rfl
      exact hno hc'
    rw [update_of_ne hne])
  rw [hl] at hn
  cases hn

/-- With a LIMIT the shards may return different groups. -/
theorem Select.Merges.columns_eq_nil (h : s.Merges s.aggregates) {n : Nat} (hl : s.limit = some n) (hp : n ≠ 0) :
    s.columns = [] := by
  by_contra hne
  obtain ⟨c, hc⟩ := List.exists_mem_of_ne_nil _ hne
  obtain ⟨item, hit, hcol⟩ := List.mem_filterMap.1 hc
  obtain ⟨i, hi⟩ := List.mem_iff_getElem?.1 hit
  have hn : s.limit ≠ some 0 := by
    rw [hl]
    simpa using hp
  let gs := (List.range (n + 1)).map fun j : Nat => (s.key (same j), ({same j} : Multiset Tuple))
  have ha : List.Forall₂ (s.IsAnswer openConditions) ((List.range (n + 1)).map fun j : Nat => {same j})
      (gs.map fun g => {s.row g}) := by
    rw [List.map_map, List.forall₂_map_left_iff, List.forall₂_map_right_iff]
    refine List.forall₂_same.2 ?_
    intro j _
    exact isAnswer_singleton hn (same j)
  have hcr := (h openConditions _ (by simp) _ ha).2
  have hv : ((gs.map s.row).map (visible s.aggregates)).Nodup := by
    rw [List.map_map, List.map_map]
    refine List.Nodup.map_on ?_ List.nodup_range
    intro j _ j' _ heq
    cases item with
    | column c' label =>
      have hat := congrArg (fun row => IntRow.at row i) heq
      have hg := s.grouped _ (List.mem_filterMap.2 ⟨_, hit, rfl⟩)
      simp only [comp_apply, at_visible_row hi, s.lookup_key _ hg, same, Option.getD_some,
        Option.some.injEq] at hat
      exact_mod_cast hat
    | countAll label => cases hcol
    | call fn distinct c' label => cases hcol
  have hm : card (remerge s.aggregates (gs.map fun g => ({s.row g} : Multiset IntRow)).sum) = n + 1 := by
    rw [sum_singletons, remerge, regroup, card_map, map_coe, coe_dedup,
      List.dedup_eq_self.2 hv]
    simp [gs]
  rw [hm, hl] at hcr
  dsimp only at hcr
  omega

theorem pair_values (h : s.Merges s.aggregates) (hl : s.limit ≠ some 0) (hgr : s.groupBy ≠ [])
    (ha : ∀ item ∈ s.items, item.aggregate ≠ .none) (hkey : s.key r ≠ s.key r') :
    ∃ g ∈ [(s.key r, ({r} : Multiset Tuple)), (s.key r', {r'})], ∀ item ∈ s.items,
      item.aggregate.combine ([item.value (s.key r, {r}), item.value (s.key r', {r'})] : List (Option Int)) =
        item.value g := by
  obtain ⟨g, hg, hv⟩ := h.exists_group [(s.key r, {r}), (s.key r', {r'})] (List.cons_ne_nil _ _)
    (.cons (isAnswer_singleton hl r) (.cons (isAnswer_singleton hl r') .nil))
    fun g _ => visible_of_no_column ha (s.row g)
  have hgro := groups_add_of_const s.key (s := {r}) (t := {r'}) (by simp) (by simp) (by simp) (by simp) hkey
  have hs : ([{r}, {r'}] : List (Multiset Tuple)).sum = {r} + {r'} := by simp
  rw [hs, Select.groups, if_neg hgr, hgro] at hg
  refine ⟨g, by simpa using hg, ?_⟩
  intro item hit
  exact hv item hit (ha item hit)

theorem exists_extreme (h : s.Merges s.aggregates) (hl : s.limit ≠ some 0) (hgr : s.groupBy ≠ [])
    (ha : ∀ item ∈ s.items, item.aggregate ≠ .none) :
    ∃ fn, (fn = .min ∨ fn = .max) ∧ ∀ item ∈ s.items, ∃ c, item.Calls fn c := by
  obtain ⟨g, hg, hv⟩ := pair_values h hl hgr ha (s.key_same_ne hgr (show (1 : Int) ≠ 2 by decide))
  have hno : ∀ {m n : Int}, m ≠ n → ¬(some m : Option Int) = some n := fun hne heq => hne (Option.some.inj heq)
  simp only [List.mem_cons, List.not_mem_nil, or_false] at hg
  rcases hg with rfl | rfl
  · refine ⟨.min, Or.inl rfl, ?_⟩
    intro item hit
    have heq := hv item hit
    cases item with
    | column c label => exact absurd rfl (ha _ hit)
    | countAll label => exact absurd heq (hno (show (2 : Int) ≠ 1 by decide))
    | call fn distinct c label =>
      cases fn with
      | count => cases distinct <;> exact absurd heq (hno (show (2 : Int) ≠ 1 by decide))
      | sum => cases distinct <;> exact absurd heq (hno (show (3 : Int) ≠ 1 by decide))
      | min => exact ⟨c.column, rfl, rfl⟩
      | max => cases distinct <;> exact absurd heq (hno (show (2 : Int) ≠ 1 by decide))
  · refine ⟨.max, Or.inr rfl, ?_⟩
    intro item hit
    have heq := hv item hit
    cases item with
    | column c label => exact absurd rfl (ha _ hit)
    | countAll label => exact absurd heq (hno (show (2 : Int) ≠ 1 by decide))
    | call fn distinct c label =>
      cases fn with
      | count => cases distinct <;> exact absurd heq (hno (show (2 : Int) ≠ 1 by decide))
      | sum => cases distinct <;> exact absurd heq (hno (show (3 : Int) ≠ 2 by decide))
      | min => cases distinct <;> exact absurd heq (hno (show (1 : Int) ≠ 2 by decide))
      | max => exact ⟨c.column, rfl, rfl⟩

variable {fn : SqlAggregate}

theorem value_calls (hfn : fn = .min ∨ fn = .max) (h : item.Calls fn c) (k : GroupKey) (rows : Multiset Tuple) :
    item.aggregate = fn.func ∧ item.value (k, rows) = foldSome fn.func.op (rows.map fun r => r c) := by
  cases item with
  | call fn' distinct c' label =>
    obtain ⟨rfl, rfl⟩ := h
    exact ⟨rfl, Item.value_extreme hfn distinct c' label (k, rows)⟩
  | _ => exact h.elim

theorem combine_calls (hfn : fn = .min ∨ fn = .max) (v w : Int) :
    fn.func.combine ([some v, some w] : List (Option Int)) = some (fn.func.op v w) := by
  rcases hfn with rfl | rfl <;> rfl

theorem crossed_values (h : s.Merges s.aggregates) (hl : s.limit = some 1) (hgr : s.groupBy ≠ [])
    (ha : ∀ item ∈ s.items, item.aggregate ≠ .none) (hfn : fn = .min ∨ fn = .max)
    (hc : c ∉ s.groupColumns) (hit : item ∈ s.items) (hcl : item.Calls fn c) (a b a' b' : Int) :
    fn.func.op a b' = fn.func.op a a' ∨ fn.func.op a b' = fn.func.op b b' := by
  let row (k v : Int) : Tuple := update (same k) c (some v)
  have hkey : ∀ k v, s.key (row k v) = s.key (same k) := by
    intro k v
    rw [key_eq_iff]
    intro c' hc'
    have hne : c' ≠ c := by
      rintro rfl
      exact hc hc'
    exact update_of_ne hne _ _
  have hne : s.key (same 1) ≠ s.key (same 2) := s.key_same_ne hgr (by decide)
  have hgro : ∀ t t' : Multiset Tuple, t ≠ 0 → t' ≠ 0 → (∀ r ∈ t, s.key r = s.key (same 1)) →
      (∀ r ∈ t', s.key r = s.key (same 2)) → s.groups (t + t') = {(s.key (same 1), t), (s.key (same 2), t')} := by
    intro t t' ht ht' hk hk'
    rw [Select.groups, if_neg hgr, groups_add_of_const s.key ht ht' hk hk' hne]
  have hs : ∀ v w, s.result openConditions ({row 1 v} + {row 2 w}) =
      {s.row (s.key (same 1), {row 1 v}), s.row (s.key (same 2), {row 2 w})} := by
    intro v w
    rw [result_open, hgro _ _ (by simp) (by simp) (by simp [hkey]) (by simp [hkey])]
    rfl
  have hf : s.IsAnswer openConditions ({row 1 a} + {row 2 b}) {s.row (s.key (same 1), {row 1 a})} := by
    refine ⟨?_, ?_⟩
    · rw [hs, singleton_le]
      exact mem_cons_self _ _
    · rw [hl, hs]
      rfl
  have hsc : s.IsAnswer openConditions ({row 1 a'} + {row 2 b'}) {s.row (s.key (same 2), {row 2 b'})} := by
    refine ⟨?_, ?_⟩
    · rw [hs, singleton_le]
      exact mem_cons_of_mem (mem_singleton_self _)
    · rw [hl, hs]
      rfl
  obtain ⟨g, hg, hv⟩ := h.exists_group [(s.key (same 1), {row 1 a}), (s.key (same 2), {row 2 b'})]
    (List.cons_ne_nil _ _)
    (.cons hf (.cons hsc .nil)) fun g _ => visible_of_no_column ha (s.row g)
  have hm : ([{row 1 a} + {row 2 b}, {row 1 a'} + {row 2 b'}] : List (Multiset Tuple)).sum =
      ({row 1 a} + {row 1 a'}) + ({row 2 b} + {row 2 b'}) := by
    rw [List.sum_cons, List.sum_singleton, add_add_add_comm]
  rw [hm, hgro _ _ (by simp) (by simp) (by simp [hkey]) (by simp [hkey])] at hg
  have hat : ∀ k v, row k v c = some v := fun k v => update_self _ _ _
  have heq := hv item hit (ha item hit)
  simp only [List.map_cons, List.map_nil, (value_calls hfn hcl _ _).2, (value_calls hfn hcl [] 0).1,
    map_singleton, hat] at heq
  have hn : ∀ v : Option Int, foldSome fn.func.op {v} = v := fun v => Option.merge_none_right
  have hp : ∀ v w : Int, foldSome fn.func.op ({some v} + {some w}) = some (fn.func.op v w) := by
    intro v w
    rw [foldSome_add, hn, hn]
    rfl
  rw [hn, hn, combine_calls hfn] at heq
  simp only [insert_eq_cons, mem_cons, mem_singleton] at hg
  rcases hg with rfl | rfl
  · left
    simp only [map_add, map_singleton, hat, hp] at heq
    exact Option.some.inj heq
  · right
    simp only [map_add, map_singleton, hat, hp] at heq
    exact Option.some.inj heq

/-- Under a LIMIT only one MIN or MAX over a grouping column is left. -/
theorem Select.Merges.oneExtreme (h : s.Merges s.aggregates) {n : Nat} (hl : s.limit = some n) (hp : n ≠ 0)
    (hgr : s.groupBy ≠ []) (hite : s.items ≠ []) : s.OneExtreme := by
  have hco := h.columns_eq_nil hl hp
  have ha : ∀ item ∈ s.items, item.aggregate ≠ .none := by
    intro item hit
    cases item with
    | column c label =>
      have hmm : c.column ∈ s.columns := List.mem_filterMap.2 ⟨_, hit, rfl⟩
      rw [hco] at hmm
      cases hmm
    | countAll label => simp [Item.aggregate]
    | call fn distinct c label => exact fn.func_ne_none
  have h0 : s.limit ≠ some 0 := by
    rw [hl]
    simpa using hp
  obtain ⟨m, hm, hlt⟩ := h.lt_two hgr (s.key_same_ne hgr (show (1 : Int) ≠ 2 by decide)) (by simp [hco])
  have ho : s.limit = some 1 := by
    obtain rfl : n = m := Option.some.inj (hl.symm.trans hm)
    rw [hl]
    congr 1
    omega
  obtain ⟨fn, hfn, hcl⟩ := exists_extreme h h0 hgr ha
  have hmm : ∀ item ∈ s.items, ∀ c, item.Calls fn c → c ∈ s.groupColumns := by
    intro item hit c hc
    by_contra hno
    rcases hfn with rfl | rfl
    · rcases crossed_values h ho hgr ha (.inl rfl) hno hit hc 5 1 3 7 with heq | heq <;>
        exact absurd heq (by decide)
    · rcases crossed_values h ho hgr ha (.inr rfl) hno hit hc 1 9 3 0 with heq | heq <;>
        exact absurd heq (by decide)
  obtain ⟨first, hf⟩ := List.exists_mem_of_ne_nil _ hite
  obtain ⟨c, hc⟩ := hcl first hf
  refine ⟨ho, fn, c, hfn, hmm first hf c hc, ?_⟩
  intro item hit
  obtain ⟨c', hc'⟩ := hcl item hit
  by_cases hs : c' = c
  · rwa [hs] at hc'
  · -- two columns that grow in opposite directions
    let row (v w : Int) : Tuple := update (update (same 0) c (some v)) c' (some w)
    have hat : ∀ v w, row v w c = some v := by
      intro v w
      exact (update_of_ne (Ne.symm hs) _ _).trans (update_self _ _ _)
    have hat' : ∀ v w, row v w c' = some w := fun v w => update_self _ _ _
    have hkey : s.key (row 1 2) ≠ s.key (row 2 1) := by
      intro heq
      have hvl := key_eq_iff.1 heq c (hmm first hf c hc)
      rw [hat, hat] at hvl
      cases hvl
    obtain ⟨g, hg, hv⟩ := pair_values h h0 hgr ha hkey
    have h₁ := hv first hf
    have h₂ := hv item hit
    have hn : ∀ v : Option Int, foldSome fn.func.op {v} = v := fun v => Option.merge_none_right
    simp only [(value_calls hfn hc _ _).2, (value_calls hfn hc [] 0).1, (value_calls hfn hc' _ _).2,
      (value_calls hfn hc' [] 0).1, map_singleton, hat, hat', hn, combine_calls hfn] at h₁ h₂
    simp only [List.mem_cons, List.not_mem_nil, or_false] at hg
    rcases hg with rfl | rfl
    · simp only [map_singleton, hat, hat', hn, Option.some.injEq] at h₁ h₂
      rcases hfn with rfl | rfl
      · exact absurd h₂ (by decide)
      · exact absurd h₁ (by decide)
    · simp only [map_singleton, hat, hat', hn, Option.some.injEq] at h₁ h₂
      rcases hfn with rfl | rfl
      · exact absurd h₁ (by decide)
      · exact absurd h₂ (by decide)

/-- The queries whose parts can be merged, by their form. -/
theorem Select.merges_iff (hit : s.items ≠ []) : s.Merges s.aggregates ↔ s.limit = some 0 ∨ s.Mergeable := by
  constructor
  · intro h
    by_cases hlm : s.limit = some 0
    · exact .inl hlm
    · refine .inr ⟨h.having_eq_none hlm, ?_⟩
      have ht : ∀ item ∈ s.items, item.distinctTotal = false := fun _ => h.distinctTotal_eq_false hlm
      cases hl : s.limit with
      | none => exact .inl ⟨ht, fun _ => h.selected hl, Or.inl hl⟩
      | some n =>
        by_cases hg : s.groupBy = []
        · exact .inl ⟨ht, by simp [groupColumns, hg], Or.inr hg⟩
        · exact .inr (h.oneExtreme hl (by rintro rfl; exact hlm hl) hg hit)
  · rintro (hlm | ⟨hh, hd | he⟩)
    · exact merges_of_limit_zero hlm _
    · by_cases hlm : s.limit = some 0
      · exact merges_of_limit_zero hlm _
      · exact hd.merges hh hlm
    · exact he.merges hh

/-! ### What the client gets -/

/-- The rows that the client gets are an answer on the whole table, whatever answers the shards give. -/
def Select.AnswersRight (N : Numbers) (s : Select) (aggs : List AggregateFunc) : Prop :=
  ∀ (M : Conditions) (tables : List (Multiset Tuple)), tables ≠ [] → ∀ answers : List (List IntRow),
    List.Forall₂ (fun table (rows : List IntRow) => s.IsAnswer M table rows) tables answers →
      ∃ rows, s.IsAnswer M tables.sum rows ∧
        (((mergeAggregatePartials ((answers.flatten.map wireRow).map decodeRow) aggs : List (ResultRow N)).map
          encodeRow :
          List (List (Option Str))) : Multiset (List (Option Str))) = rows.map wireRow

theorem sum_coe_flatten (answers : List (List IntRow)) :
    (answers.map ofList).sum = (answers.flatten : Multiset IntRow) := by
  induction answers with
  | nil => rfl
  | cons rows answers ih => rw [List.map_cons, List.sum_cons, ih, List.flatten_cons, coe_add]

variable {aggs : List AggregateFunc}

/-- The answer of the code is right if and only if the query merges. -/
theorem Select.answersRight_iff {N : Numbers} (hN : N.Exact) (ha : aggs ≠ []) :
    s.AnswersRight N aggs ↔ s.Merges aggs := by
  constructor
  · intro h M tables hne answers hs
    have hl : List.Forall₂ (fun table (rows : List IntRow) => s.IsAnswer M table rows) tables
        (answers.map toList) := by
      rw [List.forall₂_map_right_iff]
      refine hs.imp ?_
      intro table rows hr
      rwa [coe_toList]
    have hm : ((answers.map toList).flatten : Multiset IntRow) = answers.sum := by
      rw [← sum_coe_flatten, List.map_map]
      congr 1
      exact (List.map_congr_left fun rows _ => coe_toList rows).trans (List.map_id answers)
    obtain ⟨rows, hr, hw⟩ := h M tables hne _ hl
    rw [coe_mergeAggregatePartials hN ha, hm] at hw
    rwa [map_injective wireRow_injective hw]
  · intro h M tables hne answers hs
    refine ⟨remerge aggs answers.flatten, ?_, coe_mergeAggregatePartials hN ha _⟩
    rw [← sum_coe_flatten]
    refine h M tables hne _ ?_
    rw [List.forall₂_map_right_iff]
    exact hs

theorem ne_nil_of_detectAggregates {query : Str} (h : detectAggregates query = some aggs) : aggs ≠ [] := by
  rw [detectAggregates] at h
  cases ht : tokenize query with
  | nil =>
    rw [ht] at h
    cases h
  | cons first rest =>
    rw [ht] at h
    obtain ⟨-, -, -, ha⟩ := detectTokens_eq_some h
    rintro rfl
    cases ha

theorem not_merges_of_length (hl : s.limit ≠ some 0) (hlt : aggs.length < s.items.length) : ¬s.Merges aggs := by
  intro h
  have hm := h openConditions [{same 1}] (by simp) _ (.cons (isAnswer_singleton hl (same 1)) .nil)
  rw [List.sum_singleton, List.sum_singleton, remerge,
    regroup_of_const _ (by simp) (fun row hr => by rw [mem_singleton.1 hr])] at hm
  have hn := hm.length_eq (mem_singleton_self _)
  rw [combineRows, List.length_mapIdx] at hn
  omega

end

/-- If the aggregates of a text are detected, the client gets right answers for LIMIT 0 and for mergeable queries
whose functions are those detected, and if the router and PostgreSQL read the comments up to FROM alike, for no other
query than these, and the functions are those of the query unless a name in the list is taken for FROM. -/
theorem scatter_answer_iff (N : Numbers) (hN : N.Exact) (t : SqlText) (s : Select) (hwrites : t.WritesSelect s)
    (aggs : List AggregateFunc) (hdetect : detectAggregates t.text = some aggs) :
    (s.limit = some 0 ∨ aggs = s.aggregates ∧ s.Mergeable → s.AnswersRight N aggs) ∧
      (t.PlainList s → (s.AnswersRight N aggs ↔ s.limit = some 0 ∨ listRead s.items ∧ s.Mergeable)) := by
  have ha := ne_nil_of_detectAggregates hdetect
  rw [answersRight_iff hN ha]
  have hit : aggs = s.aggregates → s.items ≠ [] := by
    rintro rfl hn
    exact ha (by rw [aggregates, hn]; rfl)
  constructor
  · rintro (hl | ⟨heq, hm⟩)
    · exact merges_of_limit_zero hl aggs
    · have h := (merges_iff (hit heq)).2 (.inr hm)
      rwa [← heq] at h
  · intro hp
    obtain ⟨hr, hs⟩ := hwrites.detectAggregates hp hdetect
    cases hls : listRead s.items with
    | true =>
      have heq := hr hls
      have hif := merges_iff (hit heq)
      rw [← heq] at hif
      simpa using hif
    | false =>
      have hlt := hs hls
      constructor
      · intro h
        by_contra hno
        exact not_merges_of_length (fun hl => hno (.inl hl)) hlt h
      · rintro (hl | ⟨hf, -⟩)
        · exact merges_of_limit_zero hl aggs
        · cases hf

private def word (n : String) (h : isWord (str n) := by exact Eq.refl true) : Ident := .plain ⟨str n, h⟩

theorem isNumber_one : isNumber "1" ∧ (([] : Str) = [] ∨ isWord []) := by decide

/-- `SELECT k, COUNT(*) AS n, max(DISTINCT v) m FROM t WHERE v > 1 GROUP BY k` -/
def totalsQuery : Select where
  items := [.column (word "k"), .countAll (.as (word "n")), .call .max true (word "v") (.bare (word "m"))]
  table := word "t"
  cond := some [kw "v", .op ">", .number "1" [] isNumber_one]
  groupBy := [word "k"]

def totalsText : SqlText where
  pieces := [kw "SELECT", .blank 32, kw "k", .punct ',', .blank 32, kw "COUNT", .punct '(', .op "*",
    .punct ')', .blank 32, kw "AS", .blank 32, kw "n", .punct ',', .blank 32, kw "max", .punct '(',
    kw "DISTINCT", .blank 32, kw "v", .punct ')', .blank 32, kw "m", .blank 32, kw "FROM", .blank 32, kw "t"]
    ++ [.blank 32, kw "WHERE", .blank 32, kw "v", .op ">", .number "1" [] isNumber_one, .blank 32, kw "GROUP",
      .blank 32,
      kw "BY", .blank 32, kw "k"]

theorem scatter_answer_iff_totals :
    totalsText.WritesSelect totalsQuery ∧ detectAggregates totalsText.text = some [.none, .count, .max] ∧
      totalsQuery.AnswersRight exactNumbers [.none, .count, .max] := by
  have hw : totalsText.WritesSelect totalsQuery := by
    unfold SqlText.WritesSelect
    decide +kernel
  have hd : detectAggregates totalsText.text = some [.none, .count, .max] := by decide +kernel
  have hp : totalsText.PlainList totalsQuery := by decide +kernel
  refine ⟨hw, hd, ?_⟩
  refine ((scatter_answer_iff _ exactNumbers_exact totalsText totalsQuery hw _ hd).2 hp).2 (.inr ?_)
  exact ⟨by decide +kernel, rfl, Or.inl ⟨by decide +kernel, by decide +kernel, Or.inl rfl⟩⟩

def distinctQuery : Select where
  items := [.call .count true (word "v")]
  table := word "t"

def distinctText : SqlText where
  pieces := [kw "SELECT", .blank 32, kw "count", .punct '(', kw "DISTINCT", .blank 32, kw "v", .punct ')',
    .blank 32, kw "FROM", .blank 32, kw "t"]

/-- Two shards with the same value in `v`: each counts one value, and the client is told that there are two. -/
theorem distinct_counted_twice :
    distinctText.lexemes.map Piece.lower = distinctQuery.pieces ∧ distinctText.PlainList distinctQuery ∧
      detectAggregates distinctText.text = some [.count] ∧
      distinctQuery.IsAnswer openConditions {same 7} {[some 1]} ∧
      distinctQuery.IsAnswer openConditions {same 7, same 7} {[some 1]} ∧
      ¬distinctQuery.IsAnswer openConditions {same 7, same 7} {[some 2]} ∧
      (mergeAggregatePartials (([[some 1], [some 1]].map wireRow).map decodeRow) [.count] :
        List (ResultRow exactNumbers)).map encodeRow = [[some (str "2")]] := by
  decide +kernel

end PostgresOperator
