import Mathlib.Algebra.BigOperators.Group.Multiset.Basic
import Mathlib.Data.Multiset.Fold

/-!
# Grouping by a key

A loop that keeps one state for every key it meets, in the order in which the keys appear first, and the groups of a
multiset by a key.  Results that are computed group by group on the parts of a multiset can be merged, group by group
again, into the results on the whole, if the key of a group can be read off its result and merging the results of some
parts of a group gives the result of their sum (`regroup_groups`).
-/

namespace Grouping

open Multiset

/-! ### A loop with a state for every key -/

section Loop

variable {α κ σ : Type} [DecidableEq κ]

/-- Change the state of `k`; if there is none, let it start at the end. -/
def upsert (k : κ) (start : σ) (add : σ → σ) : List (κ × σ) → List (κ × σ)
  | [] => [(k, add start)]
  | (k', s) :: gs => if k' = k then (k', add s) :: gs else (k', s) :: upsert k start add gs

theorem upsert_of_notMem {k : κ} {ks : List κ} (hk : k ∉ ks) (start : σ) (add : σ → σ) (f : κ → σ) :
    upsert k start add (ks.map fun k => (k, f k)) = ks.map (fun k => (k, f k)) ++ [(k, add start)] := by
  induction ks with
  | nil => rfl
  | cons k' ks ih =>
    obtain ⟨hne, hks⟩ : k ≠ k' ∧ k ∉ ks := by simpa using hk
    rw [List.map_cons, upsert, if_neg (Ne.symm hne), ih hks, List.cons_append]

theorem upsert_of_mem {k : κ} {ks : List κ} (hn : ks.Nodup) (hk : k ∈ ks) (start : σ) (add : σ → σ)
    {f f' : κ → σ} (ha : f' k = add (f k)) (hs : ∀ k' ≠ k, f' k' = f k') :
    upsert k start add (ks.map fun k => (k, f k)) = ks.map fun k => (k, f' k) := by
  induction ks with
  | nil => cases hk
  | cons k' ks ih =>
    obtain ⟨hk', hks⟩ := List.nodup_cons.1 hn
    rw [List.map_cons, List.map_cons, upsert]
    by_cases heq : k' = k
    · subst heq
      have hr : ks.map (fun k => (k, f k)) = ks.map fun k => (k, f' k) := by
        refine List.map_congr_left ?_
        intro x hx
        rw [hs x (fun h => hk' (h ▸ hx))]
      rw [if_pos rfl, hr, ha]
    · rw [if_neg heq, ih hks ((List.mem_cons.1 hk).resolve_left (Ne.symm heq)), hs k' heq]

def firstKeys (key : α → κ) (xs : List α) : List κ := (xs.map key).reverse.dedup.reverse

theorem nodup_firstKeys (key : α → κ) (xs : List α) : (firstKeys key xs).Nodup :=
  List.nodup_reverse.2 (List.nodup_dedup _)

theorem mem_firstKeys {key : α → κ} {xs : List α} {k : κ} : k ∈ firstKeys key xs ↔ ∃ x ∈ xs, key x = k := by
  simp [firstKeys]

theorem firstKeys_concat (key : α → κ) (xs : List α) (x : α) : firstKeys key (xs ++ [x]) =
      if key x ∈ firstKeys key xs then firstKeys key xs else firstKeys key xs ++ [key x] := by
  have hr : firstKeys key (xs ++ [x]) = (key x :: (xs.map key).reverse).dedup.reverse := by
    simp [firstKeys]
  have hm : key x ∈ firstKeys key xs ↔ key x ∈ (xs.map key).reverse := by
    simp [firstKeys]
  rw [hr]
  by_cases h : key x ∈ (xs.map key).reverse
  · rw [if_pos (hm.2 h), List.dedup_cons_of_mem h]
    rfl
  · rw [if_neg (fun h' => h (hm.1 h')), List.dedup_cons_of_notMem h, List.reverse_cons]
    rfl

/-- The loop over the rows builds one state for each key, in the order of first appearance. -/
theorem foldl_upsert (key : α → κ) {start : α → σ} {add : α → σ → σ} {state : List α → σ}
    (hsta : ∀ x, state [x] = add x (start x)) (ha : ∀ xs x, xs ≠ [] → state (xs ++ [x]) = add x (state xs))
    (xs : List α) :
    xs.foldl (fun gs x => upsert (key x) (start x) (add x) gs) [] =
      (firstKeys key xs).map fun k => (k, state (xs.filter fun x => key x = k)) := by
  induction xs using List.reverseRecOn with
  | nil => rfl
  | append_singleton xs x ih =>
    rw [List.foldl_concat, ih, firstKeys_concat]
    have hs : (xs ++ [x]).filter (fun y => key y = key x) = xs.filter (fun y => key y = key x) ++ [x] := by
      simp
    have ho : ∀ k ≠ key x, (xs ++ [x]).filter (fun y => key y = k) = xs.filter fun y => key y = k := by
      intro k hk
      simp [Ne.symm hk]
    by_cases hx : key x ∈ firstKeys key xs
    · rw [if_pos hx]
      refine upsert_of_mem (nodup_firstKeys key xs) hx _ _ ?_ ?_
      · obtain ⟨y, hy, hkey⟩ := mem_firstKeys.1 hx
        have hne : xs.filter (fun y => key y = key x) ≠ [] :=
          List.ne_nil_of_mem (List.mem_filter.2 ⟨hy, by simpa using hkey⟩)
        rw [hs, ha _ _ hne]
      · intro k hk
        rw [ho k hk]
    · have hn : xs.filter (fun y => key y = key x) = [] := by
        rw [List.filter_eq_nil_iff]
        intro y hy hkey
        exact hx (mem_firstKeys.2 ⟨y, hy, by simpa using hkey⟩)
      have hold : (firstKeys key xs).map (fun k => (k, state ((xs ++ [x]).filter fun y => key y = k))) =
          (firstKeys key xs).map fun k => (k, state (xs.filter fun y => key y = k)) := by
        refine List.map_congr_left ?_
        intro k hk
        rw [ho k (fun h => hx (h ▸ hk))]
      rw [if_neg hx, upsert_of_notMem hx, List.map_append, hold, List.map_singleton, hs, hn, List.nil_append,
        hsta]

theorem map_firstKeys_congr {κ' τ : Type} [DecidableEq κ'] {key : α → κ} {key' : α → κ'}
    (h : ∀ x y, key x = key y ↔ key' x = key' y) (f : List α → τ) (xs : List α) :
    (firstKeys key xs).map (fun k => f (xs.filter fun x => key x = k)) =
      (firstKeys key' xs).map fun k => f (xs.filter fun x => key' x = k) := by
  have hp : List.Forall₂ (fun k k' => ∃ x, key x = k ∧ key' x = k') (firstKeys key xs) (firstKeys key' xs) := by
    induction xs using List.reverseRecOn with
    | nil => exact .nil
    | append_singleton xs x ih =>
      have hm : key x ∈ firstKeys key xs ↔ key' x ∈ firstKeys key' xs := by
        simp only [mem_firstKeys, h]
      rw [firstKeys_concat, firstKeys_concat]
      by_cases hx : key x ∈ firstKeys key xs
      · rw [if_pos hx, if_pos (hm.1 hx)]
        exact ih
      · rw [if_neg hx, if_neg (fun hx' => hx (hm.2 hx'))]
        exact List.rel_append ih (.cons ⟨x, rfl, rfl⟩ .nil)
  rw [← List.forall₂_eq_eq_eq, List.forall₂_map_left_iff, List.forall₂_map_right_iff]
  refine hp.imp ?_
  rintro _ _ ⟨x, rfl, rfl⟩
  simp only [h]

theorem coe_firstKeys (key : α → κ) (xs : List α) :
    (firstKeys key xs : Multiset κ) = ((xs : Multiset α).map key).dedup := by
  rw [firstKeys, coe_reverse, ← coe_dedup, coe_reverse, map_coe]

end Loop

/-! ### The groups of a multiset -/

section Groups

variable {α κ ρ ν : Type} [DecidableEq κ] [DecidableEq ν]

def groups (key : α → κ) (s : Multiset α) : Multiset (κ × Multiset α) :=
  (s.map key).dedup.map fun k => (k, s.filter fun x => key x = k)

/-- Group results by what `vis` reads off them and merge every group into one. -/
def regroup (vis : ρ → ν) (merge : ν → Multiset ρ → ρ) (s : Multiset ρ) : Multiset ρ :=
  (s.map vis).dedup.map fun n => merge n (s.filter fun x => vis x = n)

variable {s : Multiset α}

theorem groups_of_const {key : α → κ} {k : κ} (hne : s ≠ 0) (hkey : ∀ x ∈ s, key x = k) :
    groups key s = {(k, s)} := by
  have hk : (s.map key).dedup = {k} := by
    have h : (s.map key).dedup = ({k} : Multiset κ).dedup := by
      rw [dedup_ext]
      intro a
      rw [mem_map, mem_singleton]
      constructor
      · rintro ⟨x, hx, rfl⟩
        exact hkey x hx
      · rintro rfl
        obtain ⟨x, hx⟩ := exists_mem_of_ne_zero hne
        exact ⟨x, hx, hkey x hx⟩
    rw [h, dedup_singleton]
  rw [groups, hk, map_singleton, filter_eq_self.2 hkey]

theorem groups_add_of_const (key : α → κ) {t : Multiset α} {k k' : κ} (hs : s ≠ 0) (ht : t ≠ 0)
    (hk : ∀ x ∈ s, key x = k) (hk' : ∀ x ∈ t, key x = k') (hne : k ≠ k') :
    groups key (s + t) = {(k, s), (k', t)} := by
  have hky : ((s + t).map key).dedup = {k, k'} := by
    have hn : ({k, k'} : Multiset κ).Nodup := by simpa using hne
    rw [← dedup_eq_self.2 hn, dedup_ext]
    intro a
    simp only [mem_map, mem_add, insert_eq_cons, mem_cons, mem_singleton]
    constructor
    · rintro ⟨x, hx | hx, rfl⟩
      · exact .inl (hk x hx)
      · exact .inr (hk' x hx)
    · rintro (rfl | rfl)
      · obtain ⟨x, hx⟩ := exists_mem_of_ne_zero hs
        exact ⟨x, Or.inl hx, hk x hx⟩
      · obtain ⟨x, hx⟩ := exists_mem_of_ne_zero ht
        exact ⟨x, Or.inr hx, hk' x hx⟩
  have hl : (s + t).filter (fun x => key x = k) = s := by
    rw [filter_add, filter_eq_self.2 hk, filter_eq_nil.2, add_zero]
    intro x hx h
    exact hne (h.symm.trans (hk' x hx))
  have hr : (s + t).filter (fun x => key x = k') = t := by
    rw [filter_add, filter_eq_self.2 hk', filter_eq_nil.2, zero_add]
    intro x hx h
    exact hne ((hk x hx).symm.trans h)
  rw [groups, hky, insert_eq_cons, map_cons, map_singleton, hl, hr]
  rfl

theorem regroup_of_const {vis : ρ → ν} (merge : ν → Multiset ρ → ρ) {s : Multiset ρ} {n : ν} (hne : s ≠ 0)
    (hv : ∀ x ∈ s, vis x = n) : regroup vis merge s = {merge n s} := by
  have h : regroup vis merge s = (groups vis s).map fun g => merge g.1 g.2 := by
    rw [groups, map_map]
    rfl
  rw [h, groups_of_const hne hv, map_singleton]

theorem filter_groups (key : α → κ) (s : Multiset α) (k : κ) : (groups key s).filter (fun g => g.1 = k) =
      if card (s.filter fun x => key x = k) = 0 then 0 else {(k, s.filter fun x => key x = k)} := by
  have hm : k ∈ s.map key ↔ ¬card (s.filter fun x => key x = k) = 0 := by
    rw [card_eq_zero, filter_eq_nil, mem_map]
    push Not
    rfl
  rw [groups, filter_map]
  change map _ ((s.map key).dedup.filter fun k' => k' = k) = _
  rw [filter_eq', count_dedup]
  by_cases h : k ∈ s.map key
  · rw [if_pos h, if_neg (hm.1 h), replicate_one, map_singleton]
  · rw [if_neg h, if_pos (not_not.1 (fun h' => h (hm.2 h'))), replicate_zero, map_zero]

private def parts (key : α → κ) (k : κ) (ss : List (Multiset α)) : List (Multiset α) :=
  (ss.map (Multiset.filter fun x => key x = k)).filter fun g => ¬Multiset.card g = 0

theorem sum_parts (key : α → κ) (k : κ) (ss : List (Multiset α)) :
    (parts key k ss).sum = ss.sum.filter fun x => key x = k := by
  induction ss with
  | nil => simp [parts]
  | cons s ss ih =>
    rw [List.sum_cons, filter_add, ← ih]
    by_cases h : card (s.filter fun x => key x = k) = 0
    · have hz := card_eq_zero.1 h
      rw [parts, List.map_cons, List.filter_cons_of_neg (by simpa using hz), hz, zero_add]
      rfl
    · rw [parts, List.map_cons, List.filter_cons_of_pos (by simpa using h), List.sum_cons]
      rfl

theorem filter_sum_groups (key : α → κ) (k : κ) (ss : List (Multiset α)) :
    ((ss.map (groups key)).sum).filter (fun g => g.1 = k) = ((parts key k ss).map fun g => (k, g) : List _) := by
  induction ss with
  | nil => simp [parts]
  | cons s ss ih =>
    rw [List.map_cons, List.sum_cons, filter_add, ih, filter_groups]
    by_cases h : card (s.filter fun x => key x = k) = 0
    · rw [if_pos h, parts, parts, List.map_cons, List.filter_cons_of_neg (by simpa using h), zero_add]
    · rw [if_neg h, parts, parts, List.map_cons, List.filter_cons_of_pos (by simpa using h), List.map_cons,
        singleton_add, cons_coe]

theorem mem_sum_of_mem {ss : List (Multiset α)} (hs : s ∈ ss) {x : α} (hx : x ∈ s) : x ∈ ss.sum := by
  induction ss with
  | nil => cases hs
  | cons s' ss ih =>
    rw [List.sum_cons, mem_add]
    rcases List.mem_cons.1 hs with rfl | hs
    · exact .inl hx
    · exact .inr (ih hs)

theorem exists_mem_of_mem_sum {ss : List (Multiset α)} {x : α} (hx : x ∈ ss.sum) : ∃ s ∈ ss, x ∈ s := by
  induction ss with
  | nil => simp at hx
  | cons s ss ih =>
    rw [List.sum_cons, mem_add] at hx
    rcases hx with hx | hx
    · exact ⟨s, by simp, hx⟩
    · obtain ⟨s', hs', hx'⟩ := ih hx
      exact ⟨s', by simp [hs'], hx'⟩

/-- Grouping parts and merging their rows is grouping the whole, if the merge agrees on parts of one group. -/
theorem regroup_groups {key : α → κ} {row : κ × Multiset α → ρ} {vis : ρ → ν} {name : κ → ν}
    {merge : ν → Multiset ρ → ρ} (hv : ∀ k g, vis (row (k, g)) = name k)
    (hn : ∀ x y, name (key x) = name (key y) → key x = key y)
    (hm : ∀ k (gs : List (Multiset α)), gs ≠ [] →
      merge (name k) ((gs.map fun g => row (k, g) : List ρ) : Multiset ρ) = row (k, gs.sum))
    (ss : List (Multiset α)) :
    regroup vis merge (ss.map fun s => (groups key s).map row).sum = (groups key ss.sum).map row := by
  have hsm : (ss.map fun s => (groups key s).map row).sum = ((ss.map (groups key)).sum).map row := by
    induction ss with
    | nil => rfl
    | cons s ss ih => simp [ih]
  have hmm : ∀ n, n ∈ ((ss.map (groups key)).sum.map row).map vis ↔ n ∈ (ss.sum.map key).dedup.map name := by
    intro n
    simp only [mem_map, mem_dedup]
    constructor
    · rintro ⟨_, ⟨⟨k, g⟩, hg, rfl⟩, rfl⟩
      obtain ⟨s', hs', hg'⟩ := exists_mem_of_mem_sum hg
      obtain ⟨s, hs, rfl⟩ := List.mem_map.1 hs'
      obtain ⟨k', hk', heq⟩ := mem_map.1 hg'
      obtain ⟨x, hx, rfl⟩ := mem_map.1 (mem_dedup.1 hk')
      obtain ⟨rfl, -⟩ := Prod.mk.inj heq
      exact ⟨key x, ⟨x, mem_sum_of_mem hs hx, rfl⟩, (hv _ _).symm⟩
    · rintro ⟨_, ⟨x, hx, rfl⟩, rfl⟩
      obtain ⟨s, hs, hxs⟩ := exists_mem_of_mem_sum hx
      refine ⟨_, ⟨(key x, s.filter fun y => key y = key x), ?_, rfl⟩, hv _ _⟩
      refine mem_sum_of_mem (List.mem_map_of_mem hs) (mem_map.2 ⟨key x, ?_, rfl⟩)
      exact mem_dedup.2 (mem_map_of_mem _ hxs)
  have hky : (((ss.map (groups key)).sum.map row).map vis).dedup = (ss.sum.map key).dedup.map name := by
    have hnd : ((ss.sum.map key).dedup.map name).Nodup := by
      refine Multiset.Nodup.map_on ?_ (nodup_dedup _)
      intro k hk k' hk' heq
      obtain ⟨x, -, rfl⟩ := mem_map.1 (mem_dedup.1 hk)
      obtain ⟨y, -, rfl⟩ := mem_map.1 (mem_dedup.1 hk')
      exact hn x y heq
    rw [← dedup_eq_self.2 hnd, dedup_ext]
    exact hmm
  rw [hsm, regroup, hky, map_map, groups, map_map]
  refine map_congr rfl ?_
  intro k hk
  obtain ⟨x, hx, rfl⟩ := mem_map.1 (mem_dedup.1 hk)
  -- the results under the name of a key are those of the parts of its group
  have hf : ((ss.map (groups key)).sum.map row).filter (fun r => vis r = name (key x)) =
      ((parts key (key x) ss).map fun g => row (key x, g) : List ρ) := by
    have hif : ((ss.map (groups key)).sum).filter (fun g => vis (row g) = name (key x)) =
        ((ss.map (groups key)).sum).filter fun g => g.1 = key x := by
      refine filter_congr ?_
      rintro ⟨k, g⟩ hg
      obtain ⟨s', hs', hg'⟩ := exists_mem_of_mem_sum hg
      obtain ⟨s, -, rfl⟩ := List.mem_map.1 hs'
      obtain ⟨k', hk', heq⟩ := mem_map.1 hg'
      obtain ⟨y, -, rfl⟩ := mem_map.1 (mem_dedup.1 hk')
      obtain ⟨rfl, -⟩ := Prod.mk.inj heq
      rw [hv]
      exact ⟨hn y x, congrArg name⟩
    rw [filter_map]
    change map row (((ss.map (groups key)).sum).filter fun g => vis (row g) = name (key x)) = _
    rw [hif, filter_sum_groups, map_coe, List.map_map]
    rfl
  have hp : parts key (key x) ss ≠ [] := by
    intro h
    have hsm := sum_parts key (key x) ss
    rw [h, List.sum_nil, eq_comm, filter_eq_nil] at hsm
    exact hsm x hx rfl
  change merge (name (key x)) (filter _ _) = row (key x, _)
  rw [hf, hm _ _ hp, sum_parts]

end Groups

/-! ### Folds that skip missing values -/

section Folds

variable {β : Type} (op : β → β → β) [Std.Commutative op] [Std.Associative op]

def foldSome (s : Multiset (Option β)) : Option β := s.fold (Option.merge op) none

@[simp] theorem foldSome_zero : foldSome op 0 = none := rfl

@[simp] theorem foldSome_cons (x : Option β) (s : Multiset (Option β)) :
    foldSome op (x ::ₘ s) = Option.merge op x (foldSome op s) :=
  fold_cons_left _ _ _ _

theorem foldSome_add (s t : Multiset (Option β)) :
    foldSome op (s + t) = Option.merge op (foldSome op s) (foldSome op t) :=
  fold_add _ none none s t

/-- Folding the parts and then their results is folding the whole. -/
theorem foldSome_sum (ss : List (Multiset (Option β))) :
    foldSome op ss.sum = foldSome op (ss.map (foldSome op) : List (Option β)) := by
  induction ss with
  | nil => rfl
  | cons s ss ih => rw [List.sum_cons, foldSome_add, ih, List.map_cons, ← cons_coe, foldSome_cons]

/-- An idempotent operation does not see repetitions. -/
theorem foldSome_dedup [DecidableEq β] [Std.IdempotentOp op] (s : Multiset (Option β)) :
    foldSome op s.dedup = foldSome op s :=
  fold_dedup_idem _ _ _

theorem foldl_merge (l : List (Option β)) : l.foldl (Option.merge op) none = foldSome op l :=
  (coe_fold_l _ _ _).symm

end Folds

end Grouping
