import PostgresOperator.Router.Vindex

/-!
# The rows of a table that is split

`CopyShardRange`, `DeleteShardRange` and `DeleteForeignRange` on the rows of one table.  Copying selects a row by the
key string of its column, deleting by SQL equality with the value of the column, which no NULL passes.
-/

namespace PostgresOperator

open Go List

/-- A value of the shard-key column as the driver gives it. -/
inductive ColumnValue
  | null
  | text (s : Str)
  | int (n : Int)
  | bool (b : Bool)
  deriving DecidableEq

def keyString : ColumnValue → Str
  | .null => []
  | .text s => s
  | .int n => itoa n
  | .bool b => if b then str "true" else str "false"

def sqlEq (v w : ColumnValue) : Bool := v = w && v ≠ .null

structure TableRow (α : Type) where
  key : ColumnValue
  rest : α
  deriving DecidableEq

section Tables

variable {α : Type}

/-- The loop over a result set that keeps the elements whose key resolves to a shard that `pick` accepts. -/
def selectBy {β : Type} (spec : ShardRangeSpec) (key : β → ColumnValue) (pick : Str → Bool) :
    List β → Except ResolveError (List β)
  | [] => .ok []
  | x :: xs => match resolveShard spec (keyString (key x)) with
    | .error e => .error e
    | .ok shard => (selectBy spec key pick xs).map fun ys => if pick shard then x :: ys else ys

variable (spec : ShardRangeSpec)

/-- `CopyShardRange`: the rows of the target after it; the table there is emptied first. -/
def copyShardRange (targetShard : Str) (source : List (TableRow α)) : Except ResolveError (List (TableRow α)) :=
  selectBy spec TableRow.key (· = targetShard) source

/-- One `DELETE … WHERE column = $1` for every key. -/
def deleteKeys (rows : List (TableRow α)) (keys : List ColumnValue) : List (TableRow α) :=
  keys.foldl (fun rows k => rows.filter fun r => !sqlEq r.key k) rows

def deleteRange (pick : Str → Bool) (rows : List (TableRow α)) : Except ResolveError (List (TableRow α)) :=
  (selectBy spec id pick (rows.map TableRow.key).dedup).map (deleteKeys rows)

def deleteShardRange (movedShard : Str) (rows : List (TableRow α)) : Except ResolveError (List (TableRow α)) :=
  deleteRange spec (· = movedShard) rows

def deleteForeignRange (keepShard : Str) (rows : List (TableRow α)) : Except ResolveError (List (TableRow α)) :=
  deleteRange spec (· ≠ keepShard) rows

def deleteMoved (targets : List Str) (rows : List (TableRow α)) : Except ResolveError (List (TableRow α)) :=
  targets.foldlM (fun rows t => deleteShardRange spec t rows) rows

/-- The source is empty, and every target has the rows of its keys, as often as they were in the table. -/
def Conserved [DecidableEq α] (spec : ShardRangeSpec) (targets : List Str) (rows : List (TableRow α))
    (tables : Str → Except ResolveError (List (TableRow α))) : Prop :=
  deleteMoved spec targets rows = .ok [] ∧ ∀ t ∈ targets, ∃ rows', tables t = .ok rows' ∧
    ∀ r, rows'.count r = if resolveShard spec (keyString r.key) = .ok t then rows.count r else 0

/-! ### What is selected and what is deleted -/

variable {spec : ShardRangeSpec} {targets : List Str} (hres : ∀ key, ∃ t ∈ targets, resolveShard spec key = .ok t)
include hres

theorem selectBy_eq {β : Type} (key : β → ColumnValue) (pick : Str → Bool) (xs : List β) :
    selectBy spec key pick xs = .ok
      (xs.filter fun x => (resolveShard spec (keyString (key x))).toOption.any pick) := by
  induction xs with
  | nil => rfl
  | cons x xs ih =>
    obtain ⟨t, -, ht⟩ := hres (keyString (key x))
    simp only [selectBy, ht, ih, Except.map]
    by_cases hp : pick t
    · simp [ht, hp, Except.toOption]
    · simp [ht, hp, Except.toOption]

omit hres in
/-- `DELETE … WHERE col = ANY(keys)` never meets a row whose key is NULL. -/
theorem deleteKeys_eq (rows : List (TableRow α)) (keys : List ColumnValue) :
    deleteKeys rows keys = rows.filter fun r => r.key = .null ∨ r.key ∉ keys := by
  induction keys generalizing rows with
  | nil => simp [deleteKeys]
  | cons k keys ih =>
    have hc : deleteKeys rows (k :: keys) = deleteKeys (rows.filter fun r => !sqlEq r.key k) keys := rfl
    rw [hc, ih, filter_filter]
    refine filter_congr fun r _ => ?_
    by_cases hn : r.key = .null
    · simp [hn, sqlEq]
    · by_cases hk : r.key = k
      · simp [hk, sqlEq, hk ▸ hn]
      · simp [hn, hk, sqlEq]

theorem deleteRange_eq (pick : Str → Bool) (rows : List (TableRow α)) :
    deleteRange spec pick rows = .ok (rows.filter fun r =>
      r.key = .null ∨ (resolveShard spec (keyString r.key)).toOption.any pick = false) := by
  rw [deleteRange, selectBy_eq hres]
  refine congrArg Except.ok ?_
  rw [deleteKeys_eq]
  refine filter_congr fun r hr => ?_
  have hm : r.key ∈ rows.map TableRow.key := mem_map_of_mem hr
  simp [mem_filter, mem_dedup, hm]

theorem deleteMoved_eq (moved : List Str) (rows : List (TableRow α)) :
    deleteMoved spec moved rows = .ok (rows.filter fun r =>
      r.key = .null ∨ (resolveShard spec (keyString r.key)).toOption.any (· ∈ moved) = false) := by
  induction moved generalizing rows with
  | nil =>
    have ha : (rows.filter fun r => r.key = .null ∨
        (resolveShard spec (keyString r.key)).toOption.any (· ∈ ([] : List Str)) = false) = rows := by
      refine filter_eq_self.2 fun r _ => ?_
      cases (resolveShard spec (keyString r.key)).toOption <;> simp
    rw [ha]
    rfl
  | cons t moved ih =>
    have hc : deleteMoved spec (t :: moved) rows = (deleteShardRange spec t rows).bind (deleteMoved spec moved) := rfl
    rw [hc, deleteShardRange, deleteRange_eq hres]
    refine (ih _).trans (congrArg Except.ok ?_)
    rw [filter_filter]
    refine filter_congr fun r _ => ?_
    obtain ⟨s, -, hs⟩ := hres (keyString r.key)
    by_cases hn : r.key = .null
    · simp [hn]
    · simp [hn, hs, Except.toOption, Bool.and_comm]

/-- If every key resolves to a target, the source keeps exactly its NULL rows. -/
theorem deleteMoved_targets (rows : List (TableRow α)) : deleteMoved spec targets rows = .ok
    (rows.filter fun r => r.key = .null) := by
  rw [deleteMoved_eq hres]
  refine congrArg Except.ok (filter_congr fun r _ => ?_)
  obtain ⟨s, hm, hs⟩ := hres (keyString r.key)
  simp [hs, hm, Except.toOption]

end Tables

theorem count_filter_ite {β : Type} [DecidableEq β] (p : β → Bool) (l : List β) (a : β) :
    (l.filter p).count a = if p a then l.count a else 0 := by
  split
  · rename_i ha
    exact count_filter ha
  · rename_i ha
    exact count_eq_zero_of_not_mem fun hm => ha (mem_filter.1 hm).2

/-- Both ways of splitting keep the rows, each on the shard of its key alone, exactly if no key is NULL. -/
theorem rows_conserved_iff {α : Type} [DecidableEq α] (spec : ShardRangeSpec) (targets : List Str)
    (hres : ∀ key, ∃ t ∈ targets, resolveShard spec key = .ok t) (rows : List (TableRow α)) :
    Conserved spec targets rows (fun t => copyShardRange spec t rows) ∧
        Conserved spec targets rows (fun t => deleteForeignRange spec t rows) ↔
      ∀ r ∈ rows, r.key ≠ .null := by
  unfold Conserved
  rw [deleteMoved_targets hres, Except.ok.injEq, filter_eq_nil_iff]
  constructor
  · rintro ⟨⟨hso, -⟩, -⟩ r hr
    simpa using hso r hr
  · intro hk
    have hso : ∀ r ∈ rows, ¬ decide (r.key = .null) := fun r hr => by simpa using hk r hr
    have hsh : ∀ (r : TableRow α) (t : Str), (resolveShard spec (keyString r.key)).toOption.any (· = t) ↔
        resolveShard spec (keyString r.key) = .ok t := by
      intro r t
      obtain ⟨s, -, hs⟩ := hres (keyString r.key)
      simp [hs, Except.toOption]
    refine ⟨⟨hso, fun t _ => ⟨_, selectBy_eq hres _ _ _, fun r => ?_⟩⟩,
      ⟨hso, fun t _ => ⟨_, deleteRange_eq hres _ _, fun r => ?_⟩⟩⟩
    · rw [count_filter_ite]
      simp only [hsh]
    · rw [count_filter_ite]
      obtain ⟨s, -, hs⟩ := hres (keyString r.key)
      by_cases hr : r ∈ rows
      · simp [hk r hr, hs, Except.toOption]
      · simp [count_eq_zero_of_not_mem hr]

private def hashSpec : ShardRangeSpec where
  vindex := { type := .hash, column := str "id", function := .murmur3 }
  ranges := [⟨str "0x0", str "0x7fffffff", str "t0"⟩, ⟨str "0x80000000", str "0xffffffff", str "t1"⟩]

theorem hashSpec_resolves (key : Str) : ∃ t ∈ [str "t0", str "t1"], resolveShard hashSpec key = .ok t := by
  have hc : ∀ (h lo hi : UInt32) (e : ShardRangeEntry), parseHashBound e.lo = some lo →
      parseHashBound e.hi = some hi →
      hashContains h e = .ok (decide (lo ≤ h ∧ h ≤ hi)) := by
    intro h lo hi e hlo hhi
    simp [hashContains, hlo, hhi]
  obtain ⟨h, hkey⟩ : ∃ h, hashKey hashSpec.vindex.function key = some h := ⟨_, rfl⟩
  have hl := h.toNat_lt
  have hw : hashContains h ⟨str "0x0", str "0x7fffffff", str "t0"⟩ = .ok (decide (0 ≤ h ∧ h ≤ 0x7fffffff)) :=
    hc _ _ _ _ (by decide +kernel) (by decide +kernel)
  have hh : hashContains h ⟨str "0x80000000", str "0xffffffff", str "t1"⟩ =
      .ok (decide (0x80000000 ≤ h ∧ h ≤ 0xffffffff)) :=
    hc _ _ _ _ (by decide +kernel) (by decide +kernel)
  have hre : resolveShard hashSpec key = resolveHash hashSpec key := rfl
  rw [hre, resolveHash, hkey]
  simp only [hashSpec, firstMatch, hw, hh, UInt32.le_iff_toNat_le, UInt32.reduceToNat]
  by_cases hle : h.toNat ≤ 2147483647
  · exact ⟨str "t0", mem_cons_self, by simp [hle]⟩
  · have hge : 2147483648 ≤ h.toNat ∧ h.toNat ≤ 4294967295 := by omega
    exact ⟨str "t1", mem_cons_of_mem _ mem_cons_self, by simp [hle, hge]⟩

theorem rows_conserved_two_rows :
    Conserved hashSpec [str "t0", str "t1"] [⟨.int 1, ()⟩, ⟨.int 1, ()⟩, ⟨.int 2, ()⟩]
      fun t => copyShardRange hashSpec t [⟨.int 1, ()⟩, ⟨.int 1, ()⟩, ⟨.int 2, ()⟩] :=
  ((rows_conserved_iff hashSpec _ hashSpec_resolves _).2 (by decide)).1

/-- A row whose key is NULL is copied to the shard of the empty key string and stays on the source; after the copy of
the whole table it stays on both targets. -/
theorem null_row_on_two_shards :
    copyShardRange hashSpec (str "t0") [⟨.null, ()⟩] = .ok [⟨.null, ()⟩] ∧
      deleteMoved hashSpec [str "t0", str "t1"] [⟨.null, ()⟩] = .ok [⟨.null, ()⟩] ∧
      deleteForeignRange hashSpec (str "t0") [⟨.null, ()⟩] = .ok [⟨.null, ()⟩] ∧
      deleteForeignRange hashSpec (str "t1") [⟨.null, ()⟩] = .ok [⟨.null, ()⟩] := by
  decide +kernel

end PostgresOperator
