import Mathlib.Data.List.Nodup
import Mathlib.Data.Nat.ModEq
import PostgresOperator.Cluster.Api

/-!
# Balancing of reads

`StatusBackendResolver` of `internal/router/topology.go`.  Its answers are as fresh as the last status.  The replicas
of a shard take turns, but the cursor starts again at 0 after `2 ^ 30` reads, wherever the turn is
(`read_balance_iff`).
-/

namespace PostgresOperator

open Go Cluster Function List

/-- A missing key of a Go map reads as the zero value. -/
structure StatusBackendResolver where
  maxReplicaLagBytes : Int
  primaries : Str → Str := fun _ => []
  replicas : Str → List Str := fun _ => []
  rr : Str → Nat := fun _ => 0

def isReadReplica (maxLag : Int) (rep : ShardEndpoint) : Bool :=
  rep.ready && rep.endpoint ≠ [] && !(0 < maxLag && maxLag < rep.lagBytes)

def isReadyPrimary (p : ShardEndpoint) : Bool := p.ready && p.endpoint ≠ []

def StatusBackendResolver.update (r : StatusBackendResolver) (shards : List ShardStatus) : StatusBackendResolver :=
  { r with
    primaries := shards.foldl (fun pm s =>
      match s.primary.filter isReadyPrimary with
      | some p => Function.update pm s.name p.endpoint
      | none => pm) fun _ => []
    replicas := shards.foldl (fun rm s =>
      Function.update rm s.name
      (rm s.name ++ (s.replicas.filter (isReadReplica r.maxReplicaLagBytes)).map (·.endpoint)))
      fun _ => [] }

/-- `none` is an error. -/
def StatusBackendResolver.resolveRead (r : StatusBackendResolver) (shardID : Str) :
    Option Str × StatusBackendResolver :=
  let reps := r.replicas shardID
  if reps ≠ [] then
    (reps[r.rr shardID % reps.length]?, { r with rr := Function.update r.rr shardID ((r.rr shardID + 1) % 2 ^ 30) })
  else if r.primaries shardID ≠ [] then (some (r.primaries shardID), r)
  else (none, r)

inductive ResolverCall
  | update (shards : List ShardStatus)
  | resolveRead (shardID : Str)

def StatusBackendResolver.call (r : StatusBackendResolver) : ResolverCall → StatusBackendResolver
  | .update shards => r.update shards
  | .resolveRead shardID => (r.resolveRead shardID).2

def resolverAfter (maxLag : Int) (calls : List ResolverCall) : StatusBackendResolver :=
  calls.foldl StatusBackendResolver.call { maxReplicaLagBytes := maxLag }

/-- What reads without an update in between return for one shard; `calls` are the shards that they ask for. -/
def StatusBackendResolver.answers (r : StatusBackendResolver) (shardID : Str) : List Str → List (Option Str)
  | [] => []
  | c :: calls =>
    let rest := (r.resolveRead c).2.answers shardID calls
    if c = shardID then (r.resolveRead c).1 :: rest else rest

/-! ### What was listed -/

def latestStatus (calls : List ResolverCall) : List ShardStatus :=
  calls.foldl (fun shards c => match c with
    | .update shards => shards
    | .resolveRead _ => shards) []

def listedReplicas (maxLag : Int) (shards : List ShardStatus) (shardID : Str) : List Str :=
  (shards.filter (·.name = shardID)).flatMap fun s => (s.replicas.filter (isReadReplica maxLag)).map (·.endpoint)

def listedPrimaries (shards : List ShardStatus) (shardID : Str) : List Str :=
  (shards.filter (·.name = shardID)).filterMap fun s => (s.primary.filter isReadyPrimary).map (·.endpoint)

/-- A replica that was listed; without one a primary that was listed; an error without either. -/
def Fresh (maxLag : Int) (shards : List ShardStatus) (shardID : Str) : Option Str → Prop
  | some ep => ep ∈ listedReplicas maxLag shards shardID ∨
    listedReplicas maxLag shards shardID = [] ∧ ep ∈ listedPrimaries shards shardID
  | none => listedReplicas maxLag shards shardID = [] ∧ listedPrimaries shards shardID = []

structure StatusBackendResolver.Lists (r : StatusBackendResolver) (maxLag : Int) (shards : List ShardStatus) :
    Prop where
  lag : r.maxReplicaLagBytes = maxLag
  replicas : r.replicas = listedReplicas maxLag shards
  primaries : ∀ shardID, r.primaries shardID = (listedPrimaries shards shardID).getLast?.getD []
  cursor : ∀ shardID, r.rr shardID < 2 ^ 30

variable {r : StatusBackendResolver} {maxLag : Int} {shards : List ShardStatus} {shardID : Str}

theorem update_replicas (r : StatusBackendResolver) (shards : List ShardStatus) :
    (r.update shards).replicas = listedReplicas r.maxReplicaLagBytes shards := by
  funext id
  simp only [StatusBackendResolver.update, listedReplicas]
  induction shards using reverseRecOn with
  | nil => rfl
  | append_singleton l s ih =>
    by_cases h : s.name = id
    · simp [h, ← ih]
    · simp [h, ← ih, Ne.symm h]

theorem update_primaries (r : StatusBackendResolver) (shards : List ShardStatus) (id : Str) :
    (r.update shards).primaries id = (listedPrimaries shards id).getLast?.getD [] := by
  simp only [StatusBackendResolver.update, listedPrimaries]
  induction shards using reverseRecOn with
  | nil => rfl
  | append_singleton l s ih =>
    simp only [foldl_append, foldl_cons, foldl_nil, filter_append, filterMap_append]
    by_cases h : s.name = id
    · cases hp : s.primary.filter isReadyPrimary with
      | none => simp [h, hp, ih]
      | some p => simp [h, hp]
    · cases s.primary.filter isReadyPrimary <;> simp [h, ih, Ne.symm h]

theorem StatusBackendResolver.Lists.call (h : r.Lists maxLag shards) (c : ResolverCall) :
    (r.call c).Lists maxLag (latestStatus [.update shards, c]) := by
  cases c with
  | update shards' => exact ⟨h.lag, h.lag ▸ update_replicas r shards', update_primaries r shards', h.cursor⟩
  | resolveRead id =>
    simp only [StatusBackendResolver.call, StatusBackendResolver.resolveRead]
    split
    · refine ⟨h.lag, h.replicas, h.primaries, fun id' => ?_⟩
      by_cases hid : id' = id
      · subst hid
        simpa using Nat.mod_lt _ (by decide)
      · simpa [hid] using h.cursor id'
    · split <;> exact h

/-- After any calls the resolver lists what the last status lists. -/
theorem resolverAfter_lists (maxLag : Int) (calls : List ResolverCall) :
    (resolverAfter maxLag calls).Lists maxLag (latestStatus calls) := by
  induction calls using reverseRecOn with
  | nil => exact ⟨rfl, rfl, fun _ => rfl, fun _ => by simp [resolverAfter]⟩
  | append_singleton l c ih =>
    simp only [resolverAfter, latestStatus, foldl_append, foldl_cons, foldl_nil] at ih ⊢
    exact ih.call c

theorem StatusBackendResolver.Lists.fresh (h : r.Lists maxLag shards) (shardID : Str) :
    Fresh maxLag shards shardID (r.resolveRead shardID).1 := by
  simp only [StatusBackendResolver.resolveRead, h.replicas, h.primaries]
  split
  · rename_i hne
    have hi := Nat.mod_lt (r.rr shardID) (length_pos_iff.2 hne)
    rw [getElem?_eq_getElem hi]
    exact .inl (getElem_mem hi)
  · rename_i hno
    cases hp : (listedPrimaries shards shardID).getLast? with
    | none => exact ⟨not_ne_iff.1 hno, getLast?_eq_none_iff.1 hp⟩
    | some ep =>
      have hm := mem_of_getLast? hp
      have hep : ep ≠ [] := by
        obtain ⟨s, -, hs⟩ := mem_filterMap.1 hm
        obtain ⟨p, hf, rfl⟩ := Option.map_eq_some_iff.1 hs
        have hr := (Option.filter_eq_some_iff.1 hf).2
        simp only [isReadyPrimary, Bool.and_eq_true, decide_eq_true_eq] at hr
        exact hr.2
      simpa [hep] using .inr ⟨not_ne_iff.1 hno, hm⟩

/-! ### Turns -/

/-- The answers to a shard's reads take turns from where its counter stands. -/
theorem answers_eq (hne : r.replicas shardID ≠ []) (hc : r.rr shardID < 2 ^ 30) (calls : List Str) :
    r.answers shardID calls = (range (calls.count shardID)).map fun k =>
      (r.replicas shardID)[(r.rr shardID + k) % 2 ^ 30 % (r.replicas shardID).length]? := by
  induction calls generalizing r with
  | nil => rfl
  | cons c calls ih =>
    by_cases h : c = shardID
    · subst h
      have hr : (r.resolveRead c).2.rr c = (r.rr c + 1) % 2 ^ 30 := by simp [StatusBackendResolver.resolveRead, hne]
      have hp : (r.resolveRead c).2.replicas = r.replicas := by simp [StatusBackendResolver.resolveRead, hne]
      rw [StatusBackendResolver.answers, if_pos rfl, ih (by rwa [hp]) (by rw [hr]; exact Nat.mod_lt _ (by decide)),
        hp, hr,
        count_cons_self, range_succ_eq_map, map_cons, map_map]
      congr 1
      · rw [Nat.add_zero, Nat.mod_eq_of_lt hc]
        simp [StatusBackendResolver.resolveRead, hne]
      · refine map_congr_left fun k _ => ?_
        simp only [comp_apply, Nat.mod_add_mod]
        rw [Nat.add_right_comm, Nat.add_assoc]
    · -- a read of another shard
      have hr : (r.resolveRead c).2.rr shardID = r.rr shardID ∧ (r.resolveRead c).2.replicas = r.replicas := by
        simp only [StatusBackendResolver.resolveRead]
        split
        · simp [Ne.symm h]
        · split <;> exact ⟨rfl, rfl⟩
      rw [StatusBackendResolver.answers, if_neg h, ih (by rwa [hr.2]) (by rwa [hr.1]), hr.1, hr.2, count_cons_of_ne h]

/-- The turns of `m` reads from the cursor `c` on differ if the cursor does not start again among them, or if the turn
is over when it does. -/
theorem turns_inj_iff {c m P : Nat} (hc : c < P) (hm : 0 < m) :
    (∀ i < m, ∀ j < m, (c + i) % P % m = (c + j) % P % m → i = j) ↔ c + m ≤ P ∨ m ∣ P := by
  constructor
  · intro h
    by_contra hno
    obtain ⟨hlt, hnd⟩ := not_or.1 hno
    have hr : 0 < P % m := Nat.pos_of_ne_zero fun h0 => hnd (Nat.dvd_of_mod_eq_zero h0)
    have hrm := Nat.mod_lt P hm
    by_cases hmP : P < m
    · -- the cursor comes back to where it was
      have := h 0 hm P hmP (by simp)
      omega
    have hdiv := Nat.div_add_mod P m
    by_cases ha : P % m ≤ P - c
    · -- the first replica has its turn before the cursor starts again
      have h0 : (c + (P - c - P % m)) % P % m = 0 := by
        rw [show c + (P - c - P % m) = m * (P / m) by omega, Nat.mod_eq_of_lt (show m * (P / m) < P by omega),
          Nat.mul_mod_right]
      have h1 : (c + (P - c)) % P % m = 0 := by rw [Nat.add_sub_cancel' hc.le, Nat.mod_self, Nat.zero_mod]
      have := h (P - c - P % m) (by omega) (P - c) (by omega) (h0.trans h1.symm)
      omega
    · -- the replica of the first read has another turn
      have h0 : (c + 0) % P % m = P % m - (P - c) := by
        rw [Nat.add_zero, Nat.mod_eq_of_lt hc,
          show c = P % m - (P - c) + m * (P / m) by omega, Nat.add_mul_mod_self_left,
          Nat.mod_eq_of_lt (by omega)]
        omega
      have h1 : (c + P % m) % P % m = P % m - (P - c) := by
        rw [show c + P % m = P % m - (P - c) +
          P by omega, Nat.add_mod_right, Nat.mod_eq_of_lt (a := _ - _) (by omega),
          Nat.mod_eq_of_lt (by omega)]
      have := h 0 hm (P % m) hrm (h0.trans h1.symm)
      omega
  · intro h i hi j hj heq
    have hmod : ∀ k < m, (c + k) % P % m = (c + k) % m := by
      intro k hk
      rcases h with h | h
      · rw [Nat.mod_eq_of_lt (show c + k < P by omega)]
      · exact Nat.mod_mod_of_dvd _ h
    rw [hmod i hi, hmod j hj] at heq
    have hij : Nat.ModEq m i j := Nat.ModEq.add_left_cancel' c heq
    rwa [Nat.ModEq, Nat.mod_eq_of_lt hi, Nat.mod_eq_of_lt hj] at hij

theorem each_once_iff {reps : List Str} {f : Nat → Nat} (hf : ∀ k, f k < reps.length) :
    (∀ ep ∈ reps, ((range reps.length).map fun k => reps[f k]?).count (some ep) = 1) ↔
      reps.Nodup ∧ ∀ i < reps.length, ∀ j < reps.length, f i = f j → i = j := by
  set answers := (range reps.length).map fun k => reps[f k]? with hans
  have hsub : answers ⊆ reps.map some := by
    intro x hx
    obtain ⟨k, -, rfl⟩ := mem_map.1 hx
    rw [getElem?_eq_getElem (hf k)]
    exact mem_map_of_mem (getElem_mem (hf k))
  have hperm : answers.Nodup → answers.Perm (reps.map some) := fun hn =>
    (subperm_of_subset hn hsub).perm_of_length_le (by simp [hans])
  constructor
  · intro h
    have hn : answers.Nodup := by
      refine nodup_iff_count_le_one.2 fun x => ?_
      by_cases hx : x ∈ answers
      · obtain ⟨ep, hep, rfl⟩ := mem_map.1 (hsub hx)
        exact (h ep hep).le
      · simp [count_eq_zero.2 hx]
    refine ⟨((hperm hn).nodup_iff.1 hn).of_map, fun i hi j hj hij => ?_⟩
    exact inj_on_of_nodup_map hn (mem_range.2 hi) (mem_range.2 hj) (congrArg (reps[·]?) hij)
  · rintro ⟨hn, hinj⟩ ep hep
    have ha : answers.Nodup := by
      refine nodup_range.map_on fun i hi j hj hij => hinj i (mem_range.1 hi) j (mem_range.1 hj) ?_
      rw [getElem?_eq_getElem (hf i), getElem?_eq_getElem (hf j)] at hij
      exact hn.getElem_inj_iff.1 (Option.some.inj hij)
    rw [(hperm ha).count_eq, count_map_of_injective _ _ (Option.some_injective _)]
    exact count_eq_one_of_mem hn hep

/-- Every answer is fresh; as many reads as there are replicas return each of them once if and only if these have
different endpoints, and the cursor does not start again in between, or starts again at the end of a turn. -/
theorem read_balance_iff (maxLag : Int) (calls : List ResolverCall) (shardID : Str) :
    Fresh maxLag (latestStatus calls) shardID ((resolverAfter maxLag calls).resolveRead shardID).1 ∧
      ∀ reads : List Str, reads.count shardID = (listedReplicas maxLag (latestStatus calls) shardID).length →
        ((∀ ep ∈ listedReplicas maxLag (latestStatus calls) shardID,
            ((resolverAfter maxLag calls).answers shardID reads).count (some ep) = 1) ↔
          (listedReplicas maxLag (latestStatus calls) shardID).Nodup ∧
            ((resolverAfter maxLag calls).rr shardID + (listedReplicas maxLag (latestStatus calls) shardID).length ≤
            2 ^ 30 ∨
              (listedReplicas maxLag (latestStatus calls) shardID).length ∣ 2 ^ 30)) := by
  have h := resolverAfter_lists maxLag calls
  refine ⟨h.fresh shardID, fun reads hr => ?_⟩
  have hrep := congrFun h.replicas shardID
  have hc := h.cursor shardID
  rw [← hrep] at hr ⊢
  by_cases hne : (resolverAfter maxLag calls).replicas shardID = []
  · simpa [hne] using hc.le
  · have hm := length_pos_iff.2 hne
    rw [answers_eq hne hc, hr, each_once_iff fun k => Nat.mod_lt _ hm, turns_inj_iff hc hm]

/-! ### A turn that is cut short -/

private def threeReplicas : List ShardStatus :=
  [{ name := "s", ordinal := 0, replicas := ["a", "b", "c"].map fun e => { pod := e, endpoint := e, ready := true } }]

private def readsOf (n : Nat) : List ResolverCall := .update threeReplicas :: replicate n (.resolveRead "s")

theorem after_readsOf (n : Nat) : (resolverAfter 0 (readsOf n)).rr "s" = n % 2 ^ 30 ∧
    (resolverAfter 0 (readsOf n)).replicas "s" = ["a", "b", "c"] := by
  induction n with
  | zero => decide
  | succ n ih =>
    have h : resolverAfter 0 (readsOf (n + 1)) = ((resolverAfter 0 (readsOf n)).resolveRead "s").2 := by
      simp [resolverAfter, readsOf, replicate_succ', StatusBackendResolver.call]
    rw [h]
    simp [StatusBackendResolver.resolveRead, ih.1, ih.2]

theorem read_balance_iff_demo : (∀ ep ∈ listedReplicas 0 (latestStatus (readsOf 1)) "s",
    ((resolverAfter 0 (readsOf 1)).answers "s" ["s", "t", "s", "s"]).count (some ep) = 1) :=
  ((read_balance_iff 0 (readsOf 1) "s").2 _ (by decide)).2 (by decide)

/-- The last read before the cursor starts again goes to the first replica of three, and so does the next one. -/
theorem replica_left_out :
    ∃ calls reads, reads.count (str "s") = (listedReplicas 0 (latestStatus calls) (str "s")).length ∧
    ∃ ep ∈ listedReplicas 0 (latestStatus calls) "s", some ep ∉ (resolverAfter 0 calls).answers "s" reads := by
  obtain ⟨hc, hr⟩ := after_readsOf (2 ^ 30 - 1)
  have hl := congrFun (resolverAfter_lists 0 (readsOf (2 ^ 30 - 1))).replicas "s"
  refine ⟨readsOf (2 ^ 30 - 1), replicate 3 "s", by rw [← hl, hr]; decide, "c", by rw [← hl, hr]; decide, ?_⟩
  rw [answers_eq (by rw [hr]; decide) (by rw [hc]; decide), hc, hr]
  decide

end PostgresOperator
