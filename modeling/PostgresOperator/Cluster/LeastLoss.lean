import PostgresOperator.Cluster.Aggregate
import PostgresOperator.Cluster.Failover

/-!
# The replica that loses least

A standby reports how far its replay is behind what it has received, and -1 if it cannot be asked; the aggregation
shows -1 as 0.  So what ranks the replicas is the WAL that they have received and not replayed (`backlog`), which says
nothing about how far ahead they are: a standby without a connection to the primary soon has no backlog, however old
its data is.  The replica that is chosen loses least exactly if every ready standby that is worse than another one
also has more backlog than some ready standby (`loses_least_iff`).
-/

namespace PostgresOperator.Cluster

open Go List Option

/-- The WAL of a standby: `pg_last_wal_receive_lsn()` and `pg_last_wal_replay_lsn()`, and whether it can be asked. -/
structure StandbyWal where
  readable : Bool := true
  received : Option Nat
  replayed : Option Nat

namespace StandbyWal

def lagBytes (x : StandbyWal) : Int :=
  if x.readable then (x.received.getD 0 : Int) - x.replayed.getD 0 else -1

def position (x : StandbyWal) : Nat := max (x.received.getD 0) (x.replayed.getD 0)

/-- The WAL that was received and not replayed, and none if the standby cannot be asked. -/
def backlog (x : StandbyWal) : Nat := if x.readable then x.received.getD 0 - x.replayed.getD 0 else 0

/-- What the aggregation shows of the lag is the backlog. -/
theorem shown_lagBytes (x : StandbyWal) : max 0 x.lagBytes = x.backlog := by
  unfold lagBytes backlog
  split <;> omega

end StandbyWal

namespace Aggregation

variable (g : Aggregation) (wal : Str → StandbyWal)

def Reports : Prop :=
  ∀ pod ∈ g.members, ∀ st, parsePodStatus g.codec pod = some st → st.lagBytes = (wal pod.name).lagBytes

/-- A member of the shard that is ready and not its primary. -/
structure Standby (pod : Pod) : Prop where
  mem : pod ∈ g.members
  not_primary : ∀ c, g.candidate = some c → pod.name ≠ c.name
  not_silent : g.silentTarget pod = false
  ready : (g.listed pod).ready

/-- `b` is as far ahead as `r`, and not unknown if `r` is known. -/
def AsGood (b r : Str) : Prop :=
  (wal r).position ≤ (wal b).position ∧ ((wal b).readable = false → (wal r).readable = false)

def LosesLeast : Prop :=
  ∀ c, selectPromotionCandidate g.aggregateShardStatusMatching.replicas = some c →
    ∀ pod, g.Standby pod → AsGood wal c.pod pod.name

/-- A ready standby that is worse than another one has more backlog than some ready standby, or as much and a greater
name. -/
def WorseIsBehind : Prop :=
  ∀ pod, g.Standby pod → ∀ better, g.Standby better → ¬ AsGood wal pod.name better.name →
    ∃ b, g.Standby b ∧ ((wal b.name).backlog < (wal pod.name).backlog ∨
      (wal b.name).backlog = (wal pod.name).backlog ∧ b.name < pod.name)

variable {g wal}

theorem lagBytes_statusEndpoint (pod : Pod) (st : Status) :
    (g.statusEndpoint pod st).lagBytes = max 0 st.lagBytes := by
  unfold statusEndpoint ShardEndpoint.because
  cases g.podFenced pod <;> cases kubernetesPodNotReady pod <;> rfl

theorem mem_ready_replicas {r : ShardEndpoint} :
    r ∈ g.aggregateShardStatusMatching.replicas ∧ r.ready ↔ ∃ pod, g.Standby pod ∧ r = g.listed pod := by
  rw [mem_replicas]
  constructor
  · rintro ⟨⟨pod, hp, hc, hs, rfl⟩, hr⟩
    exact ⟨pod, ⟨hp, hc, hs, hr⟩, rfl⟩
  · rintro ⟨pod, ⟨hp, hc, hs, hr⟩, rfl⟩
    exact ⟨⟨pod, hp, hc, hs, rfl⟩, hr⟩

/-- A ready standby has reported, and its rank is its backlog and its name. -/
theorem Standby.rank_listed (hr : g.Reports wal) {pod : Pod} (h : g.Standby pod) :
    (g.listed pod).rank = toLex (((wal pod.name).backlog : Int), pod.name) := by
  have hrd := h.ready
  have hl : (g.listed pod).lagBytes = max 0 (wal pod.name).lagBytes := by
    unfold listed at hrd ⊢
    cases hst : parsePodStatus g.codec pod with
    | none =>
      simp only [hst] at hrd
      rw [h.not_silent] at hrd
      cases hrd
    | some st =>
      rw [← hr pod h.mem st hst]
      dsimp only
      split
      · exact lagBytes_statusEndpoint pod st
      · exact lagBytes_statusEndpoint pod st
  rw [ShardEndpoint.rank, hl, StandbyWal.shown_lagBytes, listed_pod]

/-- Standbys are ranked by their backlog, and by name where it is the same. -/
theorem Standby.rank_lt (hr : g.Reports wal) {b pod : Pod} (hb : g.Standby b) (hp : g.Standby pod) :
    (g.listed b).rank < (g.listed pod).rank ↔ (wal b.name).backlog < (wal pod.name).backlog ∨
      (wal b.name).backlog = (wal pod.name).backlog ∧ b.name < pod.name := by
  rw [hb.rank_listed hr, hp.rank_listed hr, Prod.Lex.toLex_lt_toLex, Int.ofNat_lt, Int.ofNat_inj]

/-- The chosen replica loses least exactly if what is worse is also behind. -/
theorem loses_least_iff (g : Aggregation) (wal : Str → StandbyWal) (hreports : g.Reports wal) :
    g.LosesLeast wal ↔ g.WorseIsBehind wal := by
  constructor
  · intro hl pod hp better hbt hworse
    cases hc : selectPromotionCandidate g.aggregateShardStatusMatching.replicas with
    | none =>
      have hn := selectPromotionCandidate_eq_none.1 hc _ (mem_ready_replicas.2 ⟨pod, hp, rfl⟩).1
      rw [hp.ready] at hn
      cases hn
    | some c =>
      obtain ⟨hm, hrd, hbs⟩ := selectPromotionCandidate_best hc
      obtain ⟨b, hb, rfl⟩ := mem_ready_replicas.1 ⟨hm, hrd⟩
      refine ⟨b, hb, (hb.rank_lt hreports hp).1
        (lt_of_le_of_ne (hbs _ (mem_ready_replicas.2 ⟨pod, hp, rfl⟩).1 hp.ready) ?_)⟩
      -- the chosen one is as good as all others, so it is not `pod`
      intro hrk
      have hn : b.name = pod.name := by
        rw [hb.rank_listed hreports, hp.rank_listed hreports] at hrk
        exact congrArg (fun x => (ofLex x).2) hrk
      have hg := hl _ hc better hbt
      rw [listed_pod, hn] at hg
      exact hworse hg
  · intro hw c hc pod hp
    obtain ⟨hm, hrd, hbs⟩ := selectPromotionCandidate_best hc
    obtain ⟨cp, hcp, rfl⟩ := mem_ready_replicas.1 ⟨hm, hrd⟩
    rw [listed_pod]
    by_contra hworse
    obtain ⟨b, hb, hlt⟩ := hw cp hcp pod hp hworse
    exact absurd (hbs _ (mem_ready_replicas.2 ⟨b, hb, rfl⟩).1 hb.ready) (not_le.2 ((hb.rank_lt hreports hcp).2 hlt))

end Aggregation

/-! ### Two standbys -/

def reportedLag (raw : Str) : Int := if raw = "unknown" then -1 else if raw = "behind" then 1 else 0

def standbys (first : Str) : Aggregation where
  codec :=
    { unmarshalStatus := fun raw => some { role := .replica, ready := true, lagBytes := reportedLag raw }
      parseTime := fun _ => none
      formatTime := fun _ => [] }
  ns := "default"
  shardID := "shard-0"
  ordinal := 0
  svcName := "demo"
  isMember _ := true
  pods := some
    { items := [{ name := "demo-shard-0-1", annotations := fun _ => some first, name_ne := secondPod_ne },
        { name := "demo-shard-0-2", annotations := fun _ => some "behind", name_ne := by decide +kernel }]
      nodup := by
        change [str "demo-shard-0-1", str "demo-shard-0-2"].Nodup
        decide +kernel }
  pvcs := none
  now := 0

def standbyWal (first : StandbyWal) (pod : Str) : StandbyWal :=
  if pod = "demo-shard-0-1" then first else { received := some 200, replayed := some 199 }

theorem reports_standbys {first : Str} {x : StandbyWal} (hf : first ≠ []) (h : reportedLag first = x.lagBytes) :
    (standbys first).Reports (standbyWal x) := by
  have hs : reportedLag "behind" = (standbyWal x "demo-shard-0-2").lagBytes := by
    rw [standbyWal, if_neg (by decide +kernel)]
    decide +kernel
  intro pod hp st hst
  have hm : pod ∈ (standbys first).members := hp
  simp only [Aggregation.members, standbys, elim_some, filter_true, mem_cons, not_mem_nil,
    or_false] at hm
  rcases hm with rfl | rfl
  · simp only [parsePodStatus, bind_eq_bind, bind_some, if_neg hf] at hst
    cases hst
    exact h
  · cases hst
    exact hs

/-- A standby that has replayed 300 bytes is chosen before one that has received 200. -/
theorem loses_least_ahead :
    (standbys "ahead").LosesLeast (standbyWal { received := some 300, replayed := some 300 }) := by
  have hm : ∀ {p : Pod}, p ∈ (standbys "ahead").members → p.name = "demo-shard-0-1" ∨ p.name = "demo-shard-0-2" := by
    intro p hp
    simp only [Aggregation.members, standbys, elim_some, filter_true, mem_cons, not_mem_nil, or_false] at hp
    rcases hp with rfl | rfl
    · exact .inl rfl
    · exact .inr rfl
  refine (Aggregation.loses_least_iff _ _ (reports_standbys (by decide) (by decide +kernel))).2 ?_
  intro pod hp better hb hworse
  refine ⟨better, hb, .inl ?_⟩
  rcases hm hb.mem with hbn | hbn <;> rcases hm hp.mem with hpn | hpn <;> rw [hpn, hbn] at hworse ⊢
  · exact absurd ⟨le_rfl, id⟩ hworse
  · decide +kernel
  · exact absurd ⟨by decide +kernel, by decide +kernel⟩ hworse
  · exact absurd ⟨le_rfl, id⟩ hworse

/-- A standby that was cut off after 100 bytes is chosen before one with 200, and so is one that cannot be asked. -/
theorem stale_standby_is_chosen :
    (selectPromotionCandidate (standbys "cut").aggregateShardStatusMatching.replicas).map ShardEndpoint.pod =
        some (str "demo-shard-0-1") ∧
      reportedLag "cut" = StandbyWal.lagBytes { received := some 100, replayed := some 100 } ∧
      StandbyWal.position { received := some 100, replayed := some 100 } <
        (standbyWal { received := some 100, replayed := some 100 } "demo-shard-0-2").position ∧
      (selectPromotionCandidate (standbys "unknown").aggregateShardStatusMatching.replicas).map ShardEndpoint.pod =
        some (str "demo-shard-0-1") ∧
      reportedLag "unknown" = StandbyWal.lagBytes { readable := false, received := some 100, replayed := some 100 } ∧
      ((standbys "cut").aggregateShardStatusMatching.replicas.map fun r => (r.pod, r.ready)) =
        [(str "demo-shard-0-1", true), (str "demo-shard-0-2", true)] := by
  decide +kernel

end PostgresOperator.Cluster
