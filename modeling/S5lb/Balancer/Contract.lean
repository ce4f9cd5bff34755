import S5lb.Balancer.LoadBalancer
import S5lb.Strategy.Affinity
import S5lb.Strategy.Candidates

/-!
# The contract of the selectors

`Selector.Pick` on a pool whose snapshots have distinct non-empty IDs: it returns `""` when nothing is
eligible and otherwise an eligible snapshot, which four of the selectors choose as the best in a sense
of their own.
-/

namespace S5lb

structure Contract (pool : List Snapshot) (maxPer : Int) (id : String) : Prop where
  empty : id = "" ↔ ∀ s ∈ pool, s.eligible maxPer = false
  found : id ≠ "" → ∃ s ∈ pool, s.eligible maxPer = true ∧ s.id = id

theorem Chosen.contract {pool : List Snapshot} {maxPer : Int} {id : String}
    (named : ∀ s ∈ pool, s.id ≠ "") (chosen : Chosen pool maxPer "" id) :
    Contract pool maxPer id := by
  rcases chosen with ⟨s, member, able, rfl⟩ | ⟨rfl, none⟩
  · refine ⟨⟨fun empty => absurd empty (named s member), fun none => ?_⟩,
      fun _ => ⟨s, member, able, rfl⟩⟩
    rw [none s member] at able
    cases able
  · exact ⟨⟨fun _ => none rfl, fun _ => rfl⟩, fun nonempty => absurd rfl nonempty⟩

def Foremost (configured : List Upstream) (pool : List Snapshot) (maxPer : Int) (id : String) :
    Prop :=
  ∃ u ∈ configured, u.id = id ∧ ∀ v ∈ configured,
    (∃ s ∈ pool, s.eligible maxPer = true ∧ s.id = v.id) →
      u.priority < v.priority ∨
        u.priority = v.priority ∧ configured.idxOf u ≤ configured.idxOf v

theorem setUpstreams_ids {lb lb' : LoadBalancer} {ups : List Upstream}
    (installed : lb.setUpstreams ups = .ok lb') :
    ((ups.map Upstream.normalizeID).map (·.id)).Nodup ∧
      lb'.pool.upstreams.map (·.id) =
        (StableSort.byKey (·.priority) (ups.map Upstream.normalizeID)).map (·.id) := by
  obtain ⟨pool, replaced, rfl⟩ := LoadBalancer.setUpstreams_eq_ok.1 installed
  obtain ⟨distinct, upstreams⟩ := Pool.replace_ok replaced
  refine ⟨distinct, ?_⟩
  rw [upstreams, Pool.replacement, List.map_map]
  simp [Function.comp_def]

theorem priorityFailover_foremost {configured : List Upstream} {pool : List Snapshot} {maxPer : Int}
    (distinct : (configured.map (·.id)).Nodup)
    (ordered : pool.map (·.id) = (StableSort.byKey (·.priority) configured).map (·.id))
    (nonempty : PriorityFailoverSelector.pick pool maxPer ≠ "") :
    Foremost configured pool maxPer (PriorityFailoverSelector.pick pool maxPer) := by
  unfold PriorityFailoverSelector.pick at nonempty ⊢
  cases found : pool.find? (·.eligible maxPer) with
  | none => simp [found] at nonempty
  | some s =>
      obtain ⟨_, before, after, rfl, unable⟩ := List.find?_eq_some_iff_append.1 found
      have sorted := StableSort.byKey_stableSorted (·.priority) configured
      have lexicographic := sorted.pairwise
        (StableSort.pairwise_idxOf (List.Nodup.of_map _ distinct))
      have members := fun u => sorted.perm.mem_iff (a := u)
      generalize StableSort.byKey (·.priority) configured = order at ordered lexicographic members
      rw [List.map_append, List.map_cons] at ordered
      obtain ⟨before', rest', rfl, sameBefore, sameRest⟩ := List.map_eq_append_iff.1 ordered.symm
      obtain ⟨u, after', rfl, sameU, sameAfter⟩ := List.map_eq_cons_iff.1 sameRest
      have memberU : u ∈ configured := (members u).1 (by simp)
      refine ⟨u, memberU, sameU, fun v memberV ⟨t, memberT, able, namedT⟩ => ?_⟩
      rcases List.mem_append.1 memberT with early | late
      · have := unable t early
        simp [able] at this
      · rcases List.mem_cons.1 late with rfl | later
        · cases List.inj_on_of_nodup_map distinct memberU memberV (sameU.trans namedT)
          exact .inr ⟨rfl, le_refl _⟩
        · have inside : t.id ∈ after'.map (·.id) := by
            rw [sameAfter]
            exact List.mem_map.2 ⟨t, later, rfl⟩
          obtain ⟨w, memberW, namedW⟩ := List.mem_map.1 inside
          have same : w = v := List.inj_on_of_nodup_map distinct ((members w).1 (by simp [memberW]))
            memberV (namedW.trans namedT)
          subst same
          have tail := (List.pairwise_append.1 lexicographic).2.1
          exact ((List.pairwise_cons.1 tail).1 w memberW).imp_right fun tied => ⟨tied.1, tied.2.le⟩

namespace Selector

def Optimum (sel : Selector) (sc : SelectCtx) (pool : List Snapshot) (maxPer : Int) (id : String) :
    Prop :=
  match sel with
  | .leastActive => ∃ s ∈ eligible pool maxPer, s.id = id ∧
      ∀ t ∈ eligible pool maxPer, s.active ≤ t.active
  | .consistentHash => ∀ t ∈ eligible pool maxPer,
      ConsistentHashSelector.hrw sc.hashInput t.id ≤ ConsistentHashSelector.hrw sc.hashInput id
  | .p2c => 2 ≤ (eligible pool maxPer).length → ∀ s ∈ eligible pool maxPer,
      (∀ t ∈ eligible pool maxPer, t ≠ s → t.active < s.active) → id ≠ s.id
  | .priorityFailover => ∀ (lb lb' : LoadBalancer) (ups : List Upstream),
      lb.setUpstreams ups = .ok lb' → pool.map (·.id) = lb'.pool.upstreams.map (·.id) →
      Foremost (ups.map Upstream.normalizeID) pool maxPer id
  | _ => True

theorem pick_optimum {sel after : Selector} {sc : SelectCtx} {pool : List Snapshot} {maxPer : Int}
    {id : String} (named : ∀ s ∈ pool, s.id ≠ "") (distinct : (pool.map (·.id)).Nodup)
    (out : (sel.pick sc pool maxPer).Outcome (id, after)) (nonempty : id ≠ "") :
    sel.Optimum sc pool maxPer id := by
  have chosen : ∃ s ∈ eligible pool maxPer, s.id = id := by
    rcases pick_chosen out with (⟨s, member, able, same⟩ | ⟨empty, -⟩) | ⟨_, -, empty, -⟩
    · exact ⟨s, mem_eligible.2 ⟨member, able⟩, same⟩
    · exact absurd empty nonempty
    · exact absurd empty nonempty
  cases sel with
  | leastActive =>
      obtain ⟨s, member, rfl⟩ := chosen
      exact ⟨s, member, rfl, (outcome_iff named distinct member .leastActive sc).1 ⟨after, out⟩⟩
  | consistentHash =>
      cases Drawing.outcome_ret.1 out
      exact ConsistentHashSelector.pick_maximal named nonempty
  | p2c =>
      rintro several s member largest rfl
      rcases (outcome_iff named distinct member .p2c sc).1 ⟨after, out⟩ with single | ⟨t, other, apart, le⟩
      · simp [single] at several
      · exact absurd (largest t other apart) (not_lt.2 le)
  | priorityFailover =>
      cases Drawing.outcome_ret.1 out
      intro lb lb' ups installed ordered
      obtain ⟨unique, ids⟩ := setUpstreams_ids installed
      exact priorityFailover_foremost unique (ordered.trans ids) nonempty
  | roundRobin | wrr | random | weightedRandom | leastLatency => trivial

theorem total_reservoirScan {β : Type} (score : Snapshot → β) (better tied : β → β → Bool)
    (maxPer : Int) (pool : List Snapshot) (held : String) (best : β) (tieCount : Nat) :
    (reservoirScan score better tied maxPer pool held best tieCount).Total := by
  induction pool generalizing held best tieCount with
  | nil => trivial
  | cons u rest ih =>
      unfold reservoirScan
      split
      · exact ih _ _ _
      split
      · exact ih _ _ _
      split
      · exact ⟨Nat.succ_pos _, fun d => ih _ _ _⟩
      · exact ih _ _ _

theorem pick_total (sel : Selector) (sc : SelectCtx) (pool : List Snapshot) (maxPer : Int) :
    (sel.pick sc pool maxPer).Total := by
  cases sel with
  | leastActive | leastLatency => exact (total_reservoirScan _ _ _ _ _ _ _ _).map
  | random =>
      refine Drawing.Total.map ?_
      unfold RandomSelector.pick
      dsimp only
      split
      · trivial
      · rename_i nonempty
        exact ⟨List.length_pos_iff.2 fun nil => nonempty (by simp [nil]), fun _ => trivial⟩
  | weightedRandom =>
      refine Drawing.Total.map ?_
      unfold WeightedRandomSelector.pick
      dsimp only
      split
      · trivial
      · rename_i nonempty
        split
        · exact ⟨List.length_pos_iff.2 fun nil => nonempty (by simp [nil]), fun _ => trivial⟩
        · rename_i positive
          exact ⟨Int.lt_toNat.2 (not_le.1 positive), fun _ => trivial⟩
  | p2c =>
      refine Drawing.Total.map ?_
      unfold P2CSelector.pick
      split
      · trivial
      · trivial
      · rename_i several single
        match cands : eligible pool maxPer with
        | [] => exact absurd cands several
        | [u] => exact absurd cands (single u)
        | a :: b :: rest =>
            refine ⟨Nat.succ_pos _, fun i => ⟨Nat.succ_pos _, fun j => ?_⟩⟩
            dsimp only
            split <;> trivial
  | roundRobin | wrr | consistentHash | priorityFailover => trivial

/-- Every selector keeps the contract and its own optimum, but round-robin only where its turns meet
an eligible snapshot if there is one. -/
theorem contract_iff (sel : Selector) (sc : SelectCtx) (pool : List Snapshot) (maxPer : Int)
    (named : ∀ s ∈ pool, s.id ≠ "") (distinct : (pool.map (·.id)).Nodup) :
    ((sel.pick sc pool maxPer).Total ∧
      ∀ id after, (sel.pick sc pool maxPer).Outcome (id, after) →
        Contract pool maxPer id ∧ (id ≠ "" → sel.Optimum sc pool maxPer id)) ↔
      ∀ idx : UInt64, sel = .roundRobin idx → (∃ s ∈ pool, s.eligible maxPer = true) →
        ∃ t < pool.length, EligibleAt pool maxPer ((idx.toNat + t) % 2 ^ 64 % pool.length) := by
  constructor
  · rintro ⟨_, kept⟩ idx rfl ⟨s, member, able⟩
    by_contra missed
    have picked : (RoundRobinSelector.pick idx pool maxPer).1 = "" :=
      roundRobin_miss fun t turn marked => missed ⟨t, turn, marked⟩
    have empty := (kept _ _ rfl).1.empty.1 picked s member
    rw [able] at empty
    cases empty
  · intro meets
    refine ⟨sel.pick_total sc pool maxPer, fun id after out => ⟨?_, pick_optimum named distinct out⟩⟩
    rcases pick_chosen out with chosen | ⟨idx, rfl, rfl, missed⟩
    · exact chosen.contract named
    · refine Chosen.contract named (.inr ⟨rfl, fun _ s member => ?_⟩)
      by_contra able
      obtain ⟨t, turn, marked⟩ := meets idx rfl ⟨s, member, by simpa using able⟩
      exact missed t turn marked

/-- Three upstreams of which the last can serve, and a cursor about to wrap around: its turns are at
the first, the first again, and the second. -/
theorem roundRobin_wrapped :
    let pool : List Snapshot := [.idle "a" 1 false, .idle "b" 1 false, .idle "c" 1 true]
    let sel : Selector := .roundRobin 18446744073709551615
    (∀ s ∈ pool, s.id ≠ "") ∧ (pool.map (·.id)).Nodup ∧
      ∃ after, (sel.pick ⟨none, "", 0, .clientIP⟩ pool 1).Outcome ("", after) ∧
        ¬Contract pool 1 "" := by
  intro pool sel
  have picked : RoundRobinSelector.pick 18446744073709551615 pool 1 = ("", 2) := by decide +kernel
  refine ⟨by decide, by decide, .roundRobin 2, ?_, fun contract => ?_⟩
  · simp only [sel, Selector.pick, picked, Drawing.outcome_ret]
  · have unable := contract.empty.1 rfl (.idle "c" 1 true) (by decide)
    cases unable

/-- One that is drawn among two of the same load. -/
theorem leastActive_kept :
    let pool : List Snapshot := [.idle "a" 1 false, .idle "b" 1 true, .idle "c" 1 true]
    let sc : SelectCtx := ⟨none, "", 0, .clientIP⟩
    (Selector.leastActive.pick sc pool 1).Outcome ("b", .leastActive) ∧ Contract pool 1 "b" ∧
      Selector.leastActive.Optimum sc pool 1 "b" := by
  intro pool sc
  have out : (Selector.leastActive.pick sc pool 1).Outcome ("b", .leastActive) :=
    @Drawing.run_outcome _ _ [1] _ rfl
  obtain ⟨_, kept⟩ := (contract_iff .leastActive sc pool 1 (by decide) (by decide)).2
    fun _ other => by cases other
  obtain ⟨contract, optimum⟩ := kept _ _ out
  exact ⟨out, contract, optimum (by decide)⟩

end Selector

end S5lb
