import S5lb.Balancer.LoadBalancer
import S5lb.Strategy.Candidates

namespace S5lb.LoadBalancer

def Serves (lb : LoadBalancer) (u : Upstream) : Prop :=
  (lb.heap.get u.state).canServe lb.cfg.maxPerProxy = true

/-- The upstream passes the test the selectors make, which does not look at the drain flag. -/
def Eligible (lb : LoadBalancer) (u : Upstream) : Prop :=
  (u.snapshot lb.heap).eligible lb.cfg.maxPerProxy = true

def Draining (lb : LoadBalancer) (u : Upstream) : Prop := (lb.heap.get u.state).draining = true

/-- An outcome of `pick` is complete: it has an upstream exactly when some upstream of the pool can
serve, and then one that can. -/
def PickComplete (lb : LoadBalancer) (out : Option Upstream × LoadBalancer) : Prop :=
  (out.1.isSome = true ↔ ∃ u ∈ lb.pool.upstreams, lb.Serves u) ∧
    ∀ u, out.1 = some u → u ∈ lb.pool.upstreams ∧ lb.Serves u

/-- Nobody can serve, or none of those that the selector may choose in its state is draining, and one
of the turns of round-robin meets an eligible upstream. -/
def PickSafe (lb : LoadBalancer) (sc : SelectCtx) : Prop :=
  (∀ u ∈ lb.pool.upstreams, ¬lb.Serves u) ∨
    (∀ u ∈ lb.pool.upstreams, lb.Eligible u →
      lb.selector.MayChoose sc lb.snapshots lb.cfg.maxPerProxy (u.snapshot lb.heap) → ¬lb.Draining u) ∧
    ∀ idx, lb.selector = .roundRobin idx → ∃ t < lb.pool.upstreams.length,
      EligibleAt lb.snapshots lb.cfg.maxPerProxy ((idx.toNat + t) % 2 ^ 64 % lb.pool.upstreams.length)

variable {lb : LoadBalancer}

theorem eligible_iff {u : Upstream} : lb.Eligible u ↔
    (lb.heap.get u.state).healthy = true ∧ ((lb.heap.get u.state).active : Int) < lb.cfg.maxPerProxy :=
  Bool.and_eq_true_iff.trans (and_congr_right fun _ => decide_eq_true_iff)

theorem serves_iff {u : Upstream} : lb.Serves u ↔ lb.Eligible u ∧ ¬lb.Draining u := by
  simp only [eligible_iff, Serves, Draining, State.canServe, Bool.and_eq_true, decide_eq_true_eq,
    Bool.not_eq_true', Bool.not_eq_true]
  exact and_right_comm

theorem mem_snapshots {s : Snapshot} :
    s ∈ lb.snapshots ↔ ∃ u ∈ lb.pool.upstreams, u.snapshot lb.heap = s := List.mem_map

theorem reserve_fst (lb : LoadBalancer) (id : String) :
    (lb.reserve id).1 = if id = "" then none
      else (lb.pool.byID id).filter fun u => (lb.heap.get u.state).canServe lb.cfg.maxPerProxy := by
  unfold reserve
  split
  · rfl
  · cases found : lb.pool.byID id with
    | none => rfl
    | some u =>
        simp only [State.incActive_eq, Option.filter_some]
        cases able : (lb.heap.get u.state).canServe lb.cfg.maxPerProxy <;> simp

theorem reserve_sound {id : String} {u : Upstream} (reserved : (lb.reserve id).1 = some u) :
    u ∈ lb.pool.upstreams ∧ lb.Serves u := by
  rw [reserve_fst] at reserved
  split at reserved
  · cases reserved
  · obtain ⟨found, able⟩ := Option.filter_eq_some_iff.1 reserved
    exact ⟨((lb.pool.indexed _ _).1 found).1, able⟩

theorem reserve_of_serves {u : Upstream} (member : u ∈ lb.pool.upstreams) (able : lb.Serves u) :
    (lb.reserve u.id).1 = some u := by
  have found : lb.pool.byID u.id = some u := (lb.pool.indexed _ _).2 ⟨member, rfl⟩
  rw [reserve_fst, if_neg (lb.pool.named u member), found]
  exact Option.filter_eq_some_iff.2 ⟨rfl, able⟩

theorem reserve_cases (lb : LoadBalancer) (id : String) :
    lb.reserve id = (none, lb) ∨
    ∃ u state, u ∈ lb.pool.upstreams ∧ (lb.heap.get u.state).incActive lb.cfg.maxPerProxy = some state ∧
      lb.reserve id = (some u, { lb with heap := lb.heap.set u.state state }) := by
  unfold reserve
  split
  · exact .inl rfl
  · split
    · exact .inl rfl
    · rename_i u found
      cases granted : (lb.heap.get u.state).incActive lb.cfg.maxPerProxy with
      | none => exact .inl rfl
      | some state => exact .inr ⟨u, state, ((lb.pool.indexed _ _).1 found).1, granted, rfl⟩

theorem pick_outcome {sc : SelectCtx} {out : Option Upstream × LoadBalancer} :
    (lb.pick sc).Outcome out ↔
      ∃ id after, (lb.selector.pick sc lb.snapshots lb.cfg.maxPerProxy).Outcome (id, after) ∧
        out = { lb with selector := after }.reserve id := by
  refine Drawing.outcome_map.trans ⟨?_, ?_⟩
  · rintro ⟨⟨id, after⟩, chosen, rfl⟩
    exact ⟨id, after, chosen, rfl⟩
  · rintro ⟨id, after, chosen, rfl⟩
    exact ⟨(id, after), chosen, rfl⟩

theorem length_snapshots (lb : LoadBalancer) : lb.snapshots.length = lb.pool.upstreams.length := by
  simp [snapshots]

theorem chosen_iff {sc : SelectCtx} {u : Upstream} (member : u ∈ lb.pool.upstreams) (able : lb.Eligible u) :
    (∃ after, (lb.selector.pick sc lb.snapshots lb.cfg.maxPerProxy).Outcome (u.id, after)) ↔
      lb.selector.MayChoose sc lb.snapshots lb.cfg.maxPerProxy (u.snapshot lb.heap) := by
  have named : ∀ s ∈ lb.snapshots, s.id ≠ "" := by
    intro s memberS
    obtain ⟨v, memberV, rfl⟩ := mem_snapshots.1 memberS
    exact lb.pool.named v memberV
  have distinct : (lb.snapshots.map (·.id)).Nodup := by
    rw [snapshots, List.map_map]
    exact lb.pool.distinct
  exact Selector.outcome_iff named distinct (mem_eligible.2 ⟨mem_snapshots.2 ⟨u, member, rfl⟩, able⟩) _ _

theorem pick_sound {sc : SelectCtx} {out : Option Upstream × LoadBalancer}
    (picked : (lb.pick sc).Outcome out) {u : Upstream} (got : out.1 = some u) :
    u ∈ lb.pool.upstreams ∧ lb.Serves u := by
  obtain ⟨id, after, -, rfl⟩ := pick_outcome.1 picked
  exact @reserve_sound { lb with selector := after } id u got

theorem pick_complete_of_found {sc : SelectCtx} {out : Option Upstream × LoadBalancer}
    (picked : (lb.pick sc).Outcome out)
    (found : ∀ u ∈ lb.pool.upstreams, lb.Serves u → out.1.isSome = true) : lb.PickComplete out := by
  refine ⟨⟨fun some => ?_, fun ⟨u, member, able⟩ => found u member able⟩, fun u => pick_sound picked⟩
  obtain ⟨u, got⟩ := Option.isSome_iff_exists.1 some
  exact ⟨u, pick_sound picked got⟩

theorem pick_complete_of_safe {sc : SelectCtx} {out : Option Upstream × LoadBalancer}
    (safe : lb.PickSafe sc) (picked : (lb.pick sc).Outcome out) : lb.PickComplete out := by
  refine pick_complete_of_found picked fun u member able => ?_
  rcases safe with nobody | ⟨steady, meets⟩
  · exact absurd able (nobody u member)
  obtain ⟨id, after, chosen, rfl⟩ := pick_outcome.1 picked
  rcases pick_chosen chosen with (⟨s, memberS, ableS, rfl⟩ | ⟨-, idle⟩) | ⟨idx, rotates, -, missed⟩
  · obtain ⟨v, memberV, rfl⟩ := mem_snapshots.1 memberS
    have stays := steady v memberV ableS ((chosen_iff memberV ableS).1 ⟨after, chosen⟩)
    have reserved : (reserve { lb with selector := after } v.id).1 = some v :=
      reserve_of_serves memberV (serves_iff.2 ⟨ableS, stays⟩)
    exact Option.isSome_iff_exists.2 ⟨v, reserved⟩
  · have idleU := idle rfl _ (mem_snapshots.2 ⟨u, member, rfl⟩)
    exact absurd (serves_iff.1 able).1 (by simp [Eligible, idleU])
  · obtain ⟨t, turn, met⟩ := meets idx rotates
    rw [length_snapshots] at missed
    exact absurd met (missed t turn)

theorem not_complete_of_none {out : Option Upstream × LoadBalancer}
    (serving : ∃ u ∈ lb.pool.upstreams, lb.Serves u) (refused : out.1 = none) :
    ¬lb.PickComplete out := by
  intro complete
  have reserved := complete.1.2 serving
  rw [refused] at reserved
  cases reserved

theorem reserve_draining {u : Upstream} (member : u ∈ lb.pool.upstreams) (draining : lb.Draining u) :
    (lb.reserve u.id).1 = none := by
  have found : lb.pool.byID u.id = some u := (lb.pool.indexed _ _).2 ⟨member, rfl⟩
  have refused : (lb.heap.get u.state).canServe lb.cfg.maxPerProxy = false :=
    Bool.eq_false_iff.2 fun able => (serves_iff.1 able).2 draining
  rw [reserve_fst, if_neg (lb.pool.named u member), found, Option.filter_some, refused]
  rfl

end S5lb.LoadBalancer
