import S5lb.Balancer.ListenAddrs

/-!
# Draining by ID

`Manager.DrainUpstream` asks the groups in order and stops at the first one that has the upstream.
-/

namespace S5lb

def LoadBalancer.drainUpstream (lb : LoadBalancer) (id : String) (drain : Bool) :
    LoadBalancer × Bool :=
  match lb.pool.byID id with
  | none => (lb, false)
  | some u => ({ lb with heap := lb.heap.set u.state ((lb.heap.get u.state).setDrain drain) }, true)

theorem LoadBalancer.drainUpstream_of_indexed {lb : LoadBalancer} {id : String} {u : Upstream}
    (indexed : lb.pool.byID id = some u) (drain : Bool) :
    lb.drainUpstream id drain =
      ({ lb with heap := lb.heap.set u.state ((lb.heap.get u.state).setDrain drain) }, true) := by
  rw [drainUpstream, indexed]

def GroupTable.drainUpstream (t : GroupTable) (id : String) (drain : Bool) :
    List EntryRef → GroupTable × Bool
  | [] => (t, false)
  | r :: rest =>
      match (t.entries.get r).lb.drainUpstream id drain with
      | (lb, true) => (t.setBalancer r lb, true)
      | (_, false) => t.drainUpstream id drain rest

namespace Manager

def drainUpstream (m : Manager) (id : String) (drain : Bool) : Manager × Bool :=
  let (table, found) := m.toGroupTable.drainUpstream id drain m.groups
  ({ m with toGroupTable := table }, found)

def balancer (m : Manager) (r : EntryRef) : LoadBalancer := (m.entries.get r).lb

def upstreamsOf (m : Manager) (r : EntryRef) : List Upstream := (m.balancer r).pool.upstreams

def stateOf (m : Manager) (r : EntryRef) (x : StateRef) : State := (m.balancer r).heap.get x

def holds (m : Manager) (id : String) (r : EntryRef) : Bool := ((m.balancer r).pool.byID id).isSome

def withHeaps (m : Manager) (heaps : EntryRef → Heap State) : Manager :=
  { m with entries.cells := fun r =>
      { m.entries.get r with lb := { m.balancer r with heap := heaps r } } }

structure Drains (id : String) (drain : Bool) (m m' : Manager) (found : Bool) : Prop where
  everywhere : ∀ r ∈ m.groups, ∀ u ∈ m.upstreamsOf r, u.id = id →
    (m'.stateOf r u.state).draining = drain
  others : ∀ r x, (∀ u ∈ m.upstreamsOf r, u.id = id → u.state ≠ x) → m'.stateOf r x = m.stateOf r x
  flag : ∀ r x, { m'.stateOf r x with draining := (m.stateOf r x).draining } = m.stateOf r x
  rest : ∃ heaps, m' = m.withHeaps heaps ∧ ∀ r, (heaps r).next = (m.balancer r).heap.next
  found : found = true ↔ ∃ r ∈ m.groups, ∃ u ∈ m.upstreamsOf r, u.id = id

variable {m : Manager} {id : String}

theorem holds_iff {r : EntryRef} : m.holds id r = true ↔ ∃ u ∈ m.upstreamsOf r, u.id = id := by
  rw [holds, Option.isSome_iff_exists]
  simp only [(m.balancer r).pool.indexed, upstreamsOf]

theorem drainUpstream_table (t : GroupTable) (id : String) (drain : Bool) (groups : List EntryRef) :
    t.drainUpstream id drain groups =
      match groups.find? fun r => ((t.entries.get r).lb.pool.byID id).isSome with
      | none => (t, false)
      | some r => (t.setBalancer r ((t.entries.get r).lb.drainUpstream id drain).1, true) := by
  induction groups with
  | nil => rfl
  | cons r rest ih =>
      rw [List.find?_cons, GroupTable.drainUpstream]
      cases found : (t.entries.get r).lb.pool.byID id with
      | none => simpa only [LoadBalancer.drainUpstream, found, Option.isSome_none] using ih
      | some u => simp only [LoadBalancer.drainUpstream, found, Option.isSome_some]

theorem stateOf_withHeaps (m : Manager) (heaps : EntryRef → Heap State) (r : EntryRef)
    (x : StateRef) : (m.withHeaps heaps).stateOf r x = (heaps r).get x := rfl

theorem withHeaps_self (m : Manager) : m.withHeaps (fun r => (m.balancer r).heap) = m := rfl

theorem setBalancer_heap (m : Manager) (r : EntryRef) (heap : Heap State) :
    { m with toGroupTable := m.toGroupTable.setBalancer r { m.balancer r with heap } } =
      m.withHeaps fun q => if q = r then heap else (m.balancer q).heap := by
  have cells : Function.update m.entries.cells r
        { m.entries.get r with lb := { m.balancer r with heap } } =
      fun q => { m.entries.get q with
        lb := { m.balancer q with heap := if q = r then heap else (m.balancer q).heap } } := by
    funext q
    by_cases same : q = r
    · subst same
      simp
    · rw [Function.update_of_ne same, if_neg same]
      rfl
  exact congrArg (fun cells => ({ m with entries := ⟨cells, m.entries.next⟩ } : Manager)) cells

def flagged (m : Manager) (r : EntryRef) (x : StateRef) (drain : Bool) : Manager :=
  m.withHeaps fun q => if q = r then
    (m.balancer r).heap.set x ((m.stateOf r x).setDrain drain) else (m.balancer q).heap

theorem stateOf_flagged (m : Manager) (r q : EntryRef) (x y : StateRef) (drain : Bool) :
    (m.flagged r x drain).stateOf q y =
      if q = r ∧ y = x then (m.stateOf r x).setDrain drain else m.stateOf q y := by
  unfold flagged
  by_cases same : q = r
  · subst same
    rw [stateOf_withHeaps, if_pos rfl, Heap.get_set]
    simp only [true_and]
    rfl
  · rw [stateOf_withHeaps, if_neg same, if_neg fun both => same both.1]
    rfl

theorem drainUpstream_cases (m : Manager) (id : String) (drain : Bool) :
    m.groups.find? (m.holds id) = none ∧ m.drainUpstream id drain = (m, false) ∨
    ∃ r u, m.groups.find? (m.holds id) = some r ∧ u ∈ m.upstreamsOf r ∧ u.id = id ∧
      m.drainUpstream id drain = (m.flagged r u.state drain, true) := by
  have looped := drainUpstream_table m.toGroupTable id drain m.groups
  change _ = match m.groups.find? (m.holds id) with | none => _ | some r => _ at looped
  cases first : m.groups.find? (m.holds id) with
  | none =>
      rw [first] at looped
      exact .inl ⟨rfl, by rw [drainUpstream, looped]⟩
  | some r =>
      rw [first] at looped
      have held : m.holds id r = true := List.find?_some first
      obtain ⟨u, indexed⟩ := Option.isSome_iff_exists.1 held
      obtain ⟨member, named⟩ := ((m.balancer r).pool.indexed id u).1 indexed
      refine .inr ⟨r, u, rfl, member, named, ?_⟩
      rw [drainUpstream, looped, flagged, ← setBalancer_heap]
      exact congrArg (fun out : LoadBalancer × Bool =>
        (({ m with toGroupTable := m.toGroupTable.setBalancer r out.1 } : Manager), true))
        (LoadBalancer.drainUpstream_of_indexed indexed drain)

theorem held_of_named {r : EntryRef} {u : Upstream} (member : u ∈ m.upstreamsOf r) (named : u.id = id) :
    (m.balancer r).pool.byID id = some u :=
  ((m.balancer r).pool.indexed id u).2 ⟨member, named⟩

theorem drains_of_none {drain : Bool} (none : m.groups.find? (m.holds id) = none) :
    Drains id drain m m false := by
  have without : ∀ r ∈ m.groups, ∀ u ∈ m.upstreamsOf r, u.id ≠ id := by
    intro r member u present named
    exact List.find?_eq_none.1 none r member (holds_iff.2 ⟨u, present, named⟩)
  refine ⟨fun r member u present named => absurd named (without r member u present), fun _ _ _ => rfl,
    fun _ _ => rfl, ⟨_, (withHeaps_self m).symm, fun _ => rfl⟩, nofun, ?_⟩
  rintro ⟨r, member, u, present, named⟩
  exact absurd named (without r member u present)

theorem drains_of_first {drain : Bool} {r : EntryRef} {u : Upstream}
    (first : m.groups.find? (m.holds id) = some r) (member : u ∈ m.upstreamsOf r) (named : u.id = id)
    (already : ∀ q ∈ m.groups, q ≠ r → ∀ v ∈ m.upstreamsOf q, v.id = id →
      (m.stateOf q v.state).draining = drain) :
    Drains id drain m (m.flagged r u.state drain) true := by
  constructor
  · intro q present v memberV namedV
    rw [stateOf_flagged]
    by_cases same : q = r
    · subst same
      have unique := (held_of_named memberV namedV).symm.trans (held_of_named member named)
      rw [Option.some.inj unique, if_pos ⟨rfl, rfl⟩]
      rfl
    · rw [if_neg fun both => same both.1]
      exact already q present same v memberV namedV
  · intro q x other
    rw [stateOf_flagged, if_neg]
    rintro ⟨rfl, rfl⟩
    exact other u member named rfl
  · intro q x
    rw [stateOf_flagged]
    split
    · rename_i here
      rw [here.1, here.2]
      rfl
    · rfl
  · refine ⟨_, rfl, fun q => ?_⟩
    split
    · rename_i same
      rw [same]
      rfl
    · rfl
  · exact ⟨fun _ => ⟨r, List.mem_of_find?_eq_some first, u, member, named⟩, fun _ => rfl⟩

/-- Draining reaches every group exactly if those after the first one that has the ID have the flag
already. -/
theorem drain_all_groups_iff (m : Manager) (id : String) (drain : Bool) :
    Drains id drain m (m.drainUpstream id drain).1 (m.drainUpstream id drain).2 ↔
      ∀ r ∈ m.groups, m.groups.find? (m.holds id) ≠ some r → ∀ u ∈ m.upstreamsOf r, u.id = id →
        (m.stateOf r u.state).draining = drain := by
  rcases drainUpstream_cases m id drain with ⟨none, drained⟩ | ⟨r, u, first, member, named, drained⟩
  · rw [drained]
    have drains := @drains_of_none m id drain none
    exact ⟨fun _ q present _ => drains.everywhere q present, fun _ => drains⟩
  · rw [drained, first]
    constructor
    · intro drains q present later v memberV namedV
      have other : q ≠ r := fun same => later (by rw [same])
      have set := drains.everywhere q present v memberV namedV
      rwa [stateOf_flagged, if_neg fun both => other both.1] at set
    · intro already
      apply drains_of_first first member named
      intro q present other
      exact already q present fun same => other (Option.some.inj same).symm

/-- Two groups that fall back to the same upstream: the second one goes on using it. -/
theorem second_group_not_drained :
    ∃ m, newManager noCluster (listening [("a", "127.0.0.1:1080"), ("b", "127.0.0.1:1081")])
        "s5lb.yaml" [] = .ok m ∧
      m.groups = [0, 1] ∧ (m.upstreamsOf 0).map Upstream.id = (m.upstreamsOf 1).map Upstream.id ∧
      ∀ u ∈ m.upstreamsOf 0, (m.drainUpstream u.id true).2 = true ∧
        ((m.upstreamsOf 0).map fun v => ((m.drainUpstream u.id true).1.stateOf 0 v.state).draining) =
          [true] ∧
        ((m.upstreamsOf 1).map fun v => ((m.drainUpstream u.id true).1.stateOf 1 v.state).draining) =
          [false] := by
  obtain ⟨m, made, test⟩ := @Transition.ok_of_any _ _
    (newManager noCluster (listening [("a", "127.0.0.1:1080"), ("b", "127.0.0.1:1081")])
      "s5lb.yaml" [])
    (fun m => decide (m.groups = [0, 1] ∧
      (m.upstreamsOf 0).map Upstream.id = (m.upstreamsOf 1).map Upstream.id ∧
      ∀ u ∈ m.upstreamsOf 0, (m.drainUpstream u.id true).2 = true ∧
        ((m.upstreamsOf 0).map fun v => ((m.drainUpstream u.id true).1.stateOf 0 v.state).draining) =
          [true] ∧
        ((m.upstreamsOf 1).map fun v => ((m.drainUpstream u.id true).1.stateOf 1 v.state).draining) =
          [false])) (by decide +kernel)
  exact ⟨m, made, of_decide_eq_true test⟩

end Manager

end S5lb
