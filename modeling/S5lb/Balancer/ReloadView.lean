import S5lb.Balancer.GateCell
import S5lb.Balancer.ReloadSteps
import S5lb.Lib.Writers

namespace S5lb

open Writers (Cells Plan land)

def Upstream.withState (u : Upstream) (state : StateRef) : Upstream := { u with state }

def UpstreamSpec.upstream (s : UpstreamSpec) (state : StateRef) : Upstream where
  id := s.upstreamID
  host := s.host
  port := s.port
  username := s.username
  password := s.password
  weight := if s.weight ≤ 0 then 1 else s.weight
  priority := s.priority
  state := state

theorem upstreams_of_buildUpstreamsFrom {heap after : Heap State} {i : Nat} {specs : List UpstreamSpec}
    {ups : List Upstream} (built : buildUpstreamsFrom heap i specs = .ok (ups, after)) (r : StateRef) :
    ups.map (·.withState r) = specs.map (·.upstream r) := by
  induction specs generalizing heap i ups with
  | nil =>
      cases built
      rfl
  | cons spec rest ih =>
      simp only [buildUpstreamsFrom] at built
      split at built
      · cases built
      · cases later : buildUpstreamsFrom (heap.alloc newState).2 (i + 1) rest with
        | error message =>
            simp only [Upstream.new, later, Except.map] at built
            cases built
        | ok result =>
            obtain ⟨out, last⟩ := result
            simp only [Upstream.new, later, Except.map, Except.ok.injEq, Prod.mk.injEq] at built
            obtain ⟨rfl, rfl⟩ := built
            simp only [List.map_cons, ih later, List.cons.injEq, and_true]
            unfold UpstreamSpec.upstream UpstreamSpec.upstreamID
            split <;> simp [Upstream.withState, Upstream.normalizeID, Upstream.addr]

namespace Config

def admission (c : Config) : BackpressureStrategy × Duration := (c.backpressure, c.admissionWaitTimeout)

theorem newGateNeeded_iff {oldCfg newCfg : Config} :
    oldCfg.newGateNeeded newCfg ↔ oldCfg.admission ≠ newCfg.admission := by
  simp only [newGateNeeded, admission, ne_eq, Prod.mk.injEq, not_and_or]

end Config

namespace LoadBalancer

def planned (lb : LoadBalancer) (filled : Config) : Config :=
  if lb.tracker.count ≠ 0 then
    { filled.keepImmutable lb.cfg with
      backpressure := lb.cfg.backpressure
      admissionWaitTimeout := lb.cfg.admissionWaitTimeout }
  else filled.keepImmutable lb.cfg

structure Kin (lb : LoadBalancer) (cfg : Config) : Prop where
  immutable : ∀ c : Config, c.keepImmutable cfg = c.keepImmutable lb.cfg
  admission : lb.tracker.count ≠ 0 → cfg.admission = lb.cfg.admission

theorem kin_cfg (lb : LoadBalancer) : lb.Kin lb.cfg := ⟨fun _ => rfl, fun _ => rfl⟩

theorem kin_planned (lb : LoadBalancer) (filled : Config) : lb.Kin (lb.planned filled) := by
  unfold planned
  split
  · exact ⟨fun _ => rfl, fun _ => rfl⟩
  · rename_i idle
    exact ⟨fun _ => rfl, fun tracked => absurd tracked idle⟩

theorem planned_dials (client : KubeClient) (lb : LoadBalancer) (filled : Config) :
    newFromConfig client (lb.planned filled) = newFromConfig client filled := by
  unfold planned
  split <;> exact newFromConfig_congr client rfl rfl

theorem planned_maxClients (lb : LoadBalancer) (filled : Config) :
    (lb.planned filled).maxClients = lb.cfg.maxClients := by
  unfold planned
  split <;> rfl

inductive Counted (base lb : LoadBalancer) (oldCfg filled : Config) :
    Config × Option GateRef × Heap Gate → Prop
  | kept (same : oldCfg.admission = (base.planned filled).admission) :
      Counted base lb oldCfg filled (base.planned filled, none, lb.gates)
  | made (differs : oldCfg.admission ≠ (base.planned filled).admission) :
      Counted base lb oldCfg filled (base.planned filled, some lb.gates.next,
        (lb.gates.alloc (admissionNew (base.planned filled))).2)

theorem counted_of_countSection {base lb : LoadBalancer} {oldCfg filled : Config}
    (tracker : lb.tracker = base.tracker) (kin : base.Kin oldCfg) :
    Counted base lb oldCfg filled (lb.countSection oldCfg (filled.keepImmutable oldCfg)) := by
  unfold countSection
  rw [tracker, kin.immutable]
  by_cases tracked : base.tracker.count ≠ 0
  · have same := kin.admission tracked
    obtain ⟨backpressure, timeout⟩ : oldCfg.backpressure = base.cfg.backpressure ∧
        oldCfg.admissionWaitTimeout = base.cfg.admissionWaitTimeout := by
      simpa only [Config.admission, Prod.mk.injEq] using same
    have plan : base.planned filled = { filled.keepImmutable base.cfg with
        backpressure := base.cfg.backpressure
        admissionWaitTimeout := base.cfg.admissionWaitTimeout } := if_pos tracked
    have keeps : Counted base lb oldCfg filled (base.planned filled, none, lb.gates) :=
      .kept (by rw [plan]; exact same)
    rw [if_pos tracked]
    split
    · rw [backpressure, timeout, ← plan]
      exact keeps
    · rename_i unneeded
      have unchanged : filled.keepImmutable base.cfg = base.planned filled := by
        simp only [Config.newGateNeeded, not_or, not_not] at unneeded
        rw [plan, ← backpressure, ← timeout, unneeded.1, unneeded.2]
      rw [unchanged]
      exact keeps
  · have plan : base.planned filled = filled.keepImmutable base.cfg := if_neg tracked
    rw [if_neg tracked, ← plan]
    split
    · rename_i needed
      exact .made (Config.newGateNeeded_iff.1 needed)
    · rename_i unneeded
      rw [Config.newGateNeeded_iff, not_not] at unneeded
      exact .kept unneeded

/-- An upstream with what its state holds. Objects made since the heap ended at `next` are known by
their contents only. -/
def seen (next : StateRef) (heap : Heap State) (u : Upstream) : Upstream × State :=
  (u.withState (min u.state next), heap.get u.state)

abbrev View := Cells (List (Upstream × State)) (Config × Dialer) (Option (GateRef × Gate))

def gateKey (second : Config × Dialer) : BackpressureStrategy × Duration := second.1.admission

def view (base lb : LoadBalancer) : View where
  first := lb.pool.upstreams.map (seen base.heap.next lb.heap)
  second := (lb.cfg, lb.dialer)
  third := lb.gateVal.stored.map fun g => (min g base.gates.next, lb.gates.get g)

def adoptSeen (pool : List (Upstream × State)) (u : Upstream) : Upstream × State :=
  match pool.find? (·.1.id = u.id) with
  | some old => (u.withState old.1.state, old.2)
  | none => (u, newState)

theorem adoptSeen_id (pool : List (Upstream × State)) (u : Upstream) : (adoptSeen pool u).1.id = u.id := by
  unfold adoptSeen
  split <;> rfl

def plan (base : LoadBalancer) (client : KubeClient) (filled : Config) :
    Plan (List (Upstream × State)) (Config × Dialer) (Option (GateRef × Gate)) where
  first := fun pool =>
    (StableSort.byKey (·.priority) (filled.upstreams.map (·.upstream base.heap.next))).map (adoptSeen pool)
  second := (base.planned filled, (newFromConfig client filled).toOption.getD base.dialer)
  third := some (base.gates.next, admissionNew (base.planned filled))

theorem plan_ids (base : LoadBalancer) (client : KubeClient) (filled : Config)
    (pool : List (Upstream × State)) : (((base.plan client filled).first pool).map (·.1.id)).Perm
      (filled.upstreams.map UpstreamSpec.upstreamID) := by
  have ids : ((base.plan client filled).first pool).map (·.1.id) = (StableSort.byKey (·.priority)
      (filled.upstreams.map (·.upstream base.heap.next))).map (·.id) := by
    simp only [plan, List.map_map, Function.comp_def, adoptSeen_id]
  have specs : (filled.upstreams.map (·.upstream base.heap.next)).map (·.id) =
      filled.upstreams.map UpstreamSpec.upstreamID := by
    simp only [List.map_map, Function.comp_def, UpstreamSpec.upstream]
  rw [ids, ← specs]
  exact (StableSort.byKey_perm _ _).map _

structure Formed (lb : LoadBalancer) : Prop where
  pooled : ∀ u ∈ lb.pool.upstreams, u.state < lb.heap.next
  apart : (lb.pool.upstreams.map (·.state)).Nodup
  gate : ∃ g, lb.gateVal.stored = some g ∧ g < lb.gates.next

theorem formed_of_initial {lb : LoadBalancer} (initial : lb.Initial) : lb.Formed := by
  obtain ⟨g, bound, stored, -⟩ := (gated_of_initial initial).installed
  obtain ⟨cfg, made, dialer, started, rfl⟩ := initial
  simp only [start, bind_ok] at started
  obtain ⟨_, valid, ⟨ups, heap⟩, built, sel, -, new⟩ := started
  obtain ⟨pool, replaced, rfl⟩ := new_ok new
  have owned := built_of_buildUpstreams built
  refine ⟨fun u member => ?_, ?_, g, stored, bound⟩
  · rcases Pool.replace_states replaced member with ⟨w, none, -⟩ | ⟨w, memberW, same⟩
    · cases none
    · exact same ▸ (owned.owned w memberW).2
  · obtain ⟨transport, filled⟩ := (Config.checked_of_validate valid).filled
    have specs := (Config.checked_of_validate valid).specs
    rw [filled] at specs
    exact Pool.replace_apart replaced List.nodup_nil owned.distinct
      fun _ _ _ none => by cases none

structure Since (base : LoadBalancer) (type : GateType) (lb : LoadBalancer) : Prop where
  tracker : lb.tracker = base.tracker
  kin : base.Kin lb.cfg
  states : Heap.Extends base.heap lb.heap
  gates : Heap.Extends base.gates lb.gates
  pooled : ∀ u ∈ lb.pool.upstreams, u.state < lb.heap.next
  apart : (lb.pool.upstreams.map (·.state)).Nodup
  gate : ∃ g, lb.gateVal.stored = some g ∧ g < lb.gates.next ∧ (lb.gates.get g).type = type

theorem Formed.since {lb : LoadBalancer} (formed : lb.Formed) : ∃ type, Since lb type lb := by
  obtain ⟨g, stored, bound⟩ := formed.gate
  exact ⟨_, rfl, lb.kin_cfg, .refl _, .refl _, formed.pooled, formed.apart, g, stored, bound, rfl⟩

structure Ready (base lb : LoadBalancer) (filled : Config) (ups : List Upstream) : Prop where
  shape : ups.map (·.withState base.heap.next) = filled.upstreams.map (·.upstream base.heap.next)
  fresh : ∀ u ∈ ups, base.heap.next ≤ u.state ∧ u.state < lb.heap.next ∧ lb.heap.get u.state = newState
  apart : (ups.map (·.state)).Nodup
  unused : ∀ u ∈ ups, ∀ v ∈ lb.pool.upstreams, u.state ≠ v.state

def ReadyGate (base lb : LoadBalancer) (filled : Config) (gate : Option GateRef) : Prop :=
  ∀ g, gate = some g → base.gates.next ≤ g ∧ g < lb.gates.next ∧
    lb.gates.get g = admissionNew (base.planned filled)

theorem Ready.ids {base lb : LoadBalancer} {filled : Config} {ups : List Upstream}
    (ready : Ready base lb filled ups) : ups.map (·.id) = filled.upstreams.map UpstreamSpec.upstreamID := by
  have ids := congrArg (List.map (·.id)) ready.shape
  simpa [Upstream.withState, UpstreamSpec.upstream, Function.comp_def] using ids

theorem Ready.normal {base lb : LoadBalancer} {filled : Config} {ups : List Upstream}
    (ready : Ready base lb filled ups) : ups.map Upstream.normalizeID = ups := by
  have named : ∀ u ∈ ups, u.normalizeID = u := by
    intro u member
    apply Upstream.normalizeID_of_ne
    have known : u.id ∈ filled.upstreams.map UpstreamSpec.upstreamID :=
      ready.ids ▸ List.mem_map_of_mem member
    obtain ⟨s, -, same⟩ := List.mem_map.1 known
    exact same ▸ s.upstreamID_ne_empty
  exact (List.map_congr_left named).trans (List.map_id ups)

theorem find?_seen (pool : Pool) (next : StateRef) (heap : Heap State) (id : String) :
    (pool.upstreams.map (seen next heap)).find? (·.1.id = id) = (pool.byID id).map (seen next heap) := by
  have sameID : (fun old : Upstream × State => decide (old.1.id = id)) ∘ seen next heap =
      fun v => decide (v.id = id) := rfl
  rw [List.find?_map, sameID]
  congr 1
  cases known : pool.byID id with
  | none =>
      refine List.find?_eq_none.2 fun v member named => ?_
      cases known.symm.trans ((pool.indexed id v).2 ⟨member, of_decide_eq_true named⟩)
  | some u =>
      obtain ⟨member, named⟩ := (pool.indexed id u).1 known
      have found : (pool.upstreams.find? fun v => v.id = id).isSome :=
        List.find?_isSome.2 ⟨u, member, decide_eq_true named⟩
      obtain ⟨v, found⟩ := Option.isSome_iff_exists.1 found
      have memberV := List.mem_of_find?_eq_some found
      have namedV : v.id = id := by simpa using List.find?_some found
      cases known.symm.trans ((pool.indexed id v).2 ⟨memberV, namedV⟩)
      exact found

theorem seen_adopt (pool : Pool) {next : StateRef} {heap : Heap State} {u : Upstream}
    (fresh : next ≤ u.state) (empty : heap.get u.state = newState) :
    seen next heap (pool.adopt u) =
      adoptSeen (pool.upstreams.map (seen next heap)) (u.withState next) := by
  have same : (u.withState next).id = u.id := rfl
  rw [adoptSeen, same, find?_seen, Pool.adopt]
  cases pool.byID u.id with
  | none => simp [seen, empty, Nat.min_eq_right fresh]
  | some v => rfl

theorem seen_replace (client : KubeClient) {base lb : LoadBalancer} {filled : Config}
    {ups : List Upstream} {pool : Pool} (ready : Ready base lb filled ups)
    (replaced : lb.pool.replace ups = .ok pool) :
    pool.upstreams.map (seen base.heap.next lb.heap) =
      (base.plan client filled).first (lb.pool.upstreams.map (seen base.heap.next lb.heap)) := by
  have sorted : StableSort.byKey (·.priority) (ups.map (·.withState base.heap.next)) =
      (StableSort.byKey (·.priority) ups).map (·.withState base.heap.next) :=
    StableSort.byKey_map (fun _ => rfl) ups
  simp only [plan]
  rw [(Pool.replace_ok replaced).2, ready.normal, Pool.replacement, ← ready.shape, sorted, List.map_map,
    List.map_map]
  refine List.map_congr_left fun u member => ?_
  have fresh := ready.fresh u ((StableSort.byKey_perm _ ups).mem_iff.1 member)
  exact seen_adopt lb.pool fresh.1 fresh.2.2

end LoadBalancer

def ReloadPc.ups : ReloadPc → List Upstream
  | .built _ _ newUps | .gated _ newUps _ => newUps
  | _ => []

namespace LoadBalancer

def Call (base : LoadBalancer) (client : KubeClient) (raw : Config) (lb : LoadBalancer) :
    ReloadPc → Prop
  | .called newCfg => newCfg = raw
  | .built oldCfg newCfg newUps => ∃ filled, raw.validate = .ok filled ∧ base.Kin oldCfg ∧
      newCfg = filled.keepImmutable oldCfg ∧ Ready base lb filled newUps
  | .gated newCfg newUps newGate => ∃ filled, raw.validate = .ok filled ∧
      newCfg = base.planned filled ∧ Ready base lb filled newUps ∧ ReadyGate base lb filled newGate
  | .published newCfg dialer newGate => ∃ filled, raw.validate = .ok filled ∧
      newCfg = base.planned filled ∧ newFromConfig client filled = .ok dialer ∧
      (filled.upstreams.map UpstreamSpec.upstreamID).Nodup ∧ ReadyGate base lb filled newGate
  | .committed g => raw.Committable client ∧
      ∃ filled, raw.validate = .ok filled ∧ ReadyGate base lb filled (some g)
  | .returned .ok => raw.Committable client
  | .returned _ => True

structure Grown (lb : LoadBalancer) (ups : List Upstream) (lb' : LoadBalancer) : Prop where
  states : Heap.Extends lb.heap lb'.heap
  gates : Heap.Extends lb.gates lb'.gates
  pooled : ∀ v ∈ lb'.pool.upstreams,
    (∃ w ∈ lb.pool.upstreams, w.state = v.state) ∨ ∃ w ∈ ups, w.state = v.state

theorem countSection_gates {lb : LoadBalancer} {oldCfg newCfg newCfg' : Config}
    {newGate : Option GateRef} {gates : Heap Gate}
    (counted : lb.countSection oldCfg newCfg = (newCfg', newGate, gates)) :
    Heap.Extends lb.gates gates := by
  unfold countSection at counted
  split at counted
  · split at counted
    · cases counted
      exact .refl _
    · cases counted
      exact Heap.extends_alloc _ _
  · cases counted
    exact .refl _

theorem grown_of_reloads {client : KubeClient} {lb lb' : LoadBalancer} {pc pc' : ReloadPc}
    (moved : Reloads client lb pc lb' pc') : Grown lb pc.ups lb' := by
  have pooled : ∀ v ∈ lb.pool.upstreams,
      (∃ w ∈ lb.pool.upstreams, w.state = v.state) ∨ ∃ w ∈ pc.ups, w.state = v.state :=
    fun v member => .inl ⟨v, member, rfl⟩
  cases moved with
  | refused | stopped | applied | committed | swapped | panicked => exact ⟨.refl _, .refl _, pooled⟩
  | built valid made => exact ⟨(built_of_buildUpstreams made).old, .refl _, pooled⟩
  | counted counted => exact ⟨.refl _, countSection_gates counted, pooled⟩
  | published dialed replaced =>
      exact ⟨.refl _, .refl _, fun v member => Pool.replace_states replaced member⟩

theorem Ready.grown {base lb lb' : LoadBalancer} {filled : Config} {ups theirs : List Upstream}
    (ready : Ready base lb filled ups) (grown : Grown lb theirs lb')
    (cross : ∀ u ∈ ups, ∀ v ∈ theirs, u.state ≠ v.state) : Ready base lb' filled ups := by
  refine ⟨ready.shape, fun u member => ?_, ready.apart, fun u member v memberV same => ?_⟩
  · obtain ⟨low, high, empty⟩ := ready.fresh u member
    exact ⟨low, high.trans_le grown.states.next_le, (grown.states.get_eq _ high).trans empty⟩
  · rcases grown.pooled v memberV with ⟨w, memberW, sameW⟩ | ⟨w, memberW, sameW⟩
    · exact ready.unused u member w memberW (same.trans sameW.symm)
    · exact cross u member w memberW (same.trans sameW.symm)

theorem ReadyGate.grown {base lb lb' : LoadBalancer} {filled : Config} {gate : Option GateRef}
    (ready : ReadyGate base lb filled gate) (gates : Heap.Extends lb.gates lb'.gates) :
    ReadyGate base lb' filled gate := by
  intro g here
  obtain ⟨low, high, made⟩ := ready g here
  exact ⟨low, high.trans_le gates.next_le, (gates.get_eq _ high).trans made⟩

theorem Call.grown {base lb lb' : LoadBalancer} {client : KubeClient} {raw : Config} {pc : ReloadPc}
    {theirs : List Upstream} (call : Call base client raw lb pc) (grown : Grown lb theirs lb')
    (cross : ∀ u ∈ pc.ups, ∀ v ∈ theirs, u.state ≠ v.state) : Call base client raw lb' pc := by
  cases pc with
  | called newCfg => exact call
  | built oldCfg newCfg newUps =>
      obtain ⟨filled, valid, kin, kept, ready⟩ := call
      exact ⟨filled, valid, kin, kept, ready.grown grown cross⟩
  | gated newCfg newUps newGate =>
      obtain ⟨filled, valid, planned, ready, gate⟩ := call
      exact ⟨filled, valid, planned, ready.grown grown cross, gate.grown grown.gates⟩
  | published newCfg dialer newGate =>
      obtain ⟨filled, valid, planned, dials, distinct, gate⟩ := call
      exact ⟨filled, valid, planned, dials, distinct, gate.grown grown.gates⟩
  | committed g =>
      obtain ⟨fit, filled, valid, gate⟩ := call
      exact ⟨fit, filled, valid, gate.grown grown.gates⟩
  | returned result => cases result <;> exact call

theorem Call.ups_lt {base lb : LoadBalancer} {client : KubeClient} {raw : Config} {pc : ReloadPc}
    (call : Call base client raw lb pc) : ∀ u ∈ pc.ups, u.state < lb.heap.next := by
  intro u member
  cases pc with
  | built oldCfg newCfg newUps =>
      obtain ⟨filled, -, -, -, ready⟩ := call
      exact (ready.fresh u member).2.1
  | gated newCfg newUps newGate =>
      obtain ⟨filled, -, -, ready, -⟩ := call
      exact (ready.fresh u member).2.1
  | called | published | committed | returned => cases member

theorem ups_of_reloads {client : KubeClient} {lb lb' : LoadBalancer} {pc pc' : ReloadPc}
    (moved : Reloads client lb pc lb' pc') : ∀ u ∈ pc'.ups, u ∈ pc.ups ∨ lb.heap.next ≤ u.state := by
  intro u member
  cases moved with
  | built valid made => exact .inr ((built_of_buildUpstreams made).owned u member).1
  | counted counted => exact .inl member
  | refused | stopped | published | applied | committed | swapped | panicked => cases member

theorem Since.ready {base lb : LoadBalancer} {type : GateType} (since : Since base type lb)
    {filled : Config} {ups : List Upstream} {heap : Heap State}
    (made : filled.buildUpstreams lb.heap = .ok (ups, heap)) :
    Ready base { lb with heap } filled ups := by
  have built := built_of_buildUpstreams made
  refine ⟨upstreams_of_buildUpstreamsFrom made _, fun u member => ?_, built.distinct,
    fun u member v memberV same => ?_⟩
  · have owned := built.owned u member
    exact ⟨since.states.next_le.trans owned.1, owned.2, built.fresh _ owned.1 owned.2⟩
  · exact absurd (since.pooled v memberV) (not_lt.2 (same ▸ (built.owned u member).1))

theorem counted_ready {base lb : LoadBalancer} {oldCfg filled newCfg : Config}
    {newGate : Option GateRef} {gates : Heap Gate} (extended : Heap.Extends base.gates lb.gates)
    (counted : Counted base lb oldCfg filled (newCfg, newGate, gates)) :
    newCfg = base.planned filled ∧ ReadyGate base { lb with gates } filled newGate ∧
      (newGate.isSome = true ↔ oldCfg.admission ≠ (base.planned filled).admission) := by
  cases counted with
  | kept same => exact ⟨rfl, nofun, by simp [same]⟩
  | made differs =>
      refine ⟨rfl, fun g here => ?_, by simp [differs]⟩
      cases here
      exact ⟨extended.next_le, Nat.lt_succ_self _, by simp [Heap.get_alloc]⟩

theorem Since.step {base lb lb' : LoadBalancer} {client : KubeClient} {type : GateType} {raw : Config}
    {pc pc' : ReloadPc} (since : Since base type lb) (call : Call base client raw lb pc)
    (moved : Reloads client lb pc lb' pc') : Since base type lb' ∧ Call base client raw lb' pc' := by
  cases moved with
  | refused | stopped | panicked => exact ⟨since, trivial⟩
  | built valid made =>
      cases call
      have built := built_of_buildUpstreams made
      exact ⟨⟨since.tracker, since.kin, since.states.trans built.old, since.gates,
        fun u member => (since.pooled u member).trans_le built.old.next_le, since.apart, since.gate⟩,
        _, valid, since.kin, rfl, since.ready made⟩
  | counted counted =>
      obtain ⟨filled, valid, kin, rfl, ready⟩ := call
      have extended := countSection_gates counted
      have decided : Counted base lb _ filled _ := counted ▸ counted_of_countSection since.tracker kin
      obtain ⟨planned, gate, -⟩ := counted_ready since.gates decided
      obtain ⟨g, stored, bound, same⟩ := since.gate
      exact ⟨⟨since.tracker, since.kin, since.states, since.gates.trans extended, since.pooled,
        since.apart, g, stored, bound.trans_le extended.next_le, by rw [extended.get_eq g bound, same]⟩,
        filled, valid, planned, ⟨ready.shape, ready.fresh, ready.apart, ready.unused⟩, gate⟩
  | @published _ _ _ _ pool dialed replaced =>
      obtain ⟨filled, valid, rfl, ready, gate⟩ := call
      have pooled : ∀ v ∈ pool.upstreams, v.state < lb.heap.next := by
        intro v member
        rcases Pool.replace_states replaced member with ⟨w, memberW, same⟩ | ⟨w, memberW, same⟩
        · exact same ▸ since.pooled w memberW
        · exact same ▸ (ready.fresh w memberW).2.1
      have distinct := (Pool.replace_ok replaced).1
      rw [ready.normal, ready.ids] at distinct
      rw [planned_dials] at dialed
      exact ⟨⟨since.tracker, since.kin, since.states, since.gates, pooled,
        Pool.replace_apart replaced since.apart ready.apart ready.unused, since.gate⟩,
        filled, valid, rfl, dialed, distinct, gate⟩
  | applied =>
      obtain ⟨filled, valid, rfl, dials, distinct, -⟩ := call
      exact ⟨⟨since.tracker, kin_planned base filled, since.states, since.gates, since.pooled, since.apart,
        since.gate⟩, filled, valid, ⟨_, dials⟩, distinct⟩
  | committed =>
      obtain ⟨filled, valid, rfl, dials, distinct, gate⟩ := call
      exact ⟨⟨since.tracker, kin_planned base filled, since.states, since.gates, since.pooled, since.apart,
        since.gate⟩, ⟨filled, valid, ⟨_, dials⟩, distinct⟩, filled, valid, gate⟩
  | swapped stored =>
      obtain ⟨fit, filled, valid, gate⟩ := call
      obtain ⟨old, here, bound, same⟩ := since.gate
      have types := Go.AtomicValue.type_of_store here stored
      exact ⟨⟨since.tracker, since.kin, since.states, since.gates, since.pooled, since.apart, _,
        Go.AtomicValue.stored_of_store stored, (gate _ rfl).2.1, types.symm.trans same⟩, fit⟩

end LoadBalancer

namespace ReloadPc

def writes (p : Plan (List (Upstream × State)) (Config × Dialer) (Option (GateRef × Gate)))
    (v : LoadBalancer.View) : ReloadPc → ReloadPc → LoadBalancer.View
  | .gated .., .published .. => { v with first := p.first v.first }
  | .published .., _ => { v with second := p.second }
  | .committed _, .returned .ok => { v with third := p.third }
  | _, _ => v

def finish (p : Plan (List (Upstream × State)) (Config × Dialer) (Option (GateRef × Gate)))
    (v : LoadBalancer.View) : ReloadPc → LoadBalancer.View
  | .called _ => land LoadBalancer.gateKey v p
  | .built oldCfg _ _ =>
      ⟨p.first v.first, p.second, if oldCfg.admission = p.second.1.admission then v.third else p.third⟩
  | .gated _ _ newGate => ⟨p.first v.first, p.second, if newGate.isSome then p.third else v.third⟩
  | .published _ _ newGate => ⟨v.first, p.second, if newGate.isSome then p.third else v.third⟩
  | .committed _ => { v with third := p.third }
  | .returned _ => v

end ReloadPc

namespace LoadBalancer

theorem view_extends {base lb lb' : LoadBalancer} {type : GateType} (since : Since base type lb)
    (states : Heap.Extends lb.heap lb'.heap) (gates : Heap.Extends lb.gates lb'.gates)
    (pool : lb'.pool = lb.pool) (second : (lb'.cfg, lb'.dialer) = (lb.cfg, lb.dialer))
    (gateVal : lb'.gateVal = lb.gateVal) : base.view lb' = base.view lb := by
  obtain ⟨g, stored, bound, -⟩ := since.gate
  have first : lb.pool.upstreams.map (seen base.heap.next lb'.heap) =
      lb.pool.upstreams.map (seen base.heap.next lb.heap) :=
    List.map_congr_left fun u member => by rw [seen, seen, states.get_eq _ (since.pooled u member)]
  simp only [view, pool, second, gateVal, stored, Option.map_some, first, gates.get_eq g bound]

theorem view_of_reloads {base lb lb' : LoadBalancer} {client : KubeClient} {type : GateType}
    {raw filled : Config} {pc pc' : ReloadPc} (since : Since base type lb)
    (call : Call base client raw lb pc) (known : ∀ cfg, raw.validate = .ok cfg → filled = cfg)
    (moved : Reloads client lb pc lb' pc') :
    base.view lb' = pc.writes (base.plan client filled) (base.view lb) pc' := by
  cases moved with
  | refused | stopped | panicked => rfl
  | built _ made =>
      exact view_extends since (built_of_buildUpstreams made).old (.refl _) rfl rfl rfl
  | counted counted => exact view_extends since (.refl _) (countSection_gates counted) rfl rfl rfl
  | published dialed replaced =>
      obtain ⟨filled', valid', -, ready, -⟩ := call
      cases known _ valid'
      simp only [view, ReloadPc.writes, seen_replace client ready replaced]
  | applied | committed =>
      obtain ⟨filled', valid', rfl, dials, -⟩ := call
      cases known _ valid'
      simp only [view, ReloadPc.writes, plan, dials, Except.toOption, Option.getD_some]
  | swapped stored =>
      obtain ⟨-, filled', valid', gate⟩ := call
      cases known _ valid'
      obtain ⟨low, -, made⟩ := gate _ rfl
      simp only [view, ReloadPc.writes, plan, Go.AtomicValue.stored_of_store stored, Option.map_some, made,
        Nat.min_eq_right low]

theorem finish_of_reloads {base lb lb' : LoadBalancer} {client : KubeClient} {type : GateType}
    {raw filled : Config} {pc pc' : ReloadPc} (since : Since base type lb)
    (call : Call base client raw lb pc) (valid : raw.validate = .ok filled)
    (moved : Reloads client lb pc lb' pc') (going : ∀ result, pc' = .returned result → result = .ok) :
    pc'.finish (base.plan client filled) (base.view lb') =
      pc.finish (base.plan client filled) (base.view lb) := by
  have known : ∀ cfg, raw.validate = .ok cfg → filled = cfg := fun cfg valid' => by
    cases valid.symm.trans valid'
    rfl
  rw [view_of_reloads since call known moved]
  cases moved with
  | refused | stopped | panicked => cases going _ rfl
  | built valid made => rfl
  | @counted oldCfg _ _ _ _ _ counted =>
      obtain ⟨filled', valid', kin, rfl, -⟩ := call
      cases valid.symm.trans valid'
      have decided : Counted base lb oldCfg filled _ := counted ▸ counted_of_countSection since.tracker kin
      obtain ⟨-, -, needed⟩ := counted_ready since.gates decided
      by_cases same : oldCfg.admission = (base.planned filled).admission
      · simp [ReloadPc.finish, ReloadPc.writes, plan, needed, same]
      · simp [ReloadPc.finish, ReloadPc.writes, plan, needed, same]
  | published dialed replaced => rfl
  | applied => rfl
  | committed => rfl
  | swapped stored => rfl

theorem reloadRun_returned (client : KubeClient) (n : Nat) (lb : LoadBalancer) (result : ReloadResult) :
    reloadRun client n lb (.returned result) = (lb, .returned result) := by
  cases n <;> rfl

theorem finish_of_reloadRun {base lb lb' : LoadBalancer} {client : KubeClient} {type : GateType}
    {raw filled : Config} {pc : ReloadPc} {n : Nat} (since : Since base type lb)
    (call : Call base client raw lb pc) (valid : raw.validate = .ok filled)
    (ran : reloadRun client n lb pc = (lb', .returned .ok)) :
    Since base type lb' ∧ base.view lb' = pc.finish (base.plan client filled) (base.view lb) := by
  induction n generalizing lb pc with
  | zero =>
      cases ran
      exact ⟨since, rfl⟩
  | succ n ih =>
      simp only [reloadRun] at ran
      cases stepped : lb.reloadStep client pc with
      | none =>
          rw [stepped] at ran
          cases ran
          exact ⟨since, rfl⟩
      | some next =>
          obtain ⟨lb₁, pc₁⟩ := next
          replace ran : reloadRun client n lb₁ pc₁ = (lb', .returned .ok) := by simpa only [stepped] using ran
          have moved := reloads_of_reloadStep stepped
          obtain ⟨since₁, call₁⟩ := since.step call moved
          have going : ∀ result, pc₁ = .returned result → result = .ok := by
            rintro result rfl
            rw [reloadRun_returned] at ran
            cases ran
            rfl
          rw [← finish_of_reloads since call valid moved going]
          exact ih since₁ call₁ ran

theorem reload_lands {base lb : LoadBalancer} {client : KubeClient} {type : GateType}
    {raw filled : Config} (since : Since base type lb) (valid : raw.validate = .ok filled)
    (returned : (lb.reloadFromConfig client raw).2 = .ok) :
    Since base type (lb.reloadFromConfig client raw).1 ∧
      base.view (lb.reloadFromConfig client raw).1 =
        land gateKey (base.view lb) (base.plan client filled) := by
  have ran := reloadRun_reloadFromConfig client lb raw
  rw [returned] at ran
  have call : Call base client raw lb (.called raw) := rfl
  exact finish_of_reloadRun since call valid ran

theorem reload_returns {base lb : LoadBalancer} {client : KubeClient} {type : GateType}
    {raw filled : Config} (since : Since base type lb) (fit : raw.Committable client)
    (valid : raw.validate = .ok filled)
    (typed : lb.cfg.admission ≠ (base.planned filled).admission →
      (base.planned filled).backpressure.gateType = type) :
    (lb.reloadFromConfig client raw).2 = .ok := by
  have reloaded := reloaded_of_reloadFromConfig client lb raw
  generalize (lb.reloadFromConfig client raw).1 = lb' at reloaded
  generalize (lb.reloadFromConfig client raw).2 = result at reloaded ⊢
  cases reloaded with
  | refused unfit states others => exact absurd fit unfit
  | applied => rfl
  | swapped => rfl
  | panicked fit valid' built replaced prepared stored =>
      exfalso
      cases valid.symm.trans valid'
      have counted : Counted base lb lb.cfg filled (lb.prepareGate (filled.keepImmutable lb.cfg)) :=
        counted_of_countSection since.tracker since.kin
      rw [prepared] at counted
      cases counted with
      | made differs =>
          obtain ⟨old, here, bound, same⟩ := since.gate
          apply Go.AtomicValue.type_ne_of_store here stored
          rw [Heap.get_alloc, Heap.get_alloc, if_neg bound.ne, if_pos rfl, same]
          exact (typed differs).symm

end LoadBalancer

end S5lb
