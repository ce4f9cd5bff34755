import S5lb.Balancer.LoadBalancer

namespace S5lb

def Config.keepImmutable (newCfg oldCfg : Config) : Config :=
  { newCfg with
    listenAddr := oldCfg.listenAddr
    adminAddr := oldCfg.adminAddr
    strategy := oldCfg.strategy
    hashKey := oldCfg.hashKey
    maxClients := oldCfg.maxClients
    otel := oldCfg.otel }

def Config.newGateNeeded (oldCfg newCfg : Config) : Prop :=
  oldCfg.backpressure ≠ newCfg.backpressure ∨
    oldCfg.admissionWaitTimeout ≠ newCfg.admissionWaitTimeout

instance (oldCfg newCfg : Config) : Decidable (oldCfg.newGateNeeded newCfg) :=
  inferInstanceAs (Decidable (_ ∨ _))

inductive ReloadResult
  | ok
  | error (message : String)
  | panic
  deriving DecidableEq

namespace LoadBalancer

def prepareGate (lb : LoadBalancer) (newCfg : Config) : Config × Option GateRef × Heap Gate :=
  if lb.cfg.newGateNeeded newCfg then
    if lb.tracker.count ≠ 0 then
      ({ newCfg with
          backpressure := lb.cfg.backpressure
          admissionWaitTimeout := lb.cfg.admissionWaitTimeout }, none, lb.gates)
    else
      let (g, gates) := lb.gates.alloc (admissionNew newCfg)
      (newCfg, some g, gates)
  else (newCfg, none, lb.gates)

def applyReload (client : KubeClient) (lb : LoadBalancer) (newCfg : Config)
    (newUps : List Upstream) : LoadBalancer × ReloadResult :=
  let (newCfg, newGate, gates) := lb.prepareGate newCfg
  let lb := { lb with gates }
  match newFromConfig client newCfg with
  | .error why => (lb, .error ("transport: " ++ why))
  | .ok dialer =>
      match lb.setUpstreams newUps with
      | .error why => (lb, .error ("set upstreams: " ++ why))
      | .ok lb =>
          let lb := { lb with cfg := newCfg, dialer }
          match newGate with
          | none => (lb, .ok)
          -- pool, config and dialer are in force by now
          | some g =>
              match lb.setGate g with
              | some lb => (lb, .ok)
              | none => (lb, .panic)

def reloadFromConfig (client : KubeClient) (lb : LoadBalancer) (newCfg : Config) :
    LoadBalancer × ReloadResult :=
  match newCfg.validate with
  | .error why => (lb, .error ("validate: " ++ why))
  | .ok newCfg =>
      let newCfg := newCfg.keepImmutable lb.cfg
      if newCfg.upstreams.isEmpty then
        (lb, .error "config contains no upstreams; reload rejected to preserve current pool")
      else
        match newCfg.buildUpstreams lb.heap with
        | .error why => (lb, .error ("build upstreams: " ++ why))
        | .ok (newUps, heap) => applyReload client { lb with heap } newCfg newUps

end LoadBalancer

def Config.Committable (client : KubeClient) (raw : Config) : Prop :=
  ∃ filled, raw.validate = .ok filled ∧ (∃ dialer, newFromConfig client filled = .ok dialer) ∧
    (filled.upstreams.map UpstreamSpec.upstreamID).Nodup

theorem newFromConfig_congr (client : KubeClient) {c d : Config} (transport : c.transport = d.transport)
    (timeout : c.connectTimeout = d.connectTimeout) : newFromConfig client c = newFromConfig client d := by
  unfold newFromConfig
  rw [transport, timeout]

namespace LoadBalancer

theorem prepareGate_transport (lb : LoadBalancer) (newCfg : Config) :
    (lb.prepareGate newCfg).1.transport = newCfg.transport ∧
      (lb.prepareGate newCfg).1.connectTimeout = newCfg.connectTimeout := by
  unfold prepareGate
  split
  · split <;> exact ⟨rfl, rfl⟩
  · exact ⟨rfl, rfl⟩

theorem prepareGate_gates (lb : LoadBalancer) (newCfg : Config) :
    Heap.Extends lb.gates (lb.prepareGate newCfg).2.2 := by
  unfold prepareGate
  split
  · split
    · exact .refl _
    · exact Heap.extends_alloc _ _
  · exact .refl _

inductive Reloaded (client : KubeClient) (lb : LoadBalancer) (raw : Config) :
    LoadBalancer → ReloadResult → Prop
  | refused {heap : Heap State} {gates : Heap Gate} {message : String}
      (unfit : ¬raw.Committable client) (states : Heap.Extends lb.heap heap)
      (others : Heap.Extends lb.gates gates) :
      Reloaded client lb raw { lb with heap, gates } (.error message)
  | applied {filled newCfg : Config} {ups : List Upstream} {heap : Heap State} {pool : Pool}
      {dialer : Dialer} {gates : Heap Gate} (fit : raw.Committable client)
      (valid : raw.validate = .ok filled) (built : filled.buildUpstreams lb.heap = .ok (ups, heap))
      (replaced : lb.pool.replace ups = .ok pool)
      (prepared : lb.prepareGate (filled.keepImmutable lb.cfg) = (newCfg, none, gates)) :
      Reloaded client lb raw { lb with heap, gates, pool, cfg := newCfg, dialer } .ok
  | swapped {filled newCfg : Config} {ups : List Upstream} {heap : Heap State} {pool : Pool}
      {dialer : Dialer} {gates : Heap Gate} {g : GateRef} {gateVal : Go.AtomicValue GateRef}
      (fit : raw.Committable client) (valid : raw.validate = .ok filled)
      (built : filled.buildUpstreams lb.heap = .ok (ups, heap))
      (replaced : lb.pool.replace ups = .ok pool)
      (prepared : lb.prepareGate (filled.keepImmutable lb.cfg) = (newCfg, some g, gates))
      (stored : lb.gateVal.store (fun r => (gates.get r).type) g = some gateVal) :
      Reloaded client lb raw { lb with heap, gates, pool, cfg := newCfg, dialer, gateVal } .ok
  | panicked {filled newCfg : Config} {ups : List Upstream} {heap : Heap State} {pool : Pool}
      {dialer : Dialer} {gates : Heap Gate} {g : GateRef} (fit : raw.Committable client)
      (valid : raw.validate = .ok filled) (built : filled.buildUpstreams lb.heap = .ok (ups, heap))
      (replaced : lb.pool.replace ups = .ok pool)
      (prepared : lb.prepareGate (filled.keepImmutable lb.cfg) = (newCfg, some g, gates))
      (stored : lb.gateVal.store (fun r => (gates.get r).type) g = none) :
      Reloaded client lb raw { lb with heap, gates, pool, cfg := newCfg, dialer } .panic

theorem normalized_of_built {cfg : Config} {heap after : Heap State} {ups : List Upstream}
    (specs : ∀ s ∈ cfg.upstreams, s.host ≠ "" ∧ 0 < s.port)
    (built : cfg.buildUpstreams heap = .ok (ups, after)) :
    ups.map Upstream.normalizeID = ups ∧ ups.map (·.id) = cfg.upstreams.map UpstreamSpec.upstreamID := by
  obtain ⟨ups', after', built', ids⟩ := buildUpstreamsFrom_total specs heap 0
  cases built.symm.trans built'
  refine ⟨?_, ids⟩
  have named : ∀ u ∈ ups, u.normalizeID = u := by
    intro u member
    apply Upstream.normalizeID_of_ne
    have known : u.id ∈ cfg.upstreams.map UpstreamSpec.upstreamID := ids ▸ List.mem_map_of_mem member
    obtain ⟨s, -, same⟩ := List.mem_map.1 known
    exact same ▸ s.upstreamID_ne_empty
  exact (List.map_congr_left named).trans (List.map_id ups)

theorem reloaded_of_applyReload {client : KubeClient} {lb : LoadBalancer} {raw filled : Config}
    {ups : List Upstream} {heap : Heap State} (valid : raw.validate = .ok filled)
    (built : filled.buildUpstreams lb.heap = .ok (ups, heap)) :
    let out := applyReload client { lb with heap } (filled.keepImmutable lb.cfg) ups
    Reloaded client lb raw out.1 out.2 := by
  have states := (built_of_buildUpstreams built).old
  have checked := Config.checked_of_validate valid
  obtain ⟨normal, ids⟩ := normalized_of_built checked.specs built
  have transport := prepareGate_transport lb (filled.keepImmutable lb.cfg)
  have others := prepareGate_gates lb (filled.keepImmutable lb.cfg)
  have unfit (bad : (∀ dialer, newFromConfig client filled ≠ .ok dialer) ∨
      ¬(filled.upstreams.map UpstreamSpec.upstreamID).Nodup) : ¬raw.Committable client := by
    rintro ⟨filled', valid', ⟨dialer, dials⟩, distinct⟩
    cases valid.symm.trans valid'
    exact bad.elim (fun none => none dialer dials) (fun twice => twice distinct)
  simp only [applyReload]
  rcases prepared : lb.prepareGate (filled.keepImmutable lb.cfg) with ⟨newCfg, gate, gates⟩
  rw [prepared] at transport others
  have dials : newFromConfig client newCfg = newFromConfig client filled :=
    newFromConfig_congr client transport.1 transport.2
  have same : ({ lb with heap } : LoadBalancer).prepareGate (filled.keepImmutable lb.cfg) =
      (newCfg, gate, gates) := prepared
  simp only [same, dials]
  cases dialed : newFromConfig client filled with
  | error why =>
      refine .refused (unfit (.inl fun dialer ok => ?_)) states others
      cases dialed.symm.trans ok
  | ok dialer =>
      simp only
      cases published : ({ lb with heap, gates } : LoadBalancer).setUpstreams ups with
      | error why =>
          refine .refused (unfit (.inr fun distinct => ?_)) states others
          obtain ⟨pool, replaced⟩ := lb.pool.exists_replace (normal.symm ▸ ids.symm ▸ distinct)
          cases published.symm.trans (setUpstreams_eq_ok.2 ⟨pool, replaced, rfl⟩)
      | ok next =>
          obtain ⟨pool, replaced, rfl⟩ := setUpstreams_eq_ok.1 published
          have distinct := (Pool.replace_ok replaced).1
          rw [normal, ids] at distinct
          have fit : raw.Committable client := ⟨filled, valid, ⟨dialer, dialed⟩, distinct⟩
          cases gate with
          | none => exact .applied fit valid built replaced prepared
          | some g =>
              cases stored : lb.gateVal.store (fun r => (gates.get r).type) g with
              | some gateVal =>
                  simp only [setGate, stored, Option.map_some]
                  exact .swapped fit valid built replaced prepared stored
              | none =>
                  simp only [setGate, stored, Option.map_none]
                  exact .panicked fit valid built replaced prepared stored

theorem reloaded_of_reloadFromConfig (client : KubeClient) (lb : LoadBalancer) (raw : Config) :
    Reloaded client lb raw (lb.reloadFromConfig client raw).1 (lb.reloadFromConfig client raw).2 := by
  unfold reloadFromConfig
  cases valid : raw.validate with
  | error why =>
      refine .refused ?_ (.refl _) (.refl _)
      rintro ⟨filled, valid', -⟩
      cases valid.symm.trans valid'
  | ok filled =>
      have checked := Config.checked_of_validate valid
      obtain ⟨ups, heap, built, -⟩ := buildUpstreamsFrom_total checked.specs lb.heap 0
      have built' : (filled.keepImmutable lb.cfg).buildUpstreams lb.heap = .ok (ups, heap) := built
      have nonempty : ¬(filled.keepImmutable lb.cfg).upstreams.isEmpty = true := by
        simpa [Config.keepImmutable] using checked.upstreams_ne
      simp only [if_neg nonempty, built']
      exact reloaded_of_applyReload valid built

structure Untouched (lb lb' : LoadBalancer) : Prop where
  cfg : lb'.cfg = lb.cfg
  dialer : lb'.dialer = lb.dialer
  gateVal : lb'.gateVal = lb.gateVal
  gates : Heap.Extends lb.gates lb'.gates
  upstreams : lb'.pool.upstreams = lb.pool.upstreams
  byID : lb'.pool.byID = lb.pool.byID
  states : Heap.Extends lb.heap lb'.heap

structure Applied (lb : LoadBalancer) (raw : Config) (lb' : LoadBalancer) : Prop where
  immutable : lb'.cfg.listenAddr = lb.cfg.listenAddr ∧ lb'.cfg.adminAddr = lb.cfg.adminAddr ∧
    lb'.cfg.strategy = lb.cfg.strategy ∧ lb'.cfg.hashKey = lb.cfg.hashKey ∧
    lb'.cfg.maxClients = lb.cfg.maxClients ∧ lb'.cfg.otel = lb.cfg.otel
  sorted : ∃ filled ups sorted, raw.validate = .ok filled ∧
    filled.buildUpstreams lb.heap = .ok (ups, lb'.heap) ∧
    StableSort.StableSorted (·.priority) ups sorted ∧
    lb'.pool.upstreams = sorted.map lb.pool.adopt
  distinct : (lb'.pool.upstreams.map (·.id)).Nodup
  indexed : ∀ id u, lb'.pool.byID id = some u ↔ u ∈ lb'.pool.upstreams ∧ u.id = id
  states : Heap.Extends lb.heap lb'.heap
  kept : ∀ u ∈ lb'.pool.upstreams, ∀ v, lb.pool.byID u.id = some v → u.state = v.state
  fresh : ∀ u ∈ lb'.pool.upstreams, lb.pool.byID u.id = none →
    lb.heap.next ≤ u.state ∧ lb'.heap.get u.state = newState ∧
      ∀ w ∈ lb'.pool.upstreams, lb.pool.byID w.id = none → w.state = u.state → w = u
  tracked : lb.tracker.count ≠ 0 → lb'.gateVal = lb.gateVal ∧ Heap.Extends lb.gates lb'.gates ∧
    lb'.cfg.backpressure = lb.cfg.backpressure ∧
    lb'.cfg.admissionWaitTimeout = lb.cfg.admissionWaitTimeout

theorem prepareGate_immutable (lb : LoadBalancer) (filled : Config) :
    let cfg := (lb.prepareGate (filled.keepImmutable lb.cfg)).1
    cfg.listenAddr = lb.cfg.listenAddr ∧ cfg.adminAddr = lb.cfg.adminAddr ∧
      cfg.strategy = lb.cfg.strategy ∧ cfg.hashKey = lb.cfg.hashKey ∧
      cfg.maxClients = lb.cfg.maxClients ∧ cfg.otel = lb.cfg.otel := by
  simp only [prepareGate]
  split
  · split <;> exact ⟨rfl, rfl, rfl, rfl, rfl, rfl⟩
  · exact ⟨rfl, rfl, rfl, rfl, rfl, rfl⟩

theorem prepareGate_tracked {lb : LoadBalancer} (newCfg : Config) (tracked : lb.tracker.count ≠ 0) :
    (lb.prepareGate newCfg).2.1 = none ∧
      (lb.prepareGate newCfg).1.backpressure = lb.cfg.backpressure ∧
      (lb.prepareGate newCfg).1.admissionWaitTimeout = lb.cfg.admissionWaitTimeout := by
  unfold prepareGate
  split
  · exact ⟨rfl, rfl, rfl⟩
  · rename_i same
    simp only [Config.newGateNeeded, not_or, not_not] at same
    exact ⟨rfl, same.1.symm, same.2.symm⟩

theorem adopt_of_some {old : Pool} {u v : Upstream} (known : old.byID u.id = some v) :
    (old.adopt u).state = v.state := by
  simp [Pool.adopt, known]

theorem adopt_of_none {old : Pool} {u : Upstream} (unknown : old.byID u.id = none) :
    old.adopt u = u := by
  simp [Pool.adopt, unknown]

theorem applied_of_replaced {lb : LoadBalancer} {raw filled : Config} {ups : List Upstream}
    {heap : Heap State} {pool : Pool} {lb' : LoadBalancer} (valid : raw.validate = .ok filled)
    (built : filled.buildUpstreams lb.heap = .ok (ups, heap))
    (replaced : lb.pool.replace ups = .ok pool)
    (cfg : lb'.cfg = (lb.prepareGate (filled.keepImmutable lb.cfg)).1) (heap' : lb'.heap = heap)
    (pool' : lb'.pool = pool) (gates : lb'.gates = (lb.prepareGate (filled.keepImmutable lb.cfg)).2.2)
    (installed : (lb.prepareGate (filled.keepImmutable lb.cfg)).2.1 = none → lb'.gateVal = lb.gateVal) :
    lb.Applied raw lb' := by
  have made := built_of_buildUpstreams built
  obtain ⟨normal, -⟩ := normalized_of_built (Config.checked_of_validate valid).specs built
  obtain ⟨-, upstreams⟩ := Pool.replace_ok replaced
  rw [normal] at upstreams
  subst heap' pool'
  have unadopted : ∀ u ∈ lb'.pool.upstreams, lb.pool.byID u.id = none → u ∈ ups := by
    intro u member unknown
    rw [upstreams] at member
    obtain ⟨v, memberV, rfl⟩ := Pool.mem_replacement.1 member
    rw [Pool.adopt_id] at unknown
    rwa [adopt_of_none unknown]
  refine ⟨cfg ▸ prepareGate_immutable lb filled, ?_, lb'.pool.distinct, lb'.pool.indexed, made.old,
    fun u member v known => ?_, fun u member unknown => ?_, fun tracked => ?_⟩
  · exact ⟨filled, ups, _, valid, built, StableSort.byKey_stableSorted _ ups, upstreams⟩
  · rw [upstreams] at member
    obtain ⟨w, -, rfl⟩ := Pool.mem_replacement.1 member
    rw [Pool.adopt_id] at known
    exact adopt_of_some known
  · have memberU := unadopted u member unknown
    have owned := made.owned u memberU
    refine ⟨owned.1, made.fresh u.state owned.1 owned.2, fun w memberW unknownW same => ?_⟩
    exact List.inj_on_of_nodup_map made.distinct (unadopted w memberW unknownW) memberU same
  · obtain ⟨none, backpressure, timeout⟩ := prepareGate_tracked (filled.keepImmutable lb.cfg) tracked
    exact ⟨installed none, gates ▸ prepareGate_gates lb _, cfg ▸ backpressure, cfg ▸ timeout⟩

/-- A reload that fails leaves everything as it was; one that succeeds applies the new config and
keeps what it must. -/
theorem reload_atomic (client : KubeClient) (lb : LoadBalancer) (raw : Config) :
    (∀ message, (lb.reloadFromConfig client raw).2 = .error message →
        lb.Untouched (lb.reloadFromConfig client raw).1) ∧
      ((lb.reloadFromConfig client raw).2 = .ok →
        lb.Applied raw (lb.reloadFromConfig client raw).1) := by
  have reloaded := reloaded_of_reloadFromConfig client lb raw
  generalize (lb.reloadFromConfig client raw).1 = lb' at reloaded ⊢
  generalize (lb.reloadFromConfig client raw).2 = result at reloaded ⊢
  cases reloaded with
  | refused unfit states others =>
      exact ⟨fun _ _ => ⟨rfl, rfl, rfl, others, rfl, rfl, states⟩, nofun⟩
  | applied fit valid built replaced prepared =>
      refine ⟨nofun, fun _ => ?_⟩
      apply applied_of_replaced valid built replaced <;> simp [prepared]
  | swapped fit valid built replaced prepared stored =>
      refine ⟨nofun, fun _ => ?_⟩
      apply applied_of_replaced valid built replaced <;> simp [prepared]
  | panicked fit valid built replaced prepared stored =>
      exact ⟨nofun, nofun⟩

end LoadBalancer

end S5lb
