import S5lb.Balancer.Reload

namespace S5lb.LoadBalancer

/-- The sequence of reloads never panics, and after each one that succeeds the gate is the one
`admission.New` builds for the committed config. -/
def GateSafe (client : KubeClient) : LoadBalancer → List Config → Prop
  | _, [] => True
  | lb, raw :: rest =>
      match lb.reloadFromConfig client raw with
      | (_, .panic) => False
      | (lb', .error _) => GateSafe client lb' rest
      | (lb', .ok) => lb'.currentGate = some (admissionNew lb'.cfg) ∧ GateSafe client lb' rest

structure Gated (lb : LoadBalancer) : Prop where
  untracked : lb.tracker.count = 0
  installed : ∃ g < lb.gates.next, lb.gateVal.stored = some g ∧ lb.gates.get g = admissionNew lb.cfg

theorem Gated.current {lb : LoadBalancer} (gated : lb.Gated) :
    lb.currentGate = some (admissionNew lb.cfg) := by
  obtain ⟨g, -, stored, built⟩ := gated.installed
  simp [currentGate, stored, built]

theorem gated_of_initial {lb : LoadBalancer} (initial : lb.Initial) : lb.Gated := by
  obtain ⟨untracked, -, next, stored, built⟩ := initial.gate
  exact ⟨untracked, 0, next ▸ Nat.one_pos, stored, built⟩

theorem admissionNew_congr {c d : Config} (clients : c.maxClients = d.maxClients)
    (same : ¬c.newGateNeeded d) : admissionNew c = admissionNew d := by
  simp only [Config.newGateNeeded, not_or, not_not] at same
  simp [admissionNew, clients, same.1, same.2]

theorem prepareGate_untracked {lb : LoadBalancer} (untracked : lb.tracker.count = 0)
    (newCfg : Config) : lb.prepareGate newCfg =
      if lb.cfg.newGateNeeded newCfg then
        (newCfg, some lb.gates.next, (lb.gates.alloc (admissionNew newCfg)).2)
      else (newCfg, none, lb.gates) := by
  unfold prepareGate
  split
  · rw [if_neg (not_not.2 untracked)]
    rfl
  · rfl

def gateTypeOf (cfg : Config) : GateType := cfg.backpressure.gateType

structure GateStep (client : KubeClient) (lb : LoadBalancer) (raw : Config) (lb' : LoadBalancer)
    (result : ReloadResult) : Prop where
  refused : ∀ message, result = .error message →
    ¬raw.Committable client ∧ lb'.Gated ∧ gateTypeOf lb'.cfg = gateTypeOf lb.cfg
  applied : result = .ok → raw.Committable client ∧ lb'.Gated ∧
    gateTypeOf lb'.cfg = gateTypeOf lb.cfg ∧ gateTypeOf raw = gateTypeOf lb.cfg
  panicked : result = .panic → raw.Committable client ∧ gateTypeOf raw ≠ gateTypeOf lb.cfg

theorem gateTypeOf_filled {raw filled : Config} (valid : raw.validate = .ok filled) (old : Config) :
    gateTypeOf (filled.keepImmutable old) = gateTypeOf raw := by
  obtain ⟨transport, rfl⟩ := (Config.checked_of_validate valid).filled
  rfl

theorem store_fresh {lb : LoadBalancer} (gated : lb.Gated) (newCfg : Config) :
    lb.gateVal.store (fun r => ((lb.gates.alloc (admissionNew newCfg)).2.get r).type) lb.gates.next =
      if gateTypeOf lb.cfg = gateTypeOf newCfg then some ⟨some lb.gates.next⟩ else none := by
  obtain ⟨g, below, stored, built⟩ := gated.installed
  simp only [Go.AtomicValue.store, stored, Heap.get_alloc, if_neg below.ne, if_true, built]
  rfl

theorem gateStep_of_reload (client : KubeClient) {lb : LoadBalancer} (gated : lb.Gated)
    (raw : Config) :
    GateStep client lb raw (lb.reloadFromConfig client raw).1 (lb.reloadFromConfig client raw).2 := by
  have reloaded := reloaded_of_reloadFromConfig client lb raw
  generalize (lb.reloadFromConfig client raw).1 = lb' at reloaded ⊢
  generalize (lb.reloadFromConfig client raw).2 = result at reloaded ⊢
  obtain ⟨g₀, below, stored₀, built₀⟩ := gated.installed
  cases reloaded with
  | refused unfit states others =>
      refine ⟨fun _ _ => ⟨unfit, ⟨gated.untracked, g₀, ?_, stored₀, ?_⟩, rfl⟩, nofun, nofun⟩
      · exact below.trans_le others.next_le
      · rw [others.get_eq g₀ below]
        exact built₀
  | @applied filled newCfg ups heap pool dialer gates fit valid built replaced prepared =>
      rw [prepareGate_untracked gated.untracked] at prepared
      split at prepared
      · cases prepared
      · rename_i unneeded
        cases prepared
        have same : admissionNew (filled.keepImmutable lb.cfg) = admissionNew lb.cfg :=
          (@admissionNew_congr lb.cfg (filled.keepImmutable lb.cfg) rfl unneeded).symm
        have type : gateTypeOf raw = gateTypeOf lb.cfg :=
          (gateTypeOf_filled valid lb.cfg).symm.trans (congrArg Gate.type same)
        refine ⟨nofun, fun _ => ⟨fit, ⟨gated.untracked, g₀, below, stored₀, ?_⟩, ?_, type⟩, nofun⟩
        · exact built₀.trans same.symm
        · exact congrArg Gate.type same
  | @swapped filled newCfg ups heap pool dialer gates g gateVal fit valid built replaced prepared stored =>
      rw [prepareGate_untracked gated.untracked] at prepared
      split at prepared
      · cases prepared
        rw [store_fresh gated] at stored
        split at stored
        · rename_i same
          cases stored
          have type : gateTypeOf raw = gateTypeOf lb.cfg :=
            (gateTypeOf_filled valid lb.cfg).symm.trans same.symm
          refine ⟨nofun, fun _ => ⟨fit, ⟨gated.untracked, lb.gates.next, ?_, rfl, ?_⟩, same.symm, type⟩, nofun⟩
          · exact Nat.lt_succ_self _
          · rw [Heap.get_alloc, if_pos rfl]
        · cases stored
      · cases prepared
  | @panicked filled newCfg ups heap pool dialer gates g fit valid built replaced prepared stored =>
      rw [prepareGate_untracked gated.untracked] at prepared
      split at prepared
      · cases prepared
        rw [store_fresh gated] at stored
        split at stored
        · cases stored
        · rename_i differ
          refine ⟨nofun, nofun, fun _ => ⟨fit, fun same => differ ?_⟩⟩
          exact ((gateTypeOf_filled valid lb.cfg).trans same).symm
      · cases prepared

theorem gateSafe_iff (client : KubeClient) (cfgs : List Config) {lb : LoadBalancer}
    (gated : lb.Gated) : GateSafe client lb cfgs ↔
      ∀ raw ∈ cfgs, raw.Committable client → gateTypeOf raw = gateTypeOf lb.cfg := by
  induction cfgs generalizing lb with
  | nil => simp [GateSafe]
  | cons raw rest ih =>
      have stepped := gateStep_of_reload client gated raw
      simp only [GateSafe, List.forall_mem_cons]
      rcases reloaded : lb.reloadFromConfig client raw with ⟨lb', result⟩
      rw [reloaded] at stepped
      cases result with
      | panic =>
          obtain ⟨fit, differ⟩ := stepped.panicked rfl
          exact ⟨False.elim, fun same => differ (same.1 fit)⟩
      | error message =>
          obtain ⟨unfit, gated', type⟩ := stepped.refused message rfl
          simp only [ih gated', type]
          exact ⟨fun later => ⟨fun fit => absurd fit unfit, later⟩, fun both => both.2⟩
      | ok =>
          obtain ⟨fit, gated', type, same⟩ := stepped.applied rfl
          simp only [ih gated', type]
          exact ⟨fun both => ⟨fun _ => same, both.2⟩, fun both => ⟨gated'.current, both.2⟩⟩

/-- A sequence of reloads without sessions keeps to the store rule of the gate cell, and leaves the
right gate after each success, exactly when every config in it that can be committed asks for a gate
of the type the balancer started with. -/
theorem reloads_gateSafe_iff (client : KubeClient) {lb : LoadBalancer} (initial : lb.Initial)
    (cfgs : List Config) : GateSafe client lb cfgs ↔
      ∀ raw ∈ cfgs, raw.Committable client → gateTypeOf raw = gateTypeOf lb.cfg :=
  gateSafe_iff client cfgs (gated_of_initial initial)

/-- A waiting gate in place of a rejecting one: the reload panics, with the config committed. -/
theorem gate_swap_panics : ∃ lb : LoadBalancer, lb.Initial ∧
    (∃ filled, Config.validate { oneUpstream with backpressure := .wait } = .ok filled) ∧
    ∀ client, (lb.reloadFromConfig client { oneUpstream with backpressure := .wait }).2 = .panic ∧
      (lb.reloadFromConfig client { oneUpstream with backpressure := .wait }).1.cfg.backpressure = .wait ∧
      ¬GateSafe client lb [{ oneUpstream with backpressure := .wait }] := by
  refine ⟨_, ⟨oneUpstream, _, .tcp 0 0, rfl, rfl⟩, ⟨_, rfl⟩, fun client => ⟨rfl, rfl, id⟩⟩

theorem gateSafe_of_timeout : ∃ lb : LoadBalancer, lb.Initial ∧
    ∀ client, GateSafe client lb [{ oneUpstream with admissionWaitTimeout := 0 }] := by
  refine ⟨_, ⟨oneUpstream, _, .tcp 0 0, rfl, rfl⟩, fun client => ?_⟩
  refine (reloads_gateSafe_iff client ⟨oneUpstream, _, .tcp 0 0, rfl, rfl⟩ _).2 ?_
  intro raw member _
  cases List.mem_singleton.1 member
  rfl

end S5lb.LoadBalancer
