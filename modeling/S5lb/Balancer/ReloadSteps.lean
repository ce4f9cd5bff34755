import S5lb.Balancer.Reload

/-! `reloadFromConfig` holds no lock from end to end: what others can see it do is one section after
another. -/

namespace S5lb

inductive ReloadPc
  | called (raw : Config)
  | built (oldCfg newCfg : Config) (newUps : List Upstream)
  | gated (newCfg : Config) (newUps : List Upstream) (newGate : Option GateRef)
  | published (newCfg : Config) (dialer : Dialer) (newGate : Option GateRef)
  | committed (newGate : GateRef)
  | returned (result : ReloadResult)

namespace LoadBalancer

def countSection (lb : LoadBalancer) (oldCfg newCfg : Config) : Config × Option GateRef × Heap Gate :=
  if oldCfg.newGateNeeded newCfg then
    if lb.tracker.count ≠ 0 then
      ({ newCfg with
          backpressure := oldCfg.backpressure
          admissionWaitTimeout := oldCfg.admissionWaitTimeout }, none, lb.gates)
    else
      let (g, gates) := lb.gates.alloc (admissionNew newCfg)
      (newCfg, some g, gates)
  else (newCfg, none, lb.gates)

def reloadStep (client : KubeClient) (lb : LoadBalancer) : ReloadPc → Option (LoadBalancer × ReloadPc)
  | .called raw =>
      match raw.validate with
      | .error why => some (lb, .returned (.error ("validate: " ++ why)))
      | .ok newCfg =>
          let newCfg := newCfg.keepImmutable lb.cfg
          if newCfg.upstreams.isEmpty then
            some (lb, .returned
              (.error "config contains no upstreams; reload rejected to preserve current pool"))
          else
            match newCfg.buildUpstreams lb.heap with
            | .error why => some (lb, .returned (.error ("build upstreams: " ++ why)))
            | .ok (newUps, heap) => some ({ lb with heap }, .built lb.cfg newCfg newUps)
  | .built oldCfg newCfg newUps =>
      let (newCfg, newGate, gates) := lb.countSection oldCfg newCfg
      some ({ lb with gates }, .gated newCfg newUps newGate)
  | .gated newCfg newUps newGate =>
      match newFromConfig client newCfg with
      | .error why => some (lb, .returned (.error ("transport: " ++ why)))
      | .ok dialer =>
          match lb.setUpstreams newUps with
          | .error why => some (lb, .returned (.error ("set upstreams: " ++ why)))
          | .ok lb => some (lb, .published newCfg dialer newGate)
  | .published newCfg dialer newGate =>
      some ({ lb with cfg := newCfg, dialer }, (newGate.map .committed).getD (.returned .ok))
  | .committed g =>
      match lb.setGate g with
      | some lb => some (lb, .returned .ok)
      | none => some (lb, .returned .panic)
  | .returned _ => none

def reloadRun (client : KubeClient) : Nat → LoadBalancer → ReloadPc → LoadBalancer × ReloadPc
  | 0, lb, pc => (lb, pc)
  | n + 1, lb, pc =>
      match lb.reloadStep client pc with
      | none => (lb, pc)
      | some (lb, pc) => reloadRun client n lb pc

theorem reloadRun_applyReload (client : KubeClient) (lb : LoadBalancer) (newCfg : Config)
    (newUps : List Upstream) : reloadRun client 4 lb (.built lb.cfg newCfg newUps) =
      ((lb.applyReload client newCfg newUps).1, .returned (lb.applyReload client newCfg newUps).2) := by
  have counted : lb.countSection lb.cfg newCfg = lb.prepareGate newCfg := rfl
  simp only [reloadRun, reloadStep, applyReload, counted]
  rcases lb.prepareGate newCfg with ⟨newCfg, newGate, gates⟩
  cases newFromConfig client newCfg with
  | error why => rfl
  | ok dialer =>
      cases ({ lb with gates } : LoadBalancer).setUpstreams newUps with
      | error why => rfl
      | ok lb =>
          cases newGate with
          | none => rfl
          | some g =>
              cases stored : ({ lb with cfg := newCfg, dialer } : LoadBalancer).setGate g with
              | none => simp [stored]
              | some lb => simp [stored]

/-- The sections in a row, with nobody in between, are the reload of the sequential model. -/
theorem reloadRun_reloadFromConfig (client : KubeClient) (lb : LoadBalancer) (raw : Config) :
    reloadRun client 5 lb (.called raw) =
      ((lb.reloadFromConfig client raw).1, .returned (lb.reloadFromConfig client raw).2) := by
  rw [reloadRun]
  simp only [reloadStep, reloadFromConfig]
  cases raw.validate with
  | error why => rfl
  | ok filled =>
      by_cases empty : (filled.keepImmutable lb.cfg).upstreams.isEmpty = true
      · simp only [empty, if_true]
        rfl
      · simp only [empty]
        cases (filled.keepImmutable lb.cfg).buildUpstreams lb.heap with
        | error why => rfl
        | ok made => exact reloadRun_applyReload client { lb with heap := made.2 } _ made.1

inductive Reloads (client : KubeClient) (lb : LoadBalancer) :
    ReloadPc → LoadBalancer → ReloadPc → Prop
  | refused {raw : Config} {why : String} :
      Reloads client lb (.called raw) lb (.returned (.error why))
  | built {raw filled : Config} {newUps : List Upstream} {heap : Heap State}
      (valid : raw.validate = .ok filled)
      (made : filled.buildUpstreams lb.heap = .ok (newUps, heap)) :
      Reloads client lb (.called raw) { lb with heap } (.built lb.cfg (filled.keepImmutable lb.cfg) newUps)
  | counted {oldCfg newCfg newCfg' : Config} {newUps : List Upstream} {newGate : Option GateRef}
      {gates : Heap Gate} (counted : lb.countSection oldCfg newCfg = (newCfg', newGate, gates)) :
      Reloads client lb (.built oldCfg newCfg newUps) { lb with gates } (.gated newCfg' newUps newGate)
  | stopped {newCfg : Config} {newUps : List Upstream} {newGate : Option GateRef} {why : String} :
      Reloads client lb (.gated newCfg newUps newGate) lb (.returned (.error why))
  | published {newCfg : Config} {newUps : List Upstream} {newGate : Option GateRef} {dialer : Dialer}
      {pool : Pool} (dialed : newFromConfig client newCfg = .ok dialer)
      (replaced : lb.pool.replace newUps = .ok pool) :
      Reloads client lb (.gated newCfg newUps newGate) { lb with pool } (.published newCfg dialer newGate)
  | applied {newCfg : Config} {dialer : Dialer} :
      Reloads client lb (.published newCfg dialer none) { lb with cfg := newCfg, dialer } (.returned .ok)
  | committed {newCfg : Config} {dialer : Dialer} {g : GateRef} :
      Reloads client lb (.published newCfg dialer (some g)) { lb with cfg := newCfg, dialer } (.committed g)
  | swapped {g : GateRef} {gateVal : Go.AtomicValue GateRef}
      (stored : lb.gateVal.store (fun r => (lb.gates.get r).type) g = some gateVal) :
      Reloads client lb (.committed g) { lb with gateVal } (.returned .ok)
  | panicked {g : GateRef} (stored : lb.gateVal.store (fun r => (lb.gates.get r).type) g = none) :
      Reloads client lb (.committed g) lb (.returned .panic)

theorem reloads_of_reloadStep {client : KubeClient} {lb lb' : LoadBalancer} {pc pc' : ReloadPc}
    (stepped : lb.reloadStep client pc = some (lb', pc')) : Reloads client lb pc lb' pc' := by
  cases pc with
  | called raw =>
      simp only [reloadStep] at stepped
      split at stepped
      · cases stepped
        exact .refused
      · rename_i filled valid
        split at stepped
        · cases stepped
          exact .refused
        · split at stepped
          · cases stepped
            exact .refused
          · cases stepped
            exact .built valid ‹_›
  | built oldCfg newCfg newUps =>
      cases stepped
      exact .counted rfl
  | gated newCfg newUps newGate =>
      simp only [reloadStep] at stepped
      split at stepped
      · cases stepped
        exact .stopped
      · split at stepped
        · cases stepped
          exact .stopped
        · rename_i published
          obtain ⟨pool, replaced, rfl⟩ := setUpstreams_eq_ok.1 published
          cases stepped
          exact .published ‹_› replaced
  | published newCfg dialer newGate =>
      cases newGate with
      | none =>
          cases stepped
          exact .applied
      | some g =>
          cases stepped
          exact .committed
  | committed g =>
      simp only [reloadStep, setGate] at stepped
      cases stored : lb.gateVal.store (fun r => (lb.gates.get r).type) g with
      | none =>
          simp only [stored, Option.map_none] at stepped
          cases stepped
          exact .panicked stored
      | some gateVal =>
          simp only [stored, Option.map_some] at stepped
          cases stepped
          exact .swapped stored
  | returned result => cases stepped

end LoadBalancer

end S5lb
