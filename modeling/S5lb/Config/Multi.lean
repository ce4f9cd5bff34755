import S5lb.Config.Checked

namespace S5lb

structure GroupConfig where
  name : String
  listen : String
  maxPerProxy : Option Int
  maxClients : Option Int
  healthInterval : Option Duration
  retryBackoff : Option Duration
  connectTimeout : Option Duration
  handshakeTimeout : Option Duration
  queueWaitTimeout : Option Duration
  failureThreshold : Option Int
  failureWindow : Option Duration
  idleTimeout : Option Duration
  drainSoftTimeout : Option Duration
  drainHardTimeout : Option Duration
  tcpKeepAlive : Option Bool
  strategy : String
  hashKey : HashKey
  backpressure : BackpressureStrategy
  admissionWaitTimeout : Option Duration
  udpEnabled : Option Bool
  udpBindAddr : String
  udpIdleTimeout : Option Duration
  transport : Option TransportConfig
  upstreams : List UpstreamSpec
  deriving DecidableEq

structure MultiConfig where
  config : Config
  groups : List GroupConfig
  deriving DecidableEq

def Config.override (global : Config) (g : GroupConfig) : Config :=
  { global with
    listenAddr := if g.listen ≠ "" then g.listen else global.listenAddr
    maxPerProxy := g.maxPerProxy.getD global.maxPerProxy
    maxClients := g.maxClients.getD global.maxClients
    healthInterval := g.healthInterval.getD global.healthInterval
    retryBackoff := g.retryBackoff.getD global.retryBackoff
    connectTimeout := g.connectTimeout.getD global.connectTimeout
    handshakeTimeout := g.handshakeTimeout.getD global.handshakeTimeout
    queueWaitTimeout := g.queueWaitTimeout.getD global.queueWaitTimeout
    failureThreshold := g.failureThreshold.getD global.failureThreshold
    failureWindow := g.failureWindow.getD global.failureWindow
    idleTimeout := g.idleTimeout.getD global.idleTimeout
    drainSoftTimeout := g.drainSoftTimeout.getD global.drainSoftTimeout
    drainHardTimeout := g.drainHardTimeout.getD global.drainHardTimeout
    tcpKeepAlive := g.tcpKeepAlive.getD global.tcpKeepAlive
    strategy := if g.strategy ≠ "" then g.strategy else global.strategy
    hashKey := if g.hashKey.name ≠ "" then g.hashKey else global.hashKey
    backpressure := if g.backpressure.name ≠ "" then g.backpressure else global.backpressure
    admissionWaitTimeout := g.admissionWaitTimeout.getD global.admissionWaitTimeout
    udpEnabled := g.udpEnabled.getD global.udpEnabled
    udpBindAddr := if g.udpBindAddr ≠ "" then g.udpBindAddr else global.udpBindAddr
    udpIdleTimeout := g.udpIdleTimeout.getD global.udpIdleTimeout
    transport := g.transport.getD global.transport
    upstreams := if g.upstreams.isEmpty then global.upstreams else g.upstreams
    groupName := g.name }

def validateGroupNames : Nat → List String → List GroupConfig → Except String Unit
  | _, _, [] => .ok ()
  | i, seen, g :: rest => do
      refuse (g.name == "") s!"groups[{i}]: name is required"
      refuse (seen.contains g.name) (s!"groups[{i}]: duplicate group name " ++ Go.quote g.name)
      validateGroupNames (i + 1) (g.name :: seen) rest

/-- The second loop of `MultiConfig.Validate`; `listenAddrs` maps an address to the group that
has it. The name of the group in a message is the one its effective config carries. -/
def validateEffective : List (String × String) → List Config → Except String Unit
  | _, [] => .ok ()
  | listenAddrs, eff :: rest => do
      let _ ← eff.validate.mapError ("group " ++ Go.quote eff.groupName ++ ": " ++ ·)
      match listenAddrs.lookup eff.listenAddr with
      | some first => .error ("group " ++ Go.quote eff.groupName ++ ": listen addr " ++
          Go.quote eff.listenAddr ++ " already used by group " ++ Go.quote first)
      | none => validateEffective ((eff.listenAddr, eff.groupName) :: listenAddrs) rest

namespace MultiConfig

def effectiveGroups (mc : MultiConfig) : List Config :=
  if mc.groups.isEmpty then
    [{ mc.config with groupName := if mc.config.groupName = "" then "default" else mc.config.groupName }]
  else mc.groups.map mc.config.override

/-- `MultiConfig.Validate`; the result is the receiver, whose own config is filled in when there are
no groups. The effective configs are copies, so what `Validate` fills in there is lost. -/
def validate (mc : MultiConfig) : Except String MultiConfig :=
  if mc.groups.isEmpty then do
    let config ← mc.config.validate
    return { mc with config }
  else do
    validateGroupNames 0 [] mc.groups
    validateEffective [] mc.effectiveGroups
    return mc

end MultiConfig

theorem mapError_ok {ε ε' α : Type} {f : ε → ε'} {x : Except ε α} {a : α} :
    x.mapError f = .ok a ↔ x = .ok a := by
  cases x <;> simp [Except.mapError]

theorem validateGroupNames_ok {i : Nat} {seen : List String} {groups : List GroupConfig} {u : Unit}
    (valid : validateGroupNames i seen groups = .ok u) :
    (∀ g ∈ groups, g.name ≠ "" ∧ g.name ∉ seen) ∧ (groups.map (·.name)).Nodup := by
  induction groups generalizing i seen with
  | nil => simp
  | cons g rest ih =>
      simp only [validateGroupNames, bind_ok, refuse_ok] at valid
      obtain ⟨_, named, _, unseen, later⟩ := valid
      obtain ⟨apart, distinct⟩ := ih later
      simp only [beq_eq_false_iff_ne] at named
      simp only [List.contains_eq_mem, decide_eq_false_iff_not] at unseen
      simp only [List.mem_cons, not_or] at apart
      refine ⟨fun g' member => ?_, List.nodup_cons.2 ⟨fun repeated => ?_, distinct⟩⟩
      · rcases List.mem_cons.1 member with rfl | member
        · exact ⟨named, unseen⟩
        · exact ⟨(apart g' member).1, (apart g' member).2.2⟩
      · obtain ⟨g', member, same⟩ := List.mem_map.1 repeated
        exact (apart g' member).2.1 same

theorem validateEffective_ok {listenAddrs : List (String × String)} {effs : List Config} {u : Unit}
    (valid : validateEffective listenAddrs effs = .ok u) :
    (∀ eff ∈ effs, (∃ filled, eff.validate = .ok filled) ∧ listenAddrs.lookup eff.listenAddr = none) ∧
      (effs.map (·.listenAddr)).Nodup := by
  induction effs generalizing listenAddrs with
  | nil => simp
  | cons eff rest ih =>
      simp only [validateEffective, bind_ok, mapError_ok] at valid
      obtain ⟨filled, passed, valid⟩ := valid
      cases free : listenAddrs.lookup eff.listenAddr with
      | some first => simp [free] at valid
      | none =>
          simp only [free] at valid
          obtain ⟨apart, distinct⟩ := ih valid
          have others : ∀ eff' ∈ rest, eff'.listenAddr ≠ eff.listenAddr ∧
              listenAddrs.lookup eff'.listenAddr = none := by
            intro eff' member
            have unused := (apart eff' member).2
            by_cases same : eff'.listenAddr = eff.listenAddr
            · rw [same, List.lookup_cons_self] at unused
              cases unused
            · rw [List.lookup_cons, beq_eq_false_iff_ne.2 same] at unused
              exact ⟨same, unused⟩
          refine ⟨fun eff' member => ?_, List.nodup_cons.2 ⟨fun repeated => ?_, distinct⟩⟩
          · rcases List.mem_cons.1 member with rfl | member
            · exact ⟨⟨filled, passed⟩, free⟩
            · exact ⟨(apart eff' member).1, (others eff' member).2⟩
          · obtain ⟨eff', member, same⟩ := List.mem_map.1 repeated
            exact (others eff' member).1 same

structure Accepted (effs : List Config) : Prop where
  named : ∀ eff ∈ effs, eff.groupName ≠ ""
  names : (effs.map (·.groupName)).Nodup
  addrs : (effs.map (·.listenAddr)).Nodup

namespace MultiConfig

inductive Passed (mc : MultiConfig) : MultiConfig → Prop
  | global {config : Config} (single : mc.groups.isEmpty = true)
      (valid : mc.config.validate = .ok config) : Passed mc { mc with config }
  | groups {u u' : Unit} (several : ¬mc.groups.isEmpty = true)
      (names : validateGroupNames 0 [] mc.groups = .ok u)
      (effective : validateEffective [] mc.effectiveGroups = .ok u') : Passed mc mc

variable {mc checked : MultiConfig}

theorem validate_ok : mc.validate = .ok checked ↔ mc.Passed checked := by
  constructor
  · intro valid
    unfold validate at valid
    split at valid
    · rename_i single
      simp only [bind_ok, pure, Except.pure, Except.ok.injEq] at valid
      obtain ⟨config, valid, rfl⟩ := valid
      exact .global single valid
    · rename_i several
      simp only [bind_ok, pure, Except.pure, Except.ok.injEq] at valid
      obtain ⟨_, names, _, effective, rfl⟩ := valid
      exact .groups several names effective
  · intro passed
    cases passed with
    | global single valid =>
        simp only [validate, single, if_true, valid, bind_ok, pure, Except.pure, Except.ok.injEq]
        exact ⟨_, rfl, rfl⟩
    | groups several names effective =>
        rw [validate, if_neg several]
        simp [names, effective, bind_ok, pure, Except.pure]

theorem accepted_of_validate (valid : mc.validate = .ok checked) :
    Accepted checked.effectiveGroups := by
  cases validate_ok.1 valid with
  | global single =>
      simp only [effectiveGroups, single, if_true]
      refine ⟨fun eff member => ?_, by simp, by simp⟩
      cases List.mem_singleton.1 member
      dsimp only
      split
      · decide
      · assumption
  | groups several names effective =>
      obtain ⟨named, distinct⟩ := validateGroupNames_ok names
      refine ⟨fun eff member => ?_, ?_, (validateEffective_ok effective).2⟩
      · rw [effectiveGroups, if_neg several] at member
        obtain ⟨g, listed, rfl⟩ := List.mem_map.1 member
        exact (named g listed).1
      · rw [effectiveGroups, if_neg several, List.map_map]
        exact distinct

theorem valid_effective (valid : mc.validate = .ok checked) :
    ∀ eff ∈ checked.effectiveGroups, ∃ filled, eff.validate = .ok filled := by
  cases validate_ok.1 valid with
  | global single passed =>
      simp only [effectiveGroups, single, if_true, List.forall_mem_singleton]
      exact ⟨_, Config.validate_again passed _⟩
  | groups _ _ effective => exact fun eff member => ((validateEffective_ok effective).1 eff member).1

end MultiConfig

end S5lb
