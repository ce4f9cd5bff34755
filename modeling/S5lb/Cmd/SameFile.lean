import S5lb.Balancer.Reapply
import S5lb.Cmd.Main

namespace S5lb

open Transition

namespace MultiConfig

def sections (mc : MultiConfig) : List (Option GroupConfig) :=
  if mc.groups.isEmpty then [none] else mc.groups.map some

def effective (mc : MultiConfig) : Option GroupConfig → Config
  | none =>
      { mc.config with groupName := if mc.config.groupName = "" then "default" else mc.config.groupName }
  | some g => mc.config.override g

theorem effectiveGroups_eq (mc : MultiConfig) : mc.effectiveGroups = mc.sections.map mc.effective := by
  unfold effectiveGroups sections
  split
  · rfl
  · rw [List.map_map]
    rfl

end MultiConfig

/-- In this section of the config the flags change nothing that `Reload` takes from the file: what
they set is what the file says already, or the group has a value of its own, or, for the gate, the
group has sessions. In a group the transport must be written out besides. -/
@[mk_iff] structure Flags.Inert (flags : Flags) (file : Config) (s : Option GroupConfig) (busy : Prop) : Prop where
  maxPerProxy : flags.maxPerProxy ≤ 0 ∨ flags.maxPerProxy = file.maxPerProxy ∨
    s.any (·.maxPerProxy.isSome)
  backpressure : flags.backpressure = "" ∨ .ofName flags.backpressure = file.backpressure ∨
    s.any (·.backpressure.name != "") ∨ busy
  logLevel : flags.logLevel = "" ∨ parseLevel flags.logLevel = file.logLevel
  logFormat : flags.logFormat = "" ∨ flags.logFormat = file.logFormat
  udp : flags.udp = none ∨ flags.udp = some file.udpEnabled ∨ s.any (·.udpEnabled.isSome)
  upstreams : flags.upstreams = [] ∨ s.any (!·.upstreams.isEmpty)
  transport : ∀ g, s = some g → (g.transport.getD file.transport).Spelled

def Config.Flagged (file flagged : Config) : Prop :=
  flagged = { file with
    listenAddr := flagged.listenAddr
    adminAddr := flagged.adminAddr
    maxPerProxy := flagged.maxPerProxy
    maxClients := flagged.maxClients
    strategy := flagged.strategy
    hashKey := flagged.hashKey
    backpressure := flagged.backpressure
    udpEnabled := flagged.udpEnabled
    otel := flagged.otel
    logLevel := flagged.logLevel
    logFormat := flagged.logFormat
    upstreams := flagged.upstreams }

@[mk_iff] structure Config.Agrees (file flagged : Config) (busy : Prop) : Prop where
  maxPerProxy : flagged.maxPerProxy = file.maxPerProxy
  backpressure : flagged.backpressure = file.backpressure ∨ busy
  logLevel : flagged.logLevel = file.logLevel
  logFormat : flagged.logFormat = file.logFormat
  udpEnabled : flagged.udpEnabled = file.udpEnabled
  upstreams : flagged.upstreams = file.upstreams
  transport : file.transport.Spelled

theorem LoadBalancer.prepareGate_eq_iff (lb : LoadBalancer) (newCfg : Config) :
    (lb.prepareGate newCfg).1 = lb.cfg ↔
      { newCfg with
        backpressure := lb.cfg.backpressure
        admissionWaitTimeout := lb.cfg.admissionWaitTimeout } = lb.cfg ∧
      (lb.tracker.count ≠ 0 ∨ lb.cfg.backpressure = newCfg.backpressure ∧
        lb.cfg.admissionWaitTimeout = newCfg.admissionWaitTimeout) := by
  unfold prepareGate
  split
  · rename_i needed
    split
    · rename_i busy
      simp [busy]
    · rename_i idle
      simp only [idle, false_or]
      constructor
      · rintro rfl
        rcases needed with differs | differs
        · exact absurd rfl differs
        · exact absurd rfl differs
      · rintro ⟨-, gate, timeout⟩
        rcases needed with differs | differs
        · exact absurd gate differs
        · exact absurd timeout differs
  · rename_i same
    simp only [Config.newGateNeeded, not_or, not_not] at same
    rw [same.1, same.2]
    simp

theorem Config.Flagged.agrees_iff {file flagged : Config} {transport : TransportConfig} {busy : Prop}
    (laid : file.Flagged flagged) (valid : validateTransport file.transport = .ok transport) :
    { ({ file with transport }.keepImmutable flagged) with
        backpressure := flagged.backpressure
        admissionWaitTimeout := flagged.admissionWaitTimeout } = flagged ∧
      (busy ∨ flagged.backpressure = file.backpressure ∧
        flagged.admissionWaitTimeout = file.admissionWaitTimeout) ↔
    file.Agrees flagged busy := by
  have spelled := (validateTransport_again valid).2.2
  have timeout : flagged.admissionWaitTimeout = file.admissionWaitTimeout := by rw [laid]
  have kept : flagged.transport = file.transport := by rw [laid]
  constructor
  · rintro ⟨same, gate⟩
    exact ⟨(congrArg maxPerProxy same).symm, gate.symm.imp_left And.left, (congrArg logLevel same).symm,
      (congrArg logFormat same).symm, (congrArg udpEnabled same).symm, (congrArg upstreams same).symm,
      spelled.1 ((congrArg Config.transport same).trans kept)⟩
  · intro agrees
    refine ⟨Eq.trans ?_ laid.symm, agrees.backpressure.symm.imp_right fun gate => ⟨gate, timeout⟩⟩
    rw [spelled.2 agrees.transport, agrees.maxPerProxy, agrees.logLevel, agrees.logFormat,
      agrees.udpEnabled, agrees.upstreams, timeout]
    rfl

theorem LoadBalancer.reapplies_iff {lb : LoadBalancer} {file filled : Config}
    (laid : file.Flagged lb.cfg) (valid : file.validate = .ok filled) :
    lb.Reapplies file ↔ file.Agrees lb.cfg (lb.tracker.count ≠ 0) := by
  obtain ⟨same, transport⟩ := Config.transport_validated valid
  rw [← laid.agrees_iff transport, Reapplies]
  constructor
  · rintro ⟨filled', valid', kept⟩
    cases valid.symm.trans valid'
    rw [prepareGate_eq_iff, same] at kept
    exact kept
  · intro kept
    refine ⟨filled, valid, ?_⟩
    rw [prepareGate_eq_iff, same]
    exact kept

namespace Environment

variable {env : Environment} {flags : Flags}

theorem length_of_parseUpstreams {specs : List String} {cli : List UpstreamSpec}
    (parsed : env.parseUpstreams specs = .ok cli) : cli.length = specs.length := by
  unfold parseUpstreams at parsed
  induction specs generalizing cli with
  | nil =>
      cases parsed
      rfl
  | cons spec rest ih =>
      simp only [List.mapM_cons, bind_ok, pure, Except.pure, Except.ok.injEq] at parsed
      obtain ⟨_, -, later, parsed, rfl⟩ := parsed
      rw [List.length_cons, List.length_cons, ih parsed]

structure Merged (env : Environment) (flags : Flags) (mc merged : MultiConfig) : Prop where
  groups : merged.groups = mc.groups
  config : ∃ cli, (cli = [] ↔ flags.upstreams = []) ∧
    merged.config = { mc.config.applyFlagOverrides flags with upstreams := mc.config.upstreams ++ cli }

theorem merged_of_mergeFlags {mc merged : MultiConfig} (made : env.mergeFlags flags mc = .ok merged) :
    env.Merged flags mc merged := by
  unfold mergeFlags at made
  cases parsed : env.parseUpstreams flags.upstreams with
  | error why => simp [parsed, Except.map] at made
  | ok cli =>
      rw [parsed] at made
      cases made
      refine ⟨rfl, cli, ?_, rfl⟩
      rw [← List.length_eq_zero_iff, length_of_parseUpstreams parsed, List.length_eq_zero_iff]

theorem Merged.flagged {mc merged : MultiConfig} (made : env.Merged flags mc merged)
    (s : Option GroupConfig) : (mc.effective s).Flagged (merged.effective s) := by
  obtain ⟨cli, -, config⟩ := made.config
  cases s with
  | none =>
      simp only [MultiConfig.effective, config]
      rfl
  | some g =>
      simp only [MultiConfig.effective, config]
      rfl

theorem getD_eq_iff_or {α : Type} {o : Option α} {a : α} : o.getD a = a ↔ o = none ∨ o = some a := by
  cases o <;> simp

theorem getD_eq_getD_iff {α : Type} {o : Option α} {a b : α} :
    o.getD a = o.getD b ↔ a = b ∨ o.isSome = true := by
  cases o <;> simp

structure Changes (flags : Flags) (file flagged : Config) : Prop where
  maxPerProxy : flagged.maxPerProxy = file.maxPerProxy ↔
    flags.maxPerProxy ≤ 0 ∨ flags.maxPerProxy = file.maxPerProxy
  backpressure : flagged.backpressure = file.backpressure ↔
    flags.backpressure = "" ∨ .ofName flags.backpressure = file.backpressure
  logLevel : flagged.logLevel = file.logLevel ↔
    flags.logLevel = "" ∨ parseLevel flags.logLevel = file.logLevel
  logFormat : flagged.logFormat = file.logFormat ↔ flags.logFormat = "" ∨ flags.logFormat = file.logFormat
  udpEnabled : flagged.udpEnabled = file.udpEnabled ↔
    flags.udp = none ∨ flags.udp = some file.udpEnabled
  upstreams : flagged.upstreams = file.upstreams ↔ flags.upstreams = []

theorem Merged.changes {mc merged : MultiConfig} (made : env.Merged flags mc merged) :
    Changes flags mc.config merged.config := by
  obtain ⟨cli, empty, config⟩ := made.config
  rw [config]
  refine ⟨?_, ?_, ?_, ?_, getD_eq_iff_or, ?_⟩
  · rw [← not_lt]
    exact ite_eq_right_iff.trans imp_iff_not_or
  · exact ite_eq_right_iff.trans or_iff_not_imp_left.symm
  · exact ite_eq_right_iff.trans or_iff_not_imp_left.symm
  · exact ite_eq_right_iff.trans or_iff_not_imp_left.symm
  · rw [← empty]
    exact List.append_right_eq_self

theorem Merged.agrees_iff {mc merged : MultiConfig} (made : env.Merged flags mc merged)
    {s : Option GroupConfig} (spelled : s = none → mc.config.transport.Spelled) (busy : Prop) :
    (mc.effective s).Agrees (merged.effective s) busy ↔ flags.Inert mc.config s busy := by
  have changes := made.changes
  rw [Config.agrees_iff, Flags.inert_iff]
  cases s with
  | none =>
      simp only [MultiConfig.effective, changes.maxPerProxy, changes.backpressure, changes.logLevel,
        changes.logFormat, changes.udpEnabled, changes.upstreams, spelled rfl, Option.any_none,
        Bool.false_eq_true, false_or, or_false, reduceCtorEq, false_implies, implies_true, or_assoc]
  | some g =>
      have gate {a b : BackpressureStrategy} :
          (if g.backpressure.name ≠ "" then g.backpressure else a) =
            (if g.backpressure.name ≠ "" then g.backpressure else b) ↔
          a = b ∨ (g.backpressure.name != "") = true := by
        by_cases own : g.backpressure.name = "" <;> simp [own]
      have pool {a b : List UpstreamSpec} :
          (if g.upstreams.isEmpty then a else g.upstreams) =
            (if g.upstreams.isEmpty then b else g.upstreams) ↔ a = b ∨ (!g.upstreams.isEmpty) = true := by
        cases g.upstreams.isEmpty <;> simp
      simp only [MultiConfig.effective, Config.override, getD_eq_getD_iff, gate, pool, changes.maxPerProxy,
        changes.backpressure, changes.logLevel, changes.logFormat, changes.udpEnabled, changes.upstreams,
        Option.any_some, Option.some.injEq, forall_eq', or_assoc]

theorem Merged.validate {mc merged checked checked' : MultiConfig} (made : env.Merged flags mc merged)
    (file : mc.validate = .ok checked) (all : merged.validate = .ok checked') :
    env.Merged flags checked checked' := by
  obtain ⟨cli, empty, config⟩ := made.config
  have file := MultiConfig.validate_ok.1 file
  have all := MultiConfig.validate_ok.1 all
  cases file with
  | global single valid =>
      cases all with
      | groups several => exact absurd (made.groups ▸ single) several
      | global _ valid' =>
          obtain ⟨same, transport⟩ := Config.transport_validated valid
          obtain ⟨same', transport'⟩ := Config.transport_validated valid'
          have kept : merged.config.transport = mc.config.transport := by rw [config]; rfl
          rw [kept, transport, Except.ok.injEq] at transport'
          refine ⟨made.groups, cli, empty, ?_⟩
          dsimp only
          rw [same', ← transport', same, config]
          rfl
  | groups several =>
      cases all with
      | global single => exact absurd (made.groups ▸ single) several
      | groups => exact made

end Environment

namespace MultiConfig

theorem sections_of_validate {mc checked : MultiConfig} (valid : mc.validate = .ok checked) :
    checked.sections = mc.sections ∧
      ∀ s ∈ mc.sections, (s = none → checked.config.transport.Spelled) ∧
        ∀ flags : Flags, ∀ busy, flags.Inert checked.config s busy ↔ flags.Inert mc.config s busy := by
  cases validate_ok.1 valid with
  | global single passed =>
      obtain ⟨same, transport⟩ := Config.transport_validated passed
      have spelled := (validateTransport_again transport).1
      refine ⟨rfl, ?_⟩
      simp only [sections, single, if_true, List.forall_mem_singleton]
      refine ⟨fun _ => spelled, fun flags busy => ?_⟩
      rw [Flags.inert_iff, Flags.inert_iff, same]
      simp
  | groups several =>
      refine ⟨rfl, fun s member => ⟨?_, fun _ _ => Iff.rfl⟩⟩
      rintro rfl
      simp [sections, several] at member

theorem validate_again {mc checked : MultiConfig} (valid : mc.validate = .ok checked) :
    checked.validate = .ok checked := by
  cases validate_ok.1 valid with
  | @global filled single passed =>
      exact validate_ok.2 (.global single (Config.validate_again passed filled.groupName))
  | groups => exact valid

end MultiConfig

namespace Environment

variable {env : Environment} {flags : Flags}

theorem holds_of_main {configPath : String} {m : Manager} {mc : MultiConfig} (path : configPath ≠ "")
    (loaded : loadMultiFile env.decoded = .ok mc) (started : env.main flags configPath = .ok m) :
    m.cfgPath = configPath ∧ ∃ merged checked, env.Merged flags mc merged ∧
      merged.validate = .ok checked ∧ m.Holds env.client checked.effectiveGroups := by
  simp only [main, loadConfig, if_pos path, loaded, bind_ok, mapError_ok, Except.ok.injEq] at started
  obtain ⟨_, rfl, merged, merging, _, -, checked, valid, _, -, mgr, made, rest⟩ := started
  have same : mgr = m := by
    split at rest
    · simp only [bind_ok, pure, Except.pure, Except.ok.injEq] at rest
      obtain ⟨_, -, same⟩ := rest
      exact same
    · simpa [pure, Except.pure] using rest
  subst same
  obtain ⟨kept, checked', valid', holds⟩ := Manager.holds_of_newManager made
  rw [MultiConfig.validate_again valid] at valid'
  cases valid'
  exact ⟨kept, merged, checked, merged_of_mergeFlags merging, valid, holds⟩

/-- A reload of the file a manager was started with, before any other reload: it returns nil and
leaves everything as it was just when the file passes `Validate` by itself and, in every section of
it, the flags are inert. -/
theorem reload_same_file_iff {configPath : String} {mc : MultiConfig} {m₀ m : Manager}
    {trace : List (Manager × ManagerAction)} (path : configPath ≠ "")
    (loaded : loadMultiFile env.decoded = .ok mc) (started : env.main flags configPath = .ok m₀)
    (exec : Exec (Manager.step env.client) m₀ trace m) (serving : Guarded Manager.Serving trace) :
    (∃ m', m.reload env.client (loadMultiFile env.decoded) = (m', .ok) ∧ m.Same m') ↔
      (∃ checked, mc.validate = .ok checked) ∧ ∀ p ∈ mc.sections.zip m.groups,
        flags.Inert mc.config p.1 ((m.entries.get p.2).lb.tracker.count ≠ 0) := by
  obtain ⟨path₀, merged, checked', merging, all, holds₀⟩ := holds_of_main path loaded started
  obtain ⟨holds, path'⟩ : m.Holds env.client checked'.effectiveGroups ∧ m.cfgPath = configPath :=
    exec.invariant
      (P := fun _ m => m.Holds env.client checked'.effectiveGroups ∧ m.cfgPath = configPath)
      ⟨holds₀, path₀⟩
      (fun _ s a s' _ before allowed taken => by
        obtain ⟨after, kept⟩ := before.1.step allowed taken
        exact ⟨after, kept.trans before.2⟩) serving
  have named : (m.cfgPath == "") = false := by simpa [path'] using path
  cases valid : mc.validate with
  | error why =>
      have refused : m.reload env.client (loadMultiFile env.decoded) =
          (m, .error ("reload: validate: " ++ why)) := by
        rw [Manager.reload, loaded]
        simp only [Manager.loadConfig, named, refuse, Bool.false_eq_true, if_false, bind, Except.bind,
          Except.mapError, valid]
        rfl
      simp [refused]
  | ok checked =>
      have fresh : m.loadConfig "reload" (loadMultiFile env.decoded) = .ok checked.effectiveGroups := by
        simp only [Manager.loadConfig, loaded, bind_ok, refuse_ok, mapError_ok]
        exact ⟨(), named, mc, rfl, checked, valid, rfl⟩
      have merged' := merging.validate valid all
      obtain ⟨sections, inside⟩ := MultiConfig.sections_of_validate valid
      have sections' : checked'.sections = checked.sections := by
        unfold MultiConfig.sections
        rw [merged'.groups]
      have names : checked.effectiveGroups.map (·.groupName) =
          checked'.effectiveGroups.map (·.groupName) := by
        rw [MultiConfig.effectiveGroups_eq, MultiConfig.effectiveGroups_eq, sections', List.map_map,
          List.map_map]
        refine List.map_congr_left fun s _ => ?_
        have laid := merged'.flagged s
        simp only [Function.comp_apply]
        rw [laid]
      have pairing (c : MultiConfig) (same : c.sections = mc.sections) :
          c.effectiveGroups.zip m.groups =
            (mc.sections.zip m.groups).map fun q => (c.effective q.1, q.2) := by
        rw [MultiConfig.effectiveGroups_eq, same, List.zip_map_left]
        rfl
      rw [holds.reload_same_iff names fresh, pairing checked sections, List.forall_mem_map]
      simp only [Except.ok.injEq, exists_eq', true_and]
      refine forall₂_congr fun q member => ?_
      have config : (m.entries.get q.2).lb.cfg = checked'.effective q.1 := by
        refine (holds.made (checked'.effective q.1, q.2) ?_).cfg_eq
        rw [pairing checked' (sections'.trans sections)]
        exact List.mem_map_of_mem member
      have listed : q.1 ∈ mc.sections := (List.of_mem_zip member).1
      obtain ⟨filled, valid⟩ : ∃ filled, (checked.effective q.1).validate = .ok filled := by
        refine MultiConfig.valid_effective valid _ ?_
        rw [MultiConfig.effectiveGroups_eq, sections]
        exact List.mem_map_of_mem listed
      obtain ⟨spelled, inert⟩ := inside q.1 listed
      have laid := merged'.flagged q.1
      rw [← config] at laid
      rw [LoadBalancer.reapplies_iff laid valid, config, merged'.agrees_iff spelled, inert]

def offline (mc : MultiConfig) : Environment where
  client := noCluster
  decoded := .ok mc
  url := fun _ => .error ""
  telemetryInit := fun _ => .ok ()
  adminNew := fun _ => .ok ()

def noFlags : Flags where
  listen := ""
  adminAddr := ""
  upstreams := []
  strategy := ""
  hashKey := ""
  backpressure := ""
  maxPerProxy := 0
  maxClients := 0
  logLevel := ""
  logFormat := ""
  udp := none
  otel := none
  otelEndpoint := ""
  otelInsecure := none

/-- `-max-per-proxy 5` over a file that says 1 is gone after the first reload; and with a file without
upstreams, started with `-upstream 10.0.0.1:1080`, every reload is refused. -/
theorem flags_lost_on_reload :
    (∃ m m', (offline ⟨LoadBalancer.oneUpstream, []⟩).main { noFlags with maxPerProxy := 5 } "s5lb.yaml" =
        .ok m ∧
      m.reload noCluster (loadMultiFile (.ok ⟨LoadBalancer.oneUpstream, []⟩)) = (m', .ok) ∧
      m.groups = [0] ∧ (m.entries.get 0).lb.cfg.maxPerProxy = 5 ∧
      (m'.entries.get 0).lb.cfg.maxPerProxy = 1 ∧ ¬m.Same m') ∧
    ∃ m m' why, (offline ⟨defaults, []⟩).main { noFlags with upstreams := ["10.0.0.1:1080"] } "s5lb.yaml" =
        .ok m ∧
      m.reload noCluster (loadMultiFile (.ok ⟨defaults, []⟩)) = (m', .error why) := by
  constructor
  · have run : ((offline ⟨LoadBalancer.oneUpstream, []⟩).main { noFlags with maxPerProxy := 5 }
        "s5lb.yaml").toOption.any (fun m =>
          let p := m.reload noCluster (loadMultiFile (.ok ⟨LoadBalancer.oneUpstream, []⟩))
          decide (p.2 = .ok ∧ m.groups = [0] ∧ (m.entries.get 0).lb.cfg.maxPerProxy = 5 ∧
            (p.1.entries.get 0).lb.cfg.maxPerProxy = 1)) = true := by decide +kernel
    obtain ⟨m, started, run⟩ := ok_of_any run
    obtain ⟨returned, groups, before, after⟩ := of_decide_eq_true run
    refine ⟨m, _, started, Prod.ext rfl returned, groups, before, after, fun same => ?_⟩
    have kept := (same.balancers 0 (by simp [groups])).cfg
    rw [kept, before] at after
    cases after
  · have run : ((offline ⟨defaults, []⟩).main { noFlags with upstreams := ["10.0.0.1:1080"] }
        "s5lb.yaml").toOption.any (fun m =>
          let result := (m.reload noCluster (loadMultiFile (.ok ⟨defaults, []⟩))).2
          decide (result ≠ .ok ∧ result ≠ .panic)) = true := by decide +kernel
    obtain ⟨m, started, run⟩ := ok_of_any run
    obtain ⟨failed, returned⟩ := of_decide_eq_true run
    cases answer : m.reload noCluster (loadMultiFile (.ok ⟨defaults, []⟩)) with
    | mk m' result =>
        rw [answer] at failed returned
        cases result with
        | ok => exact absurd rfl failed
        | error why => exact ⟨m, m', why, started, answer⟩
        | panic => exact absurd rfl returned

theorem inert_flags_survive_reload :
    ∃ m₀ trace m m', (offline ⟨LoadBalancer.oneUpstream, []⟩).main
        { noFlags with listen := "127.0.0.1:2080", maxClients := 7, logFormat := "json" } "s5lb.yaml" =
        .ok m₀ ∧
      Exec (Manager.step noCluster) m₀ trace m ∧ trace.map Prod.snd = [.start] ∧
      m.reload noCluster (loadMultiFile (.ok ⟨LoadBalancer.oneUpstream, []⟩)) = (m', .ok) ∧
      m.Same m' := by
  obtain ⟨m₀, trace, m, started, exec, actions, -⟩ := exec_of_play_made (Manager.step noCluster)
    ((offline ⟨LoadBalancer.oneUpstream, []⟩).main
      { noFlags with listen := "127.0.0.1:2080", maxClients := 7, logFormat := "json" } "s5lb.yaml") id
    [.start] (fun _ _ _ => true) (by decide +kernel)
  have serving : Guarded Manager.Serving trace := by
    intro entry member
    have listed : entry.2 ∈ trace.map Prod.snd := List.mem_map_of_mem member
    rw [actions, List.mem_singleton] at listed
    rw [listed]
    trivial
  have inert : ∀ p ∈ MultiConfig.sections ⟨LoadBalancer.oneUpstream, []⟩ |>.zip m.groups,
      Flags.Inert { noFlags with listen := "127.0.0.1:2080", maxClients := 7, logFormat := "json" }
        LoadBalancer.oneUpstream p.1 ((m.entries.get p.2).lb.tracker.count ≠ 0) := by
    intro p member
    have alone : p.1 = none := by simpa [MultiConfig.sections] using (List.of_mem_zip member).1
    rw [alone]
    exact ⟨.inl le_rfl, .inl rfl, .inl rfl, .inr rfl, .inl rfl, .inl rfl,
      fun g absent => absurd absent.symm (Option.some_ne_none g)⟩
  have loaded : loadMultiFile (offline ⟨LoadBalancer.oneUpstream, []⟩).decoded =
      .ok ⟨LoadBalancer.oneUpstream, []⟩ := by decide +kernel
  obtain ⟨m', ran, same⟩ := (reload_same_file_iff (by decide) loaded started exec serving).2
    ⟨⟨_, rfl⟩, inert⟩
  exact ⟨m₀, trace, m, m', started, exec, actions, ran, same⟩

end Environment

end S5lb
