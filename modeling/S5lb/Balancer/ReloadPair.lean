import S5lb.Balancer.ReloadView
import S5lb.Lib.Transition

/-! Two reloads of one balancer at the same time. -/

namespace S5lb

open Transition

namespace ReloadPc

def uncommitted : ReloadPc → Bool
  | .published .. => true
  | _ => false

def awaitsGate : ReloadPc → Bool
  | .published _ _ newGate => newGate.isSome
  | .committed _ => true
  | _ => false

def succeeded : ReloadPc → Bool
  | .returned .ok => true
  | _ => false

theorem returned_of_succeeded {pc : ReloadPc} (succeeded : pc.succeeded = true) : pc = .returned .ok := by
  cases pc with
  | returned result => cases result <;> first | rfl | cases succeeded
  | called | built | gated | published | committed => cases succeeded

def abs : ReloadPc → Writers.Pc (BackpressureStrategy × Duration)
  | .called _ => .idle
  | .built oldCfg _ _ => .read oldCfg.admission
  | .gated _ _ newGate => .ready newGate.isSome
  | .published _ _ newGate => .published newGate.isSome
  | .committed _ => .committed
  | .returned .ok => .done
  | .returned _ => .failed

theorem abs_uncommitted (pc : ReloadPc) : pc.abs.uncommitted = pc.uncommitted := by
  cases pc with
  | returned result => cases result <;> rfl
  | _ => rfl

theorem abs_pending (pc : ReloadPc) : pc.abs.pending = pc.awaitsGate := by
  cases pc with
  | returned result => cases result <;> rfl
  | _ => rfl

end ReloadPc

structure PairSys where
  lb : LoadBalancer
  calls : Bool → ReloadPc
  published : List Bool
  committed : List Bool
  stored : List Bool

namespace PairSys

def init (lb : LoadBalancer) (raws : Bool → Config) : PairSys := ⟨lb, fun i => .called (raws i), [], [], []⟩

def after (s : PairSys) (i : Bool) (lb : LoadBalancer) (pc : ReloadPc) : PairSys where
  lb := lb
  calls := Function.update s.calls i pc
  published := match pc with
    | .published .. => s.published ++ [i]
    | _ => s.published
  committed := match s.calls i with
    | .published .. => s.committed ++ [i]
    | _ => s.committed
  stored := match s.calls i, pc with
    | .committed _, .returned .ok => s.stored ++ [i]
    | _, _ => s.stored

def step (client : KubeClient) (s : PairSys) (i : Bool) : Option PairSys :=
  (s.lb.reloadStep client (s.calls i)).map fun (lb, pc) => s.after i lb pc

def AgreesAt (s : PairSys) (i : Bool) : ReloadPc → Prop
  | .published newCfg _ newGate =>
      (s.published.getLast? = some i ∨ (s.calls (!i)).uncommitted = true) ∧
        (newGate = none → s.stored.getLast? = some (!i) → s.lb.currentGate = some (admissionNew newCfg))
  | .committed newGate =>
      s.lb.gates.get newGate = admissionNew s.lb.cfg ∨ (s.calls (!i)).awaitsGate = true
  | _ => True

/-- A call commits its config while the pool is its own or the other call, which has replaced the
pool, has still to commit; it leaves the gate that the other call has stored only if its config asks
for that one. It stores a gate only if the config in force asks for it or the other call has still to
store one. -/
def Agrees (s : PairSys) (i : Bool) : Prop := s.AgreesAt i (s.calls i)

instance (s : PairSys) (i : Bool) : (pc : ReloadPc) → Decidable (s.AgreesAt i pc)
  | .published .. => inferInstanceAs (Decidable (_ ∧ _))
  | .committed _ => inferInstanceAs (Decidable (_ ∨ _))
  | .called _ | .built .. | .gated .. | .returned _ => inferInstanceAs (Decidable True)

instance (s : PairSys) (i : Bool) : Decidable (s.Agrees i) :=
  inferInstanceAs (Decidable (s.AgreesAt i (s.calls i)))

def abs (s : PairSys) : Writers.State (BackpressureStrategy × Duration) :=
  ⟨ReloadPc.abs ∘ s.calls, s.published, s.committed, s.stored⟩

section

variable (base : LoadBalancer) (client : KubeClient) (raws : Bool → Config)

def filled (i : Bool) : Config := (raws i).validate.toOption.getD (raws i)

def plans (i : Bool) := base.plan client (filled raws i)

structure Tracks (type : GateType) (s : PairSys) : Prop where
  since : base.Since type s.lb
  calls : ∀ i, base.Call client (raws i) s.lb (s.calls i)
  cross : ∀ i, ∀ u ∈ (s.calls i).ups, ∀ v ∈ (s.calls (!i)).ups, u.state ≠ v.state
  typed : ∀ i ∈ s.stored, (base.planned (filled raws i)).backpressure.gateType = type
  view : base.view s.lb = Writers.cells (base.view base) (plans base client raws) s.abs

end

variable {base : LoadBalancer} {client : KubeClient} {raws : Bool → Config} {type : GateType}
  {s : PairSys} {i : Bool}

theorem filled_of_valid {cfg : Config} (valid : (raws i).validate = .ok cfg) : filled raws i = cfg := by
  simp [filled, valid, Except.toOption]

theorem tracks_init (client : KubeClient) (raws : Bool → Config) (formed : base.Formed) :
    ∃ type, base.Since type base ∧ Tracks base client raws type (init base raws) := by
  obtain ⟨type, since⟩ := formed.since
  exact ⟨type, since, since, fun _ => rfl, fun _ => nofun, nofun, rfl⟩

theorem step_cases {s' : PairSys} (taken : step client s i = some s') : ∃ lb pc,
    LoadBalancer.Reloads client s.lb (s.calls i) lb pc ∧ s' = s.after i lb pc := by
  obtain ⟨⟨lb, pc⟩, stepped, rfl⟩ := Option.map_eq_some_iff.1 taken
  exact ⟨lb, pc, LoadBalancer.reloads_of_reloadStep stepped, rfl⟩

theorem abs_after (s : PairSys) (i : Bool) (lb : LoadBalancer) (pc : ReloadPc) :
    (s.after i lb pc).abs = { s.abs.set i pc.abs with
      published := (s.after i lb pc).published
      committed := (s.after i lb pc).committed
      stored := (s.after i lb pc).stored } := by
  simp only [abs, after, Writers.State.set, Function.comp_update]

/-- Each section is a step of the writers of the library. -/
theorem abs_step (tracks : Tracks base client raws type s) {lb : LoadBalancer} {pc : ReloadPc}
    (moved : LoadBalancer.Reloads client s.lb (s.calls i) lb pc) :
    Writers.Step LoadBalancer.gateKey (base.view base) (plans base client raws) s.abs i
      (s.after i lb pc).abs := by
  have call := tracks.calls i
  rw [abs_after]
  simp only [after]
  generalize here : s.calls i = place at moved call
  have at_ : s.abs.pc i = place.abs := congrArg ReloadPc.abs here
  cases moved with
  | refused => exact .fail
  | stopped => exact .fail
  | panicked stored => exact .fail
  | built valid made =>
      have read : s.lb.cfg.admission = LoadBalancer.gateKey (Writers.cells (base.view base)
          (plans base client raws) s.abs).second := by
        rw [← tracks.view]
        rfl
      simp only [ReloadPc.abs, read]
      exact .read at_
  | @counted oldCfg _ _ _ _ _ counted =>
      obtain ⟨cfg, valid, kin, rfl, -⟩ := call
      have decided : LoadBalancer.Counted base s.lb oldCfg cfg _ :=
        counted ▸ LoadBalancer.counted_of_countSection tracks.since.tracker kin
      obtain ⟨-, -, needed⟩ := LoadBalancer.counted_ready tracks.since.gates decided
      rw [← filled_of_valid valid] at needed
      exact .choose at_ needed
  | published dialed replaced => exact .publish at_
  | applied => exact .commit at_
  | committed => exact .commit at_
  | swapped stored => exact .store at_

theorem cells_after {lb : LoadBalancer} {pc : ReloadPc}
    (moved : LoadBalancer.Reloads client s.lb (s.calls i) lb pc) :
    Writers.cells (base.view base) (plans base client raws) (s.after i lb pc).abs =
      (s.calls i).writes (plans base client raws i)
        (Writers.cells (base.view base) (plans base client raws) s.abs) pc := by
  simp only [abs, after]
  generalize s.calls i = place at moved
  cases moved with
  | refused | stopped | panicked | built | counted => rfl
  | published => simp [ReloadPc.writes, Writers.cells]
  | applied | committed => simp [ReloadPc.writes, Writers.cells]
  | swapped => simp [ReloadPc.writes, Writers.cells]

theorem Tracks.typed_step (tracks : Tracks base client raws type s) {lb : LoadBalancer} {pc : ReloadPc}
    (since : base.Since type lb) (moved : LoadBalancer.Reloads client s.lb (s.calls i) lb pc) :
    ∀ k ∈ (s.after i lb pc).stored, (base.planned (filled raws k)).backpressure.gateType = type := by
  have call := tracks.calls i
  simp only [after]
  generalize s.calls i = place at moved call
  cases moved with
  | refused | stopped | panicked | built | counted | published | applied | committed => exact tracks.typed
  | swapped stored =>
      obtain ⟨-, cfg, valid, gate⟩ := call
      obtain ⟨g, here, -, same⟩ := since.gate
      cases here.symm.trans (Go.AtomicValue.stored_of_store stored)
      rw [(gate _ rfl).2.2, ← filled_of_valid valid] at same
      intro k member
      rcases List.mem_append.1 member with member | member
      · exact tracks.typed k member
      · cases List.mem_singleton.1 member
        exact same

theorem Tracks.step (tracks : Tracks base client raws type s) {lb : LoadBalancer} {pc : ReloadPc}
    (moved : LoadBalancer.Reloads client s.lb (s.calls i) lb pc) :
    Tracks base client raws type (s.after i lb pc) := by
  have grown := LoadBalancer.grown_of_reloads moved
  obtain ⟨since, call⟩ := tracks.since.step (tracks.calls i) moved
  have mine : (s.after i lb pc).calls i = pc := by simp [after]
  have theirs : (s.after i lb pc).calls (!i) = s.calls (!i) := by simp [after]
  have apart : ∀ u ∈ pc.ups, ∀ v ∈ (s.calls (!i)).ups, u.state ≠ v.state := by
    intro u memberU v memberV same
    rcases LoadBalancer.ups_of_reloads moved u memberU with old | new
    · exact tracks.cross i u old v memberV same
    · exact absurd ((tracks.calls (!i)).ups_lt v memberV) (not_lt.2 (same ▸ new))
  refine ⟨since, Writers.forall_bool i ?_ ?_, Writers.forall_bool i ?_ ?_, tracks.typed_step since moved,
    ?_⟩
  · rw [mine]
    exact call
  · rw [theirs]
    refine (tracks.calls (!i)).grown grown fun u memberU v memberV same => ?_
    exact tracks.cross i v memberV u memberU same.symm
  · rw [mine, theirs]
    exact apart
  · rw [Bool.not_not, mine, theirs]
    exact fun v memberV u memberU same => apart u memberU v memberV same.symm
  · rw [cells_after moved, ← tracks.view]
    exact LoadBalancer.view_of_reloads tracks.since (tracks.calls i) (fun _ valid => filled_of_valid valid)
      moved

theorem Tracks.current (tracks : Tracks base client raws type s) {k : Bool}
    (last : s.stored.getLast? = some k) :
    s.lb.currentGate = some (admissionNew (base.planned (filled raws k))) := by
  have third := congrArg Writers.Cells.third tracks.view
  simp only [LoadBalancer.view, Writers.cells, abs, last, Option.map_some, Option.getD_some, plans,
    LoadBalancer.plan, Option.map_eq_some_iff, Prod.mk.injEq] at third
  obtain ⟨g, stored, -, same⟩ := third
  simp [LoadBalancer.currentGate, stored, same]

theorem Tracks.cfg (tracks : Tracks base client raws type s) {k : Bool}
    (last : s.committed.getLast? = some k) : s.lb.cfg = base.planned (filled raws k) := by
  have second := congrArg (fun view => view.second.1) tracks.view
  simp only [LoadBalancer.view, Writers.cells, abs, last] at second
  exact second

theorem exists_getLast {l : List Bool} (member : i ∈ l) : ∃ k, l.getLast? = some k := by
  refine Option.isSome_iff_exists.1 ?_
  simpa using List.ne_nil_of_mem member

theorem Tracks.agrees (tracks : Tracks base client raws type s) (agrees : s.Agrees i)
    (core : Writers.Core LoadBalancer.gateKey (base.view base) (plans base client raws) s.abs) :
    Writers.Agrees (plans base client raws) s.abs i := by
  have call := tracks.calls i
  have committed : (s.calls i).abs.hasCommitted = true → i ∈ s.committed := (core.own i).committed.2
  have pending : (s.abs.pc (!i)).pending = (s.calls (!i)).awaitsGate := ReloadPc.abs_pending _
  have uncommitted : (s.abs.pc (!i)).uncommitted = (s.calls (!i)).uncommitted :=
    ReloadPc.abs_uncommitted _
  have place : s.abs.pc i = (s.calls i).abs := rfl
  rw [Agrees] at agrees
  rw [Writers.Agrees, pending, uncommitted, place]
  generalize s.calls i = pc at call committed agrees
  cases pc with
  | called | built | gated => trivial
  | returned result => cases result <;> trivial
  | published newCfg dialer newGate =>
      obtain ⟨cfg, valid, rfl, -⟩ := call
      refine ⟨agrees.1, fun unneeded last => ?_⟩
      have same := (tracks.current last).symm.trans (agrees.2 (by simpa using unneeded) last)
      rw [← filled_of_valid valid] at same
      simp only [plans, LoadBalancer.plan, Option.some.inj same]
  | committed g =>
      obtain ⟨-, cfg, valid, gate⟩ := call
      refine agrees.imp_left fun fits => ?_
      obtain ⟨last, here⟩ := exists_getLast (committed rfl)
      rw [(gate g rfl).2.2, tracks.cfg here, ← filled_of_valid valid] at fits
      exact ⟨last, here, by simp only [plans, LoadBalancer.plan, fits]⟩

theorem plans_law (same : LoadBalancer.gateKey (plans base client raws true).second =
      LoadBalancer.gateKey (plans base client raws false).second) :
    (plans base client raws true).third = (plans base client raws false).third := by
  have clients := fun k => base.planned_maxClients (filled raws k)
  have fits : admissionNew (base.planned (filled raws true)) = admissionNew (base.planned (filled raws false)) :=
    LoadBalancer.admissionNew_congr ((clients true).trans (clients false).symm)
      fun needed => Config.newGateNeeded_iff.1 needed same
  simp only [plans, LoadBalancer.plan, fits]

theorem Tracks.formed (tracks : Tracks base client raws type s) : s.lb.Formed := by
  obtain ⟨g, stored, bound, -⟩ := tracks.since.gate
  exact ⟨tracks.since.pooled, tracks.since.apart, g, stored, bound⟩

theorem tracks_of_exec (formed : base.Formed) {trace : List (PairSys × Bool)}
    (exec : Exec (step client) (init base raws) trace s) :
    ∃ type, base.Since type base ∧ Tracks base client raws type s := by
  obtain ⟨type, since, start⟩ := tracks_init client raws formed
  refine ⟨type, since, exec.stable (P := Tracks base client raws type) start fun s i s' tracks taken => ?_⟩
  obtain ⟨lb, pc, moved, rfl⟩ := step_cases taken
  exact tracks.step moved

theorem formed_of_exec (formed : base.Formed) {trace : List (PairSys × Bool)}
    (exec : Exec (step client) (init base raws) trace s) : s.lb.Formed := by
  obtain ⟨type, -, tracks⟩ := tracks_of_exec formed exec
  exact tracks.formed

theorem sound_of_exec (formed : base.Formed) {trace : List (PairSys × Bool)}
    (exec : Exec (step client) (init base raws) trace s) (guarded : Guarded Agrees trace) :
    Writers.Sound LoadBalancer.gateKey (base.view base) (plans base client raws) s.abs := by
  refine exec.invariant (P := fun _ s => Writers.Sound LoadBalancer.gateKey (base.view base)
    (plans base client raws) s.abs) (Writers.sound_init _ _ _) ?_ guarded
  intro trace s i s' exec sound agrees taken
  obtain ⟨type, -, tracks⟩ := tracks_of_exec formed exec
  obtain ⟨lb, pc, moved, rfl⟩ := step_cases taken
  refine sound.step (fun failed => ?_) (tracks.agrees agrees) (abs_step tracks moved)
  have place : (s.calls i).abs = .failed := failed
  generalize s.calls i = pc₀ at moved place
  cases moved <;> cases place

theorem Tracks.type_of_third (tracks : Tracks base client raws type s)
    (third : (base.view s.lb).third = (plans base client raws i).third) :
    (base.planned (filled raws i)).backpressure.gateType = type := by
  obtain ⟨g, stored, -, same⟩ := tracks.since.gate
  simp only [LoadBalancer.view, stored, Option.map_some, plans, LoadBalancer.plan, Option.some.injEq,
    Prod.mk.injEq] at third
  rw [third.2] at same
  exact same

structure InForce (client : KubeClient) (raw : Config) (lb : LoadBalancer) : Prop where
  upstreams : (lb.pool.upstreams.map (·.id)).Perm (raw.upstreams.map UpstreamSpec.upstreamID)
  maxPerProxy : lb.cfg.maxPerProxy = raw.maxPerProxy
  dialer : ∃ filled, raw.validate = .ok filled ∧ newFromConfig client filled = .ok lb.dialer

theorem inForce_of_view {raw cfg : Config} {lb : LoadBalancer} {before : LoadBalancer.View}
    (fit : raw.Committable client) (valid : raw.validate = .ok cfg)
    (view : base.view lb = Writers.land LoadBalancer.gateKey before (base.plan client cfg)) :
    InForce client raw lb := by
  obtain ⟨cfg', valid', ⟨dialer, dials⟩, -⟩ := fit
  cases valid.symm.trans valid'
  obtain ⟨transport, rfl⟩ := (Config.checked_of_validate valid).filled
  have second := congrArg Writers.Cells.second view
  simp only [LoadBalancer.view, Writers.land, LoadBalancer.plan, dials, Except.toOption, Option.getD_some,
    Prod.mk.injEq] at second
  refine ⟨?_, ?_, _, valid, second.2 ▸ dials⟩
  · have ids := LoadBalancer.plan_ids base client { raw with transport } before.first
    have first := congrArg (fun view => view.first.map (·.1.id)) view
    simp only [LoadBalancer.view, List.map_map, Writers.land] at first
    rw [← first] at ids
    exact ids
  · rw [second.1, LoadBalancer.planned]
    split <;> rfl

def inTurn (client : KubeClient) (lb : LoadBalancer) (first second : Config) : LoadBalancer :=
  ((lb.reloadFromConfig client first).1.reloadFromConfig client second).1

structure Serial (client : KubeClient) (lb : LoadBalancer) (raws : Bool → Config) (s : PairSys)
    (i : Bool) : Prop where
  first : (lb.reloadFromConfig client (raws i)).2 = .ok
  second : ((lb.reloadFromConfig client (raws i)).1.reloadFromConfig client (raws (!i))).2 = .ok
  view : lb.view s.lb = lb.view (inTurn client lb (raws i) (raws (!i)))
  apart : (s.lb.pool.upstreams.map (·.state)).Nodup ∧
    ((inTurn client lb (raws i) (raws (!i))).pool.upstreams.map (·.state)).Nodup

/-- If two reloads both succeed, and every step met the condition, then what they leave in force is what
they leave when one runs after the other, and all of it comes from one config. -/
theorem reloads_serialise {lb : LoadBalancer} (formed : lb.Formed) {trace : List (PairSys × Bool)}
    (exec : Exec (step client) (init lb raws) trace s) (guarded : Guarded Agrees trace)
    (returned : ∀ i, s.calls i = .returned .ok) :
    ∃ i, Serial client lb raws s i ∧ InForce client (raws (!i)) s.lb := by
  obtain ⟨type, since, tracks⟩ := tracks_of_exec formed exec
  have done : ∀ i, s.abs.pc i = .done := fun i => congrArg ReloadPc.abs (returned i)
  have core := sound_of_exec formed exec guarded fun i failed => by cases (done i).symm.trans failed
  have fit : ∀ i, (raws i).Committable client := fun i => by
    have call := tracks.calls i
    rwa [returned i] at call
  have valid : ∀ i, (raws i).validate = .ok (filled raws i) := fun i => by
    obtain ⟨cfg, valid, -⟩ := fit i
    rw [valid, filled_of_valid valid]
  obtain ⟨i, order, cells⟩ := core.serial done plans_law
  rw [← tracks.view] at cells
  have first : (lb.reloadFromConfig client (raws (!i))).2 = .ok := by
    refine LoadBalancer.reload_returns since (fit (!i)) (valid (!i)) fun differs => ?_
    exact tracks.typed (!i) (core.stored_first done order differs.symm)
  obtain ⟨since₁, view₁⟩ := LoadBalancer.reload_lands since (valid (!i)) first
  have second : ((lb.reloadFromConfig client (raws (!i))).1.reloadFromConfig client (raws i)).2 = .ok := by
    refine LoadBalancer.reload_returns since₁ (fit i) (valid i) fun differs => tracks.type_of_third ?_
    have key : (lb.reloadFromConfig client (raws (!i))).1.cfg.admission =
        LoadBalancer.gateKey (plans lb client raws (!i)).second :=
      congrArg (fun view : LoadBalancer.View => LoadBalancer.gateKey view.second) view₁
    rw [key] at differs
    exact (congrArg Writers.Cells.third cells).trans (if_neg differs)
  obtain ⟨since₂, view₂⟩ := LoadBalancer.reload_lands since₁ (valid i) second
  refine ⟨!i, ⟨first, ?_, ?_, tracks.since.apart, ?_⟩, ?_⟩
  · rwa [Bool.not_not]
  · rw [Bool.not_not, cells, inTurn, view₂, view₁]
    rfl
  · rw [Bool.not_not]
    exact since₂.apart
  · rw [Bool.not_not]
    exact inForce_of_view (fit i) (valid i) cells

def moved (wait : Duration) : Config :=
  { LoadBalancer.oneUpstream with
    maxPerProxy := 2
    admissionWaitTimeout := wait
    upstreams := [⟨"b", "10.0.0.2", 1080, "", "", 1, 0⟩] }

def oneAndMoved (wait : Duration) (i : Bool) : Config := if i then moved wait else LoadBalancer.oneUpstream

theorem returned_of_both {s : PairSys} (first : (s.calls false).succeeded = true)
    (second : (s.calls true).succeeded = true) : ∀ i, s.calls i = .returned .ok :=
  Writers.forall_bool false (ReloadPc.returned_of_succeeded first) (ReloadPc.returned_of_succeeded second)

/-- Both have replaced the pool when the second commits, and the first after it: the upstreams are those
of the second config, under the limit of the first. -/
theorem commits_cross :
    let raws := oneAndMoved defaults.admissionWaitTimeout
    ∃ lb trace s, LoadBalancer.Initial lb ∧ Exec (step noCluster) (init lb raws) trace s ∧
      trace.map Prod.snd = [false, false, false, true, true, true, true, false] ∧
      (∀ i, s.calls i = .returned .ok) ∧ s.lb.pool.upstreams.map (·.id) = ["b"] ∧
      s.lb.cfg.maxPerProxy = 1 ∧
      ∀ i, lb.view s.lb ≠ lb.view (inTurn noCluster lb (raws i) (raws (!i))) := by
  intro raws
  obtain ⟨lb, trace, s, started, exec, actions, passed⟩ := exec_of_play_made (step noCluster)
    (LoadBalancer.start LoadBalancer.oneUpstream)
    (fun lb => init lb (oneAndMoved defaults.admissionWaitTimeout))
    [false, false, false, true, true, true, true, false]
    (fun lb _ s => ((s.calls false).succeeded && (s.calls true).succeeded) &&
      decide (s.lb.pool.upstreams.map (·.id) = ["b"] ∧ s.lb.cfg.maxPerProxy = 1 ∧
        (inTurn noCluster lb (oneAndMoved defaults.admissionWaitTimeout false)
          (oneAndMoved defaults.admissionWaitTimeout true)).cfg.maxPerProxy = 2 ∧
        (inTurn noCluster lb (oneAndMoved defaults.admissionWaitTimeout true)
          (oneAndMoved defaults.admissionWaitTimeout false)).pool.upstreams.map (·.id) = ["a"]))
    (by decide +kernel)
  obtain ⟨both, facts⟩ := Bool.and_eq_true_iff.1 passed
  obtain ⟨first, second⟩ := Bool.and_eq_true_iff.1 both
  obtain ⟨upstreams, limit, limitSerial, upstreamsSerial⟩ := of_decide_eq_true facts
  refine ⟨lb, trace, s, ⟨_, lb, lb.dialer, started, rfl⟩, exec, actions, returned_of_both first second,
    upstreams, limit, Writers.forall_bool false (fun same => ?_) (fun same => ?_)⟩
  · have cfg := congrArg (fun view : LoadBalancer.View => view.second.1.maxPerProxy) same
    cases limit.symm.trans (cfg.trans limitSerial)
  · have ids := congrArg (fun view : LoadBalancer.View => view.first.map (·.1.id)) same
    simp only [LoadBalancer.view, List.map_map] at ids
    exact absurd (upstreams.symm.trans (ids.trans upstreamsSerial)) (by decide)

/-- The same two replacements of the pool, with the commits in their order, and a gate to follow. -/
theorem reloads_serialise_in_order :
    ∃ lb trace s, LoadBalancer.Initial lb ∧
      Exec (step noCluster) (init lb (oneAndMoved 0)) trace s ∧ Guarded Agrees trace ∧
      trace.map Prod.snd = [false, false, false, true, true, true, false, true, true] ∧
      s.stored = [true] ∧ (∀ i, s.calls i = .returned .ok) ∧
      ∃ i, Serial noCluster lb (oneAndMoved 0) s i ∧ InForce noCluster (oneAndMoved 0 (!i)) s.lb := by
  obtain ⟨lb, trace, s, started, exec, actions, passed⟩ := exec_of_play_made (step noCluster)
    (LoadBalancer.start LoadBalancer.oneUpstream) (fun lb => init lb (oneAndMoved 0))
    [false, false, false, true, true, true, false, true, true]
    (fun _ trace s => (trace.all fun entry => decide (entry.1.Agrees entry.2)) &&
      (((s.calls false).succeeded && (s.calls true).succeeded) && decide (s.stored = [true])))
    (by decide +kernel)
  obtain ⟨tested, facts⟩ := Bool.and_eq_true_iff.1 passed
  obtain ⟨both, stored⟩ := Bool.and_eq_true_iff.1 facts
  obtain ⟨first, second⟩ := Bool.and_eq_true_iff.1 both
  have initial : lb.Initial := ⟨_, lb, lb.dialer, started, rfl⟩
  have guarded : Guarded Agrees trace := fun entry member =>
    of_decide_eq_true (List.all_eq_true.1 tested entry member)
  have returned := returned_of_both first second
  exact ⟨lb, trace, s, initial, exec, guarded, actions, of_decide_eq_true stored, returned,
    reloads_serialise (LoadBalancer.formed_of_initial initial) exec guarded returned⟩

end PairSys

end S5lb
