import S5lb.Balancer.Serve
import S5lb.Lib.Ledger

namespace S5lb

open Transition Ledger

namespace ServePc

def gate : ServePc → Option GateRef
  | .acquiring g _ | .admitted g | .tracked g _ | .counted g _ => some g
  | _ => none

def token (g : GateRef) : ServePc → Nat
  | .acquiring h pc => if h = g then pc.holds.toNat else 0
  | .admitted h | .tracked h _ | .counted h _ => if h = g then 1 else 0
  | _ => 0

theorem token_of_ne {pc : ServePc} {g : GateRef} (other : pc.gate ≠ some g) : pc.token g = 0 := by
  cases pc <;> simp_all [gate, token]

end ServePc

def SessionPc.holds : SessionPc → Bool
  | .handling | .handled | .untracked => true
  | _ => false

def SessionThread.token (g : GateRef) (t : SessionThread) : Nat :=
  if t.gate = g then t.pc.holds.toNat else 0

def ReloadPc.Keeps (limit : Int) (next : GateRef) : ReloadPc → Prop
  | .called _ | .returned _ => True
  | .built oldCfg newCfg _ => oldCfg.maxClients = limit ∧ newCfg.maxClients = limit
  | .gated newCfg _ gate | .published newCfg _ gate => newCfg.maxClients = limit ∧ ∀ g ∈ gate, g < next
  | .committed g => g < next

theorem ReloadPc.Keeps.mono {limit : Int} {next next' : GateRef} {pc : ReloadPc}
    (keeps : pc.Keeps limit next) (le : next ≤ next') : pc.Keeps limit next' := by
  cases pc with
  | called | returned => trivial
  | built => exact keeps
  | gated | published => exact ⟨keeps.1, fun g member => (keeps.2 g member).trans_le le⟩
  | committed g => exact lt_of_lt_of_le keeps le

namespace ServeSys

def holders (s : ServeSys) (g : GateRef) : Nat :=
  s.serve.token g + total (SessionThread.token g) s.sessions

structure GateBounded (limit : Int) (holders : Nat) (gate : Gate) : Prop where
  cap : gate.cap = limit
  slots : gate.slots = holders
  room : (gate.slots : Int) ≤ limit

structure Bounded (limit : Int) (s : ServeSys) : Prop where
  gates : ∀ g < s.lb.gates.next, GateBounded limit (s.holders g) (s.lb.gates.get g)
  stored : ∀ g, s.lb.gateVal.stored = some g → g < s.lb.gates.next
  serve : ∀ g, s.serve.gate = some g → s.lb.gateVal.stored = some g
  known : ∀ t ∈ s.sessions, t.gate < s.lb.gates.next
  running : ∀ t ∈ s.sessions, t.pc = .handling → s.lb.gateVal.stored = some t.gate
  cfg : s.lb.cfg.maxClients = limit
  reloads : ∀ pc ∈ s.reloads, pc.Keeps limit s.lb.gates.next

theorem Waits.token_eq {s : ServeSys} {pc : ServePc} (moved : s.Waits pc) (g : GateRef) :
    pc.token g = s.serve.token g := by
  cases moved <;> simp [ServePc.token, AcquirePc.holds, *]

theorem Waits.gate_eq {s : ServeSys} {pc : ServePc} (moved : s.Waits pc) {g : GateRef}
    (gate : pc.gate = some g) : s.serve.gate = some g ∨ s.lb.gateVal.stored = some g := by
  cases moved with
  | load here stored =>
      cases gate
      exact .inr stored
  | enter here admitted =>
      cases gate
      rw [here]
      exact .inl rfl
  | _ => cases gate

theorem Bounded.place {limit : Int} {s s' : ServeSys} (bounded : s.Bounded limit)
    (gates : s'.lb.gates = s.lb.gates) (gateVal : s'.lb.gateVal = s.lb.gateVal)
    (cfg : s'.lb.cfg.maxClients = s.lb.cfg.maxClients) (sessions : s'.sessions = s.sessions)
    (reloads : s'.reloads = s.reloads) (token : ∀ g, s'.serve.token g = s.serve.token g)
    (gate : ∀ g, s'.serve.gate = some g → s.serve.gate = some g ∨ s.lb.gateVal.stored = some g) :
    s'.Bounded limit := by
  refine ⟨fun g below => ?_, ?_, fun g loaded => ?_, ?_, ?_, ?_, ?_⟩
  · rw [gates] at below ⊢
    rw [holders, token, sessions]
    exact bounded.gates g below
  · rw [gateVal, gates]
    exact bounded.stored
  · rw [gateVal]
    exact (gate g loaded).elim (bounded.serve g) id
  · rw [sessions, gates]
    exact bounded.known
  · rw [sessions, gateVal]
    exact bounded.running
  · rw [cfg]
    exact bounded.cfg
  · rw [reloads, gates]
    exact bounded.reloads

theorem bounded_acquire {limit : Int} {s : ServeSys} (bounded : s.Bounded limit) {g : GateRef}
    {pc pc' : AcquirePc} {gate : Gate} (here : s.serve = .acquiring g pc)
    (acquired : (s.lb.gates.get g).Acquired pc gate pc') :
    Bounded limit { s.setGateAt g gate with serve := .acquiring g pc' } := by
  have stored := bounded.serve g (by rw [here]; rfl)
  have before := bounded.gates g (bounded.stored g stored)
  refine ⟨fun h below => ?_, bounded.stored, ?_, bounded.known, bounded.running, bounded.cfg,
    bounded.reloads⟩
  · have other := bounded.gates h below
    simp only [holders, here, ServePc.token] at before other
    simp only [setGateAt, Heap.get_set, holders, ServePc.token]
    by_cases same : h = g
    · subst same
      simp only [if_true] at before ⊢
      have tokens := acquired.slots
      have slots := before.slots
      have cap := acquired.cap.trans before.cap
      have room := acquired.room
      rw [cap, before.cap] at room
      exact ⟨cap, by omega, room before.room⟩
    · rw [if_neg (Ne.symm same)] at other ⊢
      rw [if_neg same]
      exact other
  · rintro _ ⟨⟩
    exact stored

theorem Bounded.serves {limit : Int} {s s' : ServeSys} (bounded : s.Bounded limit)
    (moved : s.Serves s') : s'.Bounded limit := by
  cases moved with
  | waits moved =>
      exact bounded.place rfl rfl rfl rfl rfl moved.token_eq fun g loaded => moved.gate_eq loaded
  | bind here | probe here | watch here =>
      refine bounded.place rfl rfl rfl rfl rfl (fun g => ?_) nofun
      rw [here]
      rfl
  | acquire here acquired => exact bounded_acquire bounded here acquired
  | track here | count here =>
      refine bounded.place rfl rfl rfl rfl rfl (fun g => ?_) (fun g loaded => ?_)
      · rw [here]
        rfl
      · cases loaded
        rw [here]
        exact .inl rfl
  | @go g sess here =>
      have stored := bounded.serve g (by rw [here]; rfl)
      refine ⟨fun h below => ?_, bounded.stored, nofun, fun t member => ?_, fun t member running => ?_,
        bounded.cfg, bounded.reloads⟩
      · have before := bounded.gates h below
        have same : ServeSys.holders
            { s with sessions := s.sessions ++ [⟨sess, g, .handling⟩], serve := .accepting } h =
            s.holders h := by
          simp only [holders, here, ServePc.token, total_snoc, SessionThread.token, SessionPc.holds,
            Bool.toNat_true]
          omega
        rw [same]
        exact before
      · rcases List.mem_append.1 member with earlier | last
        · exact bounded.known t earlier
        · cases List.mem_singleton.1 last
          exact bounded.stored g stored
      · rcases List.mem_append.1 member with earlier | last
        · exact bounded.running t earlier running
        · cases List.mem_singleton.1 last
          exact stored

theorem Bounded.put {limit : Int} {s s' : ServeSys} (bounded : s.Bounded limit) {i : Nat}
    {t : SessionThread} {pc : SessionPc} {gate : Gate} (here : s.sessions[i]? = some t)
    (sessions : s'.sessions = s.sessions.set i { t with pc }) (past : pc ≠ .handling)
    (next : s'.lb.gates.next = s.lb.gates.next)
    (get : ∀ g, s'.lb.gates.get g = if g = t.gate then gate else s.lb.gates.get g)
    (cap : gate.cap = (s.lb.gates.get t.gate).cap)
    (slots : gate.slots + t.pc.holds.toNat = (s.lb.gates.get t.gate).slots + pc.holds.toNat)
    (less : pc.holds.toNat ≤ t.pc.holds.toNat) (gateVal : s'.lb.gateVal = s.lb.gateVal)
    (cfg : s'.lb.cfg = s.lb.cfg) (serve : s'.serve = s.serve) (reloads : s'.reloads = s.reloads) :
    s'.Bounded limit := by
  have cases' : ∀ u ∈ s'.sessions, u = { t with pc } ∨ u ∈ s.sessions := by
    intro u member
    rw [sessions] at member
    exact (List.mem_or_eq_of_mem_set member).symm
  refine ⟨fun g below => ?_, ?_, ?_, fun u member => ?_, fun u member running => ?_, ?_, ?_⟩
  · rw [next] at below
    have before := bounded.gates g below
    have moved := total_set (SessionThread.token g) here { t with pc }
    have tokens := before.slots
    rw [get, holders, serve, sessions]
    simp only [holders] at tokens
    by_cases same : g = t.gate
    · subst same
      simp only [SessionThread.token, if_true] at moved tokens ⊢
      have room := before.room
      exact ⟨cap.trans before.cap, by omega, by omega⟩
    · simp only [SessionThread.token, if_neg (Ne.symm same)] at moved tokens
      rw [if_neg same]
      exact ⟨before.cap, by omega, before.room⟩
  · rw [gateVal, next]
    exact bounded.stored
  · rw [serve, gateVal]
    exact bounded.serve
  · rw [next]
    rcases cases' u member with rfl | earlier
    · exact bounded.known t (List.mem_of_getElem? here)
    · exact bounded.known u earlier
  · rw [gateVal]
    rcases cases' u member with rfl | earlier
    · exact absurd running past
    · exact bounded.running u earlier running
  · rw [cfg]
    exact bounded.cfg
  · rw [reloads, next]
    exact bounded.reloads

theorem Bounded.ends {limit : Int} {s s' : ServeSys} (bounded : s.Bounded limit) {i : Nat}
    {t : SessionThread} (here : s.sessions[i]? = some t) (moved : s.Ends i t s') : s'.Bounded limit := by
  have unmoved : ∀ g, s.lb.gates.get g =
      if g = t.gate then s.lb.gates.get t.gate else s.lb.gates.get g := by
    intro g
    split <;> simp [*]
  have positive : t.pc = .untracked → 0 < (s.lb.gates.get t.gate).slots := by
    intro place
    have member := List.mem_of_getElem? here
    have holds : SessionThread.token t.gate t ≤ total (SessionThread.token t.gate) s.sessions :=
      le_total member
    have slots := (bounded.gates t.gate (bounded.known t member)).slots
    simp only [SessionThread.token, place, SessionPc.holds, if_true, Bool.toNat_true] at holds
    simp only [holders] at slots
    omega
  cases moved with
  | handled place =>
      exact bounded.put here rfl (by simp) rfl unmoved rfl (by rw [place]; rfl) (by rw [place]; decide) rfl rfl
        rfl rfl
  | untrack place =>
      exact bounded.put here rfl (by simp) rfl unmoved rfl (by rw [place]; rfl) (by rw [place]; decide) rfl rfl
        rfl rfl
  | takeOut place cap slots =>
      refine bounded.put here rfl (by simp) rfl (fun g => Heap.get_set _ _ _ _) cap ?_ (by rw [place]; decide)
        rfl rfl rfl rfl
      rw [place]
      exact slots
  | swallow place empty => exact absurd (positive place) (by omega)
  | countOut place =>
      exact bounded.put here rfl (by simp) rfl (fun g => Heap.get_set _ _ _ _) rfl (by rw [place]; rfl)
        (by rw [place]; decide) rfl rfl rfl rfl
  | done place =>
      exact bounded.put here rfl (by simp) rfl unmoved rfl (by rw [place]; rfl) (by rw [place]; decide) rfl rfl
        rfl rfl

def swaps (s : ServeSys) : ServeAction → Bool
  | .reloadStep i =>
      match s.reloads[i]? with
      | some (.committed _) => true
      | _ => false
  | _ => false

/-- A reload stores its gate only while no session runs and the accept loop has no gate in its
hands. -/
def SwapsIdle (s : ServeSys) (action : ServeAction) : Prop :=
  s.swaps action = true → s.serve.gate = none ∧ ∀ t ∈ s.sessions, t.pc ≠ .handling

instance (s : ServeSys) (action : ServeAction) : Decidable (s.SwapsIdle action) :=
  inferInstanceAs (Decidable (_ → _))

theorem Bounded.holders_fresh {limit : Int} {s : ServeSys} (bounded : s.Bounded limit) :
    s.holders s.lb.gates.next = 0 := by
  have unserved : s.serve.token s.lb.gates.next = 0 := by
    refine ServePc.token_of_ne fun loaded => ?_
    exact absurd (bounded.stored _ (bounded.serve _ loaded)) (Nat.lt_irrefl _)
  rw [holders, unserved, Nat.zero_add]
  refine total_eq_zero fun t member => ?_
  exact if_neg (bounded.known t member).ne

theorem countSection_cases {lb : LoadBalancer} {oldCfg newCfg newCfg' : Config}
    {newGate : Option GateRef} {gates : Heap Gate}
    (counted : lb.countSection oldCfg newCfg = (newCfg', newGate, gates)) :
    newCfg'.maxClients = newCfg.maxClients ∧
      (newGate = none ∧ gates = lb.gates ∨
        newGate = some lb.gates.next ∧ gates = (lb.gates.alloc (admissionNew newCfg)).2) := by
  unfold LoadBalancer.countSection at counted
  split at counted
  · split at counted
    · cases counted
      exact ⟨rfl, .inl ⟨rfl, rfl⟩⟩
    · cases counted
      exact ⟨rfl, .inr ⟨rfl, rfl⟩⟩
  · cases counted
    exact ⟨rfl, .inl ⟨rfl, rfl⟩⟩

theorem Bounded.alloc {limit : Int} {s : ServeSys} (bounded : s.Bounded limit) {newCfg : Config}
    (same : newCfg.maxClients = limit) (positive : 0 ≤ limit) :
    Bounded limit
      { s with lb := { s.lb with gates := (s.lb.gates.alloc (admissionNew newCfg)).2 } } := by
  have later : ∀ g, g < s.lb.gates.next → g < (s.lb.gates.alloc (admissionNew newCfg)).2.next :=
    fun g below => Nat.lt_succ_of_lt below
  refine ⟨fun g below => ?_, fun g held => later g (bounded.stored g held), bounded.serve,
    fun t member => later _ (bounded.known t member), bounded.running, bounded.cfg,
    fun pc member => (bounded.reloads pc member).mono (Nat.le_succ _)⟩
  dsimp only
  rw [Heap.get_alloc]
  rcases Nat.eq_or_lt_of_le (Nat.le_of_lt_succ below) with rfl | old
  · rw [if_pos rfl]
    exact ⟨same, bounded.holders_fresh.symm, positive⟩
  · rw [if_neg old.ne]
    exact bounded.gates g old

theorem Bounded.setBalancer {limit : Int} {s : ServeSys} (bounded : s.Bounded limit)
    {lb : LoadBalancer} (gates : lb.gates = s.lb.gates) (gateVal : lb.gateVal = s.lb.gateVal)
    (cfg : lb.cfg.maxClients = limit) : Bounded limit { s with lb } :=
  bounded.place gates gateVal (cfg.trans bounded.cfg.symm) rfl rfl (fun _ => rfl) fun _ => .inl

theorem Bounded.setReload {limit : Int} {s : ServeSys} {lb : LoadBalancer}
    (bounded : Bounded limit { s with lb }) {i : Nat} {pc : ReloadPc}
    (keeps : pc.Keeps limit lb.gates.next) :
    Bounded limit { s with lb, reloads := s.reloads.set i pc } := by
  refine ⟨bounded.gates, bounded.stored, bounded.serve, bounded.known, bounded.running, bounded.cfg,
    fun pc' member => ?_⟩
  rcases List.mem_or_eq_of_mem_set member with earlier | rfl
  · exact bounded.reloads pc' earlier
  · exact keeps

theorem Bounded.reloadSteps {client : KubeClient} {limit : Int} {s : ServeSys} (positive : 0 ≤ limit)
    (bounded : s.Bounded limit) {i : Nat} {pc pc' : ReloadPc} {lb : LoadBalancer}
    (here : s.reloads[i]? = some pc) (idle : s.SwapsIdle (.reloadStep i))
    (moved : s.lb.Reloads client pc lb pc') :
    Bounded limit { s with lb, reloads := s.reloads.set i pc' } := by
  have keeps := bounded.reloads pc (List.mem_of_getElem? here)
  cases moved with
  | refused | stopped | panicked => exact Bounded.setReload bounded trivial
  | built valid made =>
      refine Bounded.setReload ?_ ⟨bounded.cfg, bounded.cfg⟩
      exact bounded.setBalancer rfl rfl bounded.cfg
  | counted counted =>
      obtain ⟨clients, ⟨rfl, rfl⟩ | ⟨rfl, rfl⟩⟩ := countSection_cases counted
      · exact Bounded.setReload bounded ⟨clients.trans keeps.2, nofun⟩
      · refine Bounded.setReload (bounded.alloc keeps.2 positive) ⟨clients.trans keeps.2, ?_⟩
        rintro g ⟨⟩
        exact Nat.lt_succ_self _
  | published dialed replaced =>
      refine Bounded.setReload ?_ keeps
      exact bounded.setBalancer rfl rfl bounded.cfg
  | applied =>
      refine Bounded.setReload ?_ trivial
      exact bounded.setBalancer rfl rfl keeps.1
  | committed =>
      refine Bounded.setReload ?_ (keeps.2 _ rfl)
      exact bounded.setBalancer rfl rfl keeps.1
  | @swapped g gateVal stored =>
      obtain ⟨unloaded, resting⟩ := idle (by simp [swaps, here])
      have now : gateVal.stored = some g := Go.AtomicValue.stored_of_store stored
      have swapped : Bounded limit { s with lb := { s.lb with gateVal } } := by
        refine ⟨bounded.gates, fun h held => ?_, fun h loaded => ?_, bounded.known,
          fun t member running => absurd running (resting t member), bounded.cfg, bounded.reloads⟩
        · cases now.symm.trans held
          exact keeps
        · cases unloaded.symm.trans loaded
      exact Bounded.setReload swapped trivial

theorem Bounded.step {client : KubeClient} {limit : Int} (positive : 0 ≤ limit) {s s' : ServeSys}
    {action : ServeAction} (bounded : s.Bounded limit) (idle : s.SwapsIdle action)
    (taken : s.step client action = some s') : s'.Bounded limit := by
  cases step_cases taken with
  | serve moved => exact bounded.serves moved
  | session here moved => exact bounded.ends here moved
  | update | work => exact bounded.setBalancer rfl rfl bounded.cfg
  | probed | close | drains | cancel | await | wake | signal =>
      exact bounded.place rfl rfl rfl rfl rfl (fun _ => rfl) fun _ => .inl
  | reload =>
      refine ⟨bounded.gates, bounded.stored, bounded.serve, bounded.known, bounded.running, bounded.cfg,
        fun pc member => ?_⟩
      rcases List.mem_append.1 member with earlier | last
      · exact bounded.reloads pc earlier
      · cases List.mem_singleton.1 last
        trivial
  | reloads here moved => exact bounded.reloadSteps positive here idle moved

theorem bounded_init {lb : LoadBalancer} (initial : lb.Initial) :
    (init lb).Bounded lb.cfg.maxClients := by
  obtain ⟨-, positive, next, stored, built⟩ := initial.gate
  refine ⟨?_, ?_, ?_, by simp [init], by simp [init], rfl, by simp [init]⟩
  · intro g below
    have first : g = 0 := Nat.lt_one_iff.1 (next ▸ below)
    subst first
    change GateBounded _ 0 (lb.gates.get 0)
    rw [built]
    exact ⟨rfl, rfl, positive⟩
  · intro g held
    have first : g = 0 := Option.some.inj (held.symm.trans stored)
    subst first
    exact next ▸ Nat.one_pos
  · simp [init, ServePc.gate]

theorem Bounded.running_le {limit : Int} (positive : 0 ≤ limit) {s : ServeSys}
    (bounded : s.Bounded limit) : (s.sessions.countP (·.pc = .handling) : Int) ≤ limit := by
  by_cases some : ∃ t ∈ s.sessions, t.pc = .handling
  · obtain ⟨t, member, running⟩ := some
    have stored := bounded.running t member running
    have gate := bounded.gates t.gate (bounded.known t member)
    have counted : s.sessions.countP (·.pc = .handling) ≤
        total (SessionThread.token t.gate) s.sessions := by
      refine countP_le_total fun u inside handling => ?_
      have place := of_decide_eq_true handling
      have same : t.gate = u.gate := Option.some.inj (stored.symm.trans (bounded.running u inside place))
      simp [SessionThread.token, same, place, SessionPc.holds]
    have slots := gate.slots
    have room := gate.room
    simp only [holders] at slots
    omega
  · have none : s.sessions.countP (·.pc = .handling) = 0 := by
      rw [List.countP_eq_zero]
      exact fun t member handling => some ⟨t, member, of_decide_eq_true handling⟩
    rw [none]
    exact positive

/-- Whatever gates a reload puts in force, at most `MaxClients` sessions run `handleClient` at a time,
if gates are swapped only while no session runs and none is being admitted. -/
theorem sessions_le_maxClients {client : KubeClient} {lb : LoadBalancer} (initial : lb.Initial)
    {trace : List (ServeSys × ServeAction)} {s : ServeSys} (exec : Exec (step client) (init lb) trace s)
    (guarded : Guarded SwapsIdle trace) :
    (s.sessions.countP (·.pc = .handling) : Int) ≤ lb.cfg.maxClients ∧
      s.lb.cfg.maxClients = lb.cfg.maxClients := by
  have positive := initial.gate.2.1
  have bounded : s.Bounded lb.cfg.maxClients := exec.invariant
    (P := fun _ s => s.Bounded lb.cfg.maxClients) (bounded_init initial)
    (fun _ _ _ _ _ bounded idle taken => bounded.step positive idle taken) guarded
  exact ⟨bounded.running_le positive, bounded.cfg⟩

def oneClient : Config := { LoadBalancer.oneUpstream with maxClients := 1 }

/-- The accept loop has a token of the old gate and the session is not in the tracker yet: the reload
counts no session and puts a new gate in force, which admits one more. -/
theorem swap_admits_second : ∃ lb trace s, LoadBalancer.Initial lb ∧ lb.cfg.maxClients = 1 ∧
    Exec (step noCluster) (init lb) trace s ∧
    trace.map Prod.snd =
      ([.ok, .ok, .ok, .ok, .ok, .ok, .ready .slot, .ready .slot, .ok] : List Input).map
          ServeAction.serve ++
      ServeAction.reload { oneClient with admissionWaitTimeout := 0 } ::
        List.replicate 5 (ServeAction.reloadStep 0) ++
      ([.ok, .ok, .ok, .ok, .ok, .ready .slot, .ready .slot, .ok, .ok, .ok, .ok] : List Input).map
          ServeAction.serve ∧
    s.sessions.countP (·.pc = .handling) = 2 := by
  obtain ⟨lb, trace, s, started, exec, actions, passed⟩ := exec_of_play_made (step noCluster)
    (LoadBalancer.start oneClient) init
    (([.ok, .ok, .ok, .ok, .ok, .ok, .ready .slot, .ready .slot, .ok] : List Input).map
        ServeAction.serve ++
      ServeAction.reload { oneClient with admissionWaitTimeout := 0 } ::
        List.replicate 5 (ServeAction.reloadStep 0) ++
      ([.ok, .ok, .ok, .ok, .ok, .ready .slot, .ready .slot, .ok, .ok, .ok, .ok] : List Input).map
          ServeAction.serve)
    (fun _ _ s => decide (s.sessions.countP (·.pc = .handling) = 2)) (by decide +kernel)
  have limit : lb.cfg.maxClients = 1 := by
    rw [LoadBalancer.cfg_of_start started]
    rfl
  exact ⟨lb, trace, s, ⟨_, lb, lb.dialer, started, rfl⟩, limit, exec, actions, of_decide_eq_true passed⟩

/-- The same swap after the first session has ended. -/
theorem sessions_le_maxClients_swapped : ∃ lb trace s, LoadBalancer.Initial lb ∧
    lb.cfg.maxClients = 1 ∧ Exec (step noCluster) (init lb) trace s ∧ Guarded SwapsIdle trace ∧
    s.sessions.map (·.gate) = [0, 1] ∧ s.sessions.map (·.pc) = [.ended, .handling] ∧
    (s.sessions.countP (·.pc = .handling) : Int) ≤ lb.cfg.maxClients := by
  obtain ⟨lb, trace, s, started, exec, -, passed⟩ := exec_of_play_made (step noCluster)
    (LoadBalancer.start oneClient) init
    (([.ok, .ok, .ok, .ok, .ok, .ok, .ready .slot, .ready .slot, .ok, .ok, .ok, .ok] : List Input).map
        ServeAction.serve ++
      List.replicate 5 (ServeAction.session 0) ++
      ServeAction.reload { oneClient with admissionWaitTimeout := 0 } ::
        List.replicate 5 (ServeAction.reloadStep 0) ++
      ([.ok, .ok, .ready .slot, .ready .slot, .ok, .ok, .ok, .ok] : List Input).map
          ServeAction.serve)
    (fun _ trace s => (trace.all fun entry => decide (entry.1.SwapsIdle entry.2)) &&
      decide (s.sessions.map (·.gate) = [0, 1] ∧ s.sessions.map (·.pc) = [.ended, .handling]))
    (by decide +kernel)
  have limit : lb.cfg.maxClients = 1 := by
    rw [LoadBalancer.cfg_of_start started]
    rfl
  have initial : lb.Initial := ⟨_, lb, lb.dialer, started, rfl⟩
  obtain ⟨tested, facts⟩ := Bool.and_eq_true_iff.1 passed
  obtain ⟨gates, places⟩ := of_decide_eq_true facts
  have guarded : Guarded SwapsIdle trace := fun entry member =>
    of_decide_eq_true (List.all_eq_true.1 tested entry member)
  exact ⟨lb, trace, s, initial, limit, exec, guarded, gates, places,
    (sessions_le_maxClients initial exec guarded).1⟩

end ServeSys

end S5lb
