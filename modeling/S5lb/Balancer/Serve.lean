import S5lb.Admission.Acquire
import S5lb.Balancer.ReloadSteps
import S5lb.Lib.Threads
import S5lb.Lib.Transition

/-! `Serve` and what runs beside it: the sessions it starts, the health loop, the goroutine that closes
the listener, reloads, and `Shutdown`. -/

namespace S5lb

inductive Listener
  | unbound
  | listening
  | closed
  deriving DecidableEq

inductive ServePc
  | uncalled
  | binding
  | bound
  | closing
  | accepting
  | backoff
  | accepted
  | acquiring (gate : GateRef) (pc : AcquirePc)
  | admitted (gate : GateRef)
  | tracked (gate : GateRef) (sess : SessionRef)
  | counted (gate : GateRef) (sess : SessionRef)
  | returned
  deriving DecidableEq

inductive SessionPc
  | handling
  | handled
  | untracked
  | tokenOut
  | released
  | ended
  deriving DecidableEq

structure SessionThread where
  sess : SessionRef
  gate : GateRef
  pc : SessionPc
  deriving DecidableEq

inductive ShutdownPc
  | uncalled
  | called
  | canceled
  | draining
  | drained
  | softTimeout
  | forcing
  | returned
  deriving DecidableEq

inductive WaiterPc
  | unborn
  | waiting
  | woken
  | closed
  deriving DecidableEq

inductive Routine
  | unborn
  | running
  | gone
  deriving DecidableEq

structure ServeSys where
  lb : LoadBalancer
  canceled : Bool
  listener : Listener
  wg : Nat
  serve : ServePc
  sessions : List SessionThread
  healthLoop : Routine
  closer : Routine
  shutdown : ShutdownPc
  waiter : WaiterPc
  reloads : List ReloadPc

inductive Input
  | ok
  | error
  | ready (ready : Ready)
  deriving DecidableEq

inductive ServeAction
  | serve (input : Input)
  | session (i : Nat)
  | update (i : Nat) (upID : String) (prio : Int)
  | work (heap : Heap State) (queue : List Nat) (selector : Selector)
  | healthLoop
  | closer
  | shutdown (timer : Bool)
  | waiter
  | reload (raw : Config)
  | reloadStep (i : Nat)

namespace ServeSys

def init (lb : LoadBalancer) : ServeSys :=
  ⟨lb, false, .unbound, 0, .uncalled, [], .unborn, .unborn, .uncalled, .unborn, []⟩

def setGateAt (s : ServeSys) (g : GateRef) (gate : Gate) : ServeSys :=
  { s with lb := { s.lb with gates := s.lb.gates.set g gate } }

def setTracker (s : ServeSys) (tracker : Tracker) : ServeSys := { s with lb := { s.lb with tracker } }

def newSession : Session := ⟨none, "", 0, 0, none, none, false⟩

def serveStep (s : ServeSys) (input : Input) : Option ServeSys :=
  match s.serve, input with
  | .uncalled, .ok => some { s with serve := .binding }
  | .binding, .ok => some { s with listener := .listening, serve := .bound }
  | .binding, .error => some { s with serve := .returned }
  | .bound, .ok => some { s with wg := s.wg + 1, healthLoop := .running, serve := .closing }
  | .closing, .ok => some { s with closer := .running, serve := .accepting }
  | .accepting, .ok => if s.listener = .listening then some { s with serve := .accepted } else none
  | .accepting, .error =>
      if s.canceled ∨ s.listener = .closed then some { s with serve := .returned }
      else some { s with serve := .backoff }
  | .backoff, .ready .timer => some { s with serve := .accepting }
  | .backoff, .ready .done => if s.canceled then some { s with serve := .returned } else none
  | .accepted, .ok =>
      match s.lb.gateVal.stored with
      | none => some { s with serve := .accepting }
      | some g => some { s with serve := .acquiring g .trying }
  | .acquiring g (.returned dec), .ok =>
      match dec.outcome with
      | .admitted | .evicted => some { s with serve := .admitted g }
      | .rejected => some { s with serve := .accepting }
  | .acquiring g pc, .ready ready =>
      ((s.lb.gates.get g).acquireStep s.lb.tracker s.canceled ready pc).map fun (gate, pc) =>
        { s.setGateAt g gate with serve := .acquiring g pc }
  | .admitted g, .ok =>
      let (sess, sessions) := s.lb.tracker.sessions.alloc newSession
      some { s.setTracker ({ s.lb.tracker with sessions }.add sess) with serve := .tracked g sess }
  | .tracked g sess, .ok => some { s with wg := s.wg + 1, serve := .counted g sess }
  | .counted g sess, .ok =>
      some { s with sessions := s.sessions ++ [⟨sess, g, .handling⟩], serve := .accepting }
  | _, _ => none

def putSession (s : ServeSys) (i : Nat) (t : SessionThread) : ServeSys :=
  { s with sessions := s.sessions.set i t }

def sessionStep (s : ServeSys) (i : Nat) (t : SessionThread) : Option ServeSys :=
  match t.pc with
  | .handling => some (s.putSession i { t with pc := .handled })
  | .handled => some ((s.setTracker (s.lb.tracker.release t.sess)).putSession i { t with pc := .untracked })
  | .untracked =>
      let (gate, took) := (s.lb.gates.get t.gate).takeOut
      some ((s.setGateAt t.gate gate).putSession i { t with pc := if took then .tokenOut else .released })
  | .tokenOut =>
      some ((s.setGateAt t.gate (s.lb.gates.get t.gate).countOut).putSession i { t with pc := .released })
  | .released => some ({ s with wg := s.wg - 1 }.putSession i { t with pc := .ended })
  | .ended => none

def shutdownStep (s : ServeSys) (timer : Bool) : Option ServeSys :=
  match s.shutdown with
  | .uncalled => some { s with shutdown := .called }
  | .called => some { s with canceled := true, shutdown := .canceled }
  | .canceled => some { s with waiter := .waiting, shutdown := .draining }
  | .draining =>
      if timer then some { s with shutdown := .softTimeout }
      else if s.waiter = .closed then some { s with shutdown := .drained } else none
  | .softTimeout => some { s with shutdown := .forcing }
  | .forcing =>
      if timer ∨ s.waiter = .closed then some { s with shutdown := .returned } else none
  | .drained | .returned => none

def waiterStep (s : ServeSys) : Option ServeSys :=
  match s.waiter with
  | .waiting => if s.wg = 0 then some { s with waiter := .woken } else none
  | .woken => some { s with waiter := .closed }
  | .unborn | .closed => none

def step (client : KubeClient) (s : ServeSys) : ServeAction → Option ServeSys
  | .serve input => s.serveStep input
  | .session i => s.sessions[i]?.bind fun t => s.sessionStep i t
  | .update i upID prio => s.sessions[i]?.bind fun t =>
      if t.pc = .handling then some (s.setTracker (s.lb.tracker.update t.sess upID prio)) else none
  | .work heap queue selector => some { s with lb := { s.lb with heap, queue, selector } }
  | .healthLoop =>
      if s.healthLoop = .running ∧ s.canceled then
        some { s with healthLoop := .gone, wg := s.wg - 1 }
      else none
  | .closer =>
      if s.closer = .running ∧ s.canceled then some { s with closer := .gone, listener := .closed }
      else none
  | .shutdown timer => s.shutdownStep timer
  | .waiter => s.waiterStep
  | .reload raw => some { s with reloads := s.reloads ++ [.called raw] }
  | .reloadStep i => s.reloads[i]?.bind fun pc =>
      (s.lb.reloadStep client pc).map fun (lb, pc) => { s with lb, reloads := s.reloads.set i pc }

inductive Waits (s : ServeSys) : ServePc → Prop
  | call (here : s.serve = .uncalled) : Waits s .binding
  | unbound (here : s.serve = .binding) : Waits s .returned
  | accept (here : s.serve = .accepting) (open_ : s.listener = .listening) : Waits s .accepted
  | stop (here : s.serve = .accepting) : Waits s .returned
  | fail (here : s.serve = .accepting) : Waits s .backoff
  | retry (here : s.serve = .backoff) : Waits s .accepting
  | leave (here : s.serve = .backoff) : Waits s .returned
  | ungated (here : s.serve = .accepted) : Waits s .accepting
  | load {g : GateRef} (here : s.serve = .accepted) (stored : s.lb.gateVal.stored = some g) :
      Waits s (.acquiring g .trying)
  | enter {g : GateRef} {dec : Decision} (here : s.serve = .acquiring g (.returned dec))
      (admitted : dec.outcome ≠ .rejected) : Waits s (.admitted g)
  | reject {g : GateRef} {dec : Decision} (here : s.serve = .acquiring g (.returned dec))
      (rejected : dec.outcome = .rejected) : Waits s .accepting

inductive Serves (s : ServeSys) : ServeSys → Prop
  | waits {pc : ServePc} (moved : Waits s pc) : Serves s { s with serve := pc }
  | bind (here : s.serve = .binding) : Serves s { s with listener := .listening, serve := .bound }
  | probe (here : s.serve = .bound) :
      Serves s { s with wg := s.wg + 1, healthLoop := .running, serve := .closing }
  | watch (here : s.serve = .closing) : Serves s { s with closer := .running, serve := .accepting }
  | acquire {g : GateRef} {pc pc' : AcquirePc} {gate : Gate} (here : s.serve = .acquiring g pc)
      (acquired : (s.lb.gates.get g).Acquired pc gate pc') :
      Serves s { s.setGateAt g gate with serve := .acquiring g pc' }
  | track {g : GateRef} {sess : SessionRef} {tracker : Tracker} (here : s.serve = .admitted g) :
      Serves s { s.setTracker tracker with serve := .tracked g sess }
  | count {g : GateRef} {sess : SessionRef} (here : s.serve = .tracked g sess) :
      Serves s { s with wg := s.wg + 1, serve := .counted g sess }
  | go {g : GateRef} {sess : SessionRef} (here : s.serve = .counted g sess) :
      Serves s { s with sessions := s.sessions ++ [⟨sess, g, .handling⟩], serve := .accepting }

theorem serves_of_serveStep {s s' : ServeSys} {input : Input} (taken : s.serveStep input = some s') :
    s.Serves s' := by
  unfold serveStep at taken
  split at taken
  · cases taken
    exact .waits (.call ‹_›)
  · cases taken
    exact .bind ‹_›
  · cases taken
    exact .waits (.unbound ‹_›)
  · cases taken
    exact .probe ‹_›
  · cases taken
    exact .watch ‹_›
  · split at taken
    · cases taken
      exact .waits (.accept ‹_› ‹_›)
    · cases taken
  · split at taken
    · cases taken
      exact .waits (.stop ‹_›)
    · cases taken
      exact .waits (.fail ‹_›)
  · cases taken
    exact .waits (.retry ‹_›)
  · split at taken
    · cases taken
      exact .waits (.leave ‹_›)
    · cases taken
  · split at taken
    · cases taken
      exact .waits (.ungated ‹_›)
    · cases taken
      exact .waits (.load ‹_› ‹_›)
  · rename_i here
    split at taken
    · cases taken
      exact .waits (.enter here (by simp [*]))
    · cases taken
      exact .waits (.enter here (by simp [*]))
    · cases taken
      exact .waits (.reject here ‹_›)
  · obtain ⟨⟨gate, pc'⟩, stepped, rfl⟩ := Option.map_eq_some_iff.1 taken
    exact .acquire ‹_› (Gate.acquired_of_acquireStep stepped)
  · cases taken
    exact .track ‹_›
  · cases taken
    exact .count ‹_›
  · cases taken
    exact .go ‹_›
  · cases taken

inductive Ends (s : ServeSys) (i : Nat) (t : SessionThread) : ServeSys → Prop
  | handled (here : t.pc = .handling) : Ends s i t (s.putSession i { t with pc := .handled })
  | untrack {tracker : Tracker} (here : t.pc = .handled) :
      Ends s i t ((s.setTracker tracker).putSession i { t with pc := .untracked })
  | takeOut {gate : Gate} (here : t.pc = .untracked) (cap : gate.cap = (s.lb.gates.get t.gate).cap)
      (slots : gate.slots + 1 = (s.lb.gates.get t.gate).slots) :
      Ends s i t ((s.setGateAt t.gate gate).putSession i { t with pc := .tokenOut })
  | swallow (here : t.pc = .untracked) (empty : (s.lb.gates.get t.gate).slots = 0) :
      Ends s i t ((s.setGateAt t.gate (s.lb.gates.get t.gate)).putSession i { t with pc := .released })
  | countOut (here : t.pc = .tokenOut) :
      Ends s i t
        ((s.setGateAt t.gate (s.lb.gates.get t.gate).countOut).putSession i { t with pc := .released })
  | done (here : t.pc = .released) :
      Ends s i t ({ s with wg := s.wg - 1 }.putSession i { t with pc := .ended })

theorem ends_of_sessionStep {s s' : ServeSys} {i : Nat} {t : SessionThread}
    (taken : s.sessionStep i t = some s') : s.Ends i t s' := by
  unfold sessionStep at taken
  split at taken
  · cases taken
    exact .handled ‹_›
  · cases taken
    exact .untrack ‹_›
  · rename_i here
    simp only [Gate.takeOut] at taken
    split at taken
    · cases taken
      exact .takeOut here rfl (Nat.sub_add_cancel ‹_›)
    · rename_i empty
      cases taken
      exact .swallow here (Nat.eq_zero_of_not_pos empty)
  · cases taken
    exact .countOut ‹_›
  · cases taken
    exact .done ‹_›
  · cases taken

inductive Drains (s : ServeSys) : ShutdownPc → Prop
  | call (here : s.shutdown = .uncalled) : Drains s .called
  | drained (here : s.shutdown = .draining) (closed : s.waiter = .closed) : Drains s .drained
  | softTimeout (here : s.shutdown = .draining) : Drains s .softTimeout
  | force (here : s.shutdown = .softTimeout) : Drains s .forcing
  | finish (here : s.shutdown = .forcing) : Drains s .returned

inductive Step (client : KubeClient) (s : ServeSys) : ServeAction → ServeSys → Prop
  | serve {input : Input} {s' : ServeSys} (moved : s.Serves s') : Step client s (.serve input) s'
  | session {i : Nat} {t : SessionThread} {s' : ServeSys} (here : s.sessions[i]? = some t)
      (moved : s.Ends i t s') : Step client s (.session i) s'
  | update {i : Nat} {upID : String} {prio : Int} {tracker : Tracker} :
      Step client s (.update i upID prio) (s.setTracker tracker)
  | work {heap : Heap State} {queue : List Nat} {selector : Selector} :
      Step client s (.work heap queue selector) { s with lb := { s.lb with heap, queue, selector } }
  | probed (running : s.healthLoop = .running) :
      Step client s .healthLoop { s with healthLoop := .gone, wg := s.wg - 1 }
  | close : Step client s .closer { s with closer := .gone, listener := .closed }
  | drains {timer : Bool} {pc : ShutdownPc} (moved : s.Drains pc) :
      Step client s (.shutdown timer) { s with shutdown := pc }
  | cancel {timer : Bool} (here : s.shutdown = .called) :
      Step client s (.shutdown timer) { s with canceled := true, shutdown := .canceled }
  | await {timer : Bool} (here : s.shutdown = .canceled) :
      Step client s (.shutdown timer) { s with waiter := .waiting, shutdown := .draining }
  | wake (here : s.waiter = .waiting) (zero : s.wg = 0) :
      Step client s .waiter { s with waiter := .woken }
  | signal (here : s.waiter = .woken) : Step client s .waiter { s with waiter := .closed }
  | reload {raw : Config} : Step client s (.reload raw) { s with reloads := s.reloads ++ [.called raw] }
  | reloads {i : Nat} {pc pc' : ReloadPc} {lb : LoadBalancer} (here : s.reloads[i]? = some pc)
      (moved : s.lb.Reloads client pc lb pc') :
      Step client s (.reloadStep i) { s with lb, reloads := s.reloads.set i pc' }

theorem step_of_shutdownStep {client : KubeClient} {s s' : ServeSys} {timer : Bool}
    (taken : s.shutdownStep timer = some s') : Step client s (.shutdown timer) s' := by
  simp only [shutdownStep] at taken
  split at taken
  · cases taken
    exact .drains (.call ‹_›)
  · cases taken
    exact .cancel ‹_›
  · cases taken
    exact .await ‹_›
  · rename_i here
    split at taken
    · cases taken
      exact .drains (.softTimeout here)
    · split at taken
      · cases taken
        exact .drains (.drained here ‹_›)
      · cases taken
  · cases taken
    exact .drains (.force ‹_›)
  · rename_i here
    split at taken
    · cases taken
      exact .drains (.finish here)
    · cases taken
  · cases taken
  · cases taken

theorem step_of_waiterStep {client : KubeClient} {s s' : ServeSys}
    (taken : s.waiterStep = some s') : Step client s .waiter s' := by
  simp only [waiterStep] at taken
  split at taken
  · rename_i here
    split at taken
    · cases taken
      exact .wake here ‹_›
    · cases taken
  · cases taken
    exact .signal ‹_›
  · cases taken
  · cases taken

theorem step_cases {client : KubeClient} {s s' : ServeSys} {action : ServeAction}
    (taken : s.step client action = some s') : Step client s action s' := by
  cases action with
  | serve input => exact .serve (serves_of_serveStep taken)
  | session i =>
      obtain ⟨t, here, taken⟩ := Option.bind_eq_some_iff.1 taken
      exact .session here (ends_of_sessionStep taken)
  | update i upID prio =>
      obtain ⟨t, here, taken⟩ := Option.bind_eq_some_iff.1 taken
      split at taken
      · cases taken
        exact .update
      · cases taken
  | work heap queue selector =>
      cases taken
      exact .work
  | healthLoop =>
      simp only [step] at taken
      split at taken
      · rename_i both
        cases taken
        exact .probed both.1
      · cases taken
  | closer =>
      simp only [step] at taken
      split at taken
      · cases taken
        exact .close
      · cases taken
  | shutdown timer => exact step_of_shutdownStep taken
  | waiter => exact step_of_waiterStep taken
  | reload raw =>
      cases taken
      exact .reload
  | reloadStep i =>
      obtain ⟨pc, here, taken⟩ := Option.bind_eq_some_iff.1 taken
      obtain ⟨⟨lb, pc'⟩, stepped, rfl⟩ := Option.map_eq_some_iff.1 taken
      exact .reloads here (LoadBalancer.reloads_of_reloadStep stepped)

end ServeSys

end S5lb
