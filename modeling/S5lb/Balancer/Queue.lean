import S5lb.Balancer.LoadBalancer
import S5lb.Lib.Transition

namespace S5lb

/-- The locked section of `pick` a goroutine is about to enter, with what it has read so far. -/
inductive PickPos
  | config
  | pool (maxPer : Int)
  | snapshot (maxPer : Int) (pool : Pool) (taken : List Snapshot) (rest : List Upstream)
  | select (maxPer : Int) (pool : Pool) (snaps : List Snapshot) (attempts : Nat)
  | inc (maxPer : Int) (u : Upstream)

inductive PickResult
  | more (pos : PickPos)
  | got (u : Upstream)
  | failed

def LoadBalancer.pickStep (lb : LoadBalancer) (sc : SelectCtx) (draws : List Nat) :
    PickPos → Option (LoadBalancer × PickResult)
  | .config => some (lb, .more (.pool lb.cfg.maxPerProxy))
  | .pool maxPer => some (lb, .more (.snapshot maxPer lb.pool [] lb.pool.upstreams))
  | .snapshot maxPer pool taken [] => some (lb, .more (.select maxPer pool taken 0))
  | .snapshot maxPer pool taken (u :: rest) =>
      some (lb, .more (.snapshot maxPer pool (taken ++ [u.snapshot lb.heap]) rest))
  | .select maxPer pool snaps attempts =>
      ((lb.selector.advance sc snaps maxPer attempts).run draws).map fun (id, selector) =>
        match id with
        | none => ({ lb with selector }, .more (.select maxPer pool snaps (attempts + 1)))
        | some id =>
            if id = "" then ({ lb with selector }, .failed)
            else match pool.byID id with
              | none => ({ lb with selector }, .failed)
              | some u => ({ lb with selector }, .more (.inc maxPer u))
  | .inc maxPer u =>
      match (lb.heap.get u.state).incActive maxPer with
      | none => some (lb, .failed)
      | some s => some ({ lb with heap := lb.heap.set u.state s }, .got u)

/-- Who called `pick`: `acquireSlot`, or `dispatch` for the head of the queue. `depth` counts the
calls of `dispatch` around this one. -/
inductive Caller
  | acquire
  | dispatch (depth : Nat) (head : Nat)

inductive Pc
  | pick (caller : Caller) (pos : PickPos)
  | enqueue
  | parked
  | cancel
  | holding (u : Upstream)
  | release (u : Upstream) (depth : Nat)
  | dispatch (depth : Nat)
  | deliver (depth : Nat) (head : Nat) (u : Upstream)
  | done

namespace Pc

def returned : Nat → Pc
  | 0 => .done
  | depth + 1 => .dispatch depth

def picked : Caller → PickResult → Pc
  | caller, .more pos => .pick caller pos
  | .acquire, .got u => .holding u
  | .acquire, .failed => .enqueue
  | .dispatch depth head, .got u => .deliver depth head u
  | .dispatch depth _, .failed => returned depth

end Pc

/-- A goroutine. One that calls `acquireSlot` owns a waiter, whose ticket channel has one place. -/
structure Goroutine where
  pc : Pc
  sc : SelectCtx
  ticket : Option Upstream
  canceled : Bool

inductive StateOp
  | markUnhealthy (now : Time)
  | recordSuccess
  | recordFailure (threshold : Int) (window : Duration) (now : Time)
  | setDrain (drain : Bool)
  | observeLatency (d : Duration)

def StateOp.apply (s : State) : StateOp → State
  | .markUnhealthy now => (s.markUnhealthy now).1
  | .recordSuccess => s.recordSuccess
  | .recordFailure threshold window now => (s.recordFailure threshold window now).1
  | .setDrain drain => s.setDrain drain
  | .observeLatency d => s.observeLatency d

theorem StateOp.apply_active (s : State) (op : StateOp) : (op.apply s).active = s.active := by
  cases op with
  | markUnhealthy now =>
      simp only [StateOp.apply, State.markUnhealthy]
      split <;> rfl
  | recordSuccess =>
      simp only [StateOp.apply, State.recordSuccess]
      split <;> rfl
  | recordFailure threshold window now =>
      simp only [StateOp.apply, State.recordFailure]
      split <;> split <;> split <;> rfl
  | setDrain drain => rfl
  | observeLatency d => rfl

inductive Action
  | spawn (sc : SelectCtx)
  | advance (i : Nat) (draws : List Nat)
  | receive (i : Nat)
  | giveUp (i : Nat)
  | finish (i : Nat)
  | markHealthy (r : StateRef)
  | touch (r : StateRef) (op : StateOp)
  | setUpstreams (cfg : Config)
  | commit (cfg : Config)

def Action.ofSession : Action → Bool
  | .spawn _ | .advance _ _ | .receive _ | .giveUp _ | .finish _ => true
  | .markHealthy _ | .touch _ _ | .setUpstreams _ | .commit _ => false

/-- The balancer and the goroutines; the queue holds the waiters by their goroutines' numbers. -/
structure Sys where
  lb : LoadBalancer
  threads : List Goroutine

namespace Sys

def init (lb : LoadBalancer) : Sys := ⟨lb, []⟩

def put (s : Sys) (lb : LoadBalancer) (i : Nat) (t : Goroutine) : Sys := ⟨lb, s.threads.set i t⟩

def add (s : Sys) (t : Goroutine) : Sys := { s with threads := s.threads ++ [t] }

def contextOf (s : Sys) (t : Goroutine) : Caller → Option SelectCtx
  | .acquire => some t.sc
  | .dispatch _ head => s.threads[head]?.map (·.sc)

def cancelWaiter (s : Sys) (i : Nat) (t : Goroutine) : Sys :=
  if i ∈ s.lb.queue then
    s.put { s.lb with queue := s.lb.queue.erase i } i { t with canceled := true, pc := .done }
  -- a ticket that came before the lock was taken is given back
  else match t.ticket with
    | some u => s.put s.lb i { t with canceled := true, ticket := none, pc := .release u 0 }
    | none => s.put s.lb i { t with canceled := true, pc := .done }

def peek (s : Sys) (i : Nat) (t : Goroutine) (depth : Nat) : Option Sys :=
  match s.lb.queue with
  | [] => some (s.put s.lb i { t with pc := .returned depth })
  | head :: rest => s.threads[head]?.map fun w =>
      if w.canceled then s.put { s.lb with queue := rest } i t
      else s.put s.lb i { t with pc := .pick (.dispatch depth head) .config }

def deliver (s : Sys) (i : Nat) (t : Goroutine) (depth head : Nat) (u : Upstream) : Option Sys :=
  s.threads[head]?.map fun w =>
    if s.lb.queue.head? = some head ∧ w.canceled = false then
      let lb := { s.lb with queue := s.lb.queue.tail }
      match w.ticket with
      | none =>
          (s.put lb i { t with pc := .dispatch depth }).put lb head { w with ticket := some u }
      -- the `default` of the non-blocking send
      | some _ => s.put lb i { t with pc := .release u (depth + 1) }
    -- somebody else has served or dropped the head since it was read
    else s.put s.lb i { t with pc := .release u (depth + 1) }

def advance (s : Sys) (i : Nat) (t : Goroutine) (draws : List Nat) : Option Sys :=
  match t.pc with
  | .pick caller pos =>
      (s.contextOf t caller).bind fun sc =>
        (s.lb.pickStep sc draws pos).map fun (lb, result) =>
          s.put lb i { t with pc := .picked caller result }
  -- the failed `pick` is not tried again once the request is in the queue
  | .enqueue =>
      some (s.put { s.lb with queue := s.lb.queue ++ [i] } i { t with pc := .parked })
  | .cancel => some (s.cancelWaiter i t)
  | .release u depth =>
      let heap := s.lb.heap.set u.state (s.lb.heap.get u.state).decActive
      some (s.put { s.lb with heap } i { t with pc := .dispatch depth })
  | .dispatch depth => s.peek i t depth
  | .deliver depth head u => s.deliver i t depth head u
  | .parked | .holding _ | .done => none

def prober : Goroutine := ⟨.dispatch 0, ⟨none, "", 0, .clientIP⟩, none, false⟩

def step (s : Sys) : Action → Option Sys
  | .spawn sc => some (s.add ⟨.pick .acquire .config, sc, none, false⟩)
  | .advance i draws => s.threads[i]?.bind fun t => s.advance i t draws
  | .receive i => s.threads[i]?.bind fun t =>
      match t.pc, t.ticket with
      | .parked, some u => some (s.put s.lb i { t with ticket := none, pc := .holding u })
      | _, _ => none
  | .giveUp i => s.threads[i]?.bind fun t =>
      match t.pc with
      | .parked => some (s.put s.lb i { t with pc := .cancel })
      | _ => none
  | .finish i => s.threads[i]?.bind fun t =>
      match t.pc with
      | .holding u => some (s.put s.lb i { t with pc := .release u 0 })
      | _ => none
  | .markHealthy r =>
      let (state, flipped) := (s.lb.heap.get r).markHealthy
      let s := { s with lb := { s.lb with heap := s.lb.heap.set r state } }
      some (if flipped then s.add prober else s)
  | .touch r op =>
      some { s with lb := { s.lb with heap := s.lb.heap.set r (op.apply (s.lb.heap.get r)) } }
  | .setUpstreams cfg =>
      match cfg.buildUpstreams s.lb.heap with
      | .error _ => none
      | .ok (ups, heap) =>
          match { s.lb with heap }.setUpstreams ups with
          | .error _ => some { s with lb := { s.lb with heap } }
          | .ok lb => some { s with lb }
  | .commit cfg =>
      match cfg.validate with
      | .error _ => none
      | .ok cfg => some { s with lb := { s.lb with cfg } }

end Sys

inductive PickMove (lb : LoadBalancer) (sc : SelectCtx) :
    PickPos → LoadBalancer → PickResult → Prop
  | config : PickMove lb sc .config lb (.more (.pool lb.cfg.maxPerProxy))
  | pool {maxPer : Int} : PickMove lb sc (.pool maxPer) lb
      (.more (.snapshot maxPer lb.pool [] lb.pool.upstreams))
  | ready {maxPer : Int} {pool : Pool} {taken : List Snapshot} :
      PickMove lb sc (.snapshot maxPer pool taken []) lb (.more (.select maxPer pool taken 0))
  | snapshot {maxPer : Int} {pool : Pool} {taken : List Snapshot} {u : Upstream}
      {rest : List Upstream} : PickMove lb sc (.snapshot maxPer pool taken (u :: rest)) lb
        (.more (.snapshot maxPer pool (taken ++ [u.snapshot lb.heap]) rest))
  | again {maxPer : Int} {pool : Pool} {snaps : List Snapshot} {attempts : Nat}
      {selector : Selector} : PickMove lb sc (.select maxPer pool snaps attempts)
        { lb with selector } (.more (.select maxPer pool snaps (attempts + 1)))
  | nobody {maxPer : Int} {pool : Pool} {snaps : List Snapshot} {attempts : Nat}
      {selector : Selector} {id : String}
      (answer : (lb.selector.advance sc snaps maxPer attempts).Outcome (some id, selector))
      (unknown : id = "" ∨ pool.byID id = none) :
      PickMove lb sc (.select maxPer pool snaps attempts) { lb with selector } .failed
  | found {maxPer : Int} {pool : Pool} {snaps : List Snapshot} {attempts : Nat}
      {selector : Selector} {u : Upstream} (member : u ∈ pool.upstreams) :
      PickMove lb sc (.select maxPer pool snaps attempts) { lb with selector }
        (.more (.inc maxPer u))
  | refused {maxPer : Int} {u : Upstream}
      (unable : (lb.heap.get u.state).canServe maxPer = false) :
      PickMove lb sc (.inc maxPer u) lb .failed
  | granted {maxPer : Int} {u : Upstream} {state : State}
      (granted : (lb.heap.get u.state).incActive maxPer = some state) :
      PickMove lb sc (.inc maxPer u) { lb with heap := lb.heap.set u.state state } (.got u)

theorem pickMove_of_pickStep {lb lb' : LoadBalancer} {sc : SelectCtx} {draws : List Nat}
    {pos : PickPos} {result : PickResult}
    (stepped : lb.pickStep sc draws pos = some (lb', result)) : PickMove lb sc pos lb' result := by
  cases pos with
  | config =>
      cases stepped
      exact .config
  | pool maxPer =>
      cases stepped
      exact .pool
  | snapshot maxPer pool taken rest =>
      cases rest with
      | nil =>
          cases stepped
          exact .ready
      | cons u rest =>
          cases stepped
          exact .snapshot
  | select maxPer pool snaps attempts =>
      simp only [LoadBalancer.pickStep, Option.map_eq_some_iff] at stepped
      obtain ⟨⟨id, selector⟩, drawn, same⟩ := stepped
      have answer := Drawing.run_outcome drawn
      cases id with
      | none =>
          cases same
          exact .again
      | some id =>
          simp only at same
          split at same
          · rename_i empty
            cases same
            exact .nobody answer (.inl empty)
          · cases known : pool.byID id with
            | none =>
                rw [known] at same
                cases same
                exact .nobody answer (.inr known)
            | some u =>
                rw [known] at same
                cases same
                exact .found ((pool.indexed id u).1 known).1
  | inc maxPer u =>
      simp only [LoadBalancer.pickStep] at stepped
      cases granted : (lb.heap.get u.state).incActive maxPer with
      | none =>
          rw [granted] at stepped
          cases stepped
          exact .refused (State.incActive_eq_none.1 granted)
      | some state =>
          rw [granted] at stepped
          cases stepped
          exact .granted granted

namespace Sys

inductive Move (s : Sys) (i : Nat) (t : Goroutine) : LoadBalancer → Goroutine → Prop
  | pick {caller : Caller} {pos : PickPos} {sc : SelectCtx} {lb : LoadBalancer}
      {result : PickResult} (at_ : t.pc = .pick caller pos)
      (moved : PickMove s.lb sc pos lb result) : Move s i t lb { t with pc := .picked caller result }
  | enqueue (at_ : t.pc = .enqueue) :
      Move s i t { s.lb with queue := s.lb.queue ++ [i] } { t with pc := .parked }
  | receive {u : Upstream} (at_ : t.pc = .parked) (ticket : t.ticket = some u) :
      Move s i t s.lb { t with ticket := none, pc := .holding u }
  | giveUp (at_ : t.pc = .parked) : Move s i t s.lb { t with pc := .cancel }
  | unqueue (at_ : t.pc = .cancel) (queued : i ∈ s.lb.queue) :
      Move s i t { s.lb with queue := s.lb.queue.erase i } { t with canceled := true, pc := .done }
  | reclaim {u : Upstream} (at_ : t.pc = .cancel) (unqueued : i ∉ s.lb.queue)
      (ticket : t.ticket = some u) :
      Move s i t s.lb { t with canceled := true, ticket := none, pc := .release u 0 }
  | abandon (at_ : t.pc = .cancel) (unqueued : i ∉ s.lb.queue) (ticket : t.ticket = none) :
      Move s i t s.lb { t with canceled := true, pc := .done }
  | finish {u : Upstream} (at_ : t.pc = .holding u) : Move s i t s.lb { t with pc := .release u 0 }
  | release {u : Upstream} {depth : Nat} (at_ : t.pc = .release u depth) :
      Move s i t
        { s.lb with heap := s.lb.heap.set u.state (s.lb.heap.get u.state).decActive }
        { t with pc := .dispatch depth }
  | idle {depth : Nat} (at_ : t.pc = .dispatch depth) (empty : s.lb.queue = []) :
      Move s i t s.lb { t with pc := .returned depth }
  | drop {depth head : Nat} {rest : List Nat} {w : Goroutine} (at_ : t.pc = .dispatch depth)
      (front : s.lb.queue = head :: rest) (located : s.threads[head]? = some w)
      (canceled : w.canceled = true) : Move s i t { s.lb with queue := rest } t
  | peek {depth head : Nat} (at_ : t.pc = .dispatch depth) :
      Move s i t s.lb { t with pc := .pick (.dispatch depth head) .config }
  | stale {depth head : Nat} {u : Upstream} {w : Goroutine} (at_ : t.pc = .deliver depth head u)
      (located : s.threads[head]? = some w)
      (lost : ¬(s.lb.queue.head? = some head ∧ w.canceled = false)) :
      Move s i t s.lb { t with pc := .release u (depth + 1) }
  | full {depth head : Nat} {u v : Upstream} {w : Goroutine} (at_ : t.pc = .deliver depth head u)
      (front : s.lb.queue.head? = some head) (located : s.threads[head]? = some w)
      (occupied : w.ticket = some v) :
      Move s i t { s.lb with queue := s.lb.queue.tail } { t with pc := .release u (depth + 1) }

inductive Outside (lb : LoadBalancer) : LoadBalancer → Prop
  | touch {r : StateRef} {state : State} (same : state.active = (lb.heap.get r).active) :
      Outside lb { lb with heap := lb.heap.set r state }
  | built {cfg : Config} {ups : List Upstream} {heap : Heap State}
      (built : cfg.buildUpstreams lb.heap = .ok (ups, heap)) : Outside lb { lb with heap }
  | replaced {cfg : Config} {ups : List Upstream} {heap : Heap State} {pool : Pool}
      (built : cfg.buildUpstreams lb.heap = .ok (ups, heap))
      (replaced : lb.pool.replace ups = .ok pool) : Outside lb { lb with heap, pool }
  | commit {raw cfg : Config} (valid : raw.validate = .ok cfg) : Outside lb { lb with cfg }

inductive Step (s : Sys) : Action → Sys → Prop
  | spawn {sc : SelectCtx} :
      Step s (.spawn sc) (s.add ⟨.pick .acquire .config, sc, none, false⟩)
  | move {a : Action} {i : Nat} {t : Goroutine} {lb : LoadBalancer} {t' : Goroutine}
      (located : s.threads[i]? = some t) (moved : Move s i t lb t')
      (by_ : (∃ draws, a = .advance i draws) ∨ (a = .receive i ∨ a = .giveUp i ∨ a = .finish i) ∧
        (t.pc = .parked ∨ ∃ u, t.pc = .holding u)) :
      Step s a (s.put lb i t')
  | hand {i : Nat} {draws : List Nat} {t w : Goroutine} {depth head : Nat} {u : Upstream}
      (located : s.threads[i]? = some t) (at_ : t.pc = .deliver depth head u)
      (front : s.lb.queue.head? = some head) (locatedW : s.threads[head]? = some w)
      (waiting : w.canceled = false) (vacant : w.ticket = none) :
      Step s (.advance i draws)
        ((s.put { s.lb with queue := s.lb.queue.tail } i { t with pc := .dispatch depth }).put
          { s.lb with queue := s.lb.queue.tail } head { w with ticket := some u })
  | outside {a : Action} {lb : LoadBalancer} (changed : Outside s.lb lb)
      (by_ : (∃ r, a = .markHealthy r) ∨ (∃ r op, a = .touch r op) ∨ (∃ cfg, a = .setUpstreams cfg) ∨
        ∃ cfg, a = .commit cfg) : Step s a { s with lb }
  | recovered {r : StateRef} {lb : LoadBalancer} (changed : Outside s.lb lb) :
      Step s (.markHealthy r) ({ s with lb }.add prober)

theorem move_of_advance {s s' : Sys} {i : Nat} {t : Goroutine} {draws : List Nat}
    (located : s.threads[i]? = some t) (advanced : s.advance i t draws = some s') :
    Step s (.advance i draws) s' := by
  have move {lb : LoadBalancer} {t' : Goroutine} (moved : Move s i t lb t') :
      Step s (.advance i draws) (s.put lb i t') := .move located moved (.inl ⟨draws, rfl⟩)
  unfold advance at advanced
  cases at_ : t.pc with
  | pick caller pos =>
      simp only [at_, Option.bind_eq_some_iff, Option.map_eq_some_iff] at advanced
      obtain ⟨sc, -, ⟨lb, result⟩, stepped, rfl⟩ := advanced
      exact move (.pick at_ (pickMove_of_pickStep stepped))
  | enqueue =>
      simp only [at_] at advanced
      cases advanced
      exact move (.enqueue at_)
  | cancel =>
      simp only [at_, cancelWaiter] at advanced
      split at advanced
      · cases advanced
        exact move (.unqueue at_ ‹_›)
      · split at advanced
        · cases advanced
          exact move (.reclaim at_ ‹_› ‹_›)
        · cases advanced
          exact move (.abandon at_ ‹_› ‹_›)
  | release u depth =>
      simp only [at_] at advanced
      cases advanced
      exact move (.release at_)
  | dispatch depth =>
      simp only [at_, peek] at advanced
      split at advanced
      · cases advanced
        exact move (.idle at_ ‹_›)
      · rename_i head rest front
        obtain ⟨w, locatedW, same⟩ := Option.map_eq_some_iff.1 advanced
        split at same
        · cases same
          exact move (.drop at_ front locatedW ‹_›)
        · cases same
          exact move (.peek at_)
  | deliver depth head u =>
      simp only [at_, deliver] at advanced
      obtain ⟨w, locatedW, same⟩ := Option.map_eq_some_iff.1 advanced
      split at same
      · rename_i front
        split at same
        · cases same
          exact .hand located at_ front.1 locatedW front.2 ‹_›
        · cases same
          exact move (.full at_ front.1 locatedW ‹_›)
      · cases same
        exact move (.stale at_ locatedW ‹_›)
  | parked => simp [at_] at advanced
  | holding u => simp [at_] at advanced
  | done => simp [at_] at advanced

theorem step_cases {s s' : Sys} {a : Action} (taken : s.step a = some s') : Step s a s' := by
  cases a with
  | spawn sc =>
      cases taken
      exact .spawn
  | advance i draws =>
      obtain ⟨t, located, advanced⟩ := Option.bind_eq_some_iff.1 taken
      exact move_of_advance located advanced
  | receive i =>
      obtain ⟨t, located, received⟩ := Option.bind_eq_some_iff.1 taken
      split at received
      · cases received
        exact .move located (.receive ‹_› ‹_›) (.inr ⟨.inl rfl, .inl ‹_›⟩)
      · cases received
  | giveUp i =>
      obtain ⟨t, located, given⟩ := Option.bind_eq_some_iff.1 taken
      split at given
      · cases given
        exact .move located (.giveUp ‹_›) (.inr ⟨.inr (.inl rfl), .inl ‹_›⟩)
      · cases given
  | finish i =>
      obtain ⟨t, located, finished⟩ := Option.bind_eq_some_iff.1 taken
      split at finished
      · cases finished
        exact .move located (.finish ‹_›) (.inr ⟨.inr (.inr rfl), .inr ⟨_, ‹_›⟩⟩)
      · cases finished
  | markHealthy r =>
      have same : ((s.lb.heap.get r).markHealthy).1.active = (s.lb.heap.get r).active := by
        unfold State.markHealthy
        split <;> rfl
      simp only [step] at taken
      split at taken
      · cases taken
        exact .recovered (.touch same)
      · cases taken
        exact .outside (.touch same) (.inl ⟨r, rfl⟩)
  | touch r op =>
      cases taken
      exact .outside (.touch (StateOp.apply_active _ op)) (.inr (.inl ⟨r, op, rfl⟩))
  | setUpstreams cfg =>
      have by_ {lb : LoadBalancer} (changed : Outside s.lb lb) : Step s (.setUpstreams cfg) { s with lb } :=
        .outside changed (.inr (.inr (.inl ⟨cfg, rfl⟩)))
      simp only [step] at taken
      split at taken
      · cases taken
      · rename_i ups heap built
        split at taken
        · cases taken
          exact by_ (.built built)
        · rename_i lb published
          obtain ⟨pool, replaced, rfl⟩ := LoadBalancer.setUpstreams_eq_ok.1 published
          cases taken
          exact by_ (.replaced built replaced)
  | commit cfg =>
      simp only [step] at taken
      split at taken
      · cases taken
      · cases taken
        exact .outside (.commit ‹_›) (.inr (.inr (.inr ⟨cfg, rfl⟩)))

end Sys

end S5lb
