import S5lb.Balancer.Serve
import S5lb.Lib.Ledger

namespace S5lb

open Transition Ledger

namespace ServePc

def pending : ServePc → Nat
  | .counted _ _ => 1
  | _ => 0

def early (pc : ServePc) : Prop := pc = .uncalled ∨ pc = .binding ∨ pc = .bound

end ServePc

def Routine.live : Routine → Nat
  | .running => 1
  | _ => 0

def SessionThread.live (t : SessionThread) : Nat := if t.pc = .ended then 0 else 1

theorem SessionThread.live_eq_zero {t : SessionThread} : t.live = 0 ↔ t.pc = .ended := by
  unfold live
  split <;> simp [*]

namespace ServeSys

structure Counted (s : ServeSys) : Prop where
  wg : s.wg = s.serve.pending + s.healthLoop.live + total SessionThread.live s.sessions
  unprobed : s.serve.early → s.healthLoop = .unborn

theorem counted_init (lb : LoadBalancer) : (init lb).Counted := ⟨rfl, fun _ => rfl⟩

theorem Waits.pending_eq {s : ServeSys} {pc : ServePc} (moved : s.Waits pc) :
    pc.pending = s.serve.pending := by
  cases moved <;> simp [ServePc.pending, *]

theorem Waits.early {s : ServeSys} {pc : ServePc} (moved : s.Waits pc) (early : pc.early) :
    s.serve.early := by
  cases moved with
  | call here => exact .inl here
  | _ => simp [ServePc.early] at early

theorem Counted.place {s s' : ServeSys} (counted : s.Counted) (wg : s'.wg = s.wg)
    (pending : s'.serve.pending = s.serve.pending) (early : s'.serve.early → s.serve.early)
    (healthLoop : s'.healthLoop = s.healthLoop) (sessions : s'.sessions = s.sessions) : s'.Counted := by
  refine ⟨?_, fun first => ?_⟩
  · rw [wg, pending, healthLoop, sessions]
    exact counted.wg
  · rw [healthLoop]
    exact counted.unprobed (early first)

theorem Counted.serves {s s' : ServeSys} (counted : s.Counted) (moved : s.Serves s') : s'.Counted := by
  cases moved with
  | waits moved => exact counted.place rfl moved.pending_eq moved.early rfl rfl
  | bind here => exact counted.place rfl (by rw [here]; rfl) (fun _ => .inr (.inl here)) rfl rfl
  | probe here =>
      have wg := counted.wg
      rw [here, counted.unprobed (.inr (.inr here))] at wg
      refine ⟨?_, by simp [ServePc.early]⟩
      simp only [ServePc.pending, Routine.live] at wg ⊢
      omega
  | watch here => exact counted.place rfl (by rw [here]; rfl) (by simp [ServePc.early]) rfl rfl
  | acquire here => exact counted.place rfl (by rw [here]; rfl) (by simp [ServePc.early]) rfl rfl
  | track here => exact counted.place rfl (by rw [here]; rfl) (by simp [ServePc.early]) rfl rfl
  | count here =>
      have wg := counted.wg
      rw [here] at wg
      refine ⟨?_, by simp [ServePc.early]⟩
      simp only [ServePc.pending] at wg ⊢
      omega
  | go here =>
      have wg := counted.wg
      rw [here] at wg
      refine ⟨?_, by simp [ServePc.early]⟩
      simp only [ServePc.pending, total_snoc, SessionThread.live] at wg ⊢
      simp only [reduceCtorEq, if_false]
      omega

theorem Counted.put {s s' : ServeSys} (counted : s.Counted) {i : Nat} {t t' : SessionThread}
    (here : s.sessions[i]? = some t) (wg : s'.wg + t.live = s.wg + t'.live)
    (serve : s'.serve = s.serve) (healthLoop : s'.healthLoop = s.healthLoop)
    (sessions : s'.sessions = s.sessions.set i t') : s'.Counted := by
  refine ⟨?_, fun early => ?_⟩
  · have before := counted.wg
    have moved := total_set SessionThread.live here t'
    rw [serve, healthLoop, sessions]
    omega
  · rw [healthLoop]
    exact counted.unprobed (serve ▸ early)

theorem Counted.ends {s s' : ServeSys} (counted : s.Counted) {i : Nat} {t : SessionThread}
    (here : s.sessions[i]? = some t) (moved : s.Ends i t s') : s'.Counted := by
  have present : t.live ≤ total SessionThread.live s.sessions :=
    le_total (List.mem_of_getElem? here)
  have wg := counted.wg
  cases moved with
  | handled place => exact counted.put here (by simp [SessionThread.live, place, putSession]) rfl rfl rfl
  | untrack place =>
      exact counted.put here (by simp [SessionThread.live, place, putSession, setTracker]) rfl rfl rfl
  | takeOut place =>
      exact counted.put here (by simp [SessionThread.live, place, putSession, setGateAt]) rfl rfl rfl
  | swallow place =>
      exact counted.put here (by simp [SessionThread.live, place, putSession, setGateAt]) rfl rfl rfl
  | countOut place =>
      exact counted.put here (by simp [SessionThread.live, place, putSession, setGateAt]) rfl rfl rfl
  | done place =>
      refine counted.put here ?_ rfl rfl rfl
      simp only [SessionThread.live, place, putSession, reduceCtorEq, if_false, if_true] at present ⊢
      omega

theorem Counted.step {client : KubeClient} {s s' : ServeSys} {action : ServeAction}
    (counted : s.Counted) (taken : s.step client action = some s') : s'.Counted := by
  cases step_cases taken with
  | serve moved => exact counted.serves moved
  | session here moved => exact counted.ends here moved
  | probed running =>
      have wg := counted.wg
      rw [running] at wg
      refine ⟨?_, fun early => ?_⟩
      · simp only [Routine.live] at wg ⊢
        omega
      · cases running.symm.trans (counted.unprobed early)
  | update => exact counted.place rfl rfl id rfl rfl
  | work => exact counted.place rfl rfl id rfl rfl
  | close => exact counted.place rfl rfl id rfl rfl
  | drains => exact counted.place rfl rfl id rfl rfl
  | cancel => exact counted.place rfl rfl id rfl rfl
  | await => exact counted.place rfl rfl id rfl rfl
  | wake => exact counted.place rfl rfl id rfl rfl
  | signal => exact counted.place rfl rfl id rfl rfl
  | reload => exact counted.place rfl rfl id rfl rfl
  | reloads => exact counted.place rfl rfl id rfl rfl

def Stopped (s : ServeSys) : Prop :=
  s.serve = .returned ∨ (s.serve = .accepting ∨ s.serve = .backoff) ∧ s.listener = .closed

instance (s : ServeSys) : Decidable s.Stopped := inferInstanceAs (Decidable (_ ∨ _))

structure Settled (s : ServeSys) : Prop where
  stopped : s.Stopped
  ended : ∀ t ∈ s.sessions, t.pc = .ended

theorem Stopped.waits {s : ServeSys} {pc : ServePc} (stopped : s.Stopped) (moved : s.Waits pc) :
    { s with serve := pc }.Stopped := by
  rcases stopped with returned | ⟨place, closed⟩
  · cases moved <;> simp_all
  · cases moved with
    | stop here => exact .inl rfl
    | fail here => exact .inr ⟨.inr rfl, closed⟩
    | retry here => exact .inr ⟨.inl rfl, closed⟩
    | leave here => exact .inl rfl
    | accept here open_ => cases closed.symm.trans open_
    | _ => simp_all

theorem Settled.step {client : KubeClient} {s s' : ServeSys} {action : ServeAction}
    (settled : s.Settled) (taken : s.step client action = some s') :
    s'.Settled ∧ s'.sessions = s.sessions := by
  obtain ⟨stopped, ended⟩ := settled
  cases step_cases taken with
  | serve moved =>
      cases moved with
      | waits moved => exact ⟨⟨stopped.waits moved, ended⟩, rfl⟩
      | _ => simp_all [Stopped]
  | session here moved =>
      have done := ended _ (List.mem_of_getElem? here)
      cases moved <;> simp_all
  | close => exact ⟨⟨stopped.imp_right fun both => ⟨both.1, rfl⟩, ended⟩, rfl⟩
  | update => exact ⟨⟨stopped, ended⟩, rfl⟩
  | work => exact ⟨⟨stopped, ended⟩, rfl⟩
  | probed => exact ⟨⟨stopped, ended⟩, rfl⟩
  | drains => exact ⟨⟨stopped, ended⟩, rfl⟩
  | cancel => exact ⟨⟨stopped, ended⟩, rfl⟩
  | await => exact ⟨⟨stopped, ended⟩, rfl⟩
  | wake => exact ⟨⟨stopped, ended⟩, rfl⟩
  | signal => exact ⟨⟨stopped, ended⟩, rfl⟩
  | reload => exact ⟨⟨stopped, ended⟩, rfl⟩
  | reloads => exact ⟨⟨stopped, ended⟩, rfl⟩

def wakes (s : ServeSys) : ServeAction → Bool
  | .waiter => s.waiter = .waiting
  | _ => false

/-- The wait group lets `Shutdown` go only when `Serve` can start no session any more. -/
def WakesStopped (s : ServeSys) (action : ServeAction) : Prop := s.wakes action = true → s.Stopped

instance (s : ServeSys) (action : ServeAction) : Decidable (s.WakesStopped action) :=
  inferInstanceAs (Decidable (_ → _))

structure Drained (s : ServeSys) : Prop where
  counted : s.Counted
  woken : s.waiter = .woken ∨ s.waiter = .closed → s.Settled
  closed : s.shutdown = .drained → s.waiter = .closed

theorem drained_init (lb : LoadBalancer) : (init lb).Drained :=
  ⟨counted_init lb, by simp [init], by simp [init]⟩

theorem Counted.settled {s : ServeSys} (counted : s.Counted) (zero : s.wg = 0)
    (stopped : s.Stopped) : s.Settled := by
  refine ⟨stopped, fun t member => ?_⟩
  have wg := counted.wg
  have present : t.live ≤ total SessionThread.live s.sessions := le_total member
  rw [← SessionThread.live_eq_zero]
  omega

theorem Step.waiter_cases {client : KubeClient} {s s' : ServeSys} {action : ServeAction}
    (moved : Step client s action s') :
    (action = .waiter ∧ s.waiter = .waiting ∧ s.wg = 0 ∧ s' = { s with waiter := .woken }) ∨
      (s.waiter = .woken ∧ s' = { s with waiter := .closed }) ∨
      s' = { s with waiter := .waiting, shutdown := .draining } ∨
      s'.waiter = s.waiter ∧ (s'.shutdown = .drained → s.shutdown = .drained ∨ s.waiter = .closed) := by
  cases moved with
  | wake here zero => exact .inl ⟨rfl, here, zero, rfl⟩
  | signal here => exact .inr (.inl ⟨here, rfl⟩)
  | await here => exact .inr (.inr (.inl rfl))
  | serve moved => cases moved <;> exact .inr (.inr (.inr ⟨rfl, .inl⟩))
  | session here moved => cases moved <;> exact .inr (.inr (.inr ⟨rfl, .inl⟩))
  | drains moved =>
      refine .inr (.inr (.inr ⟨rfl, fun last => ?_⟩))
      cases moved with
      | drained here closed => exact .inr closed
      | _ => simp at last
  | cancel => exact .inr (.inr (.inr ⟨rfl, by simp⟩))
  | update | work | probed | close | reload | reloads => exact .inr (.inr (.inr ⟨rfl, .inl⟩))

theorem Drained.step {client : KubeClient} {s s' : ServeSys} {action : ServeAction}
    (drained : s.Drained) (wakes : s.WakesStopped action)
    (taken : s.step client action = some s') : s'.Drained := by
  refine ⟨drained.counted.step taken, ?_, ?_⟩
  · rcases (step_cases taken).waiter_cases with
      ⟨rfl, waiting, zero, rfl⟩ | ⟨woken, rfl⟩ | rfl | ⟨same, -⟩
    · intro _
      obtain ⟨stopped, ended⟩ := drained.counted.settled zero (wakes (decide_eq_true waiting))
      exact ⟨stopped, ended⟩
    · intro _
      obtain ⟨stopped, ended⟩ := drained.woken (.inl woken)
      exact ⟨stopped, ended⟩
    · simp
    · rw [same]
      intro woken
      exact ((drained.woken woken).step taken).1
  · rcases (step_cases taken).waiter_cases with
      ⟨rfl, waiting, zero, rfl⟩ | ⟨woken, rfl⟩ | rfl | ⟨same, last⟩
    · intro returned
      cases waiting.symm.trans (drained.closed returned)
    · intro _
      rfl
    · simp
    · rw [same]
      intro returned
      exact (last returned).elim drained.closed id

/-- When `Shutdown` has returned through its soft-drain branch, every session is over and none is ever
started again, if the wait group let it go only once `Serve` could start no more. -/
theorem shutdown_complete {client : KubeClient} {lb : LoadBalancer}
    {trace : List (ServeSys × ServeAction)} {s : ServeSys} (exec : Exec (step client) (init lb) trace s)
    (guarded : Guarded WakesStopped trace) (drained : s.shutdown = .drained) :
    (∀ t ∈ s.sessions, t.pc = .ended) ∧
      ∀ later s', Exec (step client) s later s' → s'.sessions = s.sessions := by
  have reached : s.Drained := exec.invariant (P := fun _ s => s.Drained) (drained_init lb)
    (fun _ _ _ _ _ drained wakes taken => drained.step wakes taken) guarded
  have settled := reached.woken (.inr (reached.closed drained))
  refine ⟨settled.ended, fun later s' exec => ?_⟩
  have kept : s'.Settled ∧ s'.sessions = s.sessions :=
    exec.stable (P := fun s' => s'.Settled ∧ s'.sessions = s.sessions) ⟨settled, rfl⟩ ?_
  · exact kept.2
  · rintro s₁ action s₂ ⟨settled, same⟩ taken
    obtain ⟨settled', same'⟩ := settled.step taken
    exact ⟨settled', same'.trans same⟩

/-- The connection that `Accept` returned before the listener was closed is still to be admitted when
the health loop, alone in the wait group, ends: `Shutdown` returns, and the session starts. -/
theorem drained_before_start : ∃ lb trace s, LoadBalancer.Initial lb ∧
    Exec (step noCluster) (init lb) trace s ∧ s.shutdown = .drained ∧
    s.sessions.map (·.pc) = [.handling] := by
  obtain ⟨lb, trace, s, started, exec, -, passed⟩ := exec_of_play_made (step noCluster)
    (LoadBalancer.start LoadBalancer.oneUpstream) init
    (([.ok, .ok, .ok, .ok, .ok] : List Input).map ServeAction.serve ++
      ([.shutdown false, .shutdown false, .shutdown false, .healthLoop, .waiter, .waiter,
        .shutdown false] : List ServeAction) ++
      ([.ok, .ready .slot, .ready .slot, .ok, .ok, .ok, .ok] : List Input).map ServeAction.serve)
    (fun _ _ s => decide (s.shutdown = .drained ∧ s.sessions.map (·.pc) = [.handling]))
    (by decide +kernel)
  obtain ⟨drained, running⟩ := of_decide_eq_true passed
  exact ⟨lb, trace, s, ⟨_, lb, lb.dialer, started, rfl⟩, exec, drained, running⟩

theorem shutdown_complete_after_session : ∃ lb trace s, LoadBalancer.Initial lb ∧
    Exec (step noCluster) (init lb) trace s ∧ s.shutdown = .drained ∧
    s.sessions.map (·.pc) = [.ended] ∧
    ∀ later s', Exec (step noCluster) s later s' → s'.sessions = s.sessions := by
  obtain ⟨lb, trace, s, started, exec, -, passed⟩ := exec_of_play_made (step noCluster)
    (LoadBalancer.start LoadBalancer.oneUpstream) init
    (([.ok, .ok, .ok, .ok, .ok, .ok, .ready .slot, .ready .slot, .ok, .ok, .ok, .ok] : List Input).map
        ServeAction.serve ++
      ([.shutdown false, .shutdown false, .shutdown false, .closer, .serve .error, .healthLoop] :
        List ServeAction) ++
      List.replicate 5 (ServeAction.session 0) ++
      ([.waiter, .waiter, .shutdown false] : List ServeAction))
    (fun _ trace s => (trace.all fun entry => decide (entry.1.WakesStopped entry.2)) &&
      decide (s.shutdown = .drained ∧ s.sessions.map (·.pc) = [.ended]))
    (by decide +kernel)
  obtain ⟨tested, facts⟩ := Bool.and_eq_true_iff.1 passed
  obtain ⟨drained, ended⟩ := of_decide_eq_true facts
  have guarded : Guarded WakesStopped trace := fun entry member =>
    of_decide_eq_true (List.all_eq_true.1 tested entry member)
  exact ⟨lb, trace, s, ⟨_, lb, lb.dialer, started, rfl⟩, exec, drained, ended,
    (shutdown_complete exec guarded drained).2⟩

end ServeSys

end S5lb
