import S5lb.Balancer.Operations
import S5lb.Balancer.Pick

namespace S5lb

open Transition

theorem pick_rotates {sel : Selector} {sc : SelectCtx} {pool : List Snapshot} {maxPer : Int} {id : String}
    {idx : UInt64} (out : (sel.pick sc pool maxPer).Outcome (id, .roundRobin idx)) :
    ∃ before, sel = .roundRobin before := by
  cases sel with
  | roundRobin before => exact ⟨before, rfl⟩
  | wrr current => cases Drawing.outcome_ret.1 out
  | consistentHash => cases Drawing.outcome_ret.1 out
  | priorityFailover => cases Drawing.outcome_ret.1 out
  | _ =>
      obtain ⟨_, -, same⟩ := Drawing.outcome_map.1 out
      cases same

namespace LoadBalancer

def Full (lb : LoadBalancer) : Prop := ∀ u ∈ lb.pool.upstreams, ¬lb.Serves u

def Woken (lb : LoadBalancer) : Prop := lb.queue ≠ [] → lb.Full

/-- `dispatch` finds an upstream for the waiters, in the order of their contexts, as long as there is
one: each of its calls of `pick` is safe in the state that the ones before it have left. -/
def DispatchSafe (lb : LoadBalancer) : List SelectCtx → Prop
  | [] => True
  | sc :: rest => lb.PickSafe sc ∧ ∀ u next, (lb.pick sc).Outcome (some u, next) →
      DispatchSafe { next with queue := next.queue.tail } rest

variable {lb : LoadBalancer} {sc : SelectCtx} {out : Option Upstream × LoadBalancer}

theorem draining_of_incActive {u : Upstream} {state : State}
    (granted : (lb.heap.get u.state).incActive lb.cfg.maxPerProxy = some state) {v : Upstream} :
    Draining { lb with heap := lb.heap.set u.state state } v ↔ lb.Draining v := by
  obtain ⟨-, rfl⟩ := State.incActive_eq_some.1 granted
  by_cases same : v.state = u.state
  · simp only [Draining, same, Heap.get_set_self]
  · simp only [Draining, Heap.get_set_of_ne _ _ same]

theorem pick_queue (picked : (lb.pick sc).Outcome out) : out.2.queue = lb.queue := by
  obtain ⟨id, after, -, rfl⟩ := pick_outcome.1 picked
  rcases reserve_cases { lb with selector := after } id with same | ⟨u, state, -, -, same⟩
  · rw [same]
  · rw [same]

theorem full_of_refused (picked : (lb.pick sc).Outcome out) (refused : out.1 = none) (full : lb.Full) :
    out.2.Full := by
  obtain ⟨id, after, -, rfl⟩ := pick_outcome.1 picked
  rcases reserve_cases { lb with selector := after } id with same | ⟨u, state, -, -, same⟩
  · rw [same]
    exact full
  · rw [same] at refused
    cases refused

theorem full_of_pick (picked : (lb.pick sc).Outcome out) (full : lb.Full) : out.2.Full := by
  refine full_of_refused picked ?_ full
  cases got : out.1 with
  | none => rfl
  | some u => exact absurd (pick_sound picked got).2 (full u (pick_sound picked got).1)

theorem full_of_safe (safe : lb.PickSafe sc) (picked : (lb.pick sc).Outcome out) (refused : out.1 = none) :
    out.2.Full := by
  refine full_of_refused picked refused fun u member able => ?_
  exact not_complete_of_none ⟨u, member, able⟩ refused (pick_complete_of_safe safe picked)

theorem full_set {r : StateRef} {state : State} (full : lb.Full)
    (less : state.canServe lb.cfg.maxPerProxy = true → (lb.heap.get r).canServe lb.cfg.maxPerProxy = true) :
    Full { lb with heap := lb.heap.set r state } := by
  intro u member able
  apply full u member
  by_cases same : u.state = r
  · simp only [Serves, same, Heap.get_set_self] at able ⊢
    exact less able
  · simpa only [Serves, Heap.get_set_of_ne _ _ same] using able

theorem canServe_of_recordFailure {state : State} {threshold cap : Int} {window : Duration} {now : Time}
    (able : ((state.recordFailure threshold window now).1).canServe cap = true) : state.canServe cap = true := by
  have shape : ((state.recordFailure threshold window now).1).active = state.active ∧
      ((state.recordFailure threshold window now).1).draining = state.draining ∧
      (((state.recordFailure threshold window now).1).healthy = true → state.healthy = true) := by
    simp only [State.recordFailure]
    split <;> split <;> split <;> simp_all
  simp only [State.canServe, Bool.and_eq_true, decide_eq_true_eq] at able ⊢
  rw [shape.1, shape.2.1] at able
  exact ⟨⟨shape.2.2 able.1.1, able.1.2⟩, able.2⟩

theorem full_of_reload {client : KubeClient} {raw : Config}
    (pooled : ∀ u ∈ lb.pool.upstreams, u.state < lb.heap.next) (full : lb.Full)
    (covered : raw.Committable client → ∀ filled, raw.validate = .ok filled → ∀ spec ∈ filled.upstreams,
      ∃ v, lb.pool.byID spec.upstreamID = some v ∧
        (lb.heap.get v.state).canServe filled.maxPerProxy = false) :
    (lb.reloadFromConfig client raw).1.Full := by
  obtain ⟨fresh, made⟩ := reload_built client lb raw
  intro u member able
  rcases reload_pool client lb raw with ⟨pool, cfg⟩ | ⟨filled, ups, fit, valid, built, replaced, cap⟩
  · rw [pool] at member
    rw [Serves, cfg, made.old.get_eq _ (pooled u member)] at able
    exact full u member able
  · obtain ⟨⟨spec, specified, same⟩, -⟩ := mem_replaced raw valid built replaced member
    obtain ⟨v, known, unable⟩ := covered fit filled valid spec specified
    rw [same] at known
    rcases (mem_replaced raw valid built replaced member).2 with ⟨w, found, state⟩ | ⟨unknown, -⟩
    · cases known.symm.trans found
      have old := pooled v ((lb.pool.indexed _ _).1 known).1
      rw [Serves, cap, state, made.old.get_eq _ old, unable] at able
      cases able
    · rw [unknown] at known
      cases known

end LoadBalancer

namespace Sys

def contexts (s : Sys) (queue : List Nat) : List SelectCtx :=
  queue.filterMap fun w => s.threads[w]?.map (·.sc)

theorem contexts_put {s : Sys} {i : Nat} {t : Goroutine} (located : s.threads[i]? = some t)
    (lb : LoadBalancer) (t' : Goroutine) (same : t'.sc = t.sc) (queue : List Nat) :
    (s.put lb i t').contexts queue = s.contexts queue := by
  refine List.filterMap_congr fun w _ => ?_
  by_cases self : w = i
  · subst self
    rw [threads_put_self located, located, Option.map_some, Option.map_some, same]
  · simp only [put, List.getElem?_set_ne (Ne.symm self)]

theorem contexts_add {s : Sys} (disciplined : s.Disciplined) (t : Goroutine) :
    (s.add t).contexts s.lb.queue = s.contexts s.lb.queue := by
  refine List.filterMap_congr fun w queued => ?_
  obtain ⟨_, located, -⟩ := disciplined.queued w queued
  have bound := (List.getElem?_eq_some_iff.1 located).1
  simp only [add, List.getElem?_append_left bound]

def handed (s : Sys) (lb : LoadBalancer) (i head : Nat) (t w : Goroutine) (u : Upstream) : Sys :=
  (s.put { lb with queue := lb.queue.tail } i { t with pc := .dispatch 0 }).put
    { lb with queue := lb.queue.tail } head { w with ticket := some u }

theorem dispatch_turn {s last : Sys} {i head : Nat} {rest : List Nat} {t : Goroutine}
    (disciplined : s.Disciplined) (located : s.threads[i]? = some t) (at_ : t.pc = .dispatch 0)
    (queue : s.lb.queue = head :: rest) (settles : Settles i s last) :
    ∃ w out, s.threads[head]? = some w ∧ head ≠ i ∧ (s.lb.pick w.sc).Outcome out ∧
      out.2.queue = s.lb.queue ∧
      match out.1 with
      | none => last = s.put out.2 i { t with pc := .done }
      | some u => (s.handed out.2 i head t w u).Disciplined ∧ Settles i (s.handed out.2 i head t w u) last := by
  obtain ⟨w, locatedW, waits, vacant⟩ := disciplined.queued head (by simp [queue])
  have still := (disciplined.threads w (List.mem_of_getElem? locatedW)).canceled (.inr waits)
  have other : head ≠ i := by
    rintro rfl
    cases located.symm.trans locatedW
    rw [at_] at waits
    exact waits
  obtain ⟨draws, s₁, advanced, later⟩ := settles_advance located (at_ ▸ rfl) settles
  have peeked := step_disciplined disciplined (move_of_advance located advanced)
  simp only [advance, at_, peek, queue, locatedW, still, Option.map_some, Option.some.injEq,
    Bool.false_eq_true, if_false] at advanced
  subst advanced
  have here := @threads_put_self s s.lb i { t with pc := .pick (.dispatch 0 head) .config } t located
  have context : (s.put s.lb i { t with pc := .pick (.dispatch 0 head) .config }).contextOf
      { t with pc := .pick (.dispatch 0 head) .config } (.dispatch 0 head) = some w.sc := by
    simp [contextOf, threads_put _ _ other locatedW]
  obtain ⟨out, run, later⟩ := settles_pick here rfl context later
  have picked := LoadBalancer.pickRun_pick.1 run
  have same : out.2.queue = s.lb.queue := LoadBalancer.pick_queue picked
  have kept := picked_disciplined peeked here rfl same (pickResult out.1)
  rw [put_put] at later kept
  refine ⟨w, out, locatedW, other, picked, same, ?_⟩
  cases got : out.1 with
  | none =>
      rw [got] at later
      exact settles_rest (threads_put_self located) rfl later
  | some u =>
      rw [got] at later kept
      have delivering := @threads_put_self s out.2 i { t with pc := .deliver 0 head u } t located
      obtain ⟨draws, s₂, advanced, later⟩ := settles_advance delivering rfl later
      have given := step_disciplined kept (move_of_advance delivering advanced)
      have waiting := threads_put out.2 { t with pc := .deliver 0 head u } other locatedW
      have front : out.2.queue.head? = some head := by rw [same, queue]; rfl
      have there : s₂ = s.handed out.2 i head t w u := by
        simp only [advance, deliver, waiting, Option.map_some, Option.some.injEq] at advanced
        rw [if_pos ⟨front, still⟩] at advanced
        simp only [vacant, put_put] at advanced
        exact advanced.symm
      subst there
      exact ⟨given, later⟩

def Wakes (s : Sys) (lb : LoadBalancer) : Prop := lb.DispatchSafe (s.contexts lb.queue)

theorem Wakes.put {s : Sys} {lb lb' : LoadBalancer} {i : Nat} {t t' : Goroutine} (wakes : s.Wakes lb)
    (located : s.threads[i]? = some t) (same : t'.sc = t.sc) : (s.put lb' i t').Wakes lb := by
  rw [Wakes, contexts_put located lb' t' same]
  exact wakes

theorem settles_dispatch {s last : Sys} {i : Nat} {t : Goroutine} (disciplined : s.Disciplined)
    (located : s.threads[i]? = some t) (at_ : t.pc = .dispatch 0) (wakes : s.Wakes s.lb)
    (settles : Settles i s last) : last.lb.Woken := by
  induction queue : s.lb.queue generalizing s t with
  | nil =>
      obtain ⟨draws, s', advanced, later⟩ := settles_advance located (at_ ▸ rfl) settles
      simp only [advance, at_, peek, queue, Option.some.injEq] at advanced
      subst advanced
      cases settles_rest (threads_put_self located) rfl later
      exact fun waiting => absurd queue waiting
  | cons head rest ih =>
      obtain ⟨w, out, locatedW, other, picked, same, ends⟩ := dispatch_turn disciplined located at_ queue settles
      have order : s.contexts s.lb.queue = w.sc :: s.contexts rest := by simp [contexts, queue, locatedW]
      rw [Wakes, order] at wakes
      cases got : out.1 with
      | none =>
          simp only [got] at ends
          subst ends
          exact fun _ => LoadBalancer.full_of_safe wakes.1 picked got
      | some u =>
          simp only [got] at ends
          have here : (s.handed out.2 i head t w u).threads[i]? = some { t with pc := .dispatch 0 } :=
            threads_put _ _ other.symm (threads_put_self located)
          have left : (s.handed out.2 i head t w u).lb.queue = rest := by
            simp [handed, put, same, queue]
          have waiting := threads_put { out.2 with queue := out.2.queue.tail } { t with pc := .dispatch 0 }
            other locatedW
          have later : (s.handed out.2 i head t w u).contexts rest = s.contexts rest :=
            (contexts_put waiting _ { w with ticket := some u } rfl rest).trans
              (contexts_put located _ { t with pc := .dispatch 0 } rfl rest)
          refine ih ends.1 here rfl ?_ ends.2 left
          rw [Wakes, left, later]
          exact wakes.2 u out.2 (by rwa [← got])

def released (lb : LoadBalancer) (u : Upstream) : LoadBalancer :=
  { lb with heap := lb.heap.set u.state (lb.heap.get u.state).decActive }

/-- Operations after which nobody needs to be woken, or somebody looks. `dispatch` is called only
by `releaseSlot` and `markHealthy`, so that a drain flag taken back and a reload must not make an
upstream able to serve while somebody waits; and `pick` must not miss one that is. -/
def Prudent (client : KubeClient) (s : Sys) : Operation → Prop
  | .acquireSlot sc _ => s.lb.PickSafe sc
  | .receive _ | .recordFailure _ _ => True
  | .cancelWaiter i _ => ∀ t ∈ s.threads[i]?, ∀ u, t.ticket = some u → s.Wakes (released s.lb u)
  | .releaseSlot i _ => ∀ t ∈ s.threads[i]?, ∀ u, t.pc = .holding u → s.Wakes (released s.lb u)
  | .markHealthy r _ => (s.lb.heap.get r).healthy = false → s.Wakes (recovered s.lb r)
  | .drainUpstream id drain => drain = false → s.lb.queue ≠ [] → ∀ u, s.lb.pool.byID id = some u →
      ((s.lb.heap.get u.state).setDrain false).canServe s.lb.cfg.maxPerProxy = false
  | .reload cfg => s.lb.queue ≠ [] → cfg.Committable client → ∀ filled, cfg.validate = .ok filled →
      ∀ spec ∈ filled.upstreams, ∃ v, s.lb.pool.byID spec.upstreamID = some v ∧
        (s.lb.heap.get v.state).canServe filled.maxPerProxy = false

theorem settles_release {s last : Sys} {i : Nat} {t : Goroutine} {u : Upstream} (disciplined : s.Disciplined)
    (located : s.threads[i]? = some t) (at_ : t.pc = .release u 0) (wakes : s.Wakes (released s.lb u))
    (settles : Settles i s last) : last.lb.Woken := by
  obtain ⟨draws, s₁, advanced, later⟩ := settles_advance located (at_ ▸ rfl) settles
  have kept := step_disciplined disciplined (move_of_advance located advanced)
  simp only [advance, at_, Option.some.injEq] at advanced
  subst advanced
  exact settles_dispatch kept (threads_put_self located) rfl (wakes.put located rfl) later

structure Ready (s : Sys) : Prop where
  disciplined : s.Disciplined
  pooled : ∀ u ∈ s.lb.pool.upstreams, u.state < s.lb.heap.next
  woken : s.lb.Woken

theorem acquire_woken {s s' : Sys} {sc : SelectCtx} (woken : s.lb.Woken)
    (safe : s.lb.PickSafe sc)
    (settles : Settles s.threads.length (s.add ⟨.pick .acquire .config, sc, none, false⟩) s') :
    s'.lb.Woken := by
  have here : (s.add ⟨.pick .acquire .config, sc, none, false⟩).threads[s.threads.length]? =
      some ⟨.pick .acquire .config, sc, none, false⟩ := by simp [add]
  obtain ⟨out, run, later⟩ := settles_pick here rfl rfl settles
  have picked := LoadBalancer.pickRun_pick.1 run
  have same : out.2.queue = s.lb.queue := LoadBalancer.pick_queue picked
  cases got : out.1 with
  | some u =>
      rw [got] at later
      cases settles_rest (threads_put_self here) rfl later
      exact fun waiting => LoadBalancer.full_of_pick picked (woken (same ▸ waiting))
  | none =>
      rw [got] at later
      obtain ⟨draws, s₁, advanced, later⟩ := settles_advance (threads_put_self here) rfl later
      simp only [advance, pickResult, Pc.picked, Option.some.injEq, put_put] at advanced
      subst advanced
      cases settles_rest (threads_put_self here) rfl later
      exact fun _ => LoadBalancer.full_of_safe safe picked got

theorem cancel_woken {s last : Sys} {i : Nat} {t : Goroutine} (disciplined : s.Disciplined)
    (woken : s.lb.Woken) (located : s.threads[i]? = some t) (at_ : t.pc = .cancel)
    (wakes : ∀ u, t.ticket = some u → s.Wakes (released s.lb u)) (settles : Settles i s last) :
    last.lb.Woken := by
  obtain ⟨draws, s₁, advanced, later⟩ := settles_advance located (at_ ▸ rfl) settles
  have kept := step_disciplined disciplined (move_of_advance located advanced)
  simp only [advance, at_, cancelWaiter, Option.some.injEq] at advanced
  split at advanced
  · subst advanced
    cases settles_rest (threads_put_self located) rfl later
    intro waiting
    exact woken fun empty => waiting (by simp [put, empty])
  · split at advanced
    · rename_i u ticket
      subst advanced
      exact settles_release kept (threads_put_self located) rfl ((wakes u ticket).put located rfl) later
    · subst advanced
      cases settles_rest (threads_put_self located) rfl later
      exact woken

theorem operate_woken {client : KubeClient} {s s' : Sys} {op : Operation} (ready : s.Ready)
    (prudent : s.Prudent client op) (taken : s.operate client op = some s') : s'.lb.Woken := by
  cases operate_cases taken with
  | acquireSlot settles => exact acquire_woken ready.woken prudent settles
  | receive => exact ready.woken
  | @cancelWaiter _ t _ _ located gave settles =>
      have kept := step_disciplined ready.disciplined (step_cases gave)
      exact cancel_woken kept ready.woken (threads_put_self located) rfl
        (fun u ticket => (prudent t located u ticket).put located rfl) settles
  | @releaseSlot _ t u _ _ located at_ ended settles =>
      have kept := step_disciplined ready.disciplined (step_cases ended)
      exact settles_release kept (threads_put_self located) rfl
        ((prudent t located u at_).put located rfl) settles
  | healthy => exact fun waiting => LoadBalancer.full_set (ready.woken waiting) id
  | @recovers r _ _ down marked settles =>
      have kept := step_disciplined ready.disciplined (step_cases marked)
      have here : (Sys.add { s with lb := recovered s.lb r } prober).threads[s.threads.length]? =
          some prober := by simp [add]
      have wakes : LoadBalancer.DispatchSafe (recovered s.lb r) (s.contexts s.lb.queue) := prudent down
      rw [← contexts_add ready.disciplined prober] at wakes
      exact settles_dispatch kept here rfl wakes settles
  | recordFailure failed =>
      subst failed
      exact fun waiting => LoadBalancer.full_set (ready.woken waiting) LoadBalancer.canServe_of_recordFailure
  | unknown => exact ready.woken
  | @drainUpstream _ drain u found =>
      intro waiting
      refine LoadBalancer.full_set (ready.woken waiting) fun able => ?_
      cases drain with
      | true => simp [State.setDrain, State.canServe] at able
      | false =>
          have unable := prudent rfl waiting u found
          rw [unable] at able
          cases able
  | reload =>
      intro waiting
      rw [LoadBalancer.reload_queue] at waiting
      exact LoadBalancer.full_of_reload ready.pooled (ready.woken waiting) (prudent waiting)

/-- If somebody is parked in the queue, nobody in the pool can serve. -/
theorem capacity_wakes {client : KubeClient} {lb : LoadBalancer} (initial : lb.Initial)
    {trace : List (Sys × Operation)} {s : Sys} (exec : Exec (operate client) (init lb) trace s)
    (guarded : Guarded (Prudent client) trace) :
    s.lb.queue ≠ [] → ∀ u ∈ s.lb.pool.upstreams, ¬s.lb.Serves u := by
  obtain ⟨-, pooled, empty, -⟩ := initial_fresh initial
  have ready : s.Ready := by
    refine exec.invariant (P := fun _ s => s.Ready) ?_ ?_ guarded
    · refine ⟨⟨?_, ?_, ?_⟩, pooled, fun waiting => absurd empty waiting⟩ <;> simp [init, empty]
    · intro _ s op s' _ ready prudent taken
      exact ⟨operate_disciplined ready.disciplined taken, operate_pooled ready.pooled taken,
        operate_woken ready prudent taken⟩
  exact ready.woken

/-- The drain flag is taken back, and nobody is told. -/
theorem undrain_strands : ∃ lb : LoadBalancer, lb.Initial ∧
    ∃ trace s, Exec (operate noCluster) (init lb) trace s ∧
      trace.map Prod.snd = [.drainUpstream "a" true, .acquireSlot anyone (List.replicate 7 []),
        .drainUpstream "a" false] ∧
      s.lb.queue ≠ [] ∧ ∃ u ∈ s.lb.pool.upstreams, s.lb.Serves u := by
  obtain ⟨lb, initial, -, trace, s, exec, actions, stranded⟩ := exists_run (operate noCluster)
    LoadBalancer.oneUpstream
    [.drainUpstream "a" true, .acquireSlot anyone (List.replicate 7 []), .drainUpstream "a" false]
    (fun _ s => decide (s.lb.queue ≠ [] ∧ ∃ u ∈ s.lb.pool.upstreams,
      (s.lb.heap.get u.state).canServe s.lb.cfg.maxPerProxy = true)) (by decide +kernel)
  obtain ⟨waiting, u, member, able⟩ := of_decide_eq_true stranded
  exact ⟨lb, initial, trace, s, exec, actions, waiting, u, member, able⟩

def sessionsOnly (s : Sys) : Operation → Bool
  | .acquireSlot _ _ | .releaseSlot _ _ =>
      s.lb.selector.name != "round-robin" &&
        s.lb.pool.upstreams.all fun u => !(s.lb.heap.get u.state).draining
  | _ => false

theorem dispatchSafe_of_undrained {lb : LoadBalancer} (other : ∀ idx, lb.selector ≠ .roundRobin idx)
    (steady : ∀ u ∈ lb.pool.upstreams, ¬lb.Draining u) (scs : List SelectCtx) : lb.DispatchSafe scs := by
  induction scs generalizing lb with
  | nil => trivial
  | cons sc rest ih =>
      refine ⟨.inr ⟨fun u member _ _ => steady u member, fun idx rotates => absurd rotates (other idx)⟩, ?_⟩
      intro u next picked
      obtain ⟨id, after, chosen, reserved⟩ := LoadBalancer.pick_outcome.1 picked
      have unturned (idx : UInt64) : after ≠ .roundRobin idx := by
        rintro rfl
        obtain ⟨before, rotates⟩ := pick_rotates chosen
        exact other before rotates
      rcases LoadBalancer.reserve_cases { lb with selector := after } id with
        same | ⟨v, state, -, granted, same⟩
      · cases reserved.trans same
      · cases reserved.trans same
        refine ih unturned fun w member draining => steady w member ?_
        exact (@LoadBalancer.draining_of_incActive lb u state granted w).1 draining

theorem prudent_of_sessionsOnly {client : KubeClient} {s : Sys} {op : Operation}
    (good : s.sessionsOnly op = true) : s.Prudent client op := by
  have unturned (other : s.lb.selector.name ≠ "round-robin") (idx : UInt64) :
      s.lb.selector ≠ .roundRobin idx := fun rotates => other (by rw [rotates]; rfl)
  cases op with
  | acquireSlot sc draws =>
      simp only [sessionsOnly, Bool.and_eq_true, bne_iff_ne, List.all_eq_true, Bool.not_eq_true'] at good
      have steady : ∀ u ∈ s.lb.pool.upstreams, ¬s.lb.Draining u := fun u member => by
        simp [LoadBalancer.Draining, good.2 u member]
      exact (dispatchSafe_of_undrained (unturned good.1) steady [sc]).1
  | releaseSlot i draws =>
      simp only [sessionsOnly, Bool.and_eq_true, bne_iff_ne, List.all_eq_true, Bool.not_eq_true'] at good
      intro t located u at_
      refine @dispatchSafe_of_undrained (released s.lb u) (unturned good.1) ?_ _
      intro v member
      have idle := good.2 v member
      by_cases same : v.state = u.state
      · rw [same] at idle
        simp only [LoadBalancer.Draining, released, same, Heap.get_set_self, State.decActive]
        split <;> simp [idle]
      · simp [LoadBalancer.Draining, released, Heap.get_set_of_ne _ _ same, idle]
  | _ => cases good

theorem capacity_wakes_handed_over : ∃ lb : LoadBalancer, lb.Initial ∧
    ∃ trace s, Exec (operate noCluster) (init lb) trace s ∧ Guarded (Prudent noCluster) trace ∧
      s.lb.queue = [2] ∧ ∀ u ∈ s.lb.pool.upstreams, ¬s.lb.Serves u := by
  obtain ⟨lb, initial, -, trace, s, exec, -, good⟩ := exists_run (operate noCluster)
    LoadBalancer.oneUpstream
    [.acquireSlot anyone (List.replicate 6 []), .acquireSlot anyone (List.replicate 6 []),
      .acquireSlot anyone (List.replicate 6 []), .releaseSlot 0 (List.replicate 15 [])]
    (fun trace s => decide ((∀ entry ∈ trace, entry.1.sessionsOnly entry.2 = true) ∧ s.lb.queue = [2]))
    (by decide +kernel)
  obtain ⟨tested, queue⟩ := of_decide_eq_true good
  have guarded : Guarded (Prudent noCluster) trace := fun entry member =>
    prudent_of_sessionsOnly (tested entry member)
  exact ⟨lb, initial, trace, s, exec, guarded, queue, capacity_wakes initial exec guarded (by simp [queue])⟩

end Sys

end S5lb
