import S5lb.Balancer.LoadBalancer
import S5lb.Lib.Threads
import S5lb.Lib.Transition
import S5lb.Lib.WorkQueue
import S5lb.Upstream.Breaker
import S5lb.Upstream.Latency

/-!
# The health loop

`healthLoop` with the workers of `runHealthChecks`, beside sessions that report on the same upstreams
and reloads that replace the pool and the configuration.
-/

namespace S5lb

open Transition

inductive Visit
  | idle
  | healthy (u : Upstream)
  | lastFailure (u : Upstream)
  | since (u : Upstream) (last : Time)
  | probing (u : Upstream)
  | succeeded (u : Upstream)
  | marking (u : Upstream)
  | dispatching (u : Upstream)
  | failed (u : Upstream)
  | reporting (u : Upstream) (threshold : Int) (window : Duration)
  | counting (u : Upstream) (threshold : Int) (window : Duration) (now : Time)
  | refreshing (u : Upstream)
  | exited
  deriving DecidableEq

namespace Visit

def upstream? : Visit → Option Upstream
  | idle | exited => none
  | healthy u | lastFailure u | since u _ | probing u | succeeded u | marking u | dispatching u
  | failed u | reporting u _ _ | counting u _ _ _ | refreshing u => some u

def steps : Visit → Nat
  | exited => 0
  | idle => 1
  | refreshing _ => 2
  | counting _ _ _ _ | dispatching _ => 3
  | reporting _ _ _ | marking _ => 4
  | failed _ | succeeded _ => 5
  | probing _ => 6
  | since _ _ => 7
  | lastFailure _ => 8
  | healthy _ => 9

/-- One step of the loop body. A call under the lock of a `State` is one step, and so is a reading of
the clock or of the configuration; `answered` is the outcome of the probe. -/
def advance (now : Time) (cfg : Config) (backoff : Duration) (answered : Bool) (heap : Heap State) :
    Visit → Option (Visit × Heap State)
  | idle | exited => none
  | healthy u => some (if (heap.get u.state).healthy then probing u else lastFailure u, heap)
  | lastFailure u => some (since u (heap.get u.state).lastFailureTS, heap)
  | since u last => some (if now - last < backoff then idle else probing u, heap)
  | probing u => some (if answered then succeeded u else failed u, heap)
  | succeeded u => some (marking u, heap.set u.state (heap.get u.state).recordSuccess)
  | marking u =>
      let (state, changed) := (heap.get u.state).markHealthy
      some (if changed then dispatching u else refreshing u, heap.set u.state state)
  -- What `dispatch` reserves is reserved by steps of other goroutines here.
  | dispatching u => some (refreshing u, heap)
  | failed u => some (reporting u cfg.failureThreshold cfg.failureWindow, heap)
  | reporting u threshold window => some (counting u threshold window now, heap)
  | counting u threshold window t =>
      some (refreshing u, heap.set u.state ((heap.get u.state).recordFailure threshold window t).1)
  | refreshing _ => some (idle, heap)

section Advance

variable {now : Time} {cfg : Config} {backoff : Duration} {answered : Bool} {heap heap' : Heap State}
  {v v' : Visit}

theorem steps_of_advance (taken : v.advance now cfg backoff answered heap = some (v', heap')) :
    v'.steps < v.steps := by
  cases v with
  | idle | exited => simp [advance] at taken
  | healthy | since | probing | marking =>
      simp only [advance, Option.some.injEq, Prod.mk.injEq] at taken
      obtain ⟨rfl, -⟩ := taken
      split <;> simp [steps]
  | _ =>
      simp only [advance, Option.some.injEq, Prod.mk.injEq] at taken
      obtain ⟨rfl, -⟩ := taken
      simp [steps]

theorem upstream_of_advance (taken : v.advance now cfg backoff answered heap = some (v', heap')) :
    v' = idle ∨ v'.upstream? = v.upstream? := by
  cases v with
  | idle | exited => simp [advance] at taken
  | healthy | since | probing | marking =>
      simp only [advance, Option.some.injEq, Prod.mk.injEq] at taken
      obtain ⟨rfl, -⟩ := taken
      split <;> simp [upstream?]
  | _ =>
      simp only [advance, Option.some.injEq, Prod.mk.injEq] at taken
      obtain ⟨rfl, -⟩ := taken
      simp [upstream?]

theorem next_of_advance (taken : v.advance now cfg backoff answered heap = some (v', heap')) :
    heap'.next = heap.next := by
  cases v with
  | idle | exited => simp [advance] at taken
  | _ =>
      cases taken
      rfl

theorem upstream_of_ne (busy : v ≠ idle) (running : v ≠ exited) : ∃ u, v.upstream? = some u := by
  cases v with
  | idle => exact absurd rfl busy
  | exited => exact absurd rfl running
  | _ => exact ⟨_, rfl⟩

theorem exists_advance (now : Time) (cfg : Config) (backoff : Duration) (answered : Bool)
    (heap : Heap State) (busy : v ≠ idle) (running : v ≠ exited) :
    ∃ next, v.advance now cfg backoff answered heap = some next := by
  cases v with
  | idle => exact absurd rfl busy
  | exited => exact absurd rfl running
  | _ => exact ⟨_, rfl⟩

end Advance

end Visit

structure Round where
  backoff : Duration
  pool : List Upstream
  work : WorkQueue Upstream Visit
  taken : Nat

def Round.workers (procs : Nat) (pool : List Upstream) : Nat :=
  let workers := procs * 2
  let workers := if workers > pool.length then pool.length else workers
  if workers < 1 then 1 else workers

def Round.start (procs : Nat) (backoff : Duration) (pool : List Upstream) : Round :=
  ⟨backoff, pool, ⟨pool, List.replicate (Round.workers procs pool) .idle, []⟩, 0⟩

inductive HealthPc
  | waiting (due : Time)
  | configured (backoff : Duration)
  | checking (round : Round)
  | resetting
  | ended

/-- A session in `RecordFailure` that has read the clock and is not yet in the lock. -/
structure FailureReport where
  state : StateRef
  threshold : Int
  window : Duration
  now : Time
  deriving DecidableEq

structure HealthSys where
  now : Time
  heap : Heap State
  cfg : Config
  pool : Pool
  done : Bool
  reports : List FailureReport
  loop : HealthPc

inductive HealthAction
  | tick (now : Time)
  | cancel
  | setConfig (cfg : Config)
  | setUpstreams (pool : Pool)
  | newState
  | session (r : StateRef) (op : LockedOp)
  | sessionFails (r : StateRef) (threshold : Int) (window : Duration)
  | sessionCounts (i : Nat)
  | loop
  | loopDone
  | worker (i : Nat) (answered : Bool)

def LockedOp.bySession : LockedOp → Bool
  | incActive _ | decActive | recordSuccess | setDrain _ => true
  | markHealthy | markUnhealthy _ | recordFailure _ _ _ => false

namespace HealthSys

def start (now : Time) (heap : Heap State) (cfg : Config) (pool : Pool) : HealthSys :=
  ⟨now, heap, cfg, pool, false, [], .waiting (now + cfg.healthInterval)⟩

def loopStep (procs : Nat) (s : HealthSys) : Option HealthPc :=
  match s.loop with
  | .waiting due => if due ≤ s.now then some (.configured s.cfg.retryBackoff) else none
  | .configured backoff =>
      if s.pool.upstreams = [] then some .resetting
      else some (.checking (.start procs backoff s.pool.upstreams))
  | .checking round => if ∀ v ∈ round.work.workers, v = .exited then some .resetting else none
  | .resetting => some (.waiting (s.now + s.cfg.healthInterval))
  | .ended => none

def workerStep (s : HealthSys) (round : Round) (i : Nat) (answered : Bool) :
    Option (WorkQueue Upstream Visit × Heap State) :=
  let work := round.work
  match work.workers[i]? with
  | none => none
  | some .idle =>
      match work.queue with
      | [] => some ({ work with workers := work.workers.set i .exited }, s.heap)
      | u :: rest => some (⟨rest, work.workers.set i (.healthy u), work.finished⟩, s.heap)
  | some v =>
      (v.advance s.now s.cfg round.backoff answered s.heap).map fun (v', heap) =>
        (⟨work.queue, work.workers.set i v',
          if v' = .idle then work.finished ++ v.upstream?.toList else work.finished⟩, heap)

def step (procs : Nat) (s : HealthSys) : HealthAction → Option HealthSys
  | .tick now => if s.now ≤ now then some { s with now } else none
  | .cancel => some { s with done := true }
  | .setConfig cfg => some { s with cfg }
  | .setUpstreams pool => some { s with pool }
  | .newState => some { s with heap := (s.heap.alloc S5lb.newState).2 }
  | .session r op =>
      if op.bySession then some { s with heap := s.heap.set r (op.run (s.heap.get r)) } else none
  | .sessionFails r threshold window =>
      some { s with reports := s.reports ++ [⟨r, threshold, window, s.now⟩] }
  | .sessionCounts i =>
      s.reports[i]?.map fun f => { s with
        heap := s.heap.set f.state ((s.heap.get f.state).recordFailure f.threshold f.window f.now).1
        reports := s.reports.eraseIdx i }
  | .loop => (s.loopStep procs).map fun loop => { s with loop }
  | .loopDone =>
      match s.loop with
      | .waiting _ => if s.done then some { s with loop := .ended } else none
      | _ => none
  | .worker i answered =>
      match s.loop with
      | .checking round =>
          (s.workerStep round i answered).map fun (work, heap) =>
            { s with heap, loop := .checking { round with work, taken := round.taken + 1 } }
      | _ => none

variable {procs : Nat} {s s' : HealthSys} {round : Round} {i : Nat} {answered : Bool}

theorem workerStep_busy {v : Visit} (here : round.work.workers[i]? = some v) (busy : v ≠ .idle) :
    s.workerStep round i answered =
      (v.advance s.now s.cfg round.backoff answered s.heap).map fun (v', heap) =>
        (⟨round.work.queue, round.work.workers.set i v',
          if v' = .idle then round.work.finished ++ v.upstream?.toList else round.work.finished⟩,
          heap) := by
  unfold workerStep
  cases v with
  | idle => exact absurd rfl busy
  | _ => simp only [here]

theorem moves_of_workerStep {work : WorkQueue Upstream Visit} {heap : Heap State}
    (taken : s.workerStep round i answered = some (work, heap)) :
    WorkQueue.Moves Visit.upstream? Visit.steps 9 round.work work := by
  cases here : round.work.workers[i]? with
  | none => simp [workerStep, here] at taken
  | some v =>
      by_cases idle : v = .idle
      · subst idle
        cases first : round.work.queue with
        | nil =>
            simp only [workerStep, here, first, Option.some.injEq, Prod.mk.injEq] at taken
            obtain ⟨rfl, -⟩ := taken
            rw [← first]
            exact .leaves here rfl first rfl (by simp [Visit.steps])
        | cons u rest =>
            simp only [workerStep, here, first, Option.some.injEq, Prod.mk.injEq] at taken
            exact taken.1 ▸ .takes here rfl first rfl (by simp [Visit.steps])
      · rw [workerStep_busy here idle] at taken
        obtain ⟨⟨v', heap'⟩, advanced, same⟩ := Option.map_eq_some_iff.1 taken
        have less := Visit.steps_of_advance advanced
        simp only [Prod.mk.injEq] at same
        have running : v ≠ .exited := by
          rintro rfl
          simp [Visit.advance] at advanced
        obtain ⟨u, held⟩ := Visit.upstream_of_ne idle running
        rcases Visit.upstream_of_advance advanced with rfl | same'
        · simp only [if_true, held, Option.toList_some] at same
          exact same.1 ▸ .finishes here held rfl (by simp [Visit.steps]) less
        · rw [held] at same'
          have going : v' ≠ .idle := by
            rintro rfl
            cases same'
          rw [if_neg going] at same
          exact same.1 ▸ .works here held same' less

end HealthSys

theorem Round.workers_eq {procs : Nat} {pool : List Upstream} (positive : 0 < procs)
    (some : pool ≠ []) : Round.workers procs pool = min (2 * procs) pool.length := by
  have more := List.length_pos_iff.2 some
  unfold Round.workers
  dsimp only
  split
  · rw [if_neg (by omega)]
    omega
  · rw [if_neg (by omega)]
    omega

structure Round.Sound (procs : Nat) (round : Round) : Prop where
  nonempty : round.pool ≠ []
  distinct : round.pool.Nodup
  conserves : round.work.Conserves Visit.upstream? round.pool
  drained : round.work.Drained Visit.upstream? Visit.steps
  workers : round.work.workers.length = Round.workers procs round.pool
  bounded : round.taken + round.work.rank Visit.steps 9 ≤
    9 * round.pool.length + Round.workers procs round.pool

theorem Round.sound_start {procs : Nat} {backoff : Duration} {pool : Pool}
    (nonempty : pool.upstreams ≠ []) : (Round.start procs backoff pool.upstreams).Sound procs := by
  refine ⟨nonempty, pool.distinct.of_map, ?_, ?_, by simp [start], ?_⟩
  · have none (n : Nat) : (List.replicate n Visit.idle).filterMap Visit.upstream? = [] :=
      List.filterMap_eq_nil_iff.2 fun v member => by rw [List.eq_of_mem_replicate member]; rfl
    simp [start, WorkQueue.Conserves, WorkQueue.inHand, none]
  · rintro ⟨v, member, left⟩
    rw [List.eq_of_mem_replicate member] at left
    cases left.2
  · simp [start, WorkQueue.rank, Ledger.total, Visit.steps]

theorem Round.Sound.moves {procs : Nat} {round : Round} {work : WorkQueue Upstream Visit}
    (sound : round.Sound procs)
    (moves : WorkQueue.Moves Visit.upstream? Visit.steps 9 round.work work) :
    ({ round with work, taken := round.taken + 1 } : Round).Sound procs := by
  obtain ⟨nonempty, distinct, conserves, drained, workers, bounded⟩ := sound
  have lower := moves.rank_lt
  refine ⟨nonempty, distinct, conserves.moves moves, drained.moves moves,
    moves.workers_length.trans workers, ?_⟩
  dsimp only
  omega

namespace HealthSys

variable {procs : Nat} {s s' : HealthSys}

theorem loop_of_step {a : HealthAction} (taken : step procs s a = some s') :
    s'.loop = s.loop ∨ s.loopStep procs = some s'.loop ∨ s'.loop = .ended ∨
      ∃ round work, s.loop = .checking round ∧
        WorkQueue.Moves Visit.upstream? Visit.steps 9 round.work work ∧
        s'.loop = .checking { round with work, taken := round.taken + 1 } := by
  cases a with
  | cancel | setConfig | setUpstreams | newState | sessionFails =>
      cases taken
      exact .inl rfl
  | tick | session =>
      simp only [step] at taken
      split at taken <;> cases taken
      exact .inl rfl
  | sessionCounts i =>
      obtain ⟨f, -, rfl⟩ := Option.map_eq_some_iff.1 taken
      exact .inl rfl
  | loop =>
      obtain ⟨loop, next, rfl⟩ := Option.map_eq_some_iff.1 taken
      exact .inr (.inl next)
  | loopDone =>
      simp only [step] at taken
      split at taken
      · split at taken <;> cases taken
        exact .inr (.inr (.inl rfl))
      · cases taken
  | worker i answered =>
      cases on : s.loop with
      | checking round =>
          simp only [step, on] at taken
          obtain ⟨⟨work, heap⟩, moved, rfl⟩ := Option.map_eq_some_iff.1 taken
          exact .inr (.inr (.inr ⟨round, work, rfl, moves_of_workerStep moved, rfl⟩))
      | _ => simp [step, on] at taken

theorem round_of_loopStep {round : Round} (next : s.loopStep procs = some (.checking round)) :
    ∃ backoff, s.loop = .configured backoff ∧ s.pool.upstreams ≠ [] ∧
      round = .start procs backoff s.pool.upstreams := by
  unfold loopStep at next
  split at next
  · split at next <;> cases next
  · rename_i backoff on
    split at next
    · cases next
    · rename_i nonempty
      cases next
      exact ⟨backoff, on, nonempty, rfl⟩
  · split at next <;> cases next
  · cases next
  · cases next

theorem round_sound {now : Time} {heap : Heap State} {cfg : Config} {pool : Pool}
    {trace : List (HealthSys × HealthAction)}
    (exec : Exec (step procs) (start now heap cfg pool) trace s) :
    ∀ round, s.loop = .checking round → round.Sound procs := by
  refine exec.stable (P := fun s => ∀ round, s.loop = .checking round → round.Sound procs) ?_ ?_
  · intro round on
    cases on
  · intro s a s' sound taken round on
    rcases loop_of_step taken with same | next | ended | ⟨round', work, before, moves, after⟩
    · exact sound round (same ▸ on)
    · rw [on] at next
      obtain ⟨backoff, -, nonempty, rfl⟩ := round_of_loopStep next
      exact Round.sound_start nonempty
    · cases on.symm.trans ended
    · cases on.symm.trans after
      exact (sound round' before).moves moves

theorem worker_enabled {round : Round} (on : s.loop = .checking round) {i : Nat} {v : Visit}
    (here : round.work.workers[i]? = some v) (running : v ≠ .exited) (answered : Bool) :
    ∃ s', step procs s (.worker i answered) = some s' := by
  simp only [step, on]
  by_cases idle : v = .idle
  · subst idle
    cases first : round.work.queue <;> simp [workerStep, here, first]
  · rw [workerStep_busy here idle]
    obtain ⟨next, advanced⟩ :=
      Visit.exists_advance s.now s.cfg round.backoff answered s.heap idle running
    simp [advanced]

/-- Whatever the order of the workers' steps and whatever else goes on, a round visits each upstream
of its pool once, with no more probes at a time than workers, and comes to its end. -/
theorem round_visits_each_once {now : Time} {heap : Heap State} {cfg : Config} {pool : Pool}
    {trace : List (HealthSys × HealthAction)} {round : Round} (positive : 0 < procs)
    (exec : Exec (step procs) (start now heap cfg pool) trace s) (on : s.loop = .checking round) :
    let inHand := round.work.inHand Visit.upstream?
    (round.work.finished ++ inHand ++ round.work.queue).Perm round.pool ∧ round.pool.Nodup ∧
      inHand.length ≤ min (2 * procs) round.pool.length ∧
      round.taken ≤ 9 * round.pool.length + min (2 * procs) round.pool.length ∧
      ((∃ i, ∀ answered, ∃ s', step procs s (.worker i answered) = some s') ∨
        round.work.finished.Perm round.pool ∧ ∃ s', step procs s .loop = some s') := by
  intro inHand
  obtain ⟨nonempty, distinct, conserves, drained, workers, bounded⟩ := round_sound exec round on
  have more := List.length_pos_iff.2 nonempty
  have most := WorkQueue.inHand_length_le Visit.upstream? round.work
  rw [Round.workers_eq positive nonempty] at workers bounded
  refine ⟨conserves, distinct, workers ▸ most, by omega, ?_⟩
  by_cases all : ∀ v ∈ round.work.workers, v = .exited
  · refine .inr ⟨?_, ?_⟩
    · refine WorkQueue.finished_perm conserves drained (fun none => ?_) fun v member => ?_
      · rw [none, List.length_nil] at workers
        omega
      · rw [all v member]
        exact ⟨rfl, rfl⟩
    · rw [step, loopStep, on]
      simp only [if_pos all, Option.map_some]
      exact ⟨_, rfl⟩
  · refine .inl ?_
    obtain ⟨v, member, running⟩ := not_forall₂.1 all
    obtain ⟨i, here⟩ := List.getElem?_of_mem member
    exact ⟨i, worker_enabled on here running⟩

/-- Two workers with three upstreams: one visit is over, one probe is under way. -/
theorem round_visits_each_once_two_workers :
    let named (id : String) (state : StateRef) : Upstream := ⟨id, "10.0.0.1", 1080, "", "", 1, 0, state⟩
    ∃ pool trace s round, Pool.empty.replace [named "a" 0, named "b" 1, named "c" 2] = .ok pool ∧
      Exec (step 1) (start 0 ⟨fun _ => newState, 3⟩ defaults pool) trace s ∧
      s.loop = .checking round ∧ round.work.finished = [named "a" 0] ∧
      round.work.workers = [.healthy (named "c" 2), .probing (named "b" 1)] ∧
      round.work.queue = [] ∧ round.taken ≤ 9 * round.pool.length + min (2 * 1) round.pool.length := by
  intro named
  obtain ⟨pool, trace, s, made, exec, actions, passed⟩ := exec_of_play_made (step 1)
    (Pool.empty.replace [named "a" 0, named "b" 1, named "c" 2])
    (start 0 ⟨fun _ => newState, 3⟩ defaults)
    [.tick 20000000000, .loop, .loop, .worker 0 true, .worker 1 true, .worker 0 true, .worker 0 true,
      .worker 1 true, .worker 0 true, .worker 0 true, .worker 0 true, .worker 0 true]
    (fun _ _ s => match s.loop with
      | .checking round => decide (round.work.finished = [named "a" 0] ∧
          round.work.workers = [.healthy (named "c" 2), .probing (named "b" 1)] ∧
          round.work.queue = [])
      | _ => false)
    (by decide +kernel)
  cases on : s.loop with
  | checking round =>
      simp only [on] at passed
      obtain ⟨finished, workers, queue⟩ := of_decide_eq_true passed
      exact ⟨pool, trace, s, round, made, exec, on, finished, workers, queue,
        (round_visits_each_once (by decide) exec on).2.2.2.1⟩
  | _ => simp [on] at passed

end HealthSys

/-!
## How long an upstream stays out of service
-/

section Quarantine

variable {r : StateRef} {since : Time} {backoff : Duration} {now : Time}

structure State.Rests (since : Time) (backoff : Duration) (now : Time) (state : State) : Prop where
  last : since ≤ state.lastFailureTS
  healthy : state.healthy = true → since + backoff ≤ now

namespace State.Rests

variable {state : State}

theorem later {now' : Time} (rests : state.Rests since backoff now) (le : now ≤ now') :
    state.Rests since backoff now' :=
  ⟨rests.last, fun healthy => (rests.healthy healthy).trans le⟩

theorem recordFailure (rests : state.Rests since backoff now) (threshold : Int) (window : Duration)
    {t : Time} (after : since ≤ t) :
    (state.recordFailure threshold window t).1.Rests since backoff now := by
  rw [State.recordFailure_state]
  refine ⟨after, fun healthy => rests.healthy ?_⟩
  exact (Bool.and_eq_true_iff.1 healthy).1

theorem session (rests : state.Rests since backoff now) {op : LockedOp} (own : op.bySession = true) :
    (op.run state).Rests since backoff now := by
  obtain ⟨last, healthy⟩ := rests
  cases op with
  | incActive max =>
      simp only [LockedOp.run, State.incActive]
      split
      · exact ⟨last, healthy⟩
      · split <;> exact ⟨last, healthy⟩
  | decActive =>
      simp only [LockedOp.run, State.decActive]
      split <;> exact ⟨last, healthy⟩
  | recordSuccess =>
      simp only [LockedOp.run, State.recordSuccess]
      split <;> exact ⟨last, healthy⟩
  | setDrain drain => exact ⟨last, healthy⟩
  | markHealthy | markUnhealthy | recordFailure => cases own

theorem markHealthy (rests : state.Rests since backoff now) (passed : since + backoff ≤ now) :
    state.markHealthy.1.Rests since backoff now := by
  simp only [State.markHealthy]
  split <;> exact ⟨rests.last, fun _ => passed⟩

theorem set {heap : Heap State} (rests : (heap.get r).Rests since backoff now) {q : StateRef}
    {state : State} (mine : q = r → state.Rests since backoff now) :
    ((heap.set q state).get r).Rests since backoff now := by
  rw [Heap.get_set]
  split
  · exact mine (Eq.symm ‹_›)
  · exact rests

end State.Rests

namespace Visit

def Waits (r : StateRef) (since : Time) (backoff : Duration) (now : Time) : Visit → Prop
  | .since u last => u.state = r → since ≤ last
  | probing u | succeeded u | marking u => u.state = r → since + backoff ≤ now
  | counting u _ _ t => u.state = r → since ≤ t
  | idle | healthy _ | lastFailure _ | dispatching _ | failed _ | reporting _ _ _ | refreshing _
  | exited => True

theorem Waits.later {v : Visit} {now' : Time} (waits : v.Waits r since backoff now) (le : now ≤ now') :
    v.Waits r since backoff now' := by
  cases v with
  | probing | succeeded | marking => exact fun same => (waits same).trans le
  | _ => exact waits

theorem Waits.advance {v v' : Visit} {heap heap' : Heap State} {cfg : Config} {b : Duration}
    {answered : Bool} (waits : v.Waits r since backoff now)
    (rests : (heap.get r).Rests since backoff now) (reached : since ≤ now) (longer : backoff ≤ b)
    (taken : v.advance now cfg b answered heap = some (v', heap')) :
    v'.Waits r since backoff now ∧ (heap'.get r).Rests since backoff now := by
  cases v with
  | idle | exited => simp [Visit.advance] at taken
  | healthy u =>
      cases taken
      refine ⟨?_, rests⟩
      split
      · rename_i healthy
        rintro rfl
        exact rests.healthy healthy
      · trivial
  | lastFailure u =>
      cases taken
      refine ⟨?_, rests⟩
      rintro rfl
      exact rests.last
  | since u last =>
      cases taken
      refine ⟨?_, rests⟩
      split
      · trivial
      · rename_i enough
        intro same
        have before := waits same
        linarith
  | probing u =>
      cases taken
      refine ⟨?_, rests⟩
      split
      · exact waits
      · trivial
  | succeeded u =>
      cases taken
      refine ⟨waits, rests.set ?_⟩
      rintro rfl
      exact rests.session (show LockedOp.recordSuccess.bySession = true from rfl)
  | marking u =>
      cases taken
      refine ⟨?_, rests.set ?_⟩
      · split <;> trivial
      · rintro rfl
        exact rests.markHealthy (waits rfl)
  | dispatching u | failed u | refreshing u =>
      cases taken
      exact ⟨trivial, rests⟩
  | reporting u threshold window =>
      cases taken
      exact ⟨fun _ => reached, rests⟩
  | counting u threshold window t =>
      cases taken
      refine ⟨trivial, rests.set ?_⟩
      rintro rfl
      exact rests.recordFailure threshold window (waits rfl)

end Visit

def HealthPc.Waits (r : StateRef) (since : Time) (backoff : Duration) (now : Time) : HealthPc → Prop
  | configured b => backoff ≤ b
  | checking round => backoff ≤ round.backoff ∧
      ∀ v ∈ round.work.workers, v.Waits r since backoff now
  | waiting _ | resetting | ended => True

theorem HealthPc.Waits.later {loop : HealthPc} {now' : Time}
    (waits : loop.Waits r since backoff now) (le : now ≤ now') :
    loop.Waits r since backoff now' := by
  cases loop with
  | checking round => exact ⟨waits.1, fun v member => (waits.2 v member).later le⟩
  | _ => exact waits

namespace HealthSys

variable {procs : Nat} {s s' : HealthSys}

structure Quarantine (r : StateRef) (since : Time) (backoff : Duration) (s : HealthSys) : Prop where
  reached : since ≤ s.now
  allocated : r < s.heap.next
  rests : (s.heap.get r).Rests since backoff s.now
  reports : ∀ f ∈ s.reports, f.state = r → since ≤ f.now
  configured : backoff ≤ s.cfg.retryBackoff
  loop : s.loop.Waits r since backoff s.now

theorem Quarantine.loopStep {loop : HealthPc} (quarantine : Quarantine r since backoff s)
    (next : s.loopStep procs = some loop) : loop.Waits r since backoff s.now := by
  have waits := quarantine.loop
  unfold HealthSys.loopStep at next
  split at next
  · split at next <;> cases next
    exact quarantine.configured
  · rename_i b on
    rw [on] at waits
    split at next <;> cases next
    · trivial
    · refine ⟨waits, fun v member => ?_⟩
      rw [List.eq_of_mem_replicate member]
      trivial
  · split at next <;> cases next
    trivial
  · cases next
    trivial
  · cases next

theorem Quarantine.workerStep {round : Round} {i : Nat} {answered : Bool}
    {work : WorkQueue Upstream Visit} {heap : Heap State} (quarantine : Quarantine r since backoff s)
    (on : s.loop = .checking round) (taken : s.workerStep round i answered = some (work, heap)) :
    (∀ v ∈ work.workers, v.Waits r since backoff s.now) ∧
      (heap.get r).Rests since backoff s.now ∧ heap.next = s.heap.next := by
  have waits := quarantine.loop
  rw [on] at waits
  cases here : round.work.workers[i]? with
  | none => simp [HealthSys.workerStep, here] at taken
  | some v =>
      by_cases idle : v = .idle
      · subst idle
        cases first : round.work.queue <;>
          simp only [HealthSys.workerStep, here, first, Option.some.injEq, Prod.mk.injEq] at taken <;>
          obtain ⟨rfl, rfl⟩ := taken
        · exact ⟨Threads.forall_set waits.2 i trivial, quarantine.rests, rfl⟩
        · exact ⟨Threads.forall_set waits.2 i trivial, quarantine.rests, rfl⟩
      · rw [workerStep_busy here idle] at taken
        obtain ⟨⟨v', heap'⟩, advanced, same⟩ := Option.map_eq_some_iff.1 taken
        cases same
        obtain ⟨mine, rests⟩ := (waits.2 v (List.mem_of_getElem? here)).advance quarantine.rests
          quarantine.reached waits.1 advanced
        exact ⟨Threads.forall_set waits.2 i mine, rests, Visit.next_of_advance advanced⟩

theorem Quarantine.step {a : HealthAction} (quarantine : Quarantine r since backoff s)
    (longer : ∀ cfg, a = .setConfig cfg → backoff ≤ cfg.retryBackoff)
    (taken : HealthSys.step procs s a = some s') : Quarantine r since backoff s' := by
  have ⟨reached, allocated, rests, reports, configured, loop⟩ := quarantine
  cases a with
  | tick now =>
      simp only [HealthSys.step] at taken
      split at taken
      · rename_i le
        cases taken
        exact ⟨reached.trans le, allocated, rests.later le, reports, configured, loop.later le⟩
      · cases taken
  | cancel | setUpstreams =>
      cases taken
      exact ⟨reached, allocated, rests, reports, configured, loop⟩
  | setConfig cfg =>
      cases taken
      exact ⟨reached, allocated, rests, reports, longer cfg rfl, loop⟩
  | newState =>
      cases taken
      refine ⟨reached, Nat.lt_succ_of_lt allocated, ?_, reports, configured, loop⟩
      rw [Heap.get_alloc, if_neg allocated.ne]
      exact rests
  | session q op =>
      simp only [HealthSys.step] at taken
      split at taken
      · rename_i own
        cases taken
        refine ⟨reached, allocated, rests.set ?_, reports, configured, loop⟩
        rintro rfl
        exact rests.session own
      · cases taken
  | sessionFails q threshold window =>
      cases taken
      refine ⟨reached, allocated, rests, fun f member same => ?_, configured, loop⟩
      rcases List.mem_append.1 member with old | new
      · exact reports f old same
      · rw [List.mem_singleton.1 new]
        exact reached
  | sessionCounts i =>
      obtain ⟨f, here, rfl⟩ := Option.map_eq_some_iff.1 taken
      refine ⟨reached, allocated, rests.set ?_, fun f member => ?_, configured, loop⟩
      · rintro rfl
        exact rests.recordFailure _ _ (reports f (List.mem_of_getElem? here) rfl)
      · exact reports f (List.mem_of_mem_eraseIdx member)
  | loop =>
      obtain ⟨next, moved, rfl⟩ := Option.map_eq_some_iff.1 taken
      exact ⟨reached, allocated, rests, reports, configured, quarantine.loopStep moved⟩
  | loopDone =>
      simp only [HealthSys.step] at taken
      split at taken
      · split at taken <;> cases taken
        exact ⟨reached, allocated, rests, reports, configured, trivial⟩
      · cases taken
  | worker i answered =>
      cases on : s.loop with
      | checking round =>
          simp only [HealthSys.step, on] at taken
          obtain ⟨⟨work, heap⟩, moved, rfl⟩ := Option.map_eq_some_iff.1 taken
          obtain ⟨waits, rests, next⟩ := quarantine.workerStep on moved
          rw [on] at loop
          exact ⟨reached, by rw [next]; exact allocated, rests, reports, configured, loop.1, waits⟩
      | _ => simp [HealthSys.step, on] at taken

/-- An upstream the breaker has taken out of service, with no worker on it. `since` is its last
failure, or what a session that is about to report one has read before. -/
structure Tripped (r : StateRef) (since : Time) (s : HealthSys) : Prop where
  reached : since ≤ s.now
  allocated : r < s.heap.next
  unhealthy : (s.heap.get r).healthy = false
  last : since ≤ (s.heap.get r).lastFailureTS
  reports : ∀ f ∈ s.reports, f.state = r → since ≤ f.now
  unvisited : ∀ round, s.loop = .checking round →
    ∀ u ∈ round.work.inHand Visit.upstream?, u.state ≠ r

def BacksOff (backoff : Duration) (s : HealthSys) : Prop :=
  backoff ≤ s.cfg.retryBackoff ∧ (∀ b, s.loop = .configured b → backoff ≤ b) ∧
    ∀ round, s.loop = .checking round → backoff ≤ round.backoff

theorem Tripped.quarantine (tripped : Tripped r since s) (backs : s.BacksOff backoff) :
    Quarantine r since backoff s := by
  obtain ⟨reached, allocated, unhealthy, last, reports, unvisited⟩ := tripped
  obtain ⟨configured, read, working⟩ := backs
  refine ⟨reached, allocated, ⟨last, fun healthy => ?_⟩, reports, configured, ?_⟩
  · cases unhealthy.symm.trans healthy
  · cases on : s.loop with
    | configured b => exact read b on
    | checking round =>
        refine ⟨working round on, fun v member => ?_⟩
        have elsewhere (u : Upstream) (held : v.upstream? = some u) : u.state ≠ r :=
          unvisited round on u (List.mem_filterMap.2 ⟨v, member, held⟩)
        cases v with
        | since u | probing u | succeeded u | marking u | counting u =>
            exact fun same => absurd same (elsewhere u rfl)
        | _ => trivial
    | _ => trivial

/-- Until the backoff has passed since its last failure, an upstream that is out of service stays so,
whatever sessions, probes and reloads do, and no session gets a slot on it. -/
theorem stays_out_of_service {trace : List (HealthSys × HealthAction)} (tripped : Tripped r since s)
    (backs : s.BacksOff backoff) (exec : Exec (HealthSys.step procs) s trace s')
    (longer : ∀ entry ∈ trace, ∀ cfg, entry.2 = .setConfig cfg → backoff ≤ cfg.retryBackoff)
    (early : s'.now < since + backoff) :
    (s'.heap.get r).healthy = false ∧ ∀ max, (s'.heap.get r).incActive max = none := by
  have quarantine : Quarantine r since backoff s' :=
    exec.invariant (P := fun _ s => Quarantine r since backoff s) (tripped.quarantine backs)
      (fun _ _ _ _ _ quarantine => quarantine.step) longer
  have unhealthy : (s'.heap.get r).healthy = false := by
    by_contra healthy
    have passed := quarantine.rests.healthy (Bool.not_eq_false _ ▸ healthy)
    exact absurd passed (not_le.2 early)
  refine ⟨unhealthy, fun max => ?_⟩
  simp [State.incActive, unhealthy]

/-- A session trips the breaker, and the round that comes within the backoff skips the upstream. -/
theorem stays_out_of_service_skipped :
    let u : Upstream := ⟨"a", "10.0.0.1", 1080, "", "", 1, 0, 0⟩
    ∃ pool first second middle last round, Pool.empty.replace [u] = .ok pool ∧
      Exec (HealthSys.step 1) (start 0 ⟨fun _ => newState, 1⟩ defaults pool) first middle ∧
      Tripped 0 5 middle ∧ Exec (HealthSys.step 1) middle second last ∧
      last.loop = .checking round ∧ round.work.finished = [u] ∧
      (last.heap.get 0).healthy = false := by
  intro u
  obtain ⟨pool, first, middle, made, before, -, passed⟩ := exec_of_play_made (HealthSys.step 1)
    (Pool.empty.replace [u]) (start 0 ⟨fun _ => newState, 1⟩ defaults)
    [.tick 5, .sessionFails 0 1 30, .sessionCounts 0]
    (fun _ _ s => decide (s.now = 5 ∧ s.heap.next = 1 ∧ (s.heap.get 0).healthy = false ∧
        (s.heap.get 0).lastFailureTS = 5 ∧ s.reports = [] ∧ s.cfg = defaults) &&
      (match s.loop with | .waiting _ => true | _ => false) &&
      (play (HealthSys.step 1) [] s [.tick 20000000000, .loop, .loop, .worker 0 true, .worker 0 true,
        .worker 0 true, .worker 0 true]).any fun (_, s) => match s.loop with
          | .checking round => decide (s.now = 20000000000 ∧ round.work.finished = [u])
          | _ => false)
    (by decide +kernel)
  obtain ⟨facts, later⟩ := Bool.and_eq_true_iff.1 passed
  obtain ⟨facts, waits⟩ := Bool.and_eq_true_iff.1 facts
  obtain ⟨now, next, unhealthy, lastFailure, reports, cfg⟩ := of_decide_eq_true facts
  obtain ⟨⟨second, last⟩, played, reached⟩ := (Option.any_eq_true _ _).1 later
  have after := play_exec .nil played
  have taken := play_actions played
  have idle : ∀ round, middle.loop ≠ .checking round := by
    intro round on
    simp [on] at waits
  have tripped : Tripped 0 5 middle := by
    refine ⟨by rw [now], by rw [next]; decide, unhealthy, by rw [lastFailure], ?_, ?_⟩
    · rw [reports]
      exact fun f member => absurd member List.not_mem_nil
    · exact fun round on => absurd on (idle round)
  have backs : middle.BacksOff defaults.retryBackoff := by
    refine ⟨by rw [cfg], fun b on => ?_, fun round on => absurd on (idle round)⟩
    simp [on] at waits
  cases on : last.loop with
  | checking round =>
      simp only [on] at reached
      obtain ⟨clock, visited⟩ := of_decide_eq_true reached
      refine ⟨pool, first, second, middle, last, round, made, before, tripped, after, on, visited, ?_⟩
      refine (stays_out_of_service tripped backs after (fun entry member cfg set => ?_) ?_).1
      · have among := List.mem_map_of_mem (f := Prod.snd) member
        rw [taken, set] at among
        simp at among
      · rw [clock]
        decide
  | _ => simp [on] at reached

end HealthSys

end Quarantine

end S5lb
