import S5lb.Balancer.Slots
import S5lb.Strategy.Choice

namespace S5lb

open Transition

def Selector.GivesUp (sel : Selector) (maxPer : Int) (snaps : List Snapshot) (attempts : Nat) :
    Prop :=
  match sel with
  | .roundRobin idx =>
      snaps.length ≤ attempts + 1 ∧ (∃ s ∈ snaps, s.eligible maxPer = true) ∧
        ¬(attempts < snaps.length ∧
          (snaps[idx.toNat % snaps.length]?.any fun s => s.eligible maxPer) = true)
  | _ => False

instance (sel : Selector) (maxPer : Int) (snaps : List Snapshot) (attempts : Nat) :
    Decidable (sel.GivesUp maxPer snaps attempts) :=
  match sel with
  | .roundRobin _ => inferInstanceAs (Decidable (_ ∧ _ ∧ _))
  | .leastActive | .wrr _ | .random | .weightedRandom | .p2c | .leastLatency | .consistentHash
  | .priorityFailover => inferInstanceAs (Decidable False)

theorem roundRobin_advance_chosen {idx : UInt64} {after : Selector} {sc : SelectCtx}
    {snaps : List Snapshot} {maxPer : Int} {attempts : Nat} {id : String}
    (out : ((Selector.roundRobin idx).advance sc snaps maxPer attempts).Outcome (some id, after)) :
    Chosen snaps maxPer "" id ∨ (Selector.roundRobin idx).GivesUp maxPer snaps attempts := by
  by_cases serving : ∃ s ∈ snaps, s.eligible maxPer = true
  · simp only [Selector.advance] at out
    split at out
    · rename_i spent
      exact .inr ⟨by omega, serving, by omega⟩
    · rcases tried : RoundRobinSelector.attempt snaps maxPer idx with ⟨found, next⟩
      rw [tried] at out
      cases found with
      | some found =>
          have hit : (RoundRobinSelector.attempt snaps maxPer idx).1 = some found := by rw [tried]
          cases Drawing.outcome_ret.1 out
          exact .inl (.inl (attempt_some hit))
      | none =>
          have miss : (RoundRobinSelector.attempt snaps maxPer idx).1 = none := by rw [tried]
          have last : ¬attempts + 1 < snaps.length := by
            intro more
            rw [if_pos more] at out
            cases Drawing.outcome_ret.1 out
          refine .inr ⟨not_lt.1 last, serving, fun ⟨_, hit⟩ => attempt_none miss ?_⟩
          obtain ⟨s, located, able⟩ := (Option.any_eq_true _ _).1 hit
          exact ⟨s, located, able⟩
  · -- with no eligible snapshot every turn misses
    have idle : ∀ s ∈ snaps, s.eligible maxPer = false := fun s member =>
      Bool.eq_false_iff.2 fun able => serving ⟨s, member, able⟩
    simp only [Selector.advance] at out
    split at out
    · cases Drawing.outcome_ret.1 out
      exact .inl (.inr ⟨rfl, fun _ => idle⟩)
    · rcases tried : RoundRobinSelector.attempt snaps maxPer idx with ⟨found, next⟩
      rw [tried] at out
      cases found with
      | some found =>
          obtain ⟨s, member, able, -⟩ := attempt_some
            (by rw [tried] : (RoundRobinSelector.attempt snaps maxPer idx).1 = some found)
          exact absurd ⟨s, member, able⟩ serving
      | none =>
          have named : some id = if attempts + 1 < snaps.length then none else some "" :=
            congrArg Prod.fst (Drawing.outcome_ret.1 out)
          split at named
          · cases named
          · cases named
            exact .inl (.inr ⟨rfl, fun _ => idle⟩)

theorem advance_chosen {sel after : Selector} {sc : SelectCtx} {snaps : List Snapshot}
    {maxPer : Int} {attempts : Nat} {id : String}
    (out : (sel.advance sc snaps maxPer attempts).Outcome (some id, after)) :
    Chosen snaps maxPer "" id ∨ sel.GivesUp maxPer snaps attempts := by
  have plain (out : ((sel.pick sc snaps maxPer).map fun p => (some p.1, p.2)).Outcome
      (some id, after)) (other : ∀ idx, sel ≠ .roundRobin idx) : Chosen snaps maxPer "" id := by
    obtain ⟨⟨id', after'⟩, picked, same⟩ := Drawing.outcome_map.1 out
    cases same
    rcases pick_chosen picked with chosen | ⟨idx, same, -⟩
    · exact chosen
    · exact absurd same (other idx)
  cases sel with
  | roundRobin idx => exact roundRobin_advance_chosen out
  | _ => exact .inl (plain out (by simp))

def PickPos.Watches (u : Upstream) : PickPos → Prop
  | .config | .pool _ | .inc _ _ => True
  | .snapshot m _ taken rest => u ∈ rest ∨ ∃ s ∈ taken, s.id = u.id ∧ s.eligible m = true
  | .select m _ snaps _ => ∃ s ∈ snaps, s.id = u.id ∧ s.eligible m = true

instance (u : Upstream) (pos : PickPos) : Decidable (pos.Watches u) :=
  match pos with
  | .config | .pool _ | .inc _ _ => inferInstanceAs (Decidable True)
  | .snapshot _ _ _ _ => inferInstanceAs (Decidable (_ ∨ _))
  | .select _ _ snaps _ => inferInstanceAs (Decidable (∃ s ∈ snaps, _))

def Pc.Watches (u : Upstream) : Pc → Prop
  | .release _ _ | .dispatch _ | .deliver _ _ _ | .pick (.dispatch (_ + 1) _) _ => True
  | .pick (.dispatch 0 _) pos => pos.Watches u
  | _ => False

instance (u : Upstream) (pc : Pc) : Decidable (pc.Watches u) :=
  match pc with
  | .release _ _ | .dispatch _ | .deliver _ _ _ | .pick (.dispatch (_ + 1) _) _ =>
      inferInstanceAs (Decidable True)
  | .pick (.dispatch 0 _) pos => inferInstanceAs (Decidable (pos.Watches u))
  | .pick .acquire _ | .enqueue | .parked | .cancel | .holding _ | .done =>
      inferInstanceAs (Decidable False)

namespace Sys

def Below (s : Sys) (u : Upstream) : Prop :=
  ((s.lb.heap.get u.state).active : Int) < s.lb.cfg.maxPerProxy

instance (s : Sys) (u : Upstream) : Decidable (s.Below u) := inferInstanceAs (Decidable (_ < _))

def WatchedBeside (s : Sys) (i : Nat) : Prop :=
  ∀ u ∈ s.lb.pool.upstreams, s.Below u → ∃ t ∈ s.threads.eraseIdx i, t.pc.Watches u

instance (s : Sys) (i : Nat) : Decidable (s.WatchedBeside i) :=
  inferInstanceAs (Decidable (∀ u ∈ s.lb.pool.upstreams, _ → ∃ t ∈ s.threads.eraseIdx i, _))

/-- What a section that may lose a wakeup needs: when a request joins the queue, when the outermost
`dispatch` is refused the slot it chose, and when its round-robin selector gives up, the free slots
are watched by others. -/
def Careful (s : Sys) (i : Nat) : Pc → Prop
  | .enqueue => s.WatchedBeside i
  | .pick (.dispatch 0 _) (.inc m u) =>
      (s.lb.heap.get u.state).canServe m = true ∨ s.WatchedBeside i
  | .pick (.dispatch 0 _) (.select m _ snaps attempts) =>
      s.lb.selector.GivesUp m snaps attempts → s.WatchedBeside i
  | _ => True

def CarefulStep (s : Sys) (a : Action) : Prop :=
  a.ofSession = true ∧ ∀ i draws, a = .advance i draws → ∀ t ∈ s.threads[i]?, s.Careful i t.pc

end Sys

def PickPos.Current (lb : LoadBalancer) : PickPos → Prop
  | .config => True
  | .pool m | .inc m _ => m = lb.cfg.maxPerProxy
  | .snapshot m p taken rest => m = lb.cfg.maxPerProxy ∧ p = lb.pool ∧
      (∀ s ∈ taken, ∃ u ∈ lb.pool.upstreams, u.id = s.id) ∧ ∀ u ∈ rest, u ∈ lb.pool.upstreams
  | .select m p snaps _ => m = lb.cfg.maxPerProxy ∧ p = lb.pool ∧
      ∀ s ∈ snaps, ∃ u ∈ lb.pool.upstreams, u.id = s.id

theorem PickPos.Current.of_eq {lb lb' : LoadBalancer} (cfg : lb'.cfg = lb.cfg)
    (pool : lb'.pool = lb.pool) {pos : PickPos} (current : pos.Current lb) : pos.Current lb' := by
  cases pos <;> simp only [Current, cfg, pool] at current ⊢ <;> exact current

theorem pick_current {lb lb' : LoadBalancer} {sc : SelectCtx} {pos next : PickPos}
    (current : pos.Current lb) (moved : PickMove lb sc pos lb' (.more next)) : next.Current lb := by
  cases moved with
  | config => rfl
  | pool => exact ⟨current, rfl, by simp, fun u member => member⟩
  | ready => exact ⟨current.1, current.2.1, current.2.2.1⟩
  | snapshot =>
      rename_i u rest
      obtain ⟨cap, pool, taken, left⟩ := current
      refine ⟨cap, pool, fun s member => ?_, fun v member => left v (List.mem_cons_of_mem _ member)⟩
      rcases List.mem_append.1 member with member | member
      · exact taken s member
      · cases List.mem_singleton.1 member
        exact ⟨u, left u List.mem_cons_self, rfl⟩
  | again => exact current
  | found member => exact current.1

namespace Sys

structure Attentive (s : Sys) : Prop where
  serving : ∀ u ∈ s.lb.pool.upstreams,
    (s.lb.heap.get u.state).healthy = true ∧ (s.lb.heap.get u.state).draining = false
  reading : ∀ t ∈ s.threads, ∀ caller pos, t.pc = .pick caller pos → pos.Current s.lb
  attended : s.lb.queue ≠ [] → ∀ u ∈ s.lb.pool.upstreams, s.Below u →
    ∃ t ∈ s.threads, t.pc.Watches u

theorem eligible_of_below {s : Sys} {u : Upstream} (healthy : (s.lb.heap.get u.state).healthy = true)
    (below : s.Below u) : (u.snapshot s.lb.heap).eligible s.lb.cfg.maxPerProxy = true :=
  Bool.and_eq_true_iff.2 ⟨healthy, decide_eq_true below⟩

theorem pick_watches {s : Sys} {i head : Nat} {sc : SelectCtx} {lb : LoadBalancer} {pos : PickPos}
    {result : PickResult} (moved : PickMove s.lb sc pos lb result) (current : pos.Current s.lb)
    (careful : s.Careful i (.pick (.dispatch 0 head) pos)) {u : Upstream}
    (member : u ∈ s.lb.pool.upstreams) (healthy : (s.lb.heap.get u.state).healthy = true)
    (below : s.Below u) (watches : pos.Watches u) :
    (Pc.picked (.dispatch 0 head) result).Watches u ∨
      ∃ t ∈ s.threads.eraseIdx i, t.pc.Watches u := by
  cases moved with
  | config => exact .inl trivial
  | pool => exact .inl (.inl member)
  | ready =>
      rcases watches with left | taken
      · cases left
      · exact .inl taken
  | snapshot =>
      rcases watches with left | ⟨t, taken, rest⟩
      · rcases List.mem_cons.1 left with rfl | left
        · refine .inl (.inr ⟨u.snapshot s.lb.heap, by simp, rfl, ?_⟩)
          rw [current.1]
          exact eligible_of_below healthy below
        · exact .inl (.inl left)
      · exact .inl (.inr ⟨t, List.mem_append_left _ taken, rest⟩)
  | again => exact .inl watches
  | nobody answer unknown =>
      obtain ⟨cap, rfl, taken⟩ := current
      obtain ⟨t, memberT, -, able⟩ := watches
      rcases advance_chosen answer with (⟨c, memberC, -, rfl⟩ | ⟨-, idle⟩) | gives
      · -- a chosen ID is that of an upstream in the pool
        obtain ⟨v, memberV, same⟩ := taken c memberC
        rcases unknown with empty | missing
        · exact absurd (same.trans empty) (s.lb.pool.named v memberV)
        · rw [(s.lb.pool.indexed c.id v).2 ⟨memberV, same⟩] at missing
          cases missing
      · rw [idle rfl t memberT] at able
        cases able
      · exact .inr (careful gives u member below)
  | found memberU => exact .inl trivial
  | refused unable =>
      -- the slot was taken since the snapshot, so this goroutine gives up on the other slots too
      rcases careful with able | watched
      · rw [unable] at able
        cases able
      · exact .inr (watched u member below)
  | granted granted => exact .inl trivial

theorem move_watches {s : Sys} {i : Nat} {t t' : Goroutine} {lb : LoadBalancer}
    (moved : Move s i t lb t')
    (current : ∀ caller pos, t.pc = .pick caller pos → pos.Current s.lb)
    (careful : s.Careful i t.pc) (waiting : s.lb.queue ≠ []) {u : Upstream}
    (member : u ∈ s.lb.pool.upstreams) (healthy : (s.lb.heap.get u.state).healthy = true)
    (below : s.Below u) (watches : t.pc.Watches u) :
    t'.pc.Watches u ∨ ∃ t ∈ s.threads.eraseIdx i, t.pc.Watches u := by
  cases moved with
  | @pick caller pos sc lb result at_ moved =>
      rw [at_] at watches careful
      cases caller with
      | acquire => exact absurd watches id
      | dispatch depth head =>
          cases depth with
          | zero => exact pick_watches moved (current _ _ at_) careful member healthy below watches
          | succ depth => cases result <;> exact .inl trivial
  | idle at_ empty => exact absurd empty waiting
  | drop at_ front located canceled => exact .inl watches
  | release at_ => exact .inl trivial
  | peek at_ =>
      rename_i depth head
      cases depth <;> exact .inl trivial
  | stale at_ located lost => exact .inl trivial
  | full at_ front located occupied => exact .inl trivial
  | finish at_ => exact .inl trivial
  | reclaim at_ unqueued ticket => exact .inl trivial
  | _ at_ =>
      rw [at_] at watches
      exact absurd watches id

theorem move_flags {s : Sys} {i : Nat} {t t' : Goroutine} {lb : LoadBalancer}
    (moved : Move s i t lb t') (r : StateRef) :
    (lb.heap.get r).healthy = (s.lb.heap.get r).healthy ∧
      (lb.heap.get r).draining = (s.lb.heap.get r).draining := by
  cases moved with
  | pick at_ moved =>
      cases moved with
      | granted granted =>
          obtain ⟨-, rfl⟩ := State.incActive_eq_some.1 granted
          rw [Heap.get_set]
          split
          · rename_i here
            exact here ▸ ⟨rfl, rfl⟩
          · exact ⟨rfl, rfl⟩
      | _ => exact ⟨rfl, rfl⟩
  | release at_ =>
      rw [Heap.get_set]
      split
      · rename_i here
        rw [here]
        unfold State.decActive
        split <;> exact ⟨rfl, rfl⟩
      · exact ⟨rfl, rfl⟩
  | _ => exact ⟨rfl, rfl⟩

theorem move_frees {s : Sys} {i : Nat} {t t' : Goroutine} {lb : LoadBalancer}
    (moved : Move s i t lb t') {u : Upstream} (full : ¬s.Below u)
    (below : ((lb.heap.get u.state).active : Int) < lb.cfg.maxPerProxy) : t'.pc.Watches u := by
  cases moved with
  | pick at_ moved =>
      cases moved with
      | granted granted =>
          obtain ⟨-, rfl⟩ := State.incActive_eq_some.1 granted
          rw [Heap.get_set] at below
          split at below
          · rename_i here
            refine absurd (lt_trans ?_ below) full
            rw [here]
            exact Int.ofNat_lt.2 (Nat.lt_succ_self _)
          · exact absurd below full
      | _ => exact absurd below full
  | release at_ => exact trivial
  | _ => exact absurd below full

theorem move_nonempty {s : Sys} {i : Nat} {t t' : Goroutine} {lb : LoadBalancer}
    (moved : Move s i t lb t') (waiting : lb.queue ≠ []) :
    s.lb.queue ≠ [] ∨ t.pc = .enqueue := by
  cases moved with
  | pick at_ moved => cases moved <;> exact .inl waiting
  | enqueue at_ => exact .inr at_
  | unqueue at_ queued => exact .inl (List.ne_nil_of_mem queued)
  | drop at_ front located canceled => exact .inl (front ▸ List.cons_ne_nil _ _)
  | full at_ front located occupied =>
      exact .inl fun empty => by simp [empty] at front
  | _ => exact .inl waiting

theorem move_current {s : Sys} {i : Nat} {t t' : Goroutine} {lb : LoadBalancer}
    (moved : Move s i t lb t')
    (current : ∀ caller pos, t.pc = .pick caller pos → pos.Current s.lb) {caller : Caller}
    {pos : PickPos} (at_ : t'.pc = .pick caller pos) : pos.Current s.lb := by
  cases moved with
  | @pick from_ old sc lb result before moved =>
      cases result with
      | more next =>
          cases at_
          exact pick_current (current _ _ before) moved
      | got u => cases from_ <;> cases at_
      | failed =>
          cases from_ with
          | acquire => cases at_
          | dispatch depth head => cases depth <;> cases at_
  | idle before empty =>
      rename_i depth
      cases depth <;> cases at_
  | peek before =>
      cases at_
      trivial
  | drop before front located canceled => exact current _ _ at_
  | _ => cases at_

theorem mem_put_of_erased {s : Sys} {lb : LoadBalancer} {i : Nat} {t w : Goroutine}
    (member : w ∈ s.threads.eraseIdx i) : w ∈ (s.put lb i t).threads := by
  have kept : (s.threads.set i t).eraseIdx i = s.threads.eraseIdx i := List.eraseIdx_set_eq
  exact List.mem_of_mem_eraseIdx (kept ▸ member)

theorem mem_cases {s : Sys} {i : Nat} {t w : Goroutine} (located : s.threads[i]? = some t)
    (member : w ∈ s.threads) : w = t ∨ w ∈ s.threads.eraseIdx i := by
  obtain ⟨j, locatedW⟩ := List.mem_iff_getElem?.1 member
  by_cases same : j = i
  · subst same
    exact .inl (Option.some_inj.1 (locatedW.symm.trans located))
  · exact .inr (List.mem_eraseIdx_iff_getElem?.2 ⟨j, same, locatedW⟩)

theorem move_attended {s : Sys} (attentive : s.Attentive) {i : Nat} {t t' : Goroutine}
    {lb : LoadBalancer} (located : s.threads[i]? = some t) (moved : Move s i t lb t')
    (careful : s.Careful i t.pc) (waiting : lb.queue ≠ []) {u : Upstream}
    (member : u ∈ s.lb.pool.upstreams)
    (below : ((lb.heap.get u.state).active : Int) < lb.cfg.maxPerProxy) :
    ∃ w ∈ (s.put lb i t').threads, w.pc.Watches u := by
  have self (watches : t'.pc.Watches u) : ∃ w ∈ (s.put lb i t').threads, w.pc.Watches u :=
    ⟨t', List.mem_of_getElem? (threads_put_self located), watches⟩
  have other : (∃ w ∈ s.threads.eraseIdx i, w.pc.Watches u) →
      ∃ w ∈ (s.put lb i t').threads, w.pc.Watches u := fun ⟨w, memberW, watches⟩ =>
    ⟨w, mem_put_of_erased memberW, watches⟩
  -- a slot that was free before has its watcher; one freed just now has the goroutine that freed it
  by_cases before : s.Below u
  · rcases move_nonempty moved waiting with queued | joins
    · obtain ⟨w, memberW, watches⟩ := attentive.attended queued u member before
      rcases mem_cases located memberW with rfl | memberW
      · have current := attentive.reading w memberW
        exact (move_watches moved current careful queued member (attentive.serving u member).1 before
          watches).elim self other
      · exact other ⟨w, memberW, watches⟩
    · rw [joins] at careful
      exact other (careful u member before)
  · exact self (move_frees moved before below)

theorem careful_of_step {s : Sys} {a : Action} {i : Nat} {t : Goroutine}
    (careful : s.CarefulStep a) (located : s.threads[i]? = some t)
    (by_ : (∃ draws, a = .advance i draws) ∨ (a = .receive i ∨ a = .giveUp i ∨ a = .finish i) ∧
      (t.pc = .parked ∨ ∃ u, t.pc = .holding u)) : s.Careful i t.pc := by
  rcases by_ with ⟨draws, rfl⟩ | ⟨-, at_ | ⟨u, at_⟩⟩
  · exact careful.2 i draws rfl t located
  · rw [at_]
    trivial
  · rw [at_]
    trivial

theorem step_attentive {s s' : Sys} {a : Action} (disciplined : s.Disciplined)
    (attentive : s.Attentive) (careful : s.CarefulStep a) (taken : Step s a s') : s'.Attentive := by
  cases taken with
  | spawn =>
      refine ⟨attentive.serving, fun t member caller pos at_ => ?_, fun waiting u member below => ?_⟩
      · rcases List.mem_append.1 member with member | member
        · exact attentive.reading t member caller pos at_
        · cases List.mem_singleton.1 member
          cases at_
          trivial
      · obtain ⟨t, memberT, watches⟩ := attentive.attended waiting u member below
        exact ⟨t, List.mem_append_left _ memberT, watches⟩
  | move located moved by_ =>
      obtain ⟨-, pool, cfg⟩ := move_frame moved
      refine ⟨fun u member => ?_, fun w member caller pos at_ => ?_, fun waiting u member below => ?_⟩
      · simp only [put, (move_flags moved u.state).1, (move_flags moved u.state).2]
        exact attentive.serving u (pool ▸ member)
      · refine PickPos.Current.of_eq cfg pool ?_
        rcases mem_put member with member | rfl
        · exact attentive.reading w member caller pos at_
        · exact move_current moved (attentive.reading _ (List.mem_of_getElem? located)) at_
      · exact move_attended attentive located moved (careful_of_step careful located by_) waiting
          (pool ▸ member) below
  | @hand i draws t w depth head u located at_ front locatedW waiting vacant =>
      refine ⟨attentive.serving, fun x member caller pos now => ?_, fun _ v member below => ?_⟩
      · rcases mem_put member with member | rfl
        · rcases mem_put member with member | rfl
          · exact attentive.reading x member caller pos now
          · cases now
        · exact attentive.reading _ (List.mem_of_getElem? locatedW) caller pos now
      · have other := head_ne disciplined located at_ front
        exact ⟨{ t with pc := .dispatch depth }, List.mem_of_getElem? (i := i)
          (threads_put _ _ other.symm (threads_put_self located)), trivial⟩
  | outside changed by_ =>
      rcases by_ with ⟨_, rfl⟩ | ⟨_, _, rfl⟩ | ⟨_, rfl⟩ | ⟨_, rfl⟩ <;> cases careful.1
  | recovered changed => cases careful.1

theorem run_attentive {lb : LoadBalancer} (initial : lb.Initial) {trace : List (Sys × Action)}
    {s : Sys} (exec : Exec step (init lb) trace s) (careful : Guarded CarefulStep trace) :
    s.Attentive := by
  refine Exec.invariant (P := fun _ s => s.Attentive) ?_ ?_ exec careful
  · obtain ⟨fresh, -, empty, -⟩ := initial_fresh initial
    refine ⟨fun u _ => ?_, by simp [init], fun waiting => absurd empty waiting⟩
    simp only [init, fresh]
    exact ⟨rfl, rfl⟩
  · intro trace s a s' before attentive careful taken
    exact step_attentive (run_safe initial before).disciplined attentive careful (step_cases taken)

end Sys

/-- The goroutine is in none of `pick`, `dispatch`, `cancelWaiter` and `releaseSlot`, and not
between a failed `pick` and its place in the queue. -/
def Goroutine.Quiet (t : Goroutine) : Prop :=
  match t.pc with
  | .parked => t.ticket = none
  | .holding _ | .done => True
  | _ => False

instance (t : Goroutine) : Decidable t.Quiet :=
  match t with
  | ⟨.parked, _, ticket, _⟩ => inferInstanceAs (Decidable (ticket = none))
  | ⟨.holding _, _, _, _⟩ | ⟨.done, _, _, _⟩ => inferInstanceAs (Decidable True)
  | ⟨.pick _ _, _, _, _⟩ | ⟨.enqueue, _, _, _⟩ | ⟨.cancel, _, _, _⟩ | ⟨.release _ _, _, _, _⟩
  | ⟨.dispatch _, _, _, _⟩ | ⟨.deliver _ _ _, _, _, _⟩ => inferInstanceAs (Decidable False)

namespace Sys

def NoLostWakeup (s : Sys) : Prop :=
  (∀ t ∈ s.threads, t.Quiet) → s.lb.queue ≠ [] →
    ∀ u ∈ s.lb.pool.upstreams, ((s.lb.heap.get u.state).active : Int) = s.lb.cfg.maxPerProxy

theorem quiet_not_watches {t : Goroutine} (quiet : t.Quiet) (u : Upstream) :
    ¬t.pc.Watches u := by
  intro watches
  unfold Goroutine.Quiet at quiet
  cases pc : t.pc <;> rw [pc] at quiet watches <;> first | exact quiet | exact watches

theorem step_cfg {s s' : Sys} {a : Action} (careful : s.CarefulStep a) (taken : Step s a s') :
    s'.lb.cfg = s.lb.cfg := by
  cases taken with
  | spawn => rfl
  | move located moved by_ => exact (move_frame moved).2.2
  | hand located at_ front locatedW waiting vacant => rfl
  | outside changed by_ =>
      rcases by_ with ⟨_, rfl⟩ | ⟨_, _, rfl⟩ | ⟨_, rfl⟩ | ⟨_, rfl⟩ <;> cases careful.1
  | recovered changed => cases careful.1

theorem run_inForce {lb : LoadBalancer} {trace : List (Sys × Action)} {s : Sys}
    (exec : Exec step (init lb) trace s) (careful : Guarded CarefulStep trace) :
    ∀ c ∈ inForce trace s, c = lb.cfg := by
  refine Exec.invariant (P := fun trace s => ∀ c ∈ inForce trace s, c = lb.cfg) ?_ ?_ exec careful
  · simp [inForce, init]
  · intro trace s a s' _ same careful taken c member
    rw [inForce_snoc] at member
    rcases List.mem_append.1 member with member | member
    · exact same c member
    · rw [List.mem_singleton.1 member, step_cfg careful (step_cases taken)]
      exact same s.lb.cfg (by simp [inForce])

/-- In every run of sessions whose steps are careful, no wakeup is lost. -/
theorem no_lost_wakeup {lb : LoadBalancer} (initial : lb.Initial) {trace : List (Sys × Action)}
    {s : Sys} (exec : Exec step (init lb) trace s) (careful : Guarded CarefulStep trace) :
    s.NoLostWakeup := by
  intro quiet waiting u member
  have attentive := run_attentive initial exec careful
  have full : ¬s.Below u := fun below => by
    obtain ⟨t, memberT, watches⟩ := attentive.attended waiting u member below
    exact quiet_not_watches (quiet t memberT) u watches
  obtain ⟨c, inForce, bound⟩ := (run_safe initial exec).capped.active u.state
  have same := run_inForce exec careful
  rw [same c inForce, ← same s.lb.cfg (by simp [Sys.inForce])] at bound
  exact le_antisymm bound (not_lt.1 full)

instance (s : Sys) (i : Nat) (pc : Pc) : Decidable (s.Careful i pc) :=
  match pc with
  | .enqueue => inferInstanceAs (Decidable (s.WatchedBeside i))
  | .pick (.dispatch 0 _) (.inc _ _) => inferInstanceAs (Decidable (_ ∨ s.WatchedBeside i))
  | .pick (.dispatch 0 _) (.select m _ snaps attempts) =>
      inferInstanceAs (Decidable (s.lb.selector.GivesUp m snaps attempts → s.WatchedBeside i))
  | .pick (.dispatch 0 _) .config | .pick (.dispatch 0 _) (.pool _)
  | .pick (.dispatch 0 _) (.snapshot _ _ _ _) | .pick (.dispatch (_ + 1) _) _ | .pick .acquire _
  | .parked | .cancel | .holding _ | .release _ _ | .dispatch _ | .deliver _ _ _ | .done =>
      inferInstanceAs (Decidable True)

def careful (s : Sys) : Action → Bool
  | .advance i _ => decide (∀ t ∈ s.threads[i]?, s.Careful i t.pc)
  | a => a.ofSession

theorem carefulStep_of_careful {s : Sys} {a : Action} (good : s.careful a = true) :
    s.CarefulStep a := by
  cases a with
  | advance i draws =>
      refine ⟨rfl, fun j _ same => ?_⟩
      cases same
      exact of_decide_eq_true good
  | _ => exact ⟨good, fun _ _ same => by cases same⟩

/-- The second session finds the only slot taken; before it has joined the queue, the first one
gives the slot back and finds nobody waiting. -/
theorem wakeup_lost : ∃ lb : LoadBalancer, lb.Initial ∧ ∃ trace s, Exec step (init lb) trace s ∧
    (∀ entry ∈ trace, entry.2.ofSession = true) ∧ ¬s.NoLostWakeup := by
  obtain ⟨lb, initial, -, trace, s, exec, -, lost⟩ := exists_run step LoadBalancer.oneUpstream
    (.spawn anyone :: sections 0 6 ++ .spawn anyone :: sections 1 5 ++ .finish 0 :: sections 0 2 ++
      sections 1 1)
    (fun trace s => decide ((∀ entry ∈ trace, entry.2.ofSession = true) ∧
      (∀ t ∈ s.threads, t.Quiet) ∧ s.lb.queue ≠ [] ∧ ∃ u ∈ s.lb.pool.upstreams, ((s.lb.heap.get u.state).active : Int) ≠ s.lb.cfg.maxPerProxy))
    (by decide +kernel)
  obtain ⟨sessions, quiet, waiting, u, member, idle⟩ := of_decide_eq_true lost
  exact ⟨lb, initial, trace, s, exec, sessions, fun kept => idle (kept quiet waiting u member)⟩

theorem no_lost_wakeup_when_full : ∃ lb : LoadBalancer, lb.Initial ∧ ∃ trace s,
    Exec step (init lb) trace s ∧ Guarded CarefulStep trace ∧ (∀ t ∈ s.threads, t.Quiet) ∧
      s.lb.queue ≠ [] ∧ s.NoLostWakeup := by
  obtain ⟨lb, initial, -, trace, s, exec, -, good⟩ := exists_run step LoadBalancer.oneUpstream
    (.spawn anyone :: sections 0 6 ++ .spawn anyone :: sections 1 6)
    (fun trace s => decide ((∀ entry ∈ trace, entry.1.careful entry.2 = true) ∧
      (∀ t ∈ s.threads, t.Quiet) ∧ s.lb.queue ≠ []))
    (by decide +kernel)
  obtain ⟨careful, quiet, waiting⟩ := of_decide_eq_true good
  have guarded : Guarded CarefulStep trace := fun entry member =>
    carefulStep_of_careful (careful entry member)
  exact ⟨lb, initial, trace, s, exec, guarded, quiet, waiting, no_lost_wakeup initial exec guarded⟩

end Sys

end S5lb
