import S5lb.Balancer.Reload
import S5lb.Balancer.Sections
import S5lb.Balancer.Slots
import S5lb.Lib.Threads

/-! The operations of a balancer, each carried to its end before the next one begins. -/

namespace S5lb

def Pc.rests : Pc → Bool
  | .parked | .holding _ | .done => true
  | _ => false

/-- `draws` is what the random choices of a goroutine give, section by section, until it rests. -/
inductive Operation
  | acquireSlot (sc : SelectCtx) (draws : List (List Nat))
  | receive (i : Nat)
  | cancelWaiter (i : Nat) (draws : List (List Nat))
  | releaseSlot (i : Nat) (draws : List (List Nat))
  | markHealthy (r : StateRef) (draws : List (List Nat))
  | recordFailure (r : StateRef) (now : Time)
  | drainUpstream (id : String) (drain : Bool)
  | reload (cfg : Config)

namespace LoadBalancer

variable (client : KubeClient) (lb : LoadBalancer) (raw : Config)

theorem reload_queue : (lb.reloadFromConfig client raw).1.queue = lb.queue := by
  have reloaded := reloaded_of_reloadFromConfig client lb raw
  generalize (lb.reloadFromConfig client raw).1 = lb' at reloaded ⊢
  generalize (lb.reloadFromConfig client raw).2 = result at reloaded
  cases reloaded <;> rfl

theorem applyReload_heap (newCfg : Config) (newUps : List Upstream) :
    (applyReload client lb newCfg newUps).1.heap = lb.heap := by
  simp only [applyReload]
  cases newFromConfig client (lb.prepareGate newCfg).1 with
  | error why => rfl
  | ok dialer =>
      simp only
      cases published : ({ lb with gates := (lb.prepareGate newCfg).2.2 } : LoadBalancer).setUpstreams newUps with
      | error why => rfl
      | ok next =>
          obtain ⟨pool, -, rfl⟩ := setUpstreams_eq_ok.1 published
          cases (lb.prepareGate newCfg).2.1 with
          | none => rfl
          | some g =>
              simp only [setGate]
              cases lb.gateVal.store (fun r => ((lb.prepareGate newCfg).2.2.get r).type) g <;> rfl

theorem reload_built : ∃ ups, Built lb.heap ups (lb.reloadFromConfig client raw).1.heap := by
  have same : Built lb.heap [] lb.heap := ⟨.refl _, fun r low high => absurd high (not_lt.2 low), fun _ _ => rfl,
    by simp, by simp⟩
  unfold reloadFromConfig
  cases raw.validate with
  | error why => exact ⟨[], same⟩
  | ok filled =>
      simp only
      split
      · exact ⟨[], same⟩
      · cases built : (filled.keepImmutable lb.cfg).buildUpstreams lb.heap with
        | error why => exact ⟨[], same⟩
        | ok made =>
            simp only
            rw [applyReload_heap]
            exact ⟨made.1, built_of_buildUpstreams built⟩

theorem reload_pool :
    (lb.reloadFromConfig client raw).1.pool = lb.pool ∧ (lb.reloadFromConfig client raw).1.cfg = lb.cfg ∨
    ∃ filled ups, raw.Committable client ∧ raw.validate = .ok filled ∧
      filled.buildUpstreams lb.heap = .ok (ups, (lb.reloadFromConfig client raw).1.heap) ∧
      lb.pool.replace ups = .ok (lb.reloadFromConfig client raw).1.pool ∧
      (lb.reloadFromConfig client raw).1.cfg.maxPerProxy = filled.maxPerProxy := by
  have cap {filled newCfg : Config} {gate : Option GateRef} {gates : Heap Gate}
      (prepared : lb.prepareGate (filled.keepImmutable lb.cfg) = (newCfg, gate, gates)) :
      newCfg.maxPerProxy = filled.maxPerProxy := by
    have same : (lb.prepareGate (filled.keepImmutable lb.cfg)).1.maxPerProxy = filled.maxPerProxy := by
      unfold prepareGate
      split
      · split <;> rfl
      · rfl
    rw [prepared] at same
    exact same
  have reloaded := reloaded_of_reloadFromConfig client lb raw
  generalize (lb.reloadFromConfig client raw).1 = lb' at reloaded ⊢
  generalize (lb.reloadFromConfig client raw).2 = result at reloaded
  cases reloaded with
  | refused unfit states others => exact .inl ⟨rfl, rfl⟩
  | applied fit valid built replaced prepared => exact .inr ⟨_, _, fit, valid, built, replaced, cap prepared⟩
  | swapped fit valid built replaced prepared stored =>
      exact .inr ⟨_, _, fit, valid, built, replaced, cap prepared⟩
  | panicked fit valid built replaced prepared stored =>
      exact .inr ⟨_, _, fit, valid, built, replaced, cap prepared⟩

variable {lb} in
theorem mem_replaced {filled : Config} {ups : List Upstream} {heap : Heap State} {pool : Pool}
    (valid : raw.validate = .ok filled) (built : filled.buildUpstreams lb.heap = .ok (ups, heap))
    (replaced : lb.pool.replace ups = .ok pool) {u : Upstream} (member : u ∈ pool.upstreams) :
    (∃ spec ∈ filled.upstreams, spec.upstreamID = u.id) ∧
    ((∃ v, lb.pool.byID u.id = some v ∧ u.state = v.state) ∨
      lb.pool.byID u.id = none ∧ lb.heap.next ≤ u.state) := by
  obtain ⟨normal, ids⟩ := normalized_of_built (Config.checked_of_validate valid).specs built
  rw [(Pool.replace_ok replaced).2, normal] at member
  obtain ⟨w, memberW, rfl⟩ := Pool.mem_replacement.1 member
  rw [Pool.adopt_id]
  constructor
  · have known : w.id ∈ filled.upstreams.map UpstreamSpec.upstreamID := ids ▸ List.mem_map_of_mem memberW
    exact List.mem_map.1 known
  · cases known : lb.pool.byID w.id with
    | some v => exact .inl ⟨v, rfl, adopt_of_some known⟩
    | none =>
        rw [adopt_of_none known]
        exact .inr ⟨rfl, ((built_of_buildUpstreams built).owned w memberW).1⟩

end LoadBalancer

namespace Sys

def settle (s : Sys) (i : Nat) (draws : List (List Nat)) : Option Sys :=
  (draws.foldlM (fun (s : Sys) d => s.step (.advance i d)) s).filter fun s => s.threads[i]?.any (·.pc.rests)

def operate (client : KubeClient) (s : Sys) : Operation → Option Sys
  | .acquireSlot sc draws => (s.step (.spawn sc)).bind (·.settle s.threads.length draws)
  | .receive i => s.step (.receive i)
  | .cancelWaiter i draws => (s.step (.giveUp i)).bind (·.settle i draws)
  | .releaseSlot i draws => (s.step (.finish i)).bind (·.settle i draws)
  | .markHealthy r draws => (s.step (.markHealthy r)).bind fun s' =>
      if (s.lb.heap.get r).healthy then some s' else s'.settle s.threads.length draws
  | .recordFailure r now =>
      s.step (.touch r (.recordFailure s.lb.cfg.failureThreshold s.lb.cfg.failureWindow now))
  | .drainUpstream id drain =>
      match s.lb.pool.byID id with
      | none => some s
      | some u => s.step (.touch u.state (.setDrain drain))
  | .reload cfg => some { s with lb := (s.lb.reloadFromConfig client cfg).1 }

inductive Settles (i : Nat) : Sys → Sys → Prop
  | rest {s : Sys} {t : Goroutine} (located : s.threads[i]? = some t) (rests : t.pc.rests = true) :
      Settles i s s
  | advance {s s' last : Sys} {t : Goroutine} {draws : List Nat} (located : s.threads[i]? = some t)
      (advanced : s.advance i t draws = some s') (later : Settles i s' last) : Settles i s last

theorem settles_of_settle {s last : Sys} {i : Nat} {draws : List (List Nat)}
    (settled : s.settle i draws = some last) : Settles i s last := by
  obtain ⟨ran, rests⟩ := Option.filter_eq_some_iff.1 settled
  induction draws generalizing s with
  | nil =>
      cases ran
      cases located : last.threads[i]? with
      | none => simp [located] at rests
      | some t => exact .rest located (by simpa [located] using rests)
  | cons d draws ih =>
      rw [List.foldlM_cons] at ran
      obtain ⟨s', taken, ran⟩ := Option.bind_eq_some_iff.1 ran
      obtain ⟨t, located, advanced⟩ := Option.bind_eq_some_iff.1 taken
      have later : s'.settle i draws = some last := Option.filter_eq_some_iff.2 ⟨ran, rests⟩
      exact .advance located advanced (ih later ran)

theorem settles_rest {s last : Sys} {i : Nat} {t : Goroutine} (located : s.threads[i]? = some t)
    (rests : t.pc.rests = true) (settles : Settles i s last) : last = s := by
  cases settles with
  | rest => rfl
  | advance here advanced later =>
      cases located.symm.trans here
      cases at_ : t.pc with
      | parked => simp [Sys.advance, at_] at advanced
      | holding u => simp [Sys.advance, at_] at advanced
      | done => simp [Sys.advance, at_] at advanced
      | _ => simp [at_, Pc.rests] at rests

theorem settles_advance {s last : Sys} {i : Nat} {t : Goroutine} (located : s.threads[i]? = some t)
    (busy : t.pc.rests = false) (settles : Settles i s last) :
    ∃ draws s', s.advance i t draws = some s' ∧ Settles i s' last := by
  cases settles with
  | rest here rests =>
      cases located.symm.trans here
      rw [busy] at rests
      cases rests
  | advance here advanced later =>
      cases located.symm.trans here
      exact ⟨_, _, advanced, later⟩

def pickResult : Option Upstream → PickResult
  | some u => .got u
  | none => .failed

theorem put_put (s : Sys) (lb lb' : LoadBalancer) (i : Nat) (t t' : Goroutine) :
    (s.put lb i t).put lb' i t' = s.put lb' i t' := by
  simp [put, List.set_set]

theorem contextOf_put {s : Sys} {lb : LoadBalancer} {i : Nat} {t : Goroutine} {pc : Pc} {caller : Caller}
    (located : s.threads[i]? = some t) :
    (s.put lb i { t with pc }).contextOf { t with pc } caller = s.contextOf t caller := by
  cases caller with
  | acquire => rfl
  | dispatch depth head =>
      by_cases self : head = i
      · subst self
        simp only [contextOf, threads_put_self located, located, Option.map_some]
      · simp only [contextOf, put, List.getElem?_set_ne (Ne.symm self)]

theorem settles_pick {s last : Sys} {i : Nat} {t : Goroutine} {caller : Caller} {pos : PickPos}
    {sc : SelectCtx} (located : s.threads[i]? = some t) (at_ : t.pc = .pick caller pos)
    (context : s.contextOf t caller = some sc) (settles : Settles i s last) :
    ∃ out, LoadBalancer.PickRun sc s.lb pos out ∧
      Settles i (s.put out.2 i { t with pc := .picked caller (pickResult out.1) }) last := by
  induction settles generalizing t pos with
  | rest here rests =>
      cases located.symm.trans here
      rw [at_] at rests
      cases rests
  | @advance s s' last t' draws here advanced later ih =>
      cases located.symm.trans here
      simp only [Sys.advance, at_, context, Option.bind_some, Option.map_eq_some_iff] at advanced
      obtain ⟨⟨lb, result⟩, stepped, rfl⟩ := advanced
      cases result with
      | got u => exact ⟨_, .got stepped, later⟩
      | failed => exact ⟨_, .failed stepped, later⟩
      | more next =>
          obtain ⟨out, run, settles⟩ := ih (threads_put_self located) rfl ((contextOf_put located).trans context)
          rw [put_put] at settles
          exact ⟨out, .more stepped run, settles⟩

end Sys

def Action.keepsPool : Action → Bool
  | .setUpstreams _ | .commit _ => false
  | _ => true

namespace Sys

theorem settles_invariant {P : Sys → Prop}
    (keep : ∀ s a s', a.keepsPool = true → P s → s.step a = some s' → P s') {s last : Sys} {i : Nat}
    (settles : Settles i s last) (before : P s) : P last := by
  induction settles with
  | rest located rests => exact before
  | advance located advanced later ih =>
      exact ih (keep _ (.advance i _) _ rfl before (Option.bind_eq_some_iff.2 ⟨_, located, advanced⟩))

theorem operate_invariant {P : Sys → Prop} {client : KubeClient} {s s' : Sys} {op : Operation}
    (keep : ∀ s a s', a.keepsPool = true → P s → s.step a = some s' → P s')
    (reloads : ∀ cfg, op = .reload cfg → P { s with lb := (s.lb.reloadFromConfig client cfg).1 })
    (taken : s.operate client op = some s') (before : P s) : P s' := by
  have settles {a : Action} {i : Nat} {draws : List (List Nat)} (held : a.keepsPool = true)
      (ran : (s.step a).bind (·.settle i draws) = some s') : P s' := by
    obtain ⟨s₁, stepped, settled⟩ := Option.bind_eq_some_iff.1 ran
    exact settles_invariant keep (settles_of_settle settled) (keep s a s₁ held before stepped)
  cases op with
  | acquireSlot sc draws => exact settles (a := .spawn sc) rfl taken
  | receive i => exact keep s (.receive i) s' rfl before taken
  | cancelWaiter i draws => exact settles (a := .giveUp i) rfl taken
  | releaseSlot i draws => exact settles (a := .finish i) rfl taken
  | markHealthy r draws =>
      simp only [operate] at taken
      obtain ⟨s₁, stepped, settled⟩ := Option.bind_eq_some_iff.1 taken
      have first := keep s (.markHealthy r) s₁ rfl before stepped
      split at settled
      · cases settled
        exact first
      · exact settles_invariant keep (settles_of_settle settled) first
  | recordFailure r now => exact keep s (.touch r _) s' rfl before taken
  | drainUpstream id drain =>
      simp only [operate] at taken
      split at taken
      · cases taken
        exact before
      · exact keep s (.touch _ _) s' rfl before taken
  | reload cfg =>
      cases taken
      exact reloads cfg rfl

theorem operate_disciplined {client : KubeClient} {s s' : Sys} {op : Operation} (disciplined : s.Disciplined)
    (taken : s.operate client op = some s') : s'.Disciplined := by
  refine operate_invariant (P := Disciplined) ?_ ?_ taken disciplined
  · intro s a s' _ disciplined stepped
    exact step_disciplined disciplined (step_cases stepped)
  · intro cfg _
    have same := LoadBalancer.reload_queue client s.lb cfg
    exact ⟨disciplined.threads, same ▸ disciplined.distinct, fun w queued => disciplined.queued w (same ▸ queued)⟩

theorem operate_pooled {client : KubeClient} {s s' : Sys} {op : Operation}
    (pooled : ∀ u ∈ s.lb.pool.upstreams, u.state < s.lb.heap.next)
    (taken : s.operate client op = some s') : ∀ u ∈ s'.lb.pool.upstreams, u.state < s'.lb.heap.next := by
  refine operate_invariant (P := fun s => ∀ u ∈ s.lb.pool.upstreams, u.state < s.lb.heap.next) ?_ ?_ taken pooled
  · intro s a s' _ pooled stepped
    cases step_cases stepped with
    | spawn => exact pooled
    | move located moved by_ =>
        obtain ⟨next, pool, -⟩ := move_frame moved
        intro u member
        rw [put, next]
        exact pooled u (pool ▸ member)
    | hand located at_ front locatedW waiting vacant => exact pooled
    | outside changed by_ => exact outside_pooled changed pooled
    | recovered changed => exact outside_pooled changed pooled
  · intro cfg _
    obtain ⟨fresh, made⟩ := LoadBalancer.reload_built client s.lb cfg
    rcases LoadBalancer.reload_pool client s.lb cfg with ⟨pool, -⟩ | ⟨filled, ups, -, -, built, replaced, -⟩
    · intro u member
      exact (pooled u (pool ▸ member)).trans_le made.old.next_le
    · exact replace_pooled (built_of_buildUpstreams built) replaced pooled

theorem step_frame {s s' : Sys} {a : Action} (held : a.keepsPool = true) (taken : s.step a = some s') :
    s'.lb.pool = s.lb.pool ∧ s'.lb.cfg = s.lb.cfg := by
  have marked {r : StateRef} (taken : s.step (.markHealthy r) = some s') :
      s'.lb.pool = s.lb.pool ∧ s'.lb.cfg = s.lb.cfg := by
    simp only [step] at taken
    split at taken <;> cases taken <;> exact ⟨rfl, rfl⟩
  cases stepped : step_cases taken with
  | spawn => exact ⟨rfl, rfl⟩
  | move located moved by_ => exact (move_frame moved).2
  | hand located at_ front locatedW waiting vacant => exact ⟨rfl, rfl⟩
  | outside changed by_ =>
      rcases by_ with ⟨r, rfl⟩ | ⟨r, op, rfl⟩ | ⟨cfg, rfl⟩ | ⟨cfg, rfl⟩
      · exact marked taken
      · cases taken
        exact ⟨rfl, rfl⟩
      · cases held
      · cases held
  | recovered changed => exact marked taken

open Threads in
def RestsBut (i : Nat) (s : Sys) : Prop := Each s.threads fun j t => j ≠ i → t.pc.rests = true

def Quiet (s : Sys) : Prop := ∀ t ∈ s.threads, t.pc.rests = true

theorem RestsBut.put {s : Sys} {i : Nat} {t : Goroutine} (quiet : s.RestsBut i)
    (located : s.threads[i]? = some t) (lb : LoadBalancer) (t' : Goroutine) : (s.put lb i t').RestsBut i :=
  Threads.Each.set quiet located (fun other => absurd rfl other) fun _ _ _ _ rests => rests

theorem advance_rests {s s' : Sys} {i : Nat} {t : Goroutine} {draws : List Nat} (quiet : s.RestsBut i)
    (located : s.threads[i]? = some t) (advanced : s.advance i t draws = some s') : s'.RestsBut i := by
  cases move_of_advance located advanced with
  | move here moved by_ =>
      rcases by_ with ⟨_, same⟩ | ⟨same | same | same, -⟩ <;> cases same
      exact quiet.put located _ _
  | @hand _ _ _ w depth head u here at_ front locatedW waiting vacant =>
      by_cases self : head = i
      · subst self
        rw [put_put]
        exact quiet.put located _ _
      · exact Threads.Each.set (quiet.put located _ _) (threads_put _ _ self locatedW)
          (fun other => quiet head w locatedW other) fun _ _ _ _ rests => rests
  | outside changed by_ => rcases by_ with ⟨_, same⟩ | ⟨_, _, same⟩ | ⟨_, same⟩ | ⟨_, same⟩ <;> cases same

theorem settles_quiet {s last : Sys} {i : Nat} (settles : Settles i s last) (quiet : s.RestsBut i) :
    last.Quiet := by
  induction settles with
  | rest located rests =>
      intro t member
      obtain ⟨j, here⟩ := List.getElem?_of_mem member
      by_cases self : j = i
      · subst self
        cases located.symm.trans here
        exact rests
      · exact quiet j t here self
  | advance located advanced later ih => exact ih (advance_rests quiet located advanced)

theorem Quiet.restsBut {s : Sys} (quiet : s.Quiet) (i : Nat) : s.RestsBut i := fun _ t located _ =>
  quiet t (List.mem_of_getElem? located)

theorem Quiet.add {s : Sys} (quiet : s.Quiet) (t : Goroutine) : (s.add t).RestsBut s.threads.length := by
  intro j u located other
  rcases Threads.located_snoc located with ⟨self, -⟩ | located
  · exact absurd self other
  · exact quiet u (List.mem_of_getElem? located)

def recovered (lb : LoadBalancer) (r : StateRef) : LoadBalancer :=
  { lb with heap := lb.heap.set r (lb.heap.get r).markHealthy.1 }

theorem step_markHealthy {s s' : Sys} {r : StateRef} (taken : s.step (.markHealthy r) = some s') :
    if (s.lb.heap.get r).healthy then s' = { s with lb := { s.lb with heap := s.lb.heap.set r (s.lb.heap.get r) } }
    else s' = Sys.add { s with lb := recovered s.lb r } prober := by
  cases up : (s.lb.heap.get r).healthy with
  | true =>
      have same : (s.lb.heap.get r).markHealthy = (s.lb.heap.get r, false) := by simp [State.markHealthy, up]
      simp only [step, same, Bool.false_eq_true, if_false, Option.some.injEq] at taken
      exact taken.symm
  | false =>
      have flips : (s.lb.heap.get r).markHealthy.2 = true := by simp [State.markHealthy, up]
      simp only [step, flips, if_true, Option.some.injEq] at taken
      exact taken.symm

inductive Operated (client : KubeClient) (s : Sys) : Operation → Sys → Prop
  | acquireSlot {sc : SelectCtx} {draws : List (List Nat)} {last : Sys}
      (settles : Settles s.threads.length (s.add ⟨.pick .acquire .config, sc, none, false⟩) last) :
      Operated client s (.acquireSlot sc draws) last
  | receive {i : Nat} {t : Goroutine} {u : Upstream} (located : s.threads[i]? = some t) :
      Operated client s (.receive i) (s.put s.lb i { t with ticket := none, pc := .holding u })
  | cancelWaiter {i : Nat} {t : Goroutine} {draws : List (List Nat)} {last : Sys}
      (located : s.threads[i]? = some t)
      (gave : s.step (.giveUp i) = some (s.put s.lb i { t with pc := .cancel }))
      (settles : Settles i (s.put s.lb i { t with pc := .cancel }) last) :
      Operated client s (.cancelWaiter i draws) last
  | releaseSlot {i : Nat} {t : Goroutine} {u : Upstream} {draws : List (List Nat)} {last : Sys}
      (located : s.threads[i]? = some t) (at_ : t.pc = .holding u)
      (ended : s.step (.finish i) = some (s.put s.lb i { t with pc := .release u 0 }))
      (settles : Settles i (s.put s.lb i { t with pc := .release u 0 }) last) :
      Operated client s (.releaseSlot i draws) last
  | healthy {r : StateRef} {draws : List (List Nat)} (up : (s.lb.heap.get r).healthy = true) :
      Operated client s (.markHealthy r draws)
        { s with lb := { s.lb with heap := s.lb.heap.set r (s.lb.heap.get r) } }
  | recovers {r : StateRef} {draws : List (List Nat)} {last : Sys}
      (down : (s.lb.heap.get r).healthy = false)
      (marked : s.step (.markHealthy r) = some (Sys.add { s with lb := recovered s.lb r } prober))
      (settles : Settles s.threads.length (Sys.add { s with lb := recovered s.lb r } prober) last) :
      Operated client s (.markHealthy r draws) last
  | recordFailure {r : StateRef} {now : Time} {state : State}
      (failed : state = ((s.lb.heap.get r).recordFailure s.lb.cfg.failureThreshold
        s.lb.cfg.failureWindow now).1) :
      Operated client s (.recordFailure r now)
        { s with lb := { s.lb with heap := s.lb.heap.set r state } }
  | unknown {id : String} {drain : Bool} : Operated client s (.drainUpstream id drain) s
  | drainUpstream {id : String} {drain : Bool} {u : Upstream} (found : s.lb.pool.byID id = some u) :
      Operated client s (.drainUpstream id drain)
        { s with lb := { s.lb with heap := s.lb.heap.set u.state ((s.lb.heap.get u.state).setDrain drain) } }
  | reload {cfg : Config} :
      Operated client s (.reload cfg) { s with lb := (s.lb.reloadFromConfig client cfg).1 }

theorem operate_cases {client : KubeClient} {s s' : Sys} {op : Operation}
    (taken : s.operate client op = some s') : Operated client s op s' := by
  cases op with
  | acquireSlot sc draws => exact .acquireSlot (settles_of_settle taken)
  | receive i =>
      obtain ⟨t, located, received⟩ := Option.bind_eq_some_iff.1 taken
      split at received
      · cases received
        exact .receive located
      · cases received
  | cancelWaiter i draws =>
      obtain ⟨s₁, gave, settled⟩ := Option.bind_eq_some_iff.1 taken
      obtain ⟨t, located, given⟩ := Option.bind_eq_some_iff.1 gave
      split at given
      · cases given
        exact .cancelWaiter located gave (settles_of_settle settled)
      · cases given
  | releaseSlot i draws =>
      obtain ⟨s₁, ended, settled⟩ := Option.bind_eq_some_iff.1 taken
      obtain ⟨t, located, finished⟩ := Option.bind_eq_some_iff.1 ended
      split at finished
      · rename_i u at_
        cases finished
        exact .releaseSlot located at_ ended (settles_of_settle settled)
      · cases finished
  | markHealthy r draws =>
      simp only [operate] at taken
      obtain ⟨s₁, marked, settled⟩ := Option.bind_eq_some_iff.1 taken
      have outcome := step_markHealthy marked
      cases up : (s.lb.heap.get r).healthy with
      | true =>
          simp only [up, if_true] at outcome settled
          subst outcome
          cases settled
          exact .healthy up
      | false =>
          simp only [up, Bool.false_eq_true, if_false] at outcome settled
          subst outcome
          exact .recovers up marked (settles_of_settle settled)
  | recordFailure r now =>
      cases taken
      exact .recordFailure rfl
  | drainUpstream id drain =>
      simp only [operate] at taken
      split at taken
      · cases taken
        exact .unknown
      · rename_i u found
        cases taken
        exact .drainUpstream found
  | reload cfg =>
      cases taken
      exact .reload

theorem operate_quiet {client : KubeClient} {s s' : Sys} {op : Operation} (quiet : s.Quiet)
    (taken : s.operate client op = some s') : s'.Quiet := by
  cases operate_cases taken with
  | acquireSlot settles => exact settles_quiet settles (quiet.add _)
  | receive located =>
      intro w member
      rcases mem_put member with member | rfl
      · exact quiet w member
      · rfl
  | cancelWaiter located _ settles => exact settles_quiet settles ((quiet.restsBut _).put located _ _)
  | releaseSlot located _ _ settles => exact settles_quiet settles ((quiet.restsBut _).put located _ _)
  | healthy => exact quiet
  | @recovers r _ _ _ _ settles =>
      exact settles_quiet settles (Quiet.add (s := { s with lb := recovered s.lb r }) quiet _)
  | recordFailure => exact quiet
  | unknown => exact quiet
  | drainUpstream => exact quiet
  | reload => exact quiet

end Sys

end S5lb
