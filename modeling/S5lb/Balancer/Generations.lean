import S5lb.Balancer.Operations

/-! Upstream objects of one ID come and go with the reloads, while sessions keep theirs. -/

namespace S5lb

open Transition Ledger

def Pc.slot : Pc → Option Upstream
  | .holding u | .release u _ | .deliver _ _ u => some u
  | _ => none

theorem Pc.slot_returned (depth : Nat) : (Pc.returned depth).slot = none := by
  cases depth <;> rfl

theorem Pc.slot_picked {caller : Caller} {result : PickResult} {u : Upstream}
    (some : (Pc.picked caller result).slot = some u) : result = .got u := by
  cases result with
  | more next => cases some
  | got v => cases caller <;> cases some <;> rfl
  | failed =>
      cases caller with
      | acquire => cases some
      | dispatch depth head =>
          rw [picked, slot_returned] at some
          cases some

namespace Goroutine

def slots (t : Goroutine) : List Upstream := t.pc.slot.toList ++ t.ticket.toList

def sessionOn (id : String) (t : Goroutine) : Bool :=
  match t.pc with
  | .holding u => u.id == id
  | _ => false

end Goroutine

def PickPos.Housed (home : String → StateRef) : PickPos → Prop
  | .config | .pool _ => True
  | .snapshot _ p _ _ | .select _ p _ _ => ∀ u ∈ p.upstreams, u.state = home u.id
  | .inc _ u => u.state = home u.id

namespace Sys

def sessionsOn (s : Sys) (id : String) : Nat := s.threads.countP (·.sessionOn id)

structure Housed (home : String → StateRef) (s : Sys) : Prop where
  pool : ∀ u ∈ s.lb.pool.upstreams, u.state = home u.id
  slots : ∀ t ∈ s.threads, ∀ u ∈ t.slots, u.state = home u.id
  reading : ∀ t ∈ s.threads, ∀ caller pos, t.pc = .pick caller pos → pos.Housed home

theorem pick_housed {home : String → StateRef} {lb lb' : LoadBalancer} {sc : SelectCtx} {pos pos' : PickPos}
    (moved : PickMove lb sc pos lb' (.more pos')) (pool : ∀ u ∈ lb.pool.upstreams, u.state = home u.id)
    (housed : pos.Housed home) : pos'.Housed home := by
  cases moved with
  | config => trivial
  | pool => exact pool
  | ready => exact housed
  | snapshot => exact housed
  | again => exact housed
  | found member => exact housed _ member

theorem move_slots_housed {home : String → StateRef} {s : Sys} {i : Nat} {t t' : Goroutine}
    {lb : LoadBalancer} (housed : s.Housed home) (here : t ∈ s.threads) (moved : Move s i t lb t') :
    ∀ u ∈ t'.slots, u.state = home u.id := by
  have own : ∀ u, t.pc.slot = some u ∨ t.ticket = some u → u.state = home u.id := fun u held =>
    housed.slots t here u (by simpa [Goroutine.slots] using held)
  suffices kept : ∀ u, t'.pc.slot = some u ∨ t'.ticket = some u → u.state = home u.id from fun u member =>
    kept u (by simpa [Goroutine.slots] using member)
  intro u held
  cases moved with
  | @pick caller pos sc lb result at_ moved =>
      rcases held with slot | ticket
      · cases Pc.slot_picked slot
        cases moved
        exact housed.reading t here _ _ at_
      · exact own u (.inr ticket)
  | receive at_ ticket =>
      rcases held with slot | none
      · cases slot
        exact own u (.inr ticket)
      · cases none
  | reclaim at_ unqueued ticket =>
      rcases held with slot | none
      · cases slot
        exact own u (.inr ticket)
      · cases none
  | finish at_ =>
      rw [at_] at own
      exact own u held
  | stale at_ locatedW lost =>
      rw [at_] at own
      exact own u held
  | full at_ front locatedW occupied =>
      rw [at_] at own
      exact own u held
  | drop at_ front locatedW canceled => exact own u held
  | idle at_ empty =>
      rw [Pc.slot_returned] at held
      exact own u (.inr (held.resolve_left nofun))
  | _ => exact own u (.inr (held.resolve_left nofun))

theorem Housed.add {home : String → StateRef} {s : Sys} (housed : s.Housed home) {t : Goroutine}
    (idle : t.slots = []) (begins : ∀ caller pos, t.pc = .pick caller pos → pos.Housed home) :
    (s.add t).Housed home := by
  refine ⟨housed.pool, fun w member u slot => ?_, fun w member caller pos at_ => ?_⟩
  · rcases List.mem_append.1 member with member | member
    · exact housed.slots w member u slot
    · rw [List.mem_singleton.1 member, idle] at slot
      cases slot
  · rcases List.mem_append.1 member with member | member
    · exact housed.reading w member caller pos at_
    · exact begins caller pos (List.mem_singleton.1 member ▸ at_)

theorem step_housed {home : String → StateRef} {s s' : Sys} {a : Action} (held : a.keepsPool = true)
    (housed : s.Housed home) (taken : s.step a = some s') : s'.Housed home := by
  obtain ⟨pool, -⟩ := step_frame held taken
  have pooled : ∀ u ∈ s'.lb.pool.upstreams, u.state = home u.id := pool ▸ housed.pool
  cases step_cases taken with
  | spawn =>
      refine housed.add rfl fun caller pos at_ => ?_
      cases at_
      trivial
  | move located moved by_ =>
      have here := List.mem_of_getElem? located
      refine ⟨pooled, fun w member => ?_, fun w member caller pos at_ => ?_⟩
      · rcases mem_put member with member | rfl
        · exact housed.slots w member
        · exact move_slots_housed housed here moved
      · rcases mem_put member with member | rfl
        · exact housed.reading w member caller pos at_
        · refine move_reads (Q := PickPos.Housed home) trivial ?_ (housed.reading _ here) moved at_
          intro sc lb' pos pos' moved earlier
          exact pick_housed moved housed.pool earlier
  | @hand i draws t w depth head u located at_ front locatedW waiting vacant =>
      have given : u.state = home u.id :=
        housed.slots t (List.mem_of_getElem? located) u (by simp [Goroutine.slots, at_, Pc.slot])
      have giver := housed.slots t (List.mem_of_getElem? located)
      have receiver := housed.slots w (List.mem_of_getElem? locatedW)
      refine ⟨pooled, fun x member v slot => ?_, fun x member caller pos now => ?_⟩
      · rcases mem_put member with member | rfl
        · rcases mem_put member with member | rfl
          · exact housed.slots x member v slot
          · exact giver v (by simp_all [Goroutine.slots, Pc.slot])
        · rcases List.mem_append.1 slot with old | new
          · exact receiver v (List.mem_append_left _ old)
          · cases List.mem_singleton.1 new
            exact given
      · rcases mem_put member with member | rfl
        · rcases mem_put member with member | rfl
          · exact housed.reading x member caller pos now
          · cases now
        · exact housed.reading w (List.mem_of_getElem? locatedW) caller pos now
  | outside changed by_ => exact ⟨pooled, housed.slots, housed.reading⟩
  | recovered changed =>
      have same : Housed home { s with lb := _ } := ⟨pooled, housed.slots, housed.reading⟩
      exact same.add rfl fun caller pos at_ => by cases at_

/-- A reload may bring an ID back only when nobody holds a slot under it. -/
def Returns (client : KubeClient) (max : Int) (s : Sys) : Operation → Prop
  | .reload cfg => cfg.maxPerProxy = max ∧ (cfg.Committable client → ∀ filled, cfg.validate = .ok filled →
      ∀ spec ∈ filled.upstreams, s.lb.pool.byID spec.upstreamID = none →
        ∀ t ∈ s.threads, ∀ u ∈ t.slots, u.id ≠ spec.upstreamID)
  | _ => True

structure Counted (max : Int) (s : Sys) : Prop where
  allocated : s.Allocated
  disciplined : s.Disciplined
  conserved : s.Conserved
  capped : ∃ cfgs, (∀ c ∈ cfgs, c.maxPerProxy = max) ∧ Capped cfgs s
  housed : ∃ home, s.Housed home

theorem step_counted {max : Int} {s s' : Sys} {a : Action} (held : a.keepsPool = true)
    (counted : s.Counted max) (taken : s.step a = some s') : s'.Counted max := by
  have stepped := step_cases taken
  obtain ⟨cfgs, fixed, capped⟩ := counted.capped
  obtain ⟨home, housed⟩ := counted.housed
  refine ⟨step_allocated counted.allocated stepped, step_disciplined counted.disciplined stepped,
    step_conserved counted.allocated counted.disciplined counted.conserved stepped,
    ⟨_, fun c member => ?_, step_capped counted.allocated capped stepped⟩, home, step_housed held housed taken⟩
  rcases List.mem_append.1 member with member | member
  · exact fixed c member
  · rw [List.mem_singleton.1 member, (step_frame held taken).2]
    exact fixed _ capped.current

section Reload

variable {client : KubeClient} {max : Int} {s : Sys} {cfg : Config}

theorem Quiet.no_pick (quiet : s.Quiet) {t : Goroutine} (member : t ∈ s.threads) {caller : Caller}
    {pos : PickPos} : t.pc ≠ .pick caller pos := by
  intro at_
  have rests := quiet t member
  rw [at_] at rests
  cases rests

theorem reload_allocated (allocated : s.Allocated) (quiet : s.Quiet) :
    Allocated { s with lb := (s.lb.reloadFromConfig client cfg).1 } := by
  obtain ⟨fresh, made⟩ := LoadBalancer.reload_built client s.lb cfg
  have taken : s.operate client (.reload cfg) = some _ := rfl
  refine ⟨?_, fun t member caller pos at_ => absurd at_ (quiet.no_pick member), fun r beyond => ?_⟩
  · exact operate_pooled allocated.pooled taken
  · exact (built_active made allocated.unused r).trans (allocated.unused r (made.old.next_le.trans beyond))

theorem reload_housed {home : String → StateRef} (housed : s.Housed home) (quiet : s.Quiet)
    (returns : s.Returns client max (.reload cfg)) :
    ∃ home, Housed home { s with lb := (s.lb.reloadFromConfig client cfg).1 } := by
  have old {v : Upstream} {id : String} (known : s.lb.pool.byID id = some v) : v.state = home id := by
    obtain ⟨member, rfl⟩ := (s.lb.pool.indexed _ _).1 known
    exact housed.pool v member
  refine ⟨fun id => (((s.lb.reloadFromConfig client cfg).1.pool.byID id).map (·.state)).getD (home id),
    fun u member => ?_, fun t here u slot => ?_, fun t member caller pos at_ => absurd at_ (quiet.no_pick member)⟩
  · have known := ((s.lb.reloadFromConfig client cfg).1.pool.indexed u.id u).2 ⟨member, rfl⟩
    simp [known]
  · rw [housed.slots t here u slot]
    cases known : (s.lb.reloadFromConfig client cfg).1.pool.byID u.id with
    | none => rfl
    | some p =>
        obtain ⟨member, named⟩ := (Pool.indexed _ _ _).1 known
        -- the ID of a held slot is not new, so its state was taken over
        have same : p.state = home u.id := by
          rcases LoadBalancer.reload_pool client s.lb cfg with ⟨pool, -⟩ | ⟨filled, ups, fit, valid, built, replaced, -⟩
          · rw [pool] at known
            exact old known
          · obtain ⟨⟨spec, specified, called⟩, origin⟩ :=
              LoadBalancer.mem_replaced cfg valid built replaced member
            rcases origin with ⟨v, found, state⟩ | ⟨unknown, -⟩
            · rw [state]
              exact old (named ▸ found)
            · exact absurd (named.symm.trans called.symm)
                (returns.2 fit filled valid spec specified (called ▸ unknown) t here u slot)
        simp [same]

theorem reload_counted (counted : s.Counted max) (quiet : s.Quiet)
    (returns : s.Returns client max (.reload cfg)) :
    Counted max { s with lb := (s.lb.reloadFromConfig client cfg).1 } := by
  obtain ⟨fresh, made⟩ := LoadBalancer.reload_built client s.lb cfg
  have active := built_active made counted.allocated.unused
  obtain ⟨cfgs, fixed, capped⟩ := counted.capped
  obtain ⟨home, housed⟩ := counted.housed
  have cap : (s.lb.reloadFromConfig client cfg).1.cfg.maxPerProxy = max := by
    rcases LoadBalancer.reload_pool client s.lb cfg with ⟨-, same⟩ | ⟨filled, ups, -, valid, -, -, same⟩
    · rw [same]
      exact fixed _ capped.current
    · obtain ⟨transport, filled⟩ := (Config.checked_of_validate valid).filled
      rw [same, filled]
      exact returns.1
  have taken : s.operate client (.reload cfg) = some _ := rfl
  refine ⟨reload_allocated counted.allocated quiet, operate_disciplined counted.disciplined taken,
    fun r => (active r).trans (counted.conserved r), ⟨cfgs ++ [(s.lb.reloadFromConfig client cfg).1.cfg], ?_, ?_⟩,
    reload_housed housed quiet returns⟩
  · intro c member
    rcases List.mem_append.1 member with member | member
    · exact fixed c member
    · rw [List.mem_singleton.1 member, cap]
  · refine ⟨?_, by simp, fun r => ?_, fun t member caller pos m at_ => absurd at_ (quiet.no_pick member)⟩
    · rw [cap, ← fixed _ capped.current]
      exact capped.positive
    · rw [active r]
      exact (capped.active r).grow

end Reload

theorem init_counted {lb : LoadBalancer} (initial : lb.Initial) : (init lb).Counted lb.cfg.maxPerProxy := by
  have safe := init_safe initial
  refine ⟨safe.allocated, safe.disciplined, safe.conserved, ⟨_, ?_, safe.capped⟩,
    fun id => ((lb.pool.byID id).map (·.state)).getD 0, ?_⟩
  · simp [inForce, init]
  · refine ⟨fun u member => ?_, by simp [init], by simp [init]⟩
    have known := (lb.pool.indexed u.id u).2 ⟨member, rfl⟩
    simp [known]

theorem sessionsOn_le {home : String → StateRef} {s : Sys} (housed : s.Housed home) (conserved : s.Conserved)
    (id : String) : s.sessionsOn id ≤ (s.lb.heap.get (home id)).active := by
  rw [conserved (home id)]
  refine countP_le_total fun t member on => ?_
  unfold Goroutine.sessionOn at on
  split at on
  · rename_i u at_
    have here := housed.slots t member u (by simp [Goroutine.slots, at_, Pc.slot])
    rw [beq_iff_eq.1 on] at here
    simp [Goroutine.holds, Goroutine.sessionHolds, at_, slotOn, here, Nat.add_assoc]
  · cases on

/-- However often an ID has been removed and added, the sessions that hold a slot under it are at
most as many as one upstream may serve. -/
theorem cap_per_id {client : KubeClient} {lb : LoadBalancer} (initial : lb.Initial)
    {trace : List (Sys × Operation)} {s : Sys} (exec : Exec (operate client) (init lb) trace s)
    (guarded : Guarded (Returns client lb.cfg.maxPerProxy) trace) (id : String) :
    (s.sessionsOn id : Int) ≤ lb.cfg.maxPerProxy := by
  have counted : s.Quiet ∧ s.Counted lb.cfg.maxPerProxy := by
    refine exec.invariant (P := fun _ s => s.Quiet ∧ s.Counted lb.cfg.maxPerProxy) ?_ ?_ guarded
    · exact ⟨by simp [init, Quiet], init_counted initial⟩
    · rintro _ s op s' _ ⟨quiet, counted⟩ returns taken
      refine ⟨operate_quiet quiet taken, operate_invariant (P := Counted lb.cfg.maxPerProxy) ?_ ?_ taken counted⟩
      · exact fun _ _ _ held counted stepped => step_counted held counted stepped
      · rintro cfg rfl
        exact reload_counted counted quiet returns
  obtain ⟨home, housed⟩ := counted.2.housed
  obtain ⟨cfgs, fixed, capped⟩ := counted.2.capped
  obtain ⟨c, member, bound⟩ := capped.active (home id)
  rw [fixed c member] at bound
  exact le_trans (by exact_mod_cast sessionsOn_le housed counted.2.conserved id) bound

def otherUpstream : Config :=
  { LoadBalancer.oneUpstream with upstreams := [⟨"b", "10.0.0.2", 1080, "", "", 1, 0⟩] }

/-- The upstream goes and comes back while its session is still running, and gets a fresh state. -/
theorem returned_id_overrun : ∃ lb : LoadBalancer, lb.Initial ∧ lb.cfg.maxPerProxy = 1 ∧
    ∃ trace s, Exec (operate noCluster) (init lb) trace s ∧
      trace.map Prod.snd = [.acquireSlot anyone (List.replicate 6 []), .reload otherUpstream,
        .reload LoadBalancer.oneUpstream, .acquireSlot anyone (List.replicate 6 [])] ∧
      s.sessionsOn "a" = 2 := by
  obtain ⟨lb, initial, cfg, trace, s, exec, actions, overrun⟩ := exists_run (operate noCluster)
    LoadBalancer.oneUpstream
    [.acquireSlot anyone (List.replicate 6 []), .reload otherUpstream, .reload LoadBalancer.oneUpstream,
      .acquireSlot anyone (List.replicate 6 [])]
    (fun _ s => decide (s.sessionsOn "a" = 2)) (by decide +kernel)
  exact ⟨lb, initial, by rw [cfg]; rfl, trace, s, exec, actions, of_decide_eq_true overrun⟩

def returnsIdle (s : Sys) : Operation → Bool
  | .reload cfg => decide (cfg.maxPerProxy = 1) && s.threads.all (·.slots.isEmpty)
  | _ => true

theorem returns_of_idle {client : KubeClient} {s : Sys} {op : Operation} (idle : s.returnsIdle op = true) :
    s.Returns client 1 op := by
  cases op with
  | reload cfg =>
      simp only [returnsIdle, Bool.and_eq_true, decide_eq_true_eq, List.all_eq_true, List.isEmpty_iff] at idle
      refine ⟨idle.1, fun _ _ _ _ _ _ t member u slot => ?_⟩
      rw [idle.2 t member] at slot
      cases slot
  | _ => trivial

theorem cap_per_id_returned : ∃ lb : LoadBalancer, lb.Initial ∧
    ∃ trace s, Exec (operate noCluster) (init lb) trace s ∧
      Guarded (Returns noCluster lb.cfg.maxPerProxy) trace ∧ s.sessionsOn "a" = 1 ∧
      (s.sessionsOn "a" : Int) ≤ lb.cfg.maxPerProxy := by
  obtain ⟨lb, initial, cfg, trace, s, exec, -, good⟩ := exists_run (operate noCluster)
    LoadBalancer.oneUpstream
    [.acquireSlot anyone (List.replicate 6 []), .releaseSlot 0 (List.replicate 2 []), .reload otherUpstream,
      .reload LoadBalancer.oneUpstream, .acquireSlot anyone (List.replicate 6 [])]
    (fun trace s => decide ((∀ entry ∈ trace, entry.1.returnsIdle entry.2 = true) ∧ s.sessionsOn "a" = 1))
    (by decide +kernel)
  obtain ⟨idle, one⟩ := of_decide_eq_true good
  have fixed : lb.cfg.maxPerProxy = 1 := by rw [cfg]; rfl
  have guarded : Guarded (Returns noCluster lb.cfg.maxPerProxy) trace := fun entry member =>
    fixed ▸ returns_of_idle (idle entry member)
  exact ⟨lb, initial, trace, s, exec, guarded, one, cap_per_id initial exec guarded "a"⟩

end Sys

end S5lb
