import S5lb.Balancer.Pick
import S5lb.Balancer.Slots
import S5lb.Lib.Gauge

/-! The gauge of active sessions under the operations that update it, each carried to its end. -/

namespace S5lb

open Transition Ledger

structure Metered where
  lb : LoadBalancer
  upActive : GaugeVec String
  slots : List Upstream
  waiters : List SelectCtx

inductive MeteredOp
  | pick (sc : SelectCtx) (draws : List Nat)
  | releaseSlot (i : Nat) (draws : List (List Nat))
  | setUpstreams (ups : List Upstream)
  | enqueue (sc : SelectCtx)
  | cancelWaiter (i : Nat)
  | markHealthy (r : StateRef) (draws : List (List Nat))
  | touch (r : StateRef) (op : StateOp)
  | commit (cfg : Config)

def equip (heap : Heap State) : List Upstream → List Upstream × Heap State
  | [] => ([], heap)
  | u :: rest =>
      let (out, last) := equip (heap.alloc newState).2 rest
      ({ u with state := heap.next } :: out, last)

theorem built_equip (heap : Heap State) (ups : List Upstream) :
    Built heap (equip heap ups).1 (equip heap ups).2 := by
  induction ups generalizing heap with
  | nil => exact ⟨.refl _, fun r low high => absurd high (not_lt.2 low), fun _ _ => rfl, by simp [equip], by simp [equip]⟩
  | cons u rest ih => exact Built.cons (ih _) rfl

theorem Pool.adopt_addr (old : Pool) (u : Upstream) : (old.adopt u).addr = u.addr := by
  unfold adopt
  split <;> rfl

def Pool.activeAt (pool : Pool) (heap : Heap State) (addr : String) : Nat :=
  total (fun u => (heap.get u.state).active) (pool.upstreams.filter fun u => u.addr = addr)

section ActiveAt

variable {pool : Pool} {heap heap' : Heap State} {u : Upstream} {r : StateRef} {addr : String}

theorem Pool.activeAt_self (apart : (pool.upstreams.map (·.state)).Nodup) (member : u ∈ pool.upstreams)
    (others : ∀ r, r ≠ u.state → (heap'.get r).active = (heap.get r).active) :
    pool.activeAt heap' u.addr + (heap.get u.state).active =
      pool.activeAt heap u.addr + (heap'.get u.state).active := by
  have once : (pool.upstreams.filter fun v => v.addr = u.addr).Nodup := (List.Nodup.of_map _ apart).filter _
  have inside : u ∈ pool.upstreams.filter fun v => v.addr = u.addr := List.mem_filter.2 ⟨member, by simp⟩
  apply total_of_ne once inside
  intro v memberV ne
  apply others
  exact fun same => ne (List.inj_on_of_nodup_map apart (List.mem_of_mem_filter memberV) member same)

theorem Pool.activeAt_other (others : ∀ q, q ≠ r → (heap'.get q).active = (heap.get q).active)
    (elsewhere : ∀ v ∈ pool.upstreams, v.addr = addr → v.state ≠ r) :
    pool.activeAt heap' addr = pool.activeAt heap addr := by
  apply total_congr
  intro v inside
  obtain ⟨member, here⟩ := List.mem_filter.1 inside
  exact others v.state (elsewhere v member (of_decide_eq_true here))

end ActiveAt

namespace Metered

def start (cfg : Config) (sel : Selector) : Metered :=
  ⟨LoadBalancer.unpublished cfg ⟨fun _ => newState, 0⟩ sel, .empty, [], []⟩

def pick (s : Metered) (sc : SelectCtx) (draws : List Nat) : Option (Bool × Metered) :=
  ((s.lb.pick sc).run draws).map fun
    | (none, lb) => (false, { s with lb })
    | (some u, lb) =>
        (true, { s with lb, upActive := s.upActive.add u.addr 1, slots := s.slots ++ [u] })

def dispatch (s : Metered) : List SelectCtx → List (List Nat) → Option Metered
  | [], _ => some { s with waiters := [] }
  | _ :: _, [] => none
  | sc :: rest, draws :: more =>
      match s.pick sc draws with
      | none => none
      | some (true, s') => s'.dispatch rest more
      | some (false, s') => some { s' with waiters := sc :: rest }

def released (s : Metered) (i : Nat) (u : Upstream) : Metered :=
  { s with
    lb := { s.lb with heap := s.lb.heap.set u.state (s.lb.heap.get u.state).decActive }
    upActive := s.upActive.add u.addr (-1)
    slots := s.slots.eraseIdx i }

def active (s : Metered) (u : Upstream) : Nat := (s.lb.heap.get u.state).active

def shownFor (s : Metered) (heap : Heap State) (pool : Pool) : GaugeVec String :=
  (s.upActive.setAll pool.upstreams (·.addr) fun u => (heap.get u.state).active).deleteAll
    ((s.lb.pool.upstreams.filter fun old => (pool.byID old.id).isNone).map (·.addr))

def setUpstreams (s : Metered) (ups : List Upstream) : Metered :=
  let heap := (equip s.lb.heap ups).2
  match ({ s.lb with heap } : LoadBalancer).setUpstreams (equip s.lb.heap ups).1 with
  | .error _ => { s with lb := { s.lb with heap } }
  | .ok lb => { s with lb, upActive := s.shownFor heap lb.pool }

def step (s : Metered) : MeteredOp → Option Metered
  | .pick sc draws => (s.pick sc draws).map Prod.snd
  | .releaseSlot i draws => s.slots[i]?.bind fun u => (s.released i u).dispatch s.waiters draws
  | .setUpstreams ups => some (s.setUpstreams ups)
  | .enqueue sc => some { s with waiters := s.waiters ++ [sc] }
  | .cancelWaiter i => some { s with waiters := s.waiters.eraseIdx i }
  | .markHealthy r draws =>
      let (state, flipped) := (s.lb.heap.get r).markHealthy
      let s' := { s with lb := { s.lb with heap := s.lb.heap.set r state } }
      if flipped then s'.dispatch s.waiters draws else some s'
  | .touch r op =>
      some { s with lb := { s.lb with heap := s.lb.heap.set r (op.apply (s.lb.heap.get r)) } }
  | .commit cfg => some { s with lb := { s.lb with cfg } }

structure Tracks (s : Metered) : Prop where
  pool : ∀ u ∈ s.lb.pool.upstreams, s.upActive.value u.addr =
      some (s.lb.pool.activeAt s.lb.heap u.addr : Int)
  nonneg : ∀ addr n, s.upActive.value addr = some n → 0 ≤ n

def arriving (s : Metered) (ups : List Upstream) : List Upstream :=
  StableSort.byKey (·.priority) ((equip s.lb.heap ups).1.map Upstream.normalizeID)

def carried (s : Metered) (id : String) : Nat := ((s.lb.pool.byID id).map s.active).getD 0

/-- A slot goes back to the address under which its state is in the pool, or, when the pool has
neither, to one that still shows a session. New upstreams do not have the address of one that goes,
and of those at one address only the last takes over sessions. -/
def Faithful (s : Metered) : MeteredOp → Prop
  | .releaseSlot i _ => ∀ u, s.slots[i]? = some u →
      (∃ v ∈ s.lb.pool.upstreams, v.state = u.state ∧ v.addr = u.addr) ∨
      (∀ v ∈ s.lb.pool.upstreams, v.state ≠ u.state ∧ v.addr ≠ u.addr) ∧
        ∃ n, s.upActive.value u.addr = some n ∧ 1 ≤ n
  | .setUpstreams ups => ((s.arriving ups).map (·.id)).Nodup →
      (∀ v ∈ s.lb.pool.upstreams, (∀ u ∈ s.arriving ups, u.id ≠ v.id) →
        ∀ u ∈ s.arriving ups, u.addr ≠ v.addr) ∧
      (s.arriving ups).Pairwise fun u w => u.addr = w.addr → s.carried u.id = 0
  | _ => True

structure Sound (s : Metered) : Prop where
  pooled : ∀ u ∈ s.lb.pool.upstreams, u.state < s.lb.heap.next
  apart : (s.lb.pool.upstreams.map (·.state)).Nodup
  unused : ∀ r, s.lb.heap.next ≤ r → (s.lb.heap.get r).active = 0
  counted : ∀ r, (s.lb.heap.get r).active = s.slots.countP fun u => u.state = r

structure Books (s : Metered) (u : Upstream) (d : Int) (s' : Metered) : Prop where
  pool : s'.lb.pool = s.lb.pool
  next : s'.lb.heap.next = s.lb.heap.next
  here : ((s'.lb.heap.get u.state).active : Int) = (s.lb.heap.get u.state).active + d
  others : ∀ r, r ≠ u.state → (s'.lb.heap.get r).active = (s.lb.heap.get r).active
  gauge : s'.upActive = s.upActive.add u.addr d
  slots : ∀ r, (s'.slots.countP (fun v => v.state = r) : Int) =
    s.slots.countP (fun v => v.state = r) + if u.state = r then d else 0

structure Same (s s' : Metered) : Prop where
  pool : s'.lb.pool = s.lb.pool
  next : s'.lb.heap.next = s.lb.heap.next
  active : ∀ r, (s'.lb.heap.get r).active = (s.lb.heap.get r).active
  gauge : s'.upActive = s.upActive
  slots : s'.slots = s.slots

variable {s s' : Metered} {u : Upstream}

theorem pick_cases {sc : SelectCtx} {draws : List Nat} {got : Bool}
    (picked : s.pick sc draws = some (got, s')) :
    Same s s' ∨ ∃ u ∈ s.lb.pool.upstreams, Books s u 1 s' := by
  obtain ⟨out, ran, same⟩ := Option.map_eq_some_iff.1 picked
  obtain ⟨id, after, -, rfl⟩ := LoadBalancer.pick_outcome.1 (Drawing.run_outcome ran)
  rcases LoadBalancer.reserve_cases { s.lb with selector := after } id with none | ⟨u, state, member, granted, some⟩
  · rw [none] at same
    cases same
    exact .inl ⟨rfl, rfl, fun _ => rfl, rfl, rfl⟩
  · rw [some] at same
    cases same
    obtain ⟨-, rfl⟩ := State.incActive_eq_some.1 granted
    refine .inr ⟨u, member, rfl, rfl, ?_, fun r other => ?_, rfl, fun r => ?_⟩
    · simp
    · rw [Heap.get_set_of_ne _ _ other]
    · rw [List.countP_append, List.countP_singleton]
      by_cases here : u.state = r <;> simp [here]

theorem books_released {i : Nat} (sound : s.Sound) (located : s.slots[i]? = some u) :
    Books s u (-1) (s.released i u) := by
  have counts : ∀ r, (s.slots.countP (fun v => v.state = r) : Int) =
      (s.slots.eraseIdx i).countP (fun v => v.state = r) + if u.state = r then 1 else 0 := by
    intro r
    obtain ⟨bound, rfl⟩ := List.getElem?_eq_some_iff.1 located
    have perm := List.getElem_cons_eraseIdx_perm bound
    rw [← perm.countP_eq, List.countP_cons]
    by_cases here : s.slots[i].state = r <;> simp [here]
  have held : 0 < (s.lb.heap.get u.state).active := by
    rw [sound.counted u.state, List.countP_pos_iff]
    exact ⟨u, List.mem_of_getElem? located, by simp⟩
  refine ⟨rfl, rfl, ?_, fun r other => ?_, rfl, fun r => ?_⟩
  · simp only [released, Heap.get_set_self, State.decActive_active]
    omega
  · simp only [released, Heap.get_set_of_ne _ _ other]
  · rw [counts r]
    simp only [released]
    split <;> omega

theorem dispatch_keeps {P : Metered → Prop}
    (picks : ∀ s sc draws got s', P s → s.pick sc draws = some (got, s') → P s')
    (queues : ∀ s waiters, P s → P { s with waiters }) {waiters : List SelectCtx}
    {draws : List (List Nat)} (before : P s) (ran : s.dispatch waiters draws = some s') : P s' := by
  induction waiters generalizing s draws with
  | nil =>
      cases ran
      exact queues s _ before
  | cons sc rest ih =>
      cases draws with
      | nil => cases ran
      | cons draws more =>
          rw [dispatch] at ran
          split at ran
          · cases ran
          · rename_i next picked
            exact ih (picks _ _ _ _ _ before picked) ran
          · rename_i next picked
            cases ran
            exact queues _ _ (picks _ _ _ _ _ before picked)

section Booked

variable {d : Int}

theorem Same.sound (same : Same s s') (sound : s.Sound) : s'.Sound := by
  refine ⟨?_, ?_, fun r beyond => ?_, fun r => ?_⟩
  · rw [same.pool, same.next]
    exact sound.pooled
  · rw [same.pool]
    exact sound.apart
  · rw [same.active]
    exact sound.unused r (same.next ▸ beyond)
  · rw [same.active, same.slots]
    exact sound.counted r

theorem Same.activeAt (same : Same s s') (addr : String) :
    s'.lb.pool.activeAt s'.lb.heap addr = s.lb.pool.activeAt s.lb.heap addr := by
  rw [same.pool]
  exact total_congr fun v _ => same.active v.state

theorem Same.tracks (same : Same s s') (tracks : s.Tracks) : s'.Tracks := by
  refine ⟨fun v member => ?_, fun addr n shown => ?_⟩
  · rw [same.activeAt, same.gauge]
    exact tracks.pool v (same.pool ▸ member)
  · exact tracks.nonneg addr n (same.gauge ▸ shown)

theorem Books.sound (books : Books s u d s') (sound : s.Sound) (known : u.state < s.lb.heap.next) :
    s'.Sound := by
  refine ⟨?_, ?_, fun r beyond => ?_, fun r => ?_⟩
  · rw [books.pool, books.next]
    exact sound.pooled
  · rw [books.pool]
    exact sound.apart
  · rw [books.next] at beyond
    rw [books.others r (known.trans_le beyond).ne']
    exact sound.unused r beyond
  · have slots := books.slots r
    by_cases here : u.state = r
    · subst here
      rw [if_pos rfl, ← sound.counted u.state, ← books.here] at slots
      exact_mod_cast slots.symm
    · rw [if_neg here, Int.add_zero] at slots
      rw [books.others r (Ne.symm here), sound.counted r]
      exact_mod_cast slots.symm

theorem Books.activeAt_self (books : Books s u d s') (sound : s.Sound) {v : Upstream}
    (member : v ∈ s.lb.pool.upstreams) (same : v.state = u.state) :
    (s'.lb.pool.activeAt s'.lb.heap v.addr : Int) = s.lb.pool.activeAt s.lb.heap v.addr + d := by
  have others := books.others
  have here := books.here
  rw [← same] at others here
  have counted := @Pool.activeAt_self s.lb.pool s.lb.heap s'.lb.heap v sound.apart member others
  rw [books.pool]
  omega

theorem Books.activeAt_other (books : Books s u d s') {addr : String}
    (elsewhere : ∀ v ∈ s.lb.pool.upstreams, v.addr = addr → v.state ≠ u.state) :
    s'.lb.pool.activeAt s'.lb.heap addr = s.lb.pool.activeAt s.lb.heap addr := by
  rw [books.pool]
  exact Pool.activeAt_other books.others elsewhere

theorem Books.elsewhere (sound : s.Sound) {v : Upstream} (member : v ∈ s.lb.pool.upstreams)
    {addr : String} (other : addr ≠ v.addr) : ∀ w ∈ s.lb.pool.upstreams, w.addr = addr → w.state ≠ v.state := by
  rintro w memberW rfl same
  exact other (congrArg Upstream.addr (List.inj_on_of_nodup_map sound.apart memberW member same))

theorem Books.tracks (books : Books s u d s') (sound : s.Sound) (tracks : s.Tracks) {v : Upstream}
    (member : v ∈ s.lb.pool.upstreams) (same : v.state = u.state) (home : v.addr = u.addr) : s'.Tracks := by
  have shown : s'.upActive.value u.addr = some (s'.lb.pool.activeAt s'.lb.heap u.addr : Int) := by
    rw [books.gauge, GaugeVec.value_add_self, ← home, tracks.pool v member,
      books.activeAt_self sound member same]
    rfl
  refine ⟨fun w memberW => ?_, fun addr n found => ?_⟩
  · by_cases here : w.addr = u.addr
    · rw [here]
      exact shown
    · have elsewhere := elsewhere sound member (home ▸ here)
      rw [same] at elsewhere
      rw [books.gauge, GaugeVec.value_add_of_ne _ _ here, books.activeAt_other elsewhere]
      exact tracks.pool w (books.pool ▸ memberW)
  · by_cases here : addr = u.addr
    · rw [here, shown] at found
      cases found
      exact Int.natCast_nonneg _
    · rw [books.gauge, GaugeVec.value_add_of_ne _ _ here] at found
      exact tracks.nonneg addr n found

end Booked

def Off (s : Metered) (addr : String) : Prop :=
  ∃ n, s.upActive.value addr = some n ∧
    ((∃ v ∈ s.lb.pool.upstreams, v.addr = addr) → n ≠ s.lb.pool.activeAt s.lb.heap addr) ∧
    ((∀ v ∈ s.lb.pool.upstreams, v.addr ≠ addr) → n < 0)

theorem Off.not_tracks {addr : String} (off : s.Off addr) : ¬s.Tracks := by
  obtain ⟨n, shown, wrong, negative⟩ := off
  intro tracks
  by_cases listed : ∃ v ∈ s.lb.pool.upstreams, v.addr = addr
  · obtain ⟨v, member, rfl⟩ := listed
    rw [tracks.pool v member] at shown
    exact wrong ⟨v, member, rfl⟩ (Option.some.inj shown).symm
  · have low := negative fun v member here => listed ⟨v, member, here⟩
    exact absurd (tracks.nonneg addr n shown) (not_le.2 low)

section Pick

variable {sc : SelectCtx} {draws : List Nat} {got : Bool}

theorem pick_sound (sound : s.Sound) (picked : s.pick sc draws = some (got, s')) : s'.Sound := by
  rcases pick_cases picked with same | ⟨u, member, books⟩
  · exact same.sound sound
  · exact books.sound sound (sound.pooled u member)

theorem pick_tracks (sound : s.Sound) (tracks : s.Tracks) (picked : s.pick sc draws = some (got, s')) :
    s'.Tracks := by
  rcases pick_cases picked with same | ⟨u, member, books⟩
  · exact same.tracks tracks
  · exact books.tracks sound tracks member rfl rfl

theorem pick_off {addr : String} (sound : s.Sound) (off : s.Off addr)
    (picked : s.pick sc draws = some (got, s')) : s'.Off addr := by
  obtain ⟨n, shown, wrong, negative⟩ := off
  rcases pick_cases picked with same | ⟨u, member, books⟩
  · refine ⟨n, same.gauge ▸ shown, ?_, ?_⟩
    · rw [same.activeAt, same.pool]
      exact wrong
    · rw [same.pool]
      exact negative
  · by_cases here : addr = u.addr
    · subst here
      refine ⟨n + 1, ?_, fun _ => ?_, fun none => absurd rfl (none u (books.pool.symm ▸ member))⟩
      · rw [books.gauge, GaugeVec.value_add_self, shown]
        rfl
      · rw [books.activeAt_self sound member rfl]
        have differs := wrong ⟨u, member, rfl⟩
        omega
    · refine ⟨n, ?_, ?_, ?_⟩
      · rw [books.gauge, GaugeVec.value_add_of_ne _ _ here]
        exact shown
      · rw [books.activeAt_other (Books.elsewhere sound member here), books.pool]
        exact wrong
      · rw [books.pool]
        exact negative

end Pick

section Dispatch

variable {waiters : List SelectCtx} {draws : List (List Nat)}

theorem dispatch_sound (sound : s.Sound) (ran : s.dispatch waiters draws = some s') : s'.Sound := by
  apply dispatch_keeps (P := Sound) _ _ sound ran
  · exact fun s sc draws got s' sound picked => pick_sound sound picked
  · exact fun s waiters sound => ⟨sound.pooled, sound.apart, sound.unused, sound.counted⟩

theorem dispatch_tracks (sound : s.Sound) (tracks : s.Tracks)
    (ran : s.dispatch waiters draws = some s') : s'.Tracks := by
  have kept : s'.Sound ∧ s'.Tracks := by
    apply dispatch_keeps (P := fun s => s.Sound ∧ s.Tracks) _ _ ⟨sound, tracks⟩ ran
    · exact fun s sc draws got s' ⟨sound, tracks⟩ picked =>
        ⟨pick_sound sound picked, pick_tracks sound tracks picked⟩
    · exact fun s waiters ⟨sound, tracks⟩ =>
        ⟨⟨sound.pooled, sound.apart, sound.unused, sound.counted⟩, tracks.pool, tracks.nonneg⟩
  exact kept.2

theorem dispatch_off {addr : String} (sound : s.Sound) (off : s.Off addr)
    (ran : s.dispatch waiters draws = some s') : s'.Off addr := by
  have kept : s'.Sound ∧ s'.Off addr := by
    apply dispatch_keeps (P := fun s => s.Sound ∧ s.Off addr) _ _ ⟨sound, off⟩ ran
    · exact fun s sc draws got s' ⟨sound, off⟩ picked =>
        ⟨pick_sound sound picked, pick_off sound off picked⟩
    · exact fun s waiters ⟨sound, off⟩ =>
        ⟨⟨sound.pooled, sound.apart, sound.unused, sound.counted⟩, off⟩
  exact kept.2

end Dispatch

section Release

variable {i : Nat} {draws : List (List Nat)}

theorem known_of_slot (sound : s.Sound) (located : s.slots[i]? = some u) : u.state < s.lb.heap.next := by
  by_contra beyond
  have none := sound.unused u.state (not_lt.1 beyond)
  rw [sound.counted u.state, List.countP_eq_zero] at none
  exact none u (List.mem_of_getElem? located) (by simp)

theorem released_tracks (sound : s.Sound) (tracks : s.Tracks) (located : s.slots[i]? = some u)
    (faithful : s.Faithful (.releaseSlot i draws)) : (s.released i u).Tracks := by
  have books := books_released sound located
  rcases faithful u located with ⟨v, member, same, home⟩ | ⟨apart, n, shown, left⟩
  · exact books.tracks sound tracks member same home
  · refine ⟨fun v member => ?_, fun addr m found => ?_⟩
    · have other := (apart v member).2
      rw [books.activeAt_other fun w memberW _ => (apart w memberW).1]
      exact (s.upActive.value_add_of_ne _ other).trans (tracks.pool v member)
    · by_cases here : addr = u.addr
      · rw [here, books.gauge, GaugeVec.value_add_self, shown] at found
        cases found
        simp only [Option.getD_some]
        omega
      · rw [books.gauge, GaugeVec.value_add_of_ne _ _ here] at found
        exact tracks.nonneg addr m found

theorem released_off (sound : s.Sound) (tracks : s.Tracks) (located : s.slots[i]? = some u)
    (unfaithful : ¬s.Faithful (.releaseSlot i draws)) : ∃ addr, (s.released i u).Off addr := by
  have books := books_released sound located
  have given : (s.released i u).upActive.value u.addr = some ((s.upActive.value u.addr).getD 0 + -1) :=
    s.upActive.value_add_self u.addr (-1)
  have missing : ¬((∃ v ∈ s.lb.pool.upstreams, v.state = u.state ∧ v.addr = u.addr) ∨
      (∀ v ∈ s.lb.pool.upstreams, v.state ≠ u.state ∧ v.addr ≠ u.addr) ∧
        ∃ n, s.upActive.value u.addr = some n ∧ 1 ≤ n) := by
    intro faithful
    apply unfaithful
    intro w there
    cases located.symm.trans there
    exact faithful
  rw [not_or] at missing
  obtain ⟨stray, spent⟩ := missing
  by_cases listed : ∃ w ∈ s.lb.pool.upstreams, w.addr = u.addr
  · -- the address loses a session that it does not count
    obtain ⟨w, member, here⟩ := listed
    refine ⟨u.addr, _, given, fun _ => ?_, fun none => absurd here (none w member)⟩
    rw [books.activeAt_other fun v memberV home same => stray ⟨v, memberV, same, home⟩, ← here,
      tracks.pool w member, Option.getD_some]
    omega
  · by_cases counted : ∃ v ∈ s.lb.pool.upstreams, v.state = u.state
    · -- the session is counted at another address
      obtain ⟨v, member, same⟩ := counted
      have other : v.addr ≠ u.addr := fun here => listed ⟨v, member, here⟩
      have kept : (s.released i u).upActive.value v.addr = some (s.lb.pool.activeAt s.lb.heap v.addr : Int) :=
        (s.upActive.value_add_of_ne _ other).trans (tracks.pool v member)
      refine ⟨v.addr, _, kept, fun _ => ?_, fun none => absurd rfl (none v member)⟩
      rw [books.activeAt_self sound member same]
      omega
    · -- nobody counts it, and the gauge has nothing to give back
      refine ⟨u.addr, _, given, fun there => absurd there listed, fun _ => ?_⟩
      have none : ∀ n, s.upActive.value u.addr = some n → n < 1 := by
        intro n shown
        by_contra left
        exact spent ⟨fun v member => ⟨fun same => counted ⟨v, member, same⟩,
          fun here => listed ⟨v, member, here⟩⟩, n, shown, not_lt.1 left⟩
      cases shown : s.upActive.value u.addr with
      | none => simp
      | some n =>
          have low := none n shown
          simp only [Option.getD_some]
          omega

theorem releaseSlot_tracks_iff (sound : s.Sound) (tracks : s.Tracks)
    (taken : s.step (.releaseSlot i draws) = some s') :
    s'.Tracks ↔ s.Faithful (.releaseSlot i draws) := by
  obtain ⟨u, located, ran⟩ := Option.bind_eq_some_iff.1 taken
  have sound' := (books_released sound located).sound sound (known_of_slot sound located)
  constructor
  · intro tracks'
    by_contra unfaithful
    obtain ⟨addr, off⟩ := released_off sound tracks located unfaithful
    exact (dispatch_off sound' off ran).not_tracks tracks'
  · intro faithful
    exact dispatch_tracks sound' (released_tracks sound tracks located faithful) ran

end Release

section SetUpstreams

variable {ups : List Upstream} {pool : Pool}

theorem setUpstreams_cases (s : Metered) (ups : List Upstream) :
    (¬((s.arriving ups).map (·.id)).Nodup ∧
      s.setUpstreams ups = { s with lb := { s.lb with heap := (equip s.lb.heap ups).2 } }) ∨
    ((s.arriving ups).map (·.id)).Nodup ∧ ∃ pool, s.lb.pool.replace (equip s.lb.heap ups).1 = .ok pool ∧
      s.setUpstreams ups = { s with
        lb := { s.lb with heap := (equip s.lb.heap ups).2, pool }
        upActive := s.shownFor (equip s.lb.heap ups).2 pool } := by
  have perm : ((s.arriving ups).map (·.id)).Perm
      (((equip s.lb.heap ups).1.map Upstream.normalizeID).map (·.id)) :=
    (StableSort.byKey_perm _ _).map _
  cases replaced : s.lb.pool.replace (equip s.lb.heap ups).1 with
  | error why =>
      refine .inl ⟨fun distinct => ?_, ?_⟩
      · obtain ⟨pool, made⟩ := s.lb.pool.exists_replace (perm.nodup_iff.1 distinct)
        rw [made] at replaced
        cases replaced
      · simp only [setUpstreams, LoadBalancer.setUpstreams, replaced, Except.map]
  | ok pool =>
      refine .inr ⟨perm.nodup_iff.2 (Pool.replace_ok replaced).1, pool, rfl, ?_⟩
      simp only [setUpstreams, LoadBalancer.setUpstreams, replaced, Except.map]

theorem setUpstreams_sound (sound : s.Sound) (ups : List Upstream) : (s.setUpstreams ups).Sound := by
  have built := built_equip s.lb.heap ups
  have active := Sys.built_active built sound.unused
  have unused : ∀ r, (equip s.lb.heap ups).2.next ≤ r → ((equip s.lb.heap ups).2.get r).active = 0 := by
    intro r beyond
    rw [active r]
    exact sound.unused r (built.old.next_le.trans beyond)
  have counted (r : StateRef) : ((equip s.lb.heap ups).2.get r).active =
      s.slots.countP fun u => u.state = r := (active r).trans (sound.counted r)
  rcases setUpstreams_cases s ups with ⟨-, refused⟩ | ⟨-, pool, replaced, set⟩
  · rw [refused]
    exact ⟨fun u member => (sound.pooled u member).trans_le built.old.next_le, sound.apart, unused, counted⟩
  · rw [set]
    refine ⟨Sys.replace_pooled built replaced sound.pooled, ?_, unused, counted⟩
    apply Pool.replace_apart replaced sound.apart built.distinct
    intro u member v old
    exact ((sound.pooled v old).trans_le (built.owned u member).1).ne'

theorem pool_of_replace (replaced : s.lb.pool.replace (equip s.lb.heap ups).1 = .ok pool) :
    pool.upstreams = (s.arriving ups).map s.lb.pool.adopt := (Pool.replace_ok replaced).2

theorem active_adopt (sound : s.Sound) (member : u ∈ s.arriving ups) :
    ((equip s.lb.heap ups).2.get (s.lb.pool.adopt u).state).active = s.carried u.id := by
  have built := built_equip s.lb.heap ups
  rw [Sys.built_active built sound.unused]
  unfold Pool.adopt carried
  cases s.lb.pool.byID u.id with
  | some v => rfl
  | none =>
      have listed : u ∈ (equip s.lb.heap ups).1.map Upstream.normalizeID :=
        (StableSort.byKey_perm _ _).mem_iff.1 member
      obtain ⟨w, memberW, rfl⟩ := List.mem_map.1 listed
      apply sound.unused
      rw [Upstream.normalizeID_state]
      exact (built.owned w memberW).1

theorem gone_iff (replaced : s.lb.pool.replace (equip s.lb.heap ups).1 = .ok pool) {addr : String} :
    addr ∈ (s.lb.pool.upstreams.filter fun old => (pool.byID old.id).isNone).map (·.addr) ↔
    ∃ v ∈ s.lb.pool.upstreams, (∀ u ∈ s.arriving ups, u.id ≠ v.id) ∧ v.addr = addr := by
  have absent (v : Upstream) : pool.byID v.id = none ↔ ∀ u ∈ s.arriving ups, u.id ≠ v.id := by
    rw [Option.eq_none_iff_forall_ne_some]
    simp only [ne_eq, pool.indexed, pool_of_replace replaced, List.mem_map, not_and]
    constructor
    · intro none u member same
      exact none _ ⟨u, member, rfl⟩ ((s.lb.pool.adopt_id u).trans same)
    · rintro none _ ⟨u, member, rfl⟩ same
      exact none u member ((s.lb.pool.adopt_id u).symm.trans same)
  simp only [List.mem_map, List.mem_filter, Option.isNone_iff_eq_none, absent, and_assoc]

theorem shownFor_pool_iff (sound : s.Sound)
    (replaced : s.lb.pool.replace (equip s.lb.heap ups).1 = .ok pool) :
    (∀ u ∈ pool.upstreams, (s.shownFor (equip s.lb.heap ups).2 pool).value u.addr =
      some (pool.activeAt (equip s.lb.heap ups).2 u.addr : Int)) ↔
    (∀ v ∈ s.lb.pool.upstreams, (∀ u ∈ s.arriving ups, u.id ≠ v.id) →
      ∀ u ∈ s.arriving ups, u.addr ≠ v.addr) ∧
    (s.arriving ups).Pairwise fun u w => u.addr = w.addr → s.carried u.id = 0 := by
  have pairs : (s.arriving ups).Pairwise (fun u w => u.addr = w.addr → s.carried u.id = 0) ↔
      pool.upstreams.Pairwise fun u w => u.addr = w.addr →
        ((equip s.lb.heap ups).2.get u.state).active = 0 := by
    rw [pool_of_replace replaced, List.pairwise_map]
    refine List.Pairwise.iff_of_mem fun {u w} member _ => ?_
    rw [Pool.adopt_addr, Pool.adopt_addr, active_adopt sound member]
  rw [pairs, ← s.upActive.setAll_eq_sum_iff]
  simp only [shownFor, GaugeVec.value_deleteAll, gone_iff replaced]
  have intact (kept : ∀ v ∈ s.lb.pool.upstreams, (∀ u ∈ s.arriving ups, u.id ≠ v.id) →
        ∀ u ∈ s.arriving ups, u.addr ≠ v.addr) {u : Upstream} (member : u ∈ pool.upstreams) :
      ¬∃ v ∈ s.lb.pool.upstreams, (∀ u ∈ s.arriving ups, u.id ≠ v.id) ∧ v.addr = u.addr := by
    rintro ⟨v, old, gone, same⟩
    rw [pool_of_replace replaced] at member
    obtain ⟨w, memberW, rfl⟩ := List.mem_map.1 member
    exact kept v old gone w memberW ((s.lb.pool.adopt_addr w).symm.trans same.symm)
  constructor
  · intro shown
    have kept : ∀ v ∈ s.lb.pool.upstreams, (∀ u ∈ s.arriving ups, u.id ≠ v.id) →
        ∀ u ∈ s.arriving ups, u.addr ≠ v.addr := by
      intro v old gone u member same
      have listed : s.lb.pool.adopt u ∈ pool.upstreams := by
        rw [pool_of_replace replaced]
        exact List.mem_map_of_mem member
      have here := shown _ listed
      rw [if_pos ⟨v, old, gone, (same.symm.trans (s.lb.pool.adopt_addr u).symm)⟩] at here
      cases here
    refine ⟨kept, fun u member => ?_⟩
    have here := shown u member
    rw [if_neg (intact kept member)] at here
    exact here
  · rintro ⟨kept, whole⟩ u member
    rw [if_neg (intact kept member)]
    exact whole u member

theorem shownFor_nonneg (tracks : s.Tracks) (heap : Heap State) {addr : String} {n : Int}
    (shown : (s.shownFor heap pool).value addr = some n) : 0 ≤ n := by
  simp only [shownFor, GaugeVec.value_deleteAll, GaugeVec.value_setAll] at shown
  split at shown
  · cases shown
  · cases set : (pool.upstreams.filter fun u => u.addr = addr).getLast? with
    | none =>
        rw [set] at shown
        exact tracks.nonneg addr n shown
    | some u =>
        rw [set] at shown
        cases shown
        exact Int.natCast_nonneg _

theorem setUpstreams_tracks_iff (sound : s.Sound) (tracks : s.Tracks) (ups : List Upstream) :
    (s.setUpstreams ups).Tracks ↔ s.Faithful (.setUpstreams ups) := by
  rcases setUpstreams_cases s ups with ⟨repeated, refused⟩ | ⟨distinct, pool, replaced, set⟩
  · have kept : (s.setUpstreams ups).Tracks := by
      rw [refused]
      refine ⟨fun u member => ?_, tracks.nonneg⟩
      have active : s.lb.pool.activeAt (equip s.lb.heap ups).2 u.addr =
          s.lb.pool.activeAt s.lb.heap u.addr :=
        total_congr fun v _ => Sys.built_active (built_equip s.lb.heap ups) sound.unused v.state
      rw [active]
      exact tracks.pool u member
    exact ⟨fun _ distinct => absurd distinct repeated, fun _ => kept⟩
  · have shown := shownFor_pool_iff sound replaced
    constructor
    · intro tracks' _
      rw [set] at tracks'
      exact shown.1 tracks'.pool
    · intro faithful
      rw [set]
      exact ⟨shown.2 (faithful distinct), fun addr n => shownFor_nonneg tracks _⟩

end SetUpstreams

theorem markHealthy_active (state : State) : state.markHealthy.1.active = state.active := by
  unfold State.markHealthy
  split <;> rfl

theorem same_set {r : StateRef} {state : State} (active : state.active = (s.lb.heap.get r).active) :
    Same s { s with lb := { s.lb with heap := s.lb.heap.set r state } } := by
  refine ⟨rfl, rfl, fun q => ?_, rfl, rfl⟩
  rw [Heap.get_set]
  split
  · rename_i here
    rw [here, active]
  · rfl

theorem step_sound {op : MeteredOp} (sound : s.Sound) (taken : s.step op = some s') : s'.Sound := by
  cases op with
  | pick sc draws =>
      obtain ⟨⟨got, _⟩, picked, rfl⟩ := Option.map_eq_some_iff.1 taken
      exact pick_sound sound picked
  | releaseSlot i draws =>
      obtain ⟨u, located, ran⟩ := Option.bind_eq_some_iff.1 taken
      exact dispatch_sound
        ((books_released sound located).sound sound (known_of_slot sound located)) ran
  | setUpstreams ups =>
      cases taken
      exact setUpstreams_sound sound ups
  | markHealthy r draws =>
      have same := @same_set s r _ (markHealthy_active _)
      simp only [step] at taken
      split at taken
      · exact dispatch_sound (same.sound sound) taken
      · cases taken
        exact same.sound sound
  | touch r op =>
      cases taken
      exact (same_set (StateOp.apply_active _ op)).sound sound
  | enqueue sc | cancelWaiter i | commit cfg =>
      cases taken
      exact ⟨sound.pooled, sound.apart, sound.unused, sound.counted⟩

theorem step_tracks_iff {op : MeteredOp} (sound : s.Sound) (tracks : s.Tracks)
    (taken : s.step op = some s') : s'.Tracks ↔ s.Faithful op := by
  cases op with
  | releaseSlot i draws => exact releaseSlot_tracks_iff sound tracks taken
  | setUpstreams ups =>
      cases taken
      exact setUpstreams_tracks_iff sound tracks ups
  | pick sc draws =>
      obtain ⟨⟨got, _⟩, picked, rfl⟩ := Option.map_eq_some_iff.1 taken
      exact iff_of_true (pick_tracks sound tracks picked) trivial
  | markHealthy r draws =>
      have same := @same_set s r _ (markHealthy_active _)
      apply iff_of_true _ trivial
      simp only [step] at taken
      split at taken
      · exact dispatch_tracks (same.sound sound) (same.tracks tracks) taken
      · cases taken
        exact same.tracks tracks
  | touch r op =>
      cases taken
      exact iff_of_true ((same_set (StateOp.apply_active _ op)).tracks tracks) trivial
  | enqueue sc | cancelWaiter i | commit cfg =>
      cases taken
      exact iff_of_true ⟨tracks.pool, tracks.nonneg⟩ trivial

theorem start_sound (cfg : Config) (sel : Selector) : (start cfg sel).Sound :=
  ⟨List.forall_mem_nil _, List.nodup_nil, fun _ _ => rfl, fun _ => rfl⟩

/-- In a run of a balancer from its first upstreams on, the gauge is right after every operation
exactly when every operation is faithful in the state it finds. -/
theorem gauge_tracks_iff (cfg : Config) (sel : Selector) (trace : List (Metered × MeteredOp))
    (s : Metered) (exec : Exec step (start cfg sel) trace s) :
    (∀ entry ∈ trace, entry.1.Tracks) ∧ s.Tracks ↔ Guarded Faithful trace := by
  apply exec.throughout_iff
  · exact ⟨List.forall_mem_nil _, fun addr n shown => absurd shown (Option.some_ne_none n).symm⟩
  · intro _ s op s' before tracks taken
    have sound : s.Sound := before.stable (start_sound cfg sel) fun _ _ _ sound => step_sound sound
    exact step_tracks_iff sound tracks taken

/-- An upstream gets another ID while a session runs on it: its address loses its number, which is
below zero when the session ends. -/
theorem renamed_upstream_goes_negative : ∃ trace s,
    Exec step (start LoadBalancer.oneUpstream .priorityFailover) trace s ∧
    trace.map Prod.snd = [.setUpstreams [⟨"a", "10.0.0.1", 1080, "", "", 1, 0, 0⟩], .pick Sys.anyone [],
      .setUpstreams [⟨"b", "10.0.0.1", 1080, "", "", 1, 0, 0⟩], .releaseSlot 0 []] ∧
    s.lb.pool.upstreams.map (·.addr) = ["10.0.0.1:1080"] ∧
    s.lb.pool.activeAt s.lb.heap "10.0.0.1:1080" = 0 ∧
    s.upActive.value "10.0.0.1:1080" = some (-1) ∧ ¬s.Tracks := by
  obtain ⟨trace, s, exec, actions, wrong⟩ := exec_of_play step
    (start LoadBalancer.oneUpstream .priorityFailover)
    [.setUpstreams [⟨"a", "10.0.0.1", 1080, "", "", 1, 0, 0⟩], .pick Sys.anyone [],
      .setUpstreams [⟨"b", "10.0.0.1", 1080, "", "", 1, 0, 0⟩], .releaseSlot 0 []]
    (fun _ s => decide (s.lb.pool.upstreams.map (·.addr) = ["10.0.0.1:1080"] ∧
      s.lb.pool.activeAt s.lb.heap "10.0.0.1:1080" = 0 ∧
      s.upActive.value "10.0.0.1:1080" = some (-1))) (by decide +kernel)
  obtain ⟨addrs, none, shown⟩ := of_decide_eq_true wrong
  exact ⟨trace, s, exec, actions, addrs, none, shown,
    fun tracks => absurd (tracks.nonneg _ _ shown) (by decide)⟩

def settled (s : Metered) : MeteredOp → Bool
  | .releaseSlot i _ => s.slots[i]?.all fun u =>
      s.lb.pool.upstreams.any fun v => v.state == u.state && v.addr == u.addr
  | .setUpstreams ups =>
      (s.lb.pool.upstreams.all fun v => (s.arriving ups).any fun u => u.id == v.id) &&
        decide ((s.arriving ups).map (·.addr)).Nodup
  | _ => true

theorem faithful_of_settled {op : MeteredOp} (settled : s.settled op = true) : s.Faithful op := by
  cases op with
  | releaseSlot i draws =>
      intro u located
      simp only [Metered.settled, located, Option.all_some, List.any_eq_true, Bool.and_eq_true,
        beq_iff_eq] at settled
      exact .inl settled
  | setUpstreams ups =>
      simp only [Metered.settled, Bool.and_eq_true, List.all_eq_true, List.any_eq_true, beq_iff_eq,
        decide_eq_true_eq] at settled
      obtain ⟨kept, apart⟩ := settled
      refine fun _ => ⟨fun v member gone => ?_, ?_⟩
      · obtain ⟨u, arrives, same⟩ := kept v member
        exact absurd same (gone u arrives)
      · exact (List.pairwise_map.1 apart).imp fun differ same => absurd same differ
  | _ => trivial

/-- A session outlives a reload that keeps its upstream and adds another one. -/
theorem gauge_tracks_kept : ∃ trace s,
    Exec step (start LoadBalancer.oneUpstream .priorityFailover) trace s ∧
    trace.map Prod.snd = [.setUpstreams [⟨"a", "10.0.0.1", 1080, "", "", 1, 0, 0⟩], .pick Sys.anyone [],
      .setUpstreams [⟨"b", "10.0.0.2", 1080, "", "", 1, 0, 0⟩, ⟨"a", "10.0.0.1", 1080, "", "", 1, 0, 0⟩],
      .pick Sys.anyone [], .releaseSlot 0 []] ∧
    Guarded Faithful trace ∧ s.upActive.value "10.0.0.2:1080" = some 1 ∧ s.Tracks := by
  obtain ⟨trace, s, exec, actions, tested⟩ := exec_of_play step
    (start LoadBalancer.oneUpstream .priorityFailover)
    [.setUpstreams [⟨"a", "10.0.0.1", 1080, "", "", 1, 0, 0⟩], .pick Sys.anyone [],
      .setUpstreams [⟨"b", "10.0.0.2", 1080, "", "", 1, 0, 0⟩, ⟨"a", "10.0.0.1", 1080, "", "", 1, 0, 0⟩],
      .pick Sys.anyone [], .releaseSlot 0 []]
    (fun trace s => decide ((∀ entry ∈ trace, entry.1.settled entry.2 = true) ∧
      s.upActive.value "10.0.0.2:1080" = some 1)) (by decide +kernel)
  obtain ⟨settled, shown⟩ := of_decide_eq_true tested
  have guarded : Guarded Faithful trace := fun entry member => faithful_of_settled (settled entry member)
  exact ⟨trace, s, exec, actions, guarded, shown,
    ((gauge_tracks_iff LoadBalancer.oneUpstream .priorityFailover trace s exec).2 guarded).2⟩

end Metered

end S5lb
