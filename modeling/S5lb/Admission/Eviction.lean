import S5lb.Admission.Sessions
import S5lb.Lib.Threads

namespace S5lb

open Transition

inductive ClientPc
  | acquiring (pc : AcquirePc)
  | running (s : SessionRef)
  | untracked
  | takenOut
  | ended
  deriving DecidableEq

structure Client where
  pc : ClientPc
  closed : Option SessionRef
  deriving DecidableEq

def Client.selected (c : Client) : Option SessionRef :=
  match c.pc with
  | .acquiring (.closing victim) => some victim
  | _ => c.closed

def Client.Fits (c : Client) : Prop :=
  match c.pc with
  | .acquiring .trying | .acquiring .picking | .acquiring (.closing _) => c.closed = none
  | _ => True

theorem Client.Fits.selected {c : Client} (fits : c.Fits) {victim : SessionRef}
    (closed : c.closed = some victim) : c.selected = some victim := by
  unfold Client.selected
  split
  · rename_i pc
    rw [Client.Fits, pc] at fits
    cases fits.symm.trans closed
  · exact closed

structure EvictSys where
  gate : Gate
  tracker : Tracker
  clients : List Client

inductive EvictAction
  | accept
  | acquire (i : Nat) (canceled : Bool) (ready : Ready)
  | track (i : Nat) (remote : Option String) (now : Time)
  | update (i : Nat) (upID : String) (prio : Int)
  | untrack (i : Nat)
  | release (i : Nat)
  | countOut (i : Nat)

def AcquirePc.closes : AcquirePc → Option SessionRef → Option SessionRef
  | .closing victim, _ => some victim
  | _, closed => closed

namespace EvictSys

def init (cfg : Config) : EvictSys := ⟨admissionNew cfg, Tracker.newTracker Tracker.noSessions, []⟩

def trackNew (t : Tracker) (remote : Option String) (now : Time) : SessionRef × Tracker :=
  let (s, sessions) := t.sessions.alloc ⟨remote, "", 0, now, none, none, false⟩
  (s, { t with sessions }.add s)

def step (s : EvictSys) : EvictAction → Option EvictSys
  | .accept => some { s with clients := s.clients ++ [⟨.acquiring .trying, none⟩] }
  | .acquire i canceled ready =>
      match s.clients[i]? with
      | some ⟨.acquiring pc, closed⟩ =>
          (s.gate.acquireStep s.tracker canceled ready pc).map fun (gate, pc') =>
            { s with gate, clients := s.clients.set i ⟨.acquiring pc', pc.closes closed⟩ }
      | _ => none
  | .track i remote now =>
      match s.clients[i]? with
      | some ⟨.acquiring (.returned dec), closed⟩ =>
          if dec.outcome ≠ .rejected then
            let (session, tracker) := trackNew s.tracker remote now
            some { s with tracker, clients := s.clients.set i ⟨.running session, closed⟩ }
          else none
      | _ => none
  | .update i upID prio =>
      match s.clients[i]? with
      | some ⟨.running session, _⟩ =>
          some { s with tracker := s.tracker.update session upID prio }
      | _ => none
  | .untrack i =>
      match s.clients[i]? with
      | some ⟨.running session, closed⟩ =>
          some { s with
            tracker := s.tracker.release session
            clients := s.clients.set i ⟨.untracked, closed⟩ }
      | _ => none
  | .release i =>
      match s.clients[i]? with
      | some ⟨.untracked, closed⟩ =>
          some { s with
            gate := s.gate.takeOut.1
            clients := s.clients.set i ⟨if s.gate.takeOut.2 then .takenOut else .ended, closed⟩ }
      | _ => none
  | .countOut i =>
      match s.clients[i]? with
      | some ⟨.takenOut, closed⟩ =>
          some { s with
            gate := s.gate.countOut
            clients := s.clients.set i ⟨.ended, closed⟩ }
      | _ => none

def VictimsGone (s : EvictSys) : Prop :=
  ∀ c ∈ s.clients, ∀ victim ∈ c.selected, (s.tracker.sessions.get victim).released = true

instance (s : EvictSys) : Decidable s.VictimsGone :=
  inferInstanceAs (Decidable (∀ c ∈ s.clients, ∀ victim ∈ c.selected, _ = _))

def picking (s : EvictSys) : EvictAction → Bool
  | .acquire i _ _ => s.clients[i]?.any fun c => c.pc = .acquiring .picking
  | _ => false

/-- Victims are selected only when every earlier one has left the tracker. -/
def Guard (s : EvictSys) (a : EvictAction) : Prop := s.picking a = true → s.VictimsGone

instance (s : EvictSys) (a : EvictAction) : Decidable (s.Guard a) :=
  inferInstanceAs (Decidable (_ → _))

structure Evicting (s : EvictSys) : Prop where
  tracked : ∃ order, s.tracker.Represents (List.range s.tracker.sessions.next) order
  sole : Threads.Sole s.clients Client.selected
  fits : ∀ c ∈ s.clients, c.Fits
  running : ∀ c ∈ s.clients, ∀ session, c.pc = .running session → session < s.tracker.sessions.next

theorem evicting_init (cfg : Config) : Evicting (init cfg) where
  tracked := ⟨[], Tracker.represents_newTracker _⟩
  sole := by simp [Threads.Sole, init]
  fits := by simp [init]
  running := by simp [init]

theorem represents_trackNew {t : Tracker} {order : List SessionRef}
    (represents : t.Represents (List.range t.sessions.next) order) (remote : Option String)
    (now : Time) :
    (trackNew t remote now).2.sessions.next = t.sessions.next + 1 ∧
      (trackNew t remote now).2.Represents (List.range (t.sessions.next + 1))
        (order ++ [t.sessions.next]) := by
  have allocated := represents.alloc (fun s member => List.mem_range.1 member)
    ⟨remote, "", 0, now, none, none, false⟩
  have fresh : t.sessions.next ∉ order := fun member =>
    Nat.lt_irrefl _ (represents.allocated _ member)
  refine ⟨Tracker.next_add _ _, (allocated.add (Nat.lt_succ_self _) fresh).weaken ?_⟩
  intro s member
  rw [List.range_succ] at member
  rcases List.mem_append.1 member with old | new
  · exact List.mem_cons_of_mem _ old
  · rw [List.mem_singleton.1 new]
    exact List.mem_cons_self

theorem selected_acquires {g g' : Gate} {tracker : Tracker} {pc pc' : AcquirePc}
    (acquires : g.Acquires tracker pc g' pc') (closed : Option SessionRef) :
    Client.selected ⟨.acquiring pc', pc.closes closed⟩ = Client.selected ⟨.acquiring pc, closed⟩ ∨
      pc = .picking ∧ ∃ victim, g.pickVictim tracker = some victim ∧
        Client.selected ⟨.acquiring pc', pc.closes closed⟩ = some victim := by
  cases acquires with
  | select picked => exact .inr ⟨rfl, _, picked, rfl⟩
  | _ => exact .inl rfl

theorem fits_acquires {g g' : Gate} {tracker : Tracker} {pc pc' : AcquirePc}
    (acquires : g.Acquires tracker pc g' pc') {closed : Option SessionRef}
    (fits : Client.Fits ⟨.acquiring pc, closed⟩) :
    Client.Fits ⟨.acquiring pc', pc.closes closed⟩ := by
  cases acquires with
  | evict | select => exact fits
  | _ => trivial

namespace Evicting

variable {s : EvictSys} {i : Nat} {c : Client}

theorem move (evicting : s.Evicting) (here : s.clients[i]? = some c) (c' : Client)
    (same : c'.selected = c.selected) (fits : c'.Fits) {gate : Gate} {tracker : Tracker}
    {order : List SessionRef}
    (represents : tracker.Represents (List.range tracker.sessions.next) order)
    (grows : s.tracker.sessions.next ≤ tracker.sessions.next)
    (runs : ∀ session, c'.pc = .running session → session < tracker.sessions.next) :
    Evicting ⟨gate, tracker, s.clients.set i c'⟩ where
  tracked := ⟨order, represents⟩
  sole := evicting.sole.set_of_eq here same
  fits := Threads.forall_set evicting.fits i fits
  running := Threads.forall_set
    (fun d member session pc => (evicting.running d member session pc).trans_le grows) i runs

theorem acquire (evicting : s.Evicting) {pc pc' : AcquirePc} {closed : Option SessionRef}
    {gate : Gate} {canceled : Bool} {ready : Ready}
    (here : s.clients[i]? = some ⟨.acquiring pc, closed⟩)
    (gone : pc = .picking → s.VictimsGone)
    (stepped : s.gate.acquireStep s.tracker canceled ready pc = some (gate, pc')) :
    Evicting ⟨gate, s.tracker, s.clients.set i ⟨.acquiring pc', pc.closes closed⟩⟩ := by
  obtain ⟨order, represents⟩ := evicting.tracked
  have acquires := Gate.acquires_of_acquireStep stepped
  have fits := fits_acquires acquires (evicting.fits _ (List.mem_of_getElem? here))
  rcases selected_acquires acquires closed with same | ⟨picks, victim, picked, selected⟩
  · exact evicting.move here _ same fits represents (Nat.le_refl _)
      (fun session running => by cases running)
  · have live := represents.live victim (represents.pickVictim_mem picked)
    refine ⟨evicting.tracked, evicting.sole.set here ?_, ?_, ?_⟩
    · intro k new j u other located old
      cases selected.symm.trans new
      rw [gone picks u (List.mem_of_getElem? located) victim old] at live
      cases live
    · exact Threads.forall_set evicting.fits i fits
    · exact Threads.forall_set evicting.running i fun session running => by cases running

end Evicting

theorem evicting_step {s s' : EvictSys} {a : EvictAction} (evicting : s.Evicting) (guard : s.Guard a)
    (taken : s.step a = some s') : s'.Evicting := by
  obtain ⟨order, represents⟩ := evicting.tracked
  cases a with
  | accept =>
      cases taken
      refine ⟨evicting.tracked, evicting.sole.snoc rfl, ?_, ?_⟩
      · exact List.forall_mem_append.2 ⟨evicting.fits, List.forall_mem_singleton.2 rfl⟩
      · refine List.forall_mem_append.2 ⟨evicting.running, List.forall_mem_singleton.2 ?_⟩
        exact fun session running => by cases running
  | acquire i canceled ready =>
      simp only [step] at taken
      split at taken
      · rename_i pc closed here
        obtain ⟨⟨gate, pc'⟩, stepped, rfl⟩ := Option.map_eq_some_iff.1 taken
        refine evicting.acquire here (fun picks => guard ?_) stepped
        subst picks
        simp [picking, here]
      · cases taken
  | track i remote now =>
      simp only [step] at taken
      split at taken
      · rename_i here
        obtain ⟨_, ⟨⟩⟩ := Option.ite_none_right_eq_some.1 taken
        obtain ⟨next, added⟩ := represents_trackNew represents remote now
        rw [← next] at added
        refine evicting.move here ⟨.running _, _⟩ rfl trivial added (by omega) fun session running => ?_
        cases running
        exact next ▸ Nat.lt_succ_self _
      · cases taken
  | update i upID prio =>
      simp only [step] at taken
      split at taken
      · cases taken
        exact ⟨⟨order, represents.update _ upID prio⟩, evicting.sole, evicting.fits, evicting.running⟩
      · cases taken
  | untrack i =>
      simp only [step] at taken
      split at taken
      · rename_i session closed here
        cases taken
        have made := evicting.running _ (List.mem_of_getElem? here) session rfl
        have released := represents.release (List.mem_range.2 made)
        rw [← Tracker.next_release s.tracker session] at released
        refine evicting.move here ⟨.untracked, _⟩ rfl trivial released
          (Nat.le_of_eq (Tracker.next_release _ _).symm) ?_
        exact fun session running => by cases running
      · cases taken
  | release i =>
      simp only [step] at taken
      split at taken
      · rename_i here
        cases taken
        refine evicting.move here _ ?_ ?_ represents (Nat.le_refl _) ?_
        · split <;> rfl
        · split <;> trivial
        · intro session
          split <;> exact fun running => by cases running
      · cases taken
  | countOut i =>
      simp only [step] at taken
      split at taken
      · rename_i here
        cases taken
        refine evicting.move here ⟨.ended, _⟩ rfl trivial represents (Nat.le_refl _) ?_
        exact fun session running => by cases running
      · cases taken

/-- While every victim leaves the tracker before the next one is selected, no session is closed by two
calls. -/
theorem victims_distinct (cfg : Config) (trace : List (EvictSys × EvictAction)) (s : EvictSys)
    (exec : Exec step (init cfg) trace s) (guarded : Guarded Guard trace) :
    ∀ (i j : Nat) (c d : Client) (victim : SessionRef), s.clients[i]? = some c →
      s.clients[j]? = some d → c.closed = some victim → d.closed = some victim → i = j := by
  have evicting : s.Evicting := exec.invariant (P := fun _ s => s.Evicting) (evicting_init cfg)
    (fun _ _ _ _ _ evicting guard taken => evicting_step evicting guard taken) guarded
  intro i j c d victim atI atJ closedI closedJ
  exact evicting.sole i j c d victim atI atJ
    ((evicting.fits c (List.mem_of_getElem? atI)).selected closedI)
    ((evicting.fits d (List.mem_of_getElem? atJ)).selected closedJ)

def oneSlot (strategy : BackpressureStrategy) : Config :=
  { defaults with maxClients := 1, backpressure := strategy }

def crowd : List EvictAction :=
  [.accept, .acquire 0 false .slot, .acquire 0 false .slot, .track 0 none 0,
    .accept, .accept, .acquire 1 false .slot, .acquire 1 false .slot, .acquire 1 false .slot,
    .acquire 2 false .slot, .acquire 2 false .slot, .acquire 2 false .slot]

theorem victim_closed_twice :
    (∃ trace s, Exec step (init (oneSlot .dropOldest)) trace s ∧
      s.clients.map Client.closed = [none, some 0, some 0]) ∧
    (∃ trace s, Exec step (init (oneSlot .dropLowestPriority)) trace s ∧
      s.clients.map Client.closed = [none, some 0, some 0]) := by
  constructor
  · obtain ⟨trace, s, exec, _, closed⟩ := exec_of_play step (init (oneSlot .dropOldest)) crowd
      (fun _ s => s.clients.map Client.closed = [none, some 0, some 0]) (by decide +kernel)
    exact ⟨trace, s, exec, of_decide_eq_true closed⟩
  · obtain ⟨trace, s, exec, _, closed⟩ := exec_of_play step (init (oneSlot .dropLowestPriority)) crowd
      (fun _ s => s.clients.map Client.closed = [none, some 0, some 0]) (by decide +kernel)
    exact ⟨trace, s, exec, of_decide_eq_true closed⟩

def inTurn : List EvictAction :=
  [.accept, .acquire 0 false .slot, .acquire 0 false .slot, .track 0 none 0,
    .accept, .acquire 1 false .slot, .acquire 1 false .slot, .acquire 1 false .slot,
    .untrack 0, .release 0, .countOut 0, .acquire 1 false .slot, .acquire 1 false .slot,
    .track 1 none 1, .accept, .acquire 2 false .slot, .acquire 2 false .slot, .acquire 2 false .slot]

theorem victims_distinct_in_turn :
    ∃ trace s, Exec step (init (oneSlot .dropOldest)) trace s ∧ Guarded Guard trace ∧
      s.clients.map Client.closed = [none, some 0, some 1] ∧
      ∀ (i j : Nat) (c d : Client) (victim : SessionRef), s.clients[i]? = some c →
        s.clients[j]? = some d → c.closed = some victim → d.closed = some victim → i = j := by
  obtain ⟨trace, s, exec, _, tested⟩ := exec_of_play step (init (oneSlot .dropOldest)) inTurn
    (fun trace s => trace.all (fun entry => decide (entry.1.Guard entry.2)) &&
      decide (s.clients.map Client.closed = [none, some 0, some 1])) (by decide +kernel)
  obtain ⟨guarded, closed⟩ := Bool.and_eq_true_iff.1 tested
  have guarded : Guarded Guard trace := fun entry member =>
    of_decide_eq_true (List.all_eq_true.1 guarded entry member)
  exact ⟨trace, s, exec, guarded, of_decide_eq_true closed,
    victims_distinct (oneSlot .dropOldest) trace s exec guarded⟩

end EvictSys

end S5lb
