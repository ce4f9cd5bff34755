import S5lb.Balancer.UdpRelay
import S5lb.Socks5.Pipe

/-! The relay phase of `handleUDPAssociate`: the two loops, the watchdog on the control connection, and
the goroutine that waits for the end and tears the association down. -/

namespace S5lb

open Go Socks5 Transition

structure Deadlines where
  read : Option Time
  write : Option Time
  deriving DecidableEq

def expired (deadline : Option Time) (clock : Time) : Bool := deadline.any (· ≤ clock)

inductive LoopStage
  | check
  | arm
  | read
  deriving DecidableEq

inductive TeardownPc
  | waitDone
  | setClient
  | setUpstream
  | setControl
  | waitGroup
  | ended
  deriving DecidableEq

structure Assoc where
  relay : Relay
  clock : Time
  done : Bool
  stage : Direction → LoopStage
  socket : Direction → Deadlines
  watching : Bool
  controlExpired : Bool
  main : TeardownPc

inductive LoopEvent
  | check
  | arm
  | timeout
  | readFails
  | packet (p : Packet)
  | work
  | write (result : WriteResult)

inductive AssocAction
  | loop (d : Direction) (e : LoopEvent)
  | controlEnds
  | controlTimeout
  | cancelParent
  | main
  | tick (now : Time)

namespace Assoc

def start (clock : Time) : Assoc where
  relay := .init
  clock
  done := false
  stage _ := .check
  socket _ := ⟨none, none⟩
  watching := true
  controlExpired := false
  main := .waitDone

def lane (s : Assoc) : Direction → Lane
  | .up => s.relay.client
  | .down => s.relay.upstream

def laneAction : Direction → LaneEvent → RelayAction
  | .up, e => .client e
  | .down, e => .upstream e

section Step

variable (allowedClientIP : Option Bytes) (upUDPAddr : UDPAddr) (idle : Duration)

def advance (s : Assoc) (d : Direction) (e : LaneEvent) : Option Assoc :=
  (s.relay.step allowedClientIP upUDPAddr (laneAction d e)).map fun relay =>
    let s := { s with relay, stage := Function.update s.stage d .check }
    { s with done := s.done || (s.lane d).pc == .exited }

def loopStep (s : Assoc) (d : Direction) : LoopEvent → Option Assoc
  | .check =>
      if (s.lane d).pc = .top ∧ s.stage d = .check then
        if s.done then s.advance allowedClientIP upUDPAddr d .stop
        else some { s with stage := Function.update s.stage d .arm }
      else none
  | .arm =>
      if (s.lane d).pc = .top ∧ s.stage d = .arm then
        some { s with
          socket := Function.update s.socket d { s.socket d with read := some (s.clock + idle) }
          stage := Function.update s.stage d .read }
      else none
  | .timeout =>
      if (s.lane d).pc = .top ∧ s.stage d = .read ∧ expired (s.socket d).read s.clock then
        s.advance allowedClientIP upUDPAddr d .stop
      else none
  | .readFails =>
      if (s.lane d).pc = .top ∧ s.stage d = .read then s.advance allowedClientIP upUDPAddr d .stop
      else none
  | .packet p =>
      if (s.lane d).pc = .top ∧ s.stage d = .read then
        s.advance allowedClientIP upUDPAddr d (.receive p)
      else none
  | .work => s.advance allowedClientIP upUDPAddr d .go
  -- a loop writes to the socket that the other one reads
  | .write result =>
      if (result = .sent → expired (s.socket d.other).write s.clock = false) ∧
          (result = .closed → s.main = .ended) then
        s.advance allowedClientIP upUDPAddr d (.write result)
      else none

def mainStep (s : Assoc) : Option Assoc :=
  match s.main with
  | .waitDone => if s.done then some { s with main := .setClient } else none
  | .setClient =>
      some { s with
        socket := Function.update s.socket .up ⟨some s.clock, some s.clock⟩, main := .setUpstream }
  | .setUpstream =>
      some { s with
        socket := Function.update s.socket .down ⟨some s.clock, some s.clock⟩, main := .setControl }
  | .setControl => some { s with controlExpired := true, main := .waitGroup }
  | .waitGroup =>
      if (s.lane .up).pc = .exited ∧ (s.lane .down).pc = .exited ∧ s.watching = false then
        some { s with main := .ended }
      else none
  | .ended => none

def step (s : Assoc) : AssocAction → Option Assoc
  | .loop d e => s.loopStep allowedClientIP upUDPAddr idle d e
  | .controlEnds => if s.watching then some { s with watching := false, done := true } else none
  | .controlTimeout =>
      if s.watching ∧ s.controlExpired then some { s with watching := false, done := true } else none
  | .cancelParent => if s.done then none else some { s with done := true }
  | .main => s.mainStep
  | .tick now => if s.clock ≤ now then some { s with clock := now } else none

end Step

end Assoc

@[simp] def RelayPc.steps : RelayPc → Nat
  | .received _ => 8
  | .allowed _ => 7
  | .unpinned _ => 6
  | .accepted _ => 5
  | .decoded _ _ => 4
  | .forwarding _ _ _ => 3
  | .written _ _ _ => 2
  | .counted _ => 1
  | .top | .exited => 0

def Socks5.Direction.Has : Direction → RelayPc → Prop
  | .up, .decoded _ _ | .down, .allowed _ | .down, .unpinned _ => False
  | _, _ => True

namespace Lane

inductive Turns (d : Direction) (lane : Lane) : LaneEvent → Lane → Prop
  | receives {p : Packet} (here : lane.pc = .top) :
      Turns d lane (.receive p) { lane with pc := .received p, received := lane.received ++ [p] }
  | stops (here : lane.pc = .top) : Turns d lane .stop { lane with pc := .exited }
  | works {e : LaneEvent} {lane' : Lane} (lower : lane'.pc.steps < lane.pc.steps)
      (awake : lane'.pc ≠ .exited) (received : lane'.received = lane.received)
      (log : ∀ entry ∈ lane'.log, entry ∈ lane.log ∨ entry.2 ≠ .closed) (has : d.Has lane'.pc) :
      Turns d lane e lane'
  | closes {p : Packet} {dg : UDPDatagram} {dst : UDPAddr} (here : lane.pc = .forwarding p dg dst) :
      Turns d lane (.write .closed) { lane with pc := .exited, log := lane.log ++ [(p, .closed)] }

variable {d : Direction} {lane lane' : Lane} {e : LaneEvent} {reason : Option DropReason}

theorem turns_goto {pc : RelayPc} (lower : pc.steps < lane.pc.steps) (awake : pc ≠ .exited)
    (has : d.Has pc) : lane.Turns d e { lane with pc } :=
  .works lower awake rfl (fun _ => .inl) has

theorem turns_drop {p : Packet} {reason : DropReason} (busy : 0 < lane.pc.steps) :
    lane.Turns d e (lane.drop p reason).1 := by
  refine .works busy nofun rfl (fun entry member => ?_) (by cases d <;> trivial)
  rcases List.mem_append.1 member with earlier | last
  · exact .inl earlier
  · cases List.mem_singleton.1 last
    exact .inr nofun

theorem turns_of_io {writeErr : DropReason} (stepped : lane.io writeErr e = some (lane', reason)) :
    lane.Turns d e lane' := by
  unfold io at stepped
  split at stepped
  · cases stepped
    exact .receives ‹_›
  · cases stepped
    exact .stops ‹_›
  · rename_i here
    cases stepped
    exact .works (by simp [here]) nofun rfl (fun _ => .inl) (by cases d <;> trivial)
  · cases stepped
    exact .closes ‹_›
  · rename_i here
    cases stepped
    exact turns_drop (by simp [here])
  · rename_i here
    cases stepped
    refine .works (by simp [here]) nofun rfl (fun entry member => ?_) (by cases d <;> trivial)
    rcases List.mem_append.1 member with earlier | last
    · exact .inl earlier
    · cases List.mem_singleton.1 last
      exact .inr nofun
  · rename_i here
    cases stepped
    exact .works (by simp [here]) nofun rfl (fun _ => .inl) (by cases d <;> trivial)
  · cases stepped

theorem turns_of_client {allowedClientIP : Option Bytes} {upUDPAddr : UDPAddr}
    {pin pin' : Option UDPAddr}
    (stepped : udpClientToUpstream allowedClientIP upUDPAddr pin lane e = some (pin', lane', reason)) :
    lane.Turns .up e lane' := by
  unfold udpClientToUpstream at stepped
  split at stepped
  · rename_i here
    split at stepped <;> cases stepped
    · exact turns_drop (by simp [here])
    · exact turns_goto (by simp [here]) nofun trivial
  · rename_i here
    split at stepped
    · cases stepped
      exact turns_goto (by simp [here]) nofun trivial
    · split at stepped <;> cases stepped
      · exact turns_goto (by simp [here]) nofun trivial
      · exact turns_drop (by simp [here])
  · rename_i here
    cases stepped
    exact turns_goto (by simp [here]) nofun trivial
  · rename_i here
    split at stepped
    · cases stepped
    · cases stepped
      exact turns_drop (by simp [here])
    · cases stepped
      exact turns_goto (by simp [here]) nofun trivial
  · obtain ⟨⟨lane'', reason'⟩, moved, same⟩ := Option.map_eq_some_iff.1 stepped
    cases same
    exact turns_of_io moved

theorem turns_of_upstream {upUDPAddr : UDPAddr} {pin : Option UDPAddr}
    (stepped : udpUpstreamToClient upUDPAddr pin lane e = some (lane', reason)) :
    lane.Turns .down e lane' := by
  unfold udpUpstreamToClient at stepped
  split at stepped
  · rename_i here
    split at stepped <;> cases stepped
    · exact turns_goto (by simp [here]) nofun trivial
    · exact turns_drop (by simp [here])
  · rename_i here
    split at stepped
    · cases stepped
    · cases stepped
      exact turns_drop (by simp [here])
    · cases stepped
      exact turns_goto (by simp [here]) nofun trivial
  · rename_i here
    split at stepped <;> cases stepped
    · exact turns_drop (by simp [here])
    · exact turns_goto (by simp [here]) nofun trivial
  · exact turns_of_io stepped

theorem Turns.awake (turns : lane.Turns d e lane') : lane.pc ≠ .exited := by
  cases turns with
  | receives here | stops here | closes here => simp [here]
  | works lower =>
      intro gone
      simp [gone] at lower

theorem Turns.has (turns : lane.Turns d e lane') : d.Has lane'.pc := by
  cases turns with
  | receives | stops | closes => cases d <;> trivial
  | works _ _ _ _ has => exact has

theorem Turns.kept (turns : lane.Turns d e lane') (open_ : e ≠ .write .closed) :
    ∀ entry ∈ lane'.log, entry ∈ lane.log ∨ entry.2 ≠ .closed := by
  cases turns with
  | receives | stops => exact fun _ => .inl
  | works _ _ _ log => exact log
  | closes => exact absurd rfl open_

def rank (lane : Lane) (stage : LoopStage) : Nat :=
  match lane.pc, stage with
  | .exited, _ => 0
  | .top, .arm => 11
  | .top, .read => 10
  | pc, _ => pc.steps + 1

def budget (lane : Lane) (stage : LoopStage) : Nat :=
  lane.received.length + if lane.pc = .top ∧ stage ≠ .check then 1 else 0

theorem rank_check (awake : lane.pc ≠ .exited) : lane.rank .check = lane.pc.steps + 1 := by
  unfold rank
  split
  · contradiction
  all_goals first | contradiction | rfl

theorem rank_busy {stage : LoopStage} (busy : 0 < lane.pc.steps) :
    lane.rank stage = lane.pc.steps + 1 := by
  unfold rank
  split <;> first | rfl | simp_all

theorem Turns.rank_lt {stage : LoopStage} (turns : lane.Turns d e lane')
    (reading : ∀ p, e = .receive p → stage = .read) : lane'.rank .check < lane.rank stage := by
  cases turns with
  | @receives p here =>
      rw [reading p rfl]
      simp [rank, here]
  | stops here => cases stage <;> simp [rank, here]
  | works lower awake =>
      rw [rank_check awake, rank_busy (by omega)]
      omega
  | closes here => simp [rank, here]

theorem Turns.budget_le {stage : LoopStage} (turns : lane.Turns d e lane')
    (reading : ∀ p, e = .receive p → stage = .read) : lane'.budget .check ≤ lane.budget stage := by
  cases turns with
  | @receives p here =>
      rw [reading p rfl]
      simp [budget, here]
  | stops | closes => simp [budget]
  | works _ _ received => simp [budget, received]

end Lane

def Packet.payload (p : Packet) : Nat :=
  match (decodeUDPDatagram p.bytes).run with
  | some (.ok dg) => dg.data.length
  | _ => 0

def RelayPc.Decoded : RelayPc → Prop
  | .decoded p dg | .forwarding p dg _ | .written p dg _ =>
      (decodeUDPDatagram p.bytes).run = some (.ok dg)
  | _ => True

def RelayPc.uncounted : RelayPc → Nat
  | .counted dg => dg.data.length
  | _ => 0

def weight (entry : Packet × Fate) : Nat :=
  if entry.2.destination.isSome then entry.1.payload else 0

namespace Lane

structure Weighed (lane : Lane) : Prop where
  decoded : lane.pc.Decoded
  bytes : lane.bytes + lane.pc.uncounted = (lane.log.map weight).sum

theorem weighed_fresh : fresh.Weighed := ⟨trivial, rfl⟩

variable {lane lane' : Lane} {e : LaneEvent} {reason : Option DropReason}

theorem Weighed.goto (weighed : lane.Weighed) {pc : RelayPc} (decoded : pc.Decoded)
    (before : lane.pc.uncounted = 0) (after : pc.uncounted = 0) : Weighed { lane with pc } :=
  ⟨decoded, by rw [after, ← weighed.bytes, before]⟩

theorem Weighed.settle (weighed : lane.Weighed) {p : Packet} {fate : Fate} {pc : RelayPc}
    (kept : fate.destination = none) (decoded : pc.Decoded) (before : lane.pc.uncounted = 0)
    (after : pc.uncounted = 0) : Weighed { lane with pc, log := lane.log ++ [(p, fate)] } := by
  refine ⟨decoded, ?_⟩
  simp [weight, kept, after, ← weighed.bytes, before]

theorem Weighed.io (weighed : lane.Weighed) {writeErr : DropReason}
    (stepped : lane.io writeErr e = some (lane', reason)) : lane'.Weighed := by
  have decoded := weighed.decoded
  have bytes := weighed.bytes
  unfold Lane.io at stepped
  split at stepped
  · rename_i here
    cases stepped
    rw [here] at bytes
    exact ⟨trivial, bytes⟩
  · rename_i here
    cases stepped
    exact weighed.goto trivial (by rw [here]; rfl) rfl
  · rename_i here
    cases stepped
    rw [here] at decoded bytes
    exact ⟨decoded, bytes⟩
  · rename_i here
    cases stepped
    exact weighed.settle rfl trivial (by rw [here]; rfl) rfl
  · rename_i here
    cases stepped
    exact weighed.settle rfl trivial (by rw [here]; rfl) rfl
  · rename_i here
    cases stepped
    rw [here] at decoded bytes
    refine ⟨trivial, ?_⟩
    rw [RelayPc.Decoded] at decoded
    simp [RelayPc.uncounted, weight, Fate.destination, Packet.payload, decoded, ← bytes]
  · rename_i here
    cases stepped
    rw [here] at bytes
    exact ⟨trivial, bytes⟩
  · cases stepped

theorem Weighed.client (weighed : lane.Weighed) {allowedClientIP : Option Bytes}
    {upUDPAddr : UDPAddr} {pin pin' : Option UDPAddr}
    (stepped : udpClientToUpstream allowedClientIP upUDPAddr pin lane e = some (pin', lane', reason)) :
    lane'.Weighed := by
  unfold udpClientToUpstream at stepped
  split at stepped
  · rename_i here
    have before : lane.pc.uncounted = 0 := by rw [here]; rfl
    split at stepped <;> cases stepped
    · exact weighed.settle rfl trivial before rfl
    · exact weighed.goto trivial before rfl
  · rename_i here
    have before : lane.pc.uncounted = 0 := by rw [here]; rfl
    split at stepped
    · cases stepped
      exact weighed.goto trivial before rfl
    · split at stepped <;> cases stepped
      · exact weighed.goto trivial before rfl
      · exact weighed.settle rfl trivial before rfl
  · rename_i here
    cases stepped
    exact weighed.goto trivial (by rw [here]; rfl) rfl
  · rename_i here
    have before : lane.pc.uncounted = 0 := by rw [here]; rfl
    split at stepped
    · cases stepped
    · cases stepped
      exact weighed.settle rfl trivial before rfl
    · rename_i decoded
      cases stepped
      exact weighed.goto decoded before rfl
  · obtain ⟨⟨lane'', reason'⟩, moved, same⟩ := Option.map_eq_some_iff.1 stepped
    cases same
    exact weighed.io moved

theorem Weighed.upstream (weighed : lane.Weighed) {upUDPAddr : UDPAddr} {pin : Option UDPAddr}
    (stepped : udpUpstreamToClient upUDPAddr pin lane e = some (lane', reason)) : lane'.Weighed := by
  have held := weighed.decoded
  unfold udpUpstreamToClient at stepped
  split at stepped
  · rename_i here
    have before : lane.pc.uncounted = 0 := by rw [here]; rfl
    split at stepped <;> cases stepped
    · exact weighed.goto trivial before rfl
    · exact weighed.settle rfl trivial before rfl
  · rename_i here
    have before : lane.pc.uncounted = 0 := by rw [here]; rfl
    split at stepped
    · cases stepped
    · cases stepped
      exact weighed.settle rfl trivial before rfl
    · rename_i decoded
      cases stepped
      exact weighed.goto decoded before rfl
  · rename_i here
    have before : lane.pc.uncounted = 0 := by rw [here]; rfl
    rw [here] at held
    split at stepped <;> cases stepped
    · exact weighed.settle rfl trivial before rfl
    · exact weighed.goto held before rfl
  · exact weighed.io stepped

end Lane

namespace Assoc

variable {allowedClientIP : Option Bytes} {upUDPAddr : UDPAddr} {idle : Duration} {s s' : Assoc}
  {d : Direction}

structure Turned (s : Assoc) (d : Direction) (e : LaneEvent) (s' : Assoc) : Prop where
  lane : (s.lane d).Turns d e (s'.lane d)
  other : s'.lane d.other = s.lane d.other
  stage : s'.stage = Function.update s.stage d .check
  done : s'.done = (s.done || (s'.lane d).pc == .exited)
  clock : s'.clock = s.clock
  socket : s'.socket = s.socket
  watching : s'.watching = s.watching
  controlExpired : s'.controlExpired = s.controlExpired
  main : s'.main = s.main

theorem turned_of_advance {e : LaneEvent}
    (advanced : s.advance allowedClientIP upUDPAddr d e = some s') : s.Turned d e s' := by
  obtain ⟨relay, stepped, rfl⟩ := Option.map_eq_some_iff.1 advanced
  cases d with
  | up =>
      obtain ⟨⟨pin, client, reason⟩, moved, rfl⟩ := Option.map_eq_some_iff.1 stepped
      exact ⟨Lane.turns_of_client moved, rfl, rfl, rfl, rfl, rfl, rfl, rfl, rfl⟩
  | down =>
      obtain ⟨⟨upstream, reason⟩, moved, rfl⟩ := Option.map_eq_some_iff.1 stepped
      exact ⟨Lane.turns_of_upstream moved, rfl, rfl, rfl, rfl, rfl, rfl, rfl, rfl⟩

inductive Prompts (s : Assoc) (d : Direction) : LoopEvent → LaneEvent → Prop
  | check (stage : s.stage d = .check) (done : s.done = true) : Prompts s d .check .stop
  | timeout (stage : s.stage d = .read) : Prompts s d .timeout .stop
  | readFails (stage : s.stage d = .read) : Prompts s d .readFails .stop
  | packet (p : Packet) (stage : s.stage d = .read) : Prompts s d (.packet p) (.receive p)
  | work : Prompts s d .work .go
  | write (result : WriteResult) (closed : result = .closed → s.main = .ended) :
      Prompts s d (.write result) (.write result)

inductive Moves (idle : Duration) (s : Assoc) : AssocAction → Assoc → Prop
  | turns {d : Direction} {e : LoopEvent} {laneEvent : LaneEvent} {s' : Assoc}
      (prompts : s.Prompts d e laneEvent) (turned : s.Turned d laneEvent s') :
      Moves idle s (.loop d e) s'
  | goesOn {d : Direction} (top : (s.lane d).pc = .top) (stage : s.stage d = .check)
      (running : s.done = false) :
      Moves idle s (.loop d .check) { s with stage := Function.update s.stage d .arm }
  | arms {d : Direction} (top : (s.lane d).pc = .top) (stage : s.stage d = .arm) :
      Moves idle s (.loop d .arm) { s with
        socket := Function.update s.socket d { s.socket d with read := some (s.clock + idle) }
        stage := Function.update s.stage d .read }
  | watched {a : AssocAction} (watching : s.watching = true) :
      Moves idle s a { s with watching := false, done := true }
  | cancelled (running : s.done = false) : Moves idle s .cancelParent { s with done := true }
  | wakes (here : s.main = .waitDone) (done : s.done = true) :
      Moves idle s .main { s with main := .setClient }
  | expires {d : Direction} {next : TeardownPc} (here : s.main = .setClient ∨ s.main = .setUpstream)
      (there : next = .setUpstream ∨ next = .setControl)
      (later : s.main = .setUpstream → next = .setControl) :
      Moves idle s .main { s with
        socket := Function.update s.socket d ⟨some s.clock, some s.clock⟩, main := next }
  | expiresControl (here : s.main = .setControl) :
      Moves idle s .main { s with controlExpired := true, main := .waitGroup }
  | ends (here : s.main = .waitGroup) (exited : ∀ d, (s.lane d).pc = .exited)
      (left : s.watching = false) : Moves idle s .main { s with main := .ended }
  | ticks {now : Time} (later : s.clock ≤ now) : Moves idle s (.tick now) { s with clock := now }

theorem moves_of_loopStep {e : LoopEvent}
    (taken : s.loopStep allowedClientIP upUDPAddr idle d e = some s') :
    s.Moves idle (.loop d e) s' := by
  cases e with
  | check =>
      obtain ⟨⟨top, stage⟩, taken⟩ := Option.ite_none_right_eq_some.1 taken
      split at taken
      · exact .turns (.check stage ‹_›) (turned_of_advance taken)
      · cases taken
        exact .goesOn top stage (Bool.eq_false_iff.2 ‹_›)
  | arm =>
      obtain ⟨⟨top, stage⟩, taken⟩ := Option.ite_none_right_eq_some.1 taken
      cases taken
      exact .arms top stage
  | timeout =>
      obtain ⟨⟨top, stage, passed⟩, taken⟩ := Option.ite_none_right_eq_some.1 taken
      exact .turns (.timeout stage) (turned_of_advance taken)
  | readFails =>
      obtain ⟨⟨top, stage⟩, taken⟩ := Option.ite_none_right_eq_some.1 taken
      exact .turns (.readFails stage) (turned_of_advance taken)
  | packet p =>
      obtain ⟨⟨top, stage⟩, taken⟩ := Option.ite_none_right_eq_some.1 taken
      exact .turns (.packet p stage) (turned_of_advance taken)
  | work => exact .turns .work (turned_of_advance taken)
  | write result =>
      obtain ⟨⟨live, closed⟩, taken⟩ := Option.ite_none_right_eq_some.1 taken
      exact .turns (.write result closed) (turned_of_advance taken)

variable (idle) in
theorem moves_of_mainStep (taken : s.mainStep = some s') : s.Moves idle .main s' := by
  unfold mainStep at taken
  split at taken
  · obtain ⟨done, taken⟩ := Option.ite_none_right_eq_some.1 taken
    cases taken
    exact .wakes ‹_› done
  · rename_i here
    cases taken
    exact .expires (.inl here) (.inl rfl) (by simp [here])
  · rename_i here
    cases taken
    exact .expires (.inr here) (.inr rfl) fun _ => rfl
  · cases taken
    exact .expiresControl ‹_›
  · obtain ⟨⟨up, down, left⟩, taken⟩ := Option.ite_none_right_eq_some.1 taken
    cases taken
    refine .ends ‹_› (fun d => ?_) left
    cases d
    · exact up
    · exact down
  · cases taken

theorem moves_of_step {a : AssocAction}
    (taken : s.step allowedClientIP upUDPAddr idle a = some s') : s.Moves idle a s' := by
  cases a with
  | loop d e => exact moves_of_loopStep taken
  | controlEnds =>
      obtain ⟨watching, taken⟩ := Option.ite_none_right_eq_some.1 taken
      cases taken
      exact .watched watching
  | controlTimeout =>
      obtain ⟨⟨watching, passed⟩, taken⟩ := Option.ite_none_right_eq_some.1 taken
      cases taken
      exact .watched watching
  | cancelParent =>
      obtain ⟨running, taken⟩ := Option.ite_none_left_eq_some.1 taken
      cases taken
      exact .cancelled (Bool.eq_false_iff.2 running)
  | main => exact moves_of_mainStep idle taken
  | tick now =>
      obtain ⟨later, taken⟩ := Option.ite_none_right_eq_some.1 taken
      cases taken
      exact .ticks later

structure Standing (idle : Duration) (s : Assoc) : Prop where
  has : ∀ d : Direction, d.Has (s.lane d).pc
  near : ∀ d t, (s.socket d).read = some t → t ≤ s.clock ∨ t ≤ s.clock + idle
  armed : ∀ d, s.stage d = .read → (s.socket d).read.isSome = true
  begun : s.main ≠ .waitDone → s.done = true
  expired : s.main = .waitGroup → s.controlExpired = true
  exited : ∀ d, (s.lane d).pc = .exited → s.done = true
  finished : s.main = .ended → ∀ d, (s.lane d).pc = .exited
  kept : ∀ d, ∀ entry ∈ (s.lane d).log, entry.2 ≠ .closed

theorem standing_start (clock : Time) : (start clock).Standing idle where
  has d := by cases d <;> trivial
  near _ _ set := by cases set
  armed _ reading := by cases reading
  begun late := absurd rfl late
  expired late := by cases late
  exited d gone := by cases d <;> cases gone
  finished late := by cases late
  kept d entry member := by cases d <;> exact absurd member List.not_mem_nil

theorem Turned.stage_other {e : LaneEvent} (turned : s.Turned d e s') :
    s'.stage d.other = s.stage d.other := by
  rw [turned.stage, Function.update_of_ne d.other_ne]

theorem Turned.stage_self {e : LaneEvent} (turned : s.Turned d e s') : s'.stage d = .check := by
  rw [turned.stage, Function.update_self]

theorem Prompts.open_ {e : LoopEvent} {laneEvent : LaneEvent} (prompts : s.Prompts d e laneEvent)
    (going : s.main ≠ .ended) : laneEvent ≠ .write .closed := by
  rintro rfl
  cases prompts with
  | write _ closed => exact going (closed rfl)

theorem Prompts.reading {e : LoopEvent} {laneEvent : LaneEvent} (prompts : s.Prompts d e laneEvent)
    (p : Packet) (receives : laneEvent = .receive p) : s.stage d = .read := by
  cases prompts with
  | packet _ stage => exact stage
  | _ => cases receives

theorem Standing.going {e : LaneEvent} (standing : s.Standing idle) (turned : s.Turned d e s') :
    s.main ≠ .ended := fun finished => turned.lane.awake (standing.finished finished d)

theorem Standing.turned {e : LoopEvent} {laneEvent : LaneEvent} (standing : s.Standing idle)
    (prompts : s.Prompts d e laneEvent) (turned : s.Turned d laneEvent s') : s'.Standing idle where
  has d' := by
    rcases d.eq_or_other d' with rfl | rfl
    · exact turned.lane.has
    · rw [turned.other]
      exact standing.has _
  near := by
    rw [turned.socket, turned.clock]
    exact standing.near
  armed d' reading := by
    rw [turned.socket]
    rcases d.eq_or_other d' with rfl | rfl
    · rw [turned.stage_self] at reading
      cases reading
    · exact standing.armed _ (turned.stage_other ▸ reading)
  begun := by
    intro late
    rw [turned.done, standing.begun (turned.main ▸ late), Bool.true_or]
  expired := by
    rw [turned.main, turned.controlExpired]
    exact standing.expired
  exited d' gone := by
    rw [turned.done]
    rcases d.eq_or_other d' with rfl | rfl
    · rw [gone]
      exact Bool.or_true _
    · rw [standing.exited _ (turned.other ▸ gone), Bool.true_or]
  finished := fun finished => absurd (turned.main ▸ finished) (standing.going turned)
  kept d' entry member := by
    rcases d.eq_or_other d' with rfl | rfl
    · rcases turned.lane.kept (prompts.open_ (standing.going turned)) entry member with old | kept
      · exact standing.kept _ entry old
      · exact kept
    · exact standing.kept _ entry (turned.other ▸ member)

theorem Standing.moves {a : AssocAction} (standing : s.Standing idle) (moves : s.Moves idle a s') :
    s'.Standing idle := by
  obtain ⟨has, near, armed, begun, expired, exited, finished, kept⟩ := standing
  cases moves with
  | turns prompts turned =>
      exact Standing.turned ⟨has, near, armed, begun, expired, exited, finished, kept⟩ prompts turned
  | @goesOn d top stage running =>
      refine ⟨has, near, fun d' reading => ?_, begun, expired, exited, finished, kept⟩
      rcases d.eq_or_other d' with rfl | rfl
      · simp at reading
      · simp only [Function.update_of_ne d.other_ne] at reading
        exact armed _ reading
  | @arms d top stage =>
      refine ⟨has, fun d' t set => ?_, fun d' reading => ?_, begun, expired, exited, finished, kept⟩
      · rcases d.eq_or_other d' with rfl | rfl
        · simp only [Function.update_self, Option.some.injEq] at set
          exact .inr set.ge
        · simp only [Function.update_of_ne d.other_ne] at set
          exact near _ t set
      · rcases d.eq_or_other d' with rfl | rfl
        · simp
        · simp only [Function.update_of_ne d.other_ne] at reading ⊢
          exact armed _ reading
  | watched watching => exact ⟨has, near, armed, fun _ => rfl, expired, fun _ _ => rfl, finished, kept⟩
  | cancelled running => exact ⟨has, near, armed, fun _ => rfl, expired, fun _ _ => rfl, finished, kept⟩
  | wakes here done => exact ⟨has, near, armed, fun _ => done, nofun, exited, nofun, kept⟩
  | @expires d next here there =>
      refine ⟨has, fun d' t set => ?_, fun d' reading => ?_, fun _ => begun ?_, ?_, exited, ?_, kept⟩
      · rcases d.eq_or_other d' with rfl | rfl
        · simp only [Function.update_self, Option.some.injEq] at set
          exact .inl set.ge
        · simp only [Function.update_of_ne d.other_ne] at set
          exact near _ t set
      · rcases d.eq_or_other d' with rfl | rfl
        · simp
        · simp only [Function.update_of_ne d.other_ne]
          exact armed _ reading
      · rcases here with here | here <;> simp [here]
      · rcases there with rfl | rfl <;> nofun
      · rcases there with rfl | rfl <;> nofun
  | expiresControl here =>
      exact ⟨has, near, armed, fun _ => begun (by simp [here]), fun _ => rfl, exited, nofun, kept⟩
  | ends here gone left =>
      exact ⟨has, near, armed, fun _ => begun (by simp [here]), nofun, exited, fun _ => gone, kept⟩
  | ticks later =>
      refine ⟨has, fun d t set => ?_, armed, begun, expired, exited, finished, kept⟩
      rcases near d t set with passed | soon
      · exact .inl (passed.trans later)
      · exact .inr (soon.trans (Int.add_le_add_right later idle))

theorem standing_of_exec {clock : Time} {trace : List (Assoc × AssocAction)}
    (exec : Exec (step allowedClientIP upUDPAddr idle) (start clock) trace s) : s.Standing idle :=
  exec.stable (standing_start clock) fun _ _ _ standing taken => standing.moves (moves_of_step taken)

theorem relay_of_advance {e : LaneEvent}
    (advanced : s.advance allowedClientIP upUDPAddr d e = some s') :
    s.relay.step allowedClientIP upUDPAddr (laneAction d e) = some s'.relay := by
  obtain ⟨relay, stepped, rfl⟩ := Option.map_eq_some_iff.1 advanced
  exact stepped

theorem relay_of_step {a : AssocAction}
    (taken : s.step allowedClientIP upUDPAddr idle a = some s') :
    s'.relay = s.relay ∨ ∃ b, s.relay.step allowedClientIP upUDPAddr b = some s'.relay := by
  cases a with
  | loop d e =>
      cases e with
      | check =>
          obtain ⟨_, taken⟩ := Option.ite_none_right_eq_some.1 taken
          split at taken
          · exact .inr ⟨_, relay_of_advance taken⟩
          · cases taken
            exact .inl rfl
      | arm =>
          obtain ⟨_, taken⟩ := Option.ite_none_right_eq_some.1 taken
          cases taken
          exact .inl rfl
      | work => exact .inr ⟨_, relay_of_advance taken⟩
      | timeout | readFails | packet | write =>
          obtain ⟨_, taken⟩ := Option.ite_none_right_eq_some.1 taken
          exact .inr ⟨_, relay_of_advance taken⟩
  | main =>
      cases moves_of_mainStep idle taken <;> exact .inl rfl
  | controlEnds | controlTimeout | tick =>
      obtain ⟨_, taken⟩ := Option.ite_none_right_eq_some.1 taken
      cases taken
      exact .inl rfl
  | cancelParent =>
      obtain ⟨_, taken⟩ := Option.ite_none_left_eq_some.1 taken
      cases taken
      exact .inl rfl

theorem relay_exec {clock : Time} {trace : List (Assoc × AssocAction)}
    (exec : Exec (step allowedClientIP upUDPAddr idle) (start clock) trace s) :
    ∃ relayTrace, Exec (Relay.step allowedClientIP upUDPAddr) Relay.init relayTrace s.relay := by
  induction exec with
  | nil => exact ⟨[], .nil⟩
  | snoc before taken ih =>
      obtain ⟨relayTrace, relayExec⟩ := ih
      rcases relay_of_step taken with same | ⟨b, stepped⟩
      · exact ⟨relayTrace, same ▸ relayExec⟩
      · exact ⟨_, relayExec.snoc stepped⟩

theorem weighed_of_exec {clock : Time} {trace : List (Assoc × AssocAction)}
    (exec : Exec (step allowedClientIP upUDPAddr idle) (start clock) trace s) (d : Direction) :
    (s.lane d).Weighed := by
  obtain ⟨relayTrace, relayExec⟩ := relay_exec exec
  have both : s.relay.client.Weighed ∧ s.relay.upstream.Weighed := by
    refine relayExec.stable (P := fun r => r.client.Weighed ∧ r.upstream.Weighed)
      ⟨Lane.weighed_fresh, Lane.weighed_fresh⟩ fun r b r' weighed stepped => ?_
    cases b with
    | client e =>
        obtain ⟨_, moved, rfl⟩ := Option.map_eq_some_iff.1 stepped
        exact ⟨weighed.1.client moved, weighed.2⟩
    | upstream e =>
        obtain ⟨_, moved, rfl⟩ := Option.map_eq_some_iff.1 stepped
        exact ⟨weighed.1, weighed.2.upstream moved⟩
  cases d
  · exact both.1
  · exact both.2

theorem sound_of_exec {clock : Time} {allowed : Bytes} {trace : List (Assoc × AssocAction)}
    (exec : Exec (step (some allowed) upUDPAddr idle) (start clock) trace s) (d : Direction) :
    (∃ src dst, (s.lane d).Relays src dst) ∧
      ∀ reason, s.relay.dropped reason = (s.lane .up).drops reason + (s.lane .down).drops reason := by
  obtain ⟨relayTrace, relayExec⟩ := relay_exec exec
  have isolated := Relay.isolated_exec relayExec
  refine ⟨?_, isolated.dropped⟩
  cases d
  · exact ⟨_, _, isolated.client.relays⟩
  · exact ⟨_, _, isolated.upstream.relays⟩

theorem budget_of_moves {a : AssocAction} (done : s.done = true) (moves : s.Moves idle a s')
    (d : Direction) :
    s'.done = true ∧ (s'.lane d).budget (s'.stage d) ≤ (s.lane d).budget (s.stage d) := by
  cases moves with
  | @turns d' e laneEvent _ prompts turned =>
      refine ⟨by rw [turned.done, done, Bool.true_or], ?_⟩
      rcases d'.eq_or_other d with rfl | rfl
      · rw [turned.stage_self]
        exact turned.lane.budget_le prompts.reading
      · rw [turned.other, turned.stage_other]
  | goesOn _ _ running => exact absurd done (Bool.eq_false_iff.1 running)
  | @arms d' top stage =>
      refine ⟨done, ?_⟩
      rcases d'.eq_or_other d with rfl | rfl
      · simp [Lane.budget, stage, lane]
      · simp only [Function.update_of_ne d'.other_ne]
        exact le_rfl
  | watched | cancelled => exact ⟨rfl, le_rfl⟩
  | _ => exact ⟨done, le_rfl⟩

theorem budget_of_exec {first last : Assoc} {trace : List (Assoc × AssocAction)}
    (exec : Exec (step allowedClientIP upUDPAddr idle) first trace last) (done : first.done = true)
    (d : Direction) :
    last.done = true ∧ (last.lane d).budget (last.stage d) ≤ (first.lane d).budget (first.stage d) := by
  refine exec.stable (P := fun s => s.done = true ∧
    (s.lane d).budget (s.stage d) ≤ (first.lane d).budget (first.stage d)) ⟨done, le_rfl⟩ ?_
  intro s a s' ⟨done, within⟩ taken
  obtain ⟨done', less⟩ := budget_of_moves done (moves_of_step taken) d
  exact ⟨done', less.trans within⟩

theorem received_le {first last : Assoc} {trace : List (Assoc × AssocAction)}
    (exec : Exec (step allowedClientIP upUDPAddr idle) first trace last) (done : first.done = true)
    (d : Direction) : (last.lane d).received.length ≤ (first.lane d).received.length + 1 := by
  have within := (budget_of_exec exec done d).2
  have most : (first.lane d).budget (first.stage d) ≤ (first.lane d).received.length + 1 := by
    unfold Lane.budget
    split <;> omega
  exact (Nat.le_add_right _ _).trans (within.trans most)

end Assoc

/-- Once something has ended an association, each loop takes one more datagram at most. When the
teardown is finished every datagram that was read has been forwarded or dropped with its reason, none was
lost to a closed socket, what was sent are the forwarded ones, and the counts that are then published are
those of what was sent. -/
theorem teardown_settles {allowed : Bytes} {upUDPAddr : UDPAddr} {idle : Duration} {clock : Time}
    {first second : List (Assoc × AssocAction)} {middle last : Assoc}
    (before : Exec (Assoc.step (some allowed) upUDPAddr idle) (Assoc.start clock) first middle)
    (done : middle.done = true)
    (after : Exec (Assoc.step (some allowed) upUDPAddr idle) middle second last) (d : Direction) :
    (last.lane d).received.length ≤ (middle.lane d).received.length + 1 ∧
    (∀ entry ∈ (last.lane d).log,
      (∃ dst, entry.2 = .forwarded dst) ∨ ∃ reason, entry.2 = .dropped reason) ∧
    (last.main = .ended →
      (last.lane d).received = (last.lane d).log.map Prod.fst ∧
      (last.lane d).sent = (last.lane d).forwarded ∧ (last.lane d).pkts = (last.lane d).sent.length ∧
      (∀ reason, last.relay.dropped reason =
        (last.lane .up).drops reason + (last.lane .down).drops reason) ∧
      (last.lane d).bytes =
        (((last.lane d).log.filter (·.2.destination.isSome)).map (·.1.payload)).sum) := by
  have whole := before.append after
  have standing := Assoc.standing_of_exec whole
  refine ⟨Assoc.received_le after done d, fun entry member => ?_, fun finished => ?_⟩
  · cases fate : entry.2 with
    | forwarded dst => exact .inl ⟨dst, rfl⟩
    | dropped reason => exact .inr ⟨reason, rfl⟩
    | closed => exact absurd fate (standing.kept d entry member)
  · obtain ⟨⟨src, dst, relays⟩, dropped⟩ := Assoc.sound_of_exec whole d
    have exited := standing.finished finished d
    obtain ⟨judged, sent⟩ := relays.left exited
    refine ⟨judged, sent, by rw [relays.pkts, sent, Lane.length_forwarded], dropped, ?_⟩
    have bytes := (Assoc.weighed_of_exec whole d).bytes
    rw [exited] at bytes
    calc (last.lane d).bytes = ((last.lane d).log.map weight).sum := bytes
      _ = _ := by
        unfold weight
        rw [List.sum_map_ite]
        simp

/-- A client's datagram is on its way up when the client leaves. -/
theorem teardown_settles_last_datagram :
    let client : UDPAddr := ⟨[127, 0, 0, 1], 5000, ""⟩
    let upUDPAddr : UDPAddr := ⟨[10, 0, 0, 1], 7000, ""⟩
    let datagram : Bytes := [0, 0, 0, 1, 1, 2, 3, 4, 0, 53, 7]
    let step := Assoc.step (some [127, 0, 0, 1]) upUDPAddr 60
    ∃ first second middle last, Exec step (Assoc.start 0) first middle ∧ middle.done = true ∧
      Exec step middle second last ∧ last.main = .ended ∧ (middle.lane .up).received = [] ∧
      (last.lane .up).received = [⟨client, datagram⟩] ∧
      (last.lane .up).sent = [(datagram, upUDPAddr)] ∧ (last.lane .up).pkts = 1 ∧
      (last.lane .up).bytes = 1 ∧ (last.lane .up).received = (last.lane .up).log.map Prod.fst := by
  intro client upUDPAddr datagram step
  obtain ⟨first, middle, before, _, reached⟩ := exec_of_play step (Assoc.start 0)
    [.loop .up .check, .loop .up .arm, .controlEnds]
    (fun _ s => decide (s.done = true ∧ (s.lane .up).received = []) &&
      (play step [] s [.loop .up (.packet ⟨client, datagram⟩), .loop .up .work, .loop .up .work,
        .loop .up .work, .loop .up .work, .main, .main, .loop .up (.write .sent), .loop .up .work,
        .loop .up .work, .loop .up .check, .loop .down .check, .main, .main, .main]).any
        fun (_, s) => decide (s.main = .ended ∧
          (s.lane .up).received = [⟨client, datagram⟩] ∧
          (s.lane .up).sent = [(datagram, upUDPAddr)] ∧ (s.lane .up).bytes = 1))
    (by decide +kernel)
  obtain ⟨now, later⟩ := Bool.and_eq_true_iff.1 reached
  obtain ⟨done, none⟩ := of_decide_eq_true now
  obtain ⟨⟨second, last⟩, played, ended⟩ := (Option.any_eq_true _ _).1 later
  obtain ⟨finished, received, sent, bytes⟩ := of_decide_eq_true ended
  have after := play_exec .nil played
  obtain ⟨judged, -, pkts, -⟩ := (teardown_settles before done after .up).2.2 finished
  exact ⟨first, second, middle, last, before, done, after, finished, none, received, sent,
    by rw [pkts, sent]; rfl, bytes, judged⟩

theorem decode_total (pkt : Bytes) : (decodeUDPDatagram pkt).run ≠ none := by
  rcases decode_cases pkt with ⟨why, thrown⟩ | ⟨address, port, data, rfl, minimum⟩
  · rw [thrown]
    nofun
  · rw [decode_header address port data minimum]
    nofun

namespace Lane

variable {lane : Lane}

theorem client_enabled (allowedClientIP : Option Bytes) (upUDPAddr : UDPAddr) (pin : Option UDPAddr)
    (has : Direction.up.Has lane.pc) (busy : 0 < lane.pc.steps) :
    (udpClientToUpstream allowedClientIP upUDPAddr pin lane .go).isSome ∨
      (udpClientToUpstream allowedClientIP upUDPAddr pin lane (.write .failed)).isSome := by
  unfold udpClientToUpstream
  cases here : lane.pc with
  | received p =>
      dsimp only
      split <;> exact .inl rfl
  | allowed p =>
      dsimp only
      split
      · exact .inl rfl
      · split <;> exact .inl rfl
  | unpinned p => exact .inl rfl
  | accepted p =>
      dsimp only
      split
      · exact absurd ‹_› (decode_total _)
      · exact .inl rfl
      · exact .inl rfl
  | decoded => simp [here, Direction.Has] at has
  | forwarding => exact .inr (by simp [io, here])
  | written | counted => exact .inl (by simp [io, here])
  | top | exited => simp [here] at busy

theorem upstream_enabled (upUDPAddr : UDPAddr) (pin : Option UDPAddr)
    (has : Direction.down.Has lane.pc) (busy : 0 < lane.pc.steps) :
    (udpUpstreamToClient upUDPAddr pin lane .go).isSome ∨
      (udpUpstreamToClient upUDPAddr pin lane (.write .failed)).isSome := by
  unfold udpUpstreamToClient
  cases here : lane.pc with
  | received p =>
      dsimp only
      split <;> exact .inl rfl
  | allowed | unpinned => simp [here, Direction.Has] at has
  | accepted p =>
      dsimp only
      split
      · exact absurd ‹_› (decode_total _)
      · exact .inl rfl
      · exact .inl rfl
  | decoded p dg =>
      dsimp only
      split <;> exact .inl rfl
  | forwarding => exact .inr (by simp [io, here])
  | written | counted => exact .inl (by simp [io, here])
  | top | exited => simp [here] at busy

end Lane

def AssocAction.own : AssocAction → Bool
  | .loop _ (.packet _) | .loop _ .readFails | .controlEnds | .cancelParent | .tick _ => false
  | _ => true

def AssocAction.ticks : AssocAction → Bool
  | .tick _ => true
  | _ => false

def TeardownPc.rank : TeardownPc → Nat
  | .waitDone => 5
  | .setClient => 4
  | .setUpstream => 3
  | .setControl => 2
  | .waitGroup => 1
  | .ended => 0

namespace Assoc

variable {allowedClientIP : Option Bytes} {upUDPAddr : UDPAddr} {idle : Duration} {s s' : Assoc}
  {d : Direction}

def rank (s : Assoc) : Nat :=
  (s.lane .up).rank (s.stage .up) + (s.lane .down).rank (s.stage .down) +
    (if s.watching then 1 else 0) + s.main.rank

theorem rank_loops (s : Assoc) (d : Direction) :
    s.rank = (s.lane d).rank (s.stage d) + (s.lane d.other).rank (s.stage d.other) +
      (if s.watching then 1 else 0) + s.main.rank := by
  cases d
  · rfl
  · rw [rank, Nat.add_comm ((s.lane .up).rank _)]
    rfl

theorem rank_le (s : Assoc) : s.rank ≤ 28 := by
  have loops (d : Direction) : (s.lane d).rank (s.stage d) ≤ 11 := by
    unfold Lane.rank
    split
    · omega
    · omega
    · omega
    · cases (s.lane d).pc <;> simp
  have main : s.main.rank ≤ 5 := by
    cases s.main <;> decide
  have up := loops .up
  have down := loops .down
  unfold rank
  split <;> omega

theorem rank_of_moves {a : AssocAction} (done : s.done = true) (moves : s.Moves idle a s') :
    s'.rank + (if a.ticks then 0 else 1) ≤ s.rank := by
  have charge (lower : s'.rank < s.rank) : s'.rank + (if a.ticks then 0 else 1) ≤ s.rank := by
    split <;> omega
  cases moves with
  | @turns d e laneEvent _ prompts turned =>
      have lower := turned.lane.rank_lt prompts.reading
      apply charge
      rw [s.rank_loops d, s'.rank_loops d, turned.stage_self, turned.other, turned.stage_other,
        turned.watching, turned.main]
      omega
  | goesOn _ _ running => exact absurd done (Bool.eq_false_iff.1 running)
  | @arms d top stage =>
      have lower : (s.lane d).rank .read < (s.lane d).rank .arm := by simp [Lane.rank, top]
      apply charge
      rw [s.rank_loops d, rank_loops _ d]
      simp only [Function.update_self, Function.update_of_ne d.other_ne, stage]
      simp only [lane] at lower ⊢
      omega
  | watched watching =>
      apply charge
      simp [rank, watching, lane]
  | cancelled running => exact absurd done (Bool.eq_false_iff.1 running)
  | wakes here | expiresControl here | ends here =>
      apply charge
      simp [rank, here, TeardownPc.rank, lane]
  | expires here there later =>
      apply charge
      refine Nat.add_lt_add_left ?_ _
      rcases here with here | here
      · rcases there with rfl | rfl <;> simp [here, TeardownPc.rank]
      · simp [later here, here, TeardownPc.rank]
  | ticks later => exact le_rfl

theorem rank_of_exec {first last : Assoc} {trace : List (Assoc × AssocAction)}
    (exec : Exec (step allowedClientIP upUDPAddr idle) first trace last) (done : first.done = true) :
    last.rank + (trace.filter fun entry => !entry.2.ticks).length ≤ first.rank := by
  induction exec with
  | nil => exact le_rfl
  | @snoc trace s a s' before taken ih =>
      have lower := rank_of_moves (budget_of_exec before done .up).1 (moves_of_step taken)
      rw [List.filter_append, List.length_append]
      cases ticks : a.ticks <;> simp [ticks] at lower ⊢ <;> omega

theorem advance_isSome {e : LaneEvent}
    (stepped : (s.relay.step allowedClientIP upUDPAddr (laneAction d e)).isSome) :
    ∃ s', s.advance allowedClientIP upUDPAddr d e = some s' := by
  obtain ⟨relay, stepped⟩ := Option.isSome_iff_exists.1 stepped
  exact ⟨_, by rw [advance, stepped]; rfl⟩

variable (allowedClientIP upUDPAddr) in
theorem stop_enabled (top : (s.lane d).pc = .top) :
    ∃ s', s.advance allowedClientIP upUDPAddr d .stop = some s' := by
  refine advance_isSome ?_
  cases d with
  | up => simp [laneAction, Relay.step, udpClientToUpstream, Lane.io, show s.relay.client.pc = _ from top]
  | down =>
      simp [laneAction, Relay.step, udpUpstreamToClient, Lane.io, show s.relay.upstream.pc = _ from top]

theorem work_enabled (has : d.Has (s.lane d).pc) (busy : 0 < (s.lane d).pc.steps) :
    ∃ a s', a.own = true ∧ s.step allowedClientIP upUDPAddr idle a = some s' := by
  have either : (s.relay.step allowedClientIP upUDPAddr (laneAction d .go)).isSome ∨
      (s.relay.step allowedClientIP upUDPAddr (laneAction d (.write .failed))).isSome := by
    cases d with
    | up =>
        simp only [laneAction, Relay.step, Option.isSome_map]
        exact Lane.client_enabled allowedClientIP upUDPAddr _ has busy
    | down =>
        simp only [laneAction, Relay.step, Option.isSome_map]
        exact Lane.upstream_enabled upUDPAddr _ has busy
  rcases either with go | fails
  · obtain ⟨s', advanced⟩ := advance_isSome go
    exact ⟨.loop d .work, s', rfl, advanced⟩
  · obtain ⟨s', advanced⟩ := advance_isSome fails
    refine ⟨.loop d (.write .failed), s', rfl, ?_⟩
    rw [step, loopStep, if_pos ⟨nofun, nofun⟩]
    exact advanced

def Waits (idle : Duration) (s : Assoc) (d : Direction) : Prop :=
  (s.lane d).pc = .top ∧ s.stage d = .read ∧
    ∃ t, (s.socket d).read = some t ∧ s.clock < t ∧ t ≤ s.clock + idle

theorem loop_enabled (standing : s.Standing idle) (done : s.done = true) (d : Direction)
    (awake : (s.lane d).pc ≠ .exited) :
    (∃ a s', a.own = true ∧ s.step allowedClientIP upUDPAddr idle a = some s') ∨ s.Waits idle d := by
  by_cases top : (s.lane d).pc = .top
  · obtain ⟨s', stops⟩ := stop_enabled allowedClientIP upUDPAddr top
    cases stage : s.stage d with
    | check =>
        refine .inl ⟨.loop d .check, s', rfl, ?_⟩
        rw [step, loopStep, if_pos ⟨top, stage⟩, if_pos done]
        exact stops
    | arm =>
        exact .inl ⟨.loop d .arm, _, rfl, if_pos ⟨top, stage⟩⟩
    | read =>
        obtain ⟨t, set⟩ := Option.isSome_iff_exists.1 (standing.armed d stage)
        by_cases passed : t ≤ s.clock
        · refine .inl ⟨.loop d .timeout, s', rfl, ?_⟩
          rw [step, loopStep, if_pos ⟨top, stage, by simpa [S5lb.expired, set] using passed⟩]
          exact stops
        · refine .inr ⟨top, stage, t, set, Int.not_le.1 passed, ?_⟩
          exact (standing.near d t set).resolve_left passed
  · refine .inl (work_enabled (standing.has d) ?_)
    cases here : (s.lane d).pc <;> simp_all

theorem main_enabled (standing : s.Standing idle) (done : s.done = true) (going : s.main ≠ .ended) :
    (∃ a s', a.own = true ∧ s.step allowedClientIP upUDPAddr idle a = some s') ∨
      ∃ d, s.Waits idle d := by
  by_cases late : s.main = .waitGroup
  · by_cases out : ∀ d, (s.lane d).pc = .exited
    · cases watching : s.watching with
      | true =>
          exact .inl ⟨.controlTimeout, _, rfl, if_pos ⟨watching, standing.expired late⟩⟩
      | false =>
          refine .inl ⟨.main, { s with main := .ended }, rfl, ?_⟩
          simp only [step, mainStep, late]
          rw [if_pos ⟨out .up, out .down, watching⟩]
    · obtain ⟨d, awake⟩ := not_forall.1 out
      exact (loop_enabled standing done d awake).imp_right fun waits => ⟨d, waits⟩
  · cases here : s.main with
    | waitDone =>
        refine .inl ⟨.main, ?_⟩
        simp [step, mainStep, here, done, AssocAction.own]
    | setClient | setUpstream | setControl =>
        refine .inl ⟨.main, ?_⟩
        simp [step, mainStep, here, AssocAction.own]
    | waitGroup => exact absurd here late
    | ended => exact absurd here going

end Assoc

/-- Once something has ended an association it takes at most 28 more steps, whatever the peers send,
and until it is finished one of them can always be taken, or a loop that was about to read when the
deadlines were set waits, for no longer than the idle timeout. -/
theorem teardown_bounded {allowedClientIP : Option Bytes} {upUDPAddr : UDPAddr} {idle : Duration}
    {clock : Time} {first second : List (Assoc × AssocAction)} {middle last : Assoc}
    (before : Exec (Assoc.step allowedClientIP upUDPAddr idle) (Assoc.start clock) first middle)
    (done : middle.done = true)
    (after : Exec (Assoc.step allowedClientIP upUDPAddr idle) middle second last) :
    (second.filter fun entry => !entry.2.ticks).length ≤ 28 ∧
    (last.main = .ended ∨
      (∃ a s', a.own = true ∧ last.step allowedClientIP upUDPAddr idle a = some s') ∨
      ∃ d t, (last.lane d).pc = .top ∧ last.stage d = .read ∧ (last.socket d).read = some t ∧
        last.clock < t ∧ t ≤ last.clock + idle) := by
  have standing := Assoc.standing_of_exec (before.append after)
  have steps := Assoc.rank_of_exec after done
  have most := middle.rank_le
  refine ⟨by omega, ?_⟩
  by_cases finished : last.main = .ended
  · exact .inl finished
  · refine .inr ?_
    rcases Assoc.main_enabled standing (Assoc.budget_of_exec after done .up).1 finished with own | waits
    · exact .inl own
    · obtain ⟨d, top, stage, t, set, early, soon⟩ := waits
      exact .inr ⟨d, t, top, stage, set, early, soon⟩

/-- A loop sets its own deadline after that of the teardown and keeps the association waiting. -/
theorem teardown_bounded_rearmed :
    let step := Assoc.step none ⟨[10, 0, 0, 1], 7000, ""⟩ 60
    ∃ first second middle last, Exec step (Assoc.start 0) first middle ∧ middle.done = true ∧
      Exec step middle second last ∧ last.main = .waitGroup ∧ (last.lane .down).pc = .exited ∧
      (last.lane .up).pc = .top ∧ last.stage .up = .read ∧ (last.socket .up).read = some 60 ∧
      (second.filter fun entry => !entry.2.ticks).length ≤ 28 := by
  intro step
  obtain ⟨first, middle, before, _, reached⟩ := exec_of_play step (Assoc.start 0)
    [.loop .up .check, .controlEnds]
    (fun _ s => s.done && (play step [] s
      [.main, .main, .loop .up .arm, .main, .main, .loop .down .check]).any fun (_, s) =>
        decide (s.main = .waitGroup ∧ (s.lane .down).pc = .exited ∧ (s.lane .up).pc = .top ∧
          s.stage .up = .read ∧ (s.socket .up).read = some 60))
    (by decide +kernel)
  obtain ⟨done, later⟩ := Bool.and_eq_true_iff.1 reached
  obtain ⟨⟨second, last⟩, played, waiting⟩ := (Option.any_eq_true _ _).1 later
  obtain ⟨main, down, up, stage, deadline⟩ := of_decide_eq_true waiting
  have after := play_exec .nil played
  exact ⟨first, second, middle, last, before, done, after, main, down, up, stage, deadline,
    (teardown_bounded before done after).1⟩

end S5lb
