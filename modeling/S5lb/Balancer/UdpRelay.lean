import S5lb.Lib.Transition
import S5lb.Socks5.Udp

/-!
# The UDP relay

The two loops of an association, `udpClientToUpstream` and `udpUpstreamToClient`, run side by side
and share the pinned client address. A `Lane` is one of the loops with its counters and a log of
what became of every datagram it has read.
-/

namespace S5lb

open Go Socks5 Transition

structure UDPAddr where
  ip : Bytes
  port : Int
  zone : String
  deriving DecidableEq

def udpAddrEqual (a b : UDPAddr) : Bool := a.port == b.port && Net.ipEqual a.ip b.ip

theorem udpAddrEqual_self (a : UDPAddr) : udpAddrEqual a a = true := by
  simp [udpAddrEqual, Net.ipEqual_self]

structure Packet where
  src : UDPAddr
  bytes : Bytes
  deriving DecidableEq

def Packet.decodable (p : Packet) : Bool :=
  match (decodeUDPDatagram p.bytes).run with
  | some (.ok _) => true
  | _ => false

inductive DropReason
  | foreignClientIP
  | foreignSrc
  | decodeErrClient
  | upstreamWriteErr
  | foreignUpstreamSrc
  | decodeErrUpstream
  | noPin
  | clientWriteErr
  deriving DecidableEq

inductive WriteResult
  | sent
  | closed
  | failed
  deriving DecidableEq

inductive Fate
  | forwarded (dst : UDPAddr)
  | dropped (reason : DropReason)
  | closed
  deriving DecidableEq

inductive RelayPc
  | top
  | received (p : Packet)
  | allowed (p : Packet)
  | unpinned (p : Packet)
  | accepted (p : Packet)
  | decoded (p : Packet) (dg : UDPDatagram)
  | forwarding (p : Packet) (dg : UDPDatagram) (dst : UDPAddr)
  | written (p : Packet) (dg : UDPDatagram) (dst : UDPAddr)
  | counted (dg : UDPDatagram)
  | exited
  deriving DecidableEq

structure Lane where
  pc : RelayPc
  received : List Packet
  sent : List (Bytes × UDPAddr)
  log : List (Packet × Fate)
  pkts : Nat
  bytes : Nat
  deriving DecidableEq

structure Relay where
  pin : Option UDPAddr
  client : Lane
  upstream : Lane
  dropped : DropReason → Nat

inductive LaneEvent
  | receive (p : Packet)
  | stop
  | go
  | write (result : WriteResult)

namespace Lane

def fresh : Lane := ⟨.top, [], [], [], 0, 0⟩

def goto (lane : Lane) (pc : RelayPc) : Lane × Option DropReason := ({ lane with pc }, none)

def drop (lane : Lane) (p : Packet) (reason : DropReason) : Lane × Option DropReason :=
  ({ lane with pc := .top, log := lane.log ++ [(p, .dropped reason)] }, some reason)

def io (lane : Lane) (writeErr : DropReason) (e : LaneEvent) : Option (Lane × Option DropReason) :=
  match lane.pc, e with
  | .top, .receive p =>
      some ({ lane with pc := .received p, received := lane.received ++ [p] }, none)
  | .top, .stop => some (lane.goto .exited)
  | .forwarding p dg dst, .write .sent =>
      some ({ lane with pc := .written p dg dst, sent := lane.sent ++ [(p.bytes, dst)] }, none)
  | .forwarding p _ _, .write .closed =>
      some ({ lane with pc := .exited, log := lane.log ++ [(p, .closed)] }, none)
  | .forwarding p _ _, .write .failed => some (lane.drop p writeErr)
  | .written p dg dst, .go =>
      some ({ lane with
        pc := .counted dg
        log := lane.log ++ [(p, .forwarded dst)]
        pkts := lane.pkts + 1 }, none)
  | .counted dg, .go =>
      some ({ lane with pc := .top, bytes := lane.bytes + dg.data.length }, none)
  | _, _ => none

end Lane

def udpClientToUpstream (allowedClientIP : Option Bytes) (upUDPAddr : UDPAddr)
    (pin : Option UDPAddr) (lane : Lane) (e : LaneEvent) :
    Option (Option UDPAddr × Lane × Option DropReason) :=
  match lane.pc, e with
  | .received p, .go =>
      if allowedClientIP.any fun ip => !Net.ipEqual p.src.ip ip then
        some (pin, lane.drop p .foreignClientIP)
      else some (pin, lane.goto (.allowed p))
  | .allowed p, .go =>
      match pin with
      | none => some (pin, lane.goto (.unpinned p))
      | some cur =>
          if udpAddrEqual cur p.src then some (pin, lane.goto (.accepted p))
          else some (pin, lane.drop p .foreignSrc)
  | .unpinned p, .go => some (some p.src, lane.goto (.accepted p))
  | .accepted p, .go =>
      match (decodeUDPDatagram p.bytes).run with
      | none => none
      | some (.error _) => some (pin, lane.drop p .decodeErrClient)
      | some (.ok dg) => some (pin, lane.goto (.forwarding p dg upUDPAddr))
  | _, e => (lane.io .upstreamWriteErr e).map fun result => (pin, result)

def udpUpstreamToClient (upUDPAddr : UDPAddr) (pin : Option UDPAddr) (lane : Lane) (e : LaneEvent) :
    Option (Lane × Option DropReason) :=
  match lane.pc, e with
  | .received p, .go =>
      if udpAddrEqual p.src upUDPAddr then some (lane.goto (.accepted p))
      else some (lane.drop p .foreignUpstreamSrc)
  | .accepted p, .go =>
      match (decodeUDPDatagram p.bytes).run with
      | none => none
      | some (.error _) => some (lane.drop p .decodeErrUpstream)
      | some (.ok dg) => some (lane.goto (.decoded p dg))
  | .decoded p dg, .go =>
      match pin with
      | none => some (lane.drop p .noPin)
      | some clientAddr => some (lane.goto (.forwarding p dg clientAddr))
  | _, e => lane.io .clientWriteErr e

inductive RelayAction
  | client (e : LaneEvent)
  | upstream (e : LaneEvent)

namespace Relay

def init : Relay := ⟨none, .fresh, .fresh, fun _ => 0⟩

def count (dropped : DropReason → Nat) : Option DropReason → DropReason → Nat
  | none => dropped
  | some reason => Function.update dropped reason (dropped reason + 1)

def step (allowedClientIP : Option Bytes) (upUDPAddr : UDPAddr) (s : Relay) :
    RelayAction → Option Relay
  | .client e =>
      (udpClientToUpstream allowedClientIP upUDPAddr s.pin s.client e).map fun (pin, client, reason) =>
        { s with pin, client, dropped := count s.dropped reason }
  | .upstream e =>
      (udpUpstreamToClient upUDPAddr s.pin s.upstream e).map fun (upstream, reason) =>
        { s with upstream, dropped := count s.dropped reason }

end Relay

namespace RelayPc

def busy : RelayPc → Option Packet
  | .received p | .allowed p | .unpinned p | .accepted p | .decoded p _ | .forwarding p _ _
  | .written p _ _ => some p
  | .top | .counted _ | .exited => none

def flying : RelayPc → List (Bytes × UDPAddr)
  | .written p _ dst => [(p.bytes, dst)]
  | _ => []

def Fits (may : Packet → Prop) (aims : UDPAddr → Prop) : RelayPc → Prop
  | .accepted p => may p
  | .decoded p _ => may p ∧ p.decodable = true
  | .forwarding p _ dst | .written p _ dst => may p ∧ p.decodable = true ∧ aims dst
  | _ => True

theorem Fits.mono {may may' : Packet → Prop} {aims aims' : UDPAddr → Prop} {pc : RelayPc}
    (fits : pc.Fits may aims) (source : ∀ p, may p → may' p) (goal : ∀ a, aims a → aims' a) :
    pc.Fits may' aims' := by
  cases pc with
  | accepted p => exact source p fits
  | decoded p dg => exact ⟨source p fits.1, fits.2⟩
  | forwarding p dg dst | written p dg dst => exact ⟨source p fits.1, fits.2.1, goal dst fits.2.2⟩
  | _ => trivial

end RelayPc

def Fate.destination : Fate → Option UDPAddr
  | .forwarded dst => some dst
  | _ => none

namespace Lane

def drops (lane : Lane) (reason : DropReason) : Nat :=
  lane.log.countP fun entry => entry.2 = .dropped reason

def forwarded (lane : Lane) : List (Bytes × UDPAddr) :=
  lane.log.filterMap fun entry => entry.2.destination.map fun dst => (entry.1.bytes, dst)

structure Sound (may : Packet → Prop) (aims : UDPAddr → Prop) (lane : Lane) : Prop where
  received : lane.received = lane.log.map Prod.fst ++ lane.pc.busy.toList
  sent : lane.sent = lane.forwarded ++ lane.pc.flying
  log : ∀ entry ∈ lane.log, ∀ dst, entry.2 = .forwarded dst →
    may entry.1 ∧ entry.1.decodable = true ∧ aims dst
  pc : lane.pc.Fits may aims
  pkts : lane.pkts = lane.forwarded.length
  closed : (lane.log.countP fun entry => entry.2 = .closed) ≤ if lane.pc = .exited then 1 else 0

inductive Advance (may : Packet → Prop) (aims : UDPAddr → Prop) (lane : Lane) :
    Lane → Option DropReason → Prop
  | receive (p : Packet) (here : lane.pc = .top) :
      Advance may aims lane { lane with pc := .received p, received := lane.received ++ [p] } none
  | pass (pc : RelayPc) (awake : lane.pc ≠ .exited) (busy : pc.busy = lane.pc.busy)
      (grounded : lane.pc.flying = []) (still : pc.flying = []) (fits : pc.Fits may aims) :
      Advance may aims lane { lane with pc } none
  | drop (p : Packet) (reason : DropReason) (busy : lane.pc.busy = some p)
      (grounded : lane.pc.flying = []) :
      Advance may aims lane (lane.drop p reason).1 (some reason)
  | sent (p : Packet) (dg : UDPDatagram) (dst : UDPAddr) (here : lane.pc = .forwarding p dg dst) :
      Advance may aims lane
        { lane with pc := .written p dg dst, sent := lane.sent ++ [(p.bytes, dst)] } none
  | closed (p : Packet) (dg : UDPDatagram) (dst : UDPAddr) (here : lane.pc = .forwarding p dg dst) :
      Advance may aims lane { lane with pc := .exited, log := lane.log ++ [(p, .closed)] } none
  | counted (p : Packet) (dg : UDPDatagram) (dst : UDPAddr) (here : lane.pc = .written p dg dst) :
      Advance may aims lane { lane with
        pc := .counted dg
        log := lane.log ++ [(p, .forwarded dst)]
        pkts := lane.pkts + 1 } none
  | summed (dg : UDPDatagram) (here : lane.pc = .counted dg) :
      Advance may aims lane { lane with pc := .top, bytes := lane.bytes + dg.data.length } none

variable {may may' : Packet → Prop} {aims aims' : UDPAddr → Prop} {lane lane' : Lane}
  {reason : Option DropReason}

theorem Sound.mono (sound : lane.Sound may aims) (source : ∀ p, may p → may' p)
    (goal : ∀ a, aims a → aims' a) : lane.Sound may' aims' :=
  { sound with
    log := fun entry member dst forwarded =>
      let ⟨source', decodes, goal'⟩ := sound.log entry member dst forwarded
      ⟨source entry.1 source', decodes, goal dst goal'⟩
    pc := sound.pc.mono source goal }

theorem sound_fresh : Lane.fresh.Sound may aims :=
  ⟨rfl, rfl, by simp [fresh], trivial, rfl, Nat.zero_le _⟩

theorem Sound.open_of_awake (sound : lane.Sound may aims) (awake : lane.pc ≠ .exited) :
    (lane.log.countP fun entry => entry.2 = .closed) = 0 := by
  have closed := sound.closed
  rw [if_neg awake] at closed
  omega

theorem Sound.settle (sound : lane.Sound may aims) {p : Packet} {fate : Fate} {pc : RelayPc}
    (busy : lane.pc.busy = some p) (grounded : lane.pc.flying = []) (idle : pc.busy = none)
    (still : pc.flying = []) (fits : pc.Fits may aims) (kept : fate.destination = none)
    (last : fate = .closed → pc = .exited) :
    Sound may aims { lane with pc, log := lane.log ++ [(p, fate)] } := by
  have awake : lane.pc ≠ .exited := by
    intro exited
    rw [exited] at busy
    cases busy
  have same : ({ lane with pc, log := lane.log ++ [(p, fate)] } : Lane).forwarded =
      lane.forwarded := by
    simp [forwarded, kept]
  refine ⟨?_, ?_, ?_, fits, ?_, ?_⟩
  · have received := sound.received
    rw [busy] at received
    rw [received, idle]
    simp
  · rw [same, still, ← grounded]
    exact sound.sent
  · intro entry member dst forwarded
    rcases List.mem_append.1 member with old | new
    · exact sound.log entry old dst forwarded
    · rw [List.mem_singleton.1 new] at forwarded
      rw [show fate = _ from forwarded] at kept
      cases kept
  · rw [same]
    exact sound.pkts
  · rw [List.countP_append, sound.open_of_awake awake, List.countP_singleton]
    by_cases shut : fate = .closed
    · simp [shut, last shut]
    · simp [shut]

theorem Sound.advance (sound : lane.Sound may aims) (advance : lane.Advance may aims lane' reason) :
    lane'.Sound may aims := by
  have received := sound.received
  have sent := sound.sent
  cases advance with
  | receive p here =>
      rw [here] at received sent
      refine ⟨?_, sent, sound.log, trivial, sound.pkts, ?_⟩
      · rw [received]
        simp [RelayPc.busy]
      · exact (sound.open_of_awake (by simp [here])).trans_le (Nat.zero_le _)
  | pass pc awake busy grounded still fits =>
      refine ⟨?_, ?_, sound.log, fits, sound.pkts, ?_⟩
      · rw [received, busy]
      · rw [sent, grounded, still]
        rfl
      · exact (sound.open_of_awake awake).trans_le (Nat.zero_le _)
  | drop p reason busy grounded =>
      exact sound.settle busy grounded rfl rfl trivial rfl (fun shut => by cases shut)
  | sent p dg dst here =>
      have fits := sound.pc
      rw [here] at received sent fits
      refine ⟨received, ?_, sound.log, fits, sound.pkts, ?_⟩
      · rw [sent]
        simp [RelayPc.flying, forwarded]
      · exact (sound.open_of_awake (by simp [here])).trans_le (Nat.zero_le _)
  | closed p dg dst here =>
      exact sound.settle (by rw [here]; rfl) (by rw [here]; rfl) rfl rfl trivial rfl fun _ => rfl
  | counted p dg dst here =>
      have fits := sound.pc
      rw [here] at received sent fits
      refine ⟨?_, ?_, ?_, trivial, ?_, ?_⟩
      · rw [received]
        simp [RelayPc.busy]
      · rw [sent]
        simp [RelayPc.flying, forwarded, Fate.destination]
      · intro entry member dst' forwarded
        rcases List.mem_append.1 member with old | new
        · exact sound.log entry old dst' forwarded
        · rw [List.mem_singleton.1 new] at forwarded ⊢
          cases forwarded
          exact fits
      · rw [sound.pkts]
        simp [forwarded, Fate.destination]
      · rw [List.countP_append, sound.open_of_awake (by simp [here])]
        simp
  | summed dg here =>
      rw [here] at received sent
      exact ⟨received, sent, sound.log, trivial, sound.pkts,
        (sound.open_of_awake (by simp [here])).trans_le (Nat.zero_le _)⟩

theorem Advance.drops (advance : lane.Advance may aims lane' reason) (other : DropReason) :
    lane'.drops other = lane.drops other + if reason = some other then 1 else 0 := by
  cases advance with
  | drop p reason busy grounded =>
      simp only [Lane.drops, Lane.drop, List.countP_append, List.countP_singleton, Option.some.injEq,
        decide_eq_true_eq, Fate.dropped.injEq]
  | closed p dg dst here => simp [Lane.drops]
  | counted p dg dst here => simp [Lane.drops]
  | receive | pass | sent | summed => rfl

theorem advance_goto {pc pc' : RelayPc} {p : Packet} (here : lane.pc = pc) (held : pc.busy = some p)
    (holds : pc'.busy = some p) (grounded : pc.flying = []) (still : pc'.flying = [])
    (fits : pc'.Fits may aims) : lane.Advance may aims { lane with pc := pc' } none := by
  refine .pass pc' ?_ (by rw [here, held, holds]) (by rw [here, grounded]) still fits
  intro exited
  rw [← here, exited] at held
  cases held

theorem advance_drop {pc : RelayPc} {p : Packet} (here : lane.pc = pc) (held : pc.busy = some p)
    (grounded : pc.flying = []) (reason : DropReason) :
    lane.Advance may aims (lane.drop p reason).1 (some reason) :=
  .drop p reason (here ▸ held) (here ▸ grounded)

theorem advance_of_io {writeErr : DropReason} {e : LaneEvent}
    (stepped : lane.io writeErr e = some (lane', reason)) : lane.Advance may aims lane' reason := by
  unfold io at stepped
  split at stepped
  · rename_i p here
    cases stepped
    exact .receive p here
  · rename_i here
    cases stepped
    exact .pass .exited (by simp [here]) (by rw [here]; rfl) (by rw [here]; rfl) rfl trivial
  · rename_i p dg dst here
    cases stepped
    exact .sent p dg dst here
  · rename_i p dg dst here
    cases stepped
    exact .closed p dg dst here
  · rename_i p dg dst here
    cases stepped
    exact advance_drop here rfl rfl writeErr
  · rename_i p dg dst here
    cases stepped
    exact .counted p dg dst here
  · rename_i dg here
    cases stepped
    exact .summed dg here
  · cases stepped

end Lane

def fromPinned (pin : Option UDPAddr) (p : Packet) : Bool := pin.any fun cur => udpAddrEqual cur p.src

theorem fromPinned_mono {pin pin' : Option UDPAddr} {p : Packet}
    (kept : ∀ b, pin = some b → pin' = some b) (pinned : fromPinned pin p = true) :
    fromPinned pin' p = true := by
  cases pin with
  | none => cases pinned
  | some b => rwa [kept b rfl]

def RelayPc.Permitted (allowed : Bytes) (pin : Option UDPAddr) : RelayPc → Prop
  | .allowed p => Net.ipEqual p.src.ip allowed = true
  | .unpinned p => Net.ipEqual p.src.ip allowed = true ∧ pin = none
  | _ => True

def Pins (allowed : Bytes) (pin pin' : Option UDPAddr) : Prop :=
  pin' = pin ∨ pin = none ∧ ∃ a, pin' = some a ∧ Net.ipEqual a.ip allowed = true

theorem permitted_of_io {lane lane' : Lane} {reason : Option DropReason} {writeErr : DropReason}
    {e : LaneEvent} (stepped : lane.io writeErr e = some (lane', reason)) (allowed : Bytes)
    (pin : Option UDPAddr) : lane'.pc.Permitted allowed pin := by
  unfold Lane.io at stepped
  split at stepped <;> cases stepped <;> trivial

theorem decodable_of_decoded {p : Packet} {dg : UDPDatagram}
    (decoded : (decodeUDPDatagram p.bytes).run = some (.ok dg)) : p.decodable = true := by
  rw [Packet.decodable, decoded]

theorem client_advance {allowed : Bytes} {upUDPAddr : UDPAddr} {pin pin' : Option UDPAddr}
    {lane lane' : Lane} {reason : Option DropReason} {e : LaneEvent}
    (permitted : lane.pc.Permitted allowed pin)
    (fits : lane.pc.Fits (fromPinned pin · = true) (· = upUDPAddr))
    (stepped : udpClientToUpstream (some allowed) upUDPAddr pin lane e = some (pin', lane', reason)) :
    lane.Advance (fromPinned pin' · = true) (· = upUDPAddr) lane' reason ∧
      lane'.pc.Permitted allowed pin' ∧ Pins allowed pin pin' := by
  unfold udpClientToUpstream at stepped
  split at stepped
  · rename_i p here
    split at stepped <;> cases stepped
    · exact ⟨Lane.advance_drop here rfl rfl _, trivial, .inl rfl⟩
    · rename_i native
      refine ⟨Lane.advance_goto here rfl rfl rfl rfl trivial, ?_, .inl rfl⟩
      simpa [RelayPc.Permitted] using native
  · rename_i p here
    rw [here] at permitted
    split at stepped
    · cases stepped
      exact ⟨Lane.advance_goto here rfl rfl rfl rfl trivial, ⟨permitted, rfl⟩, .inl rfl⟩
    · rename_i cur
      split at stepped <;> cases stepped
      · rename_i same
        exact ⟨Lane.advance_goto here rfl rfl rfl rfl same, trivial, .inl rfl⟩
      · exact ⟨Lane.advance_drop here rfl rfl _, trivial, .inl rfl⟩
  · rename_i p here
    rw [here] at permitted
    cases stepped
    exact ⟨Lane.advance_goto here rfl rfl rfl rfl (udpAddrEqual_self p.src), trivial,
      .inr ⟨permitted.2, p.src, rfl, permitted.1⟩⟩
  · rename_i p here
    rw [here] at fits
    split at stepped
    · cases stepped
    · cases stepped
      exact ⟨Lane.advance_drop here rfl rfl _, trivial, .inl rfl⟩
    · rename_i dg decoded
      cases stepped
      exact ⟨Lane.advance_goto here rfl rfl rfl rfl
        ⟨fits, decodable_of_decoded decoded, rfl⟩, trivial, .inl rfl⟩
  · obtain ⟨⟨lane'', reason'⟩, moved, same⟩ := Option.map_eq_some_iff.1 stepped
    cases same
    exact ⟨Lane.advance_of_io moved, permitted_of_io moved allowed pin, .inl rfl⟩

theorem upstream_advance {upUDPAddr : UDPAddr} {pin : Option UDPAddr} {lane lane' : Lane}
    {reason : Option DropReason} {e : LaneEvent}
    (fits : lane.pc.Fits (udpAddrEqual ·.src upUDPAddr = true) (pin = some ·))
    (stepped : udpUpstreamToClient upUDPAddr pin lane e = some (lane', reason)) :
    lane.Advance (udpAddrEqual ·.src upUDPAddr = true) (pin = some ·) lane' reason := by
  unfold udpUpstreamToClient at stepped
  split at stepped
  · rename_i p here
    split at stepped <;> cases stepped
    · rename_i same
      exact Lane.advance_goto here rfl rfl rfl rfl same
    · exact Lane.advance_drop here rfl rfl _
  · rename_i p here
    rw [here] at fits
    split at stepped
    · cases stepped
    · cases stepped
      exact Lane.advance_drop here rfl rfl _
    · rename_i dg decoded
      cases stepped
      exact Lane.advance_goto here rfl rfl rfl rfl ⟨fits, decodable_of_decoded decoded⟩
  · rename_i p dg here
    rw [here] at fits
    split at stepped
    · cases stepped
      exact Lane.advance_drop here rfl rfl _
    · cases stepped
      exact Lane.advance_goto here rfl rfl rfl rfl ⟨fits.1, fits.2, rfl⟩
  · exact Lane.advance_of_io stepped

namespace Relay

structure Isolated (allowed : Bytes) (upUDPAddr : UDPAddr) (s : Relay) : Prop where
  pin : ∀ a, s.pin = some a → Net.ipEqual a.ip allowed = true
  permitted : s.client.pc.Permitted allowed s.pin
  client : s.client.Sound (fromPinned s.pin · = true) (· = upUDPAddr)
  upstream : s.upstream.Sound (udpAddrEqual ·.src upUDPAddr = true) (s.pin = some ·)
  dropped : ∀ reason, s.dropped reason = s.client.drops reason + s.upstream.drops reason

theorem isolated_init (allowed : Bytes) (upUDPAddr : UDPAddr) : Isolated allowed upUDPAddr init where
  pin := by simp [init]
  permitted := trivial
  client := Lane.sound_fresh
  upstream := Lane.sound_fresh
  dropped _ := rfl

theorem count_eq (dropped : DropReason → Nat) (reason : Option DropReason) (other : DropReason) :
    count dropped reason other = dropped other + if reason = some other then 1 else 0 := by
  cases reason with
  | none => rfl
  | some r =>
      by_cases same : other = r
      · subst same
        simp [count]
      · simp [count, Function.update_of_ne same, Ne.symm same]

theorem isolated_step {allowed : Bytes} {upUDPAddr : UDPAddr} {s s' : Relay} {a : RelayAction}
    (isolated : Isolated allowed upUDPAddr s)
    (taken : s.step (some allowed) upUDPAddr a = some s') :
    Isolated allowed upUDPAddr s' ∧ Pins allowed s.pin s'.pin := by
  cases a with
  | client e =>
      obtain ⟨⟨pin, lane, reason⟩, stepped, rfl⟩ := Option.map_eq_some_iff.1 taken
      obtain ⟨advance, permitted, pins⟩ :=
        client_advance isolated.permitted isolated.client.pc stepped
      have kept (b : UDPAddr) (pinned : s.pin = some b) : pin = some b := by
        rcases pins with rfl | ⟨none, _⟩
        · exact pinned
        · rw [none] at pinned
          cases pinned
      refine ⟨⟨?_, permitted, ?_, ?_, ?_⟩, pins⟩
      · intro b pinned
        rcases pins with rfl | ⟨_, c, new, native⟩
        · exact isolated.pin b pinned
        · cases new.symm.trans pinned
          exact native
      · exact (isolated.client.mono (fun _ => fromPinned_mono kept) fun _ => id).advance advance
      · exact isolated.upstream.mono (fun _ => id) kept
      · intro other
        dsimp only
        rw [count_eq, isolated.dropped, advance.drops]
        omega
  | upstream e =>
      obtain ⟨⟨lane, reason⟩, stepped, rfl⟩ := Option.map_eq_some_iff.1 taken
      have advance := upstream_advance isolated.upstream.pc stepped
      refine ⟨⟨isolated.pin, isolated.permitted, isolated.client,
        isolated.upstream.advance advance, ?_⟩, .inl rfl⟩
      intro other
      dsimp only
      rw [count_eq, isolated.dropped, advance.drops]
      omega

theorem isolated_exec {allowed : Bytes} {upUDPAddr : UDPAddr} {trace : List (Relay × RelayAction)}
    {s : Relay} (exec : Exec (step (some allowed) upUDPAddr) init trace s) :
    Isolated allowed upUDPAddr s :=
  exec.stable (isolated_init allowed upUDPAddr) fun _ _ _ isolated taken =>
    (isolated_step isolated taken).1

theorem pin_kept {allowed : Bytes} {upUDPAddr : UDPAddr} {trace : List (Relay × RelayAction)}
    {s : Relay} (exec : Exec (step (some allowed) upUDPAddr) init trace s) :
    ∀ entry ∈ trace, ∀ a, entry.1.pin = some a → s.pin = some a := by
  induction exec with
  | nil => simp
  | @snoc trace t action t' before taken ih =>
      intro entry member a pinned
      have earlier : t.pin = some a := by
        rcases List.mem_append.1 member with old | new
        · exact ih entry old a pinned
        · rw [List.mem_singleton.1 new] at pinned
          exact pinned
      rcases (isolated_step (isolated_exec before) taken).2 with same | ⟨none, _⟩
      · rw [same]
        exact earlier
      · rw [none] at earlier
        cases earlier

end Relay

namespace Lane

/-- A lane whose datagrams all come from `src` and all go to `dst`: what it sent are decodable
datagrams from there, unchanged, in the order of arrival and at most once each. Every datagram it read
is counted once, as forwarded when it was sent and otherwise under the reason it was dropped for; the
one in the loop's hands is still to be counted. -/
structure Relays (src : Packet → Bool) (dst : UDPAddr → Prop) (lane : Lane) : Prop where
  aims : ∀ sent ∈ lane.sent, dst sent.2
  order : (lane.sent.map Prod.fst).Sublist
    ((lane.received.filter fun p => src p && p.decodable).map Packet.bytes)
  settled : lane.received = lane.log.map Prod.fst ++ lane.pc.busy.toList
  sent : lane.sent = lane.forwarded ++ lane.pc.flying
  left : lane.pc = .exited → lane.received = lane.log.map Prod.fst ∧ lane.sent = lane.forwarded
  pkts : lane.pkts = lane.log.countP fun entry => entry.2.destination.isSome
  closed : (lane.log.countP fun entry => entry.2 = .closed) ≤ if lane.pc = .exited then 1 else 0

theorem length_forwarded (lane : Lane) :
    lane.forwarded.length = lane.log.countP fun entry => entry.2.destination.isSome := by
  unfold forwarded
  induction lane.log with
  | nil => rfl
  | cons entry rest ih =>
      cases fate : entry.2.destination <;> simp [fate, ih]

def ledger (lane : Lane) : List (Packet × Fate) :=
  match lane.pc with
  | .written p _ dst => lane.log ++ [(p, .forwarded dst)]
  | _ => lane.log

namespace Sound

variable {src : Packet → Bool} {dst : UDPAddr → Prop} {lane : Lane}

theorem sent_ledger (sound : lane.Sound (src · = true) dst) :
    lane.sent = lane.ledger.filterMap fun entry =>
      entry.2.destination.map fun dst => (entry.1.bytes, dst) := by
  rw [sound.sent, ledger, forwarded]
  split
  · rename_i here
    rw [here]
    simp [RelayPc.flying, Fate.destination]
  · rename_i elsewhere
    have grounded : lane.pc.flying = [] := by
      unfold RelayPc.flying
      split
      · exact absurd ‹_› (elsewhere _ _ _)
      · rfl
    rw [grounded, List.append_nil]

theorem received_ledger (sound : lane.Sound (src · = true) dst) :
    ∃ rest, lane.received = lane.ledger.map Prod.fst ++ rest := by
  rw [sound.received, ledger]
  split
  · rename_i here
    rw [here]
    exact ⟨[], by simp [RelayPc.busy]⟩
  · exact ⟨_, rfl⟩

theorem mem_ledger (sound : lane.Sound (src · = true) dst) :
    ∀ entry ∈ lane.ledger, ∀ a, entry.2 = .forwarded a →
      src entry.1 = true ∧ entry.1.decodable = true ∧ dst a := by
  intro entry member a forwarded
  unfold ledger at member
  split at member
  · rename_i here
    rcases List.mem_append.1 member with old | new
    · exact sound.log entry old a forwarded
    · have fits := sound.pc
      rw [here] at fits
      rw [List.mem_singleton.1 new] at forwarded ⊢
      cases forwarded
      exact fits
  · exact sound.log entry member a forwarded

end Sound

theorem forwarded_of_destination {fate : Fate} {a : UDPAddr} (aimed : fate.destination = some a) :
    fate = .forwarded a := by
  cases fate with
  | forwarded dst =>
      cases aimed
      rfl
  | dropped | closed => cases aimed

theorem sent_sublist {good : Packet → Bool} {entries : List (Packet × Fate)}
    (sound : ∀ entry ∈ entries, ∀ a, entry.2 = .forwarded a → good entry.1 = true) :
    ((entries.filterMap fun entry =>
      entry.2.destination.map fun dst => (entry.1.bytes, dst)).map Prod.fst).Sublist
      (((entries.map Prod.fst).filter good).map Packet.bytes) := by
  induction entries with
  | nil => exact List.Sublist.refl _
  | cons entry rest ih =>
      have later := ih fun other member => sound other (List.mem_cons_of_mem _ member)
      cases aimed : entry.2.destination with
      | none =>
          rw [List.filterMap_cons_none (by rw [aimed]; rfl), List.map_cons, List.filter_cons]
          split
          · exact later.cons _
          · exact later
      | some a =>
          have kept := sound entry List.mem_cons_self a (forwarded_of_destination aimed)
          rw [List.filterMap_cons_some (by rw [aimed]; rfl), List.map_cons, List.map_cons,
            List.filter_cons_of_pos kept, List.map_cons]
          exact later.cons_cons _

theorem Sound.relays {src : Packet → Bool} {dst : UDPAddr → Prop} {lane : Lane}
    (sound : lane.Sound (src · = true) dst) : lane.Relays src dst where
  aims := by
    intro sent member
    rw [sound.sent_ledger] at member
    obtain ⟨entry, inside, aimed⟩ := List.mem_filterMap.1 member
    obtain ⟨a, destination, rfl⟩ := Option.map_eq_some_iff.1 aimed
    exact (sound.mem_ledger entry inside a (forwarded_of_destination destination)).2.2
  order := by
    obtain ⟨rest, received⟩ := sound.received_ledger
    rw [sound.sent_ledger, received, List.filter_append, List.map_append]
    refine (sent_sublist fun entry member a forwarded => ?_).trans (List.sublist_append_left _ _)
    obtain ⟨source, decodes, _⟩ := sound.mem_ledger entry member a forwarded
    rw [source, decodes]
    rfl
  settled := sound.received
  sent := sound.sent
  left := by
    intro exited
    rw [sound.received, sound.sent, exited]
    simp [RelayPc.busy, RelayPc.flying]
  pkts := sound.pkts.trans lane.length_forwarded
  closed := sound.closed

end Lane

/-- Both directions of an association keep to their ends, and every datagram is accounted for. -/
theorem relay_isolated (allowed : Bytes) (upUDPAddr : UDPAddr)
    (trace : List (Relay × RelayAction)) (s : Relay)
    (exec : Exec (Relay.step (some allowed) upUDPAddr) Relay.init trace s) :
    (∀ entry ∈ trace, ∀ a, entry.1.pin = some a → s.pin = some a) ∧
    (∀ a, s.pin = some a → Net.ipEqual a.ip allowed = true) ∧
    s.client.Relays (fromPinned s.pin) (· = upUDPAddr) ∧
    s.upstream.Relays (fun p => udpAddrEqual p.src upUDPAddr) (s.pin = some ·) ∧
    ∀ reason, s.dropped reason = s.client.drops reason + s.upstream.drops reason := by
  have isolated := Relay.isolated_exec exec
  exact ⟨Relay.pin_kept exec, isolated.pin, isolated.client.relays, isolated.upstream.relays,
    isolated.dropped⟩

/-- A datagram goes each way and one from a foreign address is dropped. -/
theorem relay_isolated_exchange :
    let client : UDPAddr := ⟨[127, 0, 0, 1], 5000, ""⟩
    let upUDPAddr : UDPAddr := ⟨[10, 0, 0, 1], 7000, ""⟩
    let datagram : Bytes := [0, 0, 0, 1, 1, 2, 3, 4, 0, 53, 7]
    ∃ trace s, Exec (Relay.step (some [127, 0, 0, 1]) upUDPAddr) Relay.init trace s ∧
      s.pin = some client ∧ s.client.sent = [(datagram, upUDPAddr)] ∧
      s.upstream.sent = [(datagram, client)] ∧ s.client.drops .foreignClientIP = 1 ∧
      s.client.Relays (fromPinned s.pin) (· = upUDPAddr) ∧ s.client.pkts = 1 ∧
      s.dropped .foreignClientIP = 1 := by
  intro client upUDPAddr datagram
  obtain ⟨trace, s, exec, _, reached⟩ := exec_of_play
    (Relay.step (some [127, 0, 0, 1]) upUDPAddr) Relay.init
    [.client (.receive ⟨client, datagram⟩), .client .go, .client .go, .client .go, .client .go,
      .client (.write .sent), .client .go, .client .go,
      .client (.receive ⟨upUDPAddr, datagram⟩), .client .go,
      .upstream (.receive ⟨upUDPAddr, datagram⟩), .upstream .go, .upstream .go, .upstream .go,
      .upstream (.write .sent), .upstream .go, .upstream .go]
    (fun _ s => decide (s.pin = some client ∧ s.client.sent = [(datagram, upUDPAddr)] ∧
      s.upstream.sent = [(datagram, client)] ∧ s.client.drops .foreignClientIP = 1 ∧
      s.upstream.drops .foreignClientIP = 0 ∧ s.client.pkts = 1))
    (by decide +kernel)
  obtain ⟨pinned, up, down, foreign, none, pkts⟩ := of_decide_eq_true reached
  obtain ⟨_, _, relays, _, dropped⟩ := relay_isolated [127, 0, 0, 1] upUDPAddr trace s exec
  refine ⟨trace, s, exec, pinned, up, down, foreign, relays, pkts, ?_⟩
  rw [dropped, foreign, none]

end S5lb
