import S5lb.Balancer.UdpRelay

/-!
# The pinned client

The client's loop pins the source of a datagram before it looks at the contents, so the pin is the
source of the first datagram with the client's IP, whatever is in it.
-/

namespace S5lb

open Go Socks5 Transition

namespace Packet

def passes (allowedClientIP : Option Bytes) (p : Packet) : Bool :=
  allowedClientIP.all fun ip => Net.ipEqual p.src.ip ip

def valid (allowedClientIP : Option Bytes) (p : Packet) : Bool :=
  p.passes allowedClientIP && p.decodable

theorem passes_eq_false {allowedClientIP : Option Bytes} {p : Packet} :
    p.passes allowedClientIP = false ↔
      (allowedClientIP.any fun ip => !Net.ipEqual p.src.ip ip) = true := by
  cases allowedClientIP <;> simp [passes]

end Packet

def Lane.judged (lane : Lane) : List Packet :=
  match lane.pc with
  | .received _ | .allowed _ | .unpinned _ => lane.received.dropLast
  | _ => lane.received

def firstSource (test : Packet → Bool) (ps : List Packet) : Option UDPAddr :=
  (ps.find? test).map Packet.src

theorem firstSource_snoc (test : Packet → Bool) (ps : List Packet) (p : Packet) :
    firstSource test (ps ++ [p]) =
      (firstSource test ps).or (if test p = true then some p.src else none) := by
  unfold firstSource
  rw [List.find?_append, List.find?_singleton]
  cases ps.find? test with
  | some q => rfl
  | none => cases test p <;> rfl

theorem find?_valid {allowedClientIP : Option Bytes} {ps : List Packet}
    (decodes : ∀ p, ps.find? (Packet.passes allowedClientIP) = some p → p.decodable = true) :
    ps.find? (Packet.valid allowedClientIP) = ps.find? (Packet.passes allowedClientIP) := by
  induction ps with
  | nil => rfl
  | cons p rest ih =>
      rw [List.find?_cons, List.find?_cons]
      cases passes : p.passes allowedClientIP with
      | true =>
          have first := decodes p (List.find?_cons_of_pos passes)
          rw [Packet.valid, passes, first]
          rfl
      | false =>
          rw [Packet.valid, passes]
          apply ih
          intro q found
          apply decodes q
          rw [List.find?_cons, passes]
          exact found

namespace Relay

variable {allowedClientIP : Option Bytes} {upUDPAddr : UDPAddr}

def PinsValid (allowedClientIP : Option Bytes) (s : Relay) : Prop :=
  s.pin = firstSource (Packet.valid allowedClientIP) s.client.judged

def Looking (allowedClientIP : Option Bytes) (pin : Option UDPAddr) (lane : Lane) : Prop :=
  match lane.pc with
  | .received p => lane.received = lane.judged ++ [p]
  | .allowed p => lane.received = lane.judged ++ [p] ∧ p.passes allowedClientIP = true
  | .unpinned p => lane.received = lane.judged ++ [p] ∧ p.passes allowedClientIP = true ∧ pin = none
  | _ => lane.received = lane.judged

structure Screened (allowedClientIP : Option Bytes) (s : Relay) : Prop where
  pin : s.pin = firstSource (Packet.passes allowedClientIP) s.client.judged
  looking : Looking allowedClientIP s.pin s.client

theorem looking_io {pin : Option UDPAddr} {lane lane' : Lane} {reason : Option DropReason}
    {writeErr : DropReason} {e : LaneEvent} (stepped : lane.io writeErr e = some (lane', reason)) :
    Looking allowedClientIP pin lane' ∧ lane'.judged = lane.judged := by
  unfold Lane.io at stepped
  split at stepped <;> cases stepped <;> rename_i here <;>
    simp [Looking, Lane.judged, here]

theorem judged_client {pin pin' : Option UDPAddr} {lane lane' : Lane} {reason : Option DropReason}
    {e : LaneEvent} (looking : Looking allowedClientIP pin lane)
    (stepped : udpClientToUpstream allowedClientIP upUDPAddr pin lane e = some (pin', lane', reason)) :
    Looking allowedClientIP pin' lane' ∧
      (pin' = pin ∧ lane'.judged = lane.judged ∨
        ∃ p, lane'.judged = lane.judged ++ [p] ∧
          pin' = pin.or (if p.passes allowedClientIP = true then some p.src else none)) := by
  unfold udpClientToUpstream at stepped
  split at stepped
  · rename_i p here
    rw [Looking, here] at looking
    split at stepped <;> cases stepped
    · rename_i foreign
      rw [← Packet.passes_eq_false] at foreign
      refine ⟨rfl, .inr ⟨p, looking, ?_⟩⟩
      rw [foreign]
      exact (Option.or_none).symm
    · rename_i native
      rw [← Packet.passes_eq_false, Bool.not_eq_false] at native
      have kept : (lane.goto (.allowed p)).1.judged = lane.judged := by
        simp [Lane.judged, Lane.goto, here]
      exact ⟨⟨kept ▸ looking, native⟩, .inl ⟨rfl, kept⟩⟩
  · rename_i p here
    rw [Looking, here] at looking
    obtain ⟨held, passes⟩ := looking
    split at stepped
    · cases stepped
      have kept : (lane.goto (.unpinned p)).1.judged = lane.judged := by
        simp [Lane.judged, Lane.goto, here]
      exact ⟨⟨kept ▸ held, passes, rfl⟩, .inl ⟨rfl, kept⟩⟩
    · split at stepped <;> cases stepped
      · exact ⟨rfl, .inr ⟨p, held, rfl⟩⟩
      · exact ⟨rfl, .inr ⟨p, held, rfl⟩⟩
  · rename_i p here
    rw [Looking, here] at looking
    obtain ⟨held, passes, unpinned⟩ := looking
    cases stepped
    refine ⟨rfl, .inr ⟨p, held, ?_⟩⟩
    rw [unpinned, if_pos passes]
    rfl
  · rename_i p here
    rw [Looking, here] at looking
    split at stepped
    · cases stepped
    · cases stepped
      exact ⟨rfl, .inl ⟨rfl, looking⟩⟩
    · cases stepped
      exact ⟨rfl, .inl ⟨rfl, looking⟩⟩
  · obtain ⟨⟨lane'', reason'⟩, moved, same⟩ := Option.map_eq_some_iff.1 stepped
    cases same
    obtain ⟨still, kept⟩ := @looking_io allowedClientIP pin _ _ _ _ _ moved
    exact ⟨still, .inl ⟨rfl, kept⟩⟩

inductive Judges (allowedClientIP : Option Bytes) (s s' : Relay) : Prop
  | nothing (pin : s'.pin = s.pin) (judged : s'.client.judged = s.client.judged)
  | datagram (p : Packet) (judged : s'.client.judged = s.client.judged ++ [p])
      (pin : s'.pin = s.pin.or (if p.passes allowedClientIP = true then some p.src else none))

theorem screened_step {s s' : Relay} {a : RelayAction} (screened : Screened allowedClientIP s)
    (taken : s.step allowedClientIP upUDPAddr a = some s') :
    Screened allowedClientIP s' ∧ Judges allowedClientIP s s' := by
  cases a with
  | client e =>
      obtain ⟨⟨pin, lane, reason⟩, stepped, rfl⟩ := Option.map_eq_some_iff.1 taken
      obtain ⟨looking, same | ⟨p, judged, pinned⟩⟩ := judged_client screened.looking stepped
      · refine ⟨⟨?_, looking⟩, .nothing same.1 same.2⟩
        dsimp only
        rw [same.1, same.2, screened.pin]
      · refine ⟨⟨?_, looking⟩, .datagram p judged pinned⟩
        dsimp only
        rw [pinned, judged, firstSource_snoc, screened.pin]
  | upstream e =>
      obtain ⟨⟨lane, reason⟩, stepped, rfl⟩ := Option.map_eq_some_iff.1 taken
      exact ⟨⟨screened.pin, screened.looking⟩, .nothing rfl rfl⟩

theorem screened_exec {trace : List (Relay × RelayAction)} {s : Relay}
    (exec : Exec (step allowedClientIP upUDPAddr) init trace s) : Screened allowedClientIP s :=
  exec.stable ⟨rfl, rfl⟩ fun _ _ _ screened taken => (screened_step screened taken).1

theorem Judges.first {s s' : Relay} (judges : Judges allowedClientIP s s') {p : Packet}
    (first : s.client.judged.find? (Packet.passes allowedClientIP) = some p) :
    s'.client.judged.find? (Packet.passes allowedClientIP) = some p := by
  cases judges with
  | nothing _ judged => rwa [judged]
  | datagram q judged _ => rw [judged, List.find?_append, first, Option.some_or]

theorem firstSource_valid {ps : List Packet}
    (decodes : ∀ p, ps.find? (Packet.passes allowedClientIP) = some p → p.decodable = true) :
    firstSource (Packet.valid allowedClientIP) ps =
      firstSource (Packet.passes allowedClientIP) ps := by
  rw [firstSource, firstSource, find?_valid decodes]

theorem Judges.decodes {s s' : Relay} (judges : Judges allowedClientIP s s')
    (screened : Screened allowedClientIP s') (pins : PinsValid allowedClientIP s') {p : Packet}
    (fresh : s.client.judged.find? (Packet.passes allowedClientIP) = none)
    (first : s'.client.judged.find? (Packet.passes allowedClientIP) = some p) :
    p.decodable = true := by
  cases judges with
  | nothing _ judged =>
      rw [judged, fresh] at first
      cases first
  | datagram q judged _ =>
      have pinned : s'.pin = some p.src := by
        rw [screened.pin, firstSource, first]
        rfl
      rw [judged, List.find?_append, fresh, Option.none_or, List.find?_singleton] at first
      have early : s.client.judged.find? (Packet.valid allowedClientIP) = none := by
        rw [find?_valid (by simp [fresh])]
        exact fresh
      rw [PinsValid, judged, firstSource_snoc, firstSource, early] at pins
      split at first
      · cases first
        by_contra corrupt
        rw [pinned] at pins
        simp [Packet.valid, corrupt] at pins
      · cases first

/-- A datagram from the client's IP that does not decode is pinned if it comes first, and then nobody
else is: the pin is that of a valid datagram throughout exactly if the first datagram from the
client's IP is valid. -/
theorem pins_valid_iff (allowedClientIP : Option Bytes) (upUDPAddr : UDPAddr)
    (trace : List (Relay × RelayAction)) (s : Relay)
    (exec : Exec (step allowedClientIP upUDPAddr) init trace s) :
    (∀ entry ∈ trace, PinsValid allowedClientIP entry.1) ∧ PinsValid allowedClientIP s ↔
      ∀ p, s.client.judged.find? (Packet.passes allowedClientIP) = some p → p.decodable = true := by
  induction exec with
  | nil => simp [PinsValid, init, Lane.fresh, Lane.judged, firstSource]
  | @snoc trace t action t' before taken ih =>
      have screened := screened_exec before
      obtain ⟨screened', judges⟩ := screened_step screened taken
      constructor
      · rintro ⟨past, now⟩ p first
        cases earlier : t.client.judged.find? (Packet.passes allowedClientIP) with
        | none => exact judges.decodes screened' now earlier first
        | some q =>
            have same := judges.first earlier
            rw [first] at same
            cases same
            apply ih.1 ⟨fun entry member => past entry (List.mem_append_left _ member), ?_⟩ p earlier
            exact past (t, action) (List.mem_append_right _ (List.mem_singleton_self _))
      · intro decodes
        have before' := ih.2 fun p first => decodes p (judges.first first)
        constructor
        · intro entry member
          rcases List.mem_append.1 member with old | new
          · exact before'.1 entry old
          · rw [List.mem_singleton.1 new]
            exact before'.2
        · rw [PinsValid, firstSource_valid decodes]
          exact screened'.pin

/-- Junk from a foreign address, then a datagram of the client. -/
theorem pins_valid_iff_foreign_junk :
    let client : UDPAddr := ⟨[127, 0, 0, 1], 5000, ""⟩
    let stranger : UDPAddr := ⟨[10, 0, 0, 1], 7000, ""⟩
    let datagram : Bytes := [0, 0, 0, 1, 1, 2, 3, 4, 0, 53, 7]
    ∃ trace s, Exec (step (some [127, 0, 0, 1]) stranger) init trace s ∧
      s.client.judged = [⟨stranger, []⟩, ⟨client, datagram⟩] ∧ s.pin = some client ∧
      PinsValid (some [127, 0, 0, 1]) s := by
  intro client stranger datagram
  obtain ⟨trace, s, exec, _, reached⟩ := exec_of_play (step (some [127, 0, 0, 1]) stranger) init
    [.client (.receive ⟨stranger, []⟩), .client .go, .client (.receive ⟨client, datagram⟩),
      .client .go, .client .go, .client .go, .client .go]
    (fun _ s => decide (s.pin = some client ∧
      s.client.judged = [⟨stranger, []⟩, ⟨client, datagram⟩]))
    (by decide +kernel)
  obtain ⟨pinned, judged⟩ := of_decide_eq_true reached
  refine ⟨trace, s, exec, judged, pinned, ((pins_valid_iff _ stranger trace s exec).2 ?_).2⟩
  rw [judged]
  decide +kernel

/-- An empty datagram from another port of the client's host comes first. The client's own datagram
is then dropped as foreign. -/
theorem junk_locks_client_out :
    let client : UDPAddr := ⟨[127, 0, 0, 1], 5000, ""⟩
    let other : UDPAddr := ⟨[127, 0, 0, 1], 6000, ""⟩
    let upUDPAddr : UDPAddr := ⟨[10, 0, 0, 1], 7000, ""⟩
    let datagram : Bytes := [0, 0, 0, 1, 1, 2, 3, 4, 0, 53, 7]
    ∃ trace s, Exec (step (some [127, 0, 0, 1]) upUDPAddr) init trace s ∧ s.client.pc = .top ∧
      s.client.received = [⟨other, []⟩, ⟨client, datagram⟩] ∧
      firstSource (Packet.valid (some [127, 0, 0, 1])) s.client.judged = some client ∧
      s.pin = some other ∧
      s.client.log = [(⟨other, []⟩, .dropped .decodeErrClient),
        (⟨client, datagram⟩, .dropped .foreignSrc)] := by
  intro client other upUDPAddr datagram
  obtain ⟨trace, s, exec, _, reached⟩ := exec_of_play (step (some [127, 0, 0, 1]) upUDPAddr) init
    [.client (.receive ⟨other, []⟩), .client .go, .client .go, .client .go, .client .go,
      .client (.receive ⟨client, datagram⟩), .client .go, .client .go]
    (fun _ s => decide (s.client.pc = .top ∧
      s.client.received = [⟨other, []⟩, ⟨client, datagram⟩] ∧
      firstSource (Packet.valid (some [127, 0, 0, 1])) s.client.judged = some client ∧
      s.pin = some other ∧
      s.client.log = [(⟨other, []⟩, .dropped .decodeErrClient),
        (⟨client, datagram⟩, .dropped .foreignSrc)]))
    (by decide +kernel)
  exact ⟨trace, s, exec, of_decide_eq_true reached⟩

end Relay

end S5lb
