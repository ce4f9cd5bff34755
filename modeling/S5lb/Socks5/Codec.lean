import S5lb.Go.Transcript
import S5lb.Socks5.Protocol

/-!
# The request codec

`readRequest` parses what a client sends and `clientRequest` writes what an upstream gets. Both are
compared with `requestBytes`, the request of RFC 1928 over a well-formed address.
-/

namespace S5lb.Socks5

open Go

theorem uint16_putUint16 (port : UInt16) : uint16 (putUint16 port) = port := by
  have bound := port.toNat_lt
  have high : port.toNat / 256 < 256 := by omega
  have low : port.toNat % 256 < 256 := Nat.mod_lt _ (by decide)
  simp only [uint16, putUint16, byteAt, List.getD_cons_zero, List.getD_cons_succ,
    UInt8.toNat_ofNat_of_lt' high, UInt8.toNat_ofNat_of_lt' low, Nat.div_add_mod]
  exact UInt16.ofNat_toNat

theorem putUint16_uint16 {buf : Bytes} (length : buf.length = 2) : putUint16 (uint16 buf) = buf := by
  obtain ⟨high, low, rfl⟩ := List.length_eq_two.1 length
  have highBound := high.toNat_lt
  have lowBound := low.toNat_lt
  have value : (uint16 [high, low]).toNat = 256 * high.toNat + low.toNat :=
    UInt16.toNat_ofNat_of_lt' (show 256 * high.toNat + low.toNat < 65536 by omega)
  have quotient : (256 * high.toNat + low.toNat) / 256 = high.toNat := by omega
  have remainder : (256 * high.toNat + low.toNat) % 256 = low.toNat := by omega
  simp only [putUint16, value, quotient, remainder, UInt8.ofNat_toNat]

inductive Address
  | ipv4 (ip : Bytes) (length : ip.length = 4)
  | ipv6 (ip : Bytes) (length : ip.length = 16)
  | domain (host : Bytes) (nonempty : 0 < host.length) (short : host.length ≤ 255)

namespace Address

def atyp : Address → UInt8
  | ipv4 _ _ => atypIPv4
  | ipv6 _ _ => atypIPv6
  | domain _ _ _ => atypDomain

def raw : Address → Bytes
  | ipv4 ip _ => ip
  | ipv6 ip _ => ip
  | domain host _ _ => UInt8.ofNat host.length :: host

def ip : Address → Option Bytes
  | ipv4 ip _ => some ip
  | ipv6 ip _ => some ip
  | domain _ _ _ => none

def label : Address → Bytes
  | ipv4 ip _ => stringBytes (Net.ipString ip)
  | ipv6 ip _ => stringBytes (Net.ipString ip)
  | domain host _ _ => host

end Address

theorem length_byte {count : UInt8} {host : Bytes} (length : host.length = count.toNat) :
    UInt8.ofNat host.length = count := by
  rw [length, UInt8.ofNat_toNat]

theorem toNat_pos {count : UInt8} (nonzero : count ≠ 0) : 0 < count.toNat := by
  rcases Nat.eq_zero_or_pos count.toNat with zero | positive
  · exact absurd (UInt8.toNat_inj.1 zero) nonzero
  · exact positive

section Parse

variable {ω : Type} [Writer ω] {b rest : Bytes} {w w' : ω}

open Fallible (Yields)

theorem address_of_readAddr {atyp : UInt8} {result : Bytes × Bytes}
    (yields : Yields (readAddr atyp) b w result rest w') :
    ∃ address : Address, address.atyp = atyp ∧ result = (address.raw, address.label) ∧
      b = address.raw ++ rest ∧ w' = w := by
  unfold readAddr at yields
  split at yields
  · rename_i tagged
    obtain ⟨ip, _, rfl, length, returned⟩ := Fallible.yields_receive_bind.1 yields
    obtain ⟨rfl, rfl, rfl⟩ := Fallible.yields_pure.1 returned
    exact ⟨.ipv4 ip length, tagged.symm, rfl, rfl, rfl⟩
  · split at yields
    · rename_i tagged
      obtain ⟨ip, _, rfl, length, returned⟩ := Fallible.yields_receive_bind.1 yields
      obtain ⟨rfl, rfl, rfl⟩ := Fallible.yields_pure.1 returned
      exact ⟨.ipv6 ip length, tagged.symm, rfl, rfl, rfl⟩
    · split at yields
      · rename_i tagged
        obtain ⟨lb, _, rfl, one, counted⟩ := Fallible.yields_receive_bind.1 yields
        obtain ⟨count, rfl⟩ := List.length_eq_one_iff.1 one
        split at counted
        · exact absurd counted Fallible.yields_fail
        · rename_i nonzero
          obtain ⟨host, _, rfl, length, returned⟩ := Fallible.yields_receive_bind.1 counted
          obtain ⟨rfl, rfl, rfl⟩ := Fallible.yields_pure.1 returned
          change host.length = count.toNat at length
          have bound := count.toNat_lt
          have raw : ([count] ++ host : Bytes) = UInt8.ofNat host.length :: host := by
            rw [length_byte length, List.singleton_append]
          refine ⟨.domain host (length ▸ toNat_pos nonzero) (by omega), tagged.symm, ?_, ?_, rfl⟩
          · rw [raw]
            rfl
          · rw [← List.append_assoc, raw]
            rfl
      · exact absurd yields Fallible.yields_fail

theorem readAddr_address (address : Address) :
    Yields (readAddr address.atyp) (address.raw ++ rest) w (address.raw, address.label) rest w := by
  cases address with
  | ipv4 ip length => exact Fallible.yields_receive_bind.2 ⟨ip, rest, rfl, length, rfl⟩
  | ipv6 ip length => exact Fallible.yields_receive_bind.2 ⟨ip, rest, rfl, length, rfl⟩
  | domain host nonempty short =>
      have count : (UInt8.ofNat host.length).toNat = host.length :=
        UInt8.toNat_ofNat_of_lt' (show host.length < 256 by omega)
      have nonzero : UInt8.ofNat host.length ≠ 0 := by
        intro zero
        rw [zero] at count
        exact absurd count (Nat.ne_of_lt nonempty)
      refine Fallible.yields_receive_bind.2 ⟨[UInt8.ofNat host.length], host ++ rest, rfl, rfl, ?_⟩
      rw [if_neg (show byteAt [UInt8.ofNat host.length] 0 ≠ 0 from nonzero)]
      exact Fallible.yields_receive_bind.2 ⟨host, rest, rfl, count.symm, rfl⟩

theorem readAddr_yields {atyp : UInt8} {result : Bytes × Bytes} :
    Yields (readAddr atyp) b w result rest w' ↔
      ∃ address : Address, address.atyp = atyp ∧ result = (address.raw, address.label) ∧
        b = address.raw ++ rest ∧ w' = w := by
  constructor
  · exact address_of_readAddr
  · rintro ⟨address, rfl, rfl, rfl, rfl⟩
    exact readAddr_address address

theorem readDest_yields {atyp : UInt8} {result : Bytes × UInt16 × Bytes} :
    Yields (readDest atyp) b w result rest w' ↔
      ∃ (address : Address) (port : UInt16), address.atyp = atyp ∧
        result = (address.raw, port, address.label) ∧
        b = address.raw ++ putUint16 port ++ rest ∧ w' = w := by
  constructor
  · intro yields
    obtain ⟨_, _, _, parsed, continued⟩ := Fallible.yields_bind.1 yields
    obtain ⟨address, tagged, rfl, rfl, rfl⟩ := readAddr_yields.1 parsed
    obtain ⟨portBuf, _, rfl, length, returned⟩ := Fallible.yields_receive_bind.1 continued
    obtain ⟨rfl, rfl, rfl⟩ := Fallible.yields_pure.1 returned
    exact ⟨address, uint16 portBuf, tagged, rfl,
      by rw [putUint16_uint16 length, List.append_assoc], rfl⟩
  · rintro ⟨address, port, tagged, rfl, rfl, rfl⟩
    refine Fallible.yields_bind.2 ⟨_, putUint16 port ++ rest, w',
      readAddr_yields.2 ⟨address, tagged, rfl, List.append_assoc _ _ _, rfl⟩, ?_⟩
    refine Fallible.yields_receive_bind.2 ⟨_, rest, rfl, rfl, ?_⟩
    exact Fallible.yields_pure.2 ⟨by rw [uint16_putUint16], rfl, rfl⟩

end Parse

def requestBytes (cmd : UInt8) (address : Address) (port : UInt16) : Bytes :=
  [version, cmd, 0x00, address.atyp] ++ address.raw ++ putUint16 port

def Address.request (address : Address) (cmd : UInt8) (port : UInt16) : Request :=
  ⟨cmd, address.atyp, address.raw, port, address.label⟩

theorem readRequest_yields {ω : Type} [Writer ω] {b rest : Bytes} {w w' : ω} {req : Request} :
    Fallible.Yields readRequest b w req rest w' ↔
      ∃ (cmd : UInt8) (address : Address) (port : UInt16),
        (cmd = cmdConnect ∨ cmd = cmdUDPAssociate) ∧ req = address.request cmd port ∧
        b = requestBytes cmd address port ++ rest ∧ w' = w := by
  constructor
  · intro yields
    obtain ⟨hdr, _, _, received, continued⟩ := Fallible.yields_bind.1 yields
    obtain ⟨rfl, length, rfl⟩ := Fallible.yields_receive.1
      ((Fallible.yields_handle fun _ => (Fallible.reports_fail _).fails).1 received)
    obtain ⟨ver, cmd, rsv, atyp, rfl⟩ : ∃ ver cmd rsv atyp, hdr = [ver, cmd, rsv, atyp] := by
      match hdr, length with
      | [ver, cmd, rsv, atyp], _ => exact ⟨ver, cmd, rsv, atyp, rfl⟩
    simp only [byteAt, List.getD_cons_zero, List.getD_cons_succ] at continued
    split at continued
    · exact absurd continued Fallible.yields_fail
    · rename_i sameVersion
      split at continued
      · exact absurd continued Fallible.yields_refuse
      · rename_i reserved
        split at continued
        · exact absurd continued Fallible.yields_refuse
        · rename_i supported
          obtain ⟨_, _, _, parsed, returned⟩ := Fallible.yields_bind.1 continued
          obtain ⟨address, port, rfl, rfl, rfl, rfl⟩ := readDest_yields.1
            ((Fallible.yields_handle fun _ => (Fallible.reports_refuse _ _).fails).1 parsed)
          obtain ⟨rfl, rfl, rfl⟩ := Fallible.yields_pure.1 returned
          have known : cmd = cmdConnect ∨ cmd = cmdUDPAssociate := by
            by_contra neither
            exact supported (not_or.1 neither)
          refine ⟨cmd, address, port, known, rfl, ?_, rfl⟩
          rw [not_not.1 sameVersion, not_not.1 reserved]
          simp only [requestBytes, List.append_assoc]
  · rintro ⟨cmd, address, port, known, rfl, rfl, rfl⟩
    refine Fallible.yields_bind.2 ⟨[version, cmd, 0x00, address.atyp],
      address.raw ++ putUint16 port ++ rest, w', ?_, ?_⟩
    · refine (Fallible.yields_handle fun _ => (Fallible.reports_fail _).fails).2
        (Fallible.yields_receive.2 ⟨?_, rfl, rfl⟩)
      simp only [requestBytes, List.append_assoc]
    · have supported : ¬(cmd ≠ cmdConnect ∧ cmd ≠ cmdUDPAssociate) := fun neither =>
        known.elim neither.1 neither.2
      simp only [byteAt, List.getD_cons_zero, List.getD_cons_succ, ne_eq, not_true_eq_false,
        if_false, if_neg supported]
      refine Fallible.yields_bind.2 ⟨(address.raw, port, address.label), rest, w', ?_, rfl⟩
      exact (Fallible.yields_handle fun _ => (Fallible.reports_refuse _ _).fails).2
        (readDest_yields.2 ⟨address, port, rfl, rfl, rfl, rfl⟩)

theorem readBind_silent (atyp : UInt8) : Fallible.Silent (readBind atyp) := by
  unfold readBind
  split
  · exact (Fallible.silent_receive _ _).bind fun _ => Fallible.silent_pure _
  · split
    · exact (Fallible.silent_receive _ _).bind fun _ => Fallible.silent_pure _
    · split
      · exact (Fallible.silent_receive _ _).bind fun _ =>
          (Fallible.silent_receive _ _).bind fun _ => Fallible.silent_pure _
      · exact Fallible.silent_fail _

theorem clientRequest_transcript {cmd atyp : UInt8} {rawAddr : Bytes} {port : UInt16}
    {sent : List Bytes} {result : Except String ClientRequestReply}
    (follows : Dialog.Transcript (clientRequest cmd atyp rawAddr port) sent result) :
    sent = [[version, cmd, 0x00, atyp] ++ rawAddr ++ putUint16 port] := by
  rcases Fallible.transcript_bind.1 follows with
    ⟨before, after, _, rfl, first, second⟩ | ⟨e, first, _⟩
  · have silent : after = [] := by
      refine Fallible.Silent.bind (Fallible.silent_receive _ _) (fun hdr => ?_) _ _ second
      split
      · exact Fallible.silent_fail _
      · split
        · exact Fallible.silent_fail _
        · exact (readBind_silent _).bind fun _ =>
            (Fallible.silent_receive _ _).bind fun _ => Fallible.silent_pure _
    rw [(Fallible.transcript_transmit.1 first).1, silent]
    rfl
  · exact (Fallible.transcript_transmit.1 first).1

/-- What an upstream gets is what the client sent, and what is sent to an upstream parses back. -/
theorem readRequest_clientRequest {σ ω : Type} [Stream σ] [Writer ω] (r : σ) (w : ω) :
    (∀ (req : Request) (r' : σ) (w' : ω), Dialog.run readRequest r w = (.ok req, r', w') →
      ∃ b, stream r = b ++ stream r' ∧
        ∀ (sent : List Bytes) (result : Except String ClientRequestReply),
          Dialog.Transcript (clientRequest req.cmd req.atyp req.rawAddr req.port) sent result →
          sent = [b]) ∧
    (∀ (cmd : UInt8) (address : Address) (port : UInt16) (tail : Bytes) (sent : List Bytes)
        (result : Except String ClientRequestReply),
      cmd = cmdConnect ∨ cmd = cmdUDPAssociate →
      Dialog.Transcript (clientRequest cmd address.atyp address.raw port) sent result →
      stream r = sent.flatten ++ tail →
      ∃ (req : Request) (r' : σ), Dialog.run readRequest r w = (.ok req, r', w) ∧
        stream r' = tail ∧ req.cmd = cmd ∧ req.atyp = address.atyp ∧ req.rawAddr = address.raw ∧
        req.port = port ∧ req.dstLabel = address.label) := by
  constructor
  · intro req r' w' accepted
    obtain ⟨cmd, address, port, _, rfl, ahead, _⟩ :=
      readRequest_yields.1 (Fallible.Yields.run.1 ⟨r', accepted, rfl⟩)
    exact ⟨requestBytes cmd address port, ahead, fun sent result follows =>
      clientRequest_transcript follows⟩
  · intro cmd address port tail sent result known follows ahead
    rw [clientRequest_transcript follows, List.flatten_singleton] at ahead
    obtain ⟨r', accepted, left⟩ := Fallible.Yields.run.2
      (readRequest_yields.2 ⟨cmd, address, port, known, rfl, ahead, rfl⟩ :
        Fallible.Yields readRequest (stream r) w (address.request cmd port) tail w)
    exact ⟨address.request cmd port, r', accepted, left, rfl, rfl, rfl, rfl, rfl⟩

theorem readRequest_clientRequest_domain :
    ∃ (req : Request) (r' : Bytes),
      Dialog.run readRequest ([5, 1, 0, 3, 1, 97, 0, 80, 71] : Bytes) Sink.fresh =
        (.ok req, r', Sink.fresh) ∧ r' = [71] ∧ req.rawAddr = [1, 97] := by
  obtain ⟨req, r', accepted, left, _, _, raw, _⟩ :=
    (readRequest_clientRequest ([5, 1, 0, 3, 1, 97, 0, 80, 71] : Bytes) Sink.fresh).2 cmdConnect
      (.domain [97] (by decide) (by decide)) 80 [71] [[5, 1, 0, 3, 1, 97, 0, 80]]
      (.error "write request: EOF") (.inl rfl) (.send (some .eof) (.ret _)) rfl
  exact ⟨req, r', accepted, left, raw⟩

/-! What the server side of the protocol writes. -/

section Server

variable {sent : List Bytes}

theorem readGreeting_transcript {result : Except String Unit}
    (follows : Dialog.Transcript readGreeting sent result) :
    sent = [[version, authNone]] ∨
      (sent = [] ∨ sent = [[version, authNoAccept]]) ∧ ∃ why, result = .error why := by
  rcases Fallible.transcript_bind.1 follows with
    ⟨_, _, hdr, rfl, first, second⟩ | ⟨why, first, failed⟩
  · rw [(Fallible.transcript_receive.1 first).1, List.nil_append]
    split at second
    · obtain ⟨silent, failed⟩ := Fallible.transcript_fail.1 second
      exact .inr ⟨.inl silent, _, failed⟩
    · rcases Fallible.transcript_bind.1 second with
        ⟨_, _, methods, rfl, third, fourth⟩ | ⟨why, third, failed⟩
      · rw [(Fallible.transcript_receive.1 third).1, List.nil_append]
        split at fourth
        · obtain ⟨refused, failed⟩ := Fallible.transcript_refuse.1 fourth
          exact .inr ⟨.inr refused, _, failed⟩
        · exact .inl (Fallible.transcript_transmit.1 fourth).1
      · exact .inr ⟨.inl (Fallible.transcript_receive.1 third).1, why, failed⟩
  · exact .inr ⟨.inl (Fallible.transcript_receive.1 first).1, why, failed⟩

theorem readAddr_silent (atyp : UInt8) : Fallible.Silent (readAddr atyp) := by
  unfold readAddr
  split
  · exact (Fallible.silent_receive _ _).bind fun _ => Fallible.silent_pure _
  · split
    · exact (Fallible.silent_receive _ _).bind fun _ => Fallible.silent_pure _
    · split
      · refine (Fallible.silent_receive _ _).bind fun lb => ?_
        split
        · exact Fallible.silent_fail _
        · exact (Fallible.silent_receive _ _).bind fun _ => Fallible.silent_pure _
      · exact Fallible.silent_fail _

theorem readDest_silent (atyp : UInt8) : Fallible.Silent (readDest atyp) :=
  (readAddr_silent atyp).bind fun _ => (Fallible.silent_receive _ _).bind fun _ =>
    Fallible.silent_pure _

theorem readRequest_transcript {result : Except Refusal Request}
    (follows : Dialog.Transcript readRequest sent result) :
    sent = [] ∨ (∃ rep, sent = [replyBytes rep]) ∧ ∃ refusal, result = .error refusal := by
  have header {sent : List Bytes} {outcome : Except Refusal Bytes}
      (follows : Dialog.Transcript ((Fallible.receive "read request header: " 4).handle fun why =>
        Fallible.fail ⟨0, why⟩) sent outcome) : sent = [] := by
    rcases Fallible.transcript_handle.1 follows with ⟨_, received, _⟩ | ⟨_, _, _, rfl, failed, after⟩
    · exact (Fallible.transcript_receive.1 received).1
    · rw [(Fallible.transcript_receive.1 failed).1, (Fallible.transcript_fail.1 after).1]
      rfl
  rcases Fallible.transcript_bind.1 follows with ⟨_, _, hdr, rfl, first, second⟩ | ⟨_, first, _⟩
  · rw [header first, List.nil_append]
    dsimp only at second
    split at second
    · exact .inl (Fallible.transcript_fail.1 second).1
    split at second
    · obtain ⟨replied, failed⟩ := Fallible.transcript_refuse.1 second
      exact .inr ⟨⟨_, replied⟩, _, failed⟩
    split at second
    · obtain ⟨replied, failed⟩ := Fallible.transcript_refuse.1 second
      exact .inr ⟨⟨_, replied⟩, _, failed⟩
    rcases Fallible.transcript_bind.1 second with
      ⟨_, _, dest, rfl, third, fourth⟩ | ⟨refusal, third, failed⟩
    · rw [(Fallible.transcript_pure.1 fourth).1, List.append_nil]
      rcases Fallible.transcript_handle.1 third with ⟨_, parsed, _⟩ | ⟨_, _, _, rfl, _, after⟩
      · exact .inl (readDest_silent _ _ _ parsed)
      · cases (Fallible.transcript_refuse.1 after).2
    · rcases Fallible.transcript_handle.1 third with ⟨_, _, ok⟩ | ⟨_, _, _, rfl, unread, after⟩
      · cases ok
      · rw [readDest_silent _ _ _ unread, (Fallible.transcript_refuse.1 after).1]
        exact .inr ⟨⟨_, rfl⟩, refusal, failed⟩
  · exact .inl (header first)

def replyMessage (rep : UInt8) (bind : Address) (port : UInt16) : Bytes :=
  [version, rep, 0x00, bind.atyp] ++ bind.raw ++ putUint16 port

theorem replyBytes_message (rep : UInt8) :
    replyBytes rep = replyMessage rep (.ipv4 [0, 0, 0, 0] rfl) 0 :=
  rfl

theorem buildReply_message (rep : UInt8) (bindIP : Bytes) (bindPort : UInt16) :
    ∃ bind port, buildReply rep bindIP bindPort = replyMessage rep bind port := by
  unfold buildReply
  split
  · exact ⟨_, _, replyBytes_message rep⟩
  split
  · rename_i v4 short
    exact ⟨.ipv4 v4 (Net.to4_length short), bindPort, rfl⟩
  split
  · rename_i v6 long
    exact ⟨.ipv6 v6 (Net.to16_length long), bindPort, rfl⟩
  · exact ⟨_, _, replyBytes_message rep⟩

/-- What a server of RFC 1928 may have written before it relays: nothing, that no method is
acceptable, or the method it selects and at most one reply. -/
inductive Served : Bytes → Prop
  | silent : Served []
  | noAcceptable : Served [version, authNoAccept]
  | selected : Served [version, authNone]
  | replied (rep : UInt8) (bind : Address) (port : UInt16) :
      Served ([version, authNone] ++ replyMessage rep bind port)

theorem Served.method {b : Bytes} (served : Served b) :
    b = [] ∨ b[1]? = some authNoAccept ∨ b[1]? = some authNone := by
  cases served with
  | silent => exact .inl rfl
  | noAcceptable => exact .inr (.inl rfl)
  | selected => exact .inr (.inr rfl)
  | replied rep bind port => exact .inr (.inr rfl)

end Server

end S5lb.Socks5
