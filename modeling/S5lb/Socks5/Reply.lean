import S5lb.Socks5.Codec

/-!
# The reply codec

`buildReply` writes what a client gets and `clientRequest` parses what an upstream answers. Both are
compared with `bindMessage`, the reply of RFC 1928 over a bind address.
-/

namespace S5lb.Socks5

open Go

inductive Bind
  | ipv4 (ip : Bytes) (length : ip.length = 4)
  | ipv6 (ip : Bytes) (length : ip.length = 16)
  | domain (host : Bytes) (short : host.length ≤ 255)

namespace Bind

def atyp : Bind → UInt8
  | ipv4 _ _ => atypIPv4
  | ipv6 _ _ => atypIPv6
  | domain _ _ => atypDomain

def raw : Bind → Bytes
  | ipv4 ip _ => ip
  | ipv6 ip _ => ip
  | domain host _ => UInt8.ofNat host.length :: host

def ip : Bind → Option Bytes
  | ipv4 ip _ => some ip
  | ipv6 ip _ => some ip
  | domain _ _ => none

def host : Bind → Bytes
  | ipv4 _ _ => []
  | ipv6 _ _ => []
  | domain host _ => host

def reply (bind : Bind) (rep : UInt8) (port : UInt16) : ClientRequestReply :=
  ⟨rep, bind.atyp, bind.ip, bind.host, port⟩

end Bind

def bindMessage (rep : UInt8) (bind : Bind) (port : UInt16) : Bytes :=
  [version, rep, 0x00, bind.atyp] ++ bind.raw ++ putUint16 port

section Parse

variable {ω : Type} [Writer ω] {b rest : Bytes} {w w' : ω}

open Fallible (Yields)

theorem bind_of_readBind {atyp : UInt8} {result : Option Bytes × Bytes}
    (yields : Yields (readBind atyp) b w result rest w') :
    ∃ bind : Bind, bind.atyp = atyp ∧ result = (bind.ip, bind.host) ∧ b = bind.raw ++ rest ∧ w' = w := by
  unfold readBind at yields
  split at yields
  · rename_i tagged
    obtain ⟨ip, _, rfl, length, returned⟩ := Fallible.yields_receive_bind.1 yields
    obtain ⟨rfl, rfl, rfl⟩ := Fallible.yields_pure.1 returned
    exact ⟨.ipv4 ip length, tagged.symm, rfl, rfl, rfl⟩
  split at yields
  · rename_i tagged
    obtain ⟨ip, _, rfl, length, returned⟩ := Fallible.yields_receive_bind.1 yields
    obtain ⟨rfl, rfl, rfl⟩ := Fallible.yields_pure.1 returned
    exact ⟨.ipv6 ip length, tagged.symm, rfl, rfl, rfl⟩
  split at yields
  · rename_i tagged
    obtain ⟨lb, _, rfl, one, counted⟩ := Fallible.yields_receive_bind.1 yields
    obtain ⟨count, rfl⟩ := List.length_eq_one_iff.1 one
    obtain ⟨host, _, rfl, length, returned⟩ := Fallible.yields_receive_bind.1 counted
    obtain ⟨rfl, rfl, rfl⟩ := Fallible.yields_pure.1 returned
    change host.length = count.toNat at length
    have bound := count.toNat_lt
    refine ⟨.domain host (by omega), tagged.symm, rfl, ?_, rfl⟩
    change [count] ++ (host ++ rest) = UInt8.ofNat host.length :: host ++ rest
    rw [length_byte length]
    rfl
  · exact absurd yields Fallible.yields_fail

theorem readBind_bind (bind : Bind) :
    Yields (readBind bind.atyp) (bind.raw ++ rest) w (bind.ip, bind.host) rest w := by
  cases bind with
  | ipv4 ip length => exact Fallible.yields_receive_bind.2 ⟨ip, rest, rfl, length, rfl⟩
  | ipv6 ip length => exact Fallible.yields_receive_bind.2 ⟨ip, rest, rfl, length, rfl⟩
  | domain host short =>
      have count : (UInt8.ofNat host.length).toNat = host.length :=
        UInt8.toNat_ofNat_of_lt' (show host.length < 256 by omega)
      refine Fallible.yields_receive_bind.2 ⟨[UInt8.ofNat host.length], host ++ rest, rfl, rfl, ?_⟩
      exact Fallible.yields_receive_bind.2 ⟨host, rest, rfl, count.symm, rfl⟩

theorem clientRequest_yields {cmd atyp : UInt8} {rawAddr : Bytes} {dst : UInt16}
    {reply : ClientRequestReply} :
    Yields (clientRequest cmd atyp rawAddr dst) b w reply rest w' ↔
      (write w ([version, cmd, 0x00, atyp] ++ rawAddr ++ putUint16 dst)).2.1 = none ∧
      w' = (write w ([version, cmd, 0x00, atyp] ++ rawAddr ++ putUint16 dst)).2.2 ∧
      ∃ (rep : UInt8) (bind : Bind) (port : UInt16),
        reply = bind.reply rep port ∧ b = bindMessage rep bind port ++ rest := by
  refine Fallible.yields_transmit_bind.trans (and_congr_right fun _ => ?_)
  generalize (write w ([version, cmd, 0x00, atyp] ++ rawAddr ++ putUint16 dst)).2.2 = w
  constructor
  · intro yields
    obtain ⟨hdr, _, rfl, length, continued⟩ := Fallible.yields_receive_bind.1 yields
    obtain ⟨ver, rep, rsv, tag, rfl⟩ : ∃ ver rep rsv tag, hdr = [ver, rep, rsv, tag] := by
      match hdr, length with
      | [ver, rep, rsv, tag], _ => exact ⟨ver, rep, rsv, tag, rfl⟩
    simp only [byteAt, List.getD_cons_zero, List.getD_cons_succ] at continued
    split at continued
    · exact absurd continued Fallible.yields_fail
    rename_i sameVersion
    split at continued
    · exact absurd continued Fallible.yields_fail
    rename_i reserved
    obtain ⟨_, _, _, parsed, remainder⟩ := Fallible.yields_bind.1 continued
    obtain ⟨bind, rfl, rfl, rfl, rfl⟩ := bind_of_readBind parsed
    obtain ⟨portBuf, _, rfl, length, returned⟩ := Fallible.yields_receive_bind.1 remainder
    obtain ⟨rfl, rfl, rfl⟩ := Fallible.yields_pure.1 returned
    refine ⟨rfl, rep, bind, uint16 portBuf, rfl, ?_⟩
    rw [not_not.1 sameVersion, not_not.1 reserved]
    simp only [bindMessage, putUint16_uint16 length, List.append_assoc]
  · rintro ⟨rfl, rep, bind, port, rfl, rfl⟩
    refine Fallible.yields_receive_bind.2 ⟨[version, rep, 0x00, bind.atyp],
      bind.raw ++ (putUint16 port ++ rest), ?_, rfl, ?_⟩
    · simp only [bindMessage, List.append_assoc]
    simp only [byteAt, List.getD_cons_zero, List.getD_cons_succ, ne_eq, not_true_eq_false, if_false]
    refine Fallible.yields_bind.2 ⟨_, _, _, readBind_bind bind, ?_⟩
    refine Fallible.yields_receive_bind.2 ⟨_, rest, rfl, rfl, ?_⟩
    exact Fallible.yields_pure.2 ⟨by rw [uint16_putUint16]; rfl, rfl, rfl⟩

end Parse

structure Carries (bind : Bind) (port : UInt16) (ip : Bytes) (given : UInt16) : Prop where
  fits : ip.length = 4 ∨ ip.length = 16 →
    (∃ b, bind.ip = some b ∧ Net.ipEqual b ip = true) ∧ port = given
  other : ¬(ip.length = 4 ∨ ip.length = 16) → bind.ip = some [0, 0, 0, 0] ∧ port = 0

theorem carries_nothing {ip : Bytes} (unfit : ¬(ip.length = 4 ∨ ip.length = 16)) (given : UInt16) :
    Carries (.ipv4 [0, 0, 0, 0] rfl) 0 ip given :=
  ⟨fun fits => absurd fits unfit, fun _ => ⟨rfl, rfl⟩⟩

theorem buildReply_bind (rep : UInt8) (ip : Bytes) (given : UInt16) :
    ∃ bind port, buildReply rep ip given = bindMessage rep bind port ∧ Carries bind port ip given := by
  unfold buildReply
  split
  · rename_i none
    subst none
    exact ⟨_, _, rfl, carries_nothing (by decide) given⟩
  cases short : Net.to4 ip with
  | some v4 =>
      refine ⟨.ipv4 v4 (Net.to4_length short), given, rfl, fun _ => ⟨⟨v4, rfl, Net.to4_equal short⟩, rfl⟩,
        fun unfit => ?_⟩
      rw [not_or] at unfit
      simp [Net.to4, unfit] at short
  | none =>
      have not4 : ip.length ≠ 4 := by
        intro four
        simp [Net.to4, four] at short
      by_cases long : ip.length = 16
      · have whole : Net.to16 ip = some ip := by simp [Net.to16, long]
        rw [whole]
        exact ⟨.ipv6 ip long, given, rfl, fun _ => ⟨⟨ip, rfl, Net.ipEqual_self ip⟩, rfl⟩,
          fun unfit => absurd (.inr long) unfit⟩
      · have neither : Net.to16 ip = none := by simp [Net.to16, not4, long]
        rw [neither]
        exact ⟨_, _, rfl, carries_nothing (not_or.2 ⟨not4, long⟩) given⟩

theorem bindMessage_length (rep : UInt8) (bind : Bind) (port : UInt16) :
    (bindMessage rep bind port).length = 4 + bind.raw.length + 2 := by
  simp only [bindMessage, putUint16, List.length_append, List.length_cons, List.length_nil]

/-- What `buildReply` writes is parsed back, and a reply is taken off the stream to its last byte and
no further. -/
theorem clientRequest_buildReply {σ ω : Type} [Stream σ] [Writer ω] (r : σ) (w : ω) (cmd atyp : UInt8)
    (rawAddr : Bytes) (dst : UInt16) :
    (∀ (rep : UInt8) (ip : Bytes) (port : UInt16) (tail : Bytes),
      stream r = buildReply rep ip port ++ tail →
      (write w ([version, cmd, 0x00, atyp] ++ rawAddr ++ putUint16 dst)).2.1 = none →
      ∃ reply r' w', Dialog.run (clientRequest cmd atyp rawAddr dst) r w = (.ok reply, r', w') ∧
        stream r' = tail ∧ reply.rep = rep ∧
        (ip.length = 4 ∨ ip.length = 16 →
          (∃ b, reply.bindIP = some b ∧ Net.ipEqual b ip = true) ∧ reply.bindPort = port) ∧
        (¬(ip.length = 4 ∨ ip.length = 16) →
          reply.bindIP = some [0, 0, 0, 0] ∧ reply.bindPort = 0)) ∧
    ∀ (reply : ClientRequestReply) (r' : σ) (w' : ω),
      Dialog.run (clientRequest cmd atyp rawAddr dst) r w = (.ok reply, r', w') →
      ∃ taken, stream r = taken ++ stream r' ∧
        (reply.bindAtyp = atypIPv4 ∧ taken.length = 4 + 4 + 2 ∨
          reply.bindAtyp = atypIPv6 ∧ taken.length = 4 + 16 + 2 ∨
          reply.bindAtyp = atypDomain ∧ taken.length = 4 + (1 + reply.bindHost.length) + 2) := by
  constructor
  · intro rep ip port tail ahead written
    obtain ⟨bind, port', message, carries⟩ := buildReply_bind rep ip port
    rw [message] at ahead
    obtain ⟨r', accepted, left⟩ := Fallible.Yields.run.2
      (clientRequest_yields.2 ⟨written, rfl, rep, bind, port', rfl, ahead⟩)
    exact ⟨bind.reply rep port', r', _, accepted, left, rfl, carries.fits, carries.other⟩
  · intro reply r' w' accepted
    obtain ⟨-, -, rep, bind, port, rfl, ahead⟩ :=
      clientRequest_yields.1 (Fallible.Yields.run.1 ⟨r', accepted, rfl⟩)
    refine ⟨bindMessage rep bind port, ahead, ?_⟩
    rw [bindMessage_length]
    cases bind with
    | ipv4 ip length => exact .inl ⟨rfl, by rw [Bind.raw, length]⟩
    | ipv6 ip length => exact .inr (.inl ⟨rfl, by rw [Bind.raw, length]⟩)
    | domain host short =>
        refine .inr (.inr ⟨rfl, ?_⟩)
        rw [Bind.raw, List.length_cons, Nat.add_comm host.length]
        rfl

theorem clientRequest_buildReply_mapped :
    ∃ reply r' w', Dialog.run (clientRequest cmdConnect atypIPv4 [10, 0, 0, 1] 80)
        (buildReply 0 (List.replicate 10 0 ++ [255, 255, 192, 0, 2, 1]) 4242 ++ [71, 69]) Sink.fresh =
        (.ok reply, r', w') ∧
      r' = [71, 69] ∧ reply.bindPort = 4242 := by
  obtain ⟨reply, r', w', accepted, left, -, carried, -⟩ :=
    (clientRequest_buildReply (buildReply 0 (List.replicate 10 0 ++ [255, 255, 192, 0, 2, 1]) 4242 ++ [71, 69])
      Sink.fresh cmdConnect atypIPv4 [10, 0, 0, 1] 80).1 0
      (List.replicate 10 0 ++ [255, 255, 192, 0, 2, 1]) 4242 [71, 69] rfl rfl
  exact ⟨reply, r', w', accepted, left, (carried (.inr rfl)).2⟩

end S5lb.Socks5
