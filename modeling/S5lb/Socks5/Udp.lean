import S5lb.Socks5.Codec

namespace Go

/-- An index expression; out of range it stops the program, as does `slice`. -/
def index (b : Bytes) (i : Nat) : Option UInt8 := b[i]?

def slice (b : Bytes) (lo hi : Nat) : Option Bytes :=
  if lo ≤ hi ∧ hi ≤ b.length then some ((b.take hi).drop lo) else none

theorem slice_append (before part after : Bytes) {lo hi : Nat} (low : lo = before.length)
    (high : hi = lo + part.length) : slice (before ++ part ++ after) lo hi = some part := by
  subst low high
  have bounds : before.length ≤ before.length + part.length ∧
      before.length + part.length ≤ (before ++ part ++ after).length := by
    simp only [List.length_append]
    omega
  rw [slice, if_pos bounds, ← List.length_append, List.take_left, List.drop_left]

theorem bind_some {α β ε : Type} {x : Option α} {a : α} (found : x = some a)
    (f : α → ExceptT ε Option β) : ((x : ExceptT ε Option α) >>= f) = f a := by
  subst found
  rfl

end Go

namespace S5lb.Socks5

open Go

structure UDPDatagram where
  frag : UInt8
  atyp : UInt8
  dstHost : Bytes
  dstIP : Option Bytes
  dstPort : UInt16
  data : Bytes
  headerLen : Nat
  deriving DecidableEq

def decodeAddr (pkt : Bytes) (atyp : UInt8) : ExceptT String Option (Option Bytes × Bytes × Nat) :=
  if atyp = atypIPv4 then
    if pkt.length < 4 + 4 + 2 then throw "udp ipv4 truncated"
    else do
      let ip ← slice pkt 4 (4 + 4)
      pure (some ip, stringBytes (Net.ipString ip), 4 + 4)
  else if atyp = atypIPv6 then
    if pkt.length < 4 + 16 + 2 then throw "udp ipv6 truncated"
    else do
      let ip ← slice pkt 4 (4 + 16)
      pure (some ip, stringBytes (Net.ipString ip), 4 + 16)
  else if atyp = atypDomain then
    if pkt.length < 4 + 1 then throw "udp domain length truncated"
    else do
      let dl ← index pkt 4
      if dl.toNat = 0 then throw "udp empty domain"
      else if pkt.length < 5 + dl.toNat + 2 then throw "udp domain truncated"
      else
        let host ← slice pkt 5 (5 + dl.toNat)
        pure (none, host, 5 + dl.toNat)
  else throw ("udp bad atyp " ++ hex02 atyp)

/-- The outer `none` is a run-time panic. -/
def decodeUDPDatagram (pkt : Bytes) : ExceptT String Option UDPDatagram :=
  if pkt.length < 10 then throw "udp datagram too short"
  else do
    let rsv₀ ← index pkt 0
    let rsv₁ ← index pkt 1
    if rsv₀ ≠ 0x00 ∨ rsv₁ ≠ 0x00 then throw "udp rsv nonzero"
    else
      let frag ← index pkt 2
      let atyp ← index pkt 3
      if frag ≠ 0 then
        throw ("udp fragmentation not supported (frag=" ++ toString frag.toNat ++ ")")
      else
        let (dstIP, dstHost, off) ← decodeAddr pkt atyp
        let port ← slice pkt off (off + 2)
        let data ← slice pkt (off + 2) pkt.length
        pure { frag, atyp, dstHost, dstIP, dstPort := uint16 port, data, headerLen := off + 2 }

def encodeAddr (dstIP : Option Bytes) (dstHost : Bytes) : Except String (UInt8 × Bytes) :=
  match dstIP with
  | some ip =>
      match Net.to4 ip, Net.to16 ip with
      | some v4, _ => .ok (atypIPv4, v4)
      | none, some v6 => .ok (atypIPv6, v6)
      | none, none => .error "udp encode: invalid destination IP"
  | none =>
      if dstHost ≠ [] then
        if 255 < dstHost.length then .error "udp domain too long"
        else .ok (atypDomain, UInt8.ofNat dstHost.length :: dstHost)
      else .error "udp encode: no destination"

def encodeUDPDatagram (dstIP : Option Bytes) (dstHost : Bytes) (dstPort : UInt16) (data : Bytes) :
    Except String Bytes :=
  match encodeAddr dstIP dstHost with
  | .error why => .error why
  | .ok (atyp, addrBytes) =>
      .ok ([0x00, 0x00, 0x00, atyp] ++ addrBytes ++ putUint16 dstPort ++ data)

namespace Address

def header (address : Address) (port : UInt16) : Bytes :=
  [0x00, 0x00, 0x00, address.atyp] ++ address.raw ++ putUint16 port

def datagram (address : Address) (port : UInt16) (data : Bytes) : UDPDatagram where
  frag := 0
  atyp := address.atyp
  dstHost := address.label
  dstIP := address.ip
  dstPort := port
  data := data
  headerLen := (address.header port).length

theorem length_header (address : Address) (port : UInt16) :
    (address.header port).length = 4 + address.raw.length + 2 := by
  simp only [header, List.length_append]
  rfl

end Address

theorem decodeAddr_ipv4 {pkt ip : Bytes} (room : 4 + 4 + 2 ≤ pkt.length)
    (cut : slice pkt 4 (4 + 4) = some ip) :
    decodeAddr pkt atypIPv4 = pure (some ip, stringBytes (Net.ipString ip), 4 + 4) := by
  rw [decodeAddr, if_pos rfl, if_neg (Nat.not_lt.2 room), bind_some cut]

theorem decodeAddr_ipv6 {pkt ip : Bytes} (room : 4 + 16 + 2 ≤ pkt.length)
    (cut : slice pkt 4 (4 + 16) = some ip) :
    decodeAddr pkt atypIPv6 = pure (some ip, stringBytes (Net.ipString ip), 4 + 16) := by
  rw [decodeAddr, if_neg (by decide), if_pos rfl, if_neg (Nat.not_lt.2 room), bind_some cut]

theorem decodeAddr_domain {pkt host : Bytes} {dl : UInt8} (counted : index pkt 4 = some dl)
    (positive : 0 < dl.toNat) (room : 5 + dl.toNat + 2 ≤ pkt.length)
    (cut : slice pkt 5 (5 + dl.toNat) = some host) :
    decodeAddr pkt atypDomain = pure (none, host, 5 + dl.toNat) := by
  rw [decodeAddr, if_neg (by decide), if_neg (by decide), if_pos rfl,
    if_neg (Nat.not_lt.2 (by omega)), bind_some counted, if_neg (by omega),
    if_neg (Nat.not_lt.2 room), bind_some cut]

theorem decodeAddr_header (address : Address) (port : UInt16) (data : Bytes) :
    decodeAddr (address.header port ++ data) address.atyp =
      pure (address.ip, address.label, 4 + address.raw.length) := by
  have room : 4 + address.raw.length + 2 ≤ (address.header port ++ data).length := by
    rw [List.length_append, address.length_header]
    omega
  have cut : slice (address.header port ++ data) 4 (4 + address.raw.length) = some address.raw := by
    rw [Address.header, List.append_assoc _ (putUint16 port)]
    exact slice_append _ _ _ rfl rfl
  cases address with
  | ipv4 ip length =>
      simp only [Address.raw, length] at room cut ⊢
      exact decodeAddr_ipv4 room cut
  | ipv6 ip length =>
      simp only [Address.raw, length] at room cut ⊢
      exact decodeAddr_ipv6 room cut
  | domain host nonempty short =>
      have count : (UInt8.ofNat host.length).toNat = host.length :=
        UInt8.toNat_ofNat_of_lt' (show host.length < 256 by omega)
      have counted : index ((Address.domain host nonempty short).header port ++ data) 4 =
          some (UInt8.ofNat host.length) := rfl
      have hostCut : slice ((Address.domain host nonempty short).header port ++ data) 5
          (5 + (UInt8.ofNat host.length).toNat) = some host := by
        change slice ([0x00, 0x00, 0x00, atypDomain, UInt8.ofNat host.length] ++ host ++
          putUint16 port ++ data) _ _ = _
        rw [count, List.append_assoc _ (putUint16 port)]
        exact slice_append _ _ _ rfl rfl
      simp only [Address.raw, List.length_cons] at room ⊢
      refine (decodeAddr_domain counted (by omega) (by omega) hostCut).trans ?_
      rw [count, show 5 + host.length = 4 + (host.length + 1) by omega]
      rfl

theorem decode_header (address : Address) (port : UInt16) (data : Bytes)
    (minimum : 10 ≤ (address.header port ++ data).length) :
    decodeUDPDatagram (address.header port ++ data) = pure (address.datagram port data) := by
  have rsv₀ : index (address.header port ++ data) 0 = some 0 := rfl
  have rsv₁ : index (address.header port ++ data) 1 = some 0 := rfl
  have frag : index (address.header port ++ data) 2 = some 0 := rfl
  have atyp : index (address.header port ++ data) 3 = some address.atyp := rfl
  have portCut : slice (address.header port ++ data) (4 + address.raw.length)
      (4 + address.raw.length + 2) = some (putUint16 port) :=
    slice_append _ _ _ (by simp only [List.length_append]; rfl) rfl
  have dataCut : slice (address.header port ++ data) (4 + address.raw.length + 2)
      (address.header port ++ data).length = some data := by
    conv => lhs; arg 1; rw [← List.append_nil (address.header port ++ data)]
    exact slice_append _ _ _ (address.length_header port).symm
      (by rw [List.length_append, address.length_header])
  rw [decodeUDPDatagram, if_neg (Nat.not_lt.2 minimum), bind_some rsv₀, bind_some rsv₁,
    if_neg (by decide), bind_some frag, bind_some atyp, if_neg (by decide),
    decodeAddr_header address port data, pure_bind]
  dsimp only
  rw [bind_some portCut, bind_some dataCut, uint16_putUint16, Address.datagram, address.length_header]

theorem split_bytes (rest : Bytes) (n : Nat) (room : n + 2 ≤ rest.length) :
    ∃ (raw : Bytes) (port : UInt16) (data : Bytes), raw.length = n ∧
      rest = raw ++ putUint16 port ++ data := by
  refine ⟨rest.take n, uint16 ((rest.drop n).take 2), (rest.drop n).drop 2,
    List.length_take_of_le (by omega), ?_⟩
  rw [putUint16_uint16 (List.length_take_of_le (by rw [List.length_drop]; omega)),
    List.append_assoc, List.take_append_drop, List.take_append_drop]

theorem decodeAddr_cases (rsv₀ rsv₁ frag atyp : UInt8) (rest : Bytes) :
    (∃ why, decodeAddr (rsv₀ :: rsv₁ :: frag :: atyp :: rest) atyp = throw why) ∨
      ∃ (address : Address) (port : UInt16) (data : Bytes), address.atyp = atyp ∧
        rest = address.raw ++ putUint16 port ++ data := by
  unfold decodeAddr
  split
  · rename_i tagged
    split
    · exact .inl ⟨_, rfl⟩
    · rename_i room
      simp only [List.length_cons] at room
      obtain ⟨ip, port, data, length, rfl⟩ := split_bytes rest 4 (by omega)
      exact .inr ⟨.ipv4 ip length, port, data, tagged.symm, rfl⟩
  · split
    · rename_i tagged
      split
      · exact .inl ⟨_, rfl⟩
      · rename_i room
        simp only [List.length_cons] at room
        obtain ⟨ip, port, data, length, rfl⟩ := split_bytes rest 16 (by omega)
        exact .inr ⟨.ipv6 ip length, port, data, tagged.symm, rfl⟩
    · split
      · rename_i tagged
        cases rest with
        | nil => exact .inl ⟨_, rfl⟩
        | cons dl rest =>
            have counted : index (rsv₀ :: rsv₁ :: frag :: atyp :: dl :: rest) 4 = some dl := rfl
            rw [if_neg (by simp only [List.length_cons]; omega), bind_some counted]
            by_cases zero : dl.toNat = 0
            · exact .inl ⟨_, by rw [if_pos zero]⟩
            · rw [if_neg zero]
              split
              · exact .inl ⟨_, rfl⟩
              · rename_i room
                simp only [List.length_cons] at room
                obtain ⟨host, port, data, length, rfl⟩ :=
                  split_bytes rest dl.toNat (by omega)
                have bound := dl.toNat_lt
                refine .inr ⟨.domain host (by omega) (by omega), port, data, tagged.symm, ?_⟩
                rw [Address.raw, length_byte length]
                rfl
      · exact .inl ⟨_, rfl⟩

theorem decode_cases (pkt : Bytes) :
    (∃ why, decodeUDPDatagram pkt = throw why) ∨
      ∃ (address : Address) (port : UInt16) (data : Bytes), pkt = address.header port ++ data ∧
        10 ≤ pkt.length := by
  by_cases minimum : pkt.length < 10
  · exact .inl ⟨_, by rw [decodeUDPDatagram, if_pos minimum]⟩
  obtain ⟨rsv₀, rsv₁, frag, atyp, rest, rfl⟩ :
      ∃ rsv₀ rsv₁ frag atyp rest, pkt = rsv₀ :: rsv₁ :: frag :: atyp :: rest := by
    match pkt, minimum with
    | rsv₀ :: rsv₁ :: frag :: atyp :: rest, _ => exact ⟨rsv₀, rsv₁, frag, atyp, rest, rfl⟩
    | [], short | [_], short | [_, _], short | [_, _, _], short => exact absurd (by simp) short
  have index₀ : index (rsv₀ :: rsv₁ :: frag :: atyp :: rest) 0 = some rsv₀ := rfl
  have index₁ : index (rsv₀ :: rsv₁ :: frag :: atyp :: rest) 1 = some rsv₁ := rfl
  have index₂ : index (rsv₀ :: rsv₁ :: frag :: atyp :: rest) 2 = some frag := rfl
  have index₃ : index (rsv₀ :: rsv₁ :: frag :: atyp :: rest) 3 = some atyp := rfl
  rw [decodeUDPDatagram, if_neg minimum, bind_some index₀, bind_some index₁]
  by_cases reserved : rsv₀ ≠ 0x00 ∨ rsv₁ ≠ 0x00
  · exact .inl ⟨_, by rw [if_pos reserved]⟩
  rw [if_neg reserved, bind_some index₂, bind_some index₃]
  by_cases fragmented : frag ≠ 0
  · exact .inl ⟨_, by rw [if_pos fragmented]⟩
  rw [if_neg fragmented]
  rcases decodeAddr_cases rsv₀ rsv₁ frag atyp rest with
    ⟨why, failed⟩ | ⟨address, port, data, rfl, rfl⟩
  · exact .inl ⟨why, by rw [failed]; rfl⟩
  · obtain ⟨zero₀, zero₁⟩ := not_or.1 reserved
    refine .inr ⟨address, port, data, ?_, Nat.not_lt.1 minimum⟩
    rw [not_not.1 zero₀, not_not.1 zero₁, not_not.1 fragmented]
    simp only [Address.header, List.append_assoc]
    rfl

def Destination (dstIP : Option Bytes) (dstHost : Bytes) : Prop :=
  match dstIP with
  | some ip => ip.length = 4 ∨ ip.length = 16
  | none => 0 < dstHost.length ∧ dstHost.length ≤ 255

namespace UDPDatagram

def Reaches (dg : UDPDatagram) (dstIP : Option Bytes) (dstHost : Bytes) : Prop :=
  match dstIP with
  | some ip => ∃ found, dg.dstIP = some found ∧ Net.ipEqual found ip = true
  | none => dg.dstIP = none ∧ dg.dstHost = dstHost

def Mapped (dg : UDPDatagram) : Prop :=
  dg.atyp = atypIPv6 ∧ ∃ ip, dg.dstIP = some ip ∧ ip.take 12 = List.replicate 10 0 ++ [255, 255]

end UDPDatagram

theorem encode_short {ip v4 host : Bytes} (short : Net.to4 ip = some v4) (length : v4.length = 4)
    (port : UInt16) (data : Bytes) :
    encodeUDPDatagram (some ip) host port data = .ok ((Address.ipv4 v4 length).header port ++ data) := by
  simp only [encodeUDPDatagram, encodeAddr, short]
  rfl

theorem encode_long {ip host : Bytes} (long : Net.to4 ip = none) (length : ip.length = 16)
    (port : UInt16) (data : Bytes) :
    encodeUDPDatagram (some ip) host port data = .ok ((Address.ipv6 ip length).header port ++ data) := by
  have whole : Net.to16 ip = some ip := by rw [Net.to16, if_neg (by omega), if_pos length]
  simp only [encodeUDPDatagram, encodeAddr, long, whole]
  rfl

theorem encode_host {host : Bytes} (nonempty : 0 < host.length) (bound : host.length ≤ 255)
    (port : UInt16) (data : Bytes) :
    encodeUDPDatagram none host port data =
      .ok ((Address.domain host nonempty bound).header port ++ data) := by
  simp only [encodeUDPDatagram, encodeAddr]
  rw [if_pos (List.length_pos_iff.1 nonempty), if_neg (Nat.not_lt.2 bound)]
  rfl

theorem encode_address {dstIP : Option Bytes} {dstHost : Bytes} (accepted : Destination dstIP dstHost)
    (dstPort : UInt16) (data : Bytes) :
    ∃ address : Address,
      encodeUDPDatagram dstIP dstHost dstPort data = .ok (address.header dstPort ++ data) ∧
      (address.datagram dstPort data).Reaches dstIP dstHost ∧
      (10 ≤ (address.header dstPort ++ data).length ↔
        dstIP ≠ none ∨ 3 ≤ dstHost.length + data.length) := by
  cases dstIP with
  | some ip =>
      cases short : Net.to4 ip with
      | some v4 =>
          have length := Net.to4_length short
          refine ⟨.ipv4 v4 length, encode_short short length dstPort data,
            ⟨v4, rfl, Net.to4_equal short⟩, ?_⟩
          simp only [List.length_append, Address.length_header, Address.raw, length]
          simp
      | none =>
          have length : ip.length = 16 := by
            refine accepted.resolve_left fun four => ?_
            rw [Net.to4, if_pos four] at short
            cases short
          refine ⟨.ipv6 ip length, encode_long short length dstPort data,
            ⟨ip, rfl, Net.ipEqual_self ip⟩, ?_⟩
          have roomy : 10 ≤ 4 + 16 + 2 + data.length := by omega
          simp only [List.length_append, Address.length_header, Address.raw, length]
          simpa using roomy
  | none =>
      obtain ⟨nonempty, bound⟩ := accepted
      refine ⟨.domain dstHost nonempty bound, encode_host nonempty bound dstPort data, ⟨rfl, rfl⟩, ?_⟩
      simp only [List.length_append, Address.length_header, Address.raw, List.length_cons, ne_eq,
        not_true_eq_false, false_or]
      omega

/-- Decoding undoes encoding, except for the domain datagrams that fall under the decoder's minimum
of ten bytes. -/
theorem decode_encode_iff (dstIP : Option Bytes) (dstHost : Bytes) (dstPort : UInt16) (data : Bytes)
    (accepted : Destination dstIP dstHost) :
    (∃ pkt dg, encodeUDPDatagram dstIP dstHost dstPort data = .ok pkt ∧
      (decodeUDPDatagram pkt).run = some (.ok dg) ∧ dg.frag = 0 ∧ dg.dstPort = dstPort ∧
      dg.data = data ∧ dg.headerLen = pkt.length - data.length ∧ dg.Reaches dstIP dstHost) ↔
    dstIP ≠ none ∨ 3 ≤ dstHost.length + data.length := by
  obtain ⟨address, encoded, reaches, minimum⟩ := encode_address accepted dstPort data
  rw [← minimum]
  constructor
  · rintro ⟨pkt, dg, same, decoded, _⟩
    cases encoded.symm.trans same
    by_contra short
    rw [decodeUDPDatagram, if_pos (Nat.not_le.1 short)] at decoded
    cases decoded
  · intro long
    have length : (address.header dstPort).length =
        (address.header dstPort ++ data).length - data.length := by
      rw [List.length_append, Nat.add_sub_cancel]
    exact ⟨_, address.datagram dstPort data, encoded,
      congrArg ExceptT.run (decode_header address dstPort data long), rfl, rfl, rfl, length, reaches⟩

/-- A one-byte host and an empty payload encode to eight bytes, which the decoder takes for too
short. -/
theorem short_domain_undecodable :
    Destination none [97] ∧ ∃ pkt, encodeUDPDatagram none [97] 53 [] = .ok pkt ∧
      (decodeUDPDatagram pkt).run = some (.error "udp datagram too short") :=
  ⟨⟨by decide, by decide⟩, _, rfl, rfl⟩

theorem ipv4_decoded :
    ∃ pkt dg, encodeUDPDatagram (some [127, 0, 0, 1]) [] 53 [] = .ok pkt ∧
      (decodeUDPDatagram pkt).run = some (.ok dg) ∧ dg.dstPort = 53 := by
  obtain ⟨pkt, dg, encoded, decoded, _, port, _⟩ :=
    (decode_encode_iff (some [127, 0, 0, 1]) [] 53 [] (.inl rfl)).2 (.inl (by decide))
  exact ⟨pkt, dg, encoded, decoded, port⟩

theorem encode_datagram {address : Address} {port : UInt16} {data : Bytes}
    (plain : ¬(address.datagram port data).Mapped) :
    encodeUDPDatagram address.ip address.label port data = .ok (address.header port ++ data) := by
  cases address with
  | ipv4 ip length => exact encode_short (by rw [Net.to4, if_pos length]) length port data
  | ipv6 ip length =>
      refine encode_long ?_ length port data
      rw [Net.to4, if_neg (by omega), if_neg]
      exact fun mapped => plain ⟨rfl, ip, rfl, mapped.2⟩
  | domain host nonempty bound => exact encode_host nonempty bound port data

/-- Decoding never leaves the datagram, and encoding undoes it. -/
theorem encode_decode (pkt : Bytes) :
    ∃ result, (decodeUDPDatagram pkt).run = some result ∧
      ∀ dg, result = .ok dg → pkt = pkt.take dg.headerLen ++ dg.data ∧
        (¬dg.Mapped → encodeUDPDatagram dg.dstIP dg.dstHost dg.dstPort dg.data = .ok pkt) := by
  rcases decode_cases pkt with ⟨why, failed⟩ | ⟨address, port, data, rfl, minimum⟩
  · exact ⟨.error why, congrArg ExceptT.run failed, fun dg impossible => by cases impossible⟩
  · refine ⟨.ok (address.datagram port data),
      congrArg ExceptT.run (decode_header address port data minimum), fun dg same => ?_⟩
    cases same
    refine ⟨?_, encode_datagram⟩
    change _ = (address.header port ++ data).take (address.header port).length ++ data
    rw [List.take_left]

theorem domain_reencoded :
    let pkt : Bytes := [0, 0, 0, 3, 1, 97, 0, 53, 7, 7]
    ∃ dg, (decodeUDPDatagram pkt).run = some (.ok dg) ∧ ¬dg.Mapped ∧
      encodeUDPDatagram dg.dstIP dg.dstHost dg.dstPort dg.data = .ok pkt := by
  intro pkt
  have plain : ¬(⟨0, 3, [97], none, 53, [7, 7], 8⟩ : UDPDatagram).Mapped := fun mapped =>
    absurd mapped.1 (by decide)
  obtain ⟨result, decoded, reencoded⟩ := encode_decode pkt
  cases decoded
  exact ⟨_, rfl, plain, (reencoded _ rfl).2 plain⟩

end S5lb.Socks5
