import S5lb.Go.Dialog
import S5lb.Go.Net
import S5lb.Go.Strings

namespace S5lb.Socks5

open Go

def version : UInt8 := 0x05

def authNone : UInt8 := 0x00
def authUserPass : UInt8 := 0x02
def authNoAccept : UInt8 := 0xFF

def cmdConnect : UInt8 := 0x01
def cmdUDPAssociate : UInt8 := 0x03

def atypIPv4 : UInt8 := 0x01
def atypDomain : UInt8 := 0x03
def atypIPv6 : UInt8 := 0x04

def repSuccess : UInt8 := 0x00
def repGeneralFailure : UInt8 := 0x01
def repCommandNotSupported : UInt8 := 0x07
def repAddrTypeNotSupported : UInt8 := 0x08

def hex02 (b : UInt8) : String := "0x" ++ hexEncode [b]

def byteAt (buf : Bytes) (i : Nat) : UInt8 := buf.getD i 0

def uint16 (buf : Bytes) : UInt16 :=
  UInt16.ofNat (256 * (byteAt buf 0).toNat + (byteAt buf 1).toNat)

def putUint16 (port : UInt16) : Bytes :=
  [UInt8.ofNat (port.toNat / 256), UInt8.ofNat (port.toNat % 256)]

def replyBytes (rep : UInt8) : Bytes := [version, rep, 0x00, atypIPv4, 0, 0, 0, 0, 0, 0]

/-- The nil IP is the empty one. -/
def buildReply (rep : UInt8) (bindIP : Bytes) (bindPort : UInt16) : Bytes :=
  if bindIP = [] then replyBytes rep
  else match Net.to4 bindIP with
    | some v4 => [version, rep, 0x00, atypIPv4] ++ v4 ++ putUint16 bindPort
    | none =>
        match Net.to16 bindIP with
        | some v6 => [version, rep, 0x00, atypIPv6] ++ v6 ++ putUint16 bindPort
        | none => replyBytes rep

def readGreeting : Fallible String Unit := do
  let hdr ← Fallible.receive "read greeting header: " 2
  if byteAt hdr 0 ≠ version ∨ byteAt hdr 1 = 0 then
    Fallible.fail "bad greeting"
  else
    let methods ← Fallible.receive "read methods: " (byteAt hdr 1).toNat
    if authNone ∉ methods then
      Fallible.refuse [version, authNoAccept]
        "no acceptable auth method (client did not offer NoAuth)"
    else
      Fallible.transmit "write greeting reply: " [version, authNone]

structure Request where
  cmd : UInt8
  atyp : UInt8
  rawAddr : Bytes
  port : UInt16
  dstLabel : Bytes
  deriving DecidableEq

structure Refusal where
  reply : UInt8
  why : String
  deriving DecidableEq

def readAddr (atyp : UInt8) : Fallible String (Bytes × Bytes) :=
  if atyp = atypIPv4 then do
    let raw ← Fallible.receive "" 4
    pure (raw, stringBytes (Net.ipString raw))
  else if atyp = atypIPv6 then do
    let raw ← Fallible.receive "" 16
    pure (raw, stringBytes (Net.ipString raw))
  else if atyp = atypDomain then do
    let lb ← Fallible.receive "" 1
    if byteAt lb 0 = 0 then
      Fallible.fail "empty domain"
    else
      let dom ← Fallible.receive "" (byteAt lb 0).toNat
      pure (lb ++ dom, dom)
  else
    Fallible.fail ("unsupported atyp " ++ hex02 atyp)

def readDest (atyp : UInt8) : Fallible String (Bytes × UInt16 × Bytes) := do
  let (raw, label) ← readAddr atyp
  let portBuf ← Fallible.receive "" 2
  pure (raw, uint16 portBuf, label)

def readRequest : Fallible Refusal Request := do
  let hdr ← (Fallible.receive "read request header: " 4).handle fun why => Fallible.fail ⟨0, why⟩
  let cmd := byteAt hdr 1
  let atyp := byteAt hdr 3
  if byteAt hdr 0 ≠ version then
    Fallible.fail ⟨0, "bad request version"⟩
  else if byteAt hdr 2 ≠ 0x00 then
    Fallible.refuse (replyBytes repGeneralFailure)
      ⟨repGeneralFailure, "reserved byte must be 0x00, got " ++ hex02 (byteAt hdr 2)⟩
  else if cmd ≠ cmdConnect ∧ cmd ≠ cmdUDPAssociate then
    Fallible.refuse (replyBytes repCommandNotSupported)
      ⟨repCommandNotSupported, "unsupported cmd " ++ hex02 cmd⟩
  else
    let (rawAddr, port, dstLabel) ← (readDest atyp).handle fun why =>
      Fallible.refuse (replyBytes repAddrTypeNotSupported) ⟨repAddrTypeNotSupported, why⟩
    pure { cmd, atyp, rawAddr, port, dstLabel }

def clientAuth (user pass : Bytes) : Fallible String Unit :=
  if 255 < user.length ∨ 255 < pass.length then
    Fallible.fail "credential exceeds 255 bytes"
  else do
    Fallible.transmit "write auth: "
      ([0x01, UInt8.ofNat user.length] ++ user ++ [UInt8.ofNat pass.length] ++ pass)
    let ar ← Fallible.receive "read auth reply: " 2
    if byteAt ar 0 ≠ 0x01 then
      Fallible.fail ("bad auth reply version " ++ toString (byteAt ar 0).toNat)
    else if byteAt ar 1 ≠ 0x00 then
      Fallible.fail "auth rejected"
    else
      pure ()

def clientHandshake (user pass : String) : Fallible String Unit := do
  let haveCreds := user ≠ "" ∨ pass ≠ ""
  Fallible.transmit "write greeting: "
    (if haveCreds then [version, 0x02, authNone, authUserPass] else [version, 0x01, authNone])
  let resp ← Fallible.receive "read greeting reply: " 2
  if byteAt resp 0 ≠ version then
    Fallible.fail ("bad version " ++ toString (byteAt resp 0).toNat)
  else if byteAt resp 1 = authNone then
    pure ()
  else if byteAt resp 1 = authUserPass then
    if ¬haveCreds then
      Fallible.fail "upstream requires auth but no credentials configured"
    else
      clientAuth (stringBytes user) (stringBytes pass)
  else if byteAt resp 1 = authNoAccept then
    Fallible.fail "no acceptable auth methods"
  else
    Fallible.fail ("unsupported auth method " ++ hex02 (byteAt resp 1))

structure ClientRequestReply where
  rep : UInt8
  bindAtyp : UInt8
  bindIP : Option Bytes
  bindHost : Bytes
  bindPort : UInt16
  deriving DecidableEq

def readBind (atyp : UInt8) : Fallible String (Option Bytes × Bytes) :=
  if atyp = atypIPv4 then do
    let buf ← Fallible.receive "" 4
    pure (some buf, [])
  else if atyp = atypIPv6 then do
    let buf ← Fallible.receive "" 16
    pure (some buf, [])
  else if atyp = atypDomain then do
    let lb ← Fallible.receive "" 1
    let dom ← Fallible.receive "" (byteAt lb 0).toNat
    pure (none, dom)
  else
    Fallible.fail ("bad reply atyp " ++ hex02 atyp)

def clientRequest (cmd atyp : UInt8) (rawAddr : Bytes) (port : UInt16) :
    Fallible String ClientRequestReply := do
  Fallible.transmit "write request: "
    ([version, cmd, 0x00, atyp] ++ rawAddr ++ putUint16 port)
  let hdr ← Fallible.receive "read reply header: " 4
  if byteAt hdr 0 ≠ version then
    Fallible.fail "bad reply version"
  else if byteAt hdr 2 ≠ 0x00 then
    Fallible.fail ("reply reserved byte must be 0x00, got " ++ hex02 (byteAt hdr 2))
  else
    let (bindIP, bindHost) ← readBind (byteAt hdr 3)
    let pb ← Fallible.receive "" 2
    pure { rep := byteAt hdr 1, bindAtyp := byteAt hdr 3, bindIP, bindHost, bindPort := uint16 pb }

def clientConnect (atyp : UInt8) (rawAddr : Bytes) (port : UInt16) :
    Fallible String ClientRequestReply :=
  clientRequest cmdConnect atyp rawAddr port

def clientUDPAssociate (atyp : UInt8) (rawAddr : Bytes) (port : UInt16) :
    Fallible String ClientRequestReply :=
  clientRequest cmdUDPAssociate atyp rawAddr port

theorem readGreeting_parses : Fallible.Parses 257 readGreeting := by
  refine (Fallible.Parses.receive _ 2).bind (k := 255) fun hdr => ?_
  split
  · exact .fail _
  · have count : (byteAt hdr 1).toNat ≤ 255 := by have := (byteAt hdr 1).toNat_lt; omega
    refine ((Fallible.Parses.receive _ _).bind (k := 0) fun methods => ?_).mono count
    split
    · exact .refuse _ _
    · exact .transmit _ _

theorem readAddr_parses (atyp : UInt8) : Fallible.Parses 256 (readAddr atyp) := by
  unfold readAddr
  split
  · exact ((Fallible.Parses.receive _ 4).bind (k := 0) fun raw => .pure _).mono (by omega)
  · split
    · exact ((Fallible.Parses.receive _ 16).bind (k := 0) fun raw => .pure _).mono (by omega)
    · split
      · refine (Fallible.Parses.receive _ 1).bind (k := 255) fun lb => ?_
        split
        · exact .fail _
        · have count : (byteAt lb 0).toNat ≤ 255 := by have := (byteAt lb 0).toNat_lt; omega
          exact ((Fallible.Parses.receive _ _).bind (k := 0) fun dom => .pure _).mono count
      · exact .fail _

theorem readDest_parses (atyp : UInt8) : Fallible.Parses 258 (readDest atyp) :=
  (readAddr_parses atyp).bind fun _ => (Fallible.Parses.receive _ 2).bind (k := 0) fun _ => .pure _

theorem readRequest_parses : Fallible.Parses 262 readRequest := by
  refine ((Fallible.Parses.receive _ 4).handle fun _ => Fallible.reports_fail _).bind (k := 258)
    fun hdr => ?_
  dsimp only
  split
  · exact .fail _
  · split
    · exact .refuse _ _
    · split
      · exact .refuse _ _
      · exact ((readDest_parses _).handle fun _ => Fallible.reports_refuse _ _).bind (k := 0)
          fun _ => .pure _

end S5lb.Socks5
