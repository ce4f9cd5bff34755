import S5lb.Cmd.KubeSocksRelay
import S5lb.Config.PlainForm
import S5lb.Go.Replace
import S5lb.Go.Url
import S5lb.Transport.Dialer

/-!
# The command of an exec

The two exec dialers fill the placeholders of a command, the raw one also those of its URL, to which it
adds the command as query parameters. At the other end stands the relay.
-/

namespace S5lb

open Go Go.Url

def splitAddress (address : String) : Except String (String × String) :=
  match Net.splitHostPort address with
  | .error err => .error ("split upstream address " ++ quote address ++ ": " ++ err)
  | .ok (host, port) =>
      if host = "" ∨ port = "" then .error ("invalid upstream address " ++ quote address)
      else
        match atoi port with
        | .error err => .error ("invalid upstream port " ++ quote port ++ ": " ++ err)
        | .ok _ => .ok (host, port)

def replaceAll (s old new : String) : String :=
  String.ofList (replaceFrom old.toList new.toList 0 s.toList)

def expand (part host port address : String) : String :=
  replaceAll
    (replaceAll (replaceAll part "\x7b\x7bhost\x7d\x7d" host) "\x7b\x7bport\x7d\x7d" port)
    "\x7b\x7baddress\x7d\x7d" address

def expandCommand (template : List String) (host port address : String) : List String :=
  template.map fun part => expand part host port address

/-- What `buildExecURL` reads of a parsed URL, and the rest of it, which stays. -/
structure ExecURL where
  scheme : String
  rest : String
  rawQuery : Bytes
  deriving DecidableEq

def escapeText (s : String) : String :=
  String.ofList ((queryEscape (stringBytes s)).map fun b => Char.ofNat b.toNat)

def execFlags : Values :=
  [(stringBytes "stdin", stringBytes "true"), (stringBytes "stdout", stringBytes "true"),
    (stringBytes "stderr", stringBytes "true"), (stringBytes "tty", stringBytes "false")]

def execQuery (q : Values) (command : List String) : Values :=
  let q := execFlags.foldl (fun q p => q.set p.1 p.2) q
  if 0 < command.length then
    (command.map stringBytes).foldl (fun q arg => q.add (stringBytes "command") arg)
      (q.del (stringBytes "command"))
  else q

def buildExecURL (urlParse : String → Except String ExecURL) (urlTemplate host port address : String)
    (command : List String) : Except String ExecURL := do
  let expanded := expand urlTemplate (escapeText host) (escapeText port) (escapeText address)
  let u ← (urlParse expanded).mapError ("parse expanded raw WSS exec URL: " ++ ·)
  refuse (u.scheme != "wss" && u.scheme != "ws")
    ("raw exec URL must use ws or wss scheme, got " ++ quote u.scheme)
  return { u with rawQuery := (execQuery (Values.parse u.rawQuery) command).encode }

section Placeholders

inductive Placeholder
  | host
  | port
  | address
  deriving DecidableEq

def Placeholder.mark : Placeholder → String
  | host => "\x7b\x7bhost\x7d\x7d"
  | port => "\x7b\x7bport\x7d\x7d"
  | address => "\x7b\x7baddress\x7d\x7d"

def placeholders : Markers Placeholder Char where
  mark k := k.mark.toList
  opening := '\x7b'
  opens k := by cases k <;> decide
  apart i j other := by
    cases i <;> cases j <;> first | exact absurd rfl other | decide

namespace Placeholder

def render (part : List placeholders.Chunk) : String :=
  String.ofList (part.flatMap Markers.Chunk.render)

def fill (values : Placeholder → placeholders.Plain) (part : List placeholders.Chunk) : String :=
  String.ofList (part.flatMap (Markers.Chunk.value values))

def text (v : placeholders.Plain) : String := String.ofList v.1

variable (values : Placeholder → placeholders.Plain)

theorem replaceAll_render (k : Placeholder) (v : placeholders.Plain) (part : List placeholders.Chunk) :
    replaceAll (render part) k.mark (text v) =
      render (part.map (Markers.Chunk.fill k v)) := by
  unfold replaceAll render text
  simp only [String.toList_ofList]
  exact congrArg String.ofList (Markers.replaceFrom_render k v part)

theorem expand_render (part : List placeholders.Chunk) :
    expand (render part) (text (values .host)) (text (values .port)) (text (values .address)) =
      fill values part := by
  change replaceAll (replaceAll (replaceAll (render part) (mark .host) _) (mark .port) _)
    (mark .address) _ = _
  rw [replaceAll_render, replaceAll_render, replaceAll_render, render, fill, List.map_map, List.map_map,
    List.flatMap_map]
  refine congrArg String.ofList (List.flatMap_congr fun chunk _ => ?_)
  cases chunk with
  | text t => rfl
  | hole k => cases k <;> rfl

end Placeholder

end Placeholders

section Upstreams

variable {u : Upstream} {path network host port address : String}

/-- The host is a name or an IP literal, without brackets, and the port is an `int`. -/
structure Upstream.Addressable (u : Upstream) : Prop where
  named : u.host ≠ ""
  brackets : '[' ∉ u.host.toList ∧ ']' ∉ u.host.toList
  plain : placeholders.opening ∉ u.host.toList
  port : -2 ^ 63 ≤ u.port ∧ u.port < 2 ^ 63

theorem splitHostPort_target (brackets : '[' ∉ host.toList ∧ ']' ∉ host.toList)
    (port_colon : ':' ∉ port.toList) (port_brackets : '[' ∉ port.toList ∧ ']' ∉ port.toList)
    (dialled : KubeSocksRelay.target [path, network, host, port] = .ok (network, address)) :
    Net.splitHostPort address = .ok (host, port) := by
  rw [KubeSocksRelay.target] at dialled
  split at dialled
  · cases dialled
  cases dialled
  split
  · have joined : "[" ++ host ++ "]:" ++ port =
        String.ofList ('[' :: host.toList ++ ']' :: ':' :: port.toList) := by
      rw [← String.toList_inj]
      simp
    rw [joined, Net.splitHostPort_bracketed brackets port_colon port_brackets]
    simp
  · rename_i colon
    have joined : host ++ ":" ++ port = String.ofList (host.toList ++ ':' :: port.toList) := by
      rw [← String.toList_inj]
      simp
    rw [joined, Net.splitHostPort_plain (by simpa using colon) brackets port_colon port_brackets]
    simp

theorem target_addr (path : String)
    (supported : network = "tcp" ∨ network = "tcp4" ∨ network = "tcp6") (brackets : '[' ∉ u.host.toList) :
    KubeSocksRelay.target [path, network, u.host, toString u.port] = .ok (network, u.addr) := by
  have first : (u.host.toList.head? != some '[') = true := by
    rw [bne_iff_ne]
    exact fun head => brackets (List.mem_of_head? head)
  have known : ¬(network ≠ "tcp" ∧ network ≠ "tcp4" ∧ network ≠ "tcp6") := by
    rcases supported with rfl | rfl | rfl <;> simp
  rw [KubeSocksRelay.target, if_neg known, Upstream.addr, first, Bool.and_true]

theorem splitAddress_addr (addressable : u.Addressable) :
    splitAddress u.addr = .ok (u.host, toString u.port) := by
  have split : Net.splitHostPort u.addr = .ok (u.host, toString u.port) :=
    splitHostPort_target addressable.brackets (Upstream.not_mem_toString u.port rfl)
      ⟨Upstream.not_mem_toString u.port rfl, Upstream.not_mem_toString u.port rfl⟩
      (target_addr "" (.inl rfl) addressable.brackets.1)
  have digits : toString u.port ≠ "" := by
    intro empty
    have read := atoi_toString addressable.port.1 addressable.port.2
    rw [empty] at read
    cases read
  rw [splitAddress, split]
  simp only [addressable.named, digits, or_self, if_false,
    atoi_toString addressable.port.1 addressable.port.2]

theorem plain_addr (addressable : u.Addressable) : placeholders.opening ∉ u.addr.toList := by
  have host := addressable.plain
  have port : placeholders.opening ∉ (toString u.port).toList := Upstream.not_mem_toString u.port rfl
  rw [Upstream.addr]
  generalize toString u.port = digits at port
  change '\x7b' ∉ u.host.toList at host
  change '\x7b' ∉ digits.toList at port
  change '\x7b' ∉ String.toList _
  split <;> simp [host, port]

def Upstream.values (u : Upstream) (addressable : u.Addressable) : Placeholder → placeholders.Plain
  | .host => ⟨u.host.toList, Markers.isPlain_of_notMem addressable.plain⟩
  | .port => ⟨(toString u.port).toList, Markers.isPlain_of_notMem (Upstream.not_mem_toString u.port rfl)⟩
  | .address => ⟨u.addr.toList, Markers.isPlain_of_notMem (plain_addr addressable)⟩

theorem expandCommand_render (addressable : u.Addressable) (template : List (List placeholders.Chunk)) :
    expandCommand (template.map Placeholder.render) u.host (toString u.port) u.addr =
      template.map (Placeholder.fill (u.values addressable)) := by
  rw [expandCommand, List.map_map]
  refine List.map_congr_left fun part _ => ?_
  have expanded := Placeholder.expand_render (u.values addressable) part
  simp only [Placeholder.text, Upstream.values, String.ofList_toList] at expanded
  exact expanded

end Upstreams

section Query

theorem plain_escapeText (s : String) : placeholders.IsPlain (escapeText s).toList := by
  refine Markers.isPlain_of_notMem fun inside => ?_
  rw [escapeText, String.toList_ofList] at inside
  obtain ⟨b, escaped, same⟩ := List.mem_map.1 inside
  have brace : ∀ b : UInt8, Char.ofNat b.toNat = '\x7b' → b = 0x7B := forall_byte (by decide +kernel)
  exact queryEscape_clean escaped (by rw [brace b same]; decide)

def escapedValues (host port address : String) : Placeholder → placeholders.Plain
  | .host => ⟨(escapeText host).toList, plain_escapeText host⟩
  | .port => ⟨(escapeText port).toList, plain_escapeText port⟩
  | .address => ⟨(escapeText address).toList, plain_escapeText address⟩

theorem expand_escaped {template : String} {chunks : List placeholders.Chunk}
    (parts : Placeholder.render chunks = template) (host port address : String) :
    expand template (escapeText host) (escapeText port) (escapeText address) =
      Placeholder.fill (escapedValues host port address) chunks := by
  have expanded := Placeholder.expand_render (escapedValues host port address) chunks
  simp only [Placeholder.text, escapedValues, String.ofList_toList] at expanded
  rw [← parts, expanded]

theorem buildExecURL_ok {urlParse : String → Except String ExecURL} {template host port address : String}
    {command : List String} {url : ExecURL}
    (built : buildExecURL urlParse template host port address command = .ok url) :
    ∃ parsed, urlParse (expand template (escapeText host) (escapeText port) (escapeText address)) =
        .ok parsed ∧ (parsed.scheme = "wss" ∨ parsed.scheme = "ws") ∧
      url = { parsed with rawQuery := (execQuery (Values.parse parsed.rawQuery) command).encode } := by
  rw [buildExecURL] at built
  simp only [bind_ok, mapError_ok, refuse_ok, pure, Except.pure, Except.ok.injEq] at built
  obtain ⟨parsed, parse, _, scheme, same⟩ := built
  refine ⟨parsed, parse, ?_, same.symm⟩
  by_cases wss : parsed.scheme = "wss"
  · exact .inl wss
  · exact .inr (by simpa [wss] using scheme)

theorem get_execQuery (q : Values) (command : List String) (key : Bytes) :
    (execQuery q command).get key =
      if stringBytes "command" = key ∧ command ≠ [] then command.map stringBytes
      else (execFlags.foldl (fun q p => q.set p.1 p.2) q).get key := by
  unfold execQuery
  dsimp only
  by_cases none : command = []
  · subst none
    simp
  · rw [if_pos (List.length_pos_iff.2 none), Values.get_foldl_add, Values.get_del]
    by_cases same : stringBytes "command" = key
    · simp [same, none]
    · simp [same]

end Query

end S5lb
