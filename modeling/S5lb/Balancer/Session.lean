import S5lb.Go.Bufio
import S5lb.Socks5.Pipe
import S5lb.Socks5.Protocol

namespace S5lb

open Go Socks5

inductive SessionEvent
  | observeLatency
  | recordSuccess
  | recordFailure (stage why : String)
  | releaseSlot
  deriving DecidableEq

structure Tunnel where
  opened : Conn
  up : Copied Source Sink
  down : Copied Source Sink

def Tunnel.forwarded (t : Tunnel) : Bytes := t.up.dst.written.drop t.opened.sink.written.length

structure SessionEnd where
  client : Conn
  events : List SessionEvent
  tunnel : Option Tunnel

/-- What a session meets: the result of `acquireSlot` and of the dialer, the order in which the two
directions of `Pipe` end, the handler of UDP requests, and what it reads of the config. -/
structure Surroundings where
  acquireSlot : Request → Option Upstream
  dialContext : Upstream → Except String Conn
  first : Direction
  rounds : Nat
  handleUDPAssociate : Conn → Request → SessionEnd
  udpEnabled : Bool
  idleTimeout : Duration

namespace Surroundings

def reply (client : Conn) (rep : UInt8) : Conn :=
  { client with sink := (write client.sink (replyBytes rep)).2.2 }

def dialAndHandshakeUpstream (env : Surroundings) (u : Upstream) :
    Except (String × String) Conn :=
  match env.dialContext u with
  | .error why => .error ("dial", why)
  | .ok c =>
      match Dialog.run (clientHandshake u.username u.password) c.src c.sink with
      | (.error why, _, _) => .error ("handshake", why)
      | (.ok (), src, sink) => .ok { c with src, sink }

def handleConnect (env : Surroundings) (client : Conn) (req : Request) : SessionEnd :=
  match env.acquireSlot req with
  | none => ⟨reply client repGeneralFailure, [], none⟩
  | some up =>
      match env.dialAndHandshakeUpstream up with
      | .error (stage, why) =>
          ⟨reply client repGeneralFailure, [.recordFailure stage why, .releaseSlot], none⟩
      | .ok upConn =>
          match Dialog.run (clientConnect req.atyp req.rawAddr req.port) upConn.src upConn.sink with
          | (.error why, _, _) =>
              ⟨reply client repGeneralFailure,
                [.observeLatency, .recordFailure "connect" why, .releaseSlot], none⟩
          | (.ok answer, src, sink) =>
              let client := reply client answer.rep
              let upConn := { upConn with src, sink }
              let events := [.observeLatency, .recordSuccess, .releaseSlot]
              if answer.rep ≠ repSuccess then ⟨client, events, none⟩
              else
                -- the buffered reader is not consulted: the tunnel reads the connection itself
                match pipe env.first env.rounds client upConn env.idleTimeout with
                | (up, down) => ⟨client, events, some ⟨upConn, up, down⟩⟩

def handleClient (env : Surroundings) (client : Conn) : SessionEnd :=
  match Dialog.run readGreeting (⟨[], client.src⟩ : BufReader) client.sink with
  | (.error _, br, sink) => ⟨{ client with src := br.src, sink }, [], none⟩
  | (.ok (), br, sink) =>
      match Dialog.run readRequest br sink with
      | (.error _, br, sink) => ⟨{ client with src := br.src, sink }, [], none⟩
      | (.ok req, br, sink) =>
          let client := { client with src := br.src, sink }
          if req.cmd = cmdConnect then env.handleConnect client req
          else if req.cmd = cmdUDPAssociate then
            if env.udpEnabled then env.handleUDPAssociate client req
            else ⟨reply client repCommandNotSupported, [], none⟩
          else ⟨reply client repCommandNotSupported, [], none⟩

/-- The upstream a request gets accepts the connection: it grants a slot, answers the handshake, and
replies with success. -/
def Accepting (env : Surroundings) (req : Request) : Prop :=
  ∃ up upConn answer src sink, env.acquireSlot req = some up ∧
    env.dialAndHandshakeUpstream up = .ok upConn ∧
    Dialog.run (clientConnect req.atyp req.rawAddr req.port) upConn.src upConn.sink =
      (.ok answer, src, sink) ∧ answer.rep = repSuccess ∧ sink.broken = none

theorem handleConnect_forwards {env : Surroundings} (client : Conn) {req : Request}
    (accepting : env.Accepting req) (half : client.halfCloser = true) :
    ∃ tunnel, (env.handleConnect client req).tunnel = some tunnel ∧
      tunnel.forwarded = client.src.bytes ∧ tunnel.up.ended = some none := by
  obtain ⟨up, upConn, answer, src, sink, slot, dialed, answered, success, alive⟩ := accepting
  have halfReply : (reply client answer.rep).halfCloser = true := half
  have piped := pipe_up env.first env.rounds (reply client answer.rep) { upConn with src, sink }
    env.idleTimeout halfReply
  obtain ⟨_, ended, written⟩ := copyAll_copies sink client.src env.idleTimeout alive
  rw [handleConnect, slot]
  simp only [dialed, answered, success, ne_eq, not_true_eq_false, if_false]
  refine ⟨_, rfl, ?_, ?_⟩
  · simp only [Tunnel.forwarded, ← success, piped]
    change (copyAll sink client.src env.idleTimeout).dst.written.drop _ = _
    rw [written, List.drop_left]
  · simp only [← success, piped]
    exact ended

theorem run_tracks {ε α : Type} {d : Fallible ε α} {m : Nat} (parses : d.Parses m)
    (small : m < BufReader.size) {chunks : List Bytes} {br : BufReader} (sink : Sink)
    (tracks : br.Tracks chunks) : (Dialog.run d br sink).2.1.Tracks chunks :=
  Dialog.run_keeps (P := fun br : BufReader => br.Tracks chunks)
    (fun _ _ tracks positive le => tracks.read positive (Nat.lt_of_le_of_lt le small)) parses.short
    br sink tracks

theorem handshake_buffered {client : Source} {greeting request payload : Bytes} {req : Request}
    {sink sink₁ sink₂ : Sink} {br₁ br₂ : BufReader} {result₁ : Except String Unit}
    {result₂ : Except Refusal Request} (alive : sink.broken = none)
    (sent : client.bytes = greeting ++ request ++ payload)
    (greeted : readGreeting.Accepts greeting ()) (requested : readRequest.Accepts request req)
    (ran₁ : Dialog.run readGreeting (⟨[], client⟩ : BufReader) sink = (result₁, br₁, sink₁))
    (ran₂ : Dialog.run readRequest br₁ sink₁ = (result₂, br₂, sink₂)) :
    result₁ = .ok () ∧ result₂ = .ok req ∧ br₂.bytes = payload ∧
      (br₂.buffered = [] ↔ Boundary client.chunks (greeting ++ request).length) := by
  have ahead : stream (⟨[], client⟩ : BufReader) = greeting ++ (request ++ payload) := by
    rw [← List.append_assoc, ← sent]
    exact List.nil_append _
  have parsed₁ := greeted.run readGreeting_parses.strict ahead alive
  have tracks₁ := run_tracks readGreeting_parses (by decide) sink
    (BufReader.tracks_start client)
  have short₁ := Dialog.run_short readGreeting_parses.short (⟨[], client⟩ : BufReader) sink
  rw [ran₁] at parsed₁ tracks₁ short₁
  obtain ⟨ok₁, rest₁, alive₁⟩ := parsed₁
  have parsed₂ := requested.run readRequest_parses.strict rest₁ alive₁
  have tracks₂ := run_tracks readRequest_parses (by decide) sink₁ tracks₁
  have short₂ := Dialog.run_short readRequest_parses.short br₁ sink₁
  rw [ran₂] at parsed₂ tracks₂ short₂
  obtain ⟨ok₂, rest₂, _⟩ := parsed₂
  rw [ahead, rest₁] at short₁
  rw [rest₁, rest₂] at short₂
  simp only [List.length_append] at short₁ short₂
  have small : (greeting ++ request).length < BufReader.size := by
    simp only [List.length_append, BufReader.size]
    omega
  have consumed : client.chunks.flatten.length =
      (greeting ++ request).length + br₂.bytes.length := by
    change client.bytes.length = _ + (stream br₂).length
    rw [sent, rest₂, List.length_append]
  exact ⟨ok₁, ok₂, rest₂, BufReader.buffered_nil_iff small consumed tracks₂⟩

theorem boundary_length_iff {chunks : List Bytes} {head tail : Bytes}
    (whole : chunks.flatten = head ++ tail) :
    Boundary chunks head.length ↔ ∃ pre suf, chunks = pre ++ suf ∧ pre.flatten = head := by
  constructor
  · rintro ⟨pre, suf, rfl, length⟩
    rw [List.flatten_append] at whole
    exact ⟨pre, suf, rfl, (List.append_inj whole length).1⟩
  · rintro ⟨pre, suf, split, rfl⟩
    exact ⟨pre, suf, split, rfl⟩

/-- The client of an accepted CONNECT gets exactly its payload forwarded when the handshake ends
where a read from the socket ended. -/
theorem handleClient_forwards_iff (env : Surroundings) (client : Conn)
    (greeting request payload : Bytes) (req : Request) (alive : client.sink.broken = none)
    (half : client.halfCloser = true)
    (sent : client.src.bytes = greeting ++ request ++ payload)
    (greeted : readGreeting.Accepts greeting ()) (requested : readRequest.Accepts request req)
    (connect : req.cmd = cmdConnect) (accepting : env.Accepting req) :
    ∃ tunnel, (env.handleClient client).tunnel = some tunnel ∧
      (tunnel.forwarded = payload ↔
        ∃ pre suf, client.src.chunks = pre ++ suf ∧ pre.flatten = greeting ++ request) := by
  rw [handleClient]
  rcases ran₁ : Dialog.run readGreeting (⟨[], client.src⟩ : BufReader) client.sink with
    ⟨result₁, br₁, sink₁⟩
  rcases ran₂ : Dialog.run readRequest br₁ sink₁ with ⟨result₂, br, sink⟩
  obtain ⟨rfl, rfl, left, empty⟩ := handshake_buffered alive sent greeted requested ran₁ ran₂
  simp only [ran₂]
  rw [if_pos connect]
  obtain ⟨tunnel, tunnelled, forwarded, _⟩ :=
    handleConnect_forwards { client with src := br.src, sink } accepting half
  refine ⟨tunnel, tunnelled, ?_⟩
  rw [← boundary_length_iff sent, ← empty, forwarded, ← left, BufReader.bytes]
  exact ⟨fun same => List.self_eq_append_left.1 same, fun nil => by rw [nil, List.nil_append]⟩

def welcoming : Surroundings where
  acquireSlot _ := some ⟨"a", "10.0.0.1", 1080, "", "", 1, 0, 0⟩
  dialContext _ := .ok ⟨⟨[[5, 0], replyBytes repSuccess], by decide⟩, Sink.fresh, true⟩
  first := .up
  rounds := 0
  handleUDPAssociate client _ := ⟨client, [], none⟩
  udpEnabled := false
  idleTimeout := 0

def connectBytes : Bytes := [5, 1, 0, 3, 1, 97, 0, 80]

def connectRequest : Request := ⟨cmdConnect, atypDomain, [1, 97], 80, [97]⟩

theorem connectBytes_accepted : readRequest.Accepts connectBytes connectRequest := ⟨_, rfl⟩

theorem greeting_accepted : readGreeting.Accepts [5, 1, 0] () := ⟨_, rfl⟩

theorem welcoming_accepting : welcoming.Accepting connectRequest :=
  ⟨_, _, _, _, _, rfl, rfl, rfl, rfl, rfl⟩

/-- A client that sends its first payload byte along with the request loses it. -/
theorem pipelined_payload_lost :
    let client : Conn := ⟨⟨[[5, 1, 0], connectBytes ++ [71]], by decide⟩, Sink.fresh, true⟩
    client.src.bytes = [5, 1, 0] ++ connectBytes ++ [71] ∧
      readGreeting.Accepts [5, 1, 0] () ∧ readRequest.Accepts connectBytes connectRequest ∧
      connectRequest.cmd = cmdConnect ∧ welcoming.Accepting connectRequest ∧
      ∃ tunnel, (welcoming.handleClient client).tunnel = some tunnel ∧ tunnel.forwarded ≠ [71] :=
  ⟨rfl, greeting_accepted, connectBytes_accepted, rfl, welcoming_accepting, _, rfl, by decide⟩

theorem split_payload_forwarded :
    let client : Conn := ⟨⟨[[5, 1, 0], connectBytes, [71]], by decide⟩, Sink.fresh, true⟩
    ∃ tunnel, (welcoming.handleClient client).tunnel = some tunnel ∧ tunnel.forwarded = [71] := by
  intro client
  obtain ⟨tunnel, tunnelled, forwarded⟩ := handleClient_forwards_iff welcoming client [5, 1, 0]
    connectBytes [71] connectRequest rfl rfl rfl greeting_accepted connectBytes_accepted rfl
    welcoming_accepting
  exact ⟨tunnel, tunnelled, forwarded.2 ⟨[[5, 1, 0], connectBytes], [[71]], rfl, rfl⟩⟩

end Surroundings

end S5lb
