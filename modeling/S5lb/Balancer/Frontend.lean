import S5lb.Admission.Sessions
import S5lb.Balancer.Session
import S5lb.Balancer.UdpRelay

/-!
# The frontend

What `Serve` and the handlers of a session write to a client before its tunnel or its UDP relay
starts. A handler is a conversation with the client, over whatever the rest of the world answers.
-/

namespace S5lb

open Go Socks5

structure NetAddr where
  tcpIP : Option Bytes
  text : String

def NetAddr.parsed (addr : NetAddr) : Option Bytes :=
  (Net.splitHostPort addr.text).toOption.bind fun hostport => Net.parseIP hostport.1

def tcpRemoteIP (addr : NetAddr) : Option Bytes :=
  match addr.tcpIP with
  | some ip => if ip = [] then none else some ip
  | none => addr.parsed

def splitHost (addr : String) : String :=
  match Net.splitHostPort addr with
  | .ok (host, _) => host
  | .error _ => addr

def udpBindHost (cfg : Config) : String :=
  if cfg.udpBindAddr ≠ "" then cfg.udpBindAddr else splitHost cfg.listenAddr

def concreteIP (ip : Option Bytes) : Option Bytes :=
  ip.filter fun ip => !ip.isEmpty && !Net.isUnspecified ip

def udpAdvertiseIP (cfg : Config) (udpLocal : UDPAddr) (tcpLocal : NetAddr) : Except String Bytes :=
  if cfg.udpAdvertiseAddr ≠ "" then
    match Net.parseIP cfg.udpAdvertiseAddr with
    | none => .error ("invalid udp_advertise " ++ quote cfg.udpAdvertiseAddr)
    | some ip => .ok ip
  else
    match concreteIP (some udpLocal.ip) <|> concreteIP tcpLocal.tcpIP <|>
        concreteIP tcpLocal.parsed with
    | some ip => .ok ip
    | none => .error "udp_advertise is required when UDP bind address is unspecified"

/-- What a UDP request meets besides its upstream: the config, name resolution, the sockets it opens
(the address each is bound to, or why it is not), and the ends of the client's connection. -/
structure Sockets where
  cfg : Config
  resolveUDPAddr : Bytes → Except String UDPAddr
  listenClient : Bytes → Except String UDPAddr
  listenUpstream : Bytes → Except String UDPAddr
  localAddr : NetAddr
  remoteAddr : NetAddr

namespace Sockets

def resolveUpstreamUDPAddr (net : Sockets) (reply : ClientRequestReply) (tcpHost : String) :
    Except String UDPAddr :=
  let resolve (host : Bytes) :=
    net.resolveUDPAddr (Net.joinHostPort host (stringBytes (toString reply.bindPort.toNat)))
  match reply.bindIP with
  | some ip =>
      if Net.isUnspecified ip then resolve (stringBytes tcpHost)
      else resolve (stringBytes (Net.ipString ip))
  | none =>
      if reply.bindHost ≠ [] then resolve reply.bindHost
      else .error "empty bind address in UDP_ASSOCIATE reply"

def endpoints (net : Sockets) (reply : ClientRequestReply) (tcpHost : String) :
    Except String (UDPAddr × UDPAddr × Bytes) := do
  let upUDPAddr ← net.resolveUpstreamUDPAddr reply tcpHost
  if upUDPAddr.port = 0 then
    throw "upstream_udp_zero_bind_port"
  let bindIP := (Net.parseIP (udpBindHost net.cfg)).getD Net.ipv4zero
  let clientPC ← net.listenClient bindIP
  let upBindIP :=
    if upUDPAddr.ip ≠ [] ∧ Net.to4 upUDPAddr.ip = none then Net.ipv6zero else Net.ipv4zero
  let _ ← net.listenUpstream upBindIP
  let advertiseIP ← udpAdvertiseIP net.cfg clientPC net.localAddr
  pure (upUDPAddr, clientPC, advertiseIP)

end Sockets

inductive Onward
  | closed
  | tunnel (upConn : Conn)
  | relay (allowedClientIP : Option Bytes) (upUDPAddr : UDPAddr)

def Onward.upConn : Onward → Option Conn
  | .tunnel upConn => some upConn
  | _ => none

structure Course where
  events : List SessionEvent
  onward : Onward

namespace Frontend

def reply (rep : UInt8) (course : Course) : Dialog Course :=
  .send (replyBytes rep) fun _ => .ret course

def handleConnect (env : Surroundings) (req : Request) : Dialog Course :=
  match env.acquireSlot req with
  | none => reply repGeneralFailure ⟨[], .closed⟩
  | some up =>
      match env.dialAndHandshakeUpstream up with
      | .error (stage, why) =>
          reply repGeneralFailure ⟨[.recordFailure stage why, .releaseSlot], .closed⟩
      | .ok upConn =>
          match Dialog.run (clientConnect req.atyp req.rawAddr req.port) upConn.src upConn.sink with
          | (.error why, _, _) =>
              reply repGeneralFailure
                ⟨[.observeLatency, .recordFailure "connect" why, .releaseSlot], .closed⟩
          | (.ok answer, src, sink) =>
              reply answer.rep ⟨[.observeLatency, .recordSuccess, .releaseSlot],
                if answer.rep ≠ repSuccess then .closed else .tunnel { upConn with src, sink }⟩

def handleUDPAssociate (env : Surroundings) (net : Sockets) (req : Request) : Dialog Course :=
  match env.acquireSlot req with
  | none => reply repGeneralFailure ⟨[], .closed⟩
  | some up =>
      match env.dialAndHandshakeUpstream up with
      | .error (stage, why) =>
          reply repGeneralFailure ⟨[.recordFailure stage why, .releaseSlot], .closed⟩
      | .ok upTCP =>
          match Dialog.run (clientUDPAssociate req.atyp req.rawAddr req.port) upTCP.src
              upTCP.sink with
          | (.error why, _, _) =>
              reply repGeneralFailure
                ⟨[.observeLatency, .recordFailure "udp_associate" why, .releaseSlot], .closed⟩
          | (.ok answer, _, _) =>
              if answer.rep ≠ repSuccess then
                reply answer.rep ⟨[.observeLatency, .releaseSlot], .closed⟩
              else
                let events := [.observeLatency, .recordSuccess, .releaseSlot]
                match net.endpoints answer up.host with
                | .error _ => reply repGeneralFailure ⟨events, .closed⟩
                | .ok (upUDPAddr, clientPC, advertiseIP) =>
                    .send (buildReply repSuccess advertiseIP
                        (UInt16.ofNat (clientPC.port % 65536).toNat)) fun err =>
                      .ret ⟨events, if err.isSome then .closed
                        else .relay (tcpRemoteIP net.remoteAddr) upUDPAddr⟩

def dispatch (env : Surroundings) (net : Sockets) (req : Request) : Dialog Course :=
  if req.cmd = cmdConnect then handleConnect env req
  else if req.cmd = cmdUDPAssociate then
    if env.udpEnabled then handleUDPAssociate env net req
    else reply repCommandNotSupported ⟨[], .closed⟩
  else reply repCommandNotSupported ⟨[], .closed⟩

def handleClient (env : Surroundings) (net : Sockets) : Dialog Course :=
  Dialog.bind readGreeting fun
    | .error _ => .ret ⟨[], .closed⟩
    | .ok () =>
        Dialog.bind readRequest fun
          | .error _ => .ret ⟨[], .closed⟩
          | .ok req => dispatch env net req

def accepted (env : Surroundings) (net : Sockets) (decision : Option Decision) : Dialog Course :=
  match decision with
  | none => .ret ⟨[], .closed⟩
  | some dec =>
      match dec.outcome with
      | .admitted | .evicted => handleClient env net
      | .rejected => reply repGeneralFailure ⟨[], .closed⟩

def Replies (P : Course → Prop) (d : Dialog Course) : Prop :=
  ∃ (rep : UInt8) (bind : Address) (port : UInt16) (f : Option Err → Course),
    d = .send (replyMessage rep bind port) (fun err => .ret (f err)) ∧ ∀ err, P (f err)

namespace Replies

variable {P Q : Course → Prop} {d : Dialog Course}

theorem mono (replies : Replies P d) (weaker : ∀ course, P course → Q course) : Replies Q d := by
  obtain ⟨rep, bind, port, f, rfl, holds⟩ := replies
  exact ⟨rep, bind, port, f, rfl, fun err => weaker _ (holds err)⟩

theorem transcript (replies : Replies P d) {sent : List Bytes} {course : Course}
    (follows : Dialog.Transcript d sent course) :
    ∃ rep bind port, sent = [replyMessage rep bind port] := by
  obtain ⟨rep, bind, port, f, rfl, _⟩ := replies
  obtain ⟨err, _, rfl, ended⟩ := Dialog.transcript_send.1 follows
  rw [(Dialog.transcript_ret.1 ended).1]
  exact ⟨rep, bind, port, rfl⟩

theorem run {σ τ : Type} [Reader σ] [Reader τ] (replies : Replies P d) (r : σ) (r' : τ) (w : Sink) :
    (d.run r w).1 = (d.run r' w).1 ∧ (d.run r w).2.2 = (d.run r' w).2.2 ∧ P (d.run r w).1 := by
  obtain ⟨rep, bind, port, f, rfl, holds⟩ := replies
  exact ⟨rfl, rfl, holds _⟩

end Replies

theorem replies_reply {P : Course → Prop} (rep : UInt8) {course : Course} (holds : P course) :
    Replies P (reply rep course) := by
  rw [reply, replyBytes_message]
  exact ⟨rep, _, _, fun _ => course, rfl, fun _ => holds⟩

theorem replies_handleConnect (env : Surroundings) (req : Request) :
    Replies (fun _ => True) (handleConnect env req) := by
  unfold handleConnect
  split
  · exact replies_reply _ trivial
  split
  · exact replies_reply _ trivial
  split
  · exact replies_reply _ trivial
  · exact replies_reply _ trivial

theorem replies_handleUDPAssociate (env : Surroundings) (net : Sockets) (req : Request) :
    Replies (·.onward.upConn = none) (handleUDPAssociate env net req) := by
  unfold handleUDPAssociate
  split
  · exact replies_reply _ rfl
  split
  · exact replies_reply _ rfl
  split
  · exact replies_reply _ rfl
  split
  · exact replies_reply _ rfl
  dsimp only
  split
  · exact replies_reply _ rfl
  rename_i upUDPAddr clientPC advertiseIP _
  obtain ⟨bind, port, built⟩ := buildReply_message repSuccess advertiseIP
    (UInt16.ofNat (clientPC.port % 65536).toNat)
  rw [built]
  refine ⟨repSuccess, bind, port, _, rfl, fun err => ?_⟩
  cases err with
  | none => rfl
  | some e => rfl

theorem replies_dispatch (env : Surroundings) (net : Sockets) (req : Request) :
    Replies (fun _ => True) (dispatch env net req) := by
  unfold dispatch
  split
  · exact replies_handleConnect env req
  split
  · split
    · exact (replies_handleUDPAssociate env net req).mono fun _ _ => trivial
    · exact replies_reply _ trivial
  · exact replies_reply _ trivial

theorem served_handleClient {env : Surroundings} {net : Sockets} {sent : List Bytes} {course : Course}
    (follows : Dialog.Transcript (handleClient env net) sent course) : Served sent.flatten := by
  obtain ⟨greeting, rest, greeted, rfl, first, second⟩ := Dialog.transcript_bind.1 follows
  rcases readGreeting_transcript first with rfl | ⟨unselected, why, rfl⟩
  · cases greeted with
    | error why =>
        rw [(Dialog.transcript_ret.1 second).1]
        exact .selected
    | ok =>
        obtain ⟨request, answer, requested, rfl, third, fourth⟩ := Dialog.transcript_bind.1 second
        rcases readRequest_transcript third with rfl | ⟨⟨rep, rfl⟩, refusal, rfl⟩
        · cases requested with
          | error refusal =>
              rw [(Dialog.transcript_ret.1 fourth).1]
              exact .selected
          | ok req =>
              obtain ⟨rep, bind, port, rfl⟩ := (replies_dispatch env net req).transcript fourth
              simp only [List.nil_append, List.flatten_append, List.flatten_singleton]
              exact .replied rep bind port
        · rw [(Dialog.transcript_ret.1 fourth).1, replyBytes_message]
          simp only [List.append_nil, List.flatten_append, List.flatten_singleton]
          exact .replied rep _ _
  · rw [(Dialog.transcript_ret.1 second).1, List.append_nil]
    rcases unselected with rfl | rfl
    · exact .silent
    · exact .noAcceptable

theorem transcript_rejected (env : Surroundings) (net : Sockets) {dec : Decision}
    (rejected : dec.outcome = .rejected) :
    Dialog.Transcript (accepted env net (some dec)) [replyBytes repGeneralFailure]
      ⟨[], .closed⟩ := by
  simp only [accepted, rejected]
  exact .send none (.ret _)

theorem not_served_reply (rep : UInt8) (other : rep ≠ authNoAccept) (failed : rep ≠ authNone) :
    ¬Served (replyBytes rep) := by
  intro served
  rcases served.method with empty | refused | selected
  · cases empty
  · exact other (Option.some.inj refused)
  · exact failed (Option.some.inj selected)

/-- The frontend speaks SOCKS5 to every accepted connection but those the gate rejects. -/
theorem served_iff (env : Surroundings) (net : Sockets) (decision : Option Decision) :
    (∀ sent course, Dialog.Transcript (accepted env net decision) sent course →
      Served sent.flatten) ↔ ∀ dec, decision = some dec → dec.outcome ≠ .rejected := by
  constructor
  · rintro served dec rfl rejected
    have broken := served _ _ (transcript_rejected env net rejected)
    rw [List.flatten_singleton] at broken
    exact not_served_reply repGeneralFailure (by decide) (by decide) broken
  · intro admitted sent course follows
    cases decision with
    | none =>
        rw [(Dialog.transcript_ret.1 follows).1]
        exact .silent
    | some dec =>
        have ran : accepted env net (some dec) = handleClient env net := by
          cases outcome : dec.outcome with
          | admitted | evicted => simp only [accepted, outcome]
          | rejected => exact absurd outcome (admitted dec rfl)
        rw [ran] at follows
        exact served_handleClient follows

def noSockets : Sockets where
  cfg := defaults
  resolveUDPAddr _ := .error "no such host"
  listenClient _ := .error "address in use"
  listenUpstream _ := .error "address in use"
  localAddr := ⟨none, ""⟩
  remoteAddr := ⟨none, ""⟩

/-- A full gate rejects, and the client gets a reply to a request it has not made. -/
theorem reply_unasked :
    let gate : Gate := ⟨.rejectGate, 1, 1, 1, 0, false⟩
    ∃ dec, gate.acquireStep (Tracker.newTracker Tracker.noSessions) false .timer .trying =
        some (gate, .returned dec) ∧
      ∃ sent course, Dialog.Transcript (accepted .welcoming noSockets (some dec)) sent course ∧
        sent.flatten = [0x05, 0x01, 0x00, 0x01, 0, 0, 0, 0, 0, 0] ∧ ¬Served sent.flatten :=
  ⟨⟨.rejected, "admission_full"⟩, rfl, [replyBytes repGeneralFailure], _,
    transcript_rejected _ _ rfl, rfl, not_served_reply _ (by decide) (by decide)⟩

end Frontend

def Sockets.surroundings (net : Sockets) (env : Surroundings) : Surroundings :=
  { env with
    handleUDPAssociate client req :=
      match (Frontend.handleUDPAssociate env net req).run client.src client.sink with
      | (course, _, sink) => ⟨{ client with sink }, course.events, none⟩ }

namespace Frontend

structure Follows {σ : Type} (done : SessionEnd) (ran : Course × σ × Sink) : Prop where
  sink : done.client.sink = ran.2.2
  events : done.events = ran.1.events
  tunnel : done.tunnel.map Tunnel.opened = ran.1.onward.upConn

section Follows

variable {σ : Type} [Reader σ] (env : Surroundings) (net : Sockets) (client : Conn) (req : Request)
  (r : σ)

theorem follows_reply (rep : UInt8) (events : List SessionEvent) :
    Follows ⟨Surroundings.reply client rep, events, none⟩
      ((reply rep ⟨events, .closed⟩).run r client.sink) :=
  ⟨rfl, rfl, rfl⟩

theorem follows_handleConnect :
    Follows (env.handleConnect client req) ((handleConnect env req).run r client.sink) := by
  unfold Surroundings.handleConnect handleConnect
  cases env.acquireSlot req with
  | none => exact follows_reply client r _ _
  | some up =>
      dsimp only
      rcases env.dialAndHandshakeUpstream up with ⟨stage, why⟩ | upConn
      · exact follows_reply client r _ _
      · dsimp only
        rcases Dialog.run (clientConnect req.atyp req.rawAddr req.port) upConn.src upConn.sink with
          ⟨why | answer, src, sink⟩
        · exact follows_reply client r _ _
        · dsimp only
          by_cases success : answer.rep = repSuccess
          · simp only [success, ne_eq, not_true_eq_false, if_false]
            exact ⟨rfl, rfl, rfl⟩
          · simp only [success, ne_eq, not_false_eq_true, if_true]
            exact follows_reply client r _ _

theorem follows_dispatch :
    Follows (if req.cmd = cmdConnect then (net.surroundings env).handleConnect client req
      else if req.cmd = cmdUDPAssociate then
        if env.udpEnabled then (net.surroundings env).handleUDPAssociate client req
        else ⟨Surroundings.reply client repCommandNotSupported, [], none⟩
      else ⟨Surroundings.reply client repCommandNotSupported, [], none⟩)
      ((dispatch env net req).run r client.sink) := by
  unfold dispatch
  split
  · exact follows_handleConnect env client req r
  split
  · split
    · obtain ⟨course, sink, untunnelled⟩ :=
        (replies_handleUDPAssociate env net req).run r client.src client.sink
      exact ⟨sink.symm, congrArg Course.events course.symm, untunnelled.symm⟩
    · exact follows_reply client r _ _
  · exact follows_reply client r _ _

end Follows

theorem follows_handleClient (env : Surroundings) (net : Sockets) (client : Conn) :
    Follows ((net.surroundings env).handleClient client)
      ((handleClient env net).run (⟨[], client.src⟩ : BufReader) client.sink) := by
  rw [Surroundings.handleClient, handleClient,
    show Dialog.run (Dialog.bind readGreeting _) _ _ = _ from Dialog.run_bind readGreeting _ _ _]
  rcases Dialog.run readGreeting (⟨[], client.src⟩ : BufReader) client.sink with ⟨why | _, br, sink⟩
  · exact ⟨rfl, rfl, rfl⟩
  · dsimp only
    rw [show Dialog.run (Dialog.bind readRequest _) _ _ = _ from Dialog.run_bind readRequest _ _ _]
    rcases Dialog.run readRequest br sink with ⟨refusal | req, br, sink⟩
    · exact ⟨rfl, rfl, rfl⟩
    · exact follows_dispatch env net { client with src := br.src, sink } req br

theorem served_session (env : Surroundings) (net : Sockets) (client : Conn)
    (alive : client.sink.broken = none) :
    ∃ sent, Served sent ∧ ((net.surroundings env).handleClient client).client.sink.written =
      client.sink.written ++ sent := by
  obtain ⟨sent, transcript, written⟩ := Dialog.run_transcript (handleClient env net)
    (⟨[], client.src⟩ : BufReader) client.sink alive
  refine ⟨sent.flatten, served_handleClient transcript, ?_⟩
  rw [(follows_handleClient env net client).sink, written]

end Frontend

end S5lb
