import S5lb.Balancer.Frontend
import S5lb.Go.Talk
import S5lb.Socks5.Reply

/-!
# A balancer behind a balancer

The two halves of the protocol at the ends of one connection: what the balancer says to an upstream,
and what it says to a client that is another balancer.
-/

namespace S5lb

open Go Socks5 Transition

def openUpstream (user pass : String) (cmd : UInt8) (address : Address) (port : UInt16) :
    Fallible String ClientRequestReply := do
  clientHandshake user pass
  clientRequest cmd address.atyp address.raw port

namespace Socks5

def greeting (user pass : String) : Bytes :=
  if user ≠ "" ∨ pass ≠ "" then [version, 0x02, authNone, authUserPass] else [version, 0x01, authNone]

theorem clientHandshake_turns (user pass : String) :
    ∃ next : Fallible String Unit,
      Dialog.Turns (clientHandshake user pass) [] next [] (greeting user pass) ∧
      Dialog.Turns next [version, authNone] (.ret (.ok ())) [] [] :=
  ⟨_, .single rfl, .single rfl⟩

theorem readGreeting_greeting (user pass : String) :
    Dialog.run readGreeting (greeting user pass) Sink.fresh =
      (.ok (), [], ⟨[version, authNone], none⟩) := by
  unfold greeting
  split <;> rfl

theorem readGreeting_turns (user pass : String) :
    Dialog.Turns readGreeting (greeting user pass) (.ret (.ok ())) [] [version, authNone] := by
  obtain ⟨sent, turns, written⟩ :=
    readGreeting_parses.strict.turns rfl (readGreeting_greeting user pass)
  obtain rfl : sent = [version, authNone] := written.symm
  exact turns

theorem readRequest_turns {cmd : UInt8} (known : cmd = cmdConnect ∨ cmd = cmdUDPAssociate)
    (address : Address) (port : UInt16) :
    Dialog.Turns readRequest (requestBytes cmd address port)
      (.ret (.ok (address.request cmd port))) [] [] := by
  have accepted : Fallible.Yields readRequest (requestBytes cmd address port) Sink.fresh
      (address.request cmd port) [] Sink.fresh :=
    readRequest_yields.2 ⟨cmd, address, port, known, rfl, (List.append_nil _).symm, rfl⟩
  obtain ⟨sent, turns, written⟩ := readRequest_parses.strict.turns rfl accepted
  obtain rfl : sent = [] := written.symm
  exact turns

def Address.bind : Address → Bind
  | .ipv4 ip length => .ipv4 ip length
  | .ipv6 ip length => .ipv6 ip length
  | .domain host _ short => .domain host short

theorem replyMessage_bind (rep : UInt8) (bind : Address) (port : UInt16) :
    replyMessage rep bind port = bindMessage rep bind.bind port := by
  cases bind <;> rfl

theorem clientRequest_strict (cmd : UInt8) (address : Address) (port : UInt16) :
    Dialog.Strict (clientRequest cmd address.atyp address.raw port) := by
  refine ((Fallible.Parses.transmit _ _).bind (k := 262) fun _ =>
    ((Fallible.Parses.receive _ 4).bind (k := 258) fun hdr => ?_).mono (by omega)).strict
  split
  · exact .fail _
  split
  · exact .fail _
  refine Fallible.Parses.bind (m := 256) ?_ fun _ =>
    (Fallible.Parses.receive _ 2).bind (k := 0) fun _ => .pure _
  unfold readBind
  split
  · exact ((Fallible.Parses.receive _ 4).bind (k := 0) fun _ => .pure _).mono (by omega)
  split
  · exact ((Fallible.Parses.receive _ 16).bind (k := 0) fun _ => .pure _).mono (by omega)
  split
  · refine (Fallible.Parses.receive _ 1).bind (k := 255) fun lb => ?_
    have count : (byteAt lb 0).toNat ≤ 255 := by
      have := (byteAt lb 0).toNat_lt
      omega
    exact ((Fallible.Parses.receive _ _).bind (k := 0) fun _ => .pure _).mono count
  · exact .fail _

theorem clientRequest_turns (cmd : UInt8) (address : Address) (port : UInt16) :
    ∃ next, Dialog.Turns (clientRequest cmd address.atyp address.raw port) [] next []
        (requestBytes cmd address port) ∧
      ∀ (rep : UInt8) (bind : Address) (bindPort : UInt16),
        Dialog.Turns next (replyMessage rep bind bindPort)
          (.ret (.ok (bind.bind.reply rep bindPort))) [] [] := by
  refine ⟨_, .single rfl, fun rep bind bindPort => ?_⟩
  have accepted : Fallible.Yields (clientRequest cmd address.atyp address.raw port)
      (replyMessage rep bind bindPort) Sink.fresh (bind.bind.reply rep bindPort) []
      ⟨requestBytes cmd address port, none⟩ := by
    refine clientRequest_yields.2 ⟨rfl, rfl, rep, bind.bind, bindPort, rfl, ?_⟩
    rw [replyMessage_bind, List.append_nil]
  obtain ⟨sent, turns, written⟩ := (clientRequest_strict cmd address port).turns rfl accepted
  cases turns with
  | @cons _ _ _ _ _ _ _ more turned others =>
      cases turned
      obtain rfl : more = [] := by simpa [requestBytes, Sink.fresh] using written
      exact others

end Socks5

namespace Frontend

def Tells (d : Dialog Course) : Prop :=
  ∃ (rep : UInt8) (bind : Address) (port : UInt16) (f : Option Err → Course),
    d = .send (replyMessage rep bind port) (fun err => .ret (f err)) ∧
      (rep = repSuccess ↔ (f none).onward ≠ .closed)

theorem tells_reply (rep : UInt8) {course : Course} (agrees : rep = repSuccess ↔ course.onward ≠ .closed) :
    Tells (reply rep course) := by
  rw [reply, replyBytes_message]
  exact ⟨rep, _, _, fun _ => course, rfl, agrees⟩

theorem tells_refusal (rep : UInt8) (events : List SessionEvent) (failed : rep ≠ repSuccess) :
    Tells (reply rep ⟨events, .closed⟩) :=
  tells_reply rep (iff_of_false failed fun going => going rfl)

theorem tells_handleConnect (env : Surroundings) (req : Request) : Tells (handleConnect env req) := by
  unfold handleConnect
  split
  · exact tells_refusal _ _ (by decide)
  split
  · exact tells_refusal _ _ (by decide)
  split
  · exact tells_refusal _ _ (by decide)
  rename_i answer src sink _
  refine tells_reply _ ?_
  by_cases success : answer.rep = repSuccess
  · simp [success]
  · simp [success]

theorem tells_handleUDPAssociate (env : Surroundings) (net : Sockets) (req : Request) :
    Tells (handleUDPAssociate env net req) := by
  unfold handleUDPAssociate
  split
  · exact tells_refusal _ _ (by decide)
  split
  · exact tells_refusal _ _ (by decide)
  split
  · exact tells_refusal _ _ (by decide)
  split
  · exact tells_refusal _ _ ‹_›
  dsimp only
  split
  · exact tells_refusal _ _ (by decide)
  rename_i upUDPAddr clientPC advertiseIP _
  obtain ⟨bind, port, built⟩ := buildReply_message repSuccess advertiseIP
    (UInt16.ofNat (clientPC.port % 65536).toNat)
  rw [built]
  refine ⟨repSuccess, bind, port, _, rfl, iff_of_true rfl ?_⟩
  nofun

theorem tells_dispatch (env : Surroundings) (net : Sockets) (req : Request) :
    Tells (dispatch env net req) := by
  unfold dispatch
  split
  · exact tells_handleConnect env req
  split
  · split
    · exact tells_handleUDPAssociate env net req
    · exact tells_refusal _ _ (by decide)
  · exact tells_refusal _ _ (by decide)

end Frontend

def Frontend.listen (env : Surroundings) (net : Sockets) : Dialog Course :=
  Dialog.bind readRequest fun
    | .error _ => .ret ⟨[], .closed⟩
    | .ok req => dispatch env net req

section Chain

variable {env : Surroundings} {net : Sockets} {user pass : String} {cmd : UInt8} {address : Address}
  {port : UInt16}

theorem handleClient_turns (env : Surroundings) (net : Sockets) (user pass : String) :
    (Frontend.handleClient env net).Turns (greeting user pass)
    (Frontend.listen env net) [] [version, authNone] :=
  (readGreeting_turns user pass).bind _

theorem listen_turns (known : cmd = cmdConnect ∨ cmd = cmdUDPAssociate) :
    (Frontend.listen env net).Turns (requestBytes cmd address port)
      (Frontend.dispatch env net (address.request cmd port)) [] [] :=
  (readRequest_turns known address port).bind _

theorem openUpstream_turns (user pass : String) (cmd : UInt8) (address : Address) (port : UInt16) :
    ∃ greeted asked, Dialog.Turns (openUpstream user pass cmd address port) [] greeted []
        (greeting user pass) ∧
      Dialog.Turns greeted [version, authNone] asked [] (requestBytes cmd address port) ∧
      ∀ (rep : UInt8) (bind : Address) (bindPort : UInt16),
        Dialog.Turns asked (replyMessage rep bind bindPort)
          (.ret (.ok (bind.bind.reply rep bindPort))) [] [] := by
  obtain ⟨handshake, greets, agrees⟩ := clientHandshake_turns user pass
  obtain ⟨asked, asks, answered⟩ := clientRequest_turns cmd address port
  exact ⟨_, asked, Fallible.turns_bind greets _, (Fallible.turns_bind agrees _).trans asks, answered⟩

variable (user pass) in
theorem chain_runs (known : cmd = cmdConnect ∨ cmd = cmdUDPAssociate) {rep : UInt8} {bind : Address}
    {bindPort : UInt16} {f : Option Err → Course}
    (told : Frontend.dispatch env net (address.request cmd port) =
      .send (replyMessage rep bind bindPort) (fun err => .ret (f err))) :
    ∃ n, Runs Talk.step n
      ⟨openUpstream user pass cmd address port, Frontend.handleClient env net, [], []⟩
      ⟨.ret (.ok (bind.bind.reply rep bindPort)), .ret (f none), [], []⟩ := by
  obtain ⟨greeted, asked, greets, asks, answered⟩ := openUpstream_turns user pass cmd address port
  have serves : Dialog.Turns (Frontend.dispatch env net (address.request cmd port)) []
      (.ret (f none)) [] (replyMessage rep bind bindPort) := by
    rw [told]
    exact .single rfl
  obtain ⟨_, first⟩ := Talk.runs_left (Frontend.handleClient env net) [] greets
  obtain ⟨_, second⟩ := Talk.runs_right greeted [] (handleClient_turns env net user pass)
  obtain ⟨_, third⟩ := Talk.runs_left (Frontend.listen env net) [] asks
  obtain ⟨_, fourth⟩ := Talk.runs_right asked [] ((listen_turns known).trans serves)
  obtain ⟨_, fifth⟩ := Talk.runs_left (.ret (f none)) [] (answered rep bind bindPort)
  exact ⟨_, (((first.append second).append third).append fourth).append fifth⟩

end Chain

/-- A balancer whose upstream is a balancer: whatever the order in which the two get on, neither waits
for the other forever, they are done after a fixed number of steps, the upstream has then served the
very request that was made, the client half takes the reply for a success just when the upstream goes
on with the connection, and no byte is left over. -/
theorem chain_agrees (env : Surroundings) (net : Sockets) (user pass : String) (cmd : UInt8)
    (known : cmd = cmdConnect ∨ cmd = cmdUDPAssociate) (address : Address) (port : UInt16) :
    ∃ (n : Nat) (answer : ClientRequestReply) (course : Course),
      course =
        (Dialog.run (Frontend.dispatch env net (address.request cmd port)) ([] : Bytes) Sink.fresh).1 ∧
      (answer.rep = repSuccess ↔ course.onward ≠ .closed) ∧
      ∀ trace t, Exec Talk.step
          ⟨openUpstream user pass cmd address port, Frontend.handleClient env net, [], []⟩ trace t →
        trace.length ≤ n ∧
        (t = ⟨.ret (.ok answer), .ret course, [], []⟩ ∨ ∃ side t', t.step side = some t') := by
  obtain ⟨rep, bind, bindPort, f, told, agrees⟩ :=
    Frontend.tells_dispatch env net (address.request cmd port)
  obtain ⟨n, runs⟩ := chain_runs user pass known told
  have stuck (side : Side) : Talk.step (⟨.ret (.ok (bind.bind.reply rep bindPort)), .ret (f none), [],
      []⟩ : Talk (Except String ClientRequestReply) Course) side = none := by
    cases side <;> rfl
  refine ⟨n, bind.bind.reply rep bindPort, f none, by rw [told]; rfl, agrees, fun trace t exec => ?_⟩
  obtain ⟨m, total, left⟩ := runs.completes Talk.step_commutes stuck exec
  refine ⟨by omega, ?_⟩
  cases left with
  | nil => exact .inl rfl
  | cons taken _ => exact .inr ⟨_, _, taken⟩

theorem chain_agrees_connect :
    let talk : Talk (Except String ClientRequestReply) Course :=
      ⟨openUpstream "u" "p" cmdConnect (.domain [97] (by decide) (by decide)) 80,
        Frontend.handleClient .welcoming Frontend.noSockets, [], []⟩
    ∃ answer course, answer.rep = repSuccess ∧ ∀ trace t, Exec Talk.step talk trace t →
      t = ⟨.ret (.ok answer), .ret course, [], []⟩ ∨ ∃ side t', t.step side = some t' := by
  intro talk
  obtain ⟨n, answer, course, served, agrees, runs⟩ := chain_agrees .welcoming Frontend.noSockets "u" "p"
    cmdConnect (.inl rfl) (.domain [97] (by decide) (by decide)) 80
  refine ⟨answer, course, agrees.2 ?_, fun trace t exec => (runs trace t exec).2⟩
  have tunnelled : ∃ upConn, course.onward = .tunnel upConn := by
    rw [served]
    exact ⟨_, rfl⟩
  obtain ⟨upConn, tunnelled⟩ := tunnelled
  rw [tunnelled]
  nofun

end S5lb
