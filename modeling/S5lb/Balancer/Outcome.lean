import S5lb.Balancer.Frontend
import S5lb.Config.Checked
import S5lb.Go.Strconv

/-!
# What the client is told

The reply that an admitted client gets, beside what its upstream has answered, and what becomes of the
slot.
-/

namespace S5lb.Frontend

open Go Socks5

def Answered (env : Surroundings) (req : Request) (ask : Fallible String ClientRequestReply)
    (answer : ClientRequestReply) : Prop :=
  ∃ up c src sink, env.acquireSlot req = some up ∧ env.dialContext up = .ok c ∧
    Dialog.run (clientHandshake up.username up.password) c.src c.sink = (.ok (), src, sink) ∧
    (Dialog.run ask src sink).1 = .ok answer

theorem dialAndHandshakeUpstream_ok {env : Surroundings} {up : Upstream} {upConn : Conn} :
    env.dialAndHandshakeUpstream up = .ok upConn ↔ ∃ c src sink, env.dialContext up = .ok c ∧
      Dialog.run (clientHandshake up.username up.password) c.src c.sink = (.ok (), src, sink) ∧
      upConn = { c with src, sink } := by
  unfold Surroundings.dialAndHandshakeUpstream
  cases env.dialContext up with
  | error why => simp
  | ok c =>
      simp only [Except.ok.injEq, exists_and_left, exists_eq_left']
      rcases Dialog.run (clientHandshake up.username up.password) c.src c.sink with ⟨why | _, src, sink⟩
      · simp
      · simp [eq_comm]

theorem answered_iff {env : Surroundings} {req : Request} {ask : Fallible String ClientRequestReply}
    {answer : ClientRequestReply} :
    Answered env req ask answer ↔ ∃ up upConn, env.acquireSlot req = some up ∧
      env.dialAndHandshakeUpstream up = .ok upConn ∧
      (Dialog.run ask upConn.src upConn.sink).1 = .ok answer := by
  constructor
  · rintro ⟨up, c, src, sink, slot, dialed, shaken, answered⟩
    exact ⟨up, _, slot, dialAndHandshakeUpstream_ok.2 ⟨c, src, sink, dialed, shaken, rfl⟩, answered⟩
  · rintro ⟨up, _, slot, ready, answered⟩
    obtain ⟨c, src, sink, dialed, shaken, rfl⟩ := dialAndHandshakeUpstream_ok.1 ready
    exact ⟨up, c, src, sink, slot, dialed, shaken, answered⟩

section

variable {env : Surroundings} {req : Request} {ask : Fallible String ClientRequestReply}
  {answer : ClientRequestReply}

theorem not_answered_of_none (slot : env.acquireSlot req = none) : ¬Answered env req ask answer := by
  rintro ⟨up, _, _, _, found, -⟩
  cases slot.symm.trans found

theorem not_answered_of_error {up : Upstream} {failure : String × String}
    (slot : env.acquireSlot req = some up) (dialed : env.dialAndHandshakeUpstream up = .error failure) :
    ¬Answered env req ask answer := by
  rw [answered_iff]
  rintro ⟨up', upConn, found, ready, -⟩
  cases slot.symm.trans found
  cases dialed.symm.trans ready

theorem answered_iff_run {up : Upstream} {upConn : Conn} (slot : env.acquireSlot req = some up)
    (dialed : env.dialAndHandshakeUpstream up = .ok upConn) :
    Answered env req ask answer ↔ (Dialog.run ask upConn.src upConn.sink).1 = .ok answer := by
  rw [answered_iff]
  constructor
  · rintro ⟨up', upConn', found, ready, answered⟩
    cases slot.symm.trans found
    cases dialed.symm.trans ready
    exact answered
  · exact fun answered => ⟨up, upConn, slot, dialed, answered⟩

theorem Answered.unique {answer' : ClientRequestReply} (answered : Answered env req ask answer)
    (answered' : Answered env req ask answer') : answer' = answer := by
  rw [answered_iff] at answered
  obtain ⟨up, upConn, slot, dialed, ran⟩ := answered
  rw [answered_iff_run slot dialed, ran] at answered'
  exact (Except.ok.inj answered').symm

theorem not_answered_of_run {up : Upstream} {upConn : Conn} {why : String}
    (slot : env.acquireSlot req = some up) (dialed : env.dialAndHandshakeUpstream up = .ok upConn)
    (ran : (Dialog.run ask upConn.src upConn.sink).1 = .error why) : ¬Answered env req ask answer := by
  rw [answered_iff_run slot dialed, ran]
  exact nofun

end

def Released (acquired : Bool) (course : Course) : Prop :=
  course.events.count .releaseSlot = if acquired then 1 else 0

structure Connects (env : Surroundings) (req : Request) (rep : UInt8) (course : Course) : Prop where
  passed : ∀ answer, Answered env req (clientConnect req.atyp req.rawAddr req.port) answer →
    rep = answer.rep
  failed : (∀ answer, ¬Answered env req (clientConnect req.atyp req.rawAddr req.port) answer) →
    rep ≠ repSuccess
  tunnels : (∃ upConn, course.onward = .tunnel upConn) ↔ rep = repSuccess
  relays : ∀ ip addr, course.onward ≠ .relay ip addr
  released : Released (env.acquireSlot req).isSome course

theorem connects_refused {env : Surroundings} {req : Request} {events : List SessionEvent}
    (unanswered : ∀ answer, ¬Answered env req (clientConnect req.atyp req.rawAddr req.port) answer)
    (released : Released (env.acquireSlot req).isSome ⟨events, .closed⟩) :
    Connects env req repGeneralFailure ⟨events, .closed⟩ :=
  ⟨fun answer answered => absurd answered (unanswered answer), fun _ => by decide,
    ⟨nofun, fun success => absurd success (by decide)⟩, nofun, released⟩

theorem connects_handleConnect (env : Surroundings) (req : Request) :
    ∃ rep course, handleConnect env req = reply rep course ∧ Connects env req rep course := by
  unfold handleConnect
  cases slot : env.acquireSlot req with
  | none => exact ⟨_, _, rfl, connects_refused (fun _ => not_answered_of_none slot) (by rw [slot]; rfl)⟩
  | some up =>
      dsimp only
      cases dialed : env.dialAndHandshakeUpstream up with
      | error failure =>
          exact ⟨_, _, rfl, connects_refused (fun _ => not_answered_of_error slot dialed)
            (by rw [slot]; rfl)⟩
      | ok upConn =>
          dsimp only
          rcases ran : Dialog.run (clientConnect req.atyp req.rawAddr req.port) upConn.src upConn.sink
            with ⟨why | answer, src, sink⟩
          · exact ⟨_, _, rfl, connects_refused (fun _ => not_answered_of_run slot dialed (by rw [ran]))
              (by rw [slot]; rfl)⟩
          · have given : Answered env req (clientConnect req.atyp req.rawAddr req.port) answer := by
              rw [answered_iff_run slot dialed, ran]
            refine ⟨_, _, rfl, fun answer' answered => ?_, fun unanswered => ?_, ?_, ?_, by rw [slot]; rfl⟩
            · rw [given.unique answered]
            · exact absurd given (unanswered answer)
            · by_cases success : answer.rep = repSuccess
              · simp [success]
              · simp [success]
            · intro ip addr
              by_cases success : answer.rep = repSuccess
              · simp [success]
              · simp [success]

/-- `net.ResolveUDPAddr` gives an address with the port of its argument. -/
def KeepsPort (net : Sockets) : Prop :=
  ∀ (host : Bytes) (port : UInt16) (addr : UDPAddr),
    net.resolveUDPAddr (Net.joinHostPort host (stringBytes (toString port.toNat))) = .ok addr →
      addr.port = port.toNat

theorem resolveUpstreamUDPAddr_port {net : Sockets} (keeps : KeepsPort net) {answer : ClientRequestReply}
    {tcpHost : String} {addr : UDPAddr} (resolved : net.resolveUpstreamUDPAddr answer tcpHost = .ok addr) :
    addr.port = answer.bindPort.toNat := by
  unfold Sockets.resolveUpstreamUDPAddr at resolved
  dsimp only at resolved
  split at resolved
  · split at resolved
    · exact keeps _ _ _ resolved
    · exact keeps _ _ _ resolved
  · split at resolved
    · exact keeps _ _ _ resolved
    · cases resolved

theorem bindPort_of_endpoints {net : Sockets} (keeps : KeepsPort net) {answer : ClientRequestReply}
    {tcpHost : String} {ends : UDPAddr × UDPAddr × Bytes}
    (bound : net.endpoints answer tcpHost = .ok ends) : answer.bindPort ≠ 0 := by
  simp only [Sockets.endpoints, bind_ok] at bound
  obtain ⟨upUDPAddr, resolved, later⟩ := bound
  have port := resolveUpstreamUDPAddr_port keeps resolved
  rintro zero
  rw [zero] at port
  simp [port, throw, throwThe, MonadExceptOf.throw, bind, Except.bind] at later

structure Associates (env : Surroundings) (req : Request) (rep : UInt8) (err : Option Err)
    (course : Course) : Prop where
  success : rep = repSuccess → env.udpEnabled = true ∧
    ∃ answer, Answered env req (clientUDPAssociate req.atyp req.rawAddr req.port) answer ∧
      answer.rep = repSuccess ∧ answer.bindPort ≠ 0
  passed : env.udpEnabled = true → ∀ answer,
    Answered env req (clientUDPAssociate req.atyp req.rawAddr req.port) answer →
      answer.rep ≠ repSuccess → rep = answer.rep
  relays : ∀ ip addr, course.onward = .relay ip addr → rep = repSuccess ∧ err = none
  tunnels : ∀ upConn, course.onward ≠ .tunnel upConn
  released : Released (env.udpEnabled && (env.acquireSlot req).isSome) course

theorem associates_refused {env : Surroundings} {req : Request} {rep : UInt8} {err : Option Err}
    {events : List SessionEvent} (failure : rep ≠ repSuccess)
    (passed : env.udpEnabled = true → ∀ answer,
      Answered env req (clientUDPAssociate req.atyp req.rawAddr req.port) answer →
        answer.rep ≠ repSuccess → rep = answer.rep)
    (released : Released (env.udpEnabled && (env.acquireSlot req).isSome) ⟨events, .closed⟩) :
    Associates env req rep err ⟨events, .closed⟩ :=
  ⟨fun success => absurd success failure, passed, nofun, nofun, released⟩

def Says (rep : UInt8) (P : Option Err → Course → Prop) (d : Dialog Course) : Prop :=
  ∃ (bind : Address) (port : UInt16) (f : Option Err → Course),
    d = .send (replyMessage rep bind port) (fun err => .ret (f err)) ∧ ∀ err, P err (f err)

theorem says_reply {rep : UInt8} {course : Course} {P : Option Err → Course → Prop}
    (holds : ∀ err, P err course) : Says rep P (reply rep course) := by
  rw [reply, replyBytes_message]
  exact ⟨_, _, fun _ => course, rfl, holds⟩

theorem associates_unanswered {env : Surroundings} {req : Request} {events : List SessionEvent}
    (unanswered : ∀ answer, ¬Answered env req (clientUDPAssociate req.atyp req.rawAddr req.port) answer)
    (released : Released (env.udpEnabled && (env.acquireSlot req).isSome) ⟨events, .closed⟩) :
    ∃ rep, Says rep (Associates env req rep) (reply repGeneralFailure ⟨events, .closed⟩) := by
  refine ⟨_, says_reply fun err => associates_refused (by decide) (fun _ answer answered => ?_) released⟩
  exact absurd answered (unanswered answer)

theorem associates_agreed {env : Surroundings} {net : Sockets} (keeps : KeepsPort net)
    (enabled : env.udpEnabled = true) {req : Request} {up : Upstream} (slot : env.acquireSlot req = some up)
    {answer : ClientRequestReply}
    (given : Answered env req (clientUDPAssociate req.atyp req.rawAddr req.port) answer)
    (success : answer.rep = repSuccess) {d : Dialog Course}
    (said : d = match net.endpoints answer up.host with
      | .error _ => reply repGeneralFailure ⟨[.observeLatency, .recordSuccess, .releaseSlot], .closed⟩
      | .ok (upUDPAddr, clientPC, advertiseIP) =>
          .send (buildReply repSuccess advertiseIP (UInt16.ofNat (clientPC.port % 65536).toNat)) fun err =>
            .ret ⟨[.observeLatency, .recordSuccess, .releaseSlot], if err.isSome then .closed
              else .relay (tcpRemoteIP net.remoteAddr) upUDPAddr⟩) :
    ∃ rep, Says rep (Associates env req rep) d := by
  have passed (rep : UInt8) (_ : env.udpEnabled = true) (answer' : ClientRequestReply)
      (answered : Answered env req (clientUDPAssociate req.atyp req.rawAddr req.port) answer')
      (failure : answer'.rep ≠ repSuccess) : rep = answer'.rep := by
    rw [given.unique answered] at failure
    exact absurd success failure
  cases bound : net.endpoints answer up.host with
  | error why =>
      rw [said, bound]
      refine ⟨_, says_reply fun err => associates_refused (by decide) (passed _) ?_⟩
      rw [enabled, slot]
      rfl
  | ok ends =>
      obtain ⟨upUDPAddr, clientPC, advertiseIP⟩ := ends
      obtain ⟨bind, port, built⟩ := buildReply_message repSuccess advertiseIP
        (UInt16.ofNat (clientPC.port % 65536).toNat)
      rw [said, bound]
      dsimp only
      rw [built]
      refine ⟨repSuccess, bind, port, _, rfl, fun err => ⟨fun _ => ⟨enabled, answer, given,
        success, bindPort_of_endpoints keeps bound⟩, passed _, ?_, ?_, ?_⟩⟩
      · intro ip addr relayed
        cases err with
        | none => exact ⟨rfl, rfl⟩
        | some e => cases relayed
      · intro upConn
        cases err <;> exact nofun
      · rw [enabled, slot]
        rfl

theorem associates_handleUDPAssociate {env : Surroundings} {net : Sockets} (keeps : KeepsPort net)
    (enabled : env.udpEnabled = true) (req : Request) :
    ∃ rep, Says rep (Associates env req rep) (handleUDPAssociate env net req) := by
  unfold handleUDPAssociate
  cases slot : env.acquireSlot req with
  | none =>
      apply associates_unanswered fun _ => not_answered_of_none slot
      rw [enabled, slot]
      rfl
  | some up =>
      dsimp only
      cases dialed : env.dialAndHandshakeUpstream up with
      | error failure =>
          apply associates_unanswered fun _ => not_answered_of_error slot dialed
          rw [enabled, slot]
          rfl
      | ok upTCP =>
          dsimp only
          rcases ran : Dialog.run (clientUDPAssociate req.atyp req.rawAddr req.port) upTCP.src upTCP.sink
            with ⟨why | answer, src, sink⟩
          · apply associates_unanswered fun _ => not_answered_of_run slot dialed (by rw [ran])
            rw [enabled, slot]
            rfl
          · have given : Answered env req (clientUDPAssociate req.atyp req.rawAddr req.port) answer := by
              rw [answered_iff_run slot dialed, ran]
            dsimp only
            by_cases success : answer.rep = repSuccess
            · rw [if_neg (not_not.2 success)]
              exact associates_agreed keeps enabled slot given success rfl
            · rw [if_pos success]
              refine ⟨_, says_reply fun err => associates_refused success (fun _ answer' answered _ => ?_) ?_⟩
              · rw [given.unique answered]
              · rw [enabled, slot]
                rfl

theorem associates_dispatch {env : Surroundings} {net : Sockets} (keeps : KeepsPort net) {req : Request}
    (udp : req.cmd = cmdUDPAssociate) :
    ∃ rep, Says rep (Associates env req rep) (dispatch env net req) := by
  have other : req.cmd ≠ cmdConnect := by
    rw [udp]
    decide
  rw [dispatch, if_neg other, if_pos udp]
  by_cases enabled : env.udpEnabled = true
  · rw [if_pos enabled]
    exact associates_handleUDPAssociate keeps enabled req
  · rw [if_neg enabled]
    refine ⟨_, says_reply fun err => associates_refused (by decide) (fun on => absurd on enabled) ?_⟩
    rw [Bool.not_eq_true] at enabled
    rw [enabled]
    rfl

/-- An admitted client whose request is accepted is sent one reply, which tells it what its upstream
answered; a tunnel or a relay starts only after a success, and the slot is released once. -/
theorem reply_agrees {σ ω : Type} [Stream σ] [Writer ω] {env : Surroundings} {net : Sockets}
    (keeps : KeepsPort net) {r r₁ r₂ : σ} {w w₁ w₂ : ω} {req : Request}
    (greeted : Dialog.run readGreeting r w = (.ok (), r₁, w₁))
    (requested : Dialog.run readRequest r₁ w₁ = (.ok req, r₂, w₂)) :
    ∃ rep bind port course,
      (handleClient env net).run r w = (course, r₂, (write w₂ (replyMessage rep bind port)).2.2) ∧
      (req.cmd = cmdConnect ∧ Connects env req rep course ∨
        req.cmd = cmdUDPAssociate ∧
          Associates env req rep (write w₂ (replyMessage rep bind port)).2.1 course) := by
  obtain ⟨cmd, address, dst, known, rfl, -⟩ :=
    readRequest_yields.1 (Fallible.Yields.run.1 ⟨r₂, requested, rfl⟩)
  have ran : (handleClient env net).run r w = (dispatch env net (address.request cmd dst)).run r₂ w₂ := by
    rw [handleClient, show Dialog.run (Dialog.bind readGreeting _) _ _ = _ from
      Dialog.run_bind readGreeting _ _ _, greeted]
    dsimp only
    rw [show Dialog.run (Dialog.bind readRequest _) _ _ = _ from Dialog.run_bind readRequest _ _ _,
      requested]
  rw [ran]
  rcases known with rfl | rfl
  · obtain ⟨rep, course, handled, connects⟩ := connects_handleConnect env (address.request cmdConnect dst)
    refine ⟨rep, .ipv4 [0, 0, 0, 0] rfl, 0, course, ?_, .inl ⟨rfl, connects⟩⟩
    have connect : (address.request cmdConnect dst).cmd = cmdConnect := rfl
    rw [dispatch, if_pos connect, handled, reply, replyBytes_message]
    rfl
  · obtain ⟨rep, bind, port, f, handled, holds⟩ := @associates_dispatch env net keeps
      (address.request cmdUDPAssociate dst) rfl
    rw [handled]
    exact ⟨rep, bind, port, _, rfl, .inr ⟨rfl, holds _⟩⟩

def relaying : Surroundings :=
  { Surroundings.welcoming with
    dialContext := fun _ => .ok ⟨⟨[[5, 0], [5, 0, 0, 3, 1, 97, 0, 7]], by decide⟩, Sink.fresh, true⟩
    udpEnabled := true }

def relaySockets : Sockets where
  cfg := defaults
  resolveUDPAddr hostport :=
    if hostport = [97, 58, 55] then .ok ⟨[10, 0, 0, 1], 7, ""⟩ else .error "no such host"
  listenClient _ := .ok ⟨[10, 0, 0, 9], 40000, ""⟩
  listenUpstream _ := .ok ⟨[10, 0, 0, 9], 40001, ""⟩
  localAddr := ⟨some [10, 0, 0, 9], "10.0.0.9:1080"⟩
  remoteAddr := ⟨some [10, 0, 0, 5], "10.0.0.5:50000"⟩

theorem keepsPort_relaySockets : KeepsPort relaySockets := by
  intro host port addr resolved
  obtain ⟨joined, found⟩ : Net.joinHostPort host (stringBytes (toString port.toNat)) = [97, 58, 55] ∧
      addr = ⟨[10, 0, 0, 1], 7, ""⟩ := by
    simp only [relaySockets] at resolved
    split at resolved
    · rename_i joined
      exact ⟨joined, (Except.ok.inj resolved).symm⟩
    · cases resolved
  have digits : stringBytes (toString port.toNat) = stringBytes "7" := by
    rw [show stringBytes "7" = [55] by decide +kernel]
    rw [Net.joinHostPort] at joined
    split at joined
    · cases joined
    · match host with
      | [] => cases joined
      | [x] => exact (List.cons.inj (List.cons.inj joined).2).2
      | [x, y] => cases joined
      | x :: y :: z :: rest => simp at joined
  have small := port.toNat_lt
  have told := atoi_toString (n := (port.toNat : Int)) (by omega) (by omega)
  rw [show toString (port.toNat : Int) = "7" from stringBytes_inj digits,
    show atoi "7" = .ok 7 by decide +kernel] at told
  rw [found]
  exact Except.ok.inj told

theorem reply_agrees_commands :
    (∃ rep bind port course, (handleClient .welcoming relaySockets).run
        ([5, 1, 0] ++ Surroundings.connectBytes : Bytes) Sink.fresh =
        (course, [], (write (⟨[5, 0], none⟩ : Sink) (replyMessage rep bind port)).2.2) ∧
      Connects .welcoming Surroundings.connectRequest rep course) ∧
    ∃ rep bind port course, (handleClient relaying relaySockets).run
        ([5, 1, 0] ++ [5, 3, 0, 3, 1, 97, 0, 80] : Bytes) Sink.fresh =
        (course, [], (write (⟨[5, 0], none⟩ : Sink) (replyMessage rep bind port)).2.2) ∧
      (∃ ip addr, course.onward = .relay ip addr) ∧
      Associates relaying ⟨cmdUDPAssociate, atypDomain, [1, 97], 80, [97]⟩ rep none course := by
  constructor
  · obtain ⟨rep, bind, port, course, ran, ⟨-, connects⟩ | ⟨other, -⟩⟩ :=
      @reply_agrees Bytes Sink _ _ .welcoming relaySockets keepsPort_relaySockets
        ([5, 1, 0] ++ Surroundings.connectBytes) Surroundings.connectBytes []
        Sink.fresh ⟨[5, 0], none⟩ ⟨[5, 0], none⟩ Surroundings.connectRequest rfl rfl
    · exact ⟨rep, bind, port, course, ran, connects⟩
    · cases other
  · obtain ⟨rep, bind, port, course, ran, ⟨other, -⟩ | ⟨-, associates⟩⟩ :=
      @reply_agrees Bytes Sink _ _ relaying relaySockets keepsPort_relaySockets
        ([5, 1, 0] ++ [5, 3, 0, 3, 1, 97, 0, 80]) [5, 3, 0, 3, 1, 97, 0, 80] []
        Sink.fresh ⟨[5, 0], none⟩ ⟨[5, 0], none⟩ ⟨cmdUDPAssociate, atypDomain, [1, 97], 80, [97]⟩ rfl rfl
    · cases other
    · refine ⟨rep, bind, port, course, ran, ?_, associates⟩
      have relays : (match ((handleClient relaying relaySockets).run
          ([5, 1, 0] ++ [5, 3, 0, 3, 1, 97, 0, 80] : Bytes) Sink.fresh).1.onward with
        | .relay _ _ => true
        | .closed => false
        | .tunnel _ => false) = true := by decide +kernel
      rw [ran] at relays
      cases onward : course.onward with
      | relay ip addr => exact ⟨ip, addr, rfl⟩
      | closed => simp [onward] at relays
      | tunnel upConn => simp [onward] at relays

end S5lb.Frontend
