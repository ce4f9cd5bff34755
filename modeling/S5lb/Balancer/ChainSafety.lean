import S5lb.Balancer.Chain
import S5lb.Go.Mishap

/-!
# A balancer behind a balancer, over a connection that fails

What the client half may conclude when receives and sends fail on either side.
-/

namespace S5lb

open Go Socks5 Transition

namespace Socks5

theorem careful_readGreeting : Dialog.Careful readGreeting := by
  refine Fallible.careful_bind (Fallible.careful_receive _ 2) fun hdr => ?_
  split
  · trivial
  refine Fallible.careful_bind (Fallible.careful_receive _ _) fun methods => ?_
  split
  · exact (Fallible.reports_refuse _ _).fails.careful
  · exact Fallible.careful_transmit _ _

theorem once_readGreeting : Dialog.Once (fun b => b.length ≤ 2) readGreeting := by
  refine Fallible.once_bind (Fallible.mute_receive _ 2) fun hdr => ?_
  split
  · trivial
  refine Fallible.once_bind (Fallible.mute_receive _ _) fun methods => ?_
  split
  · exact Fallible.once_refuse _ (by decide)
  · exact Fallible.once_transmit _ (by decide)

theorem readGreeting_written {b rest written : Bytes}
    (yields : Fallible.Yields readGreeting b Sink.fresh () rest ⟨written, none⟩) :
    written = [version, authNone] := by
  obtain ⟨sent, follows, same⟩ := Dialog.run_transcript readGreeting b Sink.fresh rfl
  rw [yields] at follows same
  rcases readGreeting_transcript follows with rfl | ⟨_, why, failed⟩
  · exact congrArg Sink.written same
  · cases failed

theorem careful_readAddr (atyp : UInt8) : Dialog.Careful (readAddr atyp) := by
  unfold readAddr
  split
  · exact Fallible.careful_bind (Fallible.careful_receive _ 4) fun _ => trivial
  split
  · exact Fallible.careful_bind (Fallible.careful_receive _ 16) fun _ => trivial
  split
  · refine Fallible.careful_bind (Fallible.careful_receive _ 1) fun lb => ?_
    split
    · trivial
    · exact Fallible.careful_bind (Fallible.careful_receive _ _) fun _ => trivial
  · trivial

theorem mute_readAddr (atyp : UInt8) : Dialog.Mute (readAddr atyp) := by
  unfold readAddr
  split
  · exact Fallible.mute_bind (Fallible.mute_receive _ 4) fun _ => trivial
  split
  · exact Fallible.mute_bind (Fallible.mute_receive _ 16) fun _ => trivial
  split
  · refine Fallible.mute_bind (Fallible.mute_receive _ 1) fun lb => ?_
    split
    · trivial
    · exact Fallible.mute_bind (Fallible.mute_receive _ _) fun _ => trivial
  · trivial

theorem careful_readDest (atyp : UInt8) : Dialog.Careful (readDest atyp) :=
  Fallible.careful_bind (careful_readAddr atyp) fun _ =>
    Fallible.careful_bind (Fallible.careful_receive _ 2) fun _ => trivial

theorem mute_readDest (atyp : UInt8) : Dialog.Mute (readDest atyp) :=
  Fallible.mute_bind (mute_readAddr atyp) fun _ =>
    Fallible.mute_bind (Fallible.mute_receive _ 2) fun _ => trivial

theorem careful_readRequest : Dialog.Careful readRequest := by
  refine Fallible.careful_bind (Fallible.careful_handle (Fallible.careful_receive _ 4)
    fun why => ⟨_, rfl⟩) fun hdr => ?_
  dsimp only
  split
  · trivial
  split
  · exact (Fallible.reports_refuse _ _).fails.careful
  split
  · exact (Fallible.reports_refuse _ _).fails.careful
  · exact Fallible.careful_bind (Fallible.careful_handle (careful_readDest _)
      fun why => (Fallible.reports_refuse _ _).fails) fun _ => trivial

theorem once_readRequest :
    Dialog.Once (fun b => ∃ rep, rep ≠ repSuccess ∧ b = replyBytes rep) readRequest := by
  refine Fallible.once_bind ?_ fun hdr => ?_
  · refine Dialog.Mute.bind (Fallible.mute_receive _ 4) fun result => ?_
    cases result <;> trivial
  dsimp only
  split
  · trivial
  split
  · exact Fallible.once_refuse _ ⟨_, by decide, rfl⟩
  split
  · exact Fallible.once_refuse _ ⟨_, by decide, rfl⟩
  · refine Dialog.Once.bind (Dialog.Mute.once_bind (mute_readDest _) fun result => ?_) fun result => ?_
    · cases result with
      | ok dest => trivial
      | error why => exact Fallible.once_refuse _ ⟨_, by decide, rfl⟩
    · cases result <;> trivial

theorem careful_clientHandshake (user pass : String) : Dialog.Careful (clientHandshake user pass) := by
  refine Fallible.careful_bind (Fallible.careful_transmit _ _) fun _ =>
    Fallible.careful_bind (Fallible.careful_receive _ 2) fun resp => ?_
  split
  · trivial
  split
  · trivial
  split
  · split
    · trivial
    unfold clientAuth
    split
    · trivial
    refine Fallible.careful_bind (Fallible.careful_transmit _ _) fun _ =>
      Fallible.careful_bind (Fallible.careful_receive _ 2) fun ar => ?_
    split
    · trivial
    split <;> trivial
  split <;> trivial

theorem careful_clientRequest (cmd atyp : UInt8) (rawAddr : Bytes) (port : UInt16) :
    Dialog.Careful (clientRequest cmd atyp rawAddr port) := by
  refine Fallible.careful_bind (Fallible.careful_transmit _ _) fun _ =>
    Fallible.careful_bind (Fallible.careful_receive _ 4) fun hdr => ?_
  split
  · trivial
  split
  · trivial
  refine Fallible.careful_bind ?_ fun _ =>
    Fallible.careful_bind (Fallible.careful_receive _ 2) fun _ => trivial
  unfold readBind
  split
  · exact Fallible.careful_bind (Fallible.careful_receive _ 4) fun _ => trivial
  split
  · exact Fallible.careful_bind (Fallible.careful_receive _ 16) fun _ => trivial
  split
  · exact Fallible.careful_bind (Fallible.careful_receive _ 1) fun _ =>
      Fallible.careful_bind (Fallible.careful_receive _ _) fun _ => trivial
  · trivial

theorem clientHandshake_of_yields {user pass : String} {b rest : Bytes} {w : Sink}
    (yields : Fallible.Yields (clientHandshake user pass) b Sink.fresh () rest w) :
    ∃ method tail, b = version :: method :: tail ∧ rest <:+ tail ∧
      (method = authNone → rest = tail ∧ w = ⟨greeting user pass, none⟩) := by
  obtain ⟨_, sent⟩ := Fallible.yields_transmit_bind.1 yields
  obtain ⟨resp, tail, rfl, length, continued⟩ := Fallible.yields_receive_bind.1 sent
  obtain ⟨ver, method, rfl⟩ := List.length_eq_two.1 length
  simp only [byteAt, List.getD_cons_zero, List.getD_cons_succ] at continued
  split at continued
  · exact absurd continued Fallible.yields_fail
  rename_i sameVersion
  rw [not_not.1 sameVersion]
  split at continued
  · obtain ⟨_, rfl, rfl⟩ := Fallible.yields_pure.1 continued
    exact ⟨method, rest, rfl, List.suffix_rfl, fun _ => ⟨rfl, rfl⟩⟩
  rename_i asked
  refine ⟨method, tail, rfl, ?_, fun free => absurd free asked⟩
  split at continued
  · split at continued
    · exact absurd continued Fallible.yields_fail
    unfold clientAuth at continued
    split at continued
    · exact absurd continued Fallible.yields_fail
    obtain ⟨_, presented⟩ := Fallible.yields_transmit_bind.1 continued
    obtain ⟨ar, left, rfl, _, judged⟩ := Fallible.yields_receive_bind.1 presented
    split at judged
    · exact absurd judged Fallible.yields_fail
    split at judged
    · exact absurd judged Fallible.yields_fail
    obtain ⟨_, rfl, _⟩ := Fallible.yields_pure.1 judged
    exact List.suffix_append ar rest
  split at continued
  · exact absurd continued Fallible.yields_fail
  · exact absurd continued Fallible.yields_fail

theorem bindMessage_begins {rep rep' : UInt8} {bind bind' : Bind} {port port' : UInt16} {more : Bytes}
    (begins : bindMessage rep bind port ++ more <+: bindMessage rep' bind' port') :
    rep = rep' ∧ more = [] := by
  obtain ⟨rest, same⟩ := begins
  have taken (rep : UInt8) (bind : Bind) (port : UInt16) :
      Fallible.Yields (clientRequest cmdConnect atypIPv4 [0, 0, 0, 0] 0) (bindMessage rep bind port)
        Sink.fresh (bind.reply rep port) [] ⟨requestBytes cmdConnect (.ipv4 [0, 0, 0, 0] rfl) 0, none⟩ :=
    clientRequest_yields.2 ⟨rfl, rfl, rep, bind, port, rfl, (List.append_nil _).symm⟩
  rw [List.append_assoc, ← List.append_nil (bindMessage rep' bind' port')] at same
  obtain ⟨agree, none⟩ := (clientRequest_strict cmdConnect (.ipv4 [0, 0, 0, 0] rfl) 0).cancel
    (taken rep bind port) (taken rep' bind' port') same
  exact ⟨congrArg ClientRequestReply.rep agree, (List.append_eq_nil_iff.1 none).1⟩

end Socks5

section Paths

variable {env : Surroundings} {net : Sockets} {user pass : String} {cmd : UInt8} {address : Address}
  {port : UInt16} {consumed sent : Bytes} {last : Dialog Course}

theorem openUpstream_path {answer : ClientRequestReply}
    (path : Dialog.Path (openUpstream user pass cmd address port) consumed sent (.ret (.ok answer))) :
    ∃ method tail, consumed = version :: method :: tail ∧ tail ≠ [] ∧
      (method = authNone → sent = greeting user pass ++ requestBytes cmd address port ∧
        ∃ rep bind bindPort, answer = bind.reply rep bindPort ∧ tail = bindMessage rep bind bindPort) := by
  have careful : Dialog.Careful (openUpstream user pass cmd address port) :=
    Fallible.careful_bind (careful_clientHandshake user pass) fun _ =>
      careful_clientRequest cmd address.atyp address.raw port
  have yields : Fallible.Yields (openUpstream user pass cmd address port) consumed Sink.fresh answer []
      ⟨sent, none⟩ := careful.run rfl path
  obtain ⟨_, _, _, shaken, requested⟩ := Fallible.yields_bind.1 yields
  obtain ⟨method, tail, rfl, suffix, free⟩ := clientHandshake_of_yields shaken
  obtain ⟨_, written, rep, bind, bindPort, rfl, rfl⟩ := clientRequest_yields.1 requested
  rw [List.append_nil] at suffix free
  refine ⟨method, tail, rfl, ?_, fun none => ?_⟩
  · rintro rfl
    cases List.suffix_nil.1 suffix
  · obtain ⟨rfl, rfl⟩ := free none
    exact ⟨congrArg Sink.written written, rep, bind, bindPort, rfl, rfl⟩

namespace Frontend

theorem handleClient_path (path : Dialog.Path (handleClient env net) consumed sent last) :
    sent.length ≤ 2 ∨ ∃ greeted asked told,
      Fallible.Yields readGreeting greeted Sink.fresh () [] ⟨[version, authNone], none⟩ ∧
      consumed = greeted ++ asked ∧ sent = version :: authNone :: told ∧
      Dialog.Path (listen env net) asked told last := by
  have short {c s : Bytes} {d : Dialog (Except String Unit)} (path : Dialog.Path readGreeting c s d) :
      s.length ≤ 2 := by
    rcases once_readGreeting.path path with rfl | ⟨b, bound, pre⟩
    · exact Nat.zero_le 2
    · exact pre.length_le.trans bound
  rcases path.bind_cases with ⟨d, path, _⟩ | ⟨result, greeted, asked, s, told, first, second, rfl, rfl⟩
  · exact .inl (short path)
  cases result with
  | error why =>
      obtain ⟨_, rfl, _⟩ := second.ret
      rw [List.append_nil]
      exact .inl (short first)
  | ok u =>
      have accepted : Fallible.Yields readGreeting greeted Sink.fresh () [] ⟨s, none⟩ :=
        careful_readGreeting.run rfl first
      obtain rfl := readGreeting_written accepted
      exact .inr ⟨greeted, asked, told, accepted, rfl, rfl, second⟩

theorem listen_path (path : Dialog.Path (listen env net) consumed sent last) :
    sent = [] ∨ (∃ rep, rep ≠ repSuccess ∧ sent <+: replyBytes rep) ∨
      ∃ req asked rest, Fallible.Yields readRequest asked Sink.fresh req [] Sink.fresh ∧
        consumed = asked ++ rest ∧ Dialog.Path (dispatch env net req) rest sent last := by
  have refused {c s : Bytes} {d : Dialog (Except Refusal Request)} (path : Dialog.Path readRequest c s d) :
      s = [] ∨ ∃ rep, rep ≠ repSuccess ∧ s <+: replyBytes rep := by
    rcases once_readRequest.path path with rfl | ⟨_, ⟨rep, failed, rfl⟩, pre⟩
    · exact .inl rfl
    · exact .inr ⟨rep, failed, pre⟩
  rcases path.bind_cases with ⟨d, path, _⟩ | ⟨result, asked, rest, s, told, first, second, rfl, rfl⟩
  · exact (refused path).imp_right .inl
  cases result with
  | error refusal =>
      obtain ⟨_, rfl, _⟩ := second.ret
      rw [List.append_nil]
      exact (refused first).imp_right .inl
  | ok req =>
      have accepted : Fallible.Yields readRequest asked Sink.fresh req [] ⟨s, none⟩ :=
        careful_readRequest.run rfl first
      obtain ⟨_, _, _, _, _, _, same⟩ := readRequest_yields.1 accepted
      obtain rfl : s = [] := congrArg Sink.written same
      exact .inr (.inr ⟨req, asked, rest, accepted, rfl, second⟩)

theorem reply_constant {rep : UInt8} {course : Course} {b : Bytes} {f : Option Err → Course}
    (told : reply rep course = .send b (fun err => .ret (f err))) (err : Option Err) :
    f err = course := by
  injection told with _ same
  exact (Dialog.ret.inj (congrFun same err)).symm

theorem dispatch_unwritten {req : Request} {b : Bytes} {f : Option Err → Course}
    (told : dispatch env net req = .send b (fun err => .ret (f err))) (e : Err) :
    f (some e) = f none ∨ req.cmd = cmdUDPAssociate ∧ f (some e) = ⟨(f none).events, .closed⟩ := by
  have constant {rep : UInt8} {course : Course}
      (told : reply rep course = .send b (fun err => .ret (f err))) : f (some e) = f none :=
    (reply_constant told _).trans (reply_constant told _).symm
  unfold dispatch at told
  split at told
  · unfold handleConnect at told
    split at told
    · exact .inl (constant told)
    split at told
    · exact .inl (constant told)
    split at told
    · exact .inl (constant told)
    · exact .inl (constant told)
  split at told
  · rename_i associate
    split at told
    · unfold handleUDPAssociate at told
      split at told
      · exact .inl (constant told)
      split at told
      · exact .inl (constant told)
      split at told
      · exact .inl (constant told)
      split at told
      · exact .inl (constant told)
      dsimp only at told
      split at told
      · exact .inl (constant told)
      injection told with _ same
      have written := Dialog.ret.inj (congrFun same none)
      have unwritten := Dialog.ret.inj (congrFun same (some e))
      refine .inr ⟨associate, ?_⟩
      rw [← written, ← unwritten]
      rfl
    · exact .inl (constant told)
  · exact .inl (constant told)

theorem told_path {b : Bytes} {f : Option Err → Course}
    (path : Dialog.Path (.send b fun err => .ret (f err)) consumed sent last) :
    sent = [] ∨ consumed = [] ∧ sent <+: b ∧ ∃ err, last = .ret (f err) := by
  cases path with
  | nil => exact .inl rfl
  | put rest =>
      obtain ⟨rfl, rfl, rfl⟩ := rest.ret
      rw [List.append_nil]
      exact .inr ⟨rfl, List.prefix_rfl, none, rfl⟩
  | cut e k rest =>
      obtain ⟨rfl, rfl, rfl⟩ := rest.ret
      rw [List.append_nil]
      exact .inr ⟨rfl, List.take_prefix k b, some e, rfl⟩

end Frontend

theorem request_arrives (known : cmd = cmdConnect ∨ cmd = cmdUDPAssociate) {greeted asked more : Bytes}
    {w : Sink} {req : Request} (accepted : Fallible.Yields readGreeting greeted Sink.fresh () [] w)
    (parsed : Fallible.Yields readRequest asked Sink.fresh req [] Sink.fresh)
    (sent : greeting user pass ++ requestBytes cmd address port = greeted ++ (asked ++ more)) :
    req = address.request cmd port ∧ more = [] := by
  have made : Fallible.Yields readRequest (requestBytes cmd address port) Sink.fresh
      (address.request cmd port) [] Sink.fresh :=
    readRequest_yields.2 ⟨cmd, address, port, known, rfl, (List.append_nil _).symm, rfl⟩
  have asks : requestBytes cmd address port = asked ++ more :=
    (readGreeting_parses.strict.cancel (readGreeting_greeting user pass) accepted sent).2
  rw [← List.append_nil (requestBytes cmd address port)] at asks
  obtain ⟨same, none⟩ := readRequest_parses.strict.cancel made parsed asks
  exact ⟨same.symm, none.symm⟩

end Paths

/-- Whatever receives and sends fail on either side, and after however many of their bytes: a client half
that is told of a success is not misled. The upstream has served the very request that was made and goes
on with the connection, except that an association whose reply it takes for unwritten is given up. -/
theorem no_false_success (env : Surroundings) (net : Sockets) (user pass : String) (cmd : UInt8)
    (known : cmd = cmdConnect ∨ cmd = cmdUDPAssociate) (address : Address) (port : UInt16)
    {trace : List (Talk (Except String ClientRequestReply) Course × Side × Mishap)}
    {t : Talk (Except String ClientRequestReply) Course}
    (exec : Exec Talk.mishap
      ⟨openUpstream user pass cmd address port, Frontend.handleClient env net, [], []⟩ trace t)
    {answer : ClientRequestReply} (done : t.left = .ret (.ok answer))
    (success : answer.rep = repSuccess) :
    let served := (Dialog.run (Frontend.dispatch env net (address.request cmd port)) ([] : Bytes)
      Sink.fresh).1
    served.onward ≠ .closed ∧ t.toLeft = [] ∧ t.toRight = [] ∧
      (t.right = .ret served ∨ cmd = cmdUDPAssociate ∧ t.right = .ret ⟨served.events, .closed⟩) := by
  obtain ⟨byLeft, fromLeft, byRight, fromRight, left, right, toLeft, toRight⟩ := Talk.paths_of_exec exec
  rw [done] at left
  obtain ⟨method, tail, rfl, answered, free⟩ := openUpstream_path left
  rcases Frontend.handleClient_path right with
    short | ⟨greeted, asked, told, accepted, rfl, rfl, listened⟩
  · have := List.length_pos_iff.2 answered
    rw [toLeft] at short
    simp only [List.cons_append, List.length_cons, List.length_append] at short
    omega
  obtain ⟨rfl, rfl⟩ : authNone = method ∧ told = tail ++ t.toLeft := by simpa using toLeft
  obtain ⟨rfl, rep, bind, bindPort, rfl, rfl⟩ := free rfl
  obtain rfl : rep = repSuccess := success
  have begun : bindMessage repSuccess bind bindPort ++ t.toLeft ≠ [] := by simp [bindMessage]
  rcases Frontend.listen_path listened with
    none | ⟨refused, failed, begins⟩ | ⟨req, asked, rest, parsed, rfl, dispatched⟩
  · exact absurd none begun
  · rw [replyBytes_message, replyMessage_bind] at begins
    exact absurd (bindMessage_begins begins).1.symm failed
  obtain ⟨rep, bound, boundPort, f, told, agrees⟩ := Frontend.tells_dispatch env net req
  rw [told] at dispatched
  obtain ⟨rfl, begins, err, ended⟩ := (Frontend.told_path dispatched).resolve_left begun
  rw [replyMessage_bind] at begins
  obtain ⟨rfl, nothing⟩ := bindMessage_begins begins
  rw [List.append_nil, List.append_assoc] at toRight
  obtain ⟨rfl, spent⟩ := request_arrives known accepted parsed toRight
  intro served
  have serves : served = f none := by
    change (Dialog.run (Frontend.dispatch env net (address.request cmd port)) ([] : Bytes)
      Sink.fresh).1 = f none
    rw [told]
    rfl
  rw [serves, ended]
  refine ⟨agrees.1 rfl, nothing, spent, ?_⟩
  cases err with
  | none => exact .inl rfl
  | some e =>
      rcases Frontend.dispatch_unwritten told e with same | ⟨associate, closed⟩
      · exact .inl (congrArg _ same)
      · exact .inr ⟨associate, congrArg _ closed⟩

/-- The write of the reply fails when all of it is out, and the tunnel is open at both ends. -/
theorem no_false_success_unwritten :
    ∃ (trace : List (Talk (Except String ClientRequestReply) Course × Side × Mishap))
      (t : Talk (Except String ClientRequestReply) Course) (answer : ClientRequestReply) (course : Course),
      Exec Talk.mishap
        ⟨openUpstream "u" "p" cmdConnect (.domain [97] (by decide) (by decide)) 80,
          Frontend.handleClient .welcoming Frontend.noSockets, [], []⟩ trace t ∧
      (Side.right, Mishap.send .shortWrite 10) ∈ trace.map Prod.snd ∧
      t.left = .ret (.ok answer) ∧ answer.rep = repSuccess ∧ t.right = .ret course ∧
      course.onward ≠ .closed := by
  obtain ⟨trace, t, exec, actions, reached⟩ := exec_of_play Talk.mishap
    (⟨openUpstream "u" "p" cmdConnect (.domain [97] (by decide) (by decide)) 80,
      Frontend.handleClient .welcoming Frontend.noSockets, [], []⟩ :
        Talk (Except String ClientRequestReply) Course)
    [(.left, .none), (.right, .none), (.right, .none), (.right, .none), (.left, .none), (.left, .none),
      (.right, .none), (.right, .none), (.right, .none), (.right, .none), (.right, .send .shortWrite 10),
      (.left, .none), (.left, .none), (.left, .none)]
    (fun _ t => match t.left with
      | .ret (.ok answer) => decide (answer.rep = repSuccess)
      | .ret (.error _) => false
      | .recv _ _ => false
      | .send _ _ => false)
    (by decide +kernel)
  split at reached
  · rename_i answer done
    obtain ⟨goes, _, _, ended⟩ := no_false_success .welcoming Frontend.noSockets "u" "p" cmdConnect
      (.inl rfl) (.domain [97] (by decide) (by decide)) 80 exec done (of_decide_eq_true reached)
    refine ⟨trace, t, answer, _, exec, ?_, done, of_decide_eq_true reached,
      ended.resolve_right fun given => absurd given.1 (by decide), goes⟩
    rw [actions]
    decide
  all_goals cases reached

end S5lb
