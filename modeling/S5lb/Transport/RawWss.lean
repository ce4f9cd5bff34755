import S5lb.Go.Strings
import S5lb.Transport.BytePipe

/-! The connection of the raw exec WebSocket: a stream connection that `rawWSSReadLoop` feeds with
the frames of the stdout channel. -/

namespace S5lb

open Go Transition Threads

structure LimitedBuffer where
  limit : Int
  buf : Bytes
  deriving DecidableEq

namespace LimitedBuffer

def write (b : LimitedBuffer) (p : Bytes) : LimitedBuffer :=
  if b.limit ≤ 0 then b
  else
    let remaining := b.limit - b.buf.length
    if remaining ≤ 0 then b
    else if p.length > remaining then { b with buf := b.buf ++ p.take remaining.toNat }
    else { b with buf := b.buf ++ p }

@[simp] theorem write_limit (b : LimitedBuffer) (p : Bytes) : (b.write p).limit = b.limit := by
  simp only [write]
  repeat' split
  all_goals rfl

theorem write_take {b : LimitedBuffer} {text : Bytes} (held : b.buf = text.take b.limit.toNat)
    (p : Bytes) : (b.write p).buf = (text ++ p).take b.limit.toNat := by
  have length : b.buf.length = min b.limit.toNat text.length := by rw [held, List.length_take]
  rw [List.take_append]
  simp only [write]
  split
  · rename_i unlimited
    rw [Int.toNat_of_nonpos unlimited] at held ⊢
    simpa using held
  · split
    · have full : b.limit.toNat - text.length = 0 := by omega
      rw [full, List.take_zero, List.append_nil]
      exact held
    · have whole : text.take b.limit.toNat = text := List.take_of_length_le (by omega)
      rw [whole] at held ⊢
      split
      · have same : (b.limit - b.buf.length).toNat = b.limit.toNat - text.length := by omega
        simp only [held] at same ⊢
        rw [same]
      · rw [List.take_of_length_le (by omega), held]

end LimitedBuffer

def k8sChannelStdin : UInt8 := 0

def k8sChannelStdout : UInt8 := 1

def k8sChannelStderr : UInt8 := 2

def k8sChannelError : UInt8 := 3

inductive MessageType
  | text
  | binary
  | other
  deriving DecidableEq

structure Message where
  type : MessageType
  payload : Bytes
  deriving DecidableEq

def Message.channel : Message → Option (UInt8 × Bytes)
  | ⟨.other, _⟩ | ⟨_, []⟩ => none
  | ⟨_, channel :: data⟩ => some (channel, data)

def Message.on (channel : UInt8) (m : Message) : Bytes :=
  match m.channel with
  | some (c, data) => if c = channel then data else []
  | none => []

def onChannel (channel : UInt8) (messages : List Message) : Bytes := messages.flatMap (·.on channel)

theorem onChannel_snoc (channel : UInt8) (messages : List Message) (m : Message) :
    onChannel channel (messages ++ [m]) = onChannel channel messages ++ m.on channel := by
  simp [onChannel]

theorem Message.on_eq {m : Message} {channel c : UInt8} {data : Bytes}
    (carries : m.channel = some (c, data)) :
    m.on channel = if c = channel then data else [] := by
  rw [Message.on, carries]

def stdinFrame (b : Bytes) : Message := ⟨.binary, k8sChannelStdin :: b⟩

theorem onChannel_stdinFrame (sent : List Bytes) :
    onChannel k8sChannelStdin (sent.map stdinFrame) = sent.flatten := by
  induction sent with
  | nil => rfl
  | cons b rest ih =>
      rw [List.map_cons, onChannel, List.flatMap_cons, List.flatten_cons, ← ih]
      rfl

def execError (msg stderrText : String) : String :=
  if msg ≠ "" ∧ stderrText ≠ "" then
    "kubernetes exec error: " ++ msg ++ ": stderr: " ++ stderrText
  else if msg ≠ "" then "kubernetes exec error: " ++ msg
  else if stderrText ≠ "" then "kubernetes exec stderr: " ++ stderrText
  else "kubernetes exec error channel closed"

inductive ReadLoopPc
  | reading
  | enqueuing (i : Nat) (data : Bytes)
  | finishing (i : Nat)
  | ended
  deriving DecidableEq

structure WssSys where
  stream : StreamSys
  loop : ReadLoopPc
  stderr : LimitedBuffer
  received : List Message

inductive WssAction
  | stream (a : StreamAction)
  | message (m : Message)
  | readFails (err : NetErr)
  | resume

/-- The loop alone enqueues; `finishRemote` is called by the loop and, inside its goroutine, by the
pump; and nobody cancels the parent of the connection. -/
def StreamAction.user : StreamAction → Bool
  | .call (.enqueueRead _) | .call (.finishRemote _) | .cancelParent => false
  | _ => true

theorem StreamAction.start_enqueues_of_user {c : StreamCall}
    (user : (StreamAction.call c).user = true) : c.start.enqueues = none := by
  rw [StreamCall.start_enqueues]
  cases c with
  | enqueueRead p => cases user
  | _ => rfl

namespace WssSys

def dialContext (clock : Time) : WssSys where
  stream := .newStreamConn true clock
  loop := .reading
  stderr := ⟨32 * 1024, []⟩
  received := []

def call (w : WssSys) (c : StreamCall) (loop : ReadLoopPc) : WssSys :=
  { w with stream := { w.stream with threads := w.stream.threads ++ [c.start] }, loop }

def finish (w : WssSys) (err : NetErr) : WssSys :=
  w.call (.finishRemote (some err)) (.finishing w.stream.threads.length)

variable (str : Bytes → String)

def handle (w : WssSys) (m : Message) : WssSys :=
  match m.channel with
  | none => w
  | some (channel, data) =>
      if channel = k8sChannelStdout then
        w.call (.enqueueRead data) (.enqueuing w.stream.threads.length data)
      else if channel = k8sChannelStderr then { w with stderr := w.stderr.write data }
      else if channel = k8sChannelError then
        w.finish (.other (execError (trimSpace (str data)) (trimSpace (str w.stderr.buf))))
      else w

def step (w : WssSys) (a : WssAction) : Option WssSys :=
  if w.stream.panicked.isSome then none
  else match a with
    | .stream a =>
        if a.user then (w.stream.step a).map fun stream => { w with stream } else none
    | .message m =>
        if w.loop = .reading then some (handle str { w with received := w.received ++ [m] } m)
        else none
    | .readFails err => if w.loop = .reading then some (w.finish err) else none
    | .resume =>
        match w.loop with
        | .enqueuing i _ =>
            match w.stream.threads[i]? with
            | some (.returned _ none) => some { w with loop := .reading }
            | some (.returned _ (some err)) => some (w.finish err)
            | _ => none
        | .finishing i =>
            match w.stream.threads[i]? with
            | some (.returned _ _) => some { w with loop := .ended }
            | _ => none
        | .reading | .ended => none

inductive Steps (w : WssSys) : WssAction → WssSys → Prop
  | stream {a : StreamAction} {stream : StreamSys} (user : a.user = true)
      (taken : w.stream.step a = some stream) : Steps w (.stream a) { w with stream }
  | message {m : Message} (reading : w.loop = .reading) :
      Steps w (.message m) (handle str { w with received := w.received ++ [m] } m)
  | readFails {err : NetErr} (reading : w.loop = .reading) : Steps w (.readFails err) (w.finish err)
  | continues {i n : Nat} {data : Bytes} (at_ : w.loop = .enqueuing i data)
      (returned : w.stream.threads[i]? = some (.returned n none)) :
      Steps w .resume { w with loop := .reading }
  | fails {i n : Nat} {data : Bytes} {err : NetErr} (at_ : w.loop = .enqueuing i data)
      (returned : w.stream.threads[i]? = some (.returned n (some err))) :
      Steps w .resume (w.finish err)
  | ends {i n : Nat} {err : Option NetErr} (at_ : w.loop = .finishing i)
      (returned : w.stream.threads[i]? = some (.returned n err)) :
      Steps w .resume { w with loop := .ended }

variable {str} {w w' : WssSys} {a : WssAction}

theorem steps_of_step (taken : w.step str a = some w') :
    w.stream.panicked = none ∧ w.Steps str a w' := by
  unfold step at taken
  split at taken
  · cases taken
  · rename_i running
    refine ⟨by simpa using running, ?_⟩
    cases a with
    | stream a =>
        obtain ⟨user, stepped⟩ := Option.ite_none_right_eq_some.1 taken
        obtain ⟨stream, moved, rfl⟩ := Option.map_eq_some_iff.1 stepped
        exact .stream user moved
    | message m =>
        obtain ⟨reading, same⟩ := Option.ite_none_right_eq_some.1 taken
        cases same
        exact .message reading
    | readFails err =>
        obtain ⟨reading, same⟩ := Option.ite_none_right_eq_some.1 taken
        cases same
        exact .readFails reading
    | resume =>
        dsimp only at taken
        split at taken
        · rename_i at_
          split at taken
          · cases taken
            exact .continues at_ ‹_›
          · cases taken
            exact .fails at_ ‹_›
          · cases taken
        · rename_i at_
          split at taken
          · cases taken
            exact .ends at_ ‹_›
          · cases taken
        · cases taken
        · cases taken

section Projection

def Streams (clock : Time) (w : WssSys) : Prop :=
  ∃ trace, Exec StreamSys.step (.newStreamConn true clock) trace w.stream

variable {clock : Time}

theorem Streams.call (streams : w.Streams clock) (running : w.stream.panicked = none) (c : StreamCall)
    (loop : ReadLoopPc) : (w.call c loop).Streams clock := by
  obtain ⟨trace, exec⟩ := streams
  have taken : w.stream.step (.call c) =
      some { w.stream with threads := w.stream.threads ++ [c.start] } := by
    simp [StreamSys.step, running]
  exact ⟨_, exec.snoc taken⟩

theorem Streams.handle (streams : w.Streams clock) (running : w.stream.panicked = none)
    (m : Message) : (handle str w m).Streams clock := by
  unfold WssSys.handle
  split
  · exact streams
  · split
    · exact streams.call running _ _
    · split
      · exact streams
      · split
        · exact streams.call running _ _
        · exact streams

theorem Streams.step (streams : w.Streams clock) (taken : w.step str a = some w') :
    w'.Streams clock := by
  obtain ⟨running, steps⟩ := steps_of_step taken
  cases steps with
  | stream user moved =>
      obtain ⟨trace, exec⟩ := streams
      exact ⟨_, exec.snoc moved⟩
  | message reading =>
      exact Streams.handle (w := { w with received := w.received ++ [_] }) streams running _
  | readFails reading => exact streams.call running _ _
  | continues at_ returned => exact streams
  | fails at_ returned => exact streams.call running _ _
  | ends at_ returned => exact streams

theorem streams_of_exec {trace : List (WssSys × WssAction)}
    (exec : Exec (step str) (dialContext clock) trace w) : w.Streams clock :=
  exec.stable ⟨[], .nil⟩ fun _ _ _ streams taken => streams.step taken

end Projection

def LastFrame (received : List Message) (data : Bytes) : Prop :=
  ∃ before m, received = before ++ [m] ∧ m.channel = some (k8sChannelStdout, data)

inductive Handing (enqueued : List Bytes) (stdout data : Bytes) : StreamPc → Prop
  | waits {pc : StreamPc} (going : pc.enqueues = some data)
      (short : enqueued.flatten ++ data = stdout) : Handing enqueued stdout data pc
  | refused {err : NetErr} (short : enqueued.flatten ++ data = stdout) :
      Handing enqueued stdout data (.returned 0 (some err))
  | passed (whole : enqueued.flatten = stdout) :
      Handing enqueued stdout data (.returned data.length none)

def Fed (enqueued : List Bytes) (received : List Message) (threads : List StreamPc) :
    ReadLoopPc → Prop
  | .reading => enqueued.flatten = onChannel k8sChannelStdout received
  | .enqueuing i data => LastFrame received data ∧ ∃ pc, threads[i]? = some pc ∧
      Handing enqueued (onChannel k8sChannelStdout received) data pc
  | .finishing _ | .ended => ∃ lost, enqueued.flatten ++ lost = onChannel k8sChannelStdout received ∧
      (lost = [] ∨ LastFrame received lost)

namespace Fed

variable {enqueued : List Bytes} {received : List Message} {threads : List StreamPc}
  {loop : ReadLoopPc} {pc : StreamPc}

theorem set {i : Nat} (fed : Fed enqueued received threads loop)
    (other : ∀ data, loop ≠ .enqueuing i data) : Fed enqueued received (threads.set i pc) loop := by
  cases loop with
  | enqueuing j data =>
      have elsewhere : i ≠ j := by
        rintro rfl
        exact other data rfl
      obtain ⟨frame, u, located, handing⟩ := fed
      exact ⟨frame, u, (List.getElem?_set_ne elsewhere).trans located, handing⟩
  | _ => exact fed

theorem snoc (fed : Fed enqueued received threads loop) :
    Fed enqueued received (threads ++ [pc]) loop := by
  cases loop with
  | enqueuing j data =>
      obtain ⟨frame, u, located, handing⟩ := fed
      refine ⟨frame, u, ?_, handing⟩
      rwa [List.getElem?_append_left (List.getElem?_eq_some_iff.1 located).1]
  | _ => exact fed

theorem begins {data : Bytes} (frame : LastFrame received data)
    (short : enqueued.flatten ++ data = onChannel k8sChannelStdout received) :
    Fed enqueued received (threads ++ [(StreamCall.enqueueRead data).start])
      (.enqueuing threads.length data) := by
  refine ⟨frame, (StreamCall.enqueueRead data).start, ?_, ?_⟩
  · rw [List.getElem?_append_right (Nat.le_refl _), Nat.sub_self]
    rfl
  · by_cases empty : data = []
    · subst empty
      rw [List.append_nil] at short
      exact .passed short
    · refine .waits ?_ short
      rw [StreamCall.start_enqueues, StreamCall.enqueued, if_neg empty]

end Fed

structure Demuxed (w : WssSys) : Prop where
  lone : Each w.stream.threads fun i pc => pc.enqueues ≠ none → ∃ data, w.loop = .enqueuing i data
  fed : Fed w.stream.log.enqueued w.received w.stream.threads w.loop
  limit : w.stderr.limit = 32 * 1024
  stderr : w.stderr.buf = (onChannel k8sChannelStderr w.received).take (32 * 1024)

namespace Demuxed

theorem idle (inv : w.Demuxed) (other : ∀ i data, w.loop ≠ .enqueuing i data) :
    Each w.stream.threads fun _ pc => pc.enqueues = none := by
  intro i pc located
  by_contra some
  obtain ⟨data, at_⟩ := inv.lone i pc located some
  exact other i data at_

section Goroutine

variable {i : Nat} {k : Choice} {pc pc' : StreamPc} {conn : StreamConn} {log : StreamLog}

theorem next_other (inv : w.Demuxed) (here : w.stream.threads[i]? = some pc)
    (other : ∀ data, w.loop ≠ .enqueuing i data) (enqueued : log.enqueued = w.stream.log.enqueued)
    (still : pc'.enqueues = none) :
    Demuxed { w with
      stream := { w.stream with conn, log, threads := w.stream.threads.set i pc' } } := by
  refine ⟨inv.lone.set here (fun some => absurd still some) fun _ _ _ _ => id, ?_, inv.limit,
    inv.stderr⟩
  dsimp only
  rw [enqueued]
  exact inv.fed.set other

theorem next_own {data : Bytes} (inv : w.Demuxed) (here : w.stream.threads[i]? = some pc)
    (at_ : w.loop = .enqueuing i data)
    (handing : Handing log.enqueued (onChannel k8sChannelStdout w.received) data pc') :
    Demuxed { w with
      stream := { w.stream with conn, log, threads := w.stream.threads.set i pc' } } := by
  refine ⟨inv.lone.set here (fun _ => ⟨data, at_⟩) fun _ _ _ _ => id, ?_, inv.limit, inv.stderr⟩
  have fed := inv.fed
  dsimp only
  rw [at_] at fed ⊢
  exact ⟨fed.1, pc', List.getElem?_set_self (List.getElem?_eq_some_iff.1 here).1, handing⟩

theorem next (inv : w.Demuxed) (here : w.stream.threads[i]? = some pc)
    (moves : StreamConn.Moves i w.stream.clock w.stream.conn w.stream.log pc k
      (.next conn log pc')) :
    Demuxed { w with
      stream := { w.stream with conn, log, threads := w.stream.threads.set i pc' } } := by
  have handover := Traffic.enqueueing.moves moves
  by_cases mine : ∃ data, w.loop = .enqueuing i data
  · obtain ⟨data, at_⟩ := mine
    have fed := inv.fed
    rw [at_] at fed
    obtain ⟨-, u, located, handing⟩ := fed
    cases here.symm.trans located
    refine inv.next_own here at_ ?_
    cases handing with
    | waits going short =>
        generalize slices : Traffic.enqueueing.slices log = after at handover
        have enqueued : log.enqueued = after := slices
        rw [enqueued]
        cases handover with
        | same places => exact .waits (places.trans going) short
        | refused there =>
            exact .refused short
        | passed there =>
            cases going.symm.trans there
            refine .passed ?_
            rw [List.flatten_append, List.flatten_singleton]
            exact short
    | refused short => cases moves
    | passed whole => cases moves
  · have other (data : Bytes) : w.loop ≠ .enqueuing i data := fun at_ => mine ⟨data, at_⟩
    have nothing : pc.enqueues = none := by
      by_contra some
      exact mine (inv.lone i pc here some)
    generalize slices : Traffic.enqueueing.slices log = after at handover
    cases handover with
    | same places => exact inv.next_other here other slices (places.trans nothing)
    | refused there => cases nothing.symm.trans there
    | passed there => cases nothing.symm.trans there

end Goroutine

theorem call (inv : w.Demuxed) {c : StreamCall} {loop : ReadLoopPc}
    (ready : Each w.stream.threads fun _ pc => pc.enqueues = none)
    (mine : c.start.enqueues ≠ none → ∃ data, loop = .enqueuing w.stream.threads.length data)
    (fed : Fed w.stream.log.enqueued w.received (w.stream.threads ++ [c.start]) loop) :
    (w.call c loop).Demuxed := by
  refine ⟨?_, fed, inv.limit, inv.stderr⟩
  intro i pc located some
  rcases located_snoc located with ⟨rfl, rfl⟩ | located
  · exact mine some
  · exact absurd (ready i pc located) some

theorem finish {err : NetErr} (inv : w.Demuxed)
    (ready : Each w.stream.threads fun _ pc => pc.enqueues = none)
    (fed : ∃ lost, w.stream.log.enqueued.flatten ++ lost = onChannel k8sChannelStdout w.received ∧
      (lost = [] ∨ LastFrame w.received lost)) : (w.finish err).Demuxed :=
  inv.call ready (fun some => absurd rfl some) fed

theorem whole (inv : w.Demuxed) (reading : w.loop = .reading) :
    w.stream.log.enqueued.flatten = onChannel k8sChannelStdout w.received := by
  have fed := inv.fed
  rwa [reading] at fed

theorem receives {m : Message} {stderr : LimitedBuffer} (inv : w.Demuxed)
    (reading : w.loop = .reading) (quiet : m.on k8sChannelStdout = [])
    (limit : stderr.limit = 32 * 1024)
    (buf : stderr.buf = (onChannel k8sChannelStderr (w.received ++ [m])).take (32 * 1024)) :
    Demuxed { w with received := w.received ++ [m], stderr } := by
  refine ⟨inv.lone, ?_, limit, buf⟩
  dsimp only
  rw [reading, Fed, onChannel_snoc, quiet, List.append_nil]
  exact inv.whole reading

theorem message (inv : w.Demuxed) (reading : w.loop = .reading) (m : Message) :
    (handle str { w with received := w.received ++ [m] } m).Demuxed := by
  have ready := inv.idle (by rw [reading]; nofun)
  have same (none : m.on k8sChannelStderr = []) :
      w.stderr.buf = (onChannel k8sChannelStderr (w.received ++ [m])).take (32 * 1024) := by
    rw [onChannel_snoc, none, List.append_nil]
    exact inv.stderr
  unfold handle
  split
  · rename_i skipped
    have nothing (channel : UInt8) : m.on channel = [] := by rw [Message.on, skipped]
    exact inv.receives reading (nothing _) inv.limit (same (nothing _))
  · rename_i channel data carries
    have on (c : UInt8) : m.on c = if channel = c then data else [] := Message.on_eq carries
    split
    · rename_i stdout
      subst stdout
      have short : w.stream.log.enqueued.flatten ++ data =
          onChannel k8sChannelStdout (w.received ++ [m]) := by
        rw [onChannel_snoc, on, if_pos rfl, inv.whole reading]
      refine ⟨?_, Fed.begins ⟨w.received, m, rfl, carries⟩ short, inv.limit, same (on _)⟩
      intro i pc located some
      rcases located_snoc located with ⟨rfl, rfl⟩ | located
      · exact ⟨data, rfl⟩
      · exact absurd (ready i pc located) some
    · rename_i notStdout
      split
      · rename_i stderr
        refine inv.receives reading ((on _).trans (if_neg notStdout)) ?_ ?_
        · rw [LimitedBuffer.write_limit]
          exact inv.limit
        · have held : w.stderr.buf = (onChannel k8sChannelStderr w.received).take w.stderr.limit.toNat := by
            rw [inv.limit]
            exact inv.stderr
          rw [LimitedBuffer.write_take held, inv.limit, onChannel_snoc, on, if_pos stderr]
          rfl
      · rename_i notStderr
        have quiet : m.on k8sChannelStdout = [] := (on _).trans (if_neg notStdout)
        have kept := inv.receives reading quiet inv.limit (same ((on _).trans (if_neg notStderr)))
        split
        · refine kept.finish ready ⟨[], ?_, .inl rfl⟩
          rw [List.append_nil]
          exact kept.whole reading
        · exact kept

theorem handing {i : Nat} {data : Bytes} {pc : StreamPc} (inv : w.Demuxed)
    (at_ : w.loop = .enqueuing i data) (here : w.stream.threads[i]? = some pc) :
    LastFrame w.received data ∧
      Handing w.stream.log.enqueued (onChannel k8sChannelStdout w.received) data pc := by
  have fed := inv.fed
  rw [at_] at fed
  obtain ⟨frame, u, located, handing⟩ := fed
  cases here.symm.trans located
  exact ⟨frame, handing⟩

theorem returned {i n : Nat} {data : Bytes} {err : Option NetErr} (inv : w.Demuxed)
    (at_ : w.loop = .enqueuing i data) (here : w.stream.threads[i]? = some (.returned n err)) :
    Each w.stream.threads fun _ pc => pc.enqueues = none := by
  intro j pc located
  by_contra some
  obtain ⟨data', at'⟩ := inv.lone j pc located some
  cases at_.symm.trans at'
  cases here.symm.trans located
  exact some rfl

theorem step (inv : w.Demuxed) (taken : w.step str a = some w') : w'.Demuxed := by
  obtain ⟨_, steps⟩ := steps_of_step taken
  cases steps with
  | @stream a s user moved =>
      obtain ⟨_, moved⟩ := StreamSys.steps_of_step moved
      cases moved with
      | call c =>
          refine ⟨?_, inv.fed.snoc, inv.limit, inv.stderr⟩
          intro i pc located some
          rcases located_snoc located with ⟨rfl, rfl⟩ | located
          · exact absurd (StreamAction.start_enqueues_of_user user) some
          · exact inv.lone i pc located some
      | next here moves => exact inv.next here moves
      | panics here moves => exact ⟨inv.lone, inv.fed, inv.limit, inv.stderr⟩
      | tick later => exact ⟨inv.lone, inv.fed, inv.limit, inv.stderr⟩
      | cancelParent => cases user
  | message reading => exact inv.message reading _
  | readFails reading =>
      refine inv.finish (inv.idle (by rw [reading]; nofun)) ⟨[], ?_, .inl rfl⟩
      rw [List.append_nil]
      exact inv.whole reading
  | continues at_ returned =>
      refine ⟨fun i pc located some => absurd (inv.returned at_ returned i pc located) some, ?_,
        inv.limit, inv.stderr⟩
      obtain ⟨frame, handed⟩ := inv.handing at_ returned
      cases handed with
      | waits going short => cases going
      | passed whole => exact whole
  | fails at_ returned =>
      obtain ⟨frame, handed⟩ := inv.handing at_ returned
      refine inv.finish (inv.returned at_ returned) ?_
      cases handed with
      | waits going short => cases going
      | refused short => exact ⟨_, short, .inr frame⟩
  | ends at_ returned =>
      refine ⟨fun i pc located some => absurd ?_ some, ?_, inv.limit, inv.stderr⟩
      · exact inv.idle (by rw [at_]; nofun) i pc located
      · have fed := inv.fed
        rwa [at_] at fed

end Demuxed

theorem demuxed_dialContext (clock : Time) : (dialContext clock).Demuxed := by
  refine ⟨?_, rfl, rfl, rfl⟩
  intro i pc located some
  cases List.mem_singleton.1 (List.mem_of_getElem? located)
  exact absurd rfl some

theorem Fed.missing {enqueued : List Bytes} {received : List Message} {threads : List StreamPc}
    {loop : ReadLoopPc} (fed : Fed enqueued received threads loop) :
    ∃ missing, enqueued.flatten ++ missing = onChannel k8sChannelStdout received ∧
      (missing = [] ∨ loop ≠ .reading ∧ LastFrame received missing) := by
  cases loop with
  | reading => exact ⟨[], (List.append_nil _).trans fed, .inl rfl⟩
  | enqueuing i data =>
      obtain ⟨frame, pc, -, handing⟩ := fed
      cases handing with
      | waits going short => exact ⟨data, short, .inr ⟨nofun, frame⟩⟩
      | refused short => exact ⟨data, short, .inr ⟨nofun, frame⟩⟩
      | passed whole => exact ⟨[], (List.append_nil _).trans whole, .inl rfl⟩
  | finishing i =>
      obtain ⟨missing, short, last⟩ := fed
      exact ⟨missing, short, last.imp_right fun frame => ⟨nofun, frame⟩⟩
  | ended =>
      obtain ⟨missing, short, last⟩ := fed
      exact ⟨missing, short, last.imp_right fun frame => ⟨nofun, frame⟩⟩

/-- The reader of the connection gets the stdout of the remote and nothing else: what `Read` has
returned, what waits in the connection and, unless the loop is back in `ReadMessage`, at most the
data of the last frame are the data of the stdout frames in their order. What the remote finds in the
frames on its stdin is a beginning of what `Write` accepted, and stderr is kept up to the limit. -/
theorem channels_kept_apart (str : Bytes → String) (clock : Time) (trace : List (WssSys × WssAction))
    (w : WssSys) (exec : Exec (step str) (dialContext clock) trace w) :
    (∃ missing, returnedBytes w.stream.log.reads ++ w.stream.conn.undelivered ++ missing =
        onChannel k8sChannelStdout w.received ∧
      (missing = [] ∨ w.loop ≠ .reading ∧ LastFrame w.received missing)) ∧
    onChannel k8sChannelStdin (w.stream.log.sent.map stdinFrame) <+:
      w.stream.log.accepted.flatten ∧
    w.stderr.buf = (onChannel k8sChannelStderr w.received).take (32 * 1024) := by
  have inv := exec.stable (demuxed_dialContext clock) fun _ _ _ inv taken => inv.step taken
  obtain ⟨past, streams⟩ := streams_of_exec exec
  refine ⟨?_, ?_, inv.stderr⟩
  · rw [(StreamSys.readSide_of_exec streams).conserved]
    exact inv.fed.missing
  · rw [onChannel_stdinFrame]
    obtain ⟨rest, same⟩ := StreamSys.sent_of_exec streams
    rw [← same, List.flatten_append, List.flatten_append, List.append_assoc]
    exact List.prefix_append _ _

/-- Two bytes of stdout, one of stderr, and one more of stdout that the loop cannot hand over because
the connection has been closed. -/
theorem channels_kept_apart_at_close : ∃ trace w,
    Exec (step fun _ => "") (dialContext 0) trace w ∧ w.loop = .ended ∧
    w.stream.log.reads = [([104], none)] ∧ w.stream.conn.undelivered = [105] ∧
    (∃ missing, returnedBytes w.stream.log.reads ++ w.stream.conn.undelivered ++ missing =
        onChannel k8sChannelStdout w.received ∧
      (missing = [] ∨ w.loop ≠ .reading ∧ LastFrame w.received missing)) ∧
    onChannel k8sChannelStdout w.received = [104, 105, 33] ∧
    w.stderr.buf = (onChannel k8sChannelStderr w.received).take (32 * 1024) := by
  obtain ⟨trace, w, exec, -, tested⟩ := exec_of_play (step fun _ => "") (dialContext 0)
    [.message ⟨.binary, [1, 104, 105]⟩, .stream (.move 1 .run), .stream (.move 1 (.select .data)),
      .resume, .message ⟨.binary, [2, 7]⟩, .stream (.call (.read 1)), .stream (.move 2 .run),
      .stream (.move 2 .run), .stream (.move 2 (.select .data)), .stream (.call .close),
      .stream (.move 3 .run), .stream (.move 3 .run), .stream (.move 3 .run),
      .message ⟨.text, [1, 33]⟩, .stream (.move 4 .run),
      .stream (.move 4 (.select (.signal .localDone))), .resume, .stream (.move 5 .run),
      .stream (.move 5 .run), .stream (.move 5 .run), .stream (.move 5 .run), .stream (.move 5 .run),
      .resume]
    (fun _ w => decide (w.loop = .ended ∧ w.stream.log.reads = [([104], none)] ∧
      w.stream.conn.undelivered = [105] ∧ onChannel k8sChannelStdout w.received = [104, 105, 33]))
    (by decide +kernel)
  obtain ⟨ended, reads, waiting, stdout⟩ := of_decide_eq_true tested
  obtain ⟨missing, -, stderr⟩ := channels_kept_apart _ 0 trace w exec
  exact ⟨trace, w, exec, ended, reads, waiting, missing, stdout, stderr⟩

end WssSys

end S5lb
