import S5lb.Go.Chan
import S5lb.Go.Stream
import S5lb.Lib.Transition
import S5lb.Upstream

namespace S5lb

open Go Transition

inductive NetErr
  | closed
  | streamClosed
  | timeout (op : String)
  | eof
  | canceled (text : String)
  | other (text : String)
  deriving DecidableEq

inductive Once
  | fresh
  | running (runner : Nat)
  | done
  deriving DecidableEq

inductive Side
  | read
  | write
  deriving DecidableEq

/-- A deadline and its notification channel. The channels made for it are numbered, the current one
last; `closed` are those closed already. -/
structure Deadline where
  time : Time
  changed : Nat
  closed : List Nat
  deriving DecidableEq

structure StreamConn where
  ctxDone : Bool
  hasSend : Bool
  readCh : Chan Bytes
  writeCh : Chan Bytes
  readMu : Bool
  pending : Bytes
  localDone : Chan Unit
  remoteDone : Chan Unit
  closeOnce : Once
  remoteCloseOnce : Once
  remoteErr : Option NetErr
  readClosed : Bool
  readDeadline : Deadline
  writeDeadline : Deadline
  deriving DecidableEq

/-- What the calls have done so far: the chunks enqueued, the results of `Read`, the slices `Write`
accepted, and those passed to `send`. -/
structure StreamLog where
  enqueued : List Bytes
  reads : List (Bytes × Option NetErr)
  accepted : List Bytes
  sent : List Bytes
  deriving DecidableEq

inductive Signal
  | localDone
  | remoteDone
  | ctxDone
  deriving DecidableEq

inductive SelectCase
  | data
  | timer
  | changed
  | signal (done : Signal)
  deriving DecidableEq

inductive FinishPos
  | enter
  | storeErr
  | closeDone
  | closeRead
  | cancel
  deriving DecidableEq

inductive ClosePos
  | enter
  | cancel
  | closeDone
  deriving DecidableEq

inductive StreamPc
  | enqueueCheck (b : Bytes)
  | enqueueSelect (b : Bytes)
  | finishRemote (err : Option NetErr) (pos : FinishPos)
  | close (pos : ClosePos)
  | readLock (n : Nat)
  | readArm (n : Nat)
  | readSelect (n : Nat) (deadline : Time) (changed : Nat)
  | readErr
  | writeArm (b : Bytes)
  | writeSelect (b : Bytes) (deadline : Time) (changed : Nat)
  | pumpSelect
  | pumpSend (b : Bytes)
  | setDeadline (side : Side) (t : Time)
  | closeChanged (side : Side) (old : Nat)
  | returned (n : Nat) (err : Option NetErr)
  deriving DecidableEq

/-- What decides a step: nothing, the case a `select` takes, or the result of `send`. -/
inductive Choice
  | run
  | select (taken : SelectCase)
  | sendReturns (err : Option NetErr)
  deriving DecidableEq

def Choice.signal : Choice → Option Signal
  | .select (.signal signal) => some signal
  | _ => none

inductive StreamPanic
  | sendOnClosed
  | closeOfClosed
  deriving DecidableEq

inductive StreamOutcome
  | panic (why : StreamPanic)
  | next (c : StreamConn) (log : StreamLog) (pc : StreamPc)

namespace StreamConn

def isDone (c : StreamConn) : Signal → Bool
  | .localDone => c.localDone.closed
  | .remoteDone => c.remoteDone.closed
  | .ctxDone => c.ctxDone

def deadline (c : StreamConn) : Side → Deadline
  | .read => c.readDeadline
  | .write => c.writeDeadline

def withDeadline (c : StreamConn) (side : Side) (d : Deadline) : StreamConn :=
  match side with
  | .read => { c with readDeadline := d }
  | .write => { c with writeDeadline := d }

def timerFired (deadline clock : Time) : Bool := deadline != 0 && deadline ≤ clock

def remoteReadErr (c : StreamConn) : NetErr :=
  match c.remoteErr with
  | none => .eof
  | some (.canceled _) => .eof
  | some e => e

def enqueueStep (c : StreamConn) (log : StreamLog) (b : Bytes) :
    SelectCase → Option StreamOutcome
  | .data =>
      (c.readCh.send b).map fun
        | .panic => .panic .sendOnClosed
        | .ok readCh =>
            .next { c with readCh } { log with enqueued := log.enqueued ++ [b] }
              (.returned b.length none)
  | .signal s => if c.isDone s then some (.next c log (.returned 0 (some .closed))) else none
  | .timer | .changed => none

/-- `closeFn`, called before the last step, is the transport's and leaves the connection alone. -/
def finishStep (i : Nat) (c : StreamConn) (log : StreamLog) (err : Option NetErr) :
    FinishPos → Option StreamOutcome
  | .enter =>
      match c.remoteCloseOnce with
      | .fresh =>
          some (.next { c with remoteCloseOnce := .running i } log (.finishRemote err .storeErr))
      | .running _ => none
      | .done => some (.next c log (.returned 0 none))
  | .storeErr => some (.next { c with remoteErr := err } log (.finishRemote err .closeDone))
  | .closeDone =>
      match c.remoteDone.close with
      | none => some (.panic .closeOfClosed)
      | some remoteDone => some (.next { c with remoteDone } log (.finishRemote err .closeRead))
  | .closeRead =>
      match c.readCh.close with
      | none => some (.panic .closeOfClosed)
      | some readCh =>
          some (.next { c with readClosed := true, readCh } log (.finishRemote err .cancel))
  | .cancel => some (.next { c with ctxDone := true, remoteCloseOnce := .done } log (.returned 0 none))

def closeStep (i : Nat) (c : StreamConn) (log : StreamLog) : ClosePos → Option StreamOutcome
  | .enter =>
      match c.closeOnce with
      | .fresh => some (.next { c with closeOnce := .running i } log (.close .cancel))
      | .running _ => none
      | .done => some (.next c log (.returned 0 none))
  | .cancel => some (.next { c with ctxDone := true } log (.close .closeDone))
  | .closeDone =>
      match c.localDone.close with
      | none => some (.panic .closeOfClosed)
      | some localDone => some (.next { c with localDone, closeOnce := .done } log (.returned 0 none))

abbrev endRead (c : StreamConn) (log : StreamLog) (data : Bytes) (err : Option NetErr) :
    StreamOutcome :=
  .next { c with readMu := false } { log with reads := log.reads ++ [(data, err)] }
    (.returned data.length err)

def readStep (clock : Time) (c : StreamConn) (log : StreamLog) (n : Nat) (deadline : Time)
    (changed : Nat) : SelectCase → Option StreamOutcome
  | .data =>
      c.readCh.recv.map fun
        | (some b, readCh) => endRead { c with readCh, pending := b.drop n } log (b.take n) none
        | (none, readCh) => .next { c with readCh } log .readErr
  | .timer => if timerFired deadline clock then some (endRead c log [] (some (.timeout "read"))) else none
  | .changed => if changed ∈ c.readDeadline.closed then some (.next c log (.readArm n)) else none
  | .signal .remoteDone => none
  -- ready beside the data once `finishRemote` has cancelled the context
  | .signal s => if c.isDone s then some (endRead c log [] (some .closed)) else none

def writeStep (clock : Time) (c : StreamConn) (log : StreamLog) (b : Bytes) (deadline : Time)
    (changed : Nat) : SelectCase → Option StreamOutcome
  | .data =>
      (c.writeCh.send b).map fun
        | .panic => .panic .sendOnClosed
        | .ok writeCh =>
            .next { c with writeCh } { log with accepted := log.accepted ++ [b] }
              (.returned b.length none)
  | .timer =>
      if timerFired deadline clock then some (.next c log (.returned 0 (some (.timeout "write"))))
      else none
  | .changed => if changed ∈ c.writeDeadline.closed then some (.next c log (.writeArm b)) else none
  | .signal s =>
      let err := if s = .remoteDone then .streamClosed else .closed
      if c.isDone s then some (.next c log (.returned 0 (some err))) else none

def pumpStep (c : StreamConn) (log : StreamLog) : SelectCase → Option StreamOutcome
  | .data =>
      c.writeCh.recv.map fun
        | (some b, writeCh) =>
            .next { c with writeCh } log
              (if b = [] then .pumpSelect
                else if c.hasSend then .pumpSend b
                else .finishRemote (some .streamClosed) .enter)
        | (none, writeCh) => .next { c with writeCh } log .pumpSelect
  | .timer | .changed => none
  -- what is still in `writeCh` stays there
  | .signal s => if c.isDone s then some (.next c log (.returned 0 none)) else none

/-- The next step of goroutine `i`. A section under a mutex is one step, and so is a channel
operation. -/
def move (i : Nat) (clock : Time) (c : StreamConn) (log : StreamLog) :
    StreamPc → Choice → Option StreamOutcome
  -- the lock is given back before the `select`
  | .enqueueCheck b, .run =>
      some (.next c log (if c.readClosed then .returned 0 (some .closed) else .enqueueSelect b))
  | .enqueueSelect b, .select k => c.enqueueStep log b k
  | .finishRemote err pos, .run => c.finishStep i log err pos
  | .close pos, .run => c.closeStep i log pos
  | .readLock n, .run =>
      if c.readMu then none
      else if c.pending ≠ [] then
        some (endRead { c with pending := c.pending.drop n } log (c.pending.take n) none)
      else some (.next { c with readMu := true } log (.readArm n))
  | .readArm n, .run => some (.next c log (.readSelect n c.readDeadline.time c.readDeadline.changed))
  | .readSelect n deadline changed, .select k => c.readStep clock log n deadline changed k
  | .readErr, .run => some (endRead c log [] (some c.remoteReadErr))
  | .writeArm b, .run =>
      some (.next c log (.writeSelect b c.writeDeadline.time c.writeDeadline.changed))
  | .writeSelect b deadline changed, .select k => c.writeStep clock log b deadline changed k
  | .pumpSelect, .select k => c.pumpStep log k
  | .pumpSend b, .sendReturns err =>
      some (.next c { log with sent := log.sent ++ [b] }
        (match err with
          | none => .pumpSelect
          | some e => .finishRemote (some e) .enter))
  | .setDeadline side t, .run =>
      some (.next (c.withDeadline side
        { c.deadline side with time := t, changed := (c.deadline side).changed + 1 }) log
        (.closeChanged side (c.deadline side).changed))
  | .closeChanged side old, .run =>
      if old ∈ (c.deadline side).closed then some (.panic .closeOfClosed)
      else some (.next (c.withDeadline side
        { c.deadline side with closed := (c.deadline side).closed ++ [old] }) log (.returned 0 none))
  | _, _ => none

inductive Moves (i : Nat) (clock : Time) (c : StreamConn) (log : StreamLog) :
    StreamPc → Choice → StreamOutcome → Prop
  | enqueueRefused {b : Bytes} (refused : c.readClosed = true) :
      Moves i clock c log (.enqueueCheck b) .run (.next c log (.returned 0 (some .closed)))
  | enqueueChecked {b : Bytes} (passed : c.readClosed = false) :
      Moves i clock c log (.enqueueCheck b) .run (.next c log (.enqueueSelect b))
  | enqueuePanics {b : Bytes} (closed : c.readCh.closed = true) :
      Moves i clock c log (.enqueueSelect b) (.select .data) (.panic .sendOnClosed)
  | enqueueSends {b : Bytes} (opened : c.readCh.closed = false)
      (room : c.readCh.buf.length < c.readCh.cap) :
      Moves i clock c log (.enqueueSelect b) (.select .data)
        (.next { c with readCh := { c.readCh with buf := c.readCh.buf ++ [b] } }
          { log with enqueued := log.enqueued ++ [b] } (.returned b.length none))
  | enqueueStops {b : Bytes} {s : Signal} (ready : c.isDone s = true) :
      Moves i clock c log (.enqueueSelect b) (.select (.signal s))
        (.next c log (.returned 0 (some .closed)))
  | finishEnters {err : Option NetErr} (once : c.remoteCloseOnce = .fresh) :
      Moves i clock c log (.finishRemote err .enter) .run
        (.next { c with remoteCloseOnce := .running i } log (.finishRemote err .storeErr))
  | finishSkips {err : Option NetErr} (once : c.remoteCloseOnce = .done) :
      Moves i clock c log (.finishRemote err .enter) .run (.next c log (.returned 0 none))
  | finishStores {err : Option NetErr} :
      Moves i clock c log (.finishRemote err .storeErr) .run
        (.next { c with remoteErr := err } log (.finishRemote err .closeDone))
  | finishDonePanics {err : Option NetErr} (closed : c.remoteDone.closed = true) :
      Moves i clock c log (.finishRemote err .closeDone) .run (.panic .closeOfClosed)
  | finishClosesDone {err : Option NetErr} (opened : c.remoteDone.closed = false) :
      Moves i clock c log (.finishRemote err .closeDone) .run
        (.next { c with remoteDone := { c.remoteDone with closed := true } } log
          (.finishRemote err .closeRead))
  | finishReadPanics {err : Option NetErr} (closed : c.readCh.closed = true) :
      Moves i clock c log (.finishRemote err .closeRead) .run (.panic .closeOfClosed)
  | finishClosesRead {err : Option NetErr} (opened : c.readCh.closed = false) :
      Moves i clock c log (.finishRemote err .closeRead) .run
        (.next { c with readClosed := true, readCh := { c.readCh with closed := true } } log
          (.finishRemote err .cancel))
  | finishCancels {err : Option NetErr} :
      Moves i clock c log (.finishRemote err .cancel) .run
        (.next { c with ctxDone := true, remoteCloseOnce := .done } log (.returned 0 none))
  | closeEnters (once : c.closeOnce = .fresh) :
      Moves i clock c log (.close .enter) .run
        (.next { c with closeOnce := .running i } log (.close .cancel))
  | closeSkips (once : c.closeOnce = .done) :
      Moves i clock c log (.close .enter) .run (.next c log (.returned 0 none))
  | closeCancels :
      Moves i clock c log (.close .cancel) .run
        (.next { c with ctxDone := true } log (.close .closeDone))
  | closePanics (closed : c.localDone.closed = true) :
      Moves i clock c log (.close .closeDone) .run (.panic .closeOfClosed)
  | closeCloses (opened : c.localDone.closed = false) :
      Moves i clock c log (.close .closeDone) .run
        (.next { c with localDone := { c.localDone with closed := true }, closeOnce := .done } log
          (.returned 0 none))
  | readPending {n : Nat} (free : c.readMu = false) (some : c.pending ≠ []) :
      Moves i clock c log (.readLock n) .run
        (endRead { c with pending := c.pending.drop n } log (c.pending.take n) none)
  | readLocks {n : Nat} (free : c.readMu = false) (empty : c.pending = []) :
      Moves i clock c log (.readLock n) .run (.next { c with readMu := true } log (.readArm n))
  | readArms {n : Nat} :
      Moves i clock c log (.readArm n) .run
        (.next c log (.readSelect n c.readDeadline.time c.readDeadline.changed))
  | readReceives {n changed : Nat} {deadline : Time} {b : Bytes} {rest : List Bytes}
      (ahead : c.readCh.buf = b :: rest) :
      Moves i clock c log (.readSelect n deadline changed) (.select .data)
        (endRead { c with readCh := { c.readCh with buf := rest }, pending := b.drop n } log
          (b.take n) none)
  | readEnds {n changed : Nat} {deadline : Time} (empty : c.readCh.buf = [])
      (closed : c.readCh.closed = true) :
      Moves i clock c log (.readSelect n deadline changed) (.select .data) (.next c log .readErr)
  | readTimesOut {n changed : Nat} {deadline : Time} (fired : timerFired deadline clock = true) :
      Moves i clock c log (.readSelect n deadline changed) (.select .timer)
        (endRead c log [] (some (.timeout "read")))
  | readRearms {n changed : Nat} {deadline : Time} (closed : changed ∈ c.readDeadline.closed) :
      Moves i clock c log (.readSelect n deadline changed) (.select .changed)
        (.next c log (.readArm n))
  | readStops {n changed : Nat} {deadline : Time} {s : Signal} (listens : s ≠ .remoteDone)
      (ready : c.isDone s = true) :
      Moves i clock c log (.readSelect n deadline changed) (.select (.signal s))
        (endRead c log [] (some .closed))
  | readReports :
      Moves i clock c log .readErr .run (endRead c log [] (some c.remoteReadErr))
  | writeArms {b : Bytes} :
      Moves i clock c log (.writeArm b) .run
        (.next c log (.writeSelect b c.writeDeadline.time c.writeDeadline.changed))
  | writePanics {b : Bytes} {changed : Nat} {deadline : Time} (closed : c.writeCh.closed = true) :
      Moves i clock c log (.writeSelect b deadline changed) (.select .data) (.panic .sendOnClosed)
  | writeSends {b : Bytes} {changed : Nat} {deadline : Time} (opened : c.writeCh.closed = false)
      (room : c.writeCh.buf.length < c.writeCh.cap) :
      Moves i clock c log (.writeSelect b deadline changed) (.select .data)
        (.next { c with writeCh := { c.writeCh with buf := c.writeCh.buf ++ [b] } }
          { log with accepted := log.accepted ++ [b] } (.returned b.length none))
  | writeTimesOut {b : Bytes} {changed : Nat} {deadline : Time}
      (fired : timerFired deadline clock = true) :
      Moves i clock c log (.writeSelect b deadline changed) (.select .timer)
        (.next c log (.returned 0 (some (.timeout "write"))))
  | writeRearms {b : Bytes} {changed : Nat} {deadline : Time}
      (closed : changed ∈ c.writeDeadline.closed) :
      Moves i clock c log (.writeSelect b deadline changed) (.select .changed)
        (.next c log (.writeArm b))
  | writeStops {b : Bytes} {changed : Nat} {deadline : Time} {s : Signal}
      (ready : c.isDone s = true) :
      Moves i clock c log (.writeSelect b deadline changed) (.select (.signal s))
        (.next c log (.returned 0 (some (if s = .remoteDone then .streamClosed else .closed))))
  | pumpReceives {b : Bytes} {rest : List Bytes} (ahead : c.writeCh.buf = b :: rest) :
      Moves i clock c log .pumpSelect (.select .data)
        (.next { c with writeCh := { c.writeCh with buf := rest } } log
          (if b = [] then .pumpSelect
            else if c.hasSend then .pumpSend b
            else .finishRemote (some .streamClosed) .enter))
  | pumpIdles (empty : c.writeCh.buf = []) (closed : c.writeCh.closed = true) :
      Moves i clock c log .pumpSelect (.select .data) (.next c log .pumpSelect)
  | pumpStops {s : Signal} (ready : c.isDone s = true) :
      Moves i clock c log .pumpSelect (.select (.signal s)) (.next c log (.returned 0 none))
  | pumpSends {b : Bytes} :
      Moves i clock c log (.pumpSend b) (.sendReturns none)
        (.next c { log with sent := log.sent ++ [b] } .pumpSelect)
  | pumpFails {b : Bytes} {e : NetErr} :
      Moves i clock c log (.pumpSend b) (.sendReturns (some e))
        (.next c { log with sent := log.sent ++ [b] } (.finishRemote (some e) .enter))
  | deadlineSet {side : Side} {t : Time} :
      Moves i clock c log (.setDeadline side t) .run
        (.next (c.withDeadline side
          { c.deadline side with time := t, changed := (c.deadline side).changed + 1 }) log
          (.closeChanged side (c.deadline side).changed))
  | changedPanics {side : Side} {old : Nat} (closed : old ∈ (c.deadline side).closed) :
      Moves i clock c log (.closeChanged side old) .run (.panic .closeOfClosed)
  | changedCloses {side : Side} {old : Nat} (opened : old ∉ (c.deadline side).closed) :
      Moves i clock c log (.closeChanged side old) .run
        (.next (c.withDeadline side
          { c.deadline side with closed := (c.deadline side).closed ++ [old] }) log
          (.returned 0 none))

variable {i : Nat} {clock : Time} {c : StreamConn} {log : StreamLog}

theorem moves_of_enqueueStep {b : Bytes} {k : SelectCase} {out : StreamOutcome}
    (taken : c.enqueueStep log b k = some out) :
    Moves i clock c log (.enqueueSelect b) (.select k) out := by
  cases k with
  | data =>
      simp only [enqueueStep, Option.map_eq_some_iff] at taken
      obtain ⟨result, sent, rfl⟩ := taken
      cases result with
      | panic => exact .enqueuePanics (Chan.send_eq_panic.1 sent)
      | ok readCh =>
          obtain ⟨opened, room, rfl⟩ := Chan.send_eq_ok.1 sent
          exact .enqueueSends opened room
  | signal s =>
      simp only [enqueueStep, Option.ite_none_right_eq_some, Option.some.injEq] at taken
      obtain ⟨ready, rfl⟩ := taken
      exact .enqueueStops ready
  | timer => cases taken
  | changed => cases taken

theorem moves_of_finishStep {err : Option NetErr} {pos : FinishPos} {out : StreamOutcome}
    (taken : c.finishStep i log err pos = some out) :
    Moves i clock c log (.finishRemote err pos) .run out := by
  cases pos with
  | enter =>
      simp only [finishStep] at taken
      split at taken
      · cases taken
        exact .finishEnters ‹_›
      · cases taken
      · cases taken
        exact .finishSkips ‹_›
  | storeErr =>
      cases taken
      exact .finishStores
  | closeDone =>
      simp only [finishStep] at taken
      split at taken
      · cases taken
        exact .finishDonePanics (Chan.close_eq_none.1 ‹_›)
      · rename_i closing
        obtain ⟨opened, rfl⟩ := Chan.close_eq_some.1 closing
        cases taken
        exact .finishClosesDone opened
  | closeRead =>
      simp only [finishStep] at taken
      split at taken
      · cases taken
        exact .finishReadPanics (Chan.close_eq_none.1 ‹_›)
      · rename_i closing
        obtain ⟨opened, rfl⟩ := Chan.close_eq_some.1 closing
        cases taken
        exact .finishClosesRead opened
  | cancel =>
      cases taken
      exact .finishCancels

theorem moves_of_closeStep {pos : ClosePos} {out : StreamOutcome}
    (taken : c.closeStep i log pos = some out) : Moves i clock c log (.close pos) .run out := by
  cases pos with
  | enter =>
      simp only [closeStep] at taken
      split at taken
      · cases taken
        exact .closeEnters ‹_›
      · cases taken
      · cases taken
        exact .closeSkips ‹_›
  | cancel =>
      cases taken
      exact .closeCancels
  | closeDone =>
      simp only [closeStep] at taken
      split at taken
      · cases taken
        exact .closePanics (Chan.close_eq_none.1 ‹_›)
      · rename_i closing
        obtain ⟨opened, rfl⟩ := Chan.close_eq_some.1 closing
        cases taken
        exact .closeCloses opened

theorem moves_of_readStep {n changed : Nat} {deadline : Time} {k : SelectCase}
    {out : StreamOutcome} (taken : c.readStep clock log n deadline changed k = some out) :
    Moves i clock c log (.readSelect n deadline changed) (.select k) out := by
  cases k with
  | data =>
      simp only [readStep, Option.map_eq_some_iff] at taken
      obtain ⟨⟨result, readCh⟩, received, rfl⟩ := taken
      cases result with
      | some b =>
          obtain ⟨rest, ahead, rfl⟩ := Chan.recv_eq_some.1 received
          exact .readReceives ahead
      | none =>
          obtain ⟨empty, closed, rfl⟩ := Chan.recv_eq_none.1 received
          exact .readEnds empty closed
  | timer =>
      simp only [readStep, Option.ite_none_right_eq_some, Option.some.injEq] at taken
      obtain ⟨fired, rfl⟩ := taken
      exact .readTimesOut fired
  | changed =>
      simp only [readStep, Option.ite_none_right_eq_some, Option.some.injEq] at taken
      obtain ⟨closed, rfl⟩ := taken
      exact .readRearms closed
  | signal s =>
      cases s with
      | remoteDone => cases taken
      | localDone =>
          simp only [readStep, Option.ite_none_right_eq_some, Option.some.injEq] at taken
          obtain ⟨ready, rfl⟩ := taken
          exact .readStops nofun ready
      | ctxDone =>
          simp only [readStep, Option.ite_none_right_eq_some, Option.some.injEq] at taken
          obtain ⟨ready, rfl⟩ := taken
          exact .readStops nofun ready

theorem moves_of_writeStep {b : Bytes} {changed : Nat} {deadline : Time} {k : SelectCase}
    {out : StreamOutcome} (taken : c.writeStep clock log b deadline changed k = some out) :
    Moves i clock c log (.writeSelect b deadline changed) (.select k) out := by
  cases k with
  | data =>
      simp only [writeStep, Option.map_eq_some_iff] at taken
      obtain ⟨result, sent, rfl⟩ := taken
      cases result with
      | panic => exact .writePanics (Chan.send_eq_panic.1 sent)
      | ok writeCh =>
          obtain ⟨opened, room, rfl⟩ := Chan.send_eq_ok.1 sent
          exact .writeSends opened room
  | timer =>
      simp only [writeStep, Option.ite_none_right_eq_some, Option.some.injEq] at taken
      obtain ⟨fired, rfl⟩ := taken
      exact .writeTimesOut fired
  | changed =>
      simp only [writeStep, Option.ite_none_right_eq_some, Option.some.injEq] at taken
      obtain ⟨closed, rfl⟩ := taken
      exact .writeRearms closed
  | signal s =>
      simp only [writeStep, Option.ite_none_right_eq_some, Option.some.injEq] at taken
      obtain ⟨ready, rfl⟩ := taken
      exact .writeStops ready

theorem moves_of_pumpStep {k : SelectCase} {out : StreamOutcome}
    (taken : c.pumpStep log k = some out) :
    Moves i clock c log .pumpSelect (.select k) out := by
  cases k with
  | data =>
      simp only [pumpStep, Option.map_eq_some_iff] at taken
      obtain ⟨⟨result, writeCh⟩, received, rfl⟩ := taken
      cases result with
      | some b =>
          obtain ⟨rest, ahead, rfl⟩ := Chan.recv_eq_some.1 received
          exact .pumpReceives ahead
      | none =>
          obtain ⟨empty, closed, rfl⟩ := Chan.recv_eq_none.1 received
          exact .pumpIdles empty closed
  | timer => cases taken
  | changed => cases taken
  | signal s =>
      simp only [pumpStep, Option.ite_none_right_eq_some, Option.some.injEq] at taken
      obtain ⟨ready, rfl⟩ := taken
      exact .pumpStops ready

theorem moves_of_move {pc : StreamPc} {k : Choice} {out : StreamOutcome}
    (taken : c.move i clock log pc k = some out) : Moves i clock c log pc k out := by
  unfold move at taken
  split at taken
  · cases taken
    cases closed : c.readClosed with
    | true => exact .enqueueRefused closed
    | false => exact .enqueueChecked closed
  · exact moves_of_enqueueStep taken
  · exact moves_of_finishStep taken
  · exact moves_of_closeStep taken
  · split at taken
    · cases taken
    · rename_i free
      have free : c.readMu = false := Bool.not_eq_true _ ▸ free
      split at taken
      · cases taken
        exact .readPending free ‹_›
      · cases taken
        exact .readLocks free (not_not.1 ‹_›)
  · cases taken
    exact .readArms
  · exact moves_of_readStep taken
  · cases taken
    exact .readReports
  · cases taken
    exact .writeArms
  · exact moves_of_writeStep taken
  · exact moves_of_pumpStep taken
  · rename_i err
    cases taken
    cases err with
    | none => exact .pumpSends
    | some e => exact .pumpFails
  · cases taken
    exact .deadlineSet
  · split at taken
    · cases taken
      exact .changedPanics ‹_›
    · cases taken
      exact .changedCloses ‹_›
  · cases taken

end StreamConn

inductive StreamCall
  | enqueueRead (p : Bytes)
  | finishRemote (err : Option NetErr)
  | close
  | read (n : Nat)
  | write (p : Bytes)
  | setDeadline (side : Side) (t : Time)
  deriving DecidableEq

def StreamCall.start : StreamCall → StreamPc
  | .enqueueRead p => if p = [] then .returned 0 none else .enqueueCheck p
  | .finishRemote err => .finishRemote err .enter
  | .close => .close .enter
  | .read n => if n = 0 then .returned 0 none else .readLock n
  | .write p => if p = [] then .returned 0 none else .writeArm p
  | .setDeadline side t => .setDeadline side t

inductive StreamAction
  | call (c : StreamCall)
  | move (i : Nat) (k : Choice)
  | tick (now : Time)
  | cancelParent
  deriving DecidableEq

def StreamAction.signal : StreamAction → Option Signal
  | .move _ k => k.signal
  | _ => none

/-- A stream connection and the goroutines that use it; the first one is the `writePump`. -/
structure StreamSys where
  conn : StreamConn
  log : StreamLog
  clock : Time
  threads : List StreamPc
  panicked : Option StreamPanic
  deriving DecidableEq

namespace StreamSys

def newStreamConn (hasSend : Bool) (clock : Time) : StreamSys where
  conn :=
    { ctxDone := false, hasSend, readCh := .make 64, writeCh := .make 64, readMu := false,
      pending := [], localDone := .make 0, remoteDone := .make 0, closeOnce := .fresh,
      remoteCloseOnce := .fresh, remoteErr := none, readClosed := false,
      readDeadline := ⟨0, 0, []⟩, writeDeadline := ⟨0, 0, []⟩ }
  log := ⟨[], [], [], []⟩
  clock
  threads := [.pumpSelect]
  panicked := none

def step (s : StreamSys) (a : StreamAction) : Option StreamSys :=
  if s.panicked.isSome then none
  else match a with
    | .call c => some { s with threads := s.threads ++ [c.start] }
    | .move i k =>
        match s.threads[i]? with
        | none => none
        | some pc =>
            (s.conn.move i s.clock s.log pc k).map fun
              | .panic why => { s with panicked := some why }
              | .next conn log pc => { s with conn, log, threads := s.threads.set i pc }
    | .tick now => if s.clock ≤ now then some { s with clock := now } else none
    | .cancelParent => some { s with conn := { s.conn with ctxDone := true } }

inductive Steps (s : StreamSys) : StreamAction → StreamSys → Prop
  | call (c : StreamCall) : Steps s (.call c) { s with threads := s.threads ++ [c.start] }
  | next {i : Nat} {k : Choice} {pc pc' : StreamPc} {conn : StreamConn} {log : StreamLog}
      (here : s.threads[i]? = some pc)
      (moves : StreamConn.Moves i s.clock s.conn s.log pc k (.next conn log pc')) :
      Steps s (.move i k) { s with conn, log, threads := s.threads.set i pc' }
  | panics {i : Nat} {k : Choice} {pc : StreamPc} {why : StreamPanic}
      (here : s.threads[i]? = some pc)
      (moves : StreamConn.Moves i s.clock s.conn s.log pc k (.panic why)) :
      Steps s (.move i k) { s with panicked := some why }
  | tick {now : Time} (later : s.clock ≤ now) : Steps s (.tick now) { s with clock := now }
  | cancelParent : Steps s .cancelParent { s with conn := { s.conn with ctxDone := true } }

theorem steps_of_step {s s' : StreamSys} {a : StreamAction} (taken : s.step a = some s') :
    s.panicked = none ∧ s.Steps a s' := by
  unfold step at taken
  split at taken
  · cases taken
  · rename_i running
    refine ⟨by simpa using running, ?_⟩
    cases a with
    | call c =>
        cases taken
        exact .call c
    | move i k =>
        dsimp only at taken
        split at taken
        · cases taken
        · rename_i pc here
          obtain ⟨out, moved, rfl⟩ := Option.map_eq_some_iff.1 taken
          have moves := StreamConn.moves_of_move moved
          cases out with
          | panic why => exact .panics here moves
          | next conn log pc' => exact .next here moves
    | tick now =>
        obtain ⟨later, same⟩ := Option.ite_none_right_eq_some.1 taken
        cases same
        exact .tick later
    | cancelParent =>
        cases taken
        exact .cancelParent

def runs (i n : Nat) : List StreamAction := List.replicate n (.move i .run)

end StreamSys

end S5lb
