import S5lb.Lib.Transition
import S5lb.Socks5.IdleCopy

/-!
# The two goroutines of a tunnel

`Pipe` as it runs: a copying goroutine for each direction, the peers at both ends, and the caller that
waits for the first direction to end, closes behind it and waits for the other.
-/

namespace S5lb.Socks5

open Go Transition

/-- The error of a `Read` whose deadline has passed, of a TCP connection and of a `streamConn`. -/
def timeouts : List Err := [.other "i/o timeout", .other "read: i/o timeout"]

theorem not_eof_of_timeout {e : Err} (timeout : e ∈ timeouts) : e.is .eof = false := by
  revert e
  decide

structure Endpoint where
  halfCloser : Bool
  sent : Bytes
  unread : Bytes
  fin : Bool
  failed : Bool
  written : Bytes
  /-- The peer reads nothing and there is no room left on the way to it. -/
  stalled : Bool
  /-- `Pipe` has called `CloseWrite`, or `Close` for want of it. -/
  shut : Bool
  closed : Bool
  /-- Somebody else has closed the connection, or its context is done. -/
  cut : Bool
  deadline : Option Time
  deriving DecidableEq

inductive CopyPc
  | arm
  | read
  | write (rest : Bytes) (rerr : Option Err)
  | returned (err : Option Err)
  | sent (err : Option Err)
  deriving DecidableEq

structure Copier where
  pc : CopyPc
  total : Nat
  reads : List (Bytes × Option Err)
  writes : List (Bytes × Nat × Option Err)
  deriving DecidableEq

inductive PipePc
  | select
  | closing (first : Direction)
  | waiting (first : Direction)
  | returned
  deriving DecidableEq

structure PipeSys where
  clock : Time
  conn : Direction → Endpoint
  copier : Direction → Copier
  main : PipePc
  count : Direction → Option Nat

inductive PeerEvent
  | sends (b : Bytes)
  | fin
  | fails
  | stalls
  | resumes
  | cut

inductive CopyEvent
  | arm
  | read (got : Bytes) (rerr : Option Err)
  | write (nw : Nat) (werr : Option Err)
  | send

inductive PipeAction
  | peer (d : Direction) (e : PeerEvent)
  | copy (d : Direction) (e : CopyEvent)
  | select (d : Direction)
  | close
  | wait
  | tick (now : Time)

namespace Endpoint

def fresh (halfCloser : Bool) : Endpoint :=
  ⟨halfCloser, [], [], false, false, [], false, false, false, false, none⟩

def gone (c : Endpoint) : Bool := c.closed || c.cut

def peer (c : Endpoint) : PeerEvent → Option Endpoint
  | .sends b =>
      if c.fin ∨ c.failed then none else some { c with sent := c.sent ++ b, unread := c.unread ++ b }
  | .fin => if c.fin ∨ c.failed then none else some { c with fin := true }
  | .fails => some { c with failed := true }
  | .stalls => some { c with stalled := true }
  | .resumes => some { c with stalled := false }
  | .cut => some { c with cut := true }

def expired (c : Endpoint) (clock : Time) : Bool := c.deadline.any (· ≤ clock)

/-- The error that a `Read` may return with the given bytes. A closed connection answers as it likes: a
`streamConn` may still give what is queued, or `net.ErrClosed`, or take the cancelled context for the end of
the stream and say `io.EOF`. -/
def readErr (c : Endpoint) (clock : Time) (got : Bytes) : Option Err → Bool
  | none => got ≠ []
  | some e => c.gone ∨
      if e.is .eof then c.fin ∧ got = c.unread else e ∈ timeouts ∧ c.expired clock ∨ c.failed

def read (c : Endpoint) (clock : Time) (got : Bytes) (rerr : Option Err) : Option Endpoint :=
  if got <+: c.unread ∧ got.length ≤ bufSize ∧ c.readErr clock got rerr then
    some { c with unread := c.unread.drop got.length }
  else none

/-- The error that a `Write` may return. No deadline is set for it: while the peer is stalled and the
connection stands it does not return. -/
def writeErr (c : Endpoint) : Option Err → Bool
  | none => c.shut = false ∧ c.stalled = false
  | some _ => c.gone ∨ c.failed ∨ c.shut

def write (c : Endpoint) (rest : Bytes) (nw : Nat) (werr : Option Err) : Option Endpoint :=
  if nw ≤ rest.length ∧ c.writeErr werr then
    some { c with written := c.written ++ rest.take nw }
  else none

def closeWrite (c : Endpoint) : Endpoint :=
  if c.halfCloser then { c with shut := true } else { c with closed := true }

end Endpoint

section Copy

variable (idle : Duration)

def copyTop : CopyPc := if idle ≤ 0 then .read else .arm

def isEOF (e : Err) : Bool := if idle ≤ 0 then e == .eof else e.is .eof

def afterWrite : Option Err → CopyPc
  | none => copyTop idle
  | some e => .returned (if isEOF idle e then none else some e)

def afterRead (got : Bytes) (rerr : Option Err) : CopyPc :=
  if got = [] then afterWrite idle rerr else .write got rerr

def onWrite (rest : Bytes) (rerr : Option Err) (nw : Nat) : Option Err → CopyPc
  | some e => .returned (some e)
  | none =>
      if nw = rest.length then afterWrite idle rerr
      else if idle ≤ 0 ∨ nw = 0 then .returned (some .shortWrite)
      else .write (rest.drop nw) rerr

end Copy

namespace PipeSys

section Step

variable (idle : Duration)

def start (clientHalf upstreamHalf : Bool) : PipeSys where
  clock := 0
  conn
    | .up => .fresh clientHalf
    | .down => .fresh upstreamHalf
  copier _ := ⟨copyTop idle, 0, [], []⟩
  main := .select
  count _ := none

def setConn (s : PipeSys) (d : Direction) (c : Endpoint) : PipeSys :=
  { s with conn := Function.update s.conn d c }

def setCopier (s : PipeSys) (d : Direction) (c : Copier) : PipeSys :=
  { s with copier := Function.update s.copier d c }

def copyStep (s : PipeSys) (d : Direction) (e : CopyEvent) : Option PipeSys :=
  let copier := s.copier d
  match copier.pc, e with
  | .arm, .arm =>
      some ((s.setConn d { s.conn d with deadline := some (s.clock + idle) }).setCopier d
        { copier with pc := .read })
  | .read, .read got rerr =>
      ((s.conn d).read s.clock got rerr).map fun c => (s.setConn d c).setCopier d
        { copier with pc := afterRead idle got rerr, reads := copier.reads ++ [(got, rerr)] }
  | .write rest rerr, .write nw werr =>
      ((s.conn d.other).write rest nw werr).map fun c => (s.setConn d.other c).setCopier d
        { copier with
          pc := onWrite idle rest rerr nw werr
          total := copier.total + nw
          writes := copier.writes ++ [(rest, nw, werr)] }
  | .returned err, .send => some (s.setCopier d { copier with pc := .sent err })
  | _, _ => none

def receive (s : PipeSys) (d : Direction) (next : PipePc) : Option PipeSys :=
  match (s.copier d).pc with
  | .sent _ => some { s with count := Function.update s.count d (some (s.copier d).total), main := next }
  | _ => none

def step (s : PipeSys) : PipeAction → Option PipeSys
  | .peer d e => ((s.conn d).peer e).map (s.setConn d)
  | .copy d e => s.copyStep idle d e
  | .select d => if s.main = .select then s.receive d (.closing d) else none
  | .close =>
      match s.main with
      | .closing first =>
          some { s.setConn first.other (s.conn first.other).closeWrite with main := .waiting first }
      | _ => none
  | .wait =>
      match s.main with
      | .waiting first => s.receive first.other .returned
      | _ => none
  | .tick now => if s.clock ≤ now then some { s with clock := now } else none

end Step

end PipeSys

def CopyPc.ended : CopyPc → Option (Option Err)
  | .returned err | .sent err => some err
  | _ => none

inductive Cause (idle : Duration) (clock : Time) (src dst : Endpoint)
    (writes : List (Bytes × Nat × Option Err)) : Err → Prop
  | idle {e : Err} (timeout : e ∈ timeouts) (positive : 0 < idle) (passed : src.expired clock = true) :
      Cause idle clock src dst writes e
  | source {e : Err} (failed : src.failed = true) : Cause idle clock src dst writes e
  | destination {e : Err} (failed : dst.failed = true) : Cause idle clock src dst writes e
  | short {rest : Bytes} {nw : Nat} (last : writes.getLast? = some (rest, nw, none))
      (fewer : nw < rest.length) : Cause idle clock src dst writes .shortWrite
  | gone {e : Err} (gone : src.gone = true) : Cause idle clock src dst writes e
  | cut {e : Err} (cut : dst.cut = true) : Cause idle clock src dst writes e
  | wrapped {e : Err} (plain : idle ≤ 0) (ends : e.is .eof = true) (fin : src.fin = true)
      (whole : dst.written = src.sent) : Cause idle clock src dst writes e

inductive ReadCause (idle : Duration) (clock : Time) (src : Endpoint) : Err → Prop
  | idle {e : Err} (timeout : e ∈ timeouts) (positive : 0 < idle) (passed : src.expired clock = true) :
      ReadCause idle clock src e
  | failed {e : Err} (failed : src.failed = true) (other : e.is .eof = false) : ReadCause idle clock src e
  | gone {e : Err} (gone : src.gone = true) : ReadCause idle clock src e
  | eof {e : Err} (ends : e.is .eof = true) (fin : src.fin = true) (all : src.unread = []) :
      ReadCause idle clock src e

def Ends (idle : Duration) (clock : Time) (src dst : Endpoint)
    (writes : List (Bytes × Nat × Option Err)) : Option Err → Prop
  | none => dst.written <+: src.sent ∧ (src.fin = true ∧ dst.written = src.sent ∨ src.gone = true)
  | some e => dst.written <+: src.sent ∧ Cause idle clock src dst writes e

def CopyPc.Flows (idle : Duration) (clock : Time) (src dst : Endpoint)
    (writes : List (Bytes × Nat × Option Err)) : CopyPc → Prop
  | .arm => 0 < idle ∧ src.sent = dst.written ++ src.unread
  | .read => src.sent = dst.written ++ src.unread
  | .write rest rerr =>
      src.sent = dst.written ++ (rest ++ src.unread) ∧ ∀ e, rerr = some e → ReadCause idle clock src e
  | .returned err | .sent err => Ends idle clock src dst writes err

namespace Endpoint

structure Follows (c c' : Endpoint) : Prop where
  more : ∃ b, c'.sent = c.sent ++ b ∧ c'.unread = c.unread ++ b ∧ (c.fin = true → b = [])
  fin : c.fin = true → c'.fin = true
  failed : c.failed = true → c'.failed = true
  gone : c.gone = true → c'.gone = true
  deadline : c'.deadline = c.deadline

structure Holds (c c' : Endpoint) : Prop where
  written : c'.written = c.written
  failed : c.failed = true → c'.failed = true
  cut : c.cut = true → c'.cut = true

variable {c c' : Endpoint}

theorem follows_refl (c : Endpoint) : c.Follows c := ⟨⟨[], by simp⟩, id, id, id, rfl⟩

theorem holds_refl (c : Endpoint) : c.Holds c := ⟨rfl, id, id⟩

theorem Follows.unchanged (follows : c.Follows c') (fin : c.fin = true) :
    c'.sent = c.sent ∧ c'.unread = c.unread := by
  obtain ⟨b, sent, unread, none⟩ := follows.more
  rw [none fin, List.append_nil] at sent unread
  exact ⟨sent, unread⟩

theorem Follows.expired (follows : c.Follows c') {clock clock' : Time} (later : clock ≤ clock')
    (passed : c.expired clock = true) : c'.expired clock' = true := by
  unfold Endpoint.expired at passed ⊢
  rw [follows.deadline]
  obtain ⟨t, set, past⟩ := (Option.any_eq_true _ _).1 passed
  rw [set]
  exact decide_eq_true ((of_decide_eq_true past).trans later)

theorem follows_peer {e : PeerEvent} (moved : c.peer e = some c') : c.Follows c' ∧ c.Holds c' := by
  cases e with
  | sends b =>
      obtain ⟨live, moved⟩ := Option.ite_none_left_eq_some.1 moved
      cases moved
      exact ⟨⟨⟨b, rfl, rfl, fun fin => absurd (.inl fin) live⟩, id, id, id, rfl⟩, rfl, id, id⟩
  | fin =>
      obtain ⟨live, moved⟩ := Option.ite_none_left_eq_some.1 moved
      cases moved
      exact ⟨⟨⟨[], by simp⟩, fun _ => rfl, id, id, rfl⟩, rfl, id, id⟩
  | fails =>
      cases moved
      exact ⟨⟨⟨[], by simp⟩, id, fun _ => rfl, id, rfl⟩, rfl, fun _ => rfl, id⟩
  | stalls | resumes =>
      cases moved
      exact ⟨⟨⟨[], by simp⟩, id, id, id, rfl⟩, rfl, id, id⟩
  | cut =>
      cases moved
      exact ⟨⟨⟨[], by simp⟩, id, id, fun _ => Bool.or_true _, rfl⟩, rfl, id, fun _ => rfl⟩

theorem follows_closeWrite (c : Endpoint) : c.Follows c.closeWrite ∧ c.Holds c.closeWrite := by
  unfold closeWrite
  split
  · exact ⟨⟨⟨[], by simp⟩, id, id, id, rfl⟩, rfl, id, id⟩
  · exact ⟨⟨⟨[], by simp⟩, id, id, fun _ => rfl, rfl⟩, rfl, id, id⟩

theorem closeWrite_closed (c : Endpoint) (whole : c.closed = true → c.halfCloser = false)
    (closed : c.closeWrite.closed = true) : c.closeWrite.halfCloser = false := by
  unfold closeWrite at closed ⊢
  split at closed
  · rw [if_pos ‹_›]
    exact whole closed
  · rw [if_neg ‹_›]
    exact Bool.eq_false_iff.2 ‹_›

theorem closeWrite_deadline (c : Endpoint) : c.closeWrite.deadline = c.deadline := by
  unfold closeWrite
  split <;> rfl

theorem peer_closed {e : PeerEvent} (moved : c.peer e = some c') :
    c'.shut = c.shut ∧ c'.closed = c.closed ∧ c'.halfCloser = c.halfCloser ∧
      c'.deadline = c.deadline := by
  cases e with
  | sends | fin =>
      obtain ⟨_, moved⟩ := Option.ite_none_left_eq_some.1 moved
      cases moved
      exact ⟨rfl, rfl, rfl, rfl⟩
  | fails | stalls | resumes | cut =>
      cases moved
      exact ⟨rfl, rfl, rfl, rfl⟩

end Endpoint

structure Later (clock : Time) (src dst : Endpoint) (clock' : Time) (src' dst' : Endpoint) : Prop where
  clock : clock ≤ clock'
  source : src.Follows src'
  dest : dst.Holds dst'

namespace Later

variable {idle : Duration} {clock clock' : Time} {src dst src' dst' : Endpoint}
  {writes : List (Bytes × Nat × Option Err)} {e : Err}

theorem cause (later : Later clock src dst clock' src' dst')
    (cause : Cause idle clock src dst writes e) : Cause idle clock' src' dst' writes e := by
  cases cause with
  | idle timeout positive passed =>
      exact .idle timeout positive (later.source.expired later.clock passed)
  | source failed => exact .source (later.source.failed failed)
  | destination failed => exact .destination (later.dest.failed failed)
  | short last fewer => exact .short last fewer
  | gone gone => exact .gone (later.source.gone gone)
  | cut cut => exact .cut (later.dest.cut cut)
  | wrapped plain ends fin whole =>
      refine .wrapped plain ends (later.source.fin fin) ?_
      rw [later.dest.written, (later.source.unchanged fin).1, whole]

theorem readCause (later : Later clock src dst clock' src' dst') (cause : ReadCause idle clock src e) :
    ReadCause idle clock' src' e := by
  cases cause with
  | idle timeout positive passed =>
      exact .idle timeout positive (later.source.expired later.clock passed)
  | failed failed other => exact .failed (later.source.failed failed) other
  | gone gone => exact .gone (later.source.gone gone)
  | eof ends fin all =>
      exact .eof ends (later.source.fin fin) ((later.source.unchanged fin).2.trans all)

theorem ends (later : Later clock src dst clock' src' dst') {err : Option Err}
    (ends : Ends idle clock src dst writes err) : Ends idle clock' src' dst' writes err := by
  have order (before : dst.written <+: src.sent) : dst'.written <+: src'.sent := by
    obtain ⟨b, sent, _, _⟩ := later.source.more
    rw [sent, later.dest.written]
    exact before.trans (List.prefix_append _ _)
  cases err with
  | none =>
      refine ⟨order ends.1, ends.2.imp (fun ⟨fin, whole⟩ => ⟨later.source.fin fin, ?_⟩) later.source.gone⟩
      rw [later.dest.written, (later.source.unchanged fin).1, whole]
  | some e => exact ⟨order ends.1, later.cause ends.2⟩

theorem flows (later : Later clock src dst clock' src' dst') {pc : CopyPc}
    (flows : pc.Flows idle clock src dst writes) : pc.Flows idle clock' src' dst' writes := by
  have moves (rest : Bytes) (whole : src.sent = dst.written ++ (rest ++ src.unread)) :
      src'.sent = dst'.written ++ (rest ++ src'.unread) := by
    obtain ⟨b, sent, unread, _⟩ := later.source.more
    rw [sent, unread, later.dest.written, whole]
    simp
  cases pc with
  | arm => exact ⟨flows.1, moves [] flows.2⟩
  | read => exact moves [] flows
  | write rest rerr => exact ⟨moves rest flows.1, fun e failed => later.readCause (flows.2 e failed)⟩
  | returned err | sent err => exact later.ends flows

end Later

namespace PipeSys

variable {idle : Duration} {s s' : PipeSys} {d : Direction}

@[simp] theorem setConn_self (s : PipeSys) (d : Direction) (c : Endpoint) : (s.setConn d c).conn d = c :=
  Function.update_self ..

@[simp] theorem setConn_other (s : PipeSys) (d : Direction) (c : Endpoint) :
    (s.setConn d c).conn d.other = s.conn d.other :=
  Function.update_of_ne d.other_ne ..

@[simp] theorem setConn_of_other (s : PipeSys) (d : Direction) (c : Endpoint) :
    (s.setConn d.other c).conn d = s.conn d :=
  Function.update_of_ne d.other_ne.symm ..

@[simp] theorem setConn_copier (s : PipeSys) (d : Direction) (c : Endpoint) :
    (s.setConn d c).copier = s.copier := rfl

inductive Copies (idle : Duration) (s : PipeSys) (d : Direction) : CopyEvent → PipeSys → Prop
  | arm (here : (s.copier d).pc = .arm) :
      Copies idle s d .arm ((s.setConn d
        { s.conn d with deadline := some (s.clock + idle) }).setCopier d
        { s.copier d with pc := .read })
  | read {got : Bytes} {rerr : Option Err} (here : (s.copier d).pc = .read)
      (part : got <+: (s.conn d).unread) (small : got.length ≤ bufSize)
      (answer : (s.conn d).readErr s.clock got rerr = true) :
      Copies idle s d (.read got rerr) ((s.setConn d
        { s.conn d with unread := (s.conn d).unread.drop got.length }).setCopier d
        { s.copier d with
          pc := afterRead idle got rerr, reads := (s.copier d).reads ++ [(got, rerr)] })
  | write {rest : Bytes} {rerr werr : Option Err} {nw : Nat} (here : (s.copier d).pc = .write rest rerr)
      (fits : nw ≤ rest.length) (answer : (s.conn d.other).writeErr werr = true) :
      Copies idle s d (.write nw werr) ((s.setConn d.other
        { s.conn d.other with written := (s.conn d.other).written ++ rest.take nw }).setCopier d
        { s.copier d with
          pc := onWrite idle rest rerr nw werr
          total := (s.copier d).total + nw
          writes := (s.copier d).writes ++ [(rest, nw, werr)] })
  | send {err : Option Err} (here : (s.copier d).pc = .returned err) :
      Copies idle s d .send (s.setCopier d { s.copier d with pc := .sent err })

theorem copies_of_copyStep {e : CopyEvent} (taken : s.copyStep idle d e = some s') :
    s.Copies idle d e s' := by
  unfold copyStep at taken
  dsimp only at taken
  split at taken
  · cases taken
    exact .arm ‹_›
  · obtain ⟨c, moved, rfl⟩ := Option.map_eq_some_iff.1 taken
    obtain ⟨⟨part, small, answer⟩, moved⟩ := Option.ite_none_right_eq_some.1 moved
    cases moved
    exact .read ‹_› part small answer
  · obtain ⟨c, moved, rfl⟩ := Option.map_eq_some_iff.1 taken
    obtain ⟨⟨fits, answer⟩, moved⟩ := Option.ite_none_right_eq_some.1 moved
    cases moved
    exact .write ‹_› fits answer
  · cases taken
    exact .send ‹_›
  · cases taken

inductive Moves (idle : Duration) (s : PipeSys) : PipeAction → PipeSys → Prop
  | peer {d : Direction} {e : PeerEvent} {c : Endpoint} (moved : (s.conn d).peer e = some c) :
      Moves idle s (.peer d e) (s.setConn d c)
  | copy {d : Direction} {e : CopyEvent} {s' : PipeSys} (copies : s.Copies idle d e s') :
      Moves idle s (.copy d e) s'
  | select {d : Direction} {err : Option Err} (here : s.main = .select)
      (sent : (s.copier d).pc = .sent err) :
      Moves idle s (.select d) { s with
        count := Function.update s.count d (some (s.copier d).total), main := .closing d }
  | close {first : Direction} (here : s.main = .closing first) :
      Moves idle s .close
        { s.setConn first.other (s.conn first.other).closeWrite with main := .waiting first }
  | wait {first : Direction} {err : Option Err} (here : s.main = .waiting first)
      (sent : (s.copier first.other).pc = .sent err) :
      Moves idle s .wait { s with
        count := Function.update s.count first.other (some (s.copier first.other).total)
        main := .returned }
  | tick {now : Time} (later : s.clock ≤ now) : Moves idle s (.tick now) { s with clock := now }

theorem receive_eq_some {next : PipePc} (taken : s.receive d next = some s') :
    (∃ err, (s.copier d).pc = .sent err) ∧
      s' = { s with count := Function.update s.count d (some (s.copier d).total), main := next } := by
  unfold receive at taken
  split at taken
  · cases taken
    exact ⟨⟨_, ‹_›⟩, rfl⟩
  · cases taken

theorem moves_of_step {a : PipeAction} (taken : s.step idle a = some s') : s.Moves idle a s' := by
  cases a with
  | peer d e =>
      obtain ⟨c, moved, rfl⟩ := Option.map_eq_some_iff.1 taken
      exact .peer moved
  | copy d e => exact .copy (copies_of_copyStep taken)
  | select d =>
      obtain ⟨here, taken⟩ := Option.ite_none_right_eq_some.1 taken
      obtain ⟨⟨err, sent⟩, rfl⟩ := receive_eq_some taken
      exact .select here sent
  | close =>
      unfold step at taken
      dsimp only at taken
      split at taken
      · cases taken
        exact .close ‹_›
      · cases taken
  | wait =>
      unfold step at taken
      dsimp only at taken
      split at taken
      · obtain ⟨⟨err, sent⟩, rfl⟩ := receive_eq_some taken
        exact .wait ‹_› sent
      · cases taken
  | tick now =>
      obtain ⟨later, taken⟩ := Option.ite_none_right_eq_some.1 taken
      cases taken
      exact .tick later

def Goes (s s' : PipeSys) (d : Direction) : Prop :=
  s'.copier d = s.copier d ∧
    Later s.clock (s.conn d) (s.conn d.other) s'.clock (s'.conn d) (s'.conn d.other)

theorem goes_of_conn {c : Endpoint} (x : Direction) (follows : (s.conn x).Follows c)
    (holds : (s.conn x).Holds c) (d : Direction) : s.Goes (s.setConn x c) d := by
  refine ⟨rfl, le_rfl, ?_, ?_⟩
  · rcases x.eq_or_other d with rfl | rfl
    · rw [setConn_self]
      exact follows
    · rw [setConn_other]
      exact Endpoint.follows_refl _
  · rcases x.eq_or_other d with rfl | rfl
    · rw [setConn_other]
      exact Endpoint.holds_refl _
    · rw [Direction.other_other, setConn_self]
      exact holds

theorem goes_of_copies {e : CopyEvent} (copies : s.Copies idle d.other e s') : s.Goes s' d := by
  cases copies with
  | arm | read =>
      refine ⟨Function.update_of_ne d.other_ne.symm .., le_rfl, ?_, ?_⟩
      · exact (setConn_of_other s d _).symm ▸ Endpoint.follows_refl _
      · exact (setConn_self s d.other _).symm ▸ ⟨rfl, id, id⟩
  | write =>
      rw [Direction.other_other]
      refine ⟨Function.update_of_ne d.other_ne.symm .., le_rfl, ?_, ?_⟩
      · exact (setConn_self s d _).symm ▸ ⟨⟨[], by simp⟩, id, id, id, rfl⟩
      · exact (setConn_other s d _).symm ▸ Endpoint.holds_refl _
  | send =>
      exact ⟨Function.update_of_ne d.other_ne.symm .., le_rfl, Endpoint.follows_refl _,
        Endpoint.holds_refl _⟩

theorem goes_of_moves {a : PipeAction} (moves : s.Moves idle a s') (d : Direction)
    (idles : ∀ e, a ≠ .copy d e) : s.Goes s' d := by
  cases moves with
  | @peer x e c moved =>
      obtain ⟨follows, holds⟩ := Endpoint.follows_peer moved
      exact goes_of_conn x follows holds d
  | @copy x e s' copies =>
      rcases d.eq_or_other x with rfl | rfl
      · exact absurd rfl (idles e)
      · exact goes_of_copies copies
  | @close first here =>
      obtain ⟨follows, holds⟩ := (s.conn first.other).follows_closeWrite
      exact goes_of_conn first.other follows holds d
  | select | wait => exact ⟨rfl, le_rfl, Endpoint.follows_refl _, Endpoint.holds_refl _⟩
  | tick later => exact ⟨rfl, later, Endpoint.follows_refl _, Endpoint.holds_refl _⟩

end PipeSys

section Flows

variable {idle : Duration} {clock : Time} {src dst : Endpoint}
  {writes : List (Bytes × Nat × Option Err)} {rerr : Option Err}

theorem flows_order {pc : CopyPc} (flows : pc.Flows idle clock src dst writes) :
    dst.written <+: src.sent := by
  cases pc with
  | arm => exact flows.2 ▸ List.prefix_append _ _
  | read => exact flows ▸ List.prefix_append _ _
  | write => exact flows.1 ▸ List.prefix_append _ _
  | returned err | sent err =>
      cases err with
      | none => exact flows.1
      | some e => exact flows.1

theorem flows_ended {pc : CopyPc} {err : Option Err} (flows : pc.Flows idle clock src dst writes)
    (ended : pc.ended = some err) : Ends idle clock src dst writes err := by
  cases pc with
  | arm | read | write => cases ended
  | returned | sent =>
      cases ended
      exact flows

theorem is_of_isEOF {e : Err} (ends : isEOF idle e = true) : e.is .eof = true := by
  unfold isEOF at ends
  split at ends
  · cases eq_of_beq ends
    rfl
  · exact ends

theorem isEOF_of_is {e : Err} (other : e.is .eof = false) : isEOF idle e = false :=
  Bool.eq_false_iff.2 fun ends => Bool.eq_false_iff.1 other (is_of_isEOF ends)

theorem ReadCause.ends {e : Err} (cause : ReadCause idle clock src e)
    (whole : src.sent = dst.written ++ src.unread) :
    Ends idle clock src dst writes (if isEOF idle e then none else some e) := by
  have order : dst.written <+: src.sent := whole ▸ List.prefix_append _ _
  cases cause with
  | idle timeout positive passed =>
      rw [if_neg (by rw [isEOF_of_is (not_eof_of_timeout timeout)]; decide)]
      exact ⟨order, .idle timeout positive passed⟩
  | failed failed other =>
      rw [if_neg (by rw [isEOF_of_is other]; decide)]
      exact ⟨order, .source failed⟩
  | gone gone =>
      split
      · exact ⟨order, .inr gone⟩
      · exact ⟨order, .gone gone⟩
  | eof ends fin all =>
      rw [all, List.append_nil] at whole
      split
      · exact ⟨order, .inl ⟨fin, whole.symm⟩⟩
      · rename_i wrapped
        refine ⟨order, .wrapped ?_ ends fin whole.symm⟩
        by_contra positive
        rw [isEOF, if_neg positive] at wrapped
        exact wrapped ends

theorem flows_copyTop (whole : src.sent = dst.written ++ src.unread) :
    (copyTop idle).Flows idle clock src dst writes := by
  unfold copyTop
  split
  · exact whole
  · exact ⟨Int.not_le.1 ‹_›, whole⟩

theorem flows_afterWrite (whole : src.sent = dst.written ++ src.unread)
    (cause : ∀ e, rerr = some e → ReadCause idle clock src e) :
    (afterWrite idle rerr).Flows idle clock src dst writes := by
  cases rerr with
  | none => exact flows_copyTop whole
  | some e => exact (cause e rfl).ends whole

theorem flows_onWrite {rest : Bytes} {nw : Nat} {werr : Option Err} {before : Endpoint}
    (fits : nw ≤ rest.length) (whole : src.sent = before.written ++ (rest ++ src.unread))
    (taken : dst.written = before.written ++ rest.take nw)
    (cause : ∀ e, rerr = some e → ReadCause idle clock src e)
    (broken : werr ≠ none → dst.failed = true ∨ dst.cut = true) (last : writes.getLast? = some (rest, nw, werr)) :
    (onWrite idle rest rerr nw werr).Flows idle clock src dst writes := by
  have cut : src.sent = dst.written ++ (rest.drop nw ++ src.unread) := by
    rw [whole, taken, List.append_assoc, ← List.append_assoc (rest.take nw), List.take_append_drop]
  have order : dst.written <+: src.sent := cut ▸ List.prefix_append _ _
  cases werr with
  | some e =>
      rcases broken nofun with failed | cut
      · exact ⟨order, .destination failed⟩
      · exact ⟨order, .cut cut⟩
  | none =>
      unfold onWrite
      dsimp only
      split
      · rename_i all
        refine flows_afterWrite ?_ cause
        rw [cut, all, List.drop_length, List.nil_append]
      · split
        · exact ⟨order, .short last (by omega)⟩
        · exact ⟨cut, cause⟩

theorem readCause_of_readErr {got : Bytes} {e : Err}
    (answer : src.readErr clock got (some e) = true) (timed : ∀ t, src.deadline = some t → 0 < idle)
    (deadline : dst.deadline = src.deadline) (fin : dst.fin = src.fin) (failed : dst.failed = src.failed)
    (gone : dst.gone = src.gone) (unread : dst.unread = src.unread.drop got.length) :
    ReadCause idle clock dst e := by
  rcases of_decide_eq_true answer with torn | answer
  · exact .gone (gone.trans torn)
  · split at answer
    · rename_i ends
      obtain ⟨ended, all⟩ := answer
      exact .eof ends (fin.trans ended) (by rw [unread, all, List.drop_length])
    · rename_i other
      rcases answer with ⟨timeout, passed⟩ | broken
      · obtain ⟨t, set, _⟩ := (Option.any_eq_true _ _).1 passed
        refine .idle timeout (timed t set) ?_
        rw [Endpoint.expired, deadline]
        exact passed
      · exact .failed (failed.trans broken) (Bool.eq_false_iff.2 other)

end Flows

namespace PipeSys

variable {idle : Duration} {s s' : PipeSys} {d : Direction}

structure Standing (idle : Duration) (s : PipeSys) : Prop where
  flows : ∀ d, (s.copier d).pc.Flows idle s.clock (s.conn d) (s.conn d.other) (s.copier d).writes
  total : ∀ d, (s.copier d).total = (s.conn d.other).written.length
  deadline : ∀ d t, (s.conn d).deadline = some t → 0 < idle
  unclosed : ∀ d, (s.copier d).pc.ended = none →
    (s.conn d.other).shut = false ∧ (s.conn d.other).closed = false
  half : ∀ d, (s.conn d).closed = true → (s.conn d).halfCloser = false
  main : ∀ first, s.main = .closing first ∨ s.main = .waiting first → (s.count first).isSome = true
  known : s.main = .returned → ∀ d, (s.count d).isSome = true
  count : ∀ d n, s.count d = some n → (s.copier d).pc.ended ≠ none ∧ n = (s.copier d).total

theorem standing_start (clientHalf upstreamHalf : Bool) :
    (start idle clientHalf upstreamHalf).Standing idle where
  flows d := by cases d <;> exact flows_copyTop rfl
  total d := by cases d <;> rfl
  deadline d t set := by cases d <;> cases set
  unclosed d _ := by cases d <;> exact ⟨rfl, rfl⟩
  half d closed := by cases d <;> cases closed
  main first late := by rcases late with late | late <;> cases late
  known late := by cases late
  count d n known := by cases known

theorem Standing.flows_copies {e : CopyEvent} (standing : s.Standing idle)
    (copies : s.Copies idle d e s') :
    (s'.copier d).pc.Flows idle s'.clock (s'.conn d) (s'.conn d.other) (s'.copier d).writes := by
  have flows := standing.flows d
  have unclosed := standing.unclosed d
  cases copies with
  | arm here =>
      rw [here] at flows
      simp only [setCopier, Function.update_self]
      rw [setConn_self, setConn_other]
      exact flows.2
  | @read got rerr here part small answer =>
      rw [here] at flows
      simp only [setCopier, Function.update_self]
      rw [setConn_self, setConn_other]
      have cause (e : Err) (failed : rerr = some e) : ReadCause idle s.clock
          { s.conn d with unread := (s.conn d).unread.drop got.length } e := by
        rw [failed] at answer
        exact readCause_of_readErr answer (standing.deadline d) rfl rfl rfl rfl rfl
      unfold afterRead
      split
      · rename_i nothing
        refine flows_afterWrite ?_ cause
        rw [nothing]
        exact flows
      · refine ⟨?_, cause⟩
        obtain ⟨rest, unread⟩ := part
        rw [← unread, List.drop_left, unread]
        exact flows
  | @write rest rerr werr nw here fits answer =>
      rw [here] at flows unclosed
      simp only [setCopier, Function.update_self]
      rw [setConn_self, setConn_of_other]
      refine flows_onWrite fits flows.1 rfl flows.2 (fun failed => ?_) (by simp)
      obtain ⟨e, rfl⟩ := Option.ne_none_iff_exists'.1 failed
      simpa [Endpoint.writeErr, Endpoint.gone, unclosed rfl, or_comm] using answer
  | send here =>
      rw [here] at flows
      simp only [setCopier, Function.update_self]
      exact flows

theorem Copies.conn {e : CopyEvent} (copies : s.Copies idle d e s') (x : Direction) :
    (s'.conn x).shut = (s.conn x).shut ∧ (s'.conn x).closed = (s.conn x).closed ∧
      (s'.conn x).halfCloser = (s.conn x).halfCloser := by
  cases copies with
  | arm | read =>
      rcases d.eq_or_other x with rfl | rfl
      · simp [setCopier]
      · simp [setCopier]
  | write =>
      rcases d.eq_or_other x with rfl | rfl
      · simp [setCopier]
      · simp [setCopier]
  | send => exact ⟨rfl, rfl, rfl⟩

theorem Copies.deadline {e : CopyEvent} (copies : s.Copies idle d e s') (x : Direction) :
    (s'.conn x).deadline = (s.conn x).deadline ∨ (s.copier d).pc = .arm := by
  cases copies with
  | arm here => exact .inr here
  | read =>
      rcases d.eq_or_other x with rfl | rfl
      · simp [setCopier]
      · simp [setCopier]
  | write =>
      rcases d.eq_or_other x with rfl | rfl
      · simp [setCopier]
      · simp [setCopier]
  | send => exact .inl rfl

theorem Copies.ended {e : CopyEvent} (copies : s.Copies idle d e s')
    (finished : (s.copier d).pc.ended ≠ none) :
    (s'.copier d).pc.ended ≠ none ∧ (s'.copier d).total = (s.copier d).total := by
  cases copies with
  | arm here | read here | write here =>
      rw [here] at finished
      exact absurd rfl finished
  | send =>
      simp [setCopier, CopyPc.ended]

theorem Copies.frame {e : CopyEvent} (copies : s.Copies idle d e s') :
    s'.main = s.main ∧ s'.count = s.count := by
  cases copies <;> exact ⟨rfl, rfl⟩

theorem Standing.total_copies {e : CopyEvent} (standing : s.Standing idle)
    (copies : s.Copies idle d e s') :
    (s'.copier d).total = (s'.conn d.other).written.length := by
  have total := standing.total d
  cases copies with
  | arm | read =>
      simp only [setCopier, Function.update_self, setConn_other]
      exact total
  | write here fits =>
      simp only [setCopier, Function.update_self, setConn_self, List.length_append]
      rw [total, List.length_take_of_le fits]
  | send =>
      simp only [setCopier, Function.update_self]
      exact total

theorem Standing.copies {e : CopyEvent} (standing : s.Standing idle) (copies : s.Copies idle d e s') :
    s'.Standing idle := by
  have goes : s.Goes s' d.other := goes_of_copies (d := d.other) ((d.other_other).symm ▸ copies)
  have each {P : Direction → Prop} (self : P d) (other : P d.other) (x : Direction) : P x := by
    rcases d.eq_or_other x with rfl | rfl
    · exact self
    · exact other
  have ended (x : Direction) (finished : (s.copier x).pc.ended ≠ none) :
      (s'.copier x).pc.ended ≠ none ∧ (s'.copier x).total = (s.copier x).total := by
    rcases d.eq_or_other x with rfl | rfl
    · exact copies.ended finished
    · rw [goes.1]
      exact ⟨finished, rfl⟩
  constructor
  case flows =>
    refine each (standing.flows_copies copies) ?_
    rw [goes.1]
    exact goes.2.flows (standing.flows _)
  case total =>
    refine each (standing.total_copies copies) ?_
    rw [goes.1, goes.2.dest.written]
    exact standing.total _
  case deadline =>
    intro x t set
    rcases copies.deadline x with same | arming
    · exact standing.deadline x t (same ▸ set)
    · have flows := standing.flows d
      rw [arming] at flows
      exact flows.1
  case unclosed =>
    intro x going
    obtain ⟨shut, closed, _⟩ := copies.conn x.other
    rw [shut, closed]
    by_contra touched
    exact (ended x fun before => touched (standing.unclosed x before)).1 going
  case half =>
    intro x
    obtain ⟨_, closed, half⟩ := copies.conn x
    rw [closed, half]
    exact standing.half x
  case main =>
    intro first late
    rw [copies.frame.1] at late
    rw [copies.frame.2]
    exact standing.main first late
  case known =>
    rw [copies.frame.1, copies.frame.2]
    exact standing.known
  case count =>
    intro x n known
    rw [copies.frame.2] at known
    obtain ⟨finished, counted⟩ := standing.count x n known
    exact ⟨(ended x finished).1, counted.trans (ended x finished).2.symm⟩

theorem Standing.goes (standing : s.Standing idle) (goes : ∀ d, s.Goes s' d)
    (deadline : ∀ d, (s'.conn d).deadline = (s.conn d).deadline)
    (unclosed : ∀ d, (s.copier d).pc.ended = none →
      (s'.conn d.other).shut = (s.conn d.other).shut ∧ (s'.conn d.other).closed = (s.conn d.other).closed)
    (half : ∀ d, (s'.conn d).closed = true → (s'.conn d).halfCloser = false)
    (main : ∀ first, s'.main = .closing first ∨ s'.main = .waiting first →
      (s.count first).isSome = true)
    (known : s'.main = .returned → ∀ d, (s.count d).isSome = true) (count : s'.count = s.count) :
    s'.Standing idle where
  flows d := by
    rw [(goes d).1]
    exact (goes d).2.flows (standing.flows d)
  total d := by
    rw [(goes d).1, (goes d).2.dest.written]
    exact standing.total d
  deadline d t set := standing.deadline d t (deadline d ▸ set)
  unclosed d going := by
    rw [(goes d).1] at going
    rw [(unclosed d going).1, (unclosed d going).2]
    exact standing.unclosed d going
  half := half
  main first late := by
    rw [count]
    exact main first late
  known late := by
    rw [count]
    exact known late
  count d n known := by
    rw [(goes d).1]
    exact standing.count d n (count ▸ known)

theorem Standing.receives {err : Option Err} (standing : s.Standing idle)
    (sent : (s.copier d).pc = .sent err) (next : PipePc)
    (late : ∀ first, next = .closing first ∨ next = .waiting first → first = d)
    (last : next = .returned → (s.count d.other).isSome = true) :
    Standing idle
      { s with count := Function.update s.count d (some (s.copier d).total), main := next } := by
  refine { standing with
    main := fun first here => by simp [late first here]
    known := fun finished x => ?_
    count := fun x n known => ?_ }
  · rcases d.eq_or_other x with rfl | rfl
    · simp
    · simpa only [Function.update_of_ne d.other_ne] using last finished
  · by_cases same : x = d
    · subst same
      simp only [Function.update_self, Option.some.injEq] at known
      exact ⟨by simp [sent, CopyPc.ended], known.symm⟩
    · simp only [Function.update_of_ne same] at known
      exact standing.count x n known

theorem Standing.moves {a : PipeAction} (standing : s.Standing idle) (moves : s.Moves idle a s') :
    s'.Standing idle := by
  have goes := goes_of_moves moves
  cases moves with
  | @peer x e c moved =>
      obtain ⟨shut, closed, half, deadline⟩ := Endpoint.peer_closed moved
      have conn (d : Direction) : ((s.setConn x c).conn d).shut = (s.conn d).shut ∧
          ((s.setConn x c).conn d).closed = (s.conn d).closed ∧
          ((s.setConn x c).conn d).halfCloser = (s.conn d).halfCloser ∧
          ((s.setConn x c).conn d).deadline = (s.conn d).deadline := by
        rcases x.eq_or_other d with rfl | rfl
        · simp [shut, closed, half, deadline]
        · simp
      refine standing.goes (fun d => goes d nofun) (fun d => (conn d).2.2.2)
        (fun d _ => ⟨(conn d.other).1, (conn d.other).2.1⟩) (fun d => ?_) standing.main standing.known rfl
      rw [(conn d).2.1, (conn d).2.2.1]
      exact standing.half d
  | copy copies => exact standing.copies copies
  | select here sent =>
      refine standing.receives sent _ (fun first late => ?_) nofun
      rcases late with late | late <;> cases late
      rfl
  | @close first here =>
      have known := standing.main first (.inl here)
      refine standing.goes (fun d => goes d nofun) (fun d => ?_) (fun d going => ?_) (fun d => ?_)
        (fun first' late => ?_) nofun rfl
      · rcases first.eq_or_other d with rfl | rfl
        · simp
        · simp [Endpoint.closeWrite_deadline]
      · rcases first.eq_or_other d with rfl | rfl
        · obtain ⟨n, count⟩ := Option.isSome_iff_exists.1 known
          exact absurd going (standing.count _ n count).1
        · simp
      · rcases first.eq_or_other d with rfl | rfl
        · simpa using standing.half d
        · simpa using (s.conn first.other).closeWrite_closed (standing.half _)
      · rcases late with late | late <;> cases late
        exact known
  | @wait first err here sent =>
      refine standing.receives sent _ (fun first late => ?_) fun _ => ?_
      · rcases late with late | late <;> cases late
      · rw [Direction.other_other]
        exact standing.main first (.inr here)
  | tick later =>
      exact standing.goes (fun d => goes d nofun) (fun _ => rfl) (fun _ _ => ⟨rfl, rfl⟩) standing.half
        standing.main standing.known rfl

theorem standing_of_exec {clientHalf upstreamHalf : Bool} {trace : List (PipeSys × PipeAction)}
    (exec : Exec (step idle) (start idle clientHalf upstreamHalf) trace s) : s.Standing idle :=
  exec.stable (standing_start clientHalf upstreamHalf) fun _ _ _ standing taken =>
    standing.moves (moves_of_step taken)

/-- What a direction of a tunnel has done: the bytes written at one end are the first of those that came
in at the other, in order; nothing was closed behind it before it had ended; it ended without an error
only after all was written or when the connection it reads was closed, and with one only for a cause. -/
structure Tunnels (idle : Duration) (s : PipeSys) (d : Direction) : Prop where
  order : (s.conn d.other).written <+: (s.conn d).sent
  behind : (s.conn d.other).shut = true ∨ (s.conn d.other).closed = true →
    (s.copier d).pc.ended ≠ none
  fallback : (s.conn d).closed = true →
    (s.conn d).halfCloser = false ∧ (s.copier d.other).pc.ended ≠ none
  clean : (s.copier d).pc.ended = some none →
    (s.conn d).fin = true ∧ (s.conn d.other).written = (s.conn d).sent ∨
      (s.conn d).closed = true ∨ (s.conn d).cut = true
  failed : ∀ e, (s.copier d).pc.ended = some (some e) →
    Cause idle s.clock (s.conn d) (s.conn d.other) (s.copier d).writes e
  counted : s.main = .returned → s.count d = some (s.conn d.other).written.length

/-- In every interleaving, whatever the peers do and whatever counts and errors the connections
answer with. -/
theorem pipe_ends_for_cause {clientHalf upstreamHalf : Bool} {trace : List (PipeSys × PipeAction)}
    (exec : Exec (step idle) (start idle clientHalf upstreamHalf) trace s) (d : Direction) :
    s.Tunnels idle d := by
  have standing := standing_of_exec exec
  have flows := standing.flows d
  constructor
  case order => exact flows_order flows
  case behind =>
    intro touched going
    obtain ⟨shut, closed⟩ := standing.unclosed d going
    simp [shut, closed] at touched
  case fallback =>
    intro closed
    refine ⟨standing.half d closed, fun going => ?_⟩
    have unclosed := (standing.unclosed d.other going).2
    rw [Direction.other_other, closed] at unclosed
    cases unclosed
  case clean =>
    intro ended
    simpa [Endpoint.gone] using (flows_ended flows ended).2
  case failed => exact fun e ended => (flows_ended flows ended).2
  case counted =>
    intro finished
    obtain ⟨n, count⟩ := Option.isSome_iff_exists.1 (standing.known finished d)
    rw [count, (standing.count d n count).2, standing.total d]

/-- The client ends its side, the upstream answers after that, and all of it arrives. -/
theorem pipe_ends_for_cause_half_closed :
    ∃ trace s, Exec (step 5) (start 5 true true) trace s ∧ s.main = .returned ∧
      (s.conn .down).shut = true ∧ (s.conn .up).written = [4, 5] ∧ s.count .up = some 3 ∧
      s.count .down = some 2 ∧ s.Tunnels 5 .down := by
  obtain ⟨trace, s, exec, _, reached⟩ := exec_of_play (step 5) (start 5 true true)
    [.peer .up (.sends [1, 2, 3]), .copy .up .arm, .copy .up (.read [1, 2] none),
      .copy .up (.write 1 none), .copy .up (.write 1 none), .peer .up .fin, .copy .up .arm,
      .copy .up (.read [3] (some .eof)), .copy .up (.write 1 none), .copy .up .send, .select .up,
      .close, .peer .down (.sends [4, 5]), .copy .down .arm, .copy .down (.read [4, 5] none),
      .copy .down (.write 2 none), .copy .down .arm, .peer .down .fin,
      .copy .down (.read [] (some .eof)), .copy .down .send, .wait]
    (fun _ s => decide (s.main = .returned ∧ (s.conn .down).shut = true ∧
      (s.conn .up).written = [4, 5] ∧ s.count .up = some 3 ∧ s.count .down = some 2))
    (by decide +kernel)
  obtain ⟨finished, shut, arrived, up, down⟩ := of_decide_eq_true reached
  exact ⟨trace, s, exec, finished, shut, arrived, up, down, pipe_ends_for_cause exec .down⟩

end PipeSys

section Resume

variable (idle : Duration)

def putAll (w : WriteScript) (b : Bytes) : Nat × Option Err × WriteScript :=
  if idle ≤ 0 then writeOnce w b else writeLoop b.length w b 0

def resumeAfter (rounds total : Nat) (src : ReadScript) (dst : WriteScript) :
    Option Err → Copied ReadScript WriteScript
  | none => copyLoop (isEOF idle) (putAll idle) rounds src dst total
  | some e => ⟨total, some (if isEOF idle e then none else some e), src, dst⟩

def resume (rounds total : Nat) (src : ReadScript) (dst : WriteScript) :
    CopyPc → Copied ReadScript WriteScript
  | .arm | .read => copyLoop (isEOF idle) (putAll idle) rounds src dst total
  | .write rest rerr =>
      match putAll idle dst rest with
      | (n, some werr, dst) => ⟨total + n, some (some werr), src, dst⟩
      | (n, none, dst) => resumeAfter idle rounds (total + n) src dst rerr
  | .returned err | .sent err => ⟨total, some err, src, dst⟩

variable {idle} {rounds total : Nat} {src : ReadScript} {dst : WriteScript}

theorem resume_copyTop : resume idle rounds total src dst (copyTop idle) =
    copyLoop (isEOF idle) (putAll idle) rounds src dst total := by
  unfold copyTop
  split <;> rfl

theorem resume_start (rounds : Nat) (src : ReadScript) (dst : WriteScript) :
    resume idle rounds 0 src dst (copyTop idle) = copyDir rounds dst src idle := by
  rw [resume_copyTop, copyDir]
  by_cases plain : idle ≤ 0
  · rw [if_pos plain, show isEOF idle = (· == .eof) from funext fun e => if_pos plain,
      show putAll idle = writeOnce from funext fun w => funext fun b => if_pos plain]
  · rw [if_neg plain, show isEOF idle = (·.is .eof) from funext fun e => if_neg plain,
      show putAll idle = fun w b => writeLoop b.length w b 0 from
        funext fun w => funext fun b => if_neg plain]

theorem resume_afterWrite (rerr : Option Err) :
    resume idle rounds total src dst (afterWrite idle rerr) =
      resumeAfter idle rounds total src dst rerr := by
  cases rerr with
  | none => exact resume_copyTop
  | some e => rfl

theorem resume_read {got : Bytes} (small : got.length ≤ bufSize) (rerr : Option Err)
    (answers : List (Bytes × Option Err)) :
    resume idle (rounds + 1) total ⟨(got, rerr) :: answers⟩ dst .read =
      resume idle rounds total ⟨answers⟩ dst (afterRead idle got rerr) := by
  have answer : Reader.read (⟨(got, rerr) :: answers⟩ : ReadScript) bufSize = (got, rerr, ⟨answers⟩) := by
    simp only [Reader.read, List.take_of_length_le small]
  rw [resume, copyLoop, answer]
  unfold afterRead
  by_cases nothing : got = []
  · simp only [if_pos nothing, resume_afterWrite, Nat.add_zero]
    cases rerr <;> rfl
  · simp only [if_neg nothing, resume]
    rcases putAll idle dst got with ⟨n, _ | werr, dst'⟩
    · cases rerr <;> rfl
    · rfl

theorem writeLoop_shift (fuel : Nat) (w : WriteScript) (b : Bytes) (total : Nat) :
    writeLoop fuel w b total =
      (total + (writeLoop fuel w b 0).1, (writeLoop fuel w b 0).2.1, (writeLoop fuel w b 0).2.2) := by
  induction fuel generalizing w b total with
  | zero => rfl
  | succ fuel ih =>
      unfold writeLoop
      split
      · rfl
      · rcases Writer.write w b with ⟨nw, _ | e, w'⟩
        · dsimp only
          split
          · rfl
          · rw [ih _ _ (total + nw), ih _ _ (0 + nw)]
            simp only [Prod.mk.injEq, and_true]
            omega
        · simp

theorem resume_write_plain (plain : idle ≤ 0) {rest : Bytes} {nw : Nat} (fits : nw ≤ rest.length)
    (rerr werr : Option Err) (answers : List (Nat × Option Err)) :
    resume idle rounds total src ⟨(nw, werr) :: answers⟩ (.write rest rerr) =
      resume idle rounds (total + nw) src ⟨answers⟩ (onWrite idle rest rerr nw werr) := by
  have answer : Writer.write (⟨(nw, werr) :: answers⟩ : WriteScript) rest = (nw, werr, ⟨answers⟩) := by
    simp only [Writer.write, min_eq_left fits]
  rw [resume, putAll, if_pos plain, writeOnce, answer]
  simp only [if_neg (Nat.not_lt.2 fits)]
  cases werr with
  | some e => rfl
  | none =>
      unfold onWrite
      by_cases whole : nw = rest.length
      · simp only [if_pos whole, resume_afterWrite]
      · simp only [if_neg whole, if_pos (Or.inl plain), resume]

theorem resume_write_idle (positive : ¬idle ≤ 0) {rest : Bytes} {nw : Nat} (some : rest ≠ [])
    (fits : nw ≤ rest.length) (rerr werr : Option Err) (answers : List (Nat × Option Err)) :
    resume idle rounds total src ⟨(nw, werr) :: answers⟩ (.write rest rerr) =
      resume idle rounds (total + nw) src ⟨answers⟩ (onWrite idle rest rerr nw werr) := by
  have answer : Writer.write (⟨(nw, werr) :: answers⟩ : WriteScript) rest = (nw, werr, ⟨answers⟩) := by
    simp only [Writer.write, min_eq_left fits]
  obtain ⟨fuel, length⟩ := Nat.exists_eq_add_one_of_ne_zero (List.length_pos_iff.2 some).ne'
  rw [resume, putAll, if_neg positive, length, writeLoop, if_neg some, answer]
  cases werr with
  | some e => simp only [Nat.zero_add, onWrite, resume]
  | none =>
      unfold onWrite
      by_cases nothing : nw = 0
      · subst nothing
        have less : 0 ≠ rest.length := by omega
        simp only [if_neg less, or_true, if_true, resume]
      · by_cases whole : nw = rest.length
        · have ends : writeLoop fuel (⟨answers⟩ : WriteScript) [] nw = (nw, none, ⟨answers⟩) := by
            cases fuel <;> rfl
          simp only [if_neg nothing, if_pos whole, Nat.zero_add, resume_afterWrite]
          rw [whole, List.drop_length, ← whole, ends]
        · simp only [if_neg nothing, if_neg whole, if_neg (not_or_intro positive nothing), Nat.zero_add,
            resume, putAll, if_neg positive]
          have enough : (rest.drop nw).length ≤ fuel := by
            rw [List.length_drop]
            omega
          rw [writeLoop_shift, writeLoop_ends (⟨answers⟩ : WriteScript) _ 0 enough (le_refl _)]
          rcases writeLoop (rest.drop nw).length (⟨answers⟩ : WriteScript) (rest.drop nw) 0 with
            ⟨n, _ | e, w⟩ <;> simp only [Nat.add_assoc]

theorem resume_write {rest : Bytes} {nw : Nat} (some : rest ≠ []) (fits : nw ≤ rest.length)
    (rerr werr : Option Err) (answers : List (Nat × Option Err)) :
    resume idle rounds total src ⟨(nw, werr) :: answers⟩ (.write rest rerr) =
      resume idle rounds (total + nw) src ⟨answers⟩ (onWrite idle rest rerr nw werr) := by
  by_cases plain : idle ≤ 0
  · exact resume_write_plain plain fits rerr werr answers
  · exact resume_write_idle plain some fits rerr werr answers

end Resume

def CopyPc.Holding : CopyPc → Prop
  | .write rest _ => rest ≠ []
  | _ => True

theorem holding_afterWrite (idle : Duration) (rerr : Option Err) : (afterWrite idle rerr).Holding := by
  unfold afterWrite copyTop
  cases rerr with
  | none =>
      dsimp only
      split <;> trivial
  | some e => trivial

theorem holding_afterRead (idle : Duration) (got : Bytes) (rerr : Option Err) :
    (afterRead idle got rerr).Holding := by
  unfold afterRead
  split
  · exact holding_afterWrite idle rerr
  · assumption

theorem holding_onWrite (idle : Duration) {rest : Bytes} {nw : Nat} (fits : nw ≤ rest.length)
    (rerr werr : Option Err) : (onWrite idle rest rerr nw werr).Holding := by
  cases werr with
  | some e => trivial
  | none =>
      unfold onWrite
      dsimp only
      split
      · exact holding_afterWrite idle rerr
      · split
        · trivial
        · rename_i short _
          intro empty
          have all := List.drop_eq_nil_iff.1 empty
          omega

namespace PipeSys

variable {idle : Duration} {s s' : PipeSys} {d : Direction}

structure Resumes (idle : Duration) (c : Copier) : Prop where
  holding : c.pc.Holding
  same : ∀ rounds reads writes,
    copyDir (c.reads.length + rounds) ⟨c.writes.map Prod.snd ++ writes⟩ ⟨c.reads ++ reads⟩ idle =
      resume idle rounds c.total ⟨reads⟩ ⟨writes⟩ c.pc

theorem resumes_start : Resumes idle ⟨copyTop idle, 0, [], []⟩ where
  holding := by
    unfold copyTop
    dsimp only
    split <;> trivial
  same rounds reads writes := by
    rw [resume_start]
    simp

theorem Resumes.copies {e : CopyEvent} (resumes : Resumes idle (s.copier d))
    (copies : s.Copies idle d e s') : Resumes idle (s'.copier d) := by
  obtain ⟨holding, same⟩ := resumes
  cases copies with
  | arm here =>
      rw [here] at same
      simp only [setCopier, Function.update_self]
      exact ⟨trivial, same⟩
  | @read got rerr here part small answer =>
      rw [here] at same
      simp only [setCopier, Function.update_self]
      refine ⟨holding_afterRead idle got rerr, fun rounds reads writes => ?_⟩
      rw [← resume_read small, ← same (rounds + 1) ((got, rerr) :: reads) writes]
      simp [Nat.add_assoc, Nat.add_comm]
  | @write rest rerr werr nw here fits answer =>
      rw [here] at same holding
      simp only [setCopier, Function.update_self]
      refine ⟨holding_onWrite idle fits rerr werr, fun rounds reads writes => ?_⟩
      rw [← resume_write holding fits, ← same rounds reads ((nw, werr) :: writes)]
      simp
  | send here =>
      rw [here] at same
      simp only [setCopier, Function.update_self]
      exact ⟨trivial, same⟩

theorem resumes_of_exec {clientHalf upstreamHalf : Bool} {trace : List (PipeSys × PipeAction)}
    (exec : Exec (step idle) (start idle clientHalf upstreamHalf) trace s) (d : Direction) :
    Resumes idle (s.copier d) := by
  refine exec.stable (P := fun s => Resumes idle (s.copier d)) resumes_start ?_
  intro s a s' resumes taken
  have moves := moves_of_step taken
  by_cases idles : ∀ e, a ≠ .copy d e
  · rw [(goes_of_moves moves d idles).1]
    exact resumes
  · obtain ⟨e, copies⟩ := not_forall_not.1 idles
    subst copies
    cases moves with
    | copy copies => exact resumes.copies copies

/-- A goroutine that has ended has done what `copyDir` does with the answers it got. -/
theorem goroutine_runs_copyDir {clientHalf upstreamHalf : Bool}
    {trace : List (PipeSys × PipeAction)}
    (exec : Exec (step idle) (start idle clientHalf upstreamHalf) trace s) {err : Option Err}
    (ended : (s.copier d).pc.ended = some err) :
    copyDir (s.copier d).reads.length (WriteScript.mk ((s.copier d).writes.map Prod.snd))
        (ReadScript.mk (s.copier d).reads) idle =
      ⟨(s.copier d).total, some err, ⟨[]⟩, ⟨[]⟩⟩ := by
  have same := (resumes_of_exec exec d).same 0 [] []
  simp only [Nat.add_zero, List.append_nil] at same
  rw [same]
  cases here : (s.copier d).pc with
  | arm | read | write =>
      rw [here] at ended
      cases ended
  | returned | sent =>
      rw [here] at ended
      cases ended
      rfl

end PipeSys

def CopyPc.cost : CopyPc → Nat
  | .arm => 3
  | .read => 2
  | .write rest _ => rest.length + 3
  | .returned _ => 1
  | .sent _ => 0

def PipePc.cost : PipePc → Nat
  | .select => 3
  | .closing _ => 2
  | .waiting _ => 1
  | .returned => 0

def PipeAction.own : PipeAction → Bool
  | .peer _ _ | .tick _ => false
  | _ => true

theorem cost_afterWrite (idle : Duration) (rerr : Option Err) : (afterWrite idle rerr).cost ≤ 3 := by
  unfold afterWrite copyTop
  cases rerr with
  | none =>
      dsimp only
      split <;> decide
  | some e => exact Nat.le_of_ble_eq_true rfl

theorem cost_onWrite (idle : Duration) {rest : Bytes} {nw : Nat} (some : rest ≠ [])
    (rerr werr : Option Err) : (onWrite idle rest rerr nw werr).cost < rest.length + 3 := by
  have positive := List.length_pos_iff.2 some
  cases werr with
  | some e =>
      simp only [onWrite, CopyPc.cost]
      omega
  | none =>
      unfold onWrite
      dsimp only
      split
      · have least := cost_afterWrite idle rerr
        omega
      · split
        · simp only [CopyPc.cost]
          omega
        · rename_i going
          have taken := (not_or.1 going).2
          simp only [CopyPc.cost, List.length_drop]
          omega

theorem cost_afterRead (idle : Duration) {c : Endpoint} {clock : Time} {got : Bytes} {rerr : Option Err}
    (part : got <+: c.unread) (answer : c.readErr clock got rerr = true) :
    3 * (c.unread.drop got.length).length + (afterRead idle got rerr).cost < 3 * c.unread.length + 2 := by
  have fits := part.length_le
  rw [List.length_drop]
  unfold afterRead
  split
  · rename_i nothing
    cases rerr with
    | none => simp [Endpoint.readErr, nothing] at answer
    | some e =>
        simp only [afterWrite, CopyPc.cost]
        omega
  · rename_i some
    have positive := List.length_pos_iff.2 some
    simp only [CopyPc.cost]
    omega

namespace PipeSys

variable {idle : Duration} {s s' : PipeSys} {d : Direction}

def costOf (s : PipeSys) (d : Direction) : Nat :=
  3 * (s.conn d).unread.length + (s.copier d).pc.cost

def cost (s : PipeSys) : Nat := s.costOf .up + s.costOf .down + s.main.cost

def bytes (s : PipeSys) : Nat := (s.conn .up).sent.length + (s.conn .down).sent.length

theorem cost_eq (s : PipeSys) (d : Direction) :
    s.cost = s.costOf d + s.costOf d.other + s.main.cost := by
  cases d
  · rfl
  · rw [cost, Nat.add_comm (s.costOf .up)]
    rfl

theorem bytes_eq (s : PipeSys) (d : Direction) :
    s.bytes = (s.conn d).sent.length + (s.conn d.other).sent.length := by
  cases d
  · rfl
  · exact Nat.add_comm _ _

theorem Copies.sent {e : CopyEvent} (copies : s.Copies idle d e s') : s'.bytes = s.bytes := by
  rw [s.bytes_eq d, s'.bytes_eq d]
  cases copies <;> simp [setCopier]

theorem Copies.cost_lt {e : CopyEvent} (copies : s.Copies idle d e s')
    (holding : (s.copier d).pc.Holding) : s'.cost < s.cost := by
  have other : s'.costOf d.other = s.costOf d.other := by
    cases copies <;> simp [costOf, setCopier, Function.update_of_ne d.other_ne]
  have self : s'.costOf d < s.costOf d := by
    cases copies with
    | arm here => simp [costOf, setCopier, here, CopyPc.cost]
    | read here part small answer =>
        simp only [costOf, setCopier, Function.update_self, setConn_self, here]
        exact cost_afterRead idle part answer
    | @write rest rerr werr nw here fits answer =>
        rw [here] at holding
        simp only [costOf, setCopier, Function.update_self, setConn_of_other, here]
        exact Nat.add_lt_add_left (cost_onWrite idle holding rerr werr) _
    | send here => simp [costOf, setCopier, here, CopyPc.cost]
  rw [s.cost_eq d, s'.cost_eq d, copies.frame.1]
  omega

theorem cost_peer {e : PeerEvent} {c : Endpoint} (moved : (s.conn d).peer e = some c) :
    (s.setConn d c).cost + 3 * s.bytes = s.cost + 3 * (s.setConn d c).bytes := by
  rw [cost_eq (s.setConn d c) d, cost_eq s d, bytes_eq (s.setConn d c) d, bytes_eq s d]
  simp only [costOf, setConn_self, setConn_other]
  cases e with
  | sends b =>
      obtain ⟨_, moved⟩ := Option.ite_none_left_eq_some.1 moved
      cases moved
      simp only [setConn, List.length_append]
      omega
  | fin =>
      obtain ⟨_, moved⟩ := Option.ite_none_left_eq_some.1 moved
      cases moved
      rfl
  | fails | stalls | resumes | cut =>
      cases moved
      rfl

theorem cost_of_moves {a : PipeAction} (holding : ∀ d, (s.copier d).pc.Holding)
    (moves : s.Moves idle a s') :
    s'.cost + 3 * s.bytes + (if a.own then 1 else 0) ≤ s.cost + 3 * s'.bytes := by
  cases moves with
  | peer moved => exact (cost_peer moved).le
  | @copy d e s' copies =>
      have lower := copies.cost_lt (holding d)
      rw [copies.sent, show (PipeAction.copy d e).own = true from rfl, if_pos rfl]
      omega
  | select here | wait here =>
      simp only [cost, costOf, bytes, here, PipePc.cost, PipeAction.own, if_true]
      omega
  | @close first here =>
      have unread (c : Endpoint) : c.closeWrite.unread = c.unread ∧ c.closeWrite.sent = c.sent := by
        unfold Endpoint.closeWrite
        split <;> exact ⟨rfl, rfl⟩
      rw [s.cost_eq first, s.bytes_eq first, cost_eq _ first, bytes_eq _ first]
      simp only [costOf, setConn_of_other, setConn_self, setConn_copier, unread, here, PipePc.cost,
        PipeAction.own, if_true]
      omega
  | tick => exact le_rfl

theorem cost_of_exec {clientHalf upstreamHalf : Bool} {trace : List (PipeSys × PipeAction)}
    (exec : Exec (step idle) (start idle clientHalf upstreamHalf) trace s) :
    (trace.filter (·.2.own)).length + s.cost ≤ 9 + 3 * s.bytes := by
  induction exec with
  | nil =>
      have top : (copyTop idle).cost ≤ 3 := by
        unfold copyTop
        split <;> decide
      simp only [List.filter_nil, List.length_nil, cost, costOf, start, Endpoint.fresh, bytes, PipePc.cost]
      omega
  | @snoc trace s a s' before taken ih =>
      have lower := cost_of_moves (fun d => (resumes_of_exec before d).holding) (moves_of_step taken)
      rw [List.filter_append, List.length_append]
      cases own : a.own <;> simp [own] at lower ⊢ <;> omega

structure Timed (idle : Duration) (s : PipeSys) : Prop where
  near : ∀ d t, (s.conn d).deadline = some t → t ≤ s.clock + idle
  armed : ∀ d, (s.copier d).pc = .read → 0 < idle → (s.conn d).deadline.isSome = true

theorem afterWrite_read {rerr : Option Err} (top : afterWrite idle rerr = .read) : idle ≤ 0 := by
  unfold afterWrite copyTop at top
  cases rerr with
  | none =>
      dsimp only at top
      split at top
      · assumption
      · cases top
  | some e => cases top

theorem afterRead_read {got : Bytes} {rerr : Option Err} (top : afterRead idle got rerr = .read) :
    idle ≤ 0 := by
  unfold afterRead at top
  split at top
  · exact afterWrite_read top
  · cases top

theorem onWrite_read {rest : Bytes} {rerr werr : Option Err} {nw : Nat}
    (top : onWrite idle rest rerr nw werr = .read) : idle ≤ 0 := by
  unfold onWrite at top
  split at top
  · cases top
  · split at top
    · exact afterWrite_read top
    · split at top <;> cases top

theorem Timed.copies {e : CopyEvent} (timed : s.Timed idle) (copies : s.Copies idle d e s') :
    s'.Timed idle := by
  have other (x : Direction) (elsewhere : x ≠ d) : s'.copier x = s.copier x := by
    cases copies <;> simp [setCopier, Function.update_of_ne elsewhere]
  have clock : s'.clock = s.clock := by cases copies <;> rfl
  have deadline (x : Direction) : (s'.conn x).deadline = (s.conn x).deadline ∨
      (s'.conn x).deadline = some (s.clock + idle) := by
    cases copies with
    | arm =>
        rcases d.eq_or_other x with rfl | rfl
        · simp [setCopier]
        · simp [setCopier]
    | read =>
        rcases d.eq_or_other x with rfl | rfl
        · simp [setCopier]
        · simp [setCopier]
    | write =>
        rcases d.eq_or_other x with rfl | rfl
        · simp [setCopier]
        · simp [setCopier]
    | send => exact .inl rfl
  refine ⟨fun x t set => ?_, fun x reading positive => ?_⟩
  · rw [clock]
    rcases deadline x with same | new
    · exact timed.near x t (same ▸ set)
    · rw [new] at set
      cases set
      exact le_rfl
  · have before : (s.copier x).pc = .read ∨ (s'.conn x).deadline = some (s.clock + idle) := by
      by_cases same : x = d
      · subst same
        cases copies with
        | arm => exact .inr (by simp [setCopier])
        | read =>
            simp only [setCopier, Function.update_self] at reading
            exact absurd (afterRead_read reading) (Int.not_le.2 positive)
        | write =>
            simp only [setCopier, Function.update_self] at reading
            exact absurd (onWrite_read reading) (Int.not_le.2 positive)
        | send => simp [setCopier] at reading
      · exact .inl (other x same ▸ reading)
    rcases before with before | new
    · rcases deadline x with same | new
      · rw [same]
        exact timed.armed x before positive
      · rw [new]
        rfl
    · rw [new]
      rfl

theorem Timed.moves {a : PipeAction} (timed : s.Timed idle) (moves : s.Moves idle a s') :
    s'.Timed idle := by
  cases moves with
  | @peer d e c moved =>
      have deadline (x : Direction) : ((s.setConn d c).conn x).deadline = (s.conn x).deadline := by
        rcases d.eq_or_other x with rfl | rfl
        · simp [(Endpoint.peer_closed moved).2.2.2]
        · simp
      exact ⟨fun x t set => timed.near x t (deadline x ▸ set), fun x reading positive =>
        (deadline x).symm ▸ timed.armed x reading positive⟩
  | copy copies => exact timed.copies copies
  | @close first here =>
      have deadline (x : Direction) :
          ((s.setConn first.other (s.conn first.other).closeWrite).conn x).deadline =
            (s.conn x).deadline := by
        rcases first.eq_or_other x with rfl | rfl
        · simp
        · simp [Endpoint.closeWrite_deadline]
      exact ⟨fun x t set => timed.near x t (deadline x ▸ set), fun x reading positive =>
        (deadline x).symm ▸ timed.armed x reading positive⟩
  | select | wait => exact ⟨timed.near, timed.armed⟩
  | tick later =>
      exact ⟨fun x t set => (timed.near x t set).trans (Int.add_le_add_right later idle), timed.armed⟩

theorem timed_of_exec {clientHalf upstreamHalf : Bool} {trace : List (PipeSys × PipeAction)}
    (exec : Exec (step idle) (start idle clientHalf upstreamHalf) trace s) : s.Timed idle := by
  refine exec.stable ⟨fun d t set => ?_, fun d reading positive => ?_⟩
    fun _ _ _ timed taken => timed.moves (moves_of_step taken)
  · cases d <;> cases set
  · exact absurd (show idle ≤ 0 by
      simp only [start, copyTop] at reading
      by_contra above
      rw [if_neg above] at reading
      cases reading) (Int.not_le.2 positive)

def Waits (idle : Duration) (s : PipeSys) (d : Direction) : Prop :=
  (s.copier d).pc = .read ∧ (s.conn d).unread = [] ∧ (s.conn d).fin = false ∧
    (s.conn d).failed = false ∧ (s.conn d).gone = false ∧
    (0 < idle → ∃ t, (s.conn d).deadline = some t ∧ s.clock < t ∧ t ≤ s.clock + idle)

def Blocked (s : PipeSys) (d : Direction) : Prop :=
  (∃ rest rerr, (s.copier d).pc = .write rest rerr) ∧ (s.conn d.other).stalled = true ∧
    (s.conn d.other).failed = false ∧ (s.conn d.other).gone = false

theorem read_enabled (timed : s.Timed idle) (here : (s.copier d).pc = .read) :
    (∃ e s', s.copyStep idle d e = some s') ∨ s.Waits idle d := by
  have answers (got : Bytes) (rerr : Option Err) (part : got <+: (s.conn d).unread)
      (small : got.length ≤ bufSize) (answer : (s.conn d).readErr s.clock got rerr = true) :
      ∃ e s', s.copyStep idle d e = some s' := by
    refine ⟨.read got rerr, ?_⟩
    simp only [copyStep, here, Endpoint.read]
    rw [if_pos ⟨part, small, answer⟩]
    exact ⟨_, rfl⟩
  by_cases gone : (s.conn d).gone = true
  · exact .inl (answers [] (some errClosed) List.nil_prefix (Nat.zero_le _)
      (by simp [Endpoint.readErr, gone]))
  by_cases failed : (s.conn d).failed = true
  · exact .inl (answers [] (some (.other "i/o timeout")) List.nil_prefix (Nat.zero_le _)
      (by simp [Endpoint.readErr, failed, Err.is]))
  rw [Bool.not_eq_true] at gone failed
  cases unread : (s.conn d).unread with
  | cons b rest =>
      refine .inl (answers [b] none ⟨rest, unread.symm⟩ (by simp [bufSize]) ?_)
      simp [Endpoint.readErr]
  | nil =>
      by_cases fin : (s.conn d).fin = true
      · exact .inl (answers [] (some .eof) List.nil_prefix (Nat.zero_le _)
          (by simp [Endpoint.readErr, fin, unread, Err.is]))
      rw [Bool.not_eq_true] at fin
      by_cases passed : (s.conn d).expired s.clock = true
      · exact .inl (answers [] (some (.other "i/o timeout")) List.nil_prefix (Nat.zero_le _)
          (by simp [Endpoint.readErr, passed, timeouts, Err.is]))
      · refine .inr ⟨here, unread, fin, failed, gone, fun positive => ?_⟩
        obtain ⟨t, set⟩ := Option.isSome_iff_exists.1 (timed.armed d here positive)
        refine ⟨t, set, ?_, timed.near d t set⟩
        simpa [Endpoint.expired, set] using passed

theorem write_enabled {rest : Bytes} {rerr : Option Err} (standing : s.Standing idle)
    (here : (s.copier d).pc = .write rest rerr) :
    (∃ e s', s.copyStep idle d e = some s') ∨ s.Blocked d := by
  have answers (werr : Option Err) (answer : (s.conn d.other).writeErr werr = true) :
      ∃ e s', s.copyStep idle d e = some s' := by
    refine ⟨.write rest.length werr, ?_⟩
    simp only [copyStep, here, Endpoint.write]
    rw [if_pos ⟨le_rfl, answer⟩]
    exact ⟨_, rfl⟩
  have unclosed := standing.unclosed d (by simp [here, CopyPc.ended])
  by_cases stalled : (s.conn d.other).stalled = true
  · by_cases broken : (s.conn d.other).gone = true ∨ (s.conn d.other).failed = true
    · refine .inl (answers (some errClosed) ?_)
      rcases broken with gone | failed
      · simp [Endpoint.writeErr, gone]
      · simp [Endpoint.writeErr, failed]
    · rw [not_or, Bool.not_eq_true, Bool.not_eq_true] at broken
      exact .inr ⟨⟨rest, rerr, here⟩, stalled, broken.2, broken.1⟩
  · exact .inl (answers none (by simp [Endpoint.writeErr, unclosed.1, stalled]))

theorem copy_enabled (standing : s.Standing idle) (timed : s.Timed idle)
    (going : ∀ err, (s.copier d).pc ≠ .sent err) :
    (∃ a s', a.own = true ∧ s.step idle a = some s') ∨ s.Waits idle d ∨ s.Blocked d := by
  have lift (enabled : ∃ e s', s.copyStep idle d e = some s') :
      ∃ a s', a.own = true ∧ s.step idle a = some s' := by
    obtain ⟨e, s', taken⟩ := enabled
    exact ⟨.copy d e, s', rfl, taken⟩
  cases here : (s.copier d).pc with
  | arm => exact .inl (lift ⟨.arm, by simp [copyStep, here]⟩)
  | read => exact (read_enabled timed here).imp lift .inl
  | write rest rerr => exact (write_enabled standing here).imp lift .inr
  | returned err => exact .inl (lift ⟨.send, by simp [copyStep, here]⟩)
  | sent err => exact absurd here (going err)

theorem pipe_enabled (standing : s.Standing idle) (timed : s.Timed idle)
    (running : s.main ≠ .returned) :
    (∃ a s', a.own = true ∧ s.step idle a = some s') ∨ ∃ d, s.Waits idle d ∨ s.Blocked d := by
  have receives (d : Direction) (next : PipePc) :
      (∃ s', s.receive d next = some s') ∨ ∀ err, (s.copier d).pc ≠ .sent err := by
    unfold receive
    split
    · exact .inl ⟨_, rfl⟩
    · rename_i elsewhere
      exact .inr elsewhere
  cases main : s.main with
  | select =>
      rcases receives .up (.closing .up) with ⟨s', received⟩ | going
      · exact .inl ⟨.select .up, s', rfl, by rw [step, if_pos main, received]⟩
      · exact (copy_enabled standing timed going).imp_right fun waits => ⟨.up, waits⟩
  | closing first => exact .inl ⟨.close, by simp [step, main, PipeAction.own]⟩
  | waiting first =>
      rcases receives first.other .returned with ⟨s', received⟩ | going
      · exact .inl ⟨.wait, s', rfl, by simp [step, main, received]⟩
      · exact (copy_enabled standing timed going).imp_right fun waits => ⟨first.other, waits⟩
  | returned => exact absurd main running

end PipeSys

end S5lb.Socks5
