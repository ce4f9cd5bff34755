import S5lb.Lib.Threads
import S5lb.Transport.StreamConn

namespace S5lb

open Go Transition Threads

namespace StreamPc

def flight : StreamPc → List Bytes
  | .pumpSend b => [b]
  | _ => []

def Writes (i : Nat) : StreamPc → Prop
  | .writeArm b | .writeSelect b _ _ => b ≠ []
  | .pumpSelect | .pumpSend _ => i = 0
  | _ => True

end StreamPc

def inflight (threads : List StreamPc) : List Bytes := (threads[0]?.map StreamPc.flight).getD []

theorem inflight_at {threads : List StreamPc} {pc : StreamPc} (here : threads[0]? = some pc) :
    inflight threads = pc.flight := by
  rw [inflight, here]
  rfl

theorem inflight_pump {threads : List StreamPc} {pc pc' : StreamPc} (here : threads[0]? = some pc) :
    inflight (threads.set 0 pc') = pc'.flight :=
  inflight_at (List.getElem?_set_self (List.getElem?_eq_some_iff.1 here).1)

theorem inflight_set {threads : List StreamPc} {i : Nat} {pc pc' : StreamPc}
    (here : threads[i]? = some pc) (same : pc'.flight = pc.flight) :
    inflight (threads.set i pc') = inflight threads := by
  by_cases first : i = 0
  · subst first
    rw [inflight_pump here, inflight_at here, same]
  · rw [inflight, List.getElem?_set_ne first, inflight]

theorem inflight_snoc {threads : List StreamPc} {pc : StreamPc} (none : pc.flight = []) :
    inflight (threads ++ [pc]) = inflight threads := by
  cases threads with
  | nil => exact none
  | cons first rest => rfl

theorem StreamCall.start_flight (c : StreamCall) : c.start.flight = [] := by
  cases c <;> simp only [start] <;> (try split) <;> rfl

namespace StreamSys

/-- The write side of every reachable state of a connection that can send: every slice accepted was
passed to `send`, is with the pump, or waits in the channel, in this order. -/
structure WriteSide (s : StreamSys) : Prop where
  hasSend : s.conn.hasSend = true
  opened : s.conn.writeCh.closed = false
  threads : Each s.threads StreamPc.Writes
  chunks : ∀ b ∈ s.conn.writeCh.buf, b ≠ []
  conserved : s.log.sent ++ inflight s.threads ++ s.conn.writeCh.buf = s.log.accepted

namespace WriteSide

variable {s s' : StreamSys} {i : Nat} {k : Choice} {pc pc' : StreamPc} {c : StreamConn}
  {log : StreamLog}

theorem next_quiet (inv : s.WriteSide) (here : s.threads[i]? = some pc)
    (writeCh : c.writeCh = s.conn.writeCh) (hasSend : c.hasSend = s.conn.hasSend)
    (accepted : log.accepted = s.log.accepted) (sent : log.sent = s.log.sent)
    (mine : pc'.Writes i) (flight : pc'.flight = pc.flight) :
    WriteSide { s with conn := c, log, threads := s.threads.set i pc' } := by
  refine ⟨hasSend.trans inv.hasSend, by rw [writeCh]; exact inv.opened,
    inv.threads.set here mine fun _ _ _ _ => id, by rw [writeCh]; exact inv.chunks, ?_⟩
  simp only [inflight_set here flight, accepted, sent, writeCh]
  exact inv.conserved

theorem next_moves (inv : s.WriteSide) (here : s.threads[i]? = some pc)
    (moves : StreamConn.Moves i s.clock s.conn s.log pc k (.next c log pc')) :
    WriteSide { s with conn := c, log, threads := s.threads.set i pc' } := by
  have mine := inv.threads i pc here
  cases moves with
  | writeArms => exact inv.next_quiet here rfl rfl rfl rfl mine rfl
  | @writeSends b changed deadline opened room =>
      refine ⟨inv.hasSend, inv.opened, inv.threads.set here trivial fun _ _ _ _ => id, ?_, ?_⟩
      · exact List.forall_mem_append.2 ⟨inv.chunks, List.forall_mem_singleton.2 mine⟩
      · have same : (StreamPc.returned b.length none).flight =
            (StreamPc.writeSelect b deadline changed).flight := rfl
        simp only [inflight_set here same]
        rw [← List.append_assoc, inv.conserved]
  | writeRearms closed => exact inv.next_quiet here rfl rfl rfl rfl mine rfl
  | @pumpReceives b rest ahead =>
      cases mine
      have some : b ≠ [] := inv.chunks b (ahead ▸ List.mem_cons_self)
      have conserved := inv.conserved
      rw [if_neg some, if_pos inv.hasSend]
      refine ⟨inv.hasSend, inv.opened, inv.threads.set here rfl fun _ _ _ _ => id,
        fun chunk member => inv.chunks chunk (ahead ▸ List.mem_cons_of_mem _ member), ?_⟩
      simp only [inflight_pump here, StreamPc.flight]
      rw [inflight_at here, ahead] at conserved
      rw [← conserved, List.append_assoc, List.append_assoc]
      rfl
  | pumpIdles empty closed => exact inv.next_quiet here rfl rfl rfl rfl mine rfl
  | @pumpSends b =>
      cases mine
      have conserved := inv.conserved
      rw [inflight_at here] at conserved
      refine ⟨inv.hasSend, inv.opened, inv.threads.set here rfl fun _ _ _ _ => id, inv.chunks, ?_⟩
      simp only [inflight_pump here, StreamPc.flight, List.append_nil]
      exact conserved
  | @pumpFails b e =>
      cases mine
      have conserved := inv.conserved
      rw [inflight_at here] at conserved
      refine ⟨inv.hasSend, inv.opened, inv.threads.set here trivial fun _ _ _ _ => id, inv.chunks, ?_⟩
      simp only [inflight_pump here, StreamPc.flight, List.append_nil]
      exact conserved
  | @deadlineSet side t => cases side <;> exact inv.next_quiet here rfl rfl rfl rfl trivial rfl
  | @changedCloses side old opened =>
      cases side <;> exact inv.next_quiet here rfl rfl rfl rfl trivial rfl
  | _ => exact inv.next_quiet here rfl rfl rfl rfl trivial rfl

theorem step {a : StreamAction} (inv : s.WriteSide) (taken : s.step a = some s') :
    s'.WriteSide := by
  obtain ⟨_, steps⟩ := steps_of_step taken
  cases steps with
  | call c =>
      refine ⟨inv.hasSend, inv.opened, inv.threads.snoc fun i => ?_, inv.chunks, ?_⟩
      · cases c with
        | enqueueRead p => simp only [StreamCall.start]; split <;> trivial
        | read n => simp only [StreamCall.start]; split <;> trivial
        | write p =>
            simp only [StreamCall.start]
            split
            · trivial
            · assumption
        | _ => trivial
      · simp only [inflight_snoc c.start_flight]
        exact inv.conserved
  | next here moves => exact inv.next_moves here moves
  | panics here moves => exact ⟨inv.hasSend, inv.opened, inv.threads, inv.chunks, inv.conserved⟩
  | tick later => exact ⟨inv.hasSend, inv.opened, inv.threads, inv.chunks, inv.conserved⟩
  | cancelParent => exact ⟨inv.hasSend, inv.opened, inv.threads, inv.chunks, inv.conserved⟩

end WriteSide

theorem writeSide_newStreamConn (clock : Time) : (newStreamConn true clock).WriteSide := by
  refine ⟨rfl, rfl, ?_, nofun, rfl⟩
  intro i pc located
  obtain ⟨bound, same⟩ := List.getElem?_eq_some_iff.1 located
  cases Nat.lt_one_iff.1 bound
  cases same
  rfl

theorem writeSide_of_exec {clock : Time} {trace : List (StreamSys × StreamAction)} {s : StreamSys}
    (exec : Exec step (newStreamConn true clock) trace s) : s.WriteSide :=
  exec.stable (writeSide_newStreamConn clock) fun _ _ _ inv taken => inv.step taken

end StreamSys

end S5lb
