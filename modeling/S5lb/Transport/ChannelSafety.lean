import S5lb.Lib.Threads
import S5lb.Transport.StreamConn

namespace S5lb

open Go Transition Threads

namespace StreamConn

def PcSafe (c : StreamConn) (i : Nat) : StreamPc → Prop
  | .enqueueSelect _ => c.readCh.closed = false
  | .finishRemote _ .storeErr | .finishRemote _ .closeDone =>
      c.remoteCloseOnce = .running i ∧ c.remoteDone.closed = false ∧ c.readCh.closed = false
  | .finishRemote _ .closeRead => c.remoteCloseOnce = .running i ∧ c.readCh.closed = false
  | .finishRemote _ .cancel => c.remoteCloseOnce = .running i
  | .close .cancel | .close .closeDone =>
      c.closeOnce = .running i ∧ c.localDone.closed = false
  | .closeChanged side old =>
      old < (c.deadline side).changed ∧ old ∉ (c.deadline side).closed
  | _ => True

def withData (c : StreamConn) (ctxDone readMu : Bool) (readBuf writeBuf : List Bytes)
    (pending : Bytes) (remoteErr : Option NetErr) : StreamConn :=
  { c with
    ctxDone, readMu, pending, remoteErr,
    readCh := { c.readCh with buf := readBuf }, writeCh := { c.writeCh with buf := writeBuf } }

theorem PcSafe.withData {c : StreamConn} {i : Nat} {pc : StreamPc} (safe : c.PcSafe i pc)
    (ctxDone readMu : Bool) (readBuf writeBuf : List Bytes) (pending : Bytes)
    (remoteErr : Option NetErr) :
    (c.withData ctxDone readMu readBuf writeBuf pending remoteErr).PcSafe i pc := by
  cases pc with
  | finishRemote err pos => cases pos <;> exact safe
  | close pos => cases pos <;> exact safe
  | closeChanged side old => cases side <;> exact safe
  | _ => exact safe

theorem deadline_withDeadline (c : StreamConn) (side side' : Side) (d : Deadline) :
    (c.withDeadline side d).deadline side' = if side' = side then d else c.deadline side' := by
  cases side <;> cases side' <;> rfl

theorem PcSafe.withDeadline {c : StreamConn} {j : Nat} {pc : StreamPc} {side : Side} {d : Deadline}
    (safe : c.PcSafe j pc) (later : (c.deadline side).changed ≤ d.changed)
    (closed : ∀ old, pc = .closeChanged side old → old ∉ d.closed) :
    (c.withDeadline side d).PcSafe j pc := by
  cases pc with
  | finishRemote err pos => cases side <;> cases pos <;> exact safe
  | close pos => cases side <;> cases pos <;> exact safe
  | enqueueSelect b => cases side <;> exact safe
  | closeChanged side' old =>
      obtain ⟨before, opened⟩ := safe
      simp only [PcSafe, deadline_withDeadline]
      by_cases same : side' = side
      · subst same
        rw [if_pos rfl]
        exact ⟨Nat.lt_of_lt_of_le before later, closed old rfl⟩
      · rw [if_neg same]
        exact ⟨before, opened⟩
  | _ => trivial

theorem PcSafe.finish_runner {c : StreamConn} {j : Nat} {err : Option NetErr} {pos : FinishPos}
    (safe : c.PcSafe j (.finishRemote err pos)) (running : c.remoteCloseOnce ≠ .running j) :
    pos = .enter := by
  cases pos with
  | enter => rfl
  | storeErr => exact absurd safe.1 running
  | closeDone => exact absurd safe.1 running
  | closeRead => exact absurd safe.1 running
  | cancel => exact absurd safe running

theorem PcSafe.close_runner {c : StreamConn} {j : Nat} {pos : ClosePos}
    (safe : c.PcSafe j (.close pos)) (running : c.closeOnce ≠ .running j) : pos = .enter := by
  cases pos with
  | enter => rfl
  | cancel => exact absurd safe.1 running
  | closeDone => exact absurd safe.1 running

theorem PcSafe.outside_finish {c c' : StreamConn} {j : Nat} {pc : StreamPc}
    (safe : c.PcSafe j pc) (running : c.remoteCloseOnce ≠ .running j)
    (read : c'.readCh.closed = c.readCh.closed ∨ ∀ b, pc ≠ .enqueueSelect b)
    (localDone : c'.localDone.closed = c.localDone.closed) (closeOnce : c'.closeOnce = c.closeOnce)
    (deadline : ∀ side, c'.deadline side = c.deadline side) : c'.PcSafe j pc := by
  cases pc with
  | finishRemote err pos => rw [safe.finish_runner running]; trivial
  | enqueueSelect b =>
      have same := read.resolve_right fun other => other b rfl
      exact same.trans safe
  | close pos =>
      cases pos with
      | enter => trivial
      | cancel => exact ⟨closeOnce.trans safe.1, localDone.trans safe.2⟩
      | closeDone => exact ⟨closeOnce.trans safe.1, localDone.trans safe.2⟩
  | closeChanged side old =>
      simp only [PcSafe, deadline]
      exact safe
  | _ => trivial

theorem PcSafe.outside_close {c c' : StreamConn} {j : Nat} {pc : StreamPc}
    (safe : c.PcSafe j pc) (running : c.closeOnce ≠ .running j)
    (read : c'.readCh.closed = c.readCh.closed)
    (remote : c'.remoteDone.closed = c.remoteDone.closed)
    (remoteOnce : c'.remoteCloseOnce = c.remoteCloseOnce)
    (deadline : ∀ side, c'.deadline side = c.deadline side) : c'.PcSafe j pc := by
  cases pc with
  | close pos => rw [safe.close_runner running]; trivial
  | enqueueSelect b => exact read.trans safe
  | finishRemote err pos =>
      cases pos with
      | enter => trivial
      | storeErr => exact ⟨remoteOnce.trans safe.1, remote.trans safe.2.1, read.trans safe.2.2⟩
      | closeDone => exact ⟨remoteOnce.trans safe.1, remote.trans safe.2.1, read.trans safe.2.2⟩
      | closeRead => exact ⟨remoteOnce.trans safe.1, read.trans safe.2⟩
      | cancel => exact remoteOnce.trans safe
  | closeChanged side old =>
      simp only [PcSafe, deadline]
      exact safe
  | _ => trivial

end StreamConn

namespace StreamSys

def changing : StreamPc → Option (Side × Nat)
  | .closeChanged side old => some (side, old)
  | _ => none

structure Safe (s : StreamSys) : Prop where
  running : s.panicked = none
  threads : Each s.threads s.conn.PcSafe
  remoteFresh : s.conn.remoteCloseOnce = .fresh →
    s.conn.remoteDone.closed = false ∧ s.conn.readCh.closed = false
  localFresh : s.conn.closeOnce = .fresh → s.conn.localDone.closed = false
  flag : s.conn.readClosed = s.conn.readCh.closed
  writeOpen : s.conn.writeCh.closed = false
  changers : Sole s.threads changing
  replaced : ∀ side, ∀ old ∈ (s.conn.deadline side).closed, old < (s.conn.deadline side).changed

theorem Safe.next {s : StreamSys} {i : Nat} {pc pc' : StreamPc} {c : StreamConn}
    {log : StreamLog} (safe : s.Safe) (here : s.threads[i]? = some pc) (mine : c.PcSafe i pc')
    (others : ∀ j pc, j ≠ i → s.threads[j]? = some pc → s.conn.PcSafe j pc → c.PcSafe j pc)
    (remoteFresh : c.remoteCloseOnce = .fresh →
      c.remoteDone.closed = false ∧ c.readCh.closed = false)
    (localFresh : c.closeOnce = .fresh → c.localDone.closed = false)
    (flag : c.readClosed = c.readCh.closed) (writeOpen : c.writeCh.closed = false)
    (alone : ∀ k, changing pc' = some k → ∀ j u, j ≠ i → s.threads[j]? = some u →
      changing u ≠ some k)
    (replaced : ∀ side, ∀ old ∈ (c.deadline side).closed, old < (c.deadline side).changed) :
    Safe { s with conn := c, log, threads := s.threads.set i pc' } :=
  ⟨safe.running, safe.threads.set here mine others, remoteFresh, localFresh, flag, writeOpen,
    safe.changers.set here alone, replaced⟩

theorem Safe.next_data {s : StreamSys} {i : Nat} {pc pc' : StreamPc} {log : StreamLog}
    {ctxDone readMu : Bool} {readBuf writeBuf : List Bytes} {pending : Bytes}
    {remoteErr : Option NetErr} (safe : s.Safe) (here : s.threads[i]? = some pc)
    (mine : s.conn.PcSafe i pc') (plain : changing pc' = none) :
    Safe { s with
      conn := s.conn.withData ctxDone readMu readBuf writeBuf pending remoteErr
      log, threads := s.threads.set i pc' } :=
  safe.next here (mine.withData _ _ _ _ _ _) (fun _ _ _ _ held => held.withData _ _ _ _ _ _)
    safe.remoteFresh safe.localFresh safe.flag safe.writeOpen
    (fun _ holds => absurd (plain.symm.trans holds) nofun) safe.replaced

theorem Safe.next_finish {s : StreamSys} {i : Nat} {pc pc' : StreamPc} {log : StreamLog}
    {once : Once} {remoteDone : Chan Unit} {readCh : Chan Bytes} {readClosed ctxDone : Bool}
    (safe : s.Safe) (here : s.threads[i]? = some pc)
    (mine : StreamConn.PcSafe
      { s.conn with remoteCloseOnce := once, remoteDone, readCh, readClosed, ctxDone } i pc')
    (plain : changing pc' = none) (runner : ∀ j, j ≠ i → s.conn.remoteCloseOnce ≠ .running j)
    (read : readCh.closed = s.conn.readCh.closed ∨ ∀ b, .enqueueSelect b ∉ s.threads)
    (begun : once ≠ .fresh) (flag : readClosed = readCh.closed) :
    Safe { s with
      conn := { s.conn with remoteCloseOnce := once, remoteDone, readCh, readClosed, ctxDone }
      log, threads := s.threads.set i pc' } :=
  safe.next here mine
    (fun j _ other located held => held.outside_finish (runner j other)
      (read.imp_right fun absent b is => absent b (is ▸ List.mem_of_getElem? located)) rfl rfl
      fun _ => rfl)
    (fun fresh => absurd fresh begun) safe.localFresh flag safe.writeOpen
    (fun _ holds => by rw [plain] at holds; cases holds) safe.replaced

theorem Safe.next_close {s : StreamSys} {i : Nat} {pc pc' : StreamPc} {log : StreamLog}
    {once : Once} {localDone : Chan Unit} (safe : s.Safe) (here : s.threads[i]? = some pc)
    (mine : StreamConn.PcSafe { s.conn with closeOnce := once, localDone } i pc')
    (plain : changing pc' = none) (runner : ∀ j, j ≠ i → s.conn.closeOnce ≠ .running j)
    (begun : once ≠ .fresh) :
    Safe { s with
      conn := { s.conn with closeOnce := once, localDone }
      log, threads := s.threads.set i pc' } :=
  safe.next here mine
    (fun j _ other _ held => held.outside_close (runner j other) rfl rfl rfl fun _ => rfl)
    safe.remoteFresh (fun fresh => absurd fresh begun) safe.flag safe.writeOpen
    (fun _ holds => by rw [plain] at holds; cases holds) safe.replaced

theorem Safe.next_deadline {s : StreamSys} {i : Nat} {pc pc' : StreamPc} {log : StreamLog}
    {side : Side} {d : Deadline} (safe : s.Safe) (here : s.threads[i]? = some pc)
    (mine : (s.conn.withDeadline side d).PcSafe i pc')
    (later : (s.conn.deadline side).changed ≤ d.changed)
    (spared : ∀ j old, j ≠ i → s.threads[j]? = some (.closeChanged side old) → old ∉ d.closed)
    (alone : ∀ k, changing pc' = some k → ∀ j u, j ≠ i → s.threads[j]? = some u →
      changing u ≠ some k)
    (replaced : ∀ old ∈ d.closed, old < d.changed) :
    Safe { s with conn := s.conn.withDeadline side d, log, threads := s.threads.set i pc' } := by
  refine safe.next here mine (fun j u other located held => ?_)
    (by cases side <;> exact safe.remoteFresh) (by cases side <;> exact safe.localFresh)
    (by cases side <;> exact safe.flag) (by cases side <;> exact safe.writeOpen) alone ?_
  · exact held.withDeadline later fun old is => spared j old other (is ▸ located)
  · intro side' old closed
    rw [StreamConn.deadline_withDeadline] at closed ⊢
    by_cases same : side' = side
    · rw [if_pos same] at closed ⊢
      exact replaced old closed
    · rw [if_neg same] at closed ⊢
      exact safe.replaced side' old closed

/-- `finishRemote` does not close the data channel while an `enqueueRead` has passed its check and
not yet returned. -/
def Careful (s : StreamSys) (a : StreamAction) : Prop :=
  ∀ i err, a = .move i .run → s.threads[i]? = some (.finishRemote err .closeRead) →
    ∀ b, .enqueueSelect b ∉ s.threads

theorem Safe.next_moves {s : StreamSys} {i : Nat} {k : Choice} {pc pc' : StreamPc}
    {c : StreamConn} {log : StreamLog} (safe : s.Safe) (careful : s.Careful (.move i k))
    (here : s.threads[i]? = some pc)
    (moves : StreamConn.Moves i s.clock s.conn s.log pc k (.next c log pc')) :
    Safe { s with conn := c, log, threads := s.threads.set i pc' } := by
  have mine := safe.threads i pc here
  have only {once : Once} (running : once = .running i) (j : Nat) (other : j ≠ i) :
      once ≠ .running j := fun same => other (Once.running.inj (same.symm.trans running))
  cases moves with
  | enqueueChecked passed => exact safe.next_data here (safe.flag.symm.trans passed) rfl
  | finishEnters once =>
      exact safe.next_finish here ⟨rfl, safe.remoteFresh once⟩ rfl (fun _ _ => by rw [once]; nofun)
        (.inl rfl) nofun safe.flag
  | finishStores => exact safe.next_data here mine rfl
  | finishClosesDone opened =>
      exact safe.next_finish here ⟨mine.1, mine.2.2⟩ rfl (only mine.1) (.inl rfl)
        (by rw [mine.1]; nofun) safe.flag
  | finishClosesRead opened =>
      -- the only step that needs care: nobody may be about to send
      exact safe.next_finish here mine.1 rfl (only mine.1) (.inr (careful i _ rfl here))
        (by rw [mine.1]; nofun) rfl
  | finishCancels =>
      exact safe.next_finish here trivial rfl (only mine) (.inl rfl) nofun safe.flag
  | closeEnters once =>
      exact safe.next_close here ⟨rfl, safe.localFresh once⟩ rfl (fun _ _ => by rw [once]; nofun) nofun
  | closeCancels => exact safe.next_data here mine rfl
  | closeCloses opened => exact safe.next_close here trivial rfl (only mine.1) nofun
  | pumpReceives ahead =>
      refine safe.next_data here ?_ ?_ <;> split
      · trivial
      · split <;> trivial
      · rfl
      · split <;> rfl
  | @deadlineSet side t =>
      -- the channel just replaced is younger than all that were replaced before
      refine safe.next_deadline here ?_ (Nat.le_succ _)
        (fun j old _ located => (safe.threads j _ located).2) ?_
        fun old closed => Nat.lt_succ_of_lt (safe.replaced side old closed)
      · refine ⟨?_, ?_⟩ <;> rw [StreamConn.deadline_withDeadline, if_pos rfl]
        · exact Nat.lt_succ_self _
        · exact fun closed => absurd (safe.replaced side _ closed) (Nat.lt_irrefl _)
      · rintro _ ⟨⟩ j u _ located holds
        cases u with
        | closeChanged side' old =>
            cases holds
            exact absurd (safe.threads j _ located).1 (Nat.lt_irrefl _)
        | _ => cases holds
  | @changedCloses side old opened =>
      refine safe.next_deadline here trivial (Nat.le_refl _) (fun j old' other located closed => ?_)
        nofun fun old' closed => ?_
      · rcases List.mem_append.1 closed with earlier | now
        · exact (safe.threads j _ located).2 earlier
        · cases List.mem_singleton.1 now
          exact other (safe.changers j i _ _ (side, old) located here rfl rfl)
      · rcases List.mem_append.1 closed with earlier | now
        · exact safe.replaced side old' earlier
        · cases List.mem_singleton.1 now
          exact mine.1
  | _ => exact safe.next_data here trivial rfl

theorem Safe.no_panic {s : StreamSys} {i : Nat} {k : Choice} {pc : StreamPc} {why : StreamPanic}
    (safe : s.Safe) (here : s.threads[i]? = some pc) :
    ¬StreamConn.Moves i s.clock s.conn s.log pc k (.panic why) := by
  have mine := safe.threads i pc here
  intro moves
  cases moves with
  | enqueuePanics closed => exact absurd (mine.symm.trans closed) nofun
  | finishDonePanics closed => exact absurd (mine.2.1.symm.trans closed) nofun
  | finishReadPanics closed => exact absurd (mine.2.symm.trans closed) nofun
  | closePanics closed => exact absurd (mine.2.symm.trans closed) nofun
  | writePanics closed => exact absurd (safe.writeOpen.symm.trans closed) nofun
  | changedPanics closed => exact mine.2 closed

theorem Safe.call {s : StreamSys} (safe : s.Safe) (c : StreamCall) :
    Safe { s with threads := s.threads ++ [c.start] } := by
  refine ⟨safe.running, safe.threads.snoc fun i => ?_, safe.remoteFresh, safe.localFresh, safe.flag,
    safe.writeOpen, safe.changers.snoc ?_, safe.replaced⟩
  · cases c <;> simp only [StreamCall.start] <;> (try split) <;> trivial
  · cases c <;> simp only [StreamCall.start] <;> (try split) <;> rfl

theorem Safe.step {s s' : StreamSys} {a : StreamAction} (safe : s.Safe) (careful : s.Careful a)
    (taken : s.step a = some s') : s'.Safe := by
  obtain ⟨_, steps⟩ := steps_of_step taken
  cases steps with
  | call c => exact safe.call c
  | next here moves => exact safe.next_moves careful here moves
  | panics here moves => exact absurd moves (safe.no_panic here)
  | tick later =>
      exact ⟨safe.running, safe.threads, safe.remoteFresh, safe.localFresh, safe.flag,
        safe.writeOpen, safe.changers, safe.replaced⟩
  | cancelParent =>
      exact ⟨safe.running, fun i pc located => (safe.threads i pc located).withData _ _ _ _ _ _,
        safe.remoteFresh, safe.localFresh, safe.flag, safe.writeOpen, safe.changers, safe.replaced⟩

theorem safe_newStreamConn (hasSend : Bool) (clock : Time) :
    (newStreamConn hasSend clock).Safe := by
  refine ⟨rfl, ?_, fun _ => ⟨rfl, rfl⟩, fun _ => rfl, rfl, rfl, ?_, ?_⟩
  · intro i pc located
    cases List.mem_singleton.1 (List.mem_of_getElem? located)
    trivial
  · intro i j pc pc' k located _ holds
    cases List.mem_singleton.1 (List.mem_of_getElem? located)
    cases holds
  · intro side old closed
    cases side <;> cases closed

/-- As long as the data channel is never closed under an `enqueueRead` that has passed its check,
nothing is sent on a closed channel and no channel is closed twice. -/
theorem no_send_on_closed {hasSend : Bool} {clock : Time} {trace : List (StreamSys × StreamAction)}
    {s : StreamSys} (exec : Exec step (newStreamConn hasSend clock) trace s)
    (careful : Guarded Careful trace) : s.panicked = none :=
  (exec.invariant (P := fun _ s => Safe s) (safe_newStreamConn hasSend clock)
    (fun _ _ _ _ _ safe careful taken => safe.step careful taken) careful).running

def careful (s : StreamSys) : StreamAction → Bool
  | .move i .run =>
      match s.threads[i]? with
      | some (.finishRemote _ .closeRead) =>
          s.threads.all fun
            | .enqueueSelect _ => false
            | _ => true
      | _ => true
  | _ => true

theorem careful_of_test {s : StreamSys} {a : StreamAction} (good : s.careful a = true) :
    s.Careful a := by
  rintro i err rfl here b inside
  simp only [careful, here] at good
  exact absurd (List.all_eq_true.1 good _ inside) nofun

def failingWrite : List StreamAction :=
  [.call (.write [1]), .move 1 .run, .move 1 (.select .data), .move 0 (.select .data),
    .call (.enqueueRead [2]), .move 2 .run, .move 0 (.sendReturns (some .streamClosed))]

/-- The reader of the remote has passed its check when the pump's `finishRemote` closes the channel;
its `select` then takes the send. -/
theorem send_on_closed : ∃ trace s, Exec step (newStreamConn true 0) trace s ∧
    s.panicked = some .sendOnClosed := by
  obtain ⟨trace, s, exec, -, panicked⟩ := exec_of_play step (newStreamConn true 0)
    (failingWrite ++ runs 0 4 ++ [.move 2 (.select .data)])
    (fun _ s => s.panicked = some .sendOnClosed) (by decide +kernel)
  exact ⟨trace, s, exec, of_decide_eq_true panicked⟩

theorem no_send_on_closed_after_enqueue : ∃ trace s, Exec step (newStreamConn true 0) trace s ∧
    Guarded Careful trace ∧ s.conn.readCh.closed = true ∧ s.panicked = none := by
  obtain ⟨trace, s, exec, -, good⟩ := exec_of_play step (newStreamConn true 0)
    (failingWrite ++ [.move 2 (.select .data)] ++ runs 0 5)
    (fun trace s => (trace.all fun entry => entry.1.careful entry.2) && s.conn.readCh.closed)
    (by decide +kernel)
  obtain ⟨tested, closed⟩ := Bool.and_eq_true_iff.1 good
  have guarded : Guarded Careful trace := fun entry member =>
    careful_of_test (List.all_eq_true.1 tested entry member)
  exact ⟨trace, s, exec, guarded, closed, no_send_on_closed exec guarded⟩

end StreamSys

end S5lb
