import S5lb.Lib.Threads
import S5lb.Transport.StreamConn

namespace S5lb

open Go Transition Threads

def returnedBytes (reads : List (Bytes × Option NetErr)) : Bytes := (reads.map Prod.fst).flatten

theorem returnedBytes_snoc (reads : List (Bytes × Option NetErr)) (data : Bytes)
    (err : Option NetErr) : returnedBytes (reads ++ [(data, err)]) = returnedBytes reads ++ data := by
  simp [returnedBytes]

namespace StreamConn

def undelivered (c : StreamConn) : Bytes := c.pending ++ c.readCh.buf.flatten

def reading : StreamPc → Option Unit
  | .readArm _ | .readSelect _ _ _ | .readErr => some ()
  | _ => none

def PcReads (c : StreamConn) (i : Nat) : StreamPc → Prop
  | .enqueueCheck b | .enqueueSelect b => b ≠ []
  | .finishRemote _ .storeErr | .finishRemote _ .closeDone | .finishRemote _ .closeRead =>
      c.remoteCloseOnce = .running i
  | .finishRemote _ .cancel =>
      c.remoteCloseOnce = .running i ∧ c.readClosed = true ∧ c.readCh.closed = true
  | .close .cancel | .close .closeDone => c.closeOnce = .running i
  | .readLock n => 0 < n
  | .readArm n | .readSelect n _ _ => 0 < n ∧ c.readMu = true ∧ c.pending = []
  | .readErr => c.readMu = true ∧ c.pending = [] ∧ c.readCh.closed = true ∧ c.readCh.buf = []
  | _ => True

theorem PcReads.locked {c : StreamConn} {i : Nat} {pc : StreamPc} (reads : c.PcReads i pc)
    (inside : reading pc ≠ none) : c.readMu = true ∧ c.pending = [] := by
  cases pc with
  | readArm n => exact reads.2
  | readSelect n deadline changed => exact reads.2
  | readErr => exact ⟨reads.1, reads.2.1⟩
  | _ => exact absurd rfl inside

theorem PcReads.mono {c c' : StreamConn} {j : Nat} {pc : StreamPc} (reads : c.PcReads j pc)
    (remoteOnce : c.remoteCloseOnce = .running j → c'.remoteCloseOnce = .running j)
    (closeOnce : c.closeOnce = .running j → c'.closeOnce = .running j)
    (flag : c.readClosed = true → c'.readClosed = true)
    (closed : c.readCh.closed = true → c'.readCh.closed = true)
    (data : reading pc = none ∨ c'.readMu = c.readMu ∧ c'.pending = c.pending ∧
      (c.readCh.closed = true → c'.readCh.buf = c.readCh.buf)) : c'.PcReads j pc := by
  cases pc with
  | finishRemote err pos =>
      cases pos with
      | enter => trivial
      | storeErr => exact remoteOnce reads
      | closeDone => exact remoteOnce reads
      | closeRead => exact remoteOnce reads
      | cancel => exact ⟨remoteOnce reads.1, flag reads.2.1, closed reads.2.2⟩
  | close pos =>
      cases pos with
      | enter => trivial
      | cancel => exact closeOnce reads
      | closeDone => exact closeOnce reads
  | readArm n =>
      obtain ⟨mu, pending, _⟩ := data.resolve_left nofun
      exact ⟨reads.1, mu.trans reads.2.1, pending.trans reads.2.2⟩
  | readSelect n deadline changed =>
      obtain ⟨mu, pending, _⟩ := data.resolve_left nofun
      exact ⟨reads.1, mu.trans reads.2.1, pending.trans reads.2.2⟩
  | readErr =>
      obtain ⟨mu, pending, buf⟩ := data.resolve_left nofun
      exact ⟨mu.trans reads.1, pending.trans reads.2.1, closed reads.2.2.1,
        (buf reads.2.2.1).trans reads.2.2.2⟩
  | _ => exact reads

end StreamConn

namespace StreamSys

open StreamConn (reading PcReads)

/-- The read side of every reachable state: every byte enqueued was returned, is the remainder of a
chunk, or waits in the channel, in this order. -/
structure ReadSide (s : StreamSys) : Prop where
  threads : Each s.threads s.conn.PcReads
  readers : Sole s.threads reading
  finished : s.conn.remoteCloseOnce = .done → s.conn.readClosed = true ∧ s.conn.readCh.closed = true
  fresh : s.conn.closeOnce = .fresh → s.conn.localDone.closed = false
  chunks : ∀ b ∈ s.conn.readCh.buf, b ≠ []
  conserved : returnedBytes s.log.reads ++ s.conn.undelivered = s.log.enqueued.flatten

namespace ReadSide

variable {s : StreamSys} {i : Nat} {pc pc' : StreamPc} {c : StreamConn} {log : StreamLog}

theorem alone (inv : s.ReadSide) (here : s.threads[i]? = some pc)
    (mine : reading pc ≠ none ∨ s.conn.readMu = false) (j : Nat) (u : StreamPc) (other : j ≠ i)
    (located : s.threads[j]? = some u) : reading u = none := by
  by_contra inside
  obtain ⟨⟨⟩, holds⟩ := Option.ne_none_iff_exists'.1 inside
  rcases mine with self | free
  · obtain ⟨⟨⟩, self⟩ := Option.ne_none_iff_exists'.1 self
    exact other (inv.readers j i u pc () located here holds self)
  · exact absurd (free.symm.trans ((inv.threads j u located).locked inside).1) nofun

theorem next (inv : s.ReadSide) (here : s.threads[i]? = some pc) (mine : c.PcReads i pc')
    (others : ∀ j u, j ≠ i → s.threads[j]? = some u → s.conn.PcReads j u → c.PcReads j u)
    (entry : reading pc' = none ∨ reading pc ≠ none ∨ s.conn.readMu = false)
    (finished : c.remoteCloseOnce = .done → c.readClosed = true ∧ c.readCh.closed = true)
    (fresh : c.closeOnce = .fresh → c.localDone.closed = false)
    (chunks : ∀ b ∈ c.readCh.buf, b ≠ [])
    (conserved : returnedBytes log.reads ++ c.undelivered = log.enqueued.flatten) :
    ReadSide { s with conn := c, log, threads := s.threads.set i pc' } := by
  refine ⟨inv.threads.set here mine others, inv.readers.set here ?_, finished, fresh, chunks,
    conserved⟩
  intro k holds j u other located inside
  rcases entry with outside | entry
  · exact absurd (outside.symm.trans holds) nofun
  · exact absurd ((inv.alone here entry j u other located).symm.trans inside) nofun

theorem next_quiet {ctxDone : Bool} {writeCh : Chan Bytes} {remoteErr : Option NetErr}
    {remoteDone : Chan Unit} {readDeadline writeDeadline : Deadline} {accepted sent : List Bytes}
    (inv : s.ReadSide) (here : s.threads[i]? = some pc) (mine : s.conn.PcReads i pc')
    (entry : reading pc' = none ∨ reading pc ≠ none) :
    ReadSide { s with
      conn := { s.conn with ctxDone, writeCh, remoteErr, remoteDone, readDeadline, writeDeadline }
      log := { s.log with accepted, sent }
      threads := s.threads.set i pc' } :=
  inv.next here (mine.mono id id id id (.inr ⟨rfl, rfl, fun _ => rfl⟩))
    (fun _ _ _ _ held => held.mono id id id id (.inr ⟨rfl, rfl, fun _ => rfl⟩))
    (entry.imp id .inl) inv.finished inv.fresh inv.chunks inv.conserved

theorem next_once {ctxDone readClosed readClosing : Bool} {localDone remoteDone : Chan Unit}
    {closeOnce remoteCloseOnce : Once} (inv : s.ReadSide) (here : s.threads[i]? = some pc)
    (mine : PcReads { s.conn with
      ctxDone, readClosed, readCh := { s.conn.readCh with closed := readClosing }, localDone,
      remoteDone, closeOnce, remoteCloseOnce } i pc')
    (remote : ∀ j, j ≠ i → s.conn.remoteCloseOnce = .running j → remoteCloseOnce = .running j)
    (close : ∀ j, j ≠ i → s.conn.closeOnce = .running j → closeOnce = .running j)
    (flag : s.conn.readClosed = true → readClosed = true)
    (closed : s.conn.readCh.closed = true → readClosing = true) (outside : reading pc' = none)
    (finished : remoteCloseOnce = .done → readClosed = true ∧ readClosing = true)
    (fresh : closeOnce = .fresh → localDone.closed = false) :
    ReadSide { s with
      conn := { s.conn with
        ctxDone, readClosed, readCh := { s.conn.readCh with closed := readClosing }, localDone,
        remoteDone, closeOnce, remoteCloseOnce }
      threads := s.threads.set i pc' } :=
  inv.next here mine
    (fun j _ other _ held => held.mono (remote j other) (close j other) flag closed
      (.inr ⟨rfl, rfl, fun _ => rfl⟩))
    (.inl outside) finished fresh inv.chunks inv.conserved

theorem next_endRead {data pending : Bytes} {rest : List Bytes} {err err' : Option NetErr} {n : Nat}
    (inv : s.ReadSide) (here : s.threads[i]? = some pc)
    (mine : reading pc ≠ none ∨ s.conn.readMu = false)
    (front : data ++ (pending ++ rest.flatten) = s.conn.undelivered)
    (kept : ∀ b ∈ rest, b ∈ s.conn.readCh.buf) :
    ReadSide { s with
      conn := { s.conn with readCh := { s.conn.readCh with buf := rest }, pending, readMu := false }
      log := { s.log with reads := s.log.reads ++ [(data, err)] }
      threads := s.threads.set i (.returned n err') } := by
  refine inv.next here trivial (fun j u other located held => held.mono id id id id
    (.inl (inv.alone here mine j u other located))) (.inl rfl) inv.finished inv.fresh
    (fun b member => inv.chunks b (kept b member)) ?_
  rw [returnedBytes_snoc, List.append_assoc, ← inv.conserved, ← front]
  rfl

theorem next_moves {k : Choice} (inv : s.ReadSide) (here : s.threads[i]? = some pc)
    (moves : StreamConn.Moves i s.clock s.conn s.log pc k (.next c log pc')) :
    ReadSide { s with conn := c, log, threads := s.threads.set i pc' } := by
  have mine := inv.threads i pc here
  -- data moves only in `enqueueSends` and at the end of a `Read`, which holds the lock
  cases moves with
  | enqueueChecked passed => exact inv.next_quiet here mine (.inl rfl)
  | @enqueueSends b opened room =>
      refine inv.next here trivial (fun j u _ _ held => held.mono id id id id
        (.inr ⟨rfl, rfl, fun closed => absurd (opened.symm.trans closed) nofun⟩)) (.inl rfl)
        inv.finished inv.fresh ?_ ?_
      · exact List.forall_mem_append.2 ⟨inv.chunks, List.forall_mem_singleton.2 mine⟩
      · simp only [StreamConn.undelivered, List.flatten_append, List.flatten_singleton]
        rw [← List.append_assoc, ← List.append_assoc, ← inv.conserved, StreamConn.undelivered,
          ← List.append_assoc]
  | finishEnters once =>
      exact inv.next_once here rfl (fun j _ running => absurd (once.symm.trans running) nofun)
        (fun _ _ => id) id id rfl nofun inv.fresh
  | finishStores => exact inv.next_quiet here mine (.inl rfl)
  | finishClosesDone opened => exact inv.next_quiet here mine (.inl rfl)
  | finishClosesRead opened =>
      exact inv.next_once here ⟨mine, rfl, rfl⟩ (fun _ _ => id) (fun _ _ => id) (fun _ => rfl)
        (fun _ => rfl) rfl (fun _ => ⟨rfl, rfl⟩) inv.fresh
  | finishCancels =>
      exact inv.next_once here trivial
        (fun j other running => absurd (Once.running.inj (running.symm.trans mine.1)) other)
        (fun _ _ => id) id id rfl (fun _ => mine.2) inv.fresh
  | closeEnters once =>
      exact inv.next_once here rfl (fun _ _ => id)
        (fun j _ running => absurd (once.symm.trans running) nofun) id id rfl inv.finished nofun
  | closeCancels => exact inv.next_quiet here mine (.inl rfl)
  | closeCloses opened =>
      exact inv.next_once here trivial (fun _ _ => id)
        (fun j other running => absurd (Once.running.inj (running.symm.trans mine)) other) id id rfl
        inv.finished nofun
  | readPending free some =>
      refine inv.next_endRead here (.inr free) ?_ (fun _ member => member)
      rw [← List.append_assoc, List.take_append_drop]
      rfl
  | readLocks free empty =>
      exact inv.next here ⟨mine, rfl, empty⟩ (fun j u other located held => held.mono id id id id
        (.inl (inv.alone here (.inr free) j u other located))) (.inr (.inr free)) inv.finished
        inv.fresh inv.chunks inv.conserved
  | readArms => exact inv.next_quiet here mine (.inr nofun)
  | @readReceives n changed deadline b rest ahead =>
      refine inv.next_endRead here (.inl nofun) ?_ (fun _ member => ahead ▸ List.mem_cons_of_mem _ member)
      rw [StreamConn.undelivered, mine.2.2, ahead, List.nil_append, List.flatten_cons,
        ← List.append_assoc, List.take_append_drop]
  | readEnds empty closed =>
      exact inv.next_quiet here ⟨mine.2.1, mine.2.2, closed, empty⟩ (.inr nofun)
  | readTimesOut fired => exact inv.next_endRead here (.inl nofun) rfl (fun _ member => member)
  | readRearms closed => exact inv.next_quiet here mine (.inr nofun)
  | readStops listens ready => exact inv.next_endRead here (.inl nofun) rfl (fun _ member => member)
  | readReports => exact inv.next_endRead here (.inl nofun) rfl (fun _ member => member)
  | pumpReceives ahead =>
      refine inv.next_quiet here ?_ (.inl ?_) <;> split
      · trivial
      · split <;> trivial
      · rfl
      · split <;> rfl
  | @deadlineSet side t => cases side <;> exact inv.next_quiet here trivial (.inl rfl)
  | @changedCloses side old opened => cases side <;> exact inv.next_quiet here trivial (.inl rfl)
  | _ => exact inv.next_quiet here trivial (.inl rfl)

theorem call (inv : s.ReadSide) (c : StreamCall) :
    ReadSide { s with threads := s.threads ++ [c.start] } := by
  refine ⟨inv.threads.snoc fun i => ?_, inv.readers.snoc ?_, inv.finished, inv.fresh, inv.chunks,
    inv.conserved⟩
  · cases c with
    | enqueueRead p =>
        simp only [StreamCall.start]
        split
        · trivial
        · assumption
    | read n =>
        simp only [StreamCall.start]
        split
        · trivial
        · exact Nat.pos_of_ne_zero ‹_›
    | write p => simp only [StreamCall.start]; split <;> trivial
    | _ => trivial
  · cases c <;> simp only [StreamCall.start] <;> (try split) <;> rfl

theorem step {s' : StreamSys} {a : StreamAction} (inv : s.ReadSide) (taken : s.step a = some s') :
    s'.ReadSide := by
  obtain ⟨_, steps⟩ := steps_of_step taken
  cases steps with
  | call c => exact inv.call c
  | next here moves => exact inv.next_moves here moves
  | panics here moves =>
      exact ⟨inv.threads, inv.readers, inv.finished, inv.fresh, inv.chunks, inv.conserved⟩
  | tick later =>
      exact ⟨inv.threads, inv.readers, inv.finished, inv.fresh, inv.chunks, inv.conserved⟩
  | cancelParent =>
      exact ⟨fun i pc located => (inv.threads i pc located).mono id id id id
        (.inr ⟨rfl, rfl, fun _ => rfl⟩), inv.readers, inv.finished, inv.fresh, inv.chunks,
        inv.conserved⟩

end ReadSide

theorem readSide_newStreamConn (hasSend : Bool) (clock : Time) :
    (newStreamConn hasSend clock).ReadSide := by
  refine ⟨?_, ?_, nofun, fun _ => rfl, nofun, rfl⟩
  · intro i pc located
    cases List.mem_singleton.1 (List.mem_of_getElem? located)
    trivial
  · intro i j pc pc' k located _ holds
    cases List.mem_singleton.1 (List.mem_of_getElem? located)
    cases holds

theorem readSide_of_exec {hasSend : Bool} {clock : Time}
    {trace : List (StreamSys × StreamAction)} {s : StreamSys}
    (exec : Exec step (newStreamConn hasSend clock) trace s) : s.ReadSide :=
  exec.stable (readSide_newStreamConn hasSend clock) fun _ _ _ inv taken => inv.step taken

end StreamSys

end S5lb
