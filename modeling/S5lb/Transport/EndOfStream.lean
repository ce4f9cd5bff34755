import S5lb.Transport.ReadSide

namespace S5lb

open Go Transition Threads

def StreamPc.Undisturbing : StreamPc → Prop
  | .enqueueSelect _ | .close _ | .setDeadline .read _ | .closeChanged .read _ => False
  | .readSelect _ deadline _ => deadline = 0
  | _ => True

instance : DecidablePred StreamPc.Undisturbing := fun pc =>
  match pc with
  | .enqueueSelect _ | .close _ | .setDeadline .read _ | .closeChanged .read _ =>
      inferInstanceAs (Decidable False)
  | .readSelect _ deadline _ => inferInstanceAs (Decidable (deadline = 0))
  | .enqueueCheck _ | .finishRemote _ _ | .readLock _ | .readArm _ | .readErr | .writeArm _
  | .writeSelect _ _ _ | .pumpSelect | .pumpSend _ | .setDeadline .write _
  | .closeChanged .write _ | .returned _ _ => inferInstanceAs (Decidable True)

def StreamAction.Undisturbing : StreamAction → Prop
  | .call c => c.start.Undisturbing
  | _ => True

inductive Delivers (terminal : NetErr) (total : Bytes) : List (Bytes × Option NetErr) → Bytes → Prop
  | nil : Delivers terminal total [] total
  | data {reads : List (Bytes × Option NetErr)} {d left : Bytes}
      (before : Delivers terminal total reads (d ++ left)) (some : d ≠ []) :
      Delivers terminal total (reads ++ [(d, none)]) left
  | ended {reads : List (Bytes × Option NetErr)} (before : Delivers terminal total reads []) :
      Delivers terminal total (reads ++ [([], some terminal)]) []

namespace Delivers

variable {terminal : NetErr} {total left left' : Bytes} {reads : List (Bytes × Option NetErr)}

theorem total_eq (delivers : Delivers terminal total reads left) :
    returnedBytes reads ++ left = total := by
  induction delivers with
  | nil => rfl
  | data before some ih => rw [returnedBytes_snoc, List.append_assoc, ih]
  | ended before ih => rw [returnedBytes_snoc, List.append_nil, ih]

theorem init {result : Bytes × Option NetErr}
    (delivers : Delivers terminal total (reads ++ [result]) left) :
    ∃ before, Delivers terminal total reads before := by
  generalize whole : reads ++ [result] = all at delivers
  cases delivers with
  | nil => simp at whole
  | data before some =>
      obtain ⟨rfl, _⟩ := List.append_inj' whole rfl
      exact ⟨_, before⟩
  | ended before =>
      obtain ⟨rfl, _⟩ := List.append_inj' whole rfl
      exact ⟨_, before⟩

theorem error {e : NetErr} {d : Bytes}
    (delivers : Delivers terminal total (reads ++ [(d, some e)]) left) :
    e = terminal ∧ Delivers terminal total reads [] := by
  generalize whole : reads ++ [(d, some e)] = all at delivers
  cases delivers with
  | nil => simp at whole
  | data before some =>
      obtain ⟨_, last⟩ := List.append_inj' whole rfl
      cases last
  | ended before =>
      obtain ⟨rfl, last⟩ := List.append_inj' whole rfl
      cases last
      exact ⟨rfl, before⟩

end Delivers

namespace StreamSys

structure RemoteFinished (s : StreamSys) : Prop where
  once : s.conn.remoteCloseOnce = .done
  opened : s.conn.closeOnce = .fresh
  noDeadline : s.conn.readDeadline.time = 0
  threads : Each s.threads fun _ pc => pc.Undisturbing

/-- A `Read` whose `select` takes the cancelled context has nothing left to return, and would report
`net.ErrClosed` anyway. -/
def Patient (s : StreamSys) (a : StreamAction) : Prop :=
  ∀ i n deadline changed, a = .move i (.select (.signal .ctxDone)) →
    s.threads[i]? = some (.readSelect n deadline changed) →
    s.conn.undelivered = [] ∧ s.conn.remoteReadErr = .closed

inductive ReadEffect (s : StreamSys) (a : StreamAction) (s' : StreamSys) : Prop
  | quiet (patient : s.Patient a) (reads : s'.log.reads = s.log.reads)
      (left : s'.conn.undelivered = s.conn.undelivered)
  | data (patient : s.Patient a) (d : Bytes) (some : d ≠ [])
      (reads : s'.log.reads = s.log.reads ++ [(d, none)])
      (left : s.conn.undelivered = d ++ s'.conn.undelivered)
  | ended (patient : s.Patient a)
      (reads : s'.log.reads = s.log.reads ++ [([], some s.conn.remoteReadErr)])
      (nothing : s.conn.undelivered = []) (left : s'.conn.undelivered = [])
  | cancelled (patient : s.Patient a ↔ s.conn.undelivered = [] ∧ s.conn.remoteReadErr = .closed)
      (reads : s'.log.reads = s.log.reads ++ [([], some .closed)])
      (left : s'.conn.undelivered = s.conn.undelivered)

variable {s s' : StreamSys} {i : Nat} {k : Choice} {pc pc' : StreamPc}

theorem patient_of_choice (other : k.signal = none) : s.Patient (.move i k) := by
  intro j n deadline changed same
  cases same
  cases other

theorem patient_of_place (here : s.threads[i]? = some pc)
    (other : ∀ n deadline changed, pc ≠ .readSelect n deadline changed) :
    s.Patient (.move i k) := by
  intro j n deadline changed same located
  cases same
  exact absurd (Option.some.inj (here.symm.trans located)) (other n deadline changed)

structure Stays (s : StreamSys) (a : StreamAction) (s' : StreamSys) : Prop where
  finished : s'.RemoteFinished
  err : s'.conn.remoteErr = s.conn.remoteErr
  effect : s.ReadEffect a s'

namespace RemoteFinished

theorem quiet {writeCh : Chan Bytes} {writeDeadline : Deadline} {accepted sent : List Bytes}
    (fin : s.RemoteFinished) (here : s.threads[i]? = some pc) (calm : pc'.Undisturbing)
    (patient : s.Patient (.move i k)) :
    s.Stays (.move i k) { s with
      conn := { s.conn with writeCh, writeDeadline }
      log := { s.log with accepted, sent }
      threads := s.threads.set i pc' } :=
  ⟨⟨fin.once, fin.opened, fin.noDeadline, fin.threads.set here calm fun _ _ _ _ => id⟩, rfl,
    .quiet patient rfl rfl⟩

theorem endRead {data pending : Bytes} {rest : List Bytes} {err err' : Option NetErr} {n : Nat}
    (fin : s.RemoteFinished) (here : s.threads[i]? = some pc)
    (effect : s.ReadEffect (.move i k) { s with
      conn := { s.conn with readCh := { s.conn.readCh with buf := rest }, pending, readMu := false }
      log := { s.log with reads := s.log.reads ++ [(data, err)] }
      threads := s.threads.set i (.returned n err') }) :
    s.Stays (.move i k) { s with
      conn := { s.conn with readCh := { s.conn.readCh with buf := rest }, pending, readMu := false }
      log := { s.log with reads := s.log.reads ++ [(data, err)] }
      threads := s.threads.set i (.returned n err') } :=
  ⟨⟨fin.once, fin.opened, fin.noDeadline, fin.threads.set here trivial fun _ _ _ _ => id⟩, rfl,
    effect⟩

theorem next_moves {c : StreamConn} {log : StreamLog} (fin : s.RemoteFinished) (inv : s.ReadSide)
    (here : s.threads[i]? = some pc)
    (moves : StreamConn.Moves i s.clock s.conn s.log pc k (.next c log pc')) :
    s.Stays (.move i k) { s with conn := c, log, threads := s.threads.set i pc' } := by
  have calm := fin.threads i pc here
  have reads := inv.threads i pc here
  -- nobody is inside `finishRemote` any more
  have outside (running : s.conn.remoteCloseOnce = .running i) : False := by
    cases fin.once.symm.trans running
  cases moves with
  | enqueueChecked passed => cases passed.symm.trans (inv.finished fin.once).1
  | enqueueSends opened room => exact calm.elim
  | enqueueStops ready => exact calm.elim
  | finishEnters once => cases fin.once.symm.trans once
  | finishStores => exact (outside reads).elim
  | finishClosesDone opened => exact (outside reads).elim
  | finishClosesRead opened => exact (outside reads).elim
  | finishCancels => exact (outside reads.1).elim
  | closeEnters once => exact calm.elim
  | closeSkips once => exact calm.elim
  | closeCancels => exact calm.elim
  | closeCloses opened => exact calm.elim
  | @readPending n free some =>
      refine fin.endRead here (.data (patient_of_choice rfl) _ ?_ rfl ?_)
      · exact fun none => some ((List.take_eq_nil_iff.1 none).resolve_left
          (Nat.pos_iff_ne_zero.1 reads))
      · simp only [StreamConn.undelivered]
        rw [← List.append_assoc, List.take_append_drop]
  | readLocks free empty =>
      exact ⟨⟨fin.once, fin.opened, fin.noDeadline, fin.threads.set here trivial fun _ _ _ _ => id⟩,
        rfl, .quiet (patient_of_choice rfl) rfl rfl⟩
  | readArms => exact fin.quiet here fin.noDeadline (patient_of_choice rfl)
  | @readReceives n changed deadline b rest ahead =>
      refine fin.endRead here (.data (patient_of_choice rfl) _ ?_ rfl ?_)
      · have some : b ≠ [] := inv.chunks b (ahead ▸ List.mem_cons_self)
        exact fun none => some ((List.take_eq_nil_iff.1 none).resolve_left
          (Nat.pos_iff_ne_zero.1 reads.1))
      · simp only [StreamConn.undelivered]
        rw [reads.2.2, ahead, List.nil_append, List.flatten_cons, ← List.append_assoc,
          List.take_append_drop]
  | readEnds empty closed => exact fin.quiet here trivial (patient_of_choice rfl)
  | @readTimesOut n changed deadline fired =>
      have never : deadline = 0 := calm
      simp [StreamConn.timerFired, never] at fired
  | readRearms closed => exact fin.quiet here trivial (patient_of_choice rfl)
  | @readStops n changed deadline signal listens ready =>
      cases signal with
      | remoteDone => exact absurd rfl listens
      | localDone => cases (inv.fresh fin.opened).symm.trans ready
      | ctxDone =>
          refine fin.endRead here (.cancelled ⟨fun patient => patient i _ _ _ rfl here, ?_⟩ rfl rfl)
          rintro nothing j _ _ _ _ _
          exact nothing
  | readReports =>
      have nothing : s.conn.undelivered = [] := by
        rw [StreamConn.undelivered, reads.2.1, reads.2.2.2]
        rfl
      exact fin.endRead here (.ended (patient_of_choice rfl) rfl nothing nothing)
  | pumpReceives ahead =>
      refine fin.quiet here ?_ (patient_of_choice rfl)
      split
      · trivial
      · split <;> trivial
  | @deadlineSet side t =>
      cases side with
      | read => exact calm.elim
      | write => exact fin.quiet here trivial (patient_of_choice rfl)
  | @changedCloses side old opened =>
      cases side with
      | read => exact calm.elim
      | write => exact fin.quiet here trivial (patient_of_choice rfl)
  | _ => exact fin.quiet here trivial (patient_of_place here (by simp))

theorem step {a : StreamAction} (fin : s.RemoteFinished) (inv : s.ReadSide)
    (calm : a.Undisturbing) (taken : s.step a = some s') : s.Stays a s' := by
  obtain ⟨_, steps⟩ := steps_of_step taken
  cases steps with
  | call c =>
      exact ⟨⟨fin.once, fin.opened, fin.noDeadline, fin.threads.snoc fun _ => calm⟩, rfl,
        .quiet nofun rfl rfl⟩
  | next here moves => exact fin.next_moves inv here moves
  | @panics i k pc why here moves =>
      refine ⟨⟨fin.once, fin.opened, fin.noDeadline, fin.threads⟩, rfl, .quiet ?_ rfl rfl⟩
      cases moves with
      | _ => exact patient_of_choice rfl
  | tick later => exact ⟨⟨fin.once, fin.opened, fin.noDeadline, fin.threads⟩, rfl, .quiet nofun rfl rfl⟩
  | cancelParent =>
      exact ⟨⟨fin.once, fin.opened, fin.noDeadline, fin.threads⟩, rfl, .quiet nofun rfl rfl⟩

theorem read_ready {n changed : Nat} {deadline : Time} (fin : s.RemoteFinished) (inv : s.ReadSide)
    (running : s.panicked = none) (here : s.threads[i]? = some (.readSelect n deadline changed)) :
    (s.step (.move i (.select .data))).isSome := by
  have closed := (inv.finished fin.once).2
  simp only [StreamSys.step, running, Option.isSome_none, Bool.false_eq_true, if_false, here,
    StreamConn.move, StreamConn.readStep, Option.isSome_map, Chan.recv, closed, if_true]
  split <;> rfl

end RemoteFinished

def readsSince (s₀ s : StreamSys) : List (Bytes × Option NetErr) :=
  s.log.reads.drop s₀.log.reads.length

structure Delivering (s₀ : StreamSys) (trace : List (StreamSys × StreamAction)) (s : StreamSys) :
    Prop where
  finished : s.RemoteFinished
  readSide : s.ReadSide
  err : s.conn.remoteErr = s₀.conn.remoteErr
  reads : ∃ new, s.log.reads = s₀.log.reads ++ new ∧
    (Guarded Patient trace →
      Delivers s₀.conn.remoteReadErr s₀.conn.undelivered new s.conn.undelivered) ∧
    (¬Guarded Patient trace →
      ∀ left, ¬Delivers s₀.conn.remoteReadErr s₀.conn.undelivered new left)

namespace Delivering

variable {s₀ : StreamSys} {trace : List (StreamSys × StreamAction)} {a : StreamAction}

theorem start (fin : s₀.RemoteFinished) (inv : s₀.ReadSide) : Delivering s₀ [] s₀ :=
  ⟨fin, inv, rfl, [], (List.append_nil _).symm, fun _ => .nil,
    fun careless => absurd (fun _ member => absurd member List.not_mem_nil) careless⟩

theorem step (run : Delivering s₀ trace s) (stays : s.Stays a s') (inv : s'.ReadSide) :
    Delivering s₀ (trace ++ [(s, a)]) s' := by
  obtain ⟨new, reads, kept, broken⟩ := run.reads
  have err : s.conn.remoteReadErr = s₀.conn.remoteReadErr := by
    simp only [StreamConn.remoteReadErr, run.err]
  refine ⟨stays.finished, inv, stays.err.trans run.err, ?_⟩
  rw [guarded_snoc]
  cases stays.effect with
  | quiet patient reads' left =>
      refine ⟨new, reads'.trans reads, fun guarded => left ▸ kept guarded.1, fun careless => ?_⟩
      exact broken fun guarded => careless ⟨guarded, patient⟩
  | data patient d some reads' left =>
      refine ⟨new ++ [(d, none)], by rw [reads', reads, List.append_assoc],
        fun guarded => .data (left ▸ kept guarded.1) some, fun careless left' delivers => ?_⟩
      obtain ⟨before, delivered⟩ := delivers.init
      exact broken (fun guarded => careless ⟨guarded, patient⟩) before delivered
  | ended patient reads' nothing left =>
      refine ⟨new ++ [([], some s.conn.remoteReadErr)], by rw [reads', reads, List.append_assoc],
        fun guarded => ?_, fun careless left' delivers => ?_⟩
      · rw [left, err]
        exact .ended (nothing ▸ kept guarded.1)
      · obtain ⟨before, delivered⟩ := delivers.init
        exact broken (fun guarded => careless ⟨guarded, patient⟩) before delivered
  | cancelled patient reads' left =>
      refine ⟨new ++ [([], some .closed)], by rw [reads', reads, List.append_assoc],
        fun guarded => ?_, fun careless left' delivers => ?_⟩
      · obtain ⟨nothing, closed⟩ := patient.1 guarded.2
        rw [left, nothing, ← err, closed]
        exact closed ▸ err ▸ .ended (nothing ▸ kept guarded.1)
      · obtain ⟨terminal, before⟩ := delivers.error
        by_cases guarded : Guarded Patient trace
        · -- what is left is determined by the results, so nothing was left when the `select` gave up
          have same := before.total_eq.trans (kept guarded).total_eq.symm
          have nothing : s.conn.undelivered = [] := (List.append_cancel_left same).symm
          exact careless ⟨guarded, patient.2 ⟨nothing, err.trans terminal.symm⟩⟩
        · exact broken guarded _ before

end Delivering

/-- After the remote has finished, and with neither a local `Close` nor a read deadline, the results
of `Read` are all that was enqueued and then the remote's error, exactly if no `select` prefers the
cancelled context to data. No `Read` is stuck. -/
theorem reads_deliver_iff {hasSend : Bool} {clock : Time}
    {setup trace : List (StreamSys × StreamAction)} {s₀ s : StreamSys} {total : Bytes}
    (reached : Exec step (newStreamConn hasSend clock) setup s₀) (finished : s₀.RemoteFinished)
    (enqueued : returnedBytes s₀.log.reads ++ total = s₀.log.enqueued.flatten)
    (exec : Exec step s₀ trace s) (calm : Guarded (fun _ a => a.Undisturbing) trace) :
    ((∃ left, Delivers s₀.conn.remoteReadErr total (readsSince s₀ s) left) ↔
      Guarded Patient trace) ∧
    (s.panicked = none → ∀ i n deadline changed,
      s.threads[i]? = some (.readSelect n deadline changed) →
      (s.step (.move i (.select .data))).isSome) := by
  have inv := readSide_of_exec reached
  have run : Delivering s₀ trace s :=
    exec.invariant (P := Delivering s₀) (.start finished inv)
      (fun _ _ _ _ _ run calm taken =>
        run.step (run.finished.step run.readSide calm taken) (run.readSide.step taken)) calm
  obtain ⟨new, reads, kept, broken⟩ := run.reads
  have all : s₀.conn.undelivered = total :=
    List.append_cancel_left (inv.conserved.trans enqueued.symm)
  have since : readsSince s₀ s = new := by rw [readsSince, reads, List.drop_left]
  rw [since, ← all]
  refine ⟨⟨fun ⟨left, delivers⟩ => ?_, fun guarded => ⟨_, kept guarded⟩⟩,
    fun running i n deadline changed here => run.finished.read_ready run.readSide running here⟩
  by_contra careless
  exact broken careless left delivers

def oneChunk : List StreamAction :=
  [.call (.enqueueRead [7]), .move 1 .run, .move 1 (.select .data), .call (.finishRemote none)] ++
    runs 2 5

def onlyReads (trace : List (StreamSys × StreamAction)) : Bool :=
  trace.all fun entry =>
    match entry.2 with
    | .call (.read _) | .move _ _ => true
    | _ => false

def readsPass (actions : List StreamAction)
    (test : List (StreamSys × StreamAction) → List (Bytes × Option NetErr) → Bool)
    (s₀ : StreamSys) : Bool :=
  decide (s₀.conn.remoteCloseOnce = .done ∧ s₀.conn.closeOnce = .fresh ∧
    s₀.conn.readDeadline.time = 0 ∧ (∀ pc ∈ s₀.threads, pc.Undisturbing) ∧
    s₀.conn.remoteErr = none ∧ s₀.log.reads = [] ∧ s₀.log.enqueued = [[7]]) &&
  (play step [] s₀ actions).any fun p => onlyReads p.1 && test p.1 p.2.log.reads

theorem exists_reads (actions : List StreamAction)
    (test : List (StreamSys × StreamAction) → List (Bytes × Option NetErr) → Bool)
    (passed : (play step [] (newStreamConn true 0) oneChunk).any
      (fun p => readsPass actions test p.2) = true) :
    ∃ setup s₀, Exec step (newStreamConn true 0) setup s₀ ∧ s₀.RemoteFinished ∧
      s₀.conn.remoteReadErr = .eof ∧ returnedBytes s₀.log.reads ++ [7] = s₀.log.enqueued.flatten ∧
      ∃ trace s, Exec step s₀ trace s ∧ Guarded (fun _ a => a.Undisturbing) trace ∧
        test trace (readsSince s₀ s) = true := by
  obtain ⟨setup, s₀, reached, -, good⟩ := exec_of_play step (newStreamConn true 0) oneChunk
    (fun _ => readsPass actions test) passed
  obtain ⟨ready, played⟩ := Bool.and_eq_true_iff.1 good
  obtain ⟨once, opened, noDeadline, threads, noErr, noReads, enqueued⟩ := of_decide_eq_true ready
  obtain ⟨trace, s, exec, -, tested⟩ := exec_of_play step s₀ actions
    (fun trace s => onlyReads trace && test trace s.log.reads) played
  obtain ⟨calm, result⟩ := Bool.and_eq_true_iff.1 tested
  refine ⟨setup, s₀, reached,
    ⟨once, opened, noDeadline, fun i pc located => threads pc (List.mem_of_getElem? located)⟩,
    by rw [StreamConn.remoteReadErr, noErr], by rw [noReads, enqueued]; rfl, trace, s, exec, ?_, ?_⟩
  · intro entry member
    have only := List.all_eq_true.1 calm entry member
    rcases entry with ⟨state, action⟩
    cases action with
    | call c =>
        cases c with
        | read n =>
            simp only [StreamAction.Undisturbing, StreamCall.start]
            split <;> trivial
        | _ => cases only
    | _ => trivial
  · rw [readsSince, noReads]
    exact result

/-- The one chunk is in the channel, the remote has ended, and `Read` reports a closed connection. -/
theorem tail_lost : ∃ setup s₀, Exec step (newStreamConn true 0) setup s₀ ∧ s₀.RemoteFinished ∧
    returnedBytes s₀.log.reads ++ [7] = s₀.log.enqueued.flatten ∧
    ∃ trace s, Exec step s₀ trace s ∧ Guarded (fun _ a => a.Undisturbing) trace ∧
      readsSince s₀ s = [([], some .closed)] ∧
      ∀ left, ¬Delivers s₀.conn.remoteReadErr [7] (readsSince s₀ s) left := by
  obtain ⟨setup, s₀, reached, finished, eof, enqueued, trace, s, exec, calm, result⟩ := exists_reads
    (.call (.read 4) :: runs 3 2 ++ [.move 3 (.select (.signal .ctxDone))])
    (fun _ reads => reads = [([], some .closed)]) (by decide +kernel)
  have results : readsSince s₀ s = [] ++ [([], some .closed)] := of_decide_eq_true result
  refine ⟨setup, s₀, reached, finished, enqueued, trace, s, exec, calm, results, ?_⟩
  intro left delivers
  rw [results, eof] at delivers
  exact absurd delivers.error.1 nofun

theorem chunk_then_eof : ∃ setup s₀, Exec step (newStreamConn true 0) setup s₀ ∧
    s₀.RemoteFinished ∧ ∃ trace s, Exec step s₀ trace s ∧ Guarded Patient trace ∧
      readsSince s₀ s = [([7], none), ([], some .eof)] ∧
      ∃ left, Delivers s₀.conn.remoteReadErr [7] (readsSince s₀ s) left := by
  obtain ⟨setup, s₀, reached, finished, _, enqueued, trace, s, exec, calm, result⟩ := exists_reads
    (.call (.read 4) :: runs 3 2 ++ .move 3 (.select .data) :: .call (.read 4) :: runs 4 2 ++
      [.move 4 (.select .data), .move 4 .run])
    (fun trace reads => (trace.all fun entry => entry.2.signal = none) &&
      reads = [([7], none), ([], some .eof)]) (by decide +kernel)
  obtain ⟨patient, results⟩ := Bool.and_eq_true_iff.1 result
  have guarded : Guarded Patient trace := by
    rintro entry member i n deadline changed same
    have other := of_decide_eq_true (List.all_eq_true.1 patient entry member)
    rw [same] at other
    cases other
  exact ⟨setup, s₀, reached, finished, trace, s, exec, guarded, of_decide_eq_true results,
    (reads_deliver_iff reached finished enqueued exec calm).1.2 guarded⟩

end StreamSys

end S5lb
