import S5lb.Transport.WriteSide

namespace S5lb

open Go Transition Threads

def StreamPc.Writing : StreamPc → Prop
  | .writeArm _ | .writeSelect _ _ _ => True
  | _ => False

def StreamPc.Closing : StreamPc → Prop
  | .close _ => True
  | _ => False

def StreamPc.Pumping : StreamPc → Prop
  | .pumpSelect | .pumpSend _ | .returned _ _ => True
  | _ => False

def StreamConn.PcAlive (c : StreamConn) : StreamPc → Prop
  | .finishRemote _ _ => False
  | .close .cancel | .close .closeDone => c.closeOnce ≠ .fresh
  | _ => True

namespace StreamSys

def CloseBegun (s : StreamSys) : Prop :=
  s.conn.closeOnce ≠ .fresh ∨ ∃ (i : Nat) (pc : StreamPc), s.threads[i]? = some pc ∧ pc.Closing

theorem CloseBegun.set {s : StreamSys} {i : Nat} {pc pc' : StreamPc} {c : StreamConn}
    {log : StreamLog} (begun : s.CloseBegun) (here : s.threads[i]? = some pc)
    (kept : s.conn.closeOnce ≠ .fresh → c.closeOnce ≠ .fresh)
    (still : pc.Closing → pc'.Closing ∨ c.closeOnce ≠ .fresh) :
    CloseBegun { s with conn := c, log, threads := s.threads.set i pc' } := by
  rcases begun with once | ⟨j, u, located, closes⟩
  · exact .inl (kept once)
  · by_cases self : j = i
    · subst self
      cases here.symm.trans located
      rcases still closes with closes' | once
      · exact .inr ⟨j, pc', List.getElem?_set_self (List.getElem?_eq_some_iff.1 here).1, closes'⟩
      · exact .inl once
    · exact .inr ⟨j, u, (List.getElem?_set_ne (Ne.symm self)).trans located, closes⟩

/-- The remote is alive, `send` succeeds, and `Close` is called when the calls of `Write` have
returned. -/
def WritesThenClose (s : StreamSys) : StreamAction → Prop
  | .call .close => Each s.threads fun _ pc => ¬pc.Writing
  | .call (.write _) => ¬s.CloseBegun
  | .call (.finishRemote _) => False
  | .move _ (.sendReturns (some _)) => False
  | .cancelParent => False
  | _ => True

/-- The pump heeds a signal only when its queue is empty. -/
def Drained (s : StreamSys) (a : StreamAction) : Prop :=
  ∀ signal, a = .move 0 (.select (.signal signal)) → s.threads[0]? = some .pumpSelect →
    s.conn.writeCh.buf = []

def Stopped (s : StreamSys) : Prop := ∃ n err, s.threads[0]? = some (.returned n err)

structure Orderly (s : StreamSys) : Prop where
  pump : ∃ pc, s.threads[0]? = some pc ∧ pc.Pumping
  alive : s.conn.remoteDone.closed = false
  threads : Each s.threads fun _ pc => s.conn.PcAlive pc
  begun : s.conn.ctxDone = true ∨ s.conn.localDone.closed = true → s.CloseBegun
  exclusive : s.CloseBegun → Each s.threads fun _ pc => ¬pc.Writing

namespace Orderly

variable {s s' : StreamSys} {i : Nat} {k : Choice} {pc pc' : StreamPc} {c : StreamConn}
  {log : StreamLog}

theorem next (inv : s.Orderly) (here : s.threads[i]? = some pc)
    (pump : pc.Pumping → pc'.Pumping) (alive : c.remoteDone.closed = false) (mine : c.PcAlive pc')
    (kept : s.conn.closeOnce ≠ .fresh → c.closeOnce ≠ .fresh)
    (begun : c.ctxDone = true ∨ c.localDone.closed = true →
      c.closeOnce ≠ .fresh ∨ s.conn.ctxDone = true ∨ s.conn.localDone.closed = true)
    (still : pc.Closing → pc'.Closing ∨ c.closeOnce ≠ .fresh)
    (closing : c.closeOnce ≠ .fresh → s.CloseBegun) (writing : pc'.Writing → pc.Writing)
    (noClose : pc'.Closing → s.CloseBegun) :
    Orderly { s with conn := c, log, threads := s.threads.set i pc' } := by
  have bound : i < s.threads.length := (List.getElem?_eq_some_iff.1 here).1
  have before (now : CloseBegun { s with conn := c, log, threads := s.threads.set i pc' }) :
      s.CloseBegun := by
    rcases now with once | ⟨j, u, located, closes⟩
    · exact closing once
    · rcases located_set here located with ⟨rfl, rfl⟩ | ⟨_, located⟩
      · exact noClose closes
      · exact .inr ⟨j, u, located, closes⟩
  refine ⟨?_, alive, inv.threads.set here mine ?_, fun signalled => ?_, fun now => ?_⟩
  · obtain ⟨first, located, pumping⟩ := inv.pump
    by_cases self : i = 0
    · subst self
      cases here.symm.trans located
      exact ⟨pc', List.getElem?_set_self bound, pump pumping⟩
    · exact ⟨first, (List.getElem?_set_ne self).trans located, pumping⟩
  · intro j u _ _ held
    cases u with
    | close pos =>
        cases pos with
        | enter => trivial
        | cancel => exact kept held
        | closeDone => exact kept held
    | _ => exact held
  · rcases begun signalled with once | past
    · exact .inl once
    · exact (inv.begun past).set here kept still
  · exact (inv.exclusive (before now)).set here
      (fun writes => inv.exclusive (before now) i pc here (writing writes)) fun _ _ _ _ => id

theorem next_quiet (inv : s.Orderly) (here : s.threads[i]? = some pc)
    (pump : pc.Pumping → pc'.Pumping) (mine : c.PcAlive pc')
    (remoteDone : c.remoteDone = s.conn.remoteDone) (closeOnce : c.closeOnce = s.conn.closeOnce)
    (ctxDone : c.ctxDone = s.conn.ctxDone) (localDone : c.localDone = s.conn.localDone)
    (writing : pc'.Writing → pc.Writing)
    (closing : pc.Closing → s.conn.closeOnce ≠ .fresh) (closing' : ¬pc'.Closing) :
    Orderly { s with conn := c, log, threads := s.threads.set i pc' } := by
  refine inv.next here pump (remoteDone ▸ inv.alive) mine (by rw [closeOnce]; exact id) ?_ ?_
    (fun once => .inl (by rwa [closeOnce] at once)) writing (fun closes => absurd closes closing')
  · rw [ctxDone, localDone]
    exact .inr
  · intro closes
    rw [closeOnce]
    exact .inr (closing closes)

theorem next_moves (inv : s.Orderly) (side : s.WriteSide) (orderly : s.WritesThenClose (.move i k))
    (here : s.threads[i]? = some pc)
    (moves : StreamConn.Moves i s.clock s.conn s.log pc k (.next c log pc')) :
    Orderly { s with conn := c, log, threads := s.threads.set i pc' } := by
  have mine := inv.threads i pc here
  cases moves with
  | finishEnters once => exact mine.elim
  | finishSkips once => exact mine.elim
  | finishStores => exact mine.elim
  | finishClosesDone opened => exact mine.elim
  | finishClosesRead opened => exact mine.elim
  | finishCancels => exact mine.elim
  | closeEnters once =>
      have begun : s.CloseBegun := .inr ⟨i, _, here, trivial⟩
      exact inv.next here nofun inv.alive nofun (fun _ => nofun) .inr (fun _ => .inl trivial)
        (fun _ => begun) nofun (fun _ => begun)
  | closeSkips once =>
      exact inv.next_quiet here nofun trivial rfl rfl rfl rfl nofun (fun _ => by rw [once]; nofun)
        nofun
  | closeCancels =>
      exact inv.next here nofun inv.alive mine id (fun _ => .inl mine) (fun _ => .inl trivial) .inl
        nofun (fun _ => .inl mine)
  | closeCloses opened =>
      exact inv.next here nofun inv.alive trivial (fun _ => nofun) (fun _ => .inl nofun)
        (fun _ => .inr nofun) (fun _ => .inl mine) nofun nofun
  | enqueueChecked passed =>
      exact inv.next_quiet here nofun trivial rfl rfl rfl rfl nofun nofun nofun
  | readLocks free empty => exact inv.next_quiet here nofun trivial rfl rfl rfl rfl nofun nofun nofun
  | readArms => exact inv.next_quiet here nofun trivial rfl rfl rfl rfl nofun nofun nofun
  | readEnds empty closed => exact inv.next_quiet here nofun trivial rfl rfl rfl rfl nofun nofun nofun
  | readRearms closed => exact inv.next_quiet here nofun trivial rfl rfl rfl rfl nofun nofun nofun
  | writeArms =>
      exact inv.next_quiet here nofun trivial rfl rfl rfl rfl (fun _ => trivial) nofun nofun
  | writeRearms closed =>
      exact inv.next_quiet here nofun trivial rfl rfl rfl rfl (fun _ => trivial) nofun nofun
  | @pumpReceives b rest ahead =>
      have some : b ≠ [] := side.chunks b (ahead ▸ List.mem_cons_self)
      rw [if_neg some, if_pos side.hasSend]
      exact inv.next_quiet here (fun _ => trivial) trivial rfl rfl rfl rfl nofun nofun nofun
  | pumpFails => exact orderly.elim
  | @deadlineSet side t =>
      cases side <;> exact inv.next_quiet here nofun trivial rfl rfl rfl rfl nofun nofun nofun
  | @changedCloses side old opened =>
      cases side <;> exact inv.next_quiet here nofun trivial rfl rfl rfl rfl nofun nofun nofun
  | _ => exact inv.next_quiet here (fun _ => trivial) trivial rfl rfl rfl rfl nofun nofun nofun

theorem call (inv : s.Orderly) {call : StreamCall} (orderly : s.WritesThenClose (.call call)) :
    Orderly { s with threads := s.threads ++ [call.start] } := by
  obtain ⟨first, located, pumping⟩ := inv.pump
  have pump : (s.threads ++ [call.start])[0]? = some first := by
    rw [List.getElem?_append_left (List.getElem?_eq_some_iff.1 located).1]
    exact located
  have alive : s.conn.PcAlive call.start := by
    cases call with
    | finishRemote err => exact orderly.elim
    | enqueueRead p => simp only [StreamCall.start]; split <;> trivial
    | read n => simp only [StreamCall.start]; split <;> trivial
    | write p => simp only [StreamCall.start]; split <;> trivial
    | _ => trivial
  refine ⟨⟨first, pump, pumping⟩, inv.alive, inv.threads.snoc fun _ => alive, fun signalled => ?_,
    fun now => ?_⟩
  · rcases inv.begun signalled with once | ⟨j, u, there, closes⟩
    · exact .inl once
    · refine .inr ⟨j, u, ?_, closes⟩
      rw [List.getElem?_append_left (List.getElem?_eq_some_iff.1 there).1]
      exact there
  · have before : s.CloseBegun ∨ call = .close := by
      rcases now with once | ⟨j, u, there, closes⟩
      · exact .inl (.inl once)
      · rcases located_snoc there with ⟨_, rfl⟩ | there
        · refine .inr ?_
          cases call <;> simp only [StreamCall.start] at closes <;> (try split at closes) <;>
            first | rfl | exact closes.elim
        · exact .inl (.inr ⟨j, u, there, closes⟩)
    rcases before with past | rfl
    · refine (inv.exclusive past).snoc fun _ writes => ?_
      cases call with
      | write p => exact orderly past
      | enqueueRead p => simp only [StreamCall.start] at writes; split at writes <;> exact writes
      | read n => simp only [StreamCall.start] at writes; split at writes <;> exact writes
      | _ => exact writes
    · exact Each.snoc orderly fun _ => id

theorem step {a : StreamAction} (inv : s.Orderly) (side : s.WriteSide)
    (orderly : s.WritesThenClose a) (taken : s.step a = some s') : s'.Orderly := by
  obtain ⟨_, steps⟩ := steps_of_step taken
  cases steps with
  | call c => exact inv.call orderly
  | next here moves => exact inv.next_moves side orderly here moves
  | panics here moves => exact ⟨inv.pump, inv.alive, inv.threads, inv.begun, inv.exclusive⟩
  | tick later => exact ⟨inv.pump, inv.alive, inv.threads, inv.begun, inv.exclusive⟩
  | cancelParent => exact orderly.elim

theorem not_first (inv : s.Orderly) (here : s.threads[i]? = some pc) (other : ¬pc.Pumping) :
    i ≠ 0 := by
  rintro rfl
  obtain ⟨first, located, pumping⟩ := inv.pump
  cases here.symm.trans located
  exact other pumping

end Orderly

theorem drained_of_ne {s : StreamSys} {i : Nat} {k : Choice} (other : i ≠ 0) :
    s.Drained (.move i k) := by
  intro signal same
  cases same
  exact absurd rfl other

theorem drained_of_choice {s : StreamSys} {i : Nat} {k : Choice}
    (other : k.signal = none) : s.Drained (.move i k) := by
  intro signal same
  cases same
  cases other

inductive PumpEffect (s : StreamSys) (a : StreamAction) (s' : StreamSys) : Prop
  | quiet (drained : s.Drained a) (pump : s'.threads[0]? = s.threads[0]?)
      (buf : s'.conn.writeCh.buf = s.conn.writeCh.buf)
  | accepted (drained : s.Drained a) (pump : s'.threads[0]? = s.threads[0]?) (b : Bytes)
      (buf : s'.conn.writeCh.buf = s.conn.writeCh.buf ++ [b]) (writer : ¬s.CloseBegun)
  | pumped (drained : s.Drained a) (running : ¬s.Stopped) (still : ¬s'.Stopped)
  | stopped (drained : s.Drained a ↔ s.conn.writeCh.buf = []) (running : ¬s.Stopped)
      (stop : s'.Stopped) (buf : s'.conn.writeCh.buf = s.conn.writeCh.buf) (begun : s.CloseBegun)

section Effect

variable {s s' : StreamSys} {i : Nat} {k : Choice} {pc pc' : StreamPc} {c : StreamConn}
  {log : StreamLog} {a : StreamAction}

theorem not_stopped_at (here : s.threads[0]? = some pc) (other : ∀ n err, pc ≠ .returned n err) :
    ¬s.Stopped := by
  rintro ⟨n, err, located⟩
  exact other n err (Option.some.inj (here.symm.trans located))

theorem Orderly.effect_moves (inv : s.Orderly) (side : s.WriteSide)
    (orderly : s.WritesThenClose (.move i k)) (here : s.threads[i]? = some pc)
    (moves : StreamConn.Moves i s.clock s.conn s.log pc k (.next c log pc')) :
    s.PumpEffect (.move i k) { s with conn := c, log, threads := s.threads.set i pc' } := by
  have mine := side.threads i pc here
  have bound : i < s.threads.length := (List.getElem?_eq_some_iff.1 here).1
  have besides (other : ¬pc.Pumping) (buf : c.writeCh.buf = s.conn.writeCh.buf) :
      s.PumpEffect (.move i k) { s with conn := c, log, threads := s.threads.set i pc' } :=
    have ne := inv.not_first here other
    .quiet (drained_of_ne ne) (List.getElem?_set_ne ne) buf
  cases moves with
  | @writeSends b changed deadline opened room =>
      have ne := inv.not_first here id
      exact .accepted (drained_of_ne ne) (List.getElem?_set_ne ne) b rfl
        fun begun => inv.exclusive begun i _ here trivial
  | @pumpReceives b rest ahead =>
      cases mine
      have some : b ≠ [] := side.chunks b (ahead ▸ List.mem_cons_self)
      rw [if_neg some, if_pos side.hasSend]
      exact .pumped (drained_of_choice rfl) (not_stopped_at here nofun)
        (not_stopped_at (List.getElem?_set_self bound) nofun)
  | pumpIdles empty closed => exact absurd (side.opened.symm.trans closed) nofun
  | @pumpStops signal ready =>
      cases mine
      refine .stopped ⟨fun drained => drained signal rfl here, fun empty _ _ _ => empty⟩
        (not_stopped_at here nofun) ⟨_, _, List.getElem?_set_self bound⟩ rfl ?_
      cases signal with
      | localDone => exact inv.begun (.inr ready)
      | remoteDone => exact absurd (inv.alive.symm.trans ready) nofun
      | ctxDone => exact inv.begun (.inl ready)
  | pumpSends =>
      cases mine
      exact .pumped (drained_of_choice rfl) (not_stopped_at here nofun)
        (not_stopped_at (List.getElem?_set_self bound) nofun)
  | pumpFails => exact orderly.elim
  | @deadlineSet side t => cases side <;> exact besides id rfl
  | @changedCloses side old opened => cases side <;> exact besides id rfl
  | _ => exact besides id rfl

theorem Orderly.effect (inv : s.Orderly) (side : s.WriteSide) (orderly : s.WritesThenClose a)
    (taken : s.step a = some s') : s.PumpEffect a s' := by
  obtain ⟨_, steps⟩ := steps_of_step taken
  cases steps with
  | call call =>
      obtain ⟨first, located, _⟩ := inv.pump
      refine .quiet nofun ?_ rfl
      exact List.getElem?_append_left (List.getElem?_eq_some_iff.1 located).1
  | next here moves => exact inv.effect_moves side orderly here moves
  | panics here moves =>
      refine .quiet ?_ rfl rfl
      cases moves <;> exact drained_of_choice rfl
  | tick later => exact .quiet nofun rfl rfl
  | cancelParent => exact orderly.elim

theorem CloseBegun.step (begun : s.CloseBegun) (taken : s.step a = some s') : s'.CloseBegun := by
  obtain ⟨_, steps⟩ := steps_of_step taken
  cases steps with
  | call call =>
      rcases begun with once | ⟨j, u, located, closes⟩
      · exact .inl once
      · refine .inr ⟨j, u, ?_, closes⟩
        exact (List.getElem?_append_left (List.getElem?_eq_some_iff.1 located).1).trans located
  | @next i k pc pc' conn log here moves =>
      cases moves with
      | closeEnters once => exact begun.set here (fun _ => nofun) (fun _ => .inl trivial)
      | closeSkips once => exact begun.set here id fun _ => .inr (by rw [once]; nofun)
      | closeCancels => exact begun.set here id fun _ => .inl trivial
      | closeCloses opened => exact begun.set here (fun _ => nofun) fun _ => .inr nofun
      | @deadlineSet side t => cases side <;> exact begun.set here id nofun
      | @changedCloses side old opened => cases side <;> exact begun.set here id nofun
      | _ => exact begun.set here id nofun
  | panics here moves => exact begun
  | tick later => exact begun
  | cancelParent => exact begun

end Effect

structure CloseRun (trace : List (StreamSys × StreamAction)) (s : StreamSys) : Prop where
  orderly : s.Orderly
  writeSide : s.WriteSide
  stop : s.Stopped → s.CloseBegun
  drained : Guarded Drained trace → s.Stopped → s.conn.writeCh.buf = []
  lost : ¬Guarded Drained trace → s.Stopped ∧ s.conn.writeCh.buf ≠ []

theorem closeRun_newStreamConn (clock : Time) : CloseRun [] (newStreamConn true clock) := by
  have running : ¬(newStreamConn true clock).Stopped := by
    rintro ⟨_, _, located⟩
    cases located
  refine ⟨⟨⟨_, rfl, trivial⟩, rfl, ?_, ?_, ?_⟩, writeSide_newStreamConn clock,
    fun stopped => absurd stopped running, fun _ stopped => absurd stopped running,
    fun careless => absurd (fun _ member => absurd member List.not_mem_nil) careless⟩
  · intro i pc located
    cases List.mem_singleton.1 (List.mem_of_getElem? located)
    trivial
  · rintro (cancelled | closed)
    · cases cancelled
    · cases closed
  · intro _ i pc located
    cases List.mem_singleton.1 (List.mem_of_getElem? located)
    exact id

theorem CloseRun.step {trace : List (StreamSys × StreamAction)} {s s' : StreamSys}
    {a : StreamAction} (run : CloseRun trace s) (orderly : s.WritesThenClose a)
    (taken : s.step a = some s') : CloseRun (trace ++ [(s, a)]) s' := by
  have inv := run.orderly.step run.writeSide orderly taken
  have side := run.writeSide.step taken
  cases run.orderly.effect run.writeSide orderly taken with
  | quiet drained pump buf =>
      have same : s'.Stopped ↔ s.Stopped := by rw [Stopped, pump, Stopped]
      refine ⟨inv, side, fun stopped => (run.stop (same.1 stopped)).step taken, ?_, ?_⟩ <;>
        rw [guarded_snoc, same, buf]
      · exact fun guarded => run.drained guarded.1
      · exact fun careless => run.lost fun guarded => careless ⟨guarded, drained⟩
  | accepted drained pump b buf writer =>
      have running : ¬s.Stopped := fun stopped => writer (run.stop stopped)
      have same : s'.Stopped ↔ s.Stopped := by rw [Stopped, pump, Stopped]
      refine ⟨inv, side, fun stopped => absurd (same.1 stopped) running,
        fun _ stopped => absurd (same.1 stopped) running, fun careless => ?_⟩
      rw [guarded_snoc] at careless
      exact absurd (run.lost fun guarded => careless ⟨guarded, drained⟩).1 running
  | pumped drained running still =>
      refine ⟨inv, side, fun stopped => absurd stopped still, fun _ stopped => absurd stopped still,
        fun careless => ?_⟩
      rw [guarded_snoc] at careless
      exact absurd (run.lost fun guarded => careless ⟨guarded, drained⟩).1 running
  | stopped drained running stop buf begun =>
      refine ⟨inv, side, fun _ => begun.step taken, ?_, ?_⟩ <;> rw [guarded_snoc, buf]
      · exact fun guarded _ => drained.1 guarded.2
      · refine fun careless => ⟨stop, fun empty => ?_⟩
        by_cases guarded : Guarded Drained trace
        · exact careless ⟨guarded, drained.2 empty⟩
        · exact running (run.lost guarded).1

theorem pump_ready {s : StreamSys} (running : s.panicked = none)
    (waiting : s.conn.writeCh.buf ≠ []) (here : s.threads[0]? = some .pumpSelect) :
    (s.step (.move 0 (.select .data))).isSome := by
  obtain ⟨b, rest, ahead⟩ := List.exists_cons_of_ne_nil waiting
  simp [StreamSys.step, running, here, StreamConn.move, StreamConn.pumpStep, Chan.recv, ahead]

/-- Written slices reach `send` in order, and once the pump has stopped all of them have, exactly if
it never preferred the signal of a `Close` to its queue. -/
theorem writes_survive_close_iff {clock : Time} {trace : List (StreamSys × StreamAction)}
    {s : StreamSys} (exec : Exec step (newStreamConn true clock) trace s)
    (orderly : Guarded WritesThenClose trace) :
    s.log.sent <+: s.log.accepted ∧
      ((s.Stopped → s.log.sent = s.log.accepted) ↔ Guarded Drained trace) ∧
      (s.panicked = none → s.conn.writeCh.buf ≠ [] → s.threads[0]? = some .pumpSelect →
        (s.step (.move 0 (.select .data))).isSome) := by
  have run : CloseRun trace s :=
    exec.invariant (P := CloseRun) (closeRun_newStreamConn clock)
      (fun _ _ _ _ _ run orderly taken => run.step orderly taken) orderly
  have conserved := run.writeSide.conserved
  refine ⟨⟨_, by rw [← List.append_assoc]; exact conserved⟩, ⟨fun kept => ?_, fun guarded stopped => ?_⟩,
    pump_ready⟩
  · by_contra careless
    obtain ⟨stopped, some⟩ := run.lost careless
    rw [kept stopped, List.append_assoc] at conserved
    exact some (List.append_eq_nil_iff.1 (List.append_right_eq_self.1 conserved)).2
  · obtain ⟨n, err, located⟩ := id stopped
    rw [inflight_at located, run.drained guarded stopped] at conserved
    simpa [StreamPc.flight] using conserved

def writesThenClose (s : StreamSys) : StreamAction → Bool
  | .call .close => s.threads.all fun
      | .writeArm _ | .writeSelect _ _ _ => false
      | _ => true
  | .call (.write _) => s.conn.closeOnce = .fresh && s.threads.all fun
      | .close _ => false
      | _ => true
  | .call (.finishRemote _) | .move _ (.sendReturns (some _)) | .cancelParent => false
  | _ => true

theorem writesThenClose_of_test {s : StreamSys} {a : StreamAction}
    (good : s.writesThenClose a = true) : s.WritesThenClose a := by
  cases a with
  | call c =>
      cases c with
      | close =>
          intro i pc located writes
          have kept := List.all_eq_true.1 good pc (List.mem_of_getElem? located)
          cases pc <;> first | exact writes | cases kept
      | write p =>
          obtain ⟨fresh, none⟩ := Bool.and_eq_true_iff.1 good
          rintro (begun | ⟨i, pc, located, closes⟩)
          · exact begun (of_decide_eq_true fresh)
          · have kept := List.all_eq_true.1 none pc (List.mem_of_getElem? located)
            cases pc <;> first | exact closes | cases kept
      | finishRemote err => cases good
      | _ => trivial
  | move i k =>
      cases k with
      | sendReturns err =>
          cases err with
          | none => trivial
          | some e => cases good
      | _ => trivial
  | tick now => trivial
  | cancelParent => cases good

def oneWrite : List StreamAction := [.call (.write [1]), .move 1 .run, .move 1 (.select .data)]

/-- The slice is accepted; then the connection is closed and the pump heeds the context first. -/
theorem written_bytes_lost : ∃ trace s, Exec step (newStreamConn true 0) trace s ∧
    Guarded WritesThenClose trace ∧ s.Stopped ∧ s.log.accepted = [[1]] ∧ s.log.sent = [] := by
  obtain ⟨trace, s, exec, -, good⟩ := exec_of_play step (newStreamConn true 0)
    (oneWrite ++ .call .close :: runs 2 2 ++ [.move 0 (.select (.signal .ctxDone))])
    (fun trace s => (trace.all fun entry => entry.1.writesThenClose entry.2) &&
      decide (s.threads[0]? = some (StreamPc.returned 0 none) ∧ s.log.accepted = [[1]] ∧ s.log.sent = []))
    (by decide +kernel)
  obtain ⟨tested, result⟩ := Bool.and_eq_true_iff.1 good
  obtain ⟨stopped, accepted, sent⟩ := of_decide_eq_true result
  exact ⟨trace, s, exec, fun entry member =>
    writesThenClose_of_test (List.all_eq_true.1 tested entry member), ⟨_, _, stopped⟩, accepted, sent⟩

theorem written_bytes_sent_when_drained : ∃ trace s, Exec step (newStreamConn true 0) trace s ∧
    Guarded WritesThenClose trace ∧ s.Stopped ∧ s.log.accepted = [[1]] ∧
      s.log.sent = s.log.accepted := by
  obtain ⟨trace, s, exec, -, good⟩ := exec_of_play step (newStreamConn true 0)
    (oneWrite ++ [.move 0 (.select .data), .move 0 (.sendReturns none)] ++ .call .close :: runs 2 2 ++
      [.move 0 (.select (.signal .ctxDone))])
    (fun trace s => (trace.all fun entry => entry.1.writesThenClose entry.2) &&
      (decide (s.threads[0]? = some (StreamPc.returned 0 none) ∧ s.log.accepted = [[1]]) &&
        trace.all fun entry => entry.2.signal = none ∨ entry.1.conn.writeCh.buf = []))
    (by decide +kernel)
  obtain ⟨tested, result⟩ := Bool.and_eq_true_iff.1 good
  obtain ⟨ended, empties⟩ := Bool.and_eq_true_iff.1 result
  obtain ⟨returned, accepted⟩ := of_decide_eq_true ended
  have orderly : Guarded WritesThenClose trace := fun entry member =>
    writesThenClose_of_test (List.all_eq_true.1 tested entry member)
  have drained : Guarded Drained trace := by
    intro entry member signal same _
    rcases of_decide_eq_true (List.all_eq_true.1 empties entry member) with other | empty
    · rw [same] at other
      cases other
    · exact empty
  have stopped : s.Stopped := ⟨_, _, returned⟩
  exact ⟨trace, s, exec, orderly, stopped, accepted,
    (writes_survive_close_iff exec orderly).2.1.2 drained stopped⟩

end StreamSys

end S5lb
