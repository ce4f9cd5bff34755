import S5lb.Transport.ChannelSafety

/-! A change of a deadline reaches the calls that are blocked: `SetReadDeadline` and
`SetWriteDeadline` replace the notification channel and close the old one. -/

namespace S5lb

open Go Transition Threads

def Side.op : Side → String
  | .read => "read"
  | .write => "write"

namespace StreamPc

def arming : StreamPc → Option Side
  | .readArm _ => some .read
  | .writeArm _ => some .write
  | _ => none

def armed : StreamPc → Option (Side × Time × Nat)
  | .readSelect _ deadline changed => some (.read, deadline, changed)
  | .writeSelect _ deadline changed => some (.write, deadline, changed)
  | _ => none

def replacing (side : Side) : StreamPc → Option Nat
  | .closeChanged side' old => if side' = side then some old else none
  | _ => none

theorem eq_of_replacing {side : Side} {pc : StreamPc} {old : Nat}
    (holds : pc.replacing side = some old) : pc = .closeChanged side old := by
  cases pc with
  | closeChanged side' old' =>
      obtain ⟨rfl, rfl⟩ : side' = side ∧ old' = old := by simpa [replacing] using holds
      rfl
  | _ => cases holds

end StreamPc

theorem StreamCall.start_armed (c : StreamCall) : c.start.armed = none := by
  cases c <;> simp only [start] <;> (try split) <;> rfl

theorem StreamCall.start_replacing (c : StreamCall) (side : Side) :
    c.start.replacing side = none := by
  cases c <;> simp only [start] <;> (try split) <;> rfl

namespace StreamConn

inductive Retimes (c : StreamConn) : StreamPc → StreamConn → StreamPc → Prop
  | leaves {pc pc' : StreamPc} {c' : StreamConn} (same : ∀ side, c'.deadline side = c.deadline side)
      (unarmed : pc'.armed = none) (idle : ∀ side, pc.replacing side = none)
      (idle' : ∀ side, pc'.replacing side = none) : Retimes c pc c' pc'
  | arms {pc pc' : StreamPc} {side : Side} (arming : pc.arming = some side)
      (armed : pc'.armed = some (side, (c.deadline side).time, (c.deadline side).changed))
      (idle : ∀ side, pc.replacing side = none) (idle' : ∀ side, pc'.replacing side = none) :
      Retimes c pc c pc'
  | sets {side : Side} {t : Time} :
      Retimes c (.setDeadline side t)
        (c.withDeadline side
          { c.deadline side with time := t, changed := (c.deadline side).changed + 1 })
        (.closeChanged side (c.deadline side).changed)
  | closes {side : Side} {old : Nat} (opened : old ∉ (c.deadline side).closed) :
      Retimes c (.closeChanged side old)
        (c.withDeadline side { c.deadline side with closed := (c.deadline side).closed ++ [old] })
        (.returned 0 none)

variable {i : Nat} {clock : Time} {c c' : StreamConn} {log log' : StreamLog} {pc pc' : StreamPc}
  {k : Choice} {side : Side} {deadline : Time} {changed : Nat}

theorem retimes_of_moves (moves : Moves i clock c log pc k (.next c' log' pc')) :
    c.Retimes pc c' pc' := by
  have same (side : Side) : c.deadline side = c.deadline side := rfl
  cases moves with
  | readArms => exact .arms rfl rfl (fun _ => rfl) fun _ => rfl
  | writeArms => exact .arms rfl rfl (fun _ => rfl) fun _ => rfl
  | pumpReceives ahead =>
      refine .leaves same ?_ (fun _ => rfl) fun side => ?_ <;> split
      · rfl
      · split <;> rfl
      · rfl
      · split <;> rfl
  | deadlineSet => exact .sets
  | changedCloses opened => exact .closes opened
  | _ => exact .leaves same rfl (fun _ => rfl) fun _ => rfl

theorem run_of_arming {out : StreamOutcome} (arming : pc.arming = some side)
    (moves : Moves i clock c log pc k out) : k = .run := by
  cases moves <;> first | rfl | cases arming

variable (i clock log) in
theorem move_timer (armed : pc.armed = some (side, deadline, changed))
    (fired : timerFired deadline clock = true) :
    ∃ c' log', c.move i clock log pc (.select .timer) =
      some (.next c' log' (.returned 0 (some (.timeout side.op)))) := by
  cases pc with
  | readSelect n _ _ =>
      cases armed
      exact ⟨_, _, if_pos fired⟩
  | writeSelect b _ _ =>
      cases armed
      exact ⟨_, _, if_pos fired⟩
  | _ => cases armed

variable (i clock log) in
theorem move_changed (armed : pc.armed = some (side, deadline, changed))
    (closed : changed ∈ (c.deadline side).closed) :
    ∃ pc', pc'.arming = some side ∧
      c.move i clock log pc (.select .changed) = some (.next c log pc') := by
  cases pc with
  | readSelect n _ _ =>
      cases armed
      exact ⟨.readArm n, rfl, if_pos closed⟩
  | writeSelect b _ _ =>
      cases armed
      exact ⟨.writeArm b, rfl, if_pos closed⟩
  | _ => cases armed

variable (i clock log) in
theorem move_arm (arming : pc.arming = some side) :
    ∃ pc', pc'.armed = some (side, (c.deadline side).time, (c.deadline side).changed) ∧
      c.move i clock log pc .run = some (.next c log pc') := by
  cases pc with
  | readArm n =>
      cases arming
      exact ⟨_, rfl, rfl⟩
  | writeArm b =>
      cases arming
      exact ⟨_, rfl, rfl⟩
  | _ => cases arming

theorem timer_of_moves {out : StreamOutcome}
    (moves : Moves i clock c log pc (.select .timer) out) :
    ∃ side deadline changed c' log', pc.armed = some (side, deadline, changed) ∧
      timerFired deadline clock = true ∧
      out = .next c' log' (.returned 0 (some (.timeout side.op))) := by
  cases moves with
  | readTimesOut fired => exact ⟨.read, _, _, _, _, rfl, fired, rfl⟩
  | writeTimesOut fired => exact ⟨.write, _, _, _, _, rfl, fired, rfl⟩

end StreamConn

namespace StreamSys

variable {s s' : StreamSys} {a : StreamAction} {i : Nat} {k : Choice} {pc pc' : StreamPc}
  {c : StreamConn} {log : StreamLog} {side : Side} {deadline : Time} {changed : Nat}

theorem step_move (running : s.panicked = none) (here : s.threads[i]? = some pc)
    (moved : s.conn.move i s.clock s.log pc k = some (.next c log pc')) :
    s.step (.move i k) = some { s with conn := c, log, threads := s.threads.set i pc' } := by
  simp only [step, running, Option.isSome_none, Bool.false_eq_true, if_false, here, moved,
    Option.map_some]

/-- A call that is blocked on this side has read the deadline that is set, or the channel it listens
on has been replaced; and a channel that has been replaced is closed or about to be. -/
structure Announced (d : Deadline) (side : Side) (threads : List StreamPc) : Prop where
  armed : Each threads fun _ pc => ∀ deadline changed, pc.armed = some (side, deadline, changed) →
    changed ≤ d.changed ∧ (changed = d.changed → deadline = d.time)
  replaced : ∀ old < d.changed, old ∈ d.closed ∨ ∃ pc ∈ threads, pc.replacing side = some old
  closing : Each threads fun _ pc => ∀ old, pc.replacing side = some old →
    old < d.changed ∧ old ∉ d.closed
  closed : ∀ old ∈ d.closed, old < d.changed
  sole : Sole threads (StreamPc.replacing side)

namespace Announced

variable {d : Deadline} {threads : List StreamPc}

theorem mem_set_of_replacing {u : StreamPc} {old : Nat} (here : threads[i]? = some pc)
    (idle : pc.replacing side ≠ some old) (member : u ∈ threads) (holds : u.replacing side = some old) :
    ∃ u ∈ threads.set i pc', u.replacing side = some old := by
  obtain ⟨j, located⟩ := List.mem_iff_getElem?.1 member
  have other : j ≠ i := by
    rintro rfl
    cases here.symm.trans located
    exact idle holds
  exact ⟨u, List.mem_of_getElem? ((List.getElem?_set_ne (Ne.symm other)).trans located), holds⟩

theorem keep (inv : Announced d side threads) (here : threads[i]? = some pc)
    (mine : ∀ deadline changed, pc'.armed = some (side, deadline, changed) →
      changed = d.changed ∧ deadline = d.time)
    (idle : pc.replacing side = none) (idle' : pc'.replacing side = none) :
    Announced d side (threads.set i pc') where
  armed := by
    refine inv.armed.set here (fun deadline changed armed => ?_) fun _ _ _ _ => id
    obtain ⟨current, read⟩ := mine deadline changed armed
    exact ⟨current.le, fun _ => read⟩
  replaced old before := by
    refine (inv.replaced old before).imp_right ?_
    rintro ⟨u, member, holds⟩
    exact mem_set_of_replacing here (by rw [idle]; nofun) member holds
  closing := inv.closing.set here (fun _ holds => absurd (idle'.symm.trans holds) nofun)
    fun _ _ _ _ => id
  closed := inv.closed
  sole := inv.sole.set here fun _ holds => absurd (idle'.symm.trans holds) nofun

theorem sets {t : Time} (inv : Announced d side threads)
    (here : threads[i]? = some (.setDeadline side t)) :
    Announced { d with time := t, changed := d.changed + 1 } side
      (threads.set i (.closeChanged side d.changed)) where
  armed := by
    refine inv.armed.set here nofun fun j u _ _ held deadline changed armed => ?_
    have old := (held deadline changed armed).1
    exact ⟨Nat.le_succ_of_le old, fun new => absurd (new ▸ old) (Nat.not_succ_le_self _)⟩
  replaced old before := by
    rcases Nat.lt_succ_iff_lt_or_eq.1 before with earlier | rfl
    · refine (inv.replaced old earlier).imp_right ?_
      rintro ⟨u, member, holds⟩
      exact mem_set_of_replacing here nofun member holds
    · have bound := (List.getElem?_eq_some_iff.1 here).1
      exact .inr ⟨_, List.mem_of_getElem? (List.getElem?_set_self bound), if_pos rfl⟩
  closing := by
    refine inv.closing.set here (fun old holds => ?_) fun j u _ _ held old holds => ?_
    · cases (if_pos rfl).symm.trans holds
      exact ⟨Nat.lt_succ_self _, fun closed => absurd (inv.closed _ closed) (Nat.lt_irrefl _)⟩
    · obtain ⟨before, opened⟩ := held old holds
      exact ⟨Nat.lt_succ_of_lt before, opened⟩
  closed old closed := Nat.lt_succ_of_lt (inv.closed old closed)
  sole := by
    refine inv.sole.set here fun old holds j u _ located own => ?_
    cases (if_pos rfl).symm.trans holds
    exact absurd (inv.closing j u located _ own).1 (Nat.lt_irrefl _)

theorem closes {old : Nat} (inv : Announced d side threads)
    (here : threads[i]? = some (.closeChanged side old)) :
    Announced { d with closed := d.closed ++ [old] } side (threads.set i (.returned 0 none)) where
  armed := inv.armed.set here nofun fun _ _ _ _ => id
  replaced old' before := by
    rw [List.mem_append, List.mem_singleton]
    by_cases now : old' = old
    · exact .inl (.inr now)
    · refine (inv.replaced old' before).imp .inl ?_
      rintro ⟨u, member, holds⟩
      refine mem_set_of_replacing here (fun same => now ?_) member holds
      exact Option.some.inj (same.symm.trans (if_pos rfl))
  closing := by
    refine inv.closing.set here nofun fun j u other located held old' holds => ?_
    obtain ⟨before, opened⟩ := held old' holds
    refine ⟨before, fun closed => ?_⟩
    rcases List.mem_append.1 closed with earlier | now
    · exact opened earlier
    · cases List.mem_singleton.1 now
      exact other (inv.sole j i u _ old located here holds (if_pos rfl))
  closed old' closed := by
    rcases List.mem_append.1 closed with earlier | now
    · exact inv.closed old' earlier
    · cases List.mem_singleton.1 now
      exact (inv.closing i _ here old (if_pos rfl)).1
  sole := inv.sole.set here nofun

theorem snoc (inv : Announced d side threads) (unarmed : pc.armed = none)
    (idle : pc.replacing side = none) : Announced d side (threads ++ [pc]) where
  armed := inv.armed.snoc fun _ _ _ armed => absurd (unarmed.symm.trans armed) nofun
  replaced old before := by
    refine (inv.replaced old before).imp_right ?_
    rintro ⟨u, member, holds⟩
    exact ⟨u, List.mem_append_left _ member, holds⟩
  closing := inv.closing.snoc fun _ _ holds => absurd (idle.symm.trans holds) nofun
  closed := inv.closed
  sole := inv.sole.snoc idle

end Announced

def Notifying (s : StreamSys) : Prop := ∀ side, Announced (s.conn.deadline side) side s.threads

namespace Notifying

theorem next (inv : s.Notifying) (here : s.threads[i]? = some pc)
    (retimes : s.conn.Retimes pc c pc') :
    Notifying { s with conn := c, log, threads := s.threads.set i pc' } := by
  intro side
  cases retimes with
  | leaves same unarmed idle idle' =>
      rw [same]
      exact (inv side).keep here (fun _ _ armed => absurd (unarmed.symm.trans armed) nofun) (idle side)
        (idle' side)
  | arms arming armed idle idle' =>
      refine (inv side).keep here (fun deadline changed own => ?_) (idle side) (idle' side)
      cases armed.symm.trans own
      exact ⟨rfl, rfl⟩
  | @sets side' t =>
      dsimp only
      rw [StreamConn.deadline_withDeadline]
      split
      · rename_i same
        subst same
        exact (inv side).sets here
      · rename_i other
        exact (inv side).keep here nofun rfl (if_neg (Ne.symm other))
  | @closes side' old opened =>
      dsimp only
      rw [StreamConn.deadline_withDeadline]
      split
      · rename_i same
        subst same
        exact (inv side).closes here
      · rename_i other
        exact (inv side).keep here nofun (if_neg (Ne.symm other)) rfl

theorem step (inv : s.Notifying) (taken : s.step a = some s') : s'.Notifying := by
  obtain ⟨_, steps⟩ := steps_of_step taken
  cases steps with
  | call c => exact fun side => (inv side).snoc c.start_armed (c.start_replacing side)
  | next here moves => exact inv.next here (StreamConn.retimes_of_moves moves)
  | panics here moves => exact inv
  | tick later => exact inv
  | cancelParent => exact inv

end Notifying

theorem notifying_newStreamConn (hasSend : Bool) (clock : Time) :
    (newStreamConn hasSend clock).Notifying := by
  have first {i : Nat} {pc : StreamPc} (located : [StreamPc.pumpSelect][i]? = some pc) :
      pc = .pumpSelect := List.mem_singleton.1 (List.mem_of_getElem? located)
  intro side
  refine ⟨?_, ?_, ?_, ?_, ?_⟩
  · intro i pc located deadline changed armed
    cases first located
    cases armed
  · cases side <;> exact fun old before => absurd before (Nat.not_lt_zero old)
  · intro i pc located old holds
    cases first located
    cases holds
  · cases side <;> exact fun old closed => absurd closed List.not_mem_nil
  · intro i j pc pc' old located _ holds
    cases first located
    cases holds

def Helping (i : Nat) (side : Side) (s : StreamSys) (a : StreamAction) : Prop :=
  ∃ j k, a = .move j k ∧ (j = i ∨ ∃ old, s.threads[j]? = some (.closeChanged side old))

def CanTimeOut (i : Nat) (side : Side) (n : Nat) (s : StreamSys) : Prop :=
  ∃ rest s', Exec step s rest s' ∧ Guarded (Helping i side) rest ∧ rest.length ≤ n ∧
    s'.threads[i]? = some (.returned 0 (some (.timeout side.op)))

theorem CanTimeOut.after {n : Nat} (can : CanTimeOut i side n s') (taken : s.step a = some s')
    (helping : Helping i side s a) : CanTimeOut i side (n + 1) s := by
  obtain ⟨rest, s'', exec, guarded, short, done⟩ := can
  refine ⟨[] ++ [(s, a)] ++ rest, s'', (Exec.nil.snoc taken).append exec, ?_, ?_, done⟩
  · intro entry member
    rcases List.mem_append.1 member with first | later
    · cases List.mem_singleton.1 first
      exact helping
    · exact guarded entry later
  · simpa using short

theorem canTimeOut_of_timer (running : s.panicked = none) (here : s.threads[i]? = some pc)
    (armed : pc.armed = some (side, deadline, changed))
    (fired : StreamConn.timerFired deadline s.clock = true) : CanTimeOut i side 1 s := by
  obtain ⟨c, log, moved⟩ := StreamConn.move_timer i s.clock s.log armed fired
  have bound := (List.getElem?_eq_some_iff.1 here).1
  have taken := step_move running here moved
  have done : CanTimeOut i side 0
      { s with conn := c, log, threads := s.threads.set i (.returned 0 (some (.timeout side.op))) } :=
    ⟨[], _, .nil, fun _ member => absurd member List.not_mem_nil, Nat.le_refl _,
      List.getElem?_set_self bound⟩
  exact done.after taken ⟨i, _, rfl, .inl rfl⟩

theorem canTimeOut_of_closed (running : s.panicked = none) (here : s.threads[i]? = some pc)
    (armed : pc.armed = some (side, deadline, changed))
    (closed : changed ∈ (s.conn.deadline side).closed)
    (passed : StreamConn.timerFired (s.conn.deadline side).time s.clock = true) :
    CanTimeOut i side 3 s := by
  have bound := (List.getElem?_eq_some_iff.1 here).1
  obtain ⟨pc₁, arming, woken⟩ := StreamConn.move_changed i s.clock s.log armed closed
  obtain ⟨pc₂, rearmed, armedAgain⟩ := StreamConn.move_arm i s.clock s.log arming
  have here₁ : (s.threads.set i pc₁)[i]? = some pc₁ := List.getElem?_set_self bound
  have here₂ : ((s.threads.set i pc₁).set i pc₂)[i]? = some pc₂ :=
    List.getElem?_set_self (by rwa [List.length_set])
  have last : CanTimeOut i side 1 { s with threads := (s.threads.set i pc₁).set i pc₂ } :=
    canTimeOut_of_timer running here₂ rearmed passed
  have again : CanTimeOut i side 2 { s with threads := s.threads.set i pc₁ } :=
    last.after (step_move (s := { s with threads := s.threads.set i pc₁ }) running here₁ armedAgain)
      ⟨i, _, rfl, .inl rfl⟩
  exact again.after (step_move running here woken) ⟨i, _, rfl, .inl rfl⟩

/-- Whatever the deadline of its side was when a `Read` or a `Write` blocked: once the one that is
set has passed, the call can return a timeout, and waits for nobody but a `SetDeadline` that has
replaced the channel it listens on. -/
theorem blocked_call_times_out {hasSend : Bool} {clock : Time}
    {trace : List (StreamSys × StreamAction)}
    (exec : Exec step (newStreamConn hasSend clock) trace s) (running : s.panicked = none)
    (here : s.threads[i]? = some pc) (armed : pc.armed = some (side, deadline, changed))
    (passed : StreamConn.timerFired (s.conn.deadline side).time s.clock = true) :
    CanTimeOut i side 4 s := by
  have inv := exec.stable (notifying_newStreamConn hasSend clock) (fun _ _ _ inv => inv.step) side
  have longer {m n : Nat} (le : m ≤ n) (can : CanTimeOut i side m s) : CanTimeOut i side n s := by
    obtain ⟨rest, s', exec, guarded, short, done⟩ := can
    exact ⟨rest, s', exec, guarded, short.trans le, done⟩
  obtain ⟨behind, current⟩ := inv.armed i pc here deadline changed armed
  rcases Nat.lt_or_eq_of_le behind with replaced | latest
  · rcases inv.replaced changed replaced with closed | ⟨setter, member, replacing⟩
    · exact longer (by decide) (canTimeOut_of_closed running here armed closed passed)
    · -- the setter closes the channel first
      obtain ⟨j, located⟩ := List.mem_iff_getElem?.1 member
      have opened := (inv.closing j setter located changed replacing).2
      cases StreamPc.eq_of_replacing replacing
      have other : i ≠ j := by
        rintro rfl
        cases here.symm.trans located
        cases armed
      let s₁ : StreamSys := { s with
        conn := s.conn.withDeadline side
          { s.conn.deadline side with closed := (s.conn.deadline side).closed ++ [changed] }
        threads := s.threads.set j (.returned 0 none) }
      have closing : s.step (.move j .run) = some s₁ :=
        step_move running located (if_neg opened)
      have now : s₁.conn.deadline side =
          { s.conn.deadline side with closed := (s.conn.deadline side).closed ++ [changed] } := by
        rw [StreamConn.deadline_withDeadline, if_pos rfl]
      have woken : CanTimeOut i side 3 s₁ := by
        refine canTimeOut_of_closed running ((List.getElem?_set_ne (Ne.symm other)).trans here) armed
          ?_ ?_
        · rw [now]
          exact List.mem_append_right _ (List.mem_singleton_self _)
        · rw [now]
          exact passed
      exact woken.after closing ⟨j, .run, rfl, .inr ⟨changed, located⟩⟩
  · cases current latest
    exact longer (by decide) (canTimeOut_of_timer running here armed passed)

/-- A `Read` blocked without a deadline; one in the past is set and the old channel not yet closed. -/
theorem blocked_read_times_out : ∃ trace s, Exec step (newStreamConn true 5) trace s ∧
    s.threads[1]? = some (.readSelect 8 0 0) ∧ s.threads[2]? = some (.closeChanged .read 0) ∧
    CanTimeOut 1 .read 4 s := by
  obtain ⟨trace, s, exec, -, tested⟩ := exec_of_play step (newStreamConn true 5)
    [.call (.read 8), .move 1 .run, .move 1 .run, .call (.setDeadline .read 3), .move 2 .run]
    (fun _ s => decide (s.panicked = none ∧ s.threads[1]? = some (StreamPc.readSelect 8 0 0) ∧
      s.threads[2]? = some (StreamPc.closeChanged .read 0) ∧
      StreamConn.timerFired (s.conn.deadline .read).time s.clock = true)) (by decide +kernel)
  obtain ⟨running, here, setter, passed⟩ := of_decide_eq_true tested
  exact ⟨trace, s, exec, here, setter, blocked_call_times_out exec running here rfl passed⟩

/-- The last step that goroutine `i` took is the one in which it armed its timer with the deadline then
in force on `side`. -/
def LastArmed (trace : List (StreamSys × StreamAction)) (i : Nat) (side : Side) (deadline : Time) : Prop :=
  ∃ earlier s₀ later pc₀, trace = earlier ++ (s₀, .move i .run) :: later ∧
    (∀ entry ∈ later, ∀ k, entry.2 ≠ .move i k) ∧ s₀.threads[i]? = some pc₀ ∧
    pc₀.arming = some side ∧ (s₀.conn.deadline side).time = deadline

theorem LastArmed.snoc {trace : List (StreamSys × StreamAction)} {side : Side} {deadline : Time}
    (last : LastArmed trace i side deadline) (others : ∀ k, a ≠ .move i k) :
    LastArmed (trace ++ [(s, a)]) i side deadline := by
  obtain ⟨earlier, s₀, later, pc₀, rfl, quiet, rest⟩ := last
  refine ⟨earlier, s₀, later ++ [(s, a)], pc₀, by simp, fun entry member => ?_, rest⟩
  rcases List.mem_append.1 member with member | member
  · exact quiet entry member
  · exact List.mem_singleton.1 member ▸ others

def ArmedInTrace (trace : List (StreamSys × StreamAction)) (s : StreamSys) : Prop :=
  s.panicked = none → Each s.threads fun i pc => ∀ side deadline changed,
    pc.armed = some (side, deadline, changed) → LastArmed trace i side deadline

theorem ArmedInTrace.step {trace : List (StreamSys × StreamAction)} (inv : ArmedInTrace trace s)
    (taken : s.step a = some s') : ArmedInTrace (trace ++ [(s, a)]) s' := by
  intro runs
  obtain ⟨running, steps⟩ := steps_of_step taken
  have held := inv running
  cases steps with
  | call c =>
      intro j u located side deadline changed armed
      rcases located_snoc located with ⟨_, rfl⟩ | located
      · cases c.start_armed.symm.trans armed
      · exact (held j u located side deadline changed armed).snoc nofun
  | @next i k pc pc' conn log here moves =>
      refine Each.set held here ?_ fun j u other _ kept side deadline changed armed => ?_
      · intro side deadline changed armed
        cases StreamConn.retimes_of_moves moves with
        | leaves same unarmed idle idle' => cases unarmed.symm.trans armed
        | arms arming read idle idle' =>
            cases read.symm.trans armed
            cases StreamConn.run_of_arming arming moves
            exact ⟨trace, s, [], pc, rfl, List.forall_mem_nil _, here, arming, rfl⟩
        | sets => cases armed
        | closes opened => cases armed
      · refine (kept side deadline changed armed).snoc fun k' same => ?_
        cases same
        exact other rfl
  | panics here moves => cases runs
  | tick later =>
      exact fun j u located side deadline changed armed =>
        (held j u located side deadline changed armed).snoc nofun
  | cancelParent =>
      exact fun j u located side deadline changed armed =>
        (held j u located side deadline changed armed).snoc nofun

theorem armedInTrace_of_exec {hasSend : Bool} {clock : Time}
    {trace : List (StreamSys × StreamAction)}
    (exec : Exec step (newStreamConn hasSend clock) trace s) : ArmedInTrace trace s := by
  induction exec with
  | nil =>
      intro _ i pc located side deadline changed armed
      cases List.mem_singleton.1 (List.mem_of_getElem? located)
      cases armed
  | snoc before taken ih => exact ih.step taken

/-- A timeout is reported on account of a deadline that was in force on the side of the call at the
call's last step before it, when it armed its timer, and that has passed. -/
theorem timeout_is_due {hasSend : Bool} {clock : Time} {trace : List (StreamSys × StreamAction)}
    (exec : Exec step (newStreamConn hasSend clock) trace s)
    (taken : s.step (.move i (.select .timer)) = some s') :
    ∃ side deadline, s'.threads[i]? = some (.returned 0 (some (.timeout side.op))) ∧
      LastArmed trace i side deadline ∧ StreamConn.timerFired deadline s.clock = true := by
  obtain ⟨running, steps⟩ := steps_of_step taken
  generalize same : StreamAction.move i (.select .timer) = a at steps
  cases steps with
  | next here moves =>
      cases same
      obtain ⟨side, deadline, changed, c, log, armed, fired, out⟩ := StreamConn.timer_of_moves moves
      cases out
      have last := armedInTrace_of_exec exec running i _ here side deadline changed armed
      exact ⟨side, deadline, List.getElem?_set_self (List.getElem?_eq_some_iff.1 here).1, last, fired⟩
  | panics here moves =>
      cases same
      obtain ⟨side, deadline, changed, c, log, armed, fired, out⟩ := StreamConn.timer_of_moves moves
      cases out
  | _ => cases same

/-- The deadline is moved from 3 to 4 while the `Read` is blocked, which arms its timer again. A further
extension to 9 comes too late: the timer has fired and the select takes it. -/
theorem timeout_is_due_extended : ∃ trace s s', Exec step (newStreamConn true 1) trace s ∧
    s.step (.move 2 (.select .timer)) = some s' ∧ (s.conn.deadline .read).time = 9 ∧ s.clock = 4 ∧
    ∃ side deadline, s'.threads[2]? = some (.returned 0 (some (.timeout side.op))) ∧
      LastArmed trace 2 side deadline ∧ StreamConn.timerFired deadline s.clock = true := by
  obtain ⟨trace, s, exec, -, tested⟩ := exec_of_play step (newStreamConn true 1)
    [.call (.setDeadline .read 3), .move 1 .run, .move 1 .run, .call (.read 8), .move 2 .run,
      .move 2 .run, .call (.setDeadline .read 4), .move 3 .run, .move 3 .run, .move 2 (.select .changed),
      .move 2 .run, .tick 4, .call (.setDeadline .read 9), .move 4 .run, .move 4 .run]
    (fun _ s => decide ((s.step (.move 2 (.select .timer))).isSome = true ∧
      (s.conn.deadline .read).time = 9 ∧ s.clock = 4)) (by decide +kernel)
  obtain ⟨ready, extended, now⟩ := of_decide_eq_true tested
  obtain ⟨s', taken⟩ := Option.isSome_iff_exists.1 ready
  exact ⟨trace, s, s', exec, taken, extended, now, timeout_is_due exec taken⟩

end StreamSys

end S5lb
