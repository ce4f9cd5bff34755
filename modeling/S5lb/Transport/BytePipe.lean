import S5lb.Transport.ReadSide
import S5lb.Transport.WriteSide

/-! What passes through a stream connection, and the calls it comes from. -/

namespace S5lb

open Go Transition Threads

inductive Handover (place : StreamPc → Option Bytes) (slices : List Bytes) (pc : StreamPc) :
    List Bytes → StreamPc → Prop
  | same {pc' : StreamPc} (places : place pc' = place pc) : Handover place slices pc slices pc'
  | refused {b : Bytes} {err : NetErr} (here : place pc = some b) :
      Handover place slices pc slices (.returned 0 (some err))
  | passed {b : Bytes} (here : place pc = some b) :
      Handover place slices pc (slices ++ [b]) (.returned b.length none)

structure Traffic where
  slice : StreamCall → Option Bytes
  place : StreamPc → Option Bytes
  slices : StreamLog → List Bytes
  empty : slices ⟨[], [], [], []⟩ = []
  idle : place .pumpSelect = none
  ended : ∀ n err, place (.returned n err) = none
  begins : ∀ c : StreamCall, place c.start = slice c
  moves : ∀ {i : Nat} {clock : Time} {c c' : StreamConn} {log log' : StreamLog} {pc pc' : StreamPc}
    {k : Choice}, StreamConn.Moves i clock c log pc k (.next c' log' pc') →
    Handover place (slices log) pc (slices log') pc'

namespace StreamPc

def enqueues : StreamPc → Option Bytes
  | .enqueueCheck b | .enqueueSelect b => some b
  | _ => none

def writes : StreamPc → Option Bytes
  | .writeArm b | .writeSelect b _ _ => some b
  | _ => none

end StreamPc

namespace StreamCall

def enqueued : StreamCall → Option Bytes
  | .enqueueRead p => if p = [] then none else some p
  | _ => none

def written : StreamCall → Option Bytes
  | .write p => if p = [] then none else some p
  | _ => none

theorem start_enqueues (c : StreamCall) : c.start.enqueues = c.enqueued := by
  cases c with
  | enqueueRead p =>
      simp only [start, enqueued]
      split <;> rfl
  | read n =>
      simp only [start]
      split <;> rfl
  | write p =>
      simp only [start]
      split <;> rfl
  | _ => rfl

theorem start_writes (c : StreamCall) : c.start.writes = c.written := by
  cases c with
  | enqueueRead p =>
      simp only [start]
      split <;> rfl
  | read n =>
      simp only [start]
      split <;> rfl
  | write p =>
      simp only [start, written]
      split <;> rfl
  | _ => rfl

end StreamCall

namespace Traffic

def enqueueing : Traffic where
  slice := StreamCall.enqueued
  place := StreamPc.enqueues
  slices := StreamLog.enqueued
  empty := rfl
  idle := rfl
  ended _ _ := rfl
  begins := StreamCall.start_enqueues
  moves moves := by
    cases moves with
    | enqueueRefused refused => exact .refused rfl
    | enqueueSends opened room => exact .passed rfl
    | enqueueStops ready => exact .refused rfl
    | pumpReceives ahead =>
        refine .same ?_
        split
        · rfl
        · split <;> rfl
    | _ => exact .same rfl

def writing : Traffic where
  slice := StreamCall.written
  place := StreamPc.writes
  slices := StreamLog.accepted
  empty := rfl
  idle := rfl
  ended _ _ := rfl
  begins := StreamCall.start_writes
  moves moves := by
    cases moves with
    | writeSends opened room => exact .passed rfl
    | writeTimesOut fired => exact .refused rfl
    | writeStops ready => exact .refused rfl
    | pumpReceives ahead =>
        refine .same ?_
        split
        · rfl
        · split <;> rfl
    | _ => exact .same rfl

end Traffic

def calls (trace : List (StreamSys × StreamAction)) : List StreamCall :=
  trace.filterMap fun
    | (_, .call c) => some c
    | _ => none

theorem calls_snoc (trace : List (StreamSys × StreamAction)) (s : StreamSys) (a : StreamAction) :
    calls (trace ++ [(s, a)]) = calls trace ++ calls [(s, a)] := by
  simp [calls]

namespace Traffic

variable (t : Traffic)

def sliceAt (trace : List (StreamSys × StreamAction)) : Nat → Option Bytes
  | 0 => none
  | i + 1 => (calls trace)[i]?.bind t.slice

structure Accounts (trace : List (StreamSys × StreamAction)) (s : StreamSys) (order : List Nat) :
    Prop where
  distinct : order.Nodup
  slices : order.map (t.sliceAt trace) = (t.slices s.log).map some
  returned : ∀ i p, t.sliceAt trace i = some p →
    (i ∈ order ↔ s.threads[i]? = some (.returned p.length none))

variable {t} {trace : List (StreamSys × StreamAction)} {s s' : StreamSys} {a : StreamAction}
  {order : List Nat} {i : Nat} {pc pc' : StreamPc} {conn : StreamConn} {log : StreamLog}

theorem sliceAt_old {c : StreamCall} (old : i < (calls trace).length + 1) :
    t.sliceAt (trace ++ [(s, .call c)]) i = t.sliceAt trace i := by
  cases i with
  | zero => rfl
  | succ i =>
      rw [sliceAt, calls_snoc, List.getElem?_append_left (Nat.lt_of_succ_lt_succ old)]
      rfl

theorem sliceAt_new (c : StreamCall) :
    t.sliceAt (trace ++ [(s, .call c)]) ((calls trace).length + 1) = t.slice c := by
  rw [sliceAt, calls_snoc, List.getElem?_append_right (Nat.le_refl _), Nat.sub_self]
  rfl

theorem sliceAt_none (late : (calls trace).length + 1 ≤ i) : t.sliceAt trace i = none := by
  cases i with
  | zero => rfl
  | succ i =>
      rw [sliceAt, List.getElem?_eq_none (Nat.le_of_succ_le_succ late)]
      rfl

theorem sliceAt_other (other : calls [(s, a)] = []) :
    t.sliceAt (trace ++ [(s, a)]) = t.sliceAt trace := by
  funext i
  cases i with
  | zero => rfl
  | succ i => rw [sliceAt, calls_snoc, other, List.append_nil, sliceAt]

def At (t : Traffic) : Option Bytes → StreamPc → Prop
  | none, pc => t.place pc = none
  | some p, pc => t.place pc = some p ∨ pc = .returned p.length none ∨ ∃ err, pc = .returned 0 (some err)

structure Kept (t : Traffic) (trace : List (StreamSys × StreamAction)) (s : StreamSys) : Prop where
  size : s.threads.length = (calls trace).length + 1
  places : Each s.threads fun i pc => t.At (t.sliceAt trace i) pc
  accounts : ∃ order, t.Accounts trace s order

theorem kept_newStreamConn (hasSend : Bool) (clock : Time) :
    t.Kept [] (StreamSys.newStreamConn hasSend clock) := by
  refine ⟨rfl, ?_, [], List.nodup_nil, ?_, ?_⟩
  · intro i pc located
    obtain ⟨bound, rfl⟩ := List.getElem?_eq_some_iff.1 located
    cases Nat.lt_one_iff.1 bound
    exact t.idle
  · exact congrArg (List.map some) t.empty.symm
  · intro i p slice
    cases i <;> cases slice

theorem Accounts.mem_threads (accounts : t.Accounts trace s order) (member : i ∈ order) :
    ∃ p, t.sliceAt trace i = some p ∧ s.threads[i]? = some (.returned p.length none) := by
  have mapped : t.sliceAt trace i ∈ (t.slices s.log).map some :=
    accounts.slices ▸ List.mem_map_of_mem member
  obtain ⟨p, -, slice⟩ := List.mem_map.1 mapped
  exact ⟨p, slice.symm, (accounts.returned i p slice.symm).1 member⟩

theorem Accounts.call (accounts : t.Accounts trace s order)
    (size : s.threads.length = (calls trace).length + 1) (c : StreamCall) :
    t.Accounts (trace ++ [(s, .call c)]) { s with threads := s.threads ++ [c.start] } order := by
  have old {i : Nat} (member : i ∈ order) : i < s.threads.length := by
    obtain ⟨p, -, there⟩ := accounts.mem_threads member
    exact (List.getElem?_eq_some_iff.1 there).1
  refine ⟨accounts.distinct, ?_, fun i p slice => ?_⟩
  · rw [← accounts.slices]
    exact List.map_congr_left fun i member => sliceAt_old (size ▸ old member)
  · rcases Nat.lt_trichotomy i s.threads.length with before | rfl | after
    · rw [sliceAt_old (size ▸ before)] at slice
      rw [List.getElem?_append_left before]
      exact accounts.returned i p slice
    · rw [size, sliceAt_new, ← t.begins] at slice
      rw [List.getElem?_append_right (Nat.le_refl _), Nat.sub_self]
      refine ⟨fun member => absurd (old member) (Nat.lt_irrefl _), fun there => ?_⟩
      rw [Option.some.inj there, t.ended] at slice
      cases slice
    · rw [sliceAt_none] at slice
      · cases slice
      · rw [calls_snoc, List.length_append]
        exact size ▸ after

theorem Accounts.set (accounts : t.Accounts trace s order) (here : s.threads[i]? = some pc)
    (slices : t.slices log = t.slices s.log)
    (still : ∀ p, t.sliceAt trace i = some p →
      (pc = .returned p.length none ↔ pc' = .returned p.length none)) :
    t.Accounts trace { s with conn, log, threads := s.threads.set i pc' } order := by
  refine ⟨accounts.distinct, slices ▸ accounts.slices, fun j p slice => ?_⟩
  rw [accounts.returned j p slice]
  by_cases self : j = i
  · subst self
    rw [here, List.getElem?_set_self (List.getElem?_eq_some_iff.1 here).1]
    simpa using still p slice
  · rw [List.getElem?_set_ne (Ne.symm self)]

theorem Accounts.pass (accounts : t.Accounts trace s order) (here : s.threads[i]? = some pc)
    {p : Bytes} (slice : t.sliceAt trace i = some p) (going : t.place pc = some p)
    (slices : t.slices log = t.slices s.log ++ [p]) :
    t.Accounts trace { s with conn, log, threads := s.threads.set i (.returned p.length none) }
      (order ++ [i]) := by
  have fresh : i ∉ order := by
    intro member
    obtain ⟨_, -, there⟩ := accounts.mem_threads member
    rw [Option.some.inj (here.symm.trans there), t.ended] at going
    cases going
  refine ⟨List.nodup_append.2 ⟨accounts.distinct, by simp, ?_⟩, ?_, fun j q slice' => ?_⟩
  · intro j member k last same
    exact fresh (List.mem_singleton.1 last ▸ same ▸ member)
  · rw [List.map_append, accounts.slices, slices, List.map_append, List.map_singleton, slice]
    rfl
  · rw [List.mem_append, List.mem_singleton, accounts.returned j q slice']
    by_cases self : j = i
    · subst self
      cases slice.symm.trans slice'
      simp [List.getElem?_set_self (List.getElem?_eq_some_iff.1 here).1]
    · simp [List.getElem?_set_ne (Ne.symm self), self]

theorem place_of_moves {k : Choice} {p : Bytes} (at_ : t.At (some p) pc)
    (moves : StreamConn.Moves i s.clock s.conn s.log pc k (.next conn log pc')) :
    t.place pc = some p := by
  rcases at_ with going | rfl | ⟨err, rfl⟩
  · exact going
  · cases moves
  · cases moves

theorem Kept.next {k : Choice} (kept : t.Kept trace s) (here : s.threads[i]? = some pc)
    (moves : StreamConn.Moves i s.clock s.conn s.log pc k (.next conn log pc')) :
    t.Kept (trace ++ [(s, .move i k)]) { s with conn, log, threads := s.threads.set i pc' } := by
  have other : calls [(s, .move i k)] = [] := rfl
  have same : t.sliceAt (trace ++ [(s, .move i k)]) = t.sliceAt trace := sliceAt_other other
  have mine : t.At (t.sliceAt trace i) pc := kept.places i pc here
  obtain ⟨order, accounts⟩ := kept.accounts
  suffices after : t.At (t.sliceAt trace i) pc' ∧ ∃ order, t.Accounts trace
      { s with conn, log, threads := s.threads.set i pc' } order by
    refine ⟨?_, ?_, ?_⟩
    · rw [List.length_set, calls_snoc, other, List.append_nil]
      exact kept.size
    · rw [same]
      exact kept.places.set here after.1 fun _ _ _ _ => id
    · obtain ⟨order, accounts⟩ := after.2
      exact ⟨order, accounts.distinct, same ▸ accounts.slices, same ▸ accounts.returned⟩
  cases slice : t.sliceAt trace i with
  | none =>
      rw [slice] at mine
      have nothing : t.place pc = none := mine
      have handover := t.moves moves
      generalize slices' : t.slices log = after at handover
      cases handover with
      | same places =>
          exact ⟨places.trans nothing, order, accounts.set here slices' fun p own => by
            rw [slice] at own
            cases own⟩
      | refused going => cases nothing.symm.trans going
      | passed going => cases nothing.symm.trans going
  | some p =>
      rw [slice] at mine
      have going := place_of_moves mine moves
      have unreturned {n : Nat} {err : Option NetErr} {place : StreamPc} (going : t.place place = some p) :
          place ≠ .returned n err := by
        rintro rfl
        rw [t.ended] at going
        cases going
      have handover := t.moves moves
      generalize slices' : t.slices log = after at handover
      cases handover with
      | same places =>
          have going' := places.trans going
          exact ⟨.inl going', order, accounts.set here slices' fun q _ =>
            ⟨fun returned => absurd returned (unreturned going),
              fun returned => absurd returned (unreturned going')⟩⟩
      | refused =>
          exact ⟨.inr (.inr ⟨_, rfl⟩), order, accounts.set here slices' fun q _ =>
            ⟨fun returned => absurd returned (unreturned going),
              fun returned => absurd (StreamPc.returned.inj returned).2 nofun⟩⟩
      | passed there =>
          cases going.symm.trans there
          exact ⟨.inr (.inl rfl), order ++ [i], accounts.pass here slice going slices'⟩

theorem Kept.step (kept : t.Kept trace s) (taken : s.step a = some s') :
    t.Kept (trace ++ [(s, a)]) s' := by
  obtain ⟨_, steps⟩ := StreamSys.steps_of_step taken
  obtain ⟨order, accounts⟩ := kept.accounts
  have still {s'' : StreamSys} (other : calls [(s, a)] = []) (threads : s''.threads = s.threads)
      (log : s''.log = s.log) : t.Kept (trace ++ [(s, a)]) s'' := by
    have same : t.sliceAt (trace ++ [(s, a)]) = t.sliceAt trace := sliceAt_other other
    refine ⟨?_, ?_, order, accounts.distinct, ?_, ?_⟩
    · rw [threads, calls_snoc, other, List.append_nil]
      exact kept.size
    · rw [threads, same]
      exact kept.places
    · rw [log, same]
      exact accounts.slices
    · rw [threads, same]
      exact accounts.returned
  cases steps with
  | call c =>
      refine ⟨?_, ?_, order, accounts.call kept.size c⟩
      · rw [List.length_append, kept.size, calls_snoc, List.length_append]
        rfl
      · intro i pc located
        rcases located_snoc located with ⟨rfl, rfl⟩ | located
        · rw [kept.size, sliceAt_new, ← t.begins]
          cases place : t.place c.start with
          | none => exact place
          | some p => exact .inl place
        · rw [sliceAt_old (kept.size ▸ (List.getElem?_eq_some_iff.1 located).1)]
          exact kept.places i pc located
  | next here moves => exact kept.next here moves
  | panics here moves => exact still rfl rfl rfl
  | tick later => exact still rfl rfl rfl
  | cancelParent => exact still rfl rfl rfl

theorem kept_of_exec {hasSend : Bool} {clock : Time}
    (exec : Exec StreamSys.step (StreamSys.newStreamConn hasSend clock) trace s) : t.Kept trace s := by
  induction exec with
  | nil => exact kept_newStreamConn hasSend clock
  | snoc before taken kept => exact kept.step taken

end Traffic

namespace StreamSys

structure Mute (s : StreamSys) : Prop where
  hasSend : s.conn.hasSend = false
  idle : Each s.threads fun _ pc => pc.flight = []
  sent : s.log.sent = []

namespace Mute

variable {s s' : StreamSys} {i : Nat} {k : Choice} {pc pc' : StreamPc} {c : StreamConn}
  {log : StreamLog}

theorem inflight_nil (mute : s.Mute) : inflight s.threads = [] := by
  cases first : s.threads[0]? with
  | none =>
      rw [inflight, first]
      rfl
  | some pc => rw [inflight_at first, mute.idle 0 pc first]

theorem next (mute : s.Mute) (here : s.threads[i]? = some pc)
    (moves : StreamConn.Moves i s.clock s.conn s.log pc k (.next c log pc')) :
    Mute { s with conn := c, log, threads := s.threads.set i pc' } := by
  have mine : pc.flight = [] := mute.idle i pc here
  have quiet (hasSend : c.hasSend = s.conn.hasSend) (sent : log.sent = s.log.sent)
      (flight : pc'.flight = []) : Mute { s with conn := c, log, threads := s.threads.set i pc' } :=
    ⟨hasSend.trans mute.hasSend, mute.idle.set here flight fun _ _ _ _ => id, sent.trans mute.sent⟩
  cases moves with
  | pumpReceives ahead =>
      refine quiet rfl rfl ?_
      rw [mute.hasSend]
      split <;> rfl
  | pumpSends => cases mine
  | pumpFails => cases mine
  | @deadlineSet side t => cases side <;> exact quiet rfl rfl rfl
  | @changedCloses side old opened => cases side <;> exact quiet rfl rfl rfl
  | _ => exact quiet rfl rfl rfl

theorem step {a : StreamAction} (mute : s.Mute) (taken : s.step a = some s') : s'.Mute := by
  obtain ⟨_, steps⟩ := steps_of_step taken
  cases steps with
  | call c => exact ⟨mute.hasSend, mute.idle.snoc fun _ => c.start_flight, mute.sent⟩
  | next here moves => exact mute.next here moves
  | panics here moves => exact ⟨mute.hasSend, mute.idle, mute.sent⟩
  | tick later => exact ⟨mute.hasSend, mute.idle, mute.sent⟩
  | cancelParent => exact ⟨mute.hasSend, mute.idle, mute.sent⟩

end Mute

theorem mute_newStreamConn (clock : Time) : (newStreamConn false clock).Mute := by
  refine ⟨rfl, ?_, rfl⟩
  intro i pc located
  cases List.mem_singleton.1 (List.mem_of_getElem? located)
  rfl

theorem sent_of_exec {hasSend : Bool} {clock : Time} {trace : List (StreamSys × StreamAction)}
    {s : StreamSys} (exec : Exec step (newStreamConn hasSend clock) trace s) :
    s.log.sent ++ inflight s.threads <+: s.log.accepted := by
  cases hasSend with
  | true => exact ⟨_, (writeSide_of_exec exec).conserved⟩
  | false =>
      have mute := exec.stable (mute_newStreamConn clock) fun _ _ _ mute taken => mute.step taken
      rw [mute.sent, mute.inflight_nil]
      exact List.nil_prefix

/-- The bytes read are a beginning of those enqueued, and the slices sent, with the one that is being
sent, a beginning of those accepted. What is enqueued and what is accepted comes from the calls that
have returned without an error, and from no other. -/
theorem ordered_pipe (hasSend : Bool) (clock : Time) (trace : List (StreamSys × StreamAction))
    (s : StreamSys) (exec : Exec step (newStreamConn hasSend clock) trace s) :
    returnedBytes s.log.reads <+: s.log.enqueued.flatten ∧
    s.log.sent ++ inflight s.threads <+: s.log.accepted ∧
    (∃ order, Traffic.enqueueing.Accounts trace s order) ∧
    ∃ order, Traffic.writing.Accounts trace s order :=
  ⟨⟨_, (readSide_of_exec exec).conserved⟩, sent_of_exec exec, (Traffic.kept_of_exec exec).accounts,
    (Traffic.kept_of_exec exec).accounts⟩

/-- A chunk is read in two parts around a `Read` that times out, and of two writes the one that is
refused because the connection is closed is not among the slices. -/
theorem ordered_pipe_close : ∃ trace s, Exec step (newStreamConn true 0) trace s ∧
    s.log.reads = [([1, 2], none), ([3], none), ([], some (.timeout "read"))] ∧
    s.log.sent = [[7]] ∧ s.threads[6]? = some (.returned 0 (some .closed)) ∧
    returnedBytes s.log.reads <+: s.log.enqueued.flatten ∧
    s.log.sent ++ inflight s.threads <+: s.log.accepted ∧
    ∃ order, Traffic.writing.Accounts trace s order ∧ 6 ∉ order := by
  obtain ⟨trace, s, exec, _, tested⟩ := exec_of_play step (newStreamConn true 0)
    (([.call (.enqueueRead [1, 2, 3]), .move 1 .run, .move 1 (.select .data),
      .call (.read 2), .move 2 .run, .move 2 .run, .move 2 (.select .data),
      .call (.read 2), .move 3 .run, .call (.setDeadline .read 5), .move 4 .run, .move 4 .run,
      .tick 9, .call (.write [7]), .move 5 .run, .move 5 (.select .data),
      .move 0 (.select .data), .move 0 (.sendReturns none),
      .call (.write [8]), .move 6 .run, .call .close, .move 7 .run, .move 7 .run, .move 7 .run,
      .move 6 (.select (.signal .localDone)), .call (.read 2), .move 8 .run, .move 8 .run,
      .move 8 (.select .timer)] : List StreamAction))
    (fun past s => decide (s.log.reads = [([1, 2], none), ([3], none), ([], some (.timeout "read"))] ∧
      s.log.sent = [[7]] ∧ s.threads[6]? = some (StreamPc.returned 0 (some .closed)) ∧
      Traffic.writing.sliceAt past 6 = some [8])) (by decide +kernel)
  obtain ⟨reads, sent, refused, slice⟩ := of_decide_eq_true tested
  obtain ⟨received, passed, -, order, accounts⟩ := ordered_pipe true 0 trace s exec
  refine ⟨trace, s, exec, reads, sent, refused, received, passed, order, accounts, fun member => ?_⟩
  have returned := (accounts.returned 6 [8] slice).1 member
  exact absurd (StreamPc.returned.inj (Option.some.inj (refused.symm.trans returned))).2 nofun

end StreamSys

end S5lb
