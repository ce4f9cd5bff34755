import S5lb.Balancer.Slots
import S5lb.Lib.Fifo
import S5lb.Lib.Threads

namespace S5lb.Sys

open Transition Threads
open Fifo (Event Run)

/-- `answer` ends a section of `pick` with any result and any change beside the queue: the order of
service does not depend on what the selectors choose. -/
inductive FreeAction
  | act (a : Action)
  | answer (i : Nat) (lb : LoadBalancer) (result : PickResult)

def freeStep (s : Sys) : FreeAction → Option Sys
  | .act a => s.step a
  | .answer i lb result => s.threads[i]?.bind fun t =>
      match t.pc with
      | .pick caller _ =>
          if lb.queue = s.lb.queue then some (s.put lb i { t with pc := .picked caller result }) else none
      | _ => none

def happens (s : Sys) (i : Nat) (t : Goroutine) : Option (Event Nat) :=
  match t.pc with
  | .enqueue => some (.joined i)
  | .cancel => some (.left i)
  | .deliver _ head _ => s.threads[head]?.bind fun w =>
      if s.lb.queue.head? = some head ∧ w.canceled = false ∧ w.ticket = none then some (.served head)
      else none
  | _ => none

def event (s : Sys) : FreeAction → Option (Event Nat)
  | .act (.advance i _) => s.threads[i]?.bind (s.happens i)
  | _ => none

def events (trace : List (Sys × FreeAction)) : List (Event Nat) :=
  trace.filterMap fun entry => entry.1.event entry.2

theorem events_snoc (trace : List (Sys × FreeAction)) (s : Sys) (a : FreeAction) :
    events (trace ++ [(s, a)]) = events trace ++ (s.event a).toList := by
  cases happened : s.event a <;> simp [events, happened]

structure Told (past : List (Event Nat)) (i : Nat) (t : Goroutine) : Prop where
  early : t.pc.Early → .joined i ∉ past
  waits : t.pc.Waits → .joined i ∈ past ∧ .left i ∉ past

structure Recorded (past : List (Event Nat)) (s : Sys) : Prop where
  disciplined : s.Disciplined
  run : Run past s.lb.queue
  threads : Each s.threads (Told past)
  known : ∀ i, .joined i ∈ past → i < s.threads.length

theorem event_move {s : Sys} {a : Action} {i : Nat} {t : Goroutine} (located : s.threads[i]? = some t)
    (by_ : (∃ draws, a = .advance i draws) ∨ (a = .receive i ∨ a = .giveUp i ∨ a = .finish i) ∧
      (t.pc = .parked ∨ ∃ u, t.pc = .holding u)) : s.event (.act a) = s.happens i t := by
  rcases by_ with ⟨draws, rfl⟩ | ⟨named, place⟩
  · simp [event, located]
  · have nothing : s.happens i t = none := by
      rcases place with at_ | ⟨u, at_⟩ <;> simp [happens, at_]
    rw [nothing]
    rcases named with rfl | rfl | rfl <;> rfl

theorem Told.frame {past new : List (Event Nat)} {i : Nat} {t : Goroutine} (told : Told past i t)
    (apart : ∀ e ∈ new, e ≠ .joined i ∧ e ≠ .left i) : Told (past ++ new) i t := by
  refine ⟨fun early joined => ?_, fun waits => ⟨?_, fun left => ?_⟩⟩
  · rcases List.mem_append.1 joined with joined | joined
    · exact told.early early joined
    · exact (apart _ joined).1 rfl
  · exact List.mem_append_left _ (told.waits waits).1
  · rcases List.mem_append.1 left with left | left
    · exact (told.waits waits).2 left
    · exact (apart _ left).2 rfl

theorem told_of_past {past : List (Event Nat)} {i : Nat} {t : Goroutine} (settled : ¬t.pc.Early)
    (moving : ¬t.pc.Waits) : Told past i t :=
  ⟨fun early => absurd early settled, fun waits => absurd waits moving⟩

theorem Told.picked {past : List (Event Nat)} {i : Nat} {t : Goroutine} {caller : Caller} {pos : PickPos}
    (told : Told past i t) (at_ : t.pc = .pick caller pos) (result : PickResult) :
    Told past i { t with pc := .picked caller result } :=
  ⟨fun early => told.early (at_ ▸ Pc.early_of_picked early),
    fun waits => absurd waits (Pc.not_waits_picked _ _)⟩

theorem Recorded.put {past new : List (Event Nat)} {s : Sys} (recorded : Recorded past s) {i : Nat}
    {t t' : Goroutine} {lb : LoadBalancer} (located : s.threads[i]? = some t)
    (disciplined : (s.put lb i t').Disciplined) (run : Run (past ++ new) lb.queue)
    (mine : ∀ e ∈ new, e = .joined i ∨ e = .left i) (told : Told (past ++ new) i t') :
    Recorded (past ++ new) (s.put lb i t') := by
  refine ⟨disciplined, run, ?_, fun j joined => ?_⟩
  · refine recorded.threads.set located told fun j u other _ kept => kept.frame fun e member => ?_
    rcases mine e member with rfl | rfl <;> simp [Ne.symm other]
  · rw [Sys.put, List.length_set]
    rcases List.mem_append.1 joined with joined | joined
    · exact recorded.known j joined
    · rcases mine _ joined with same | same
      · cases same
        exact (List.getElem?_eq_some_iff.1 located).1
      · cases same

theorem Recorded.quiet {past : List (Event Nat)} {s : Sys} (recorded : Recorded past s) {i : Nat}
    {t t' : Goroutine} {lb : LoadBalancer} (located : s.threads[i]? = some t)
    (disciplined : (s.put lb i t').Disciplined) (same : lb.queue = s.lb.queue) (told : Told past i t')
    (silent : s.happens i t = none) : Recorded (past ++ (s.happens i t).toList) (s.put lb i t') := by
  rw [silent]
  refine recorded.put located disciplined ?_ (fun e member => absurd member nofun) ?_
  · rw [same]
    simpa using recorded.run
  · simpa using told

theorem move_recorded {past : List (Event Nat)} {s : Sys} (recorded : Recorded past s) {i : Nat}
    {t t' : Goroutine} {lb : LoadBalancer} (located : s.threads[i]? = some t)
    (disciplined : (s.put lb i t').Disciplined) (moved : Move s i t lb t') :
    Recorded (past ++ (s.happens i t).toList) (s.put lb i t') := by
  have told := recorded.threads i t located
  have leaves (at_ : t.pc = .cancel) : Run (past ++ [.left i]) (s.lb.queue.erase i) :=
    recorded.run.leave (told.waits (at_ ▸ trivial)).1 (told.waits (at_ ▸ trivial)).2
  have quiet (same : lb.queue = s.lb.queue) (settled : ¬t'.pc.Early) (moving : ¬t'.pc.Waits)
      (silent : s.happens i t = none) : Recorded (past ++ (s.happens i t).toList) (s.put lb i t') :=
    recorded.quiet located disciplined same (told_of_past settled moving) silent
  cases moved with
  | pick at_ moved =>
      have same : lb.queue = s.lb.queue := by cases moved <;> rfl
      exact recorded.quiet located disciplined same (told.picked at_ _) (by simp [happens, at_])
  | enqueue at_ =>
      have new := told.early (at_ ▸ trivial)
      have known := fun left => new (recorded.run.consistent.known i (.inr left))
      simp only [happens, at_]
      refine recorded.put located disciplined (recorded.run.join new) (by simp) ⟨fun early => absurd early id, ?_⟩
      exact fun _ => by simpa using known
  | receive at_ ticket => exact quiet rfl id id (by simp [happens, at_])
  | giveUp at_ =>
      exact recorded.quiet located disciplined rfl ⟨fun early => absurd early id, fun _ => told.waits (at_ ▸ trivial)⟩
        (by simp [happens, at_])
  | unqueue at_ queued =>
      simp only [happens, at_]
      exact recorded.put located disciplined (leaves at_) (by simp) (told_of_past id id)
  | reclaim at_ unqueued ticket =>
      simp only [happens, at_]
      exact recorded.put located disciplined (List.erase_of_not_mem unqueued ▸ leaves at_) (by simp)
        (told_of_past id id)
  | abandon at_ unqueued ticket =>
      simp only [happens, at_]
      exact recorded.put located disciplined (List.erase_of_not_mem unqueued ▸ leaves at_) (by simp)
        (told_of_past id id)
  | finish at_ => exact quiet rfl id id (by simp [happens, at_])
  | release at_ => exact quiet rfl id id (by simp [happens, at_])
  | idle at_ empty =>
      exact quiet rfl (Pc.not_early_returned _) (Pc.not_waits_returned _) (by simp [happens, at_])
  -- who gives up takes itself out of the queue, so the head has not given up
  | @drop depth head rest w at_ front locatedW canceled =>
      obtain ⟨x, locatedX, waits, -⟩ := recorded.disciplined.queued head (by simp [front])
      cases locatedW.symm.trans locatedX
      have still := (recorded.disciplined.threads w (List.mem_of_getElem? locatedW)).canceled (.inr waits)
      rw [still] at canceled
      cases canceled
  | peek at_ => exact quiet rfl id id (by simp [happens, at_])
  | stale at_ locatedW lost =>
      have silent : s.happens i t = none := by
        simpa [happens, at_, locatedW] using fun front still _ => lost ⟨front, still⟩
      exact quiet rfl id id silent
  | @full depth head u v w at_ front locatedW occupied =>
      obtain ⟨x, locatedX, -, vacant⟩ := recorded.disciplined.queued head (List.mem_of_head? front)
      cases locatedW.symm.trans locatedX
      rw [vacant] at occupied
      cases occupied

theorem Recorded.add {past : List (Event Nat)} {s : Sys} (recorded : Recorded past s) {t : Goroutine}
    (disciplined : (s.add t).Disciplined) (unasked : ¬t.pc.Waits) : Recorded past (s.add t) := by
  have unknown : Event.joined s.threads.length ∉ past := fun joined =>
    absurd (recorded.known _ joined) (lt_irrefl _)
  refine ⟨disciplined, recorded.run, ?_, fun j joined => ?_⟩
  · intro j u located
    rcases located_snoc located with ⟨rfl, rfl⟩ | located
    · exact ⟨fun _ => unknown, fun waits => absurd waits unasked⟩
    · exact recorded.threads j u located
  · rw [Sys.add, List.length_append]
    exact (recorded.known j joined).trans_le (Nat.le_add_right _ _)

theorem Recorded.outside {past : List (Event Nat)} {s : Sys} (recorded : Recorded past s) {lb : LoadBalancer}
    (changed : Outside s.lb lb) : Recorded past { s with lb } := by
  obtain ⟨⟨threads, distinct, queued⟩, run, told, known⟩ := recorded
  cases changed <;> exact ⟨⟨threads, distinct, queued⟩, run, told, known⟩

theorem hand_recorded {past : List (Event Nat)} {s : Sys} (recorded : Recorded past s) {i head depth : Nat}
    {t w : Goroutine} {u : Upstream} (located : s.threads[i]? = some t) (at_ : t.pc = .deliver depth head u)
    (front : s.lb.queue.head? = some head) (locatedW : s.threads[head]? = some w)
    {s' : Sys} (given : s' = (s.put { s.lb with queue := s.lb.queue.tail } i { t with pc := .dispatch depth }).put
      { s.lb with queue := s.lb.queue.tail } head { w with ticket := some u })
    (disciplined : s'.Disciplined) : Recorded (past ++ [.served head]) s' := by
  have other := head_ne recorded.disciplined located at_ front
  have run : Run past (head :: s.lb.queue.tail) := by
    rw [List.cons_head?_tail front]
    exact recorded.run
  subst given
  refine ⟨disciplined, run.serve, ?_, fun j joined => ?_⟩
  · have apart (j : Nat) : ∀ e ∈ [Event.served head], e ≠ .joined j ∧ e ≠ .left j := by simp
    have gives : Each (s.put { s.lb with queue := s.lb.queue.tail } i { t with pc := .dispatch depth }).threads
        (Told (past ++ [.served head])) :=
      recorded.threads.set located (told_of_past id id) fun j _ _ _ kept => kept.frame (apart j)
    have receiver := (recorded.threads head w locatedW).frame (apart head)
    exact gives.set (threads_put _ _ other locatedW) ⟨receiver.early, receiver.waits⟩ fun _ _ _ _ kept => kept
  · simp only [Sys.put, List.length_set]
    exact recorded.known j (by simpa using joined)

theorem step_recorded {past : List (Event Nat)} {s s' : Sys} {a : FreeAction} (recorded : Recorded past s)
    (taken : s.freeStep a = some s') : Recorded (past ++ (s.event a).toList) s' := by
  cases a with
  | act a =>
      have stepped := step_cases taken
      have disciplined := step_disciplined recorded.disciplined stepped
      cases stepped with
      | spawn => simpa [event] using recorded.add disciplined id
      | move located moved by_ =>
          rw [event_move located by_]
          exact move_recorded recorded located disciplined moved
      | @hand i draws t w depth head u located at_ front locatedW waiting vacant =>
          have served : s.event (.act (.advance i draws)) = some (.served head) := by
            simp [event, located, happens, at_, locatedW, front, waiting, vacant]
          rw [served]
          exact hand_recorded recorded located at_ front locatedW rfl disciplined
      | outside changed by_ =>
          have silent : s.event (.act a) = none := by
            rcases by_ with ⟨r, rfl⟩ | ⟨r, op, rfl⟩ | ⟨cfg, rfl⟩ | ⟨cfg, rfl⟩ <;> rfl
          simpa [silent] using recorded.outside changed
      | recovered changed => simpa [event] using (recorded.outside changed).add disciplined id
  | answer i lb result =>
      obtain ⟨t, located, answered⟩ := Option.bind_eq_some_iff.1 taken
      cases at_ : t.pc with
      | pick caller pos =>
          simp only [at_, Option.ite_none_right_eq_some] at answered
          obtain ⟨same, here⟩ := answered
          cases here
          have told := (recorded.threads i t located).picked at_ result
          have kept := recorded.quiet located (picked_disciplined recorded.disciplined located at_ same result)
            same told (by simp [happens, at_])
          simpa [happens, at_, event] using kept
      | _ => simp [at_] at answered

def ticketOf (s : Sys) (w : Nat) : Option Upstream := s.threads[w]?.bind (·.ticket)

theorem ticketOf_put {s : Sys} {i : Nat} {t : Goroutine} (located : s.threads[i]? = some t)
    (lb : LoadBalancer) (t' : Goroutine) (w : Nat) :
    (s.put lb i t').ticketOf w = if i = w then t'.ticket else s.ticketOf w := by
  have bound := (List.getElem?_eq_some_iff.1 located).1
  simp only [ticketOf, put, List.getElem?_set]
  split <;> simp_all

theorem ticketOf_add (s : Sys) {t : Goroutine} (vacant : t.ticket = none) (w : Nat) :
    (s.add t).ticketOf w = s.ticketOf w := by
  simp only [ticketOf, add, List.getElem?_append]
  grind

theorem move_given {s : Sys} {i : Nat} {t t' : Goroutine} {lb : LoadBalancer} (moved : Move s i t lb t') :
    (t'.ticket = t.ticket ∨ t'.ticket = none) ∧ ∀ w, s.happens i t ≠ some (.served w) := by
  cases moved with
  | stale at_ locatedW lost =>
      refine ⟨.inl rfl, fun w served => lost ?_⟩
      simp only [happens, at_, locatedW, Option.bind_some, Option.ite_none_right_eq_some] at served
      exact ⟨served.1.1, served.1.2.1⟩
  | full at_ front locatedW occupied =>
      refine ⟨.inl rfl, fun w served => ?_⟩
      simp only [happens, at_, locatedW, Option.bind_some, Option.ite_none_right_eq_some] at served
      cases occupied.symm.trans served.1.2.2
  | receive at_ => exact ⟨.inr rfl, by simp [happens, at_]⟩
  | reclaim at_ => exact ⟨.inr rfl, by simp [happens, at_]⟩
  | _ at_ => exact ⟨.inl rfl, by simp [happens, at_]⟩

theorem not_given_of_put {s : Sys} {i : Nat} {t t' : Goroutine} {lb : LoadBalancer}
    (located : s.threads[i]? = some t) (kept : t'.ticket = t.ticket ∨ t'.ticket = none) (w : Nat) :
    ¬(s.ticketOf w = none ∧ (s.put lb i t').ticketOf w ≠ none) := by
  rw [ticketOf_put located]
  rintro ⟨vacant, given⟩
  split at given
  · rename_i same
    subst same
    rw [ticketOf, located] at vacant
    rcases kept with same | none
    · exact given (same.trans vacant)
    · exact given none
  · exact given vacant

theorem served_iff_given {s s' : Sys} {a : FreeAction} (disciplined : s.Disciplined)
    (taken : s.freeStep a = some s') (w : Nat) :
    s.event a = some (.served w) ↔ s.ticketOf w = none ∧ s'.ticketOf w ≠ none := by
  have silent (quiet : s.event a ≠ some (.served w))
      (kept : ¬(s.ticketOf w = none ∧ s'.ticketOf w ≠ none)) :
      s.event a = some (.served w) ↔ s.ticketOf w = none ∧ s'.ticketOf w ≠ none :=
    ⟨fun served => absurd served quiet, fun given => absurd given kept⟩
  cases a with
  | act a =>
      cases step_cases taken with
      | spawn => exact silent nofun fun given => given.2 ((ticketOf_add s rfl w).trans given.1)
      | move located moved by_ =>
          rw [event_move located by_] at silent ⊢
          obtain ⟨kept, quiet⟩ := move_given moved
          exact silent (quiet w) (not_given_of_put located kept w)
      | @hand i draws t v depth head u located at_ front locatedW waiting vacant =>
          have other := head_ne disciplined located at_ front
          have happened : s.event (.act (.advance i draws)) = some (.served head) := by
            simp [event, located, happens, at_, locatedW, front, waiting, vacant]
          rw [happened, ticketOf_put (threads_put _ _ other locatedW)]
          by_cases same : head = w
          · subst same
            have before : s.ticketOf head = none := by
              rw [ticketOf, locatedW]
              exact vacant
            simp [before]
          · rw [if_neg same]
            refine ⟨fun served => absurd served (by simp [same]), fun given => ?_⟩
            refine absurd given (not_given_of_put located ?_ w)
            exact .inl rfl
      | outside changed by_ =>
          refine silent ?_ fun given => given.2 given.1
          rcases by_ with ⟨r, rfl⟩ | ⟨r, op, rfl⟩ | ⟨cfg, rfl⟩ | ⟨cfg, rfl⟩ <;> nofun
      | recovered changed => exact silent nofun fun given => given.2 ((ticketOf_add _ rfl w).trans given.1)
  | answer i lb result =>
      obtain ⟨t, located, answered⟩ := Option.bind_eq_some_iff.1 taken
      refine silent nofun ?_
      split at answered
      · obtain ⟨-, here⟩ := Option.ite_none_right_eq_some.1 answered
        cases here
        refine not_given_of_put located ?_ w
        exact .inl rfl
      · cases answered

/-- Waiters get their tickets in the order in which they have joined the queue, and nobody gets one
while somebody who has joined earlier is neither served nor gone. To be served is to have a ticket put
into one's channel. -/
theorem fifo {lb : LoadBalancer} (empty : lb.queue = []) {trace : List (Sys × FreeAction)} {s : Sys}
    (exec : Exec freeStep (init lb) trace s) :
    (events trace).Nodup ∧
    (∀ v w, [Event.joined v, .joined w].Sublist (events trace) → .served v ∈ events trace →
      .served w ∈ events trace → [Event.served v, .served w].Sublist (events trace)) ∧
    (∀ past later w, events trace = past ++ .served w :: later → .joined w ∈ past ∧
      ∀ v, [Event.joined v, .joined w].Sublist past → .served v ∈ past ∨ .left v ∈ past) ∧
    ∀ a s', s.freeStep a = some s' → ∀ w,
      (s.event a = some (.served w) ↔ s.ticketOf w = none ∧ s'.ticketOf w ≠ none) := by
  have recorded : Recorded (events trace) s := by
    induction exec with
    | nil =>
        refine ⟨⟨?_, ?_, ?_⟩, ?_, ?_, ?_⟩ <;> simp [init, empty, events, Each]
        exact .nil
    | snoc before taken ih =>
        rw [events_snoc]
        exact step_recorded ih taken
  refine ⟨recorded.run.consistent.once, fun v w => recorded.run.in_order, fun past later w split => ?_,
    fun a s' taken => served_iff_given recorded.disciplined taken⟩
  obtain ⟨joined, -, earlier⟩ := recorded.run.served past later w split
  exact ⟨joined, earlier⟩

theorem fifo_two : ∃ lb : LoadBalancer, lb.queue = [] ∧ ∃ trace s, Exec freeStep (init lb) trace s ∧
    events trace = [.joined 1, .joined 2, .served 1, .served 2] ∧
    ∀ past later w, events trace = past ++ .served w :: later → .joined w ∈ past ∧
      ∀ v, [Event.joined v, .joined w].Sublist past → .served v ∈ past ∨ .left v ∈ past := by
  obtain ⟨lb, initial, -, trace, s, exec, -, happened⟩ := exists_run freeStep LoadBalancer.oneUpstream
    ((.spawn anyone :: sections 0 6 ++ .spawn anyone :: sections 1 6 ++ .spawn anyone :: sections 2 6 ++
      .finish 0 :: sections 0 9 ++ .receive 1 :: .finish 1 :: sections 1 9).map .act)
    (fun trace _ => decide (events trace = [.joined 1, .joined 2, .served 1, .served 2])) (by decide +kernel)
  have empty := (initial_fresh initial).2.2.1
  exact ⟨lb, empty, trace, s, exec, of_decide_eq_true happened, (fifo empty exec).2.2.1⟩

end S5lb.Sys
