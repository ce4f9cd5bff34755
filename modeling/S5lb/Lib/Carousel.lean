import Mathlib.Data.List.Rotate
import Mathlib.Data.Nat.ModEq
import S5lb.Lib.Transition

/-! Calls that share a place on a ring: each goes on from where the last one stopped to the next
member that suits it, and gives up after a whole turn. -/

namespace Carousel

open Transition

variable {α : Type*}

def seek (ring : List α) (suits : α → Bool) : Nat → Nat → Option α × Nat
  | 0, place => (none, place)
  | looks + 1, place =>
      match ring[place % ring.length]?.filter suits with
      | some a => (some a, place + 1)
      | none => seek ring suits looks (place + 1)

def step (ring : List α) (place : Nat) (suits : α → Bool) : Option Nat :=
  some (seek ring suits ring.length place).2

def answer (ring : List α) (entry : Nat × (α → Bool)) : Option α :=
  (seek ring entry.2 ring.length entry.1).1

def Passed (ring : List α) (suits : α → Bool) (low high : Nat) : Prop :=
  ∀ s, low ≤ s → s < high → ∀ b, ring[s % ring.length]? = some b → suits b = false

theorem Passed.first {ring : List α} {suits : α → Bool} {low high : Nat}
    (here : ring[low % ring.length]?.filter suits = none) (rest : Passed ring suits (low + 1) high) :
    Passed ring suits low high := by
  intro s above below b there
  rcases above.eq_or_lt with rfl | later
  · exact Bool.eq_false_iff.2 (Option.filter_eq_none_iff.1 here b there)
  · exact rest s later below b there

theorem seek_cases (ring : List α) (suits : α → Bool) (looks place : Nat) :
    (∃ a stop, seek ring suits looks place = (some a, stop + 1) ∧ place ≤ stop ∧ stop < place + looks ∧
      ring[stop % ring.length]? = some a ∧ suits a = true ∧ Passed ring suits place stop) ∨
    seek ring suits looks place = (none, place + looks) ∧ Passed ring suits place (place + looks) := by
  induction looks generalizing place with
  | zero => exact .inr ⟨rfl, fun s above below => absurd (above.trans_lt below) (lt_irrefl _)⟩
  | succ looks ih =>
      rw [seek]
      cases here : ring[place % ring.length]?.filter suits with
      | some a =>
          obtain ⟨there, suited⟩ := Option.filter_eq_some_iff.1 here
          exact .inl ⟨a, place, rfl, le_rfl, by omega, there, suited,
            fun s above below => absurd (above.trans_lt below) (lt_irrefl _)⟩
      | none =>
          rcases ih (place + 1) with ⟨a, stop, found, above, below, there, suited, passed⟩ | ⟨gave, passed⟩
          · exact .inl ⟨a, stop, found, by omega, by omega, there, suited, passed.first here⟩
          · rw [Nat.add_right_comm, Nat.add_assoc] at gave passed
            exact .inr ⟨gave, passed.first here⟩

section Waiting

variable {ring : List α}

theorem run_passes {low high : Nat} {trace : List (Nat × (α → Bool))}
    (exec : Exec (step ring) low trace high) {s : Nat} (above : low ≤ s) (below : s < high) {b : α}
    (there : ring[s % ring.length]? = some b) :
    ∃ entry ∈ trace, answer ring entry = some b ∨ entry.2 b = false := by
  induction exec with
  | nil => omega
  | @snoc trace place suits after before taken ih =>
      by_cases earlier : s < place
      · obtain ⟨entry, member, met⟩ := ih earlier
        exact ⟨entry, List.mem_append_left _ member, met⟩
      · refine ⟨(place, suits), List.mem_append_right _ (List.mem_singleton_self _), ?_⟩
        have moved : (seek ring suits ring.length place).2 = after := Option.some.inj taken
        rcases seek_cases ring suits ring.length place with ⟨a, stop, found, -, -, stopped, -, passed⟩ | ⟨gave, passed⟩
        · rw [found] at moved
          rcases (show s ≤ stop by omega).eq_or_lt with rfl | sooner
          · rw [answer, found, ← there, stopped]
            exact .inl rfl
          · exact .inr (passed s (by omega) sooner b there)
        · rw [gave] at moved
          exact .inr (passed s (by omega) (by omega) b there)

theorem run_advances {low high : Nat} {trace : List (Nat × (α → Bool))}
    (exec : Exec (step ring) low trace high) : low ≤ high := by
  apply exec.stable le_rfl
  intro place suits after reached taken
  have moved : (seek ring suits ring.length place).2 = after := Option.some.inj taken
  rcases seek_cases ring suits ring.length place with ⟨a, stop, found, above, -⟩ | ⟨gave, -⟩
  · rw [found] at moved
    omega
  · rw [gave] at moved
    omega

theorem exists_mod_eq {n i : Nat} (place : Nat) (bound : i < n) :
    ∃ s, place ≤ s ∧ s < place + n ∧ s % n = i := by
  have split := Nat.div_add_mod place n
  have small := Nat.mod_lt place (show 0 < n by omega)
  by_cases later : place % n ≤ i
  · refine ⟨n * (place / n) + i, by omega, by omega, ?_⟩
    rw [Nat.mul_add_mod, Nat.mod_eq_of_lt bound]
  · refine ⟨n * (place / n + 1) + i, ?_, ?_, ?_⟩
    · rw [Nat.mul_succ]
      omega
    · rw [Nat.mul_succ]
      omega
    · rw [Nat.mul_add_mod, Nat.mod_eq_of_lt bound]

theorem visits {y : α} (member : y ∈ ring) (place : Nat) :
    ∃ s, place ≤ s ∧ s < place + ring.length ∧ ring[s % ring.length]? = some y := by
  obtain ⟨i, located⟩ := List.mem_iff_getElem?.1 member
  obtain ⟨bound, -⟩ := List.getElem?_eq_some_iff.1 located
  obtain ⟨s, above, below, met⟩ := exists_mod_eq place bound
  exact ⟨s, above, below, met ▸ located⟩

theorem seek_of_suits {y : α} (member : y ∈ ring) {suits : α → Bool} (suited : suits y = true)
    (place : Nat) : ∃ a stop, seek ring suits ring.length place = (some a, stop + 1) ∧ place ≤ stop ∧
      stop < place + ring.length ∧ ring[stop % ring.length]? = some a ∧ Passed ring suits place stop := by
  rcases seek_cases ring suits ring.length place with
    ⟨a, stop, found, above, below, there, -, passed⟩ | ⟨-, passed⟩
  · exact ⟨a, stop, found, above, below, there, passed⟩
  · obtain ⟨s, above, below, there⟩ := visits member place
    have missed := passed s above below y there
    rw [suited] at missed
    cases missed

/-- Between two calls that return the same member, whoever suits all the time is returned: the
place goes once around the ring, and a call that comes to someone who suits stops there. -/
theorem returned_between (once : ring.Nodup) {x y : α} (differ : x ≠ y) (member : y ∈ ring)
    {low high : Nat} {first second : Nat × (α → Bool)} {between : List (Nat × (α → Bool))}
    (exec : Exec (step ring) low (first :: (between ++ [second])) high)
    (left : answer ring first = some x) (back : answer ring second = some x)
    (waits : ∀ entry ∈ first :: (between ++ [second]), entry.2 y = true) :
    ∃ entry ∈ between, answer ring entry = some y := by
  obtain ⟨-, after, taken, exec⟩ := @Exec.split _ _ _ _ [] _ _ _ _ exec
  obtain ⟨run, -⟩ := exec.unsnoc
  have forward := run_advances run
  have waitsAfter : ∀ entry ∈ between ++ [second], entry.2 y = true := fun entry among =>
    waits entry (List.mem_cons_of_mem _ among)
  have waitsSecond : second.2 y = true := waitsAfter second (by simp)
  obtain ⟨a, stop, found, -, -, there, -⟩ := seek_of_suits member (waits first (by simp)) first.1
  obtain ⟨b, stop', found', above', -, there', passed'⟩ := seek_of_suits member waitsSecond second.1
  rw [answer, found] at left
  rw [answer, found'] at back
  cases left
  cases back
  have moved : stop + 1 = after := by rw [step, found] at taken; exact Option.some.inj taken
  have positive : 0 < ring.length := List.length_pos_of_mem member
  have same : stop % ring.length = stop' % ring.length :=
    (List.getElem?_inj (Nat.mod_lt _ positive) once).1 (there.trans there'.symm)
  have around : stop + ring.length ≤ stop' :=
    Nat.ModEq.add_le_of_lt same (by omega)
  obtain ⟨s, above, below, here⟩ := visits member (stop + 1)
  have early : s < stop' := by
    apply lt_of_le_of_ne (by omega)
    rintro rfl
    rw [there'] at here
    exact differ (Option.some.inj here)
  by_cases inside : s < second.1
  · obtain ⟨entry, among, met⟩ := run_passes run (by omega) inside here
    refine ⟨entry, among, met.resolve_right ?_⟩
    rw [waitsAfter entry (List.mem_append_left _ among)]
    exact Bool.noConfusion
  · have missed := passed' s (by omega) early y here
    rw [waitsSecond] at missed
    cases missed

end Waiting

section Order

variable {ring : List α} {suits : α → Bool}

theorem filter_rotate (ring : List α) (suits : α → Bool) (n : Nat) :
    ∃ m, (ring.rotate n).filter suits = (ring.filter suits).rotate m := by
  have halves : ring.filter suits =
      (ring.take (n % ring.length)).filter suits ++ (ring.drop (n % ring.length)).filter suits := by
    rw [← List.filter_append, List.take_append_drop]
  refine ⟨((ring.take (n % ring.length)).filter suits).length, ?_⟩
  rw [List.rotate_eq_drop_append_take_mod, List.filter_append, halves, List.rotate_append_length_eq]

theorem seek_congr {other : α → Bool} (agree : ∀ a ∈ ring, other a = suits a) (looks place : Nat) :
    seek ring other looks place = seek ring suits looks place := by
  induction looks generalizing place with
  | zero => rfl
  | succ looks ih =>
      have here : ring[place % ring.length]?.filter other = ring[place % ring.length]?.filter suits := by
        cases there : ring[place % ring.length]? with
        | none => rfl
        | some a => simp only [Option.filter_some, agree a (List.mem_of_getElem? there)]
      rw [seek, seek, here]
      cases ring[place % ring.length]?.filter suits with
      | some a => rfl
      | none => exact ih (place + 1)

theorem seek_ahead {ahead : List α} {a : α} (unfit : ∀ b ∈ ahead, suits b = false) (fit : suits a = true)
    {looks place : Nat} (room : ahead.length < looks)
    (view : ∀ t ≤ ahead.length, ring[(place + t) % ring.length]? = (ahead ++ [a])[t]?) :
    seek ring suits looks place = (some a, place + ahead.length + 1) := by
  induction ahead generalizing looks place with
  | nil =>
      obtain ⟨looks, rfl⟩ := Nat.exists_eq_add_one.2 room
      have here : ring[place % ring.length]? = some a := view 0 le_rfl
      rw [seek, here, Option.filter_some, if_pos fit]
      rfl
  | cons b ahead ih =>
      obtain ⟨looks, rfl⟩ := Nat.exists_eq_add_one.2 (Nat.zero_lt_of_lt room)
      have here : ring[place % ring.length]? = some b := view 0 (Nat.zero_le _)
      have miss : ¬suits b = true := Bool.eq_false_iff.1 (unfit b List.mem_cons_self)
      rw [seek, here, Option.filter_some, if_neg miss]
      rw [ih (fun c among => unfit c (List.mem_cons_of_mem _ among)) (Nat.lt_of_succ_lt_succ room)]
      · rw [List.length_cons, Nat.add_right_comm place 1, Nat.add_assoc place]
      · intro t bound
        rw [Nat.add_assoc, Nat.add_comm 1 t]
        exact view (t + 1) (Nat.succ_le_succ bound)

theorem ahead_of_rotate {low d : Nat} {ahead rest : List α} {a : α}
    (view : (ring.rotate low).drop d = ahead ++ a :: rest) :
    d + ahead.length + 1 ≤ ring.length ∧
      ∀ t ≤ ahead.length, ring[(low + d + t) % ring.length]? = (ahead ++ [a])[t]? := by
  have size : d + ahead.length + 1 ≤ ring.length := by
    have lengths := congrArg List.length view
    simp only [List.length_drop, List.length_rotate, List.length_append, List.length_cons] at lengths
    omega
  refine ⟨size, fun t bound => ?_⟩
  calc ring[(low + d + t) % ring.length]?
      = (ring.rotate low)[d + t]? := by
        rw [List.getElem?_rotate (by omega), Nat.add_assoc, Nat.add_comm low]
    _ = (ahead ++ [a] ++ rest)[t]? := by
        rw [← List.getElem?_drop, view, List.append_assoc, List.singleton_append]
    _ = (ahead ++ [a])[t]? := List.getElem?_append_left (by simp; omega)

theorem run_in_order {low high : Nat} {trace : List (Nat × (α → Bool))}
    (exec : Exec (step ring) low trace high) (same : ∀ entry ∈ trace, ∀ a ∈ ring, entry.2 a = suits a)
    (room : trace.length ≤ (ring.filter suits).length) :
    ∃ d, high = low + d ∧
      trace.map (answer ring) = (((ring.rotate low).take d).filter suits).map some := by
  induction exec with
  | nil => exact ⟨0, rfl, rfl⟩
  | @snoc trace place other after before taken ih =>
      rw [List.length_append, List.length_singleton] at room
      obtain ⟨d, rfl, answers⟩ := ih (fun entry among => same entry (List.mem_append_left _ among)) (by omega)
      have count : ((ring.rotate low).filter suits).length = (ring.filter suits).length :=
        ((List.rotate_perm ring low).filter suits).length_eq
      have sofar := congrArg List.length answers
      rw [List.length_map, List.length_map] at sofar
      have more : ((ring.rotate low).drop d).filter suits ≠ [] := by
        intro nobody
        rw [← List.take_append_drop d (ring.rotate low), List.filter_append, nobody, List.append_nil] at count
        omega
      obtain ⟨a, others, next⟩ := List.exists_cons_of_ne_nil more
      obtain ⟨ahead, rest, view, unfit, fit, -⟩ := List.filter_eq_cons_iff.1 next
      obtain ⟨size, look⟩ := ahead_of_rotate view
      have found : seek ring other ring.length (low + d) = (some a, low + d + ahead.length + 1) := by
        rw [seek_congr (same (low + d, other) (by simp))]
        exact seek_ahead (fun b among => Bool.eq_false_iff.2 (unfit b among)) fit (by omega) look
      refine ⟨d + (ahead.length + 1), ?_, ?_⟩
      · rw [step, found] at taken
        rw [← Option.some.inj taken]
        omega
      · have nobody : ahead.filter suits = [] := List.filter_eq_nil_iff.2 unfit
        have passed : ((ring.rotate low).drop d).take (ahead.length + 1) = ahead ++ [a] := by
          rw [view, List.append_cons, List.take_left' (by simp)]
        rw [List.map_append, answers, List.take_add, passed, List.filter_append, List.filter_append, nobody,
          List.map_append, List.nil_append, List.filter_singleton, fit, cond_true]
        simp only [List.map_cons, List.map_nil, answer, found]

theorem answers_rotate {low high : Nat} {trace : List (Nat × (α → Bool))}
    (exec : Exec (step ring) low trace high) (same : ∀ entry ∈ trace, ∀ a ∈ ring, entry.2 a = suits a)
    (length : trace.length = (ring.filter suits).length) :
    ∃ m, trace.map (answer ring) = ((ring.filter suits).rotate m).map some := by
  obtain ⟨d, -, answers⟩ := run_in_order exec same length.le
  obtain ⟨m, turned⟩ := filter_rotate ring suits low
  have whole : ((ring.rotate low).take d).filter suits = (ring.rotate low).filter suits := by
    apply ((List.take_sublist d (ring.rotate low)).filter suits).eq_of_length
    rw [turned, List.length_rotate, ← length]
    simpa using (congrArg List.length answers).symm
  exact ⟨m, by rw [answers, whole, turned]⟩

end Order

end Carousel
