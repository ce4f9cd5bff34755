import S5lb.Lib.Carousel
import S5lb.Strategy.Choice
import S5lb.Strategy.Fairness

/-! Calls of `RoundRobinSelector.Pick` one after the other, each of which may find other upstreams
healthy and below the cap. -/

namespace S5lb.RoundRobinSelector

open Transition

abbrev Call := WRRSelector.Call

def step (idx : UInt64) (call : Call) : Option UInt64 := some (pick idx call.pool call.maxPer).2

def answer (entry : UInt64 × Call) : String := (pick entry.1 entry.2.pool entry.2.maxPer).1

def adds (pool : List Snapshot) (maxPer : Int) : Nat → UInt64 → Nat
  | 0, _ => 0
  | attempts + 1, idx =>
      match attempt pool maxPer idx with
      | (some _, _) => 1
      | (none, idx) => adds pool maxPer attempts idx + 1

def increments (trace : List (UInt64 × Call)) : Nat :=
  (trace.map fun entry => adds entry.2.pool entry.2.maxPer entry.2.pool.length entry.1).sum

def able (call : Call) (id : String) : Bool := call.pool.any fun u => u.id == id && u.eligible call.maxPer

section Ring

variable {call : Call} {ids : List String}

theorem able_id (distinct : (call.pool.map (·.id)).Nodup) {u : Snapshot} (member : u ∈ call.pool) :
    able call u.id = u.eligible call.maxPer := by
  rw [Bool.eq_iff_iff, able, List.any_eq_true]
  constructor
  · rintro ⟨v, among, found⟩
    rw [Bool.and_eq_true, beq_iff_eq] at found
    rw [← List.inj_on_of_nodup_map distinct among member found.1]
    exact found.2
  · intro fit
    exact ⟨u, member, by simp [fit]⟩

theorem attempt_ring (order : call.pool.map (·.id) = ids) (distinct : ids.Nodup) (idx : UInt64) :
    (attempt call.pool call.maxPer idx).1 = ids[idx.toNat % ids.length]?.filter (able call) := by
  subst order
  rw [attempt_fst, List.length_map, List.getElem?_map]
  cases there : call.pool[idx.toNat % call.pool.length]? with
  | none => rfl
  | some u =>
      simp only [Option.map_some, Option.filter_some, able_id distinct (List.mem_of_getElem? there)]
      cases u.eligible call.maxPer with
      | false => rfl
      | true => rfl

theorem eligible_ring (order : call.pool.map (·.id) = ids) (distinct : ids.Nodup) :
    (eligible call.pool call.maxPer).map (·.id) = ids.filter (able call) := by
  subst order
  rw [List.filter_map, eligible]
  congr 1
  apply List.filter_congr
  intro u member
  exact (able_id distinct member).symm

theorem scan_ring (order : call.pool.map (·.id) = ids) (distinct : ids.Nodup) (attempts : Nat)
    (idx : UInt64) (fits : idx.toNat + adds call.pool call.maxPer attempts idx < 2 ^ 64) :
    (scan call.pool call.maxPer attempts idx).1 =
      (Carousel.seek ids (able call) attempts idx.toNat).1.getD "" ∧
    (scan call.pool call.maxPer attempts idx).2.toNat =
      (Carousel.seek ids (able call) attempts idx.toNat).2 ∧
    (scan call.pool call.maxPer attempts idx).2.toNat =
      idx.toNat + adds call.pool call.maxPer attempts idx := by
  induction attempts generalizing idx with
  | zero => exact ⟨rfl, rfl, rfl⟩
  | succ attempts ih =>
      have moved : attempt call.pool call.maxPer idx = ((attempt call.pool call.maxPer idx).1, idx + 1) := rfl
      rw [adds, moved] at fits
      rw [scan, adds, moved, Carousel.seek, ← attempt_ring order distinct]
      generalize (attempt call.pool call.maxPer idx).1 = result at fits ⊢
      cases result with
      | some id =>
          have next : (idx + 1).toNat = idx.toNat + 1 := by
            rw [toNat_add_one, Nat.mod_eq_of_lt fits]
          exact ⟨rfl, next, next⟩
      | none =>
          simp only at fits ⊢
          have next : (idx + 1).toNat = idx.toNat + 1 := by
            rw [toNat_add_one, Nat.mod_eq_of_lt (by omega)]
          have later := ih (idx + 1) (by omega)
          rw [next, Nat.add_assoc, Nat.add_comm 1] at later
          exact later

end Ring

section Run

variable {ids : List String}

def place (entry : UInt64 × Call) : Nat × (String → Bool) := (entry.1.toNat, able entry.2)

theorem increments_append (trace rest : List (UInt64 × Call)) :
    increments (trace ++ rest) = increments trace + increments rest := by
  simp [increments]

theorem run_ring (distinct : ids.Nodup) {trace : List (UInt64 × Call)} {idx : UInt64}
    (exec : Exec step 0 trace idx) (order : ∀ entry ∈ trace, entry.2.pool.map (·.id) = ids)
    (few : increments trace < 2 ^ 64) :
    Exec (Carousel.step ids) 0 (trace.map place) idx.toNat ∧ idx.toNat = increments trace ∧
      ∀ entry ∈ trace, answer entry = (Carousel.answer ids (place entry)).getD "" := by
  induction exec with
  | nil => exact ⟨.nil, rfl, fun entry none => absurd none List.not_mem_nil⟩
  | @snoc trace idx call after before taken ih =>
      rw [increments_append] at few ⊢
      obtain ⟨ring, reached, answers⟩ := ih (fun entry among => order entry (List.mem_append_left _ among))
        (by omega)
      have same : call.pool.map (·.id) = ids := order (idx, call) (by simp)
      have cost : increments [(idx, call)] = adds call.pool call.maxPer call.pool.length idx := by
        simp [increments]
      have looks : call.pool.length = ids.length := by rw [← same, List.length_map]
      obtain ⟨said, moved, counted⟩ := scan_ring same distinct call.pool.length idx (by omega)
      have done : (scan call.pool call.maxPer call.pool.length idx).2 = after := Option.some.inj taken
      rw [done] at moved counted
      refine ⟨?_, by omega, ?_⟩
      · rw [List.map_append]
        apply ring.snoc
        rw [Carousel.step, ← looks, ← moved]
      · intro entry among
        rcases List.mem_append.1 among with earlier | last
        · exact answers entry earlier
        · cases List.mem_singleton.1 last
          rw [Carousel.answer, ← looks]
          exact said

theorem answer_ring {entry : UInt64 × Call} {y : String} (listed : y ∈ ids) (fit : able entry.2 y = true)
    (said : answer entry = (Carousel.answer ids (place entry)).getD "") {x : String}
    (same : answer entry = x) : Carousel.answer ids (place entry) = some x := by
  obtain ⟨a, stop, sought, -⟩ := @Carousel.seek_of_suits _ _ _ listed (able entry.2) fit entry.1.toNat
  have reply : Carousel.answer ids (place entry) = some a := by rw [Carousel.answer, place, sought]
  rw [reply] at said ⊢
  rw [← same, said]
  rfl

theorem mem_of_able {call : Call} {y : String} (order : call.pool.map (·.id) = ids)
    (fit : able call y = true) : y ∈ ids := by
  obtain ⟨u, among, found⟩ := List.any_eq_true.1 fit
  rw [Bool.and_eq_true, beq_iff_eq] at found
  rw [← order, ← found.1]
  exact List.mem_map_of_mem among

theorem window_order (distinct : ids.Nodup) {window : List (UInt64 × Call)} {low high : Nat}
    (exec : Exec (Carousel.step ids) low (window.map place) high)
    (order : ∀ entry ∈ window, entry.2.pool.map (·.id) = ids) {served : List String}
    (same : ∀ entry ∈ window, (eligible entry.2.pool entry.2.maxPer).map (·.id) = served)
    (length : window.length = served.length) :
    ∃ m, (window.map place).map (Carousel.answer ids) = (served.rotate m).map some := by
  have fit : ∀ entry ∈ window, served = ids.filter (able entry.2) := by
    intro entry member
    rw [← same entry member]
    exact eligible_ring (order entry member) distinct
  cases window with
  | nil =>
      rw [List.eq_nil_of_length_eq_zero length.symm]
      exact ⟨0, rfl⟩
  | cons entry rest =>
      have first := fit entry List.mem_cons_self
      rw [first] at length ⊢
      apply Carousel.answers_rotate exec
      · intro other among a member
        obtain ⟨later, listed, rfl⟩ := List.mem_map.1 among
        have equal : a ∈ ids.filter (able later.2) ↔ a ∈ ids.filter (able entry.2) := by
          rw [← fit later listed, ← first]
        rw [List.mem_filter, List.mem_filter, and_congr_right_iff] at equal
        exact Bool.eq_iff_iff.2 (equal member)
      · rw [List.length_map, length]

end Run

/-- Between two calls that return the same upstream, whoever can serve in all of them is returned.
While the same upstreams can serve, as many calls as there are of them return each one once, in the
order of the pool. -/
theorem round_robin_starves_nobody {ids : List String} (distinct : ids.Nodup)
    {trace : List (UInt64 × Call)} {idx : UInt64} (exec : Exec step 0 trace idx)
    (order : ∀ entry ∈ trace, entry.2.pool.map (·.id) = ids) (few : increments trace < 2 ^ 64) :
    (∀ x y, x ≠ y → ∀ before first between second after,
      trace = before ++ first :: (between ++ [second]) ++ after →
      answer first = x → answer second = x →
      (∀ entry ∈ first :: (between ++ [second]), able entry.2 y = true) →
      ∃ entry ∈ between, answer entry = y) ∧
    (∀ served before window after, trace = before ++ window ++ after →
      (∀ entry ∈ window, (eligible entry.2.pool entry.2.maxPer).map (·.id) = served) →
      window.length = served.length → ∃ m, window.map answer = served.rotate m) := by
  obtain ⟨ring, -, answers⟩ := run_ring distinct exec order few
  have part {before window after : List (UInt64 × Call)} (whole : trace = before ++ window ++ after) :
      (∃ low high, Exec (Carousel.step ids) low (window.map place) high) ∧ ∀ entry ∈ window, entry ∈ trace := by
    constructor
    · rw [whole, List.map_append, List.map_append] at ring
      obtain ⟨high, earlier, -⟩ := ring.cut
      obtain ⟨low, -, exec⟩ := earlier.cut
      exact ⟨low, high, exec⟩
    · intro entry member
      rw [whole]
      exact List.mem_append_left _ (List.mem_append_right _ member)
  constructor
  · intro x y differ before first between second after whole left back waits
    obtain ⟨⟨low, high, exec⟩, among⟩ := part whole
    have waiting : ∀ spot ∈ (first :: (between ++ [second])).map place, spot.2 y = true :=
      List.forall_mem_map.2 waits
    rw [List.map_cons, List.map_append] at exec waiting
    have listed : y ∈ ids := mem_of_able (order first (among first (by simp))) (waits first (by simp))
    have reply {entry : UInt64 × Call} (member : entry ∈ first :: (between ++ [second])) {z : String}
        (same : answer entry = z) : Carousel.answer ids (place entry) = some z :=
      answer_ring listed (waits entry member) (answers entry (among entry member)) same
    obtain ⟨_, returned, same⟩ := Carousel.returned_between distinct differ listed exec
      (reply (by simp) left) (reply (by simp) back) waiting
    obtain ⟨entry, member, rfl⟩ := List.mem_map.1 returned
    refine ⟨entry, member, ?_⟩
    rw [answers entry (among entry (by simp [member])), same]
    rfl
  · intro served before window after whole same length
    obtain ⟨⟨low, high, exec⟩, among⟩ := part whole
    obtain ⟨m, rotated⟩ := window_order distinct exec (fun entry member => order entry (among entry member))
      same length
    refine ⟨m, ?_⟩
    calc window.map answer
        = ((window.map place).map (Carousel.answer ids)).map (·.getD "") := by
          rw [List.map_map, List.map_map]
          exact List.map_congr_left fun entry member => answers entry (among entry member)
      _ = served.rotate m := by
          rw [rotated, List.map_map]
          exact List.map_id _

theorem round_robin_starves_nobody_trio : ∃ first between second window idx,
    Exec step 0 (first :: (between ++ [second]) ++ window) idx ∧
    answer first = "a" ∧ answer second = "a" ∧ (∃ entry ∈ between, answer entry = "c") ∧
    window.length = 3 ∧ ∃ m, window.map answer = ["a", "b", "c"].rotate m := by
  obtain ⟨trace, idx, exec, actions, tested⟩ := exec_of_play step 0
    [⟨Snapshot.trio false, 1⟩, ⟨Snapshot.trio false, 1⟩, ⟨Snapshot.trio false, 1⟩,
      ⟨Snapshot.trio true, 1⟩, ⟨Snapshot.trio true, 1⟩, ⟨Snapshot.trio true, 1⟩]
    (fun trace _ => decide (trace.map answer = ["a", "c", "a", "b", "c", "a"] ∧ increments trace = 7))
    (by decide +kernel)
  obtain ⟨first, rest, rfl, one, actions⟩ := List.map_eq_cons_iff.1 actions
  obtain ⟨middle, rest, rfl, two, actions⟩ := List.map_eq_cons_iff.1 actions
  obtain ⟨second, window, rfl, three, actions⟩ := List.map_eq_cons_iff.1 actions
  obtain ⟨said, counted⟩ := of_decide_eq_true tested
  have length : window.length = 3 := by simpa using congrArg List.length actions
  have calls : ∀ entry ∈ window, entry.2 = ⟨Snapshot.trio true, 1⟩ := by
    intro entry member
    have listed : entry.2 ∈ window.map Prod.snd := List.mem_map_of_mem member
    rw [actions] at listed
    simpa using listed
  have order : ∀ entry ∈ first :: middle :: second :: window, entry.2.pool.map (·.id) = ["a", "b", "c"] := by
    simp only [List.forall_mem_cons, one, two, three]
    refine ⟨rfl, rfl, rfl, fun entry member => ?_⟩
    rw [calls entry member]
    rfl
  obtain ⟨waited, rotated⟩ := round_robin_starves_nobody (by decide) exec order (by rw [counted]; decide)
  simp only [List.map_cons, List.cons.injEq] at said
  have waits : ∀ entry ∈ [first, middle, second], able entry.2 "c" = true := by
    simp only [List.forall_mem_cons, one, two, three]
    decide +kernel
  refine ⟨first, [middle], second, window, idx, exec, said.1, said.2.2.1, ?_, length, ?_⟩
  · exact waited "a" "c" (by decide) [] first [middle] second window rfl said.1 said.2.2.1 waits
  · apply rotated ["a", "b", "c"] [first, middle, second] window [] (by simp) _ length
    intro entry member
    rw [calls entry member]
    decide +kernel

end S5lb.RoundRobinSelector
