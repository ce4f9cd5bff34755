import S5lb.Lib.Draws
import S5lb.Strategy.Fairness

/-! How the random selectors share out their draws. -/

namespace S5lb

namespace WeightedRandomSelector

open WRRSelector

def stop : List Snapshot → Int → Option Nat
  | [], _ => none
  | u :: rest, r =>
      if r < effectiveWeight u then some 0 else (stop rest (r - effectiveWeight u)).map (· + 1)

def returned (cands : List Snapshot) (r : Int) : String :=
  ((stop cands r).bind (cands[·]?)).elim "" (·.id)

theorem locate_stop (fallback : String) (cands : List Snapshot) (r : Int) :
    locate fallback cands r = ((stop cands r).bind (cands[·]?)).elim fallback (·.id) := by
  induction cands generalizing r with
  | nil => rfl
  | cons u rest ih =>
      rw [locate, stop]
      split
      · rfl
      · rw [ih]
        cases stop rest (r - effectiveWeight u) with
        | none => rfl
        | some i => rfl

theorem weightSum_cons (u : Snapshot) (us : List Snapshot) :
    weightSum (u :: us) = effectiveWeight u + weightSum us := by
  simp [weightSum]

theorem stop_of_lt {cands : List Snapshot} {r : Int} (inside : r < weightSum cands) (low : 0 ≤ r) :
    ∃ i u, stop cands r = some i ∧ cands[i]? = some u := by
  induction cands generalizing r with
  | nil => simp [weightSum] at inside; omega
  | cons u rest ih =>
      rw [weightSum_cons] at inside
      rw [stop]
      split
      · exact ⟨0, u, rfl, rfl⟩
      · obtain ⟨i, v, stops, located⟩ := ih (show r - effectiveWeight u < _ by omega) (by omega)
        exact ⟨i + 1, v, by rw [stops]; rfl, located⟩

theorem stop_eq_some_iff {cands : List Snapshot} {i : Nat} {u : Snapshot} (located : cands[i]? = some u)
    {r : Int} (low : 0 ≤ r) : stop cands r = some i ↔
      weightSum (cands.take i) ≤ r ∧ r < weightSum (cands.take i) + effectiveWeight u := by
  induction cands generalizing i r with
  | nil => cases located
  | cons v rest ih =>
      cases i with
      | zero =>
          cases located
          rw [stop]
          split
          · rename_i small
            simp [weightSum, low, small]
          · rename_i large
            simp [weightSum, large]
      | succ i =>
          rw [stop, List.take_succ_cons, weightSum_cons]
          have before := weightSum_nonneg (rest.take i)
          split
          · simp only [Option.some.injEq, Nat.right_eq_add, Nat.add_eq_zero_iff]
            omega
          · have next := @ih i located (r - effectiveWeight v) (by omega)
            simp only [Option.map_eq_some_iff, Nat.add_right_cancel_iff, exists_eq_right, next]
            omega

theorem weightSum_take_le {cands : List Snapshot} {i : Nat} {u : Snapshot} (located : cands[i]? = some u) :
    weightSum (cands.take i) + effectiveWeight u ≤ weightSum cands := by
  obtain ⟨bound, rfl⟩ := List.getElem?_eq_some_iff.1 located
  have parts : weightSum cands = weightSum (cands.take i) + weightSum (cands.drop i) := by
    rw [weightSum, weightSum, weightSum, ← List.sum_append, ← List.map_append, List.take_append_drop]
  have rest := weightSum_nonneg (cands.drop (i + 1))
  rw [parts, List.drop_eq_getElem_cons bound, weightSum_cons]
  omega

theorem card_stop {cands : List Snapshot} {total : Nat} (sum : (total : Int) = weightSum cands) {i : Nat}
    {u : Snapshot} (located : cands[i]? = some u) :
    (((Finset.range total).filter fun r : Nat => stop cands r = some i).card : Int) = effectiveWeight u := by
  obtain ⟨low, before⟩ := Int.eq_ofNat_of_zero_le (weightSum_nonneg (cands.take i))
  obtain ⟨size, weight⟩ := Int.eq_ofNat_of_zero_le (effectiveWeight_pos u).le
  have inside := weightSum_take_le located
  have interval : ((Finset.range total).filter fun r : Nat => stop cands r = some i) =
      Finset.Ico low (low + size) := by
    ext r
    rw [Finset.mem_filter, Finset.mem_range, Finset.mem_Ico, stop_eq_some_iff located (Int.natCast_nonneg r)]
    omega
  rw [interval, Nat.card_Ico, weight]
  simp

theorem total_eq {cands : List Snapshot} {before : Int} (start : 0 ≤ before)
    (fits : before + weightSum cands < 2 ^ 63) :
    cands.foldl (fun total u => int64 (total + effectiveWeight u)) before = before + weightSum cands := by
  induction cands generalizing before with
  | nil => simp [weightSum]
  | cons u rest ih =>
      have positive := effectiveWeight_pos u
      have others := weightSum_nonneg rest
      rw [weightSum_cons] at fits ⊢
      rw [List.foldl_cons, int64_eq (by omega) (by omega), ih (by omega) (by omega)]
      omega

theorem weightSum_pos {cands : List Snapshot} (some : cands ≠ []) : 0 < weightSum cands := by
  obtain ⟨u, rest, rfl⟩ := List.exists_cons_of_ne_nil some
  have positive := effectiveWeight_pos u
  have others := weightSum_nonneg rest
  rw [weightSum_cons]
  omega

theorem pick_eq {pool : List Snapshot} {maxPer : Int} (some : eligible pool maxPer ≠ [])
    (fits : weightSum (eligible pool maxPer) < 2 ^ 63) {total : Nat}
    (sum : (total : Int) = weightSum (eligible pool maxPer)) :
    pick pool maxPer = .draw total fun r => .ret (returned (eligible pool maxPer) r) := by
  have positive := weightSum_pos some
  have adds : (eligible pool maxPer).foldl (fun total u => int64 (total + effectiveWeight u)) 0 = total := by
    rw [total_eq le_rfl (by omega), zero_add, sum]
  have nonempty : (eligible pool maxPer).isEmpty = false := by simpa using some
  have drawn : ¬(total : Int) ≤ 0 := by omega
  rw [pick]
  generalize (eligible pool maxPer).foldl (fun total u => int64 (total + effectiveWeight u)) 0 = sums at adds
  subst adds
  simp only [nonempty, drawn, Bool.false_eq_true, if_false]
  change Drawing.draw total _ = _
  congr 1
  funext r
  obtain ⟨i, u, stops, located⟩ := @stop_of_lt (eligible pool maxPer) r (by omega) (Int.natCast_nonneg _)
  rw [locate_stop, returned, stops, Option.bind_some, located]
  rfl

theorem count_outcomes {pool : List Snapshot} {maxPer : Int} {total : Nat} {f : Nat → String}
    (picks : pick pool maxPer = .draw total fun r => .ret (f r)) (id : String) :
    (pick pool maxPer).outcomes.count id = ((Finset.range total).filter fun r => f r = id).card := by
  rw [picks, Drawing.count_outcomes_draw, Finset.card_filter, ← Fin.sum_univ_eq_sum_range]
  apply Finset.sum_congr rfl
  intro r _
  rw [Drawing.outcomes, List.count_singleton]
  simp only [beq_iff_eq]

theorem stop_iff_id {cands : List Snapshot} (distinct : (cands.map (·.id)).Nodup) {r : Int} (low : 0 ≤ r)
    (inside : r < weightSum cands) {i : Nat} {u : Snapshot} (located : cands[i]? = some u) :
    returned cands r = u.id ↔ stop cands r = some i := by
  obtain ⟨j, v, stops, there⟩ := stop_of_lt inside low
  rw [returned, stops, Option.bind_some, there, Option.elim_some, Option.some.injEq]
  constructor
  · intro same
    have bound : j < (cands.map (·.id)).length := by
      rw [List.length_map]
      exact (List.getElem?_eq_some_iff.1 there).1
    apply (List.getElem?_inj bound distinct).1
    rw [List.getElem?_map, List.getElem?_map, there, located, Option.map_some, Option.map_some, same]
  · rintro rfl
    rw [there] at located
    rw [Option.some.inj located]

/-- Each candidate is returned for as many draws as its weight, and no draw is left for the fallback
behind the scan. -/
theorem weighted_random_proportional {pool : List Snapshot} {maxPer : Int} (able : eligible pool maxPer ≠ [])
    (fits : weightSum (eligible pool maxPer) < 2 ^ 63) : ∃ total : Nat,
    (total : Int) = weightSum (eligible pool maxPer) ∧
    (pick pool maxPer = .draw total fun r => .ret (returned (eligible pool maxPer) r)) ∧
    (∀ r < total, ∃ i u, stop (eligible pool maxPer) r = some i ∧ (eligible pool maxPer)[i]? = some u) ∧
    (∀ i u, (eligible pool maxPer)[i]? = some u →
      (((Finset.range total).filter fun r : Nat => stop (eligible pool maxPer) r = some i).card : Int) =
        effectiveWeight u) ∧
    (((eligible pool maxPer).map (·.id)).Nodup → ∀ u ∈ eligible pool maxPer,
      ((pick pool maxPer).outcomes.count u.id : Int) = effectiveWeight u) := by
  obtain ⟨total, sum⟩ := Int.eq_ofNat_of_zero_le (weightSum_nonneg (eligible pool maxPer))
  have picks := pick_eq able fits sum.symm
  refine ⟨total, sum.symm, picks, fun r inside => ?_, fun i u located => card_stop sum.symm located, ?_⟩
  · exact stop_of_lt (by omega) (Int.natCast_nonneg r)
  · intro distinct u member
    obtain ⟨i, located⟩ := List.mem_iff_getElem?.1 member
    rw [@count_outcomes _ _ _ (fun r => returned (eligible pool maxPer) r) picks, ← card_stop sum.symm located]
    congr 2
    apply Finset.filter_congr
    intro r inside
    rw [Finset.mem_range] at inside
    exact stop_iff_id distinct (Int.natCast_nonneg r) (by omega) located

theorem weighted_random_proportional_pair :
    (pick (pair true) 1).outcomes.count "a" = 3 ∧ (pick (pair true) 1).outcomes.count "b" = 1 := by
  have everyone : eligible (pair true) 1 = pair true := by decide +kernel
  obtain ⟨total, -, -, -, -, shares⟩ := @weighted_random_proportional (pair true) 1 (by decide +kernel)
    (by decide +kernel)
  have share := shares (by decide +kernel)
  rw [everyone] at share
  have a := share (.idle "a" 3 true) (by decide +kernel)
  have b := share (.idle "b" 0 true) (by decide +kernel)
  exact ⟨Int.ofNat_inj.1 a, Int.ofNat_inj.1 b⟩

end WeightedRandomSelector

namespace LeastActiveSelector

abbrev scan (maxPer : Int) (pool : List Snapshot) (bestID : String) (bestActive : Int) (tieCount : Nat) :
    Drawing String :=
  reservoirScan (·.active) (fun x y => decide (x < y)) (fun x y => decide (x = y)) maxPer pool bestID
    bestActive tieCount

def ranges (maxPer : Int) : List Snapshot → Int → Nat → List Nat
  | [], _, _ => []
  | u :: rest, bestActive, tieCount =>
      if !u.eligible maxPer then ranges maxPer rest bestActive tieCount
      else if u.active < bestActive then ranges maxPer rest u.active 1
      else if u.active = bestActive then (tieCount + 1) :: ranges maxPer rest bestActive (tieCount + 1)
      else ranges maxPer rest bestActive tieCount

theorem scan_cons {maxPer : Int} {u : Snapshot} (able : u.eligible maxPer = true) (rest : List Snapshot)
    {bestID : String} (holds : bestID ≠ "") (bestActive : Int) (tieCount : Nat) :
    scan maxPer (u :: rest) bestID bestActive tieCount =
      if u.active < bestActive then scan maxPer rest u.id u.active 1
      else if u.active = bestActive then .draw (tieCount + 1) fun d =>
        scan maxPer rest (if d.val = 0 then u.id else bestID) bestActive (tieCount + 1)
      else scan maxPer rest bestID bestActive tieCount := by
  simp only [scan, reservoirScan, able, Bool.not_true, Bool.false_eq_true, if_false, holds, false_or,
    decide_eq_true_eq]

theorem scan_skip {maxPer : Int} {u : Snapshot} (unable : u.eligible maxPer = false) (rest : List Snapshot)
    (bestID : String) (bestActive : Int) (tieCount : Nat) :
    scan maxPer (u :: rest) bestID bestActive tieCount = scan maxPer rest bestID bestActive tieCount := by
  simp only [scan, reservoirScan, unable, Bool.not_false, if_true]

theorem scan_calls {maxPer : Int} {pool : List Snapshot} (named : ∀ u ∈ eligible pool maxPer, u.id ≠ "")
    {bestID : String} (holds : bestID ≠ "") (bestActive : Int) (tieCount : Nat) :
    (scan maxPer pool bestID bestActive tieCount).Calls (ranges maxPer pool bestActive tieCount) := by
  induction pool generalizing bestID bestActive tieCount with
  | nil => rfl
  | cons u rest ih =>
      cases able : u.eligible maxPer with
      | false =>
          rw [eligible_cons_of_not able] at named
          rw [scan_skip able, ranges, able]
          exact ih named holds bestActive tieCount
      | true =>
          rw [eligible_cons_of_eligible able, List.forall_mem_cons] at named
          rw [scan_cons able rest holds, ranges, able]
          simp only [Bool.not_true, Bool.false_eq_true, if_false]
          split
          · exact ih named.2 named.1 u.active 1
          · split
            · refine ⟨_, rfl, fun d => ih named.2 ?_ bestActive (tieCount + 1)⟩
              split
              · exact named.1
              · exact holds
            · exact ih named.2 holds bestActive tieCount

theorem ranges_pos {maxPer : Int} {pool : List Snapshot} {bestActive : Int} {tieCount : Nat} :
    ∀ n ∈ ranges maxPer pool bestActive tieCount, 0 < n := by
  induction pool generalizing bestActive tieCount with
  | nil => exact fun n none => absurd none List.not_mem_nil
  | cons u rest ih =>
      rw [ranges]
      split
      · exact ih
      · split
        · exact ih
        · split
          · exact List.forall_mem_cons.2 ⟨Nat.succ_pos tieCount, ih⟩
          · exact ih

def tied (least : Int) (us : List Snapshot) : List Snapshot := us.filter (·.active = least)

def share (least active : Int) : Nat := if active = least then 1 else 0

def shareOf (least : Int) (id : String) (active : Int) (name : String) : Nat :=
  if active = least ∧ name = id then 1 else 0

theorem length_tied_cons (least : Int) (u : Snapshot) (us : List Snapshot) :
    (tied least (u :: us)).length = share least u.active + (tied least us).length := by
  by_cases same : u.active = least
  · simp [tied, share, same, Nat.add_comm]
  · simp [tied, share, same]

theorem count_tied_cons (least : Int) (id : String) (u : Snapshot) (us : List Snapshot) :
    (tied least (u :: us)).countP (·.id = id) =
      shareOf least id u.active u.id + (tied least us).countP (·.id = id) := by
  by_cases same : u.active = least
  · simp [tied, shareOf, same, List.countP_cons, Nat.add_comm]
  · simp [tied, shareOf, same]

theorem share_of_lt {least active : Int} (above : least < active) (id name : String) :
    share least active = 0 ∧ shareOf least id active name = 0 := by
  have other : active ≠ least := by omega
  simp [share, shareOf, other]

theorem length_scan {maxPer : Int} {pool : List Snapshot} (named : ∀ u ∈ eligible pool maxPer, u.id ≠ "")
    {bestID : String} (holds : bestID ≠ "") (bestActive : Int) (tieCount : Nat) :
    (scan maxPer pool bestID bestActive tieCount).outcomes.length =
      (ranges maxPer pool bestActive tieCount).prod :=
  Drawing.length_outcomes (scan_calls named holds bestActive tieCount)

theorem sum_tie (f : String → Nat) (next bestID : String) (tieCount : Nat) :
    ∑ d : Fin (tieCount + 1), f (if d.val = 0 then next else bestID) = f next + tieCount * f bestID := by
  rw [Fin.sum_univ_succ]
  simp

theorem tie_arith {ties all held next others rest count count' length : Nat}
    (taken : ((ties + 1) * all + others) * count = ((ties + 1) * next + rest) * length)
    (kept : ((ties + 1) * all + others) * count' = ((ties + 1) * held + rest) * length) :
    (ties * all + (all + others)) * (count + ties * count') =
      (ties * held + (next + rest)) * (length + ties * length) :=
  calc (ties * all + (all + others)) * (count + ties * count')
      = ((ties + 1) * all + others) * count + ties * (((ties + 1) * all + others) * count') := by ring
    _ = ((ties + 1) * next + rest) * length + ties * (((ties + 1) * held + rest) * length) := by
        rw [taken, kept]
    _ = (ties * held + (next + rest)) * (length + ties * length) := by ring

theorem scan_shares {maxPer : Int} {pool : List Snapshot} (named : ∀ u ∈ eligible pool maxPer, u.id ≠ "")
    {least : Int} (atLeast : ∀ u ∈ eligible pool maxPer, least ≤ u.active) {bestID : String}
    (holds : bestID ≠ "") {bestActive : Int} (below : least ≤ bestActive) (tieCount : Nat) (id : String) :
    (tieCount * share least bestActive + (tied least (eligible pool maxPer)).length) *
      (scan maxPer pool bestID bestActive tieCount).outcomes.count id =
    (tieCount * shareOf least id bestActive bestID + (tied least (eligible pool maxPer)).countP (·.id = id)) *
      (scan maxPer pool bestID bestActive tieCount).outcomes.length := by
  induction pool generalizing bestID bestActive tieCount with
  | nil =>
      have count : (scan maxPer [] bestID bestActive tieCount).outcomes.count id = if bestID = id then 1 else 0 := by
        simp [scan, reservoirScan, Drawing.outcomes, List.count_singleton]
      have length : (scan maxPer [] bestID bestActive tieCount).outcomes.length = 1 := rfl
      rw [count, length]
      by_cases same : bestID = id
      · simp [same, share, shareOf, eligible, tied]
      · simp [same, shareOf, eligible, tied]
  | cons u rest ih =>
      cases able : u.eligible maxPer with
      | false =>
          rw [eligible_cons_of_not able] at named atLeast ⊢
          rw [scan_skip able]
          exact ih named atLeast holds below tieCount
      | true =>
          rw [eligible_cons_of_eligible able, List.forall_mem_cons] at named atLeast
          rw [eligible_cons_of_eligible able, length_tied_cons, count_tied_cons, scan_cons able rest holds]
          rcases lt_trichotomy u.active bestActive with better | tie | worse
          · obtain ⟨none, noneOf⟩ := share_of_lt (atLeast.1.trans_lt better) id bestID
            have later := ih named.2 atLeast.2 named.1 atLeast.1 1
            rw [Nat.one_mul, Nat.one_mul] at later
            rw [if_pos better, none, noneOf, Nat.mul_zero, Nat.zero_add, Nat.zero_add]
            exact later
          · have taken := ih named.2 atLeast.2 named.1 below (tieCount + 1)
            have kept := ih named.2 atLeast.2 holds below (tieCount + 1)
            rw [length_scan named.2 named.1] at taken
            rw [length_scan named.2 holds] at kept
            rw [if_neg tie.not_lt, if_pos tie, tie, Drawing.count_outcomes_draw, Drawing.length_outcomes_draw,
              sum_tie (fun held => (scan maxPer rest held bestActive (tieCount + 1)).outcomes.count id),
              sum_tie (fun held => (scan maxPer rest held bestActive (tieCount + 1)).outcomes.length),
              length_scan named.2 named.1, length_scan named.2 holds]
            exact tie_arith taken kept
          · obtain ⟨none, noneOf⟩ := share_of_lt (below.trans_lt worse) id u.id
            rw [if_neg (not_lt.2 worse.le), if_neg (ne_of_gt worse), none, noneOf, Nat.zero_add, Nat.zero_add]
            exact ih named.2 atLeast.2 holds below tieCount

theorem pick_begins {pool : List Snapshot} {maxPer : Int} {u : Snapshot} {others : List Snapshot}
    (first : eligible pool maxPer = u :: others) : ∃ rest, eligible rest maxPer = others ∧
      pick pool maxPer = scan maxPer rest u.id u.active 1 := by
  induction pool with
  | nil => cases first
  | cons v rest ih =>
      cases able : v.eligible maxPer with
      | false =>
          rw [eligible_cons_of_not able] at first
          obtain ⟨later, same, picks⟩ := ih first
          exact ⟨later, same, (scan_skip able rest "" (-1) 0).trans picks⟩
      | true =>
          rw [eligible_cons_of_eligible able, List.cons.injEq] at first
          obtain ⟨rfl, rfl⟩ := first
          refine ⟨rest, rfl, ?_⟩
          simp only [pick, reservoirScan, able, Bool.not_true, Bool.false_eq_true, if_false, true_or, if_true]

section Ties

variable {pool : List Snapshot} {maxPer least : Int} (named : ∀ u ∈ eligible pool maxPer, u.id ≠ "")
  (some : eligible pool maxPer ≠ [])

include named some in
theorem pick_calls : ∃ calls, (pick pool maxPer).Calls calls ∧ ∀ n ∈ calls, 0 < n := by
  obtain ⟨u, others, first⟩ := List.exists_cons_of_ne_nil some
  obtain ⟨rest, rfl, picks⟩ := pick_begins first
  rw [first, List.forall_mem_cons] at named
  rw [picks]
  exact ⟨_, scan_calls named.2 named.1 u.active 1, ranges_pos⟩

include named some in
theorem pick_shares (atLeast : ∀ u ∈ eligible pool maxPer, least ≤ u.active) (id : String) :
    (tied least (eligible pool maxPer)).length * (pick pool maxPer).outcomes.count id =
      (tied least (eligible pool maxPer)).countP (·.id = id) * (pick pool maxPer).outcomes.length := by
  obtain ⟨u, others, first⟩ := List.exists_cons_of_ne_nil some
  obtain ⟨rest, rfl, picks⟩ := pick_begins first
  rw [first, List.forall_mem_cons] at named atLeast
  have shares := scan_shares named.2 atLeast.2 named.1 atLeast.1 1 id
  rw [Nat.one_mul, Nat.one_mul] at shares
  rw [first, picks, length_tied_cons, count_tied_cons]
  exact shares

end Ties

/-- The calls of `IntN` do not depend on what is drawn, and among the combinations of their outcomes
each ID is returned in proportion to how many of the tied snapshots have it. -/
theorem least_active_uniform {pool : List Snapshot} {maxPer least : Int}
    (named : ∀ u ∈ eligible pool maxPer, u.id ≠ "") (atLeast : ∀ u ∈ eligible pool maxPer, least ≤ u.active)
    (some : tied least (eligible pool maxPer) ≠ []) :
    (∃ calls, (pick pool maxPer).Calls calls ∧ (pick pool maxPer).outcomes.length = calls.prod ∧
      0 < calls.prod) ∧
    (∀ id, ((pick pool maxPer).outcomes.count id : ℚ) / (pick pool maxPer).outcomes.length =
      ((tied least (eligible pool maxPer)).countP (·.id = id) : ℚ) /
        (tied least (eligible pool maxPer)).length) ∧
    (((eligible pool maxPer).map (·.id)).Nodup → ∀ u ∈ tied least (eligible pool maxPer),
      ((pick pool maxPer).outcomes.count u.id : ℚ) / (pick pool maxPer).outcomes.length =
        1 / (tied least (eligible pool maxPer)).length) := by
  have able : eligible pool maxPer ≠ [] := by
    intro none
    rw [none] at some
    exact some rfl
  obtain ⟨calls, ranges, positive⟩ := pick_calls named able
  have length := Drawing.length_outcomes ranges
  have combinations : 0 < calls.prod := List.prod_pos positive
  have fraction : ∀ id, ((pick pool maxPer).outcomes.count id : ℚ) / (pick pool maxPer).outcomes.length =
      ((tied least (eligible pool maxPer)).countP (·.id = id) : ℚ) /
        (tied least (eligible pool maxPer)).length := by
    intro id
    have ties : 0 < (tied least (eligible pool maxPer)).length := List.length_pos_of_ne_nil some
    rw [div_eq_div_iff (by rw [length]; exact_mod_cast combinations.ne') (by exact_mod_cast ties.ne')]
    have shares := pick_shares named able atLeast id
    rw [mul_comm] at shares
    exact_mod_cast shares
  refine ⟨⟨calls, ranges, length, combinations⟩, fraction, fun distinct u member => ?_⟩
  rw [fraction u.id]
  have ids : ((tied least (eligible pool maxPer)).map (·.id)).Nodup :=
    distinct.sublist (List.filter_sublist.map _)
  have once := List.count_eq_one_of_mem ids (List.mem_map_of_mem member)
  rw [List.count, List.countP_map] at once
  rw [show (tied least (eligible pool maxPer)).countP (·.id = u.id) = 1 from once, Nat.cast_one]

theorem least_active_uniform_trio : tied 0 (eligible (Snapshot.trio true) 1) = Snapshot.trio true ∧
    ∀ u ∈ Snapshot.trio true, ((pick (Snapshot.trio true) 1).outcomes.count u.id : ℚ) /
      (pick (Snapshot.trio true) 1).outcomes.length = 1 / 3 := by
  have everyone : tied 0 (eligible (Snapshot.trio true) 1) = Snapshot.trio true := by decide +kernel
  have uniform := @least_active_uniform (Snapshot.trio true) 1 0 (by decide +kernel) (by decide +kernel)
    (by decide +kernel)
  refine ⟨everyone, fun u member => ?_⟩
  have share := uniform.2.2 (by decide +kernel) u (everyone ▸ member)
  rw [everyone] at share
  exact share

def unnamed : List Snapshot := [.idle "" 1 true, .idle "b" 1 true]

/-- The scan takes an empty ID for nobody: the next eligible snapshot replaces it without a draw. -/
theorem empty_id_loses_tie : tied 0 (eligible unnamed 1) = unnamed ∧ (∀ u ∈ eligible unnamed 1, 0 ≤ u.active) ∧
    (pick unnamed 1).outcomes = ["b"] ∧ (pick unnamed 1).outcomes.count "" = 0 := by
  decide +kernel

end LeastActiveSelector

end S5lb
