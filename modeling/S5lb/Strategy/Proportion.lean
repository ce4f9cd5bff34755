import S5lb.Lib.Shares
import S5lb.Lib.Transition
import S5lb.Strategy.Wrapping

/-! The smooth weighted round-robin while the same upstreams are eligible, in the arithmetic of the
machine. -/

namespace S5lb.WRRSelector

open Balance Transition

def fresh : Current := fun _ => none

def step (current : Current) (call : Call) : Option Current :=
  some (pick int64 current call.pool call.maxPer).2

def answers (trace : List (Current × Call)) : List String :=
  trace.map fun entry => (pick int64 entry.1 entry.2.pool entry.2.maxPer).1

structure Call.Finds (call : Call) (pool : List Snapshot) (maxPer : Int) : Prop where
  ids : call.pool.map (·.id) = pool.map (·.id)
  able : (eligible call.pool call.maxPer).map identity = (eligible pool maxPer).map identity

def Roomy (us : List Snapshot) (current : Current) (_ : Call) : Prop :=
  ∀ u ∈ us, stored current u.id + effectiveWeight u < 2 ^ 63

section Congruence

def earn (wrap : Int → Int) (acc : Best) (e : String × Int) : Best :=
  let cur := wrap ((acc.current e.1).getD 0 + e.2)
  let current := Function.update acc.current e.1 (some cur)
  let total := wrap (acc.total + e.2)
  if acc.bestID = "" ∨ cur > acc.bestCur then ⟨current, total, e.1, cur⟩
  else ⟨current, total, acc.bestID, acc.bestCur⟩

theorem foldl_visit (wrap : Int → Int) (maxPer : Int) (pool : List Snapshot) (acc : Best) :
    pool.foldl (visit wrap maxPer) acc =
      ((eligible pool maxPer).map identity).foldl (earn wrap) acc := by
  rw [List.foldl_map, eligible, List.foldl_filter]
  congr 1
  funext acc u
  cases ok : u.eligible maxPer with
  | true => simp only [visit, ok, Bool.not_true, Bool.false_eq_true, if_false, if_true]; rfl
  | false => simp [visit, ok]

theorem pick_congr {wrap : Int → Int} {current : Current} {pool pool' : List Snapshot}
    {maxPer maxPer' : Int} (pruned : prune current pool = prune current pool')
    (able : (eligible pool maxPer).map identity = (eligible pool' maxPer').map identity) :
    pick wrap current pool maxPer = pick wrap current pool' maxPer' := by
  simp only [pick, foldl_visit, pruned, able]

def Within (us : List Snapshot) (current : Current) : Prop :=
  ∀ id, current id ≠ none → id ∈ us.map (·.id)

theorem prune_eq {us pool : List Snapshot} {current : Current} (within : Within us current)
    (part : us.map (·.id) ⊆ pool.map (·.id)) : prune current pool = current := by
  funext id
  unfold prune
  split
  · rfl
  · rename_i absent
    by_contra kept
    obtain ⟨u, member, same⟩ := List.mem_map.1 (part (within id (Ne.symm kept)))
    exact absent (List.any_eq_true.2 ⟨u, member, beq_iff_eq.2 same⟩)

theorem Within.update {us : List Snapshot} {current : Current} (within : Within us current)
    {id : String} (member : id ∈ us.map (·.id)) (value : Option Int) :
    Within us (Function.update current id value) := by
  intro other kept
  by_cases same : other = id
  · exact same ▸ member
  · rw [Function.update_of_ne same] at kept
    exact within other kept

theorem within_pick (wrap : Int → Int) (current : Current) (us : List Snapshot) (maxPer : Int) :
    Within us (pick wrap current us maxPer).2 := by
  have pruned : Within us (prune current us) := by
    intro id kept
    unfold prune at kept
    split at kept
    · rename_i found
      obtain ⟨u, member, same⟩ := List.any_eq_true.1 found
      exact List.mem_map.2 ⟨u, member, beq_iff_eq.1 same⟩
    · exact absurd rfl kept
  have visited (seen : List Snapshot) (part : ∀ u ∈ seen, u ∈ us) {acc : Best}
      (folded : seen.foldl (visit wrap maxPer) ⟨prune current us, 0, "", 0⟩ = acc) :
      Within us acc.current ∧ (acc.bestID = "" ∨ acc.bestID ∈ us.map (·.id)) := by
    induction seen using List.reverseRecOn generalizing acc with
    | nil =>
        subst folded
        exact ⟨pruned, .inl rfl⟩
    | append_singleton seen u ih =>
        have here : u.id ∈ us.map (·.id) := List.mem_map_of_mem (part u (by simp))
        obtain ⟨within, best⟩ := ih (fun v member => part v (List.mem_append_left _ member)) rfl
        rw [List.foldl_append, List.foldl_cons, List.foldl_nil] at folded
        subst folded
        unfold visit
        split
        · exact ⟨within, best⟩
        · dsimp only
          split
          · exact ⟨within.update here _, .inr here⟩
          · exact ⟨within.update here _, best⟩
  obtain ⟨within, best⟩ := visited us (fun _ member => member) rfl
  unfold pick
  dsimp only
  split
  · exact within
  · rename_i someone
    exact within.update (best.resolve_left someone) _

structure Alike (ids : List String) (a b : Best) : Prop where
  credits : ∀ id ∈ ids, stored a.current id = stored b.current id
  total : a.total = b.total
  bestID : a.bestID = b.bestID
  bestCur : a.bestCur = b.bestCur

theorem Alike.visit {ids : List String} {a b : Best} (alike : Alike ids a b) {u : Snapshot}
    (inside : u.id ∈ ids) (maxPer : Int) :
    Alike ids (WRRSelector.visit id maxPer a u) (WRRSelector.visit id maxPer b u) := by
  cases ok : u.eligible maxPer with
  | false => simpa [WRRSelector.visit, ok] using alike
  | true =>
      rw [visit_eq ok, visit_eq ok, alike.credits u.id inside, alike.total, alike.bestID, alike.bestCur]
      refine ⟨fun other member => ?_, rfl, rfl, rfl⟩
      rw [stored_update, stored_update, alike.credits other member]

theorem pick_only {s t : Current} {pool : List Snapshot}
    (same : ∀ id ∈ pool.map (·.id), stored s id = stored t id) (maxPer : Int) :
    (pick id s pool maxPer).1 = (pick id t pool maxPer).1 := by
  have alike (seen : List Snapshot) (part : ∀ u ∈ seen, u ∈ pool) : Alike (pool.map (·.id))
      (seen.foldl (visit id maxPer) ⟨prune s pool, 0, "", 0⟩)
      (seen.foldl (visit id maxPer) ⟨prune t pool, 0, "", 0⟩) := by
    induction seen using List.reverseRecOn with
    | nil =>
        refine ⟨fun id present => ?_, rfl, rfl, rfl⟩
        rw [List.foldl_nil, List.foldl_nil, stored_prune present, stored_prune present, same id present]
    | append_singleton seen u ih =>
        rw [List.foldl_append, List.foldl_append]
        exact (ih fun v member => part v (List.mem_append_left _ member)).visit
          (List.mem_map_of_mem (part u (by simp))) maxPer
  have best := (alike pool fun _ member => member).bestID
  simp only [pick, best]
  split <;> rfl

end Congruence

section Game

variable {us : List Snapshot} {maxPer : Int} (named : ∀ u ∈ us, u.id ≠ "")
  (distinct : (us.map (·.id)).Nodup) (able : eligible us maxPer = us) (some : us ≠ [])

def game : Game Current (members us) (weightOf us) where
  credit := stored
  payer s := (pick id s us maxPer).1
  next s := (pick id s us maxPer).2
  positive := by
    intro id member
    obtain ⟨u, among, rfl⟩ := List.mem_map.1 (List.mem_toFinset.1 member)
    rw [weightOf_eq distinct among]
    exact effectiveWeight_pos u
  round s := by
    have picked := pick_picked named distinct maxPer s
    generalize pick id s us maxPer = result at picked ⊢
    obtain ⟨answer, after⟩ := result
    cases picked with
    | nobody none _ => exact absurd (able.symm.trans none) some
    | charged among most paid =>
        have round := picked_round distinct among most paid
        rwa [able] at round
  only s t same := pick_only (fun id present => same id (List.mem_toFinset.2 present)) maxPer

theorem fresh_zero : (game named distinct able some).Zero fresh := fun _ _ => rfl

theorem pick_int64 {s : Current} (fits : weightSum us < 2 ^ 63)
    (reached : (game named distinct able some).Reached s)
    (room : ∀ u ∈ us, stored s u.id + effectiveWeight u < 2 ^ 63) :
    pick int64 s us maxPer = pick id s us maxPer := by
  have low : ∀ u ∈ us, -2 ^ 63 ≤ stored s u.id := by
    intro u member
    have above := reached.above u.id (List.mem_toFinset.2 (List.mem_map_of_mem member))
    rw [sum_members] at above
    change -weightSum us < stored s u.id at above
    omega
  have round := (game named distinct able some).round s
  have rich := round.payer_pos (game named distinct able some).positive reached.level.settled
  obtain ⟨payer, among, same⟩ := List.mem_map.1 (List.mem_toFinset.1 round.earns)
  have fitting : Fits s ⟨us, maxPer⟩ := by
    refine ⟨able.symm ▸ fits, ?_, ?_⟩
    · rw [able]
      intro u member
      rw [weightOf_eq distinct member]
      exact room u member
    · rw [able]
      refine fun _ => ⟨payer, among, ?_⟩
      rw [same]
      change 0 < stored s _ + weightOf us _ at rich
      omega
  exact (operations_exact (.inl ((fits_iff named low).2 fitting))).2

theorem within_next (rounds : ℕ) : Within us ((game named distinct able some).next^[rounds] fresh) := by
  cases rounds with
  | zero => exact fun _ kept => absurd rfl kept
  | succ rounds =>
      rw [Function.iterate_succ_apply']
      exact within_pick id _ us maxPer

end Game

section Run

variable {pool : List Snapshot} {maxPer : Int} (named : ∀ u ∈ pool, u.id ≠ "")
  (distinct : (pool.map (·.id)).Nodup) (some : eligible pool maxPer ≠ [])
  (fits : weightSum (eligible pool maxPer) < 2 ^ 63)

theorem eligible_eligible : eligible (eligible pool maxPer) maxPer = eligible pool maxPer := by
  simp [eligible]

def play : Game Current (members (eligible pool maxPer)) (weightOf (eligible pool maxPer)) :=
  game (fun u member => named u (List.mem_of_mem_filter member))
    (distinct.sublist (List.filter_sublist.map _)) eligible_eligible some

include fits in
theorem pick_play {call : Call} (finds : call.Finds pool maxPer) {rounds : ℕ}
    (room : Roomy (eligible pool maxPer) ((play named distinct some).next^[rounds] fresh) call) :
    pick int64 ((play named distinct some).next^[rounds] fresh) call.pool call.maxPer =
      ((play named distinct some).payer ((play named distinct some).next^[rounds] fresh),
        (play named distinct some).next^[rounds + 1] fresh) := by
  generalize reaches : (play named distinct some).next^[rounds] fresh = s at room
  have within : Within (eligible pool maxPer) s := by
    rw [← reaches]
    exact within_next _ _ eligible_eligible some rounds
  have reached : (play named distinct some).Reached s := by
    rw [← reaches]
    exact (play named distinct some).reached_iterate (fresh_zero _ _ eligible_eligible some) rounds
  have part : (eligible pool maxPer).map (·.id) ⊆ call.pool.map (·.id) := by
    rw [finds.ids]
    exact List.map_subset _ List.filter_sublist.subset
  have same : pick int64 s call.pool call.maxPer = pick int64 s (eligible pool maxPer) maxPer := by
    apply pick_congr
    · rw [prune_eq within part, prune_eq within (List.Subset.refl _)]
    · rw [finds.able, eligible_eligible]
  rw [Function.iterate_succ_apply', reaches, same]
  exact pick_int64 _ _ eligible_eligible some fits reached room

include fits in
theorem run_play {trace : List (Current × Call)} {current : Current} (exec : Exec step fresh trace current)
    (finds : ∀ entry ∈ trace, entry.2.Finds pool maxPer)
    (roomy : Guarded (Roomy (eligible pool maxPer)) trace) :
    current = (play named distinct some).next^[trace.length] fresh ∧
      answers trace = (play named distinct some).payers fresh trace.length := by
  have guarded : Guarded (fun s call => call.Finds pool maxPer ∧ Roomy (eligible pool maxPer) s call) trace :=
    fun entry member => ⟨finds entry member, roomy entry member⟩
  apply exec.invariant (P := fun trace current =>
    current = (play named distinct some).next^[trace.length] fresh ∧
      answers trace = (play named distinct some).payers fresh trace.length) ⟨rfl, rfl⟩ ?_ guarded
  rintro trace s call s' _ ⟨rfl, earlier⟩ ⟨finds, roomy⟩ taken
  have picked := pick_play named distinct some fits finds roomy
  rw [List.length_append, List.length_singleton]
  constructor
  · rw [step, picked] at taken
    exact (Option.some.inj taken).symm
  · rw [answers, List.map_append, ← answers, earlier, Game.payers_succ, List.map_singleton, picked]

include fits in
theorem window_play {before window after : List (Current × Call)} {current : Current}
    (exec : Exec step fresh (before ++ window ++ after) current)
    (finds : ∀ entry ∈ before ++ window ++ after, entry.2.Finds pool maxPer)
    (roomy : Guarded (Roomy (eligible pool maxPer)) (before ++ window ++ after)) :
    answers window = (play named distinct some).payers
      ((play named distinct some).next^[before.length] fresh) window.length := by
  have whole := (run_play named distinct some fits exec finds roomy).2
  rw [List.length_append, List.length_append, Game.payers_add, Game.payers_add] at whole
  simp only [answers, List.map_append] at whole
  have inner := (List.append_inj whole (by simp)).1
  exact (List.append_inj inner (by simp)).2

include named distinct some fits in
theorem roomy_of_small
    (small : ((eligible pool maxPer).length + 1) * weightSum (eligible pool maxPer) < 2 ^ 64)
    {trace : List (Current × Call)} {current : Current} (exec : Exec step fresh trace current)
    (finds : ∀ entry ∈ trace, entry.2.Finds pool maxPer) :
    Guarded (Roomy (eligible pool maxPer)) trace := by
  induction exec with
  | nil => exact List.forall_mem_nil _
  | @snoc trace s call s' before taken ih =>
      have earlier := ih fun entry member => finds entry (List.mem_append_left _ member)
      refine guarded_snoc.2 ⟨earlier, fun u member => ?_⟩
      obtain ⟨rfl, -⟩ := run_play named distinct some fits before
        (fun entry member => finds entry (List.mem_append_left _ member)) earlier
      have once : ((eligible pool maxPer).map (·.id)).Nodup := distinct.sublist (List.filter_sublist.map _)
      have reached := (play named distinct some).reached_iterate
        (fresh_zero _ _ eligible_eligible some) trace.length
      have close := reached.level.abs_le (List.mem_toFinset.2 (List.mem_map_of_mem member))
      have count : (members (eligible pool maxPer)).card = (eligible pool maxPer).length := by
        rw [members, List.toFinset_card_of_nodup once, List.length_map]
      have share : effectiveWeight u ≤ weightSum (eligible pool maxPer) :=
        List.single_le_sum (fun w inside => by
          obtain ⟨v, -, rfl⟩ := List.mem_map.1 inside
          exact (effectiveWeight_pos v).le) _ (List.mem_map_of_mem member)
      rw [sum_members, count] at close
      have most := le_abs_self (stored ((play named distinct some).next^[trace.length] fresh) u.id)
      change 2 * |stored ((play named distinct some).next^[trace.length] fresh) u.id| ≤ _ at close
      linarith

end Run

/-- While the same upstreams are eligible and nothing overflows, any window of as many calls as
their weights add up to picks each as often as its weight says, and after whole windows nothing is
stored. Nothing overflows where the weights are not close to the limit. -/
theorem wrr_proportional {pool : List Snapshot} {maxPer : Int} (named : ∀ u ∈ pool, u.id ≠ "")
    (distinct : (pool.map (·.id)).Nodup) (fits : weightSum (eligible pool maxPer) < 2 ^ 63)
    {trace : List (Current × Call)} {current : Current} (exec : Exec step fresh trace current)
    (finds : ∀ entry ∈ trace, entry.2.Finds pool maxPer) :
    (Guarded (Roomy (eligible pool maxPer)) trace →
      (∀ before window after, trace = before ++ window ++ after →
        (window.length : Int) = weightSum (eligible pool maxPer) →
        ∀ u ∈ eligible pool maxPer, ((answers window).count u.id : Int) = effectiveWeight u) ∧
      (weightSum (eligible pool maxPer) ∣ trace.length →
        ∀ u ∈ eligible pool maxPer, stored current u.id = 0)) ∧
    (((eligible pool maxPer).length + 1) * weightSum (eligible pool maxPer) < 2 ^ 64 →
      Guarded (Roomy (eligible pool maxPer)) trace) := by
  have once : ((eligible pool maxPer).map (·.id)).Nodup := distinct.sublist (List.filter_sublist.map _)
  have here {u : Snapshot} (member : u ∈ eligible pool maxPer) : u.id ∈ members (eligible pool maxPer) :=
    List.mem_toFinset.2 (List.mem_map_of_mem member)
  refine ⟨fun roomy => ⟨?_, fun whole u member => ?_⟩, fun small => ?_⟩
  · rintro before window after rfl cycle u member
    have some := List.ne_nil_of_mem member
    rw [window_play named distinct some fits exec finds roomy, ← weightOf_eq once member]
    apply Game.count_window _ _ (fresh_zero _ _ eligible_eligible some) _ (here member)
    rw [sum_members, cycle]
  · have some := List.ne_nil_of_mem member
    obtain ⟨rfl, -⟩ := run_play named distinct some fits exec finds roomy
    obtain ⟨rounds, cycle⟩ := Int.eq_ofNat_of_zero_le (weightSum_nonneg (eligible pool maxPer))
    rw [cycle] at whole
    obtain ⟨cycles, length⟩ := Int.natCast_dvd_natCast.1 whole
    rw [length, Nat.mul_comm]
    apply Game.zero_of_cycles (play named distinct some) _ (fresh_zero _ _ eligible_eligible some) _ _
      (here member)
    rw [sum_members, cycle]
  · by_cases some : eligible pool maxPer = []
    · intro entry _ u member
      rw [some] at member
      cases member
    · exact roomy_of_small named distinct some fits small exec finds

theorem wrr_proportional_pair : ∃ first window current,
    Exec step fresh (first :: window) current ∧ window.length = 4 ∧
    (answers (first :: window)) = ["a", "a", "b", "a", "a"] ∧
    ∀ u ∈ pair true, ((answers window).count u.id : Int) = effectiveWeight u := by
  obtain ⟨trace, current, exec, actions, tested⟩ := exec_of_play step fresh
    (List.replicate 5 ⟨pair true, 1⟩) (fun trace _ => decide (answers trace = ["a", "a", "b", "a", "a"]))
    (by decide +kernel)
  have finds : ∀ entry ∈ trace, entry.2.Finds (pair true) 1 := by
    intro entry member
    have same : entry.2 ∈ List.replicate 5 ⟨pair true, 1⟩ := actions ▸ List.mem_map_of_mem member
    rw [List.eq_of_mem_replicate same]
    exact ⟨rfl, rfl⟩
  have everyone : eligible (pair true) 1 = pair true := by decide +kernel
  obtain ⟨proportional, room⟩ := wrr_proportional (by decide +kernel) (by decide +kernel)
    (by decide +kernel) exec finds
  obtain ⟨windows, -⟩ := proportional (room (by decide +kernel))
  obtain ⟨first, window, rfl, -, rest⟩ := List.map_eq_cons_iff.1 actions
  have length : window.length = 4 := by simpa using congrArg List.length rest
  refine ⟨first, window, current, exec, length, of_decide_eq_true tested, fun u member => ?_⟩
  apply windows [first] window [] (by simp) (by rw [length]; decide +kernel) u
  rwa [everyone]

section Overflow

def heavy : List Snapshot := [.idle "a" (2 ^ 60) true, .idle "b" (5 * 2 ^ 60) true]

def weights (x y : Int) : Current := fun id =>
  if id = "a" then some (x * 2 ^ 60) else if id = "b" then some (y * 2 ^ 60) else none

theorem pick_heavy (current : Current) : pick int64 current heavy 1 =
    let a := int64 (stored current "a" + 2 ^ 60)
    let b := int64 (stored current "b" + 5 * 2 ^ 60)
    if b > a then ("b", fun id =>
      if id = "a" then some a else if id = "b" then some (int64 (b - 6 * 2 ^ 60)) else none)
    else ("a", fun id =>
      if id = "a" then some (int64 (a - 6 * 2 ^ 60)) else if id = "b" then some b else none) := by
  have able : (eligible heavy 1).map identity = [("a", 2 ^ 60), ("b", 5 * 2 ^ 60)] := by decide +kernel
  have total : int64 (int64 (0 + 2 ^ 60) + 5 * 2 ^ 60) = 6 * 2 ^ 60 := by decide +kernel
  have readA : ((prune current heavy) "a").getD 0 = stored current "a" := stored_prune (by decide)
  have readB : ((prune current heavy) "b").getD 0 = stored current "b" := stored_prune (by decide)
  have others (id : String) (notA : id ≠ "a") (notB : id ≠ "b") : prune current heavy id = none := by
    simp [prune, heavy, Snapshot.idle, Ne.symm notA, Ne.symm notB]
  have ne : ("b" : String) ≠ "a" := by decide
  simp only [pick, foldl_visit, able, List.foldl_cons, List.foldl_nil, earn, true_or, if_true, readA,
    Function.update_of_ne ne, readB, total, show ("a" : String) ≠ "" by decide, false_or]
  split
  · simp only [show ("b" : String) ≠ "" by decide, if_false]
    congr 1
    funext id
    by_cases isA : id = "a"
    · simp [isA]
    · by_cases isB : id = "b"
      · simp [isB]
      · simp [isA, isB, others]
  · simp only [show ("a" : String) ≠ "" by decide, if_false]
    congr 1
    funext id
    by_cases isA : id = "a"
    · simp [isA]
    · by_cases isB : id = "b"
      · simp [isB]
      · simp [isA, isB, others]

theorem step_heavy {current : Current} {answer : String} (k l k' l' : Int)
    (readA : stored current "a" = k * 2 ^ 60) (readB : stored current "b" = l * 2 ^ 60)
    (turns : (let a := int64 (k * 2 ^ 60 + 2 ^ 60)
      let b := int64 (l * 2 ^ 60 + 5 * 2 ^ 60)
      if b > a then ("b", a, int64 (b - 6 * 2 ^ 60)) else ("a", int64 (a - 6 * 2 ^ 60), b)) =
        (answer, k' * 2 ^ 60, l' * 2 ^ 60)) :
    step current ⟨heavy, 1⟩ = some (weights k' l') ∧ (pick int64 current heavy 1).1 = answer := by
  have picked := pick_heavy current
  rw [readA, readB] at picked
  simp only at picked turns
  rw [step, picked]
  split at turns
  · rename_i better
    simp only [Prod.mk.injEq] at turns
    obtain ⟨rfl, first, second⟩ := turns
    rw [if_pos better, first, second]
    exact ⟨rfl, rfl⟩
  · rename_i worse
    simp only [Prod.mk.injEq] at turns
    obtain ⟨rfl, first, second⟩ := turns
    rw [if_neg worse, first, second]
    exact ⟨rfl, rfl⟩

def Idle (current : Current) : Prop := stored current "a" = 0 ∧ stored current "b" = 0

theorem heavy_cycle {current : Current} (idle : Idle current) : ∃ trace last,
    Exec step current trace last ∧ Idle last ∧ (∀ entry ∈ trace, entry.2 = ⟨heavy, 1⟩) ∧
    trace.length = 8 ∧ answers trace = ["b", "b", "a", "a", "b", "b", "a", "a"] := by
  obtain ⟨first, answer₁⟩ := step_heavy 0 0 1 (-1) idle.1 idle.2 rfl
  obtain ⟨second, answer₂⟩ := @step_heavy (weights 1 (-1)) _ 1 (-1) 2 (-2) rfl rfl rfl
  obtain ⟨third, answer₃⟩ := @step_heavy (weights 2 (-2)) _ 2 (-2) (-3) 3 rfl rfl rfl
  obtain ⟨fourth, answer₄⟩ := @step_heavy (weights (-3) 3) _ (-3) 3 (-8) (-8) rfl rfl rfl
  obtain ⟨fifth, answer₅⟩ := @step_heavy (weights (-8) (-8)) _ (-8) (-8) (-7) 7 rfl rfl rfl
  obtain ⟨sixth, answer₆⟩ := @step_heavy (weights (-7) 7) _ (-7) 7 (-6) 6 rfl rfl rfl
  obtain ⟨seventh, answer₇⟩ := @step_heavy (weights (-6) 6) _ (-6) 6 5 (-5) rfl rfl rfl
  obtain ⟨eighth, answer₈⟩ := @step_heavy (weights 5 (-5)) _ 5 (-5) 0 0 rfl rfl rfl
  refine ⟨_, _, ((((((((Exec.nil.snoc first).snoc second).snoc third).snoc fourth).snoc fifth).snoc
    sixth).snoc seventh).snoc eighth), ⟨rfl, rfl⟩, ?_, rfl, ?_⟩
  · simp
  · simp [answers, answer₁, answer₂, answer₃, answer₄, answer₅, answer₆, answer₇, answer₈]

theorem heavy_cycles (cycles : Nat) : ∃ trace last,
    Exec step fresh trace last ∧ Idle last ∧ (∀ entry ∈ trace, entry.2 = ⟨heavy, 1⟩) ∧
    trace.length = 8 * cycles ∧ (answers trace).count "a" = 4 * cycles := by
  induction cycles with
  | zero => exact ⟨[], fresh, .nil, ⟨rfl, rfl⟩, List.forall_mem_nil _, rfl, rfl⟩
  | succ cycles ih =>
      obtain ⟨trace, last, exec, idle, calls, length, count⟩ := ih
      obtain ⟨more, last', exec', idle', calls', length', said⟩ := heavy_cycle idle
      refine ⟨trace ++ more, last', exec.append exec', idle', List.forall_mem_append.2 ⟨calls, calls'⟩, ?_, ?_⟩
      · rw [List.length_append, length, length', Nat.mul_succ]
      · rw [answers, List.map_append, ← answers, ← answers, List.count_append, count, said, Nat.mul_succ]
        rfl

/-- The weights are one to five, and each upstream gets every second call. -/
theorem heavy_weights_overflow : weightSum (eligible heavy 1) = 6 * 2 ^ 60 ∧
    weightSum (eligible heavy 1) < 2 ^ 63 ∧ ∃ trace current, Exec step fresh trace current ∧
      (∀ entry ∈ trace, entry.2 = ⟨heavy, 1⟩) ∧ (trace.length : Int) = weightSum (eligible heavy 1) ∧
      (answers trace).count "a" = 3 * 2 ^ 60 ∧ ∃ u ∈ eligible heavy 1, u.id = "a" ∧ effectiveWeight u = 2 ^ 60 := by
  have sum : weightSum (eligible heavy 1) = 6 * 2 ^ 60 := by decide +kernel
  obtain ⟨trace, current, exec, -, calls, length, count⟩ := heavy_cycles (6 * 2 ^ 57)
  refine ⟨sum, by rw [sum]; decide, trace, current, exec, calls, ?_, ?_, .idle "a" (2 ^ 60) true, ?_, rfl, ?_⟩
  · rw [length, sum]
    rfl
  · rw [count]
    rfl
  · decide +kernel
  · decide +kernel

end Overflow

end S5lb.WRRSelector
