import S5lb.Lib.Balance
import S5lb.Strategy.Choice

namespace S5lb.WRRSelector

open Balance

structure Call where
  pool : List Snapshot
  maxPer : Int

def stored (current : Current) (id : String) : Int := (current id).getD 0

def identity (u : Snapshot) : String × Int := (u.id, effectiveWeight u)

def weightSum (us : List Snapshot) : Int := (us.map effectiveWeight).sum

def weightOf (us : List Snapshot) (id : String) : Int := weightSum (us.filter (·.id == id))

def run (calls : List Call) : List (Call × String) × Current :=
  calls.foldl (fun (past, current) call =>
    let (picked, current) := pick id current call.pool call.maxPer
    (past ++ [(call, picked)], current)) ([], fun _ => none)

def credited (id : String) (past : List (Call × String)) : Int :=
  (past.map fun (call, _) => weightOf (eligible call.pool call.maxPer) id).sum

def charged (id : String) (past : List (Call × String)) : Int :=
  (past.map fun (call, picked) =>
    if picked = id then weightSum (eligible call.pool call.maxPer) else 0).sum

theorem effectiveWeight_pos (u : Snapshot) : 0 < effectiveWeight u := by
  unfold effectiveWeight
  split <;> omega

theorem int64_eq {x : Int} (low : -2 ^ 63 ≤ x) (high : x < 2 ^ 63) : int64 x = x := by
  unfold int64
  exact Int.bmod_eq_of_le (by norm_num; exact low) (by norm_num; exact high)

theorem weightSum_nonneg (us : List Snapshot) : 0 ≤ weightSum us :=
  List.sum_nonneg fun w member => by
    obtain ⟨u, -, rfl⟩ := List.mem_map.1 member
    exact (effectiveWeight_pos u).le

theorem weightOf_nonneg (us : List Snapshot) (id : String) : 0 ≤ weightOf us id := weightSum_nonneg _

theorem weightOf_eq_zero {us : List Snapshot} {id : String} (absent : id ∉ us.map (·.id)) :
    weightOf us id = 0 := by
  have none : us.filter (·.id == id) = [] := by
    rw [List.filter_eq_nil_iff]
    intro u member same
    exact absent (List.mem_map.2 ⟨u, member, by simpa using same⟩)
  simp [weightOf, none, weightSum]

theorem weightOf_snoc (us : List Snapshot) (u : Snapshot) (id : String) :
    weightOf (us ++ [u]) id = weightOf us id + if u.id = id then effectiveWeight u else 0 := by
  by_cases same : u.id = id <;> simp [weightOf, weightSum, List.filter_append, same]

theorem weightOf_eq {us : List Snapshot} (distinct : (us.map (·.id)).Nodup) {u : Snapshot}
    (member : u ∈ us) : weightOf us u.id = effectiveWeight u := by
  induction us using List.reverseRecOn with
  | nil => cases member
  | append_singleton us v ih =>
      rw [List.map_append, List.nodup_append] at distinct
      obtain ⟨earlier, -, apart⟩ := distinct
      rw [weightOf_snoc]
      rcases List.mem_append.1 member with member | member
      · have other : v.id ≠ u.id := fun same => apart u.id (List.mem_map.2 ⟨u, member, rfl⟩) v.id
          (by simp) same.symm
        rw [ih earlier member, if_neg other, add_zero]
      · rw [List.mem_singleton.1 member]
        have fresh : v.id ∉ us.map (·.id) := fun old => apart v.id old v.id (by simp) rfl
        rw [weightOf_eq_zero fresh, if_pos rfl, zero_add]

theorem weightOf_identity (us : List Snapshot) (id : String) :
    weightOf us id = (((us.map identity).filter (·.1 == id)).map (·.2)).sum := by
  simp [weightOf, weightSum, List.filter_map, Function.comp_def, identity]

theorem weightOf_congr {us vs : List Snapshot} (same : (us.map identity).Perm (vs.map identity)) (id : String) :
    weightOf us id = weightOf vs id := by
  rw [weightOf_identity us, weightOf_identity vs]
  exact ((same.filter _).map _).sum_eq

theorem ids_identity (us : List Snapshot) : us.map (·.id) = (us.map identity).map (·.1) := by
  simp [Function.comp_def, identity]

theorem ids_congr {us vs : List Snapshot} (same : us.map identity = vs.map identity) :
    us.map (·.id) = vs.map (·.id) := by
  rw [ids_identity us, ids_identity vs, same]

structure Visited (maxPer : Int) (before : Current) (seen : List Snapshot) (acc : Best) : Prop where
  credits : ∀ id, stored acc.current id = stored before id + weightOf (eligible seen maxPer) id
  total : acc.total = weightSum (eligible seen maxPer)
  best : eligible seen maxPer = [] ∧ acc.bestID = "" ∨
    ∃ u ∈ eligible seen maxPer, acc.bestID = u.id ∧
      acc.bestCur = stored before u.id + effectiveWeight u ∧
      ∀ v ∈ eligible seen maxPer, stored before v.id + effectiveWeight v ≤ acc.bestCur

theorem stored_update (current : Current) (id other : String) (cur : Int) :
    stored (Function.update current id (some cur)) other = if id = other then cur else stored current other := by
  by_cases same : id = other
  · simp [stored, same]
  · simp [stored, same, Function.update_of_ne (Ne.symm same)]

theorem visit_eq {maxPer : Int} {u : Snapshot} (ok : u.eligible maxPer = true) (acc : Best) :
    visit id maxPer acc u =
      ⟨Function.update acc.current u.id (some (stored acc.current u.id + effectiveWeight u)),
        acc.total + effectiveWeight u,
        if acc.bestID = "" ∨ stored acc.current u.id + effectiveWeight u > acc.bestCur then u.id
          else acc.bestID,
        if acc.bestID = "" ∨ stored acc.current u.id + effectiveWeight u > acc.bestCur then
          stored acc.current u.id + effectiveWeight u else acc.bestCur⟩ := by
  by_cases better : acc.bestID = "" ∨ stored acc.current u.id + effectiveWeight u > acc.bestCur
  · rw [if_pos better, if_pos better]
    simp only [visit, ok, id]
    exact if_pos better
  · rw [if_neg better, if_neg better]
    simp only [visit, ok, id]
    exact if_neg better

structure Tallied (maxPer : Int) (before : Current) (seen : List Snapshot) (acc : Best) : Prop where
  credits : ∀ id, stored acc.current id = stored before id + weightOf (eligible seen maxPer) id
  total : acc.total = weightSum (eligible seen maxPer)
  best : eligible seen maxPer = [] ∧ acc.bestID = "" ∨
    acc.bestID ∈ (eligible seen maxPer).map (·.id) ∧ acc.bestCur = stored acc.current acc.bestID ∧
      ∀ v ∈ eligible seen maxPer, stored acc.current v.id ≤ acc.bestCur

section Loop

variable {maxPer : Int} {before : Current}

theorem eligible_snoc {seen : List Snapshot} {u : Snapshot} (able : u.eligible maxPer = true) :
    eligible (seen ++ [u]) maxPer = eligible seen maxPer ++ [u] := by
  simp [eligible, able]

theorem eligible_snoc_not {seen : List Snapshot} {u : Snapshot} (unable : u.eligible maxPer = false) :
    eligible (seen ++ [u]) maxPer = eligible seen maxPer := by
  simp [eligible, unable]

theorem Tallied.best_snoc {seen : List Snapshot} {acc : Best} {u : Snapshot}
    (named : ∀ v ∈ seen, v.id ≠ "") (able : u.eligible maxPer = true)
    (tallied : Tallied maxPer before seen acc) {cur : Int}
    (value : stored acc.current u.id + effectiveWeight u = cur) :
    (if acc.bestID = "" ∨ cur > acc.bestCur then u.id else acc.bestID) ∈
        (eligible (seen ++ [u]) maxPer).map (·.id) ∧
      (if acc.bestID = "" ∨ cur > acc.bestCur then cur else acc.bestCur) =
        stored (Function.update acc.current u.id (some cur))
          (if acc.bestID = "" ∨ cur > acc.bestCur then u.id else acc.bestID) ∧
      ∀ v ∈ eligible (seen ++ [u]) maxPer, stored (Function.update acc.current u.id (some cur)) v.id ≤
        if acc.bestID = "" ∨ cur > acc.bestCur then cur else acc.bestCur := by
  rw [eligible_snoc able]
  by_cases better : acc.bestID = "" ∨ cur > acc.bestCur
  · simp only [if_pos better, stored_update, if_true, List.mem_append, List.mem_singleton, List.map_append]
    refine ⟨by simp, trivial, fun v among => ?_⟩
    split
    · exact le_rfl
    · rename_i other
      have earlier : v ∈ eligible seen maxPer := among.resolve_right fun same => other (by rw [same])
      rcases tallied.best with ⟨nobody, -⟩ | ⟨held, -, most⟩
      · rw [nobody] at earlier
        cases earlier
      · obtain ⟨w, listed, same⟩ := List.mem_map.1 held
        have someone : acc.bestID ≠ "" := same ▸ named w (List.mem_of_mem_filter listed)
        exact (most v earlier).trans (better.resolve_left someone).le
  · have gain := effectiveWeight_pos u
    obtain ⟨someone, atMost⟩ := not_or.1 better
    rcases tallied.best with ⟨-, blank⟩ | ⟨held, bestCur, most⟩
    · exact absurd blank someone
    · -- a second snapshot of the ID that is held would have been better
      have other : u.id ≠ acc.bestID := by
        intro same
        rw [bestCur, ← same] at atMost
        omega
      simp only [if_neg better, stored_update, if_neg other, List.mem_append, List.mem_singleton,
        List.map_append]
      refine ⟨.inl held, bestCur, fun v among => ?_⟩
      split
      · exact not_lt.1 atMost
      · rename_i apart
        exact most v (among.resolve_right fun same => apart (by rw [same]))

theorem visit_tallied {seen : List Snapshot} {acc : Best} {u : Snapshot} (named : ∀ v ∈ seen, v.id ≠ "")
    (tallied : Tallied maxPer before seen acc) :
    Tallied maxPer before (seen ++ [u]) (visit id maxPer acc u) := by
  cases able : u.eligible maxPer with
  | false =>
      have skipped : visit id maxPer acc u = acc := by simp [visit, able]
      rw [skipped]
      exact ⟨by rw [eligible_snoc_not able]; exact tallied.credits,
        by rw [eligible_snoc_not able]; exact tallied.total,
        by rw [eligible_snoc_not able]; exact tallied.best⟩
  | true =>
      rw [visit_eq able acc]
      refine ⟨fun id => ?_, ?_, .inr ?_⟩
      · rw [stored_update, eligible_snoc able, weightOf_snoc]
        split
        · rename_i same
          rw [same, tallied.credits, add_assoc]
        · rw [tallied.credits, add_zero]
      · rw [eligible_snoc able, tallied.total]
        simp [weightSum]
      · exact tallied.best_snoc named able rfl

theorem tallied_foldl {pool : List Snapshot} (named : ∀ u ∈ pool, u.id ≠ "") :
    Tallied maxPer before pool (pool.foldl (visit id maxPer) ⟨before, 0, "", 0⟩) := by
  induction pool using List.reverseRecOn with
  | nil => exact ⟨fun _ => by simp [eligible, weightOf, weightSum], rfl, .inl ⟨rfl, rfl⟩⟩
  | append_singleton seen u ih =>
      have others : ∀ v ∈ seen, v.id ≠ "" := fun v member => named v (List.mem_append_left _ member)
      rw [List.foldl_append]
      exact visit_tallied others (ih others)

theorem visited_foldl {pool : List Snapshot} (named : ∀ u ∈ pool, u.id ≠ "")
    (distinct : (pool.map (·.id)).Nodup) :
    Visited maxPer before pool (pool.foldl (visit id maxPer) ⟨before, 0, "", 0⟩) := by
  have tallied := @tallied_foldl maxPer before pool named
  have own {v : Snapshot} (able : v ∈ eligible pool maxPer) :
      weightOf (eligible pool maxPer) v.id = effectiveWeight v :=
    weightOf_eq (distinct.sublist (List.filter_sublist.map _)) able
  refine ⟨tallied.credits, tallied.total, ?_⟩
  rcases tallied.best with nobody | ⟨held, bestCur, most⟩
  · exact .inl nobody
  · obtain ⟨u, able, same⟩ := List.mem_map.1 held
    refine .inr ⟨u, able, same.symm, ?_, fun v among => ?_⟩
    · rw [bestCur, ← same, tallied.credits, own able]
    · have less := most v among
      rwa [tallied.credits, own among] at less

end Loop

inductive Picked (pool : List Snapshot) (maxPer : Int) (before : Current) : String → Current → Prop
  | nobody {after} (none : eligible pool maxPer = [])
      (same : ∀ id ∈ pool.map (·.id), stored after id = stored before id) :
      Picked pool maxPer before "" after
  | charged {after u} (able : u ∈ eligible pool maxPer)
      (most : ∀ v ∈ eligible pool maxPer,
        stored before v.id + effectiveWeight v ≤ stored before u.id + effectiveWeight u)
      (paid : ∀ id ∈ pool.map (·.id), stored after id = stored before id +
        weightOf (eligible pool maxPer) id - if u.id = id then weightSum (eligible pool maxPer) else 0) :
      Picked pool maxPer before u.id after

theorem stored_prune {current : Current} {pool : List Snapshot} {id : String}
    (present : id ∈ pool.map (·.id)) : stored (prune current pool) id = stored current id := by
  obtain ⟨u, member, rfl⟩ := List.mem_map.1 present
  have found : pool.any (fun v => v.id == u.id) = true := List.any_eq_true.2 ⟨u, member, by simp⟩
  simp [stored, prune, found]

theorem pick_picked {pool : List Snapshot} (named : ∀ u ∈ pool, u.id ≠ "")
    (distinct : (pool.map (·.id)).Nodup) (maxPer : Int) (before : Current) :
    Picked pool maxPer before (pick id before pool maxPer).1 (pick id before pool maxPer).2 := by
  have visited := @visited_foldl maxPer (prune before pool) pool named distinct
  have kept {u : Snapshot} (able : u ∈ eligible pool maxPer) :
      stored (prune before pool) u.id = stored before u.id :=
    stored_prune (List.mem_map_of_mem (List.mem_of_mem_filter able))
  unfold pick
  generalize pool.foldl (visit id maxPer) ⟨prune before pool, 0, "", 0⟩ = best at visited
  rcases visited.best with ⟨none, blank⟩ | ⟨u, able, bestID, bestCur, most⟩
  · simp only [blank, if_true]
    refine .nobody none fun id present => ?_
    rw [visited.credits, stored_prune present, none]
    simp [weightOf, weightSum]
  · have someone : best.bestID ≠ "" := by
      rw [bestID]
      exact named u (List.mem_of_mem_filter able)
    simp only [someone, if_false]
    rw [bestID]
    refine .charged able (fun v member => ?_) fun other present => ?_
    · have less := most v member
      rwa [bestCur, kept member, kept able] at less
    · rw [stored_update]
      by_cases same : u.id = other
      · subst other
        have own : weightOf (eligible pool maxPer) u.id = effectiveWeight u :=
          weightOf_eq (distinct.sublist (List.filter_sublist.map _)) able
        rw [if_pos rfl, if_pos rfl, bestCur, kept able, own, visited.total, id]
      · rw [if_neg same, if_neg same, visited.credits, stored_prune present, sub_zero]

def members (upstreams : List Snapshot) : Finset String := (upstreams.map (·.id)).toFinset

theorem sum_weightOf {us : List Snapshot} {ids : Finset String} (all : members us ⊆ ids) :
    ∑ id ∈ ids, weightOf us id = weightSum us := by
  induction us using List.reverseRecOn with
  | nil => simp [weightOf, weightSum]
  | append_singleton us u ih =>
      have listed : u.id ∈ ids := all (List.mem_toFinset.2 (by simp))
      have earlier : members us ⊆ ids := fun id member =>
        all (List.mem_toFinset.2 (by simp [List.mem_toFinset.1 member]))
      simp only [weightOf_snoc, Finset.sum_add_distrib, ih earlier, Finset.sum_ite_eq, listed, if_true]
      simp [weightSum]

theorem sum_members (us : List Snapshot) : ∑ id ∈ members us, weightOf us id = weightSum us :=
  sum_weightOf subset_rfl

theorem earned_round {pool : List Snapshot} {maxPer : Int} {before after : Current} {payer : String}
    (earns : payer ∈ (eligible pool maxPer).map (·.id))
    (most : ∀ v ∈ eligible pool maxPer, stored before v.id + weightOf (eligible pool maxPer) v.id ≤
      stored before payer + weightOf (eligible pool maxPer) payer)
    (paid : ∀ id ∈ pool.map (·.id), stored after id = stored before id +
      weightOf (eligible pool maxPer) id - if payer = id then weightSum (eligible pool maxPer) else 0) :
    Round (members pool) (weightOf (eligible pool maxPer)) (stored before)
      (members (eligible pool maxPer)) payer (stored after) := by
  refine ⟨?_, List.mem_toFinset.2 earns, ?_, ?_⟩
  · intro id member
    obtain ⟨v, among, rfl⟩ := List.mem_map.1 (List.mem_toFinset.1 member)
    exact List.mem_toFinset.2 (List.mem_map_of_mem (List.mem_of_mem_filter among))
  · intro id member
    obtain ⟨v, among, rfl⟩ := List.mem_map.1 (List.mem_toFinset.1 member)
    exact most v among
  · intro id member
    rw [paid id (List.mem_toFinset.1 member), sum_members]
    by_cases able : id ∈ members (eligible pool maxPer)
    · rw [if_pos able]
      simp only [eq_comm]
    · rw [if_neg able, weightOf_eq_zero fun among => able (List.mem_toFinset.2 among)]
      simp only [eq_comm]

theorem picked_round {pool : List Snapshot} {maxPer : Int} {before after : Current} {u : Snapshot}
    (distinct : (pool.map (·.id)).Nodup) (able : u ∈ eligible pool maxPer)
    (most : ∀ v ∈ eligible pool maxPer,
      stored before v.id + effectiveWeight v ≤ stored before u.id + effectiveWeight u)
    (paid : ∀ id ∈ pool.map (·.id), stored after id = stored before id +
      weightOf (eligible pool maxPer) id - if u.id = id then weightSum (eligible pool maxPer) else 0) :
    Round (members pool) (weightOf pool) (stored before) (members (eligible pool maxPer)) u.id
      (stored after) := by
  have own {v : Snapshot} (among : v ∈ eligible pool maxPer) :
      weightOf (eligible pool maxPer) v.id = effectiveWeight v :=
    weightOf_eq (distinct.sublist (List.filter_sublist.map _)) among
  have round := earned_round (List.mem_map_of_mem able) (fun v among => by
    rw [own among, own able]
    exact most v among) paid
  apply round.congr
  intro id member
  obtain ⟨v, among, rfl⟩ := List.mem_map.1 (List.mem_toFinset.1 member)
  rw [weightOf_eq distinct (List.mem_of_mem_filter among), own among]

structure Fair (upstreams : List Snapshot) (past : List (Call × String)) (current : Current) : Prop where
  level : Level (members upstreams) (weightOf upstreams) (stored current)
  ledger : ∀ id ∈ members upstreams, stored current id = credited id past - charged id past

section

variable {upstreams : List Snapshot} (named : ∀ u ∈ upstreams, u.id ≠ "")
  (distinct : (upstreams.map (·.id)).Nodup)

include named in
theorem named_of_identity {us : List Snapshot} (same : us.map identity = upstreams.map identity) :
    ∀ u ∈ us, u.id ≠ "" := by
  intro u member blank
  have among : u.id ∈ upstreams.map (·.id) := ids_congr same ▸ List.mem_map_of_mem member
  obtain ⟨v, present, equal⟩ := List.mem_map.1 among
  exact named v present (equal.trans blank)

include distinct in
theorem fair_pick {past : List (Call × String)} {current after : Current} {call : Call} {answer : String}
    (same : call.pool.map identity = upstreams.map identity) (fair : Fair upstreams past current)
    (picked : Picked call.pool call.maxPer current answer after) :
    Fair upstreams (past ++ [(call, answer)]) after := by
  have ids := ids_congr same
  have everyone : members call.pool = members upstreams := by rw [members, members, ids]
  have weights : weightOf call.pool = weightOf upstreams := funext (weightOf_congr (same ▸ List.Perm.refl _))
  have here {id : String} (member : id ∈ members upstreams) : id ∈ call.pool.map (·.id) := by
    rw [ids]
    exact List.mem_toFinset.1 member
  cases picked with
  | nobody none unchanged =>
      have kept : ∀ id ∈ members upstreams, stored after id = stored current id :=
        fun id member => unchanged id (here member)
      refine ⟨fair.level.congr kept, fun id member => ?_⟩
      rw [kept id member, fair.ledger id member]
      simp [credited, charged, none, weightOf, weightSum]
  | @charged _ u able most paid =>
      have round := picked_round (ids ▸ distinct) able most paid
      rw [everyone, weights] at round
      refine ⟨round.level (fun id _ => weightOf_nonneg _ id) (fun _ _ => le_rfl) fair.level, fun id member => ?_⟩
      rw [paid id (here member), fair.ledger id member]
      simp only [credited, charged, List.map_append, List.map_cons, List.map_nil, List.sum_append,
        List.sum_cons, List.sum_nil]
      ring

include named distinct in
theorem run_fair {calls : List Call}
    (same : ∀ call ∈ calls, call.pool.map identity = upstreams.map identity) :
    Fair upstreams (run calls).1 (run calls).2 := by
  induction calls using List.reverseRecOn with
  | nil =>
      have level := @level_zero _ (members upstreams) _ fun id _ => weightOf_nonneg upstreams id
      exact ⟨level, fun id _ => by simp [run, stored, credited, charged]⟩
  | append_singleton calls call ih =>
      have now := same call (by simp)
      have fair := ih fun earlier member => same earlier (by simp [member])
      have picked := pick_picked (named_of_identity named now) (ids_congr now ▸ distinct) call.maxPer (run calls).2
      rw [run, List.foldl_append]
      exact fair_pick distinct now fair picked

end

/-- The bound is twice what the proof gives: no stored weight passes half of it. -/
theorem wrr_fair {upstreams : List Snapshot} (named : ∀ u ∈ upstreams, u.id ≠ "")
    (distinct : (upstreams.map (·.id)).Nodup) {calls : List Call}
    (same : ∀ call ∈ calls, call.pool.map identity = upstreams.map identity) :
    (upstreams.map fun u => stored (run calls).2 u.id).sum = 0 ∧
    ∀ u ∈ upstreams,
      -((upstreams.length - 1 : Int) * weightSum upstreams) ≤ stored (run calls).2 u.id ∧
      stored (run calls).2 u.id ≤ (upstreams.length - 1 : Int) * weightSum upstreams ∧
      |credited u.id (run calls).1 - charged u.id (run calls).1| ≤
        (upstreams.length - 1 : Int) * weightSum upstreams := by
  have fair := run_fair named distinct same
  have count : (members upstreams).card = upstreams.length := by
    rw [members, List.toFinset_card_of_nodup distinct, List.length_map]
  refine ⟨?_, fun u among => ?_⟩
  · have settled := fair.level.settled
    rw [members, List.sum_toFinset _ distinct, List.map_map] at settled
    exact settled
  · have member : u.id ∈ members upstreams := List.mem_toFinset.2 (List.mem_map_of_mem among)
    have close := fair.level.abs_le member
    rw [sum_members, count] at close
    rw [← fair.ledger u.id member]
    have small : |stored (run calls).2 u.id| ≤ (upstreams.length - 1 : Int) * weightSum upstreams := by
      have nonneg := abs_nonneg (stored (run calls).2 u.id)
      linarith
    exact ⟨(abs_le.1 small).1, (abs_le.1 small).2, small⟩

def pair (up : Bool) : List Snapshot := [.idle "a" 3 true, .idle "b" 0 up]

def outage : List Call := [⟨pair true, 1⟩, ⟨pair false, 1⟩, ⟨pair true, 1⟩, ⟨pair true, 1⟩]

theorem wrr_fair_outage : (run outage).1.map (·.2) = ["a", "a", "a", "b"] ∧
    ∀ u ∈ pair true, |credited u.id (run outage).1 - charged u.id (run outage).1| ≤ 4 := by
  have same : ∀ call ∈ outage, call.pool.map identity = (pair true).map identity := by decide +kernel
  have fair := wrr_fair (by decide +kernel) (by decide +kernel) same
  exact ⟨by decide +kernel, fun u among => (fair.2 u among).2.2⟩

end S5lb.WRRSelector
