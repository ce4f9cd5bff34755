import S5lb.Strategy.Uniformity

/-! The snapshots a selector may choose, for some outcome of its draws. -/

namespace S5lb

section Reservoir

variable {β : Type} (score : Snapshot → β) (better tied : β → β → Bool)

/-- A scan for the best score at one more candidate: `held` are those it may end with so far, all of
them tied with the first. -/
def contend (held : List Snapshot) (u : Snapshot) : List Snapshot :=
  match held with
  | [] => [u]
  | best :: _ =>
      if better (score u) (score best) then [u]
      else if tied (score u) (score best) then held ++ [u]
      else held

def contenders (cands : List Snapshot) : List Snapshot := cands.foldl (contend score better tied) []

variable {score better tied}

theorem contend_subset {held : List Snapshot} {u s : Snapshot}
    (member : s ∈ contend score better tied held u) : s ∈ held ∨ s = u := by
  unfold contend at member
  split at member
  · exact .inr (List.mem_singleton.1 member)
  · split at member
    · exact .inr (List.mem_singleton.1 member)
    · split at member
      · exact (List.mem_append.1 member).imp_right List.mem_singleton.1
      · exact .inl member

theorem foldl_contend_subset {cands held : List Snapshot} {s : Snapshot}
    (member : s ∈ cands.foldl (contend score better tied) held) : s ∈ held ∨ s ∈ cands := by
  induction cands generalizing held with
  | nil => exact .inl member
  | cons u rest ih =>
      rcases ih member with kept | later
      · exact (contend_subset kept).imp_right fun same => by simp [same]
      · exact .inr (List.mem_cons_of_mem _ later)

theorem reservoirScan_held {maxPer : Int} {pool : List Snapshot} (named : ∀ s ∈ pool, s.id ≠ "")
    {best : Snapshot} {others : List Snapshot} (holds : ∀ k ∈ best :: others, k.id ≠ "")
    {tieCount : Nat} (positive : 0 < tieCount) {id : String} :
    (∃ k ∈ best :: others,
        (reservoirScan score better tied maxPer pool k.id (score best) tieCount).Outcome id) ↔
      ∃ s ∈ (eligible pool maxPer).foldl (contend score better tied) (best :: others), s.id = id := by
  induction pool generalizing best others tieCount with
  | nil => simp [reservoirScan, eligible, eq_comm]
  | cons u rest ih =>
      obtain ⟨namedU, named⟩ := List.forall_mem_cons.1 named
      cases able : u.eligible maxPer with
      | false =>
          simp only [reservoirScan, able, Bool.not_false, if_true, eligible_cons_of_not able]
          exact ih named holds positive
      | true =>
          have scanned (k : Snapshot) (held : k ∈ best :: others) :
              reservoirScan score better tied maxPer (u :: rest) k.id (score best) tieCount =
                if better (score u) (score best) then
                  reservoirScan score better tied maxPer rest u.id (score u) 1
                else if tied (score u) (score best) then
                  .draw (tieCount + 1) fun d => reservoirScan score better tied maxPer rest
                    (if d.val = 0 then u.id else k.id) (score best) (tieCount + 1)
                else reservoirScan score better tied maxPer rest k.id (score best) tieCount := by
            simp only [reservoirScan, able, holds k held, Bool.not_true, Bool.false_eq_true, if_false,
              false_or]
          rw [eligible_cons_of_eligible able, List.foldl_cons, contend]
          split
          · rename_i wins
            rw [← ih named (by simpa using namedU) Nat.one_pos]
            constructor
            · rintro ⟨k, held, out⟩
              rw [scanned k held, if_pos wins] at out
              exact ⟨u, List.mem_singleton_self u, out⟩
            · rintro ⟨k, held, out⟩
              cases List.mem_singleton.1 held
              exact ⟨best, List.mem_cons_self, by rwa [scanned best List.mem_cons_self, if_pos wins]⟩
          · rename_i loses
            split
            · rename_i ties
              have held' : ∀ k ∈ best :: (others ++ [u]), k.id ≠ "" := by
                rw [← List.cons_append, List.forall_mem_append]
                exact ⟨holds, by simpa using namedU⟩
              rw [List.cons_append, ← ih named held' (Nat.succ_pos tieCount)]
              constructor
              · rintro ⟨k, held, out⟩
                rw [scanned k held, if_neg loses, if_pos ties, Drawing.outcome_draw] at out
                obtain ⟨d, out⟩ := out
                split at out
                · exact ⟨u, by simp, out⟩
                · exact ⟨k, List.mem_append_left [u] held, out⟩
              · rintro ⟨k, held, out⟩
                rcases List.mem_append.1 (List.cons_append ▸ held) with kept | new
                · refine ⟨k, kept, ?_⟩
                  rw [scanned k kept, if_neg loses, if_pos ties]
                  exact ⟨⟨1, by omega⟩, out⟩
                · cases List.mem_singleton.1 new
                  refine ⟨best, List.mem_cons_self, ?_⟩
                  rw [scanned best List.mem_cons_self, if_neg loses, if_pos ties]
                  exact ⟨⟨0, by omega⟩, out⟩
            · rename_i apart
              rw [← ih named holds positive]
              refine exists_congr fun k => and_congr_right fun held => ?_
              rw [scanned k held, if_neg loses, if_neg apart]

theorem reservoirScan_iff {maxPer : Int} {pool : List Snapshot} (named : ∀ s ∈ pool, s.id ≠ "")
    {best : β} {id : String} (nonempty : id ≠ "") :
    (reservoirScan score better tied maxPer pool "" best 0).Outcome id ↔
      ∃ s ∈ contenders score better tied (eligible pool maxPer), s.id = id := by
  induction pool with
  | nil => simp [reservoirScan, eligible, contenders, nonempty]
  | cons u rest ih =>
      obtain ⟨namedU, named⟩ := List.forall_mem_cons.1 named
      cases able : u.eligible maxPer with
      | false =>
          simp only [reservoirScan, able, Bool.not_false, if_true, eligible_cons_of_not able]
          exact ih named
      | true =>
          rw [eligible_cons_of_eligible able, contenders, List.foldl_cons, contend,
            ← reservoirScan_held named (by simpa using namedU) Nat.one_pos]
          simp [reservoirScan, able]

theorem foldl_contend_least {score : Snapshot → Int} {cands held : List Snapshot}
    (even : ∀ x ∈ held, ∀ y ∈ held, score x = score y) {s : Snapshot} :
    s ∈ cands.foldl (contend score (fun x y => decide (x < y)) (fun x y => decide (x = y))) held ↔
      s ∈ held ++ cands ∧ ∀ t ∈ held ++ cands, score s ≤ score t := by
  induction cands generalizing held with
  | nil =>
      rw [List.foldl_nil, List.append_nil]
      exact ⟨fun member => ⟨member, fun t other => (even s member t other).le⟩, And.left⟩
  | cons u rest ih =>
      rw [List.foldl_cons]
      cases held with
      | nil => exact ih (by simp [contend])
      | cons best others =>
          have level : ∀ x ∈ best :: others, score x = score best :=
            fun x member => even x member best List.mem_cons_self
          simp only [contend, decide_eq_true_eq]
          split
          · rename_i wins
            rw [ih (by simp)]
            constructor
            · rintro ⟨member, least⟩
              have below : score s ≤ score u := least u (by simp)
              grind
            · rintro ⟨member, least⟩
              have below : score s ≤ score u := least u (by simp)
              grind
          · split
            · rw [ih (by grind)]
              simp only [List.append_assoc, List.singleton_append]
            · rename_i loses apart
              rw [ih even]
              have above : score best < score u := by omega
              constructor
              · rintro ⟨member, least⟩
                have below : score s ≤ score best := least best (by simp)
                grind
              · rintro ⟨member, least⟩
                have below : score s ≤ score best := least best (by simp)
                grind

end Reservoir

namespace WeightedRandomSelector

open WRRSelector

def total (cands : List Snapshot) : Int :=
  cands.foldl (fun total u => int64 (total + effectiveWeight u)) 0

theorem foldl_int64_le {cands : List Snapshot} {before : Int} (low : -2 ^ 63 ≤ before) :
    cands.foldl (fun total u => int64 (total + effectiveWeight u)) before ≤ before + weightSum cands := by
  induction cands generalizing before with
  | nil => simp [weightSum]
  | cons u rest ih =>
      have positive := effectiveWeight_pos u
      have wrapped : -2 ^ 63 ≤ int64 (before + effectiveWeight u) ∧
          int64 (before + effectiveWeight u) ≤ before + effectiveWeight u := by
        simp only [int64, Int.bmod]
        split <;> omega
      rw [List.foldl_cons, weightSum_cons]
      exact (ih wrapped.1).trans (by omega)

theorem total_le (cands : List Snapshot) : total cands ≤ weightSum cands := by
  exact (foldl_int64_le (by norm_num)).trans_eq (zero_add _)

theorem pick_total {pool : List Snapshot} {maxPer : Int} (some : eligible pool maxPer ≠ []) :
    pick pool maxPer =
      if total (eligible pool maxPer) ≤ 0 then
        .draw (eligible pool maxPer).length fun d => .ret ((eligible pool maxPer).get d).id
      else .draw (total (eligible pool maxPer)).toNat fun r =>
        .ret (locate (((eligible pool maxPer).getLast?.map (·.id)).getD "") (eligible pool maxPer) r) := by
  unfold pick
  exact if_neg (by simpa using some)

end WeightedRandomSelector

namespace P2CSelector

theorem pick_pair {pool : List Snapshot} {maxPer : Int} {id : String}
    (several : 2 ≤ (eligible pool maxPer).length) (out : (pick pool maxPer).Outcome id) :
    ∃ (i j : Nat) (a b : Snapshot), i ≠ j ∧ (eligible pool maxPer)[i]? = some a ∧
      (eligible pool maxPer)[j]? = some b ∧ id = if a.active ≤ b.active then a.id else b.id := by
  unfold pick at out
  split at out
  · rename_i none
    simp [none] at several
  · rename_i single
    simp [single] at several
  · obtain ⟨i, j, out⟩ := out
    have second : (if j.val ≥ i.val then j.val + 1 else j.val) < (eligible pool maxPer).length := by
      split <;> omega
    have apart : i.val ≠ if j.val ≥ i.val then j.val + 1 else j.val := by
      split <;> omega
    simp only [List.getElem?_eq_getElem i.isLt, List.getElem?_eq_getElem second,
      Drawing.outcome_ret] at out
    exact ⟨_, _, _, _, apart, List.getElem?_eq_getElem i.isLt, List.getElem?_eq_getElem second, out⟩

theorem pick_two {pool : List Snapshot} {maxPer : Int} {id : String}
    (distinct : (pool.map (·.id)).Nodup) (several : 2 ≤ (eligible pool maxPer).length)
    (out : (pick pool maxPer).Outcome id) :
    ∃ a b, a ∈ eligible pool maxPer ∧ b ∈ eligible pool maxPer ∧ a ≠ b ∧
      id = if a.active ≤ b.active then a.id else b.id := by
  obtain ⟨i, j, a, b, apart, atI, atJ, chosen⟩ := pick_pair several out
  refine ⟨a, b, List.mem_of_getElem? atI, List.mem_of_getElem? atJ, ?_, chosen⟩
  rintro rfl
  have distinct : (eligible pool maxPer).Nodup := (List.Nodup.of_map _ distinct).filter _
  obtain ⟨boundI, rfl⟩ := List.getElem?_eq_some_iff.1 atI
  obtain ⟨boundJ, same⟩ := List.getElem?_eq_some_iff.1 atJ
  exact apart (distinct.getElem_inj_iff.1 same.symm)

end P2CSelector

namespace Selector

/-- Whether some outcome of the draws makes the selector choose `s`, which is one of the candidates. -/
def MayChoose (sel : Selector) (sc : SelectCtx) (pool : List Snapshot) (maxPer : Int) (s : Snapshot) :
    Prop :=
  let cands := eligible pool maxPer
  match sel with
  | .leastActive => ∀ t ∈ cands, s.active ≤ t.active
  | .leastLatency => s ∈ contenders LeastLatencySelector.score Float64.lt Float64.eq cands
  | .random => True
  | .weightedRandom => WeightedRandomSelector.total cands ≤ 0 ∨ ∃ i, cands[i]? = some s ∧
      WRRSelector.weightSum (cands.take i) < WeightedRandomSelector.total cands
  | .p2c => cands = [s] ∨ ∃ t ∈ cands, t ≠ s ∧ s.active ≤ t.active
  | .roundRobin idx => (RoundRobinSelector.pick idx pool maxPer).1 = s.id
  | .wrr current => (WRRSelector.pick int64 current pool maxPer).1 = s.id
  | .consistentHash => ConsistentHashSelector.pick sc pool maxPer = s.id
  | .priorityFailover => PriorityFailoverSelector.pick pool maxPer = s.id

end Selector

section

variable {pool : List Snapshot} {maxPer : Int} (named : ∀ s ∈ pool, s.id ≠ "")
  (distinct : (pool.map (·.id)).Nodup) {s : Snapshot} (member : s ∈ eligible pool maxPer)

include distinct member in
theorem eq_of_eligible {t : Snapshot} (other : t ∈ eligible pool maxPer) (same : t.id = s.id) : t = s :=
  List.inj_on_of_nodup_map distinct (mem_eligible.1 other).1 (mem_eligible.1 member).1 same

include named distinct member in
theorem reservoir_iff {β : Type} {score : Snapshot → β} {better tied : β → β → Bool} {best : β} :
    (reservoirScan score better tied maxPer pool "" best 0).Outcome s.id ↔
      s ∈ contenders score better tied (eligible pool maxPer) := by
  rw [reservoirScan_iff named (named s (mem_eligible.1 member).1)]
  constructor
  · rintro ⟨t, held, same⟩
    have other : t ∈ eligible pool maxPer := (foldl_contend_subset held).resolve_left List.not_mem_nil
    rwa [← eq_of_eligible distinct member other same]
  · exact fun held => ⟨s, held, rfl⟩

include member in
theorem random_outcome : (RandomSelector.pick pool maxPer).Outcome s.id := by
  obtain ⟨i, bound, located⟩ := List.getElem_of_mem member
  have nonempty : (eligible pool maxPer).isEmpty = false := by simpa using List.ne_nil_of_mem member
  simp only [RandomSelector.pick, nonempty, Bool.false_eq_true, if_false]
  exact ⟨⟨i, bound⟩, congrArg Snapshot.id located.symm⟩

include distinct member in
theorem weightedRandom_iff : (WeightedRandomSelector.pick pool maxPer).Outcome s.id ↔
    WeightedRandomSelector.total (eligible pool maxPer) ≤ 0 ∨ ∃ i, (eligible pool maxPer)[i]? = some s ∧
      WRRSelector.weightSum ((eligible pool maxPer).take i) <
        WeightedRandomSelector.total (eligible pool maxPer) := by
  rw [WeightedRandomSelector.pick_total (List.ne_nil_of_mem member)]
  have bounded := WeightedRandomSelector.total_le (eligible pool maxPer)
  generalize WeightedRandomSelector.total (eligible pool maxPer) = total at bounded ⊢
  split
  · rename_i wrapped
    obtain ⟨i, bound, located⟩ := List.getElem_of_mem member
    exact iff_of_true ⟨⟨i, bound⟩, congrArg Snapshot.id located.symm⟩ (.inl wrapped)
  · rename_i positive
    rw [or_iff_right positive]
    constructor
    · rintro ⟨r, out⟩
      have inside : (r.val : Int) < total := by omega
      obtain ⟨i, u, stops, located⟩ :=
        WeightedRandomSelector.stop_of_lt (inside.trans_le bounded) (Int.natCast_nonneg r.val)
      rw [Drawing.outcome_ret, WeightedRandomSelector.locate_stop, stops, Option.bind_some, located] at out
      cases eq_of_eligible distinct member (List.mem_of_getElem? located) out.symm
      have range := (WeightedRandomSelector.stop_eq_some_iff located (Int.natCast_nonneg r.val)).1 stops
      exact ⟨i, located, range.1.trans_lt inside⟩
    · rintro ⟨i, located, room⟩
      have low := WRRSelector.weightSum_nonneg ((eligible pool maxPer).take i)
      have weight := WRRSelector.effectiveWeight_pos s
      obtain ⟨r, before⟩ := Int.eq_ofNat_of_zero_le low
      have stops : WeightedRandomSelector.stop (eligible pool maxPer) r = some i :=
        (WeightedRandomSelector.stop_eq_some_iff located (Int.natCast_nonneg r)).2 (by omega)
      refine ⟨⟨r, by omega⟩, ?_⟩
      rw [Drawing.outcome_ret, WeightedRandomSelector.locate_stop, stops, Option.bind_some, located]
      rfl

include distinct member in
theorem p2c_iff : (P2CSelector.pick pool maxPer).Outcome s.id ↔
    eligible pool maxPer = [s] ∨ ∃ t ∈ eligible pool maxPer, t ≠ s ∧ s.active ≤ t.active := by
  constructor
  · intro out
    match cands : eligible pool maxPer with
    | [] => simp [cands] at member
    | [u] =>
        rw [cands] at member
        exact .inl (by rw [List.mem_singleton.1 member])
    | u :: v :: rest =>
        rw [← cands]
        obtain ⟨a, b, atA, atB, apart, chosen⟩ := P2CSelector.pick_two distinct (by simp [cands]) out
        split at chosen
        · rename_i le
          cases eq_of_eligible distinct member atA chosen.symm
          exact .inr ⟨b, atB, apart.symm, le⟩
        · rename_i gt
          cases eq_of_eligible distinct member atB chosen.symm
          exact .inr ⟨a, atA, apart, (not_le.1 gt).le⟩
  · rintro (single | ⟨t, other, apart, le⟩)
    · simp [P2CSelector.pick, single]
    · obtain ⟨i, boundI, atI⟩ := List.getElem_of_mem member
      obtain ⟨j, boundJ, atJ⟩ := List.getElem_of_mem other
      have places : i ≠ j := by
        rintro rfl
        exact apart (atJ.symm.trans atI)
      unfold P2CSelector.pick
      split
      · rename_i none
        simp [none] at boundI
      · rename_i u single
        simp only [single, List.length_singleton] at boundI boundJ
        omega
      · refine ⟨⟨i, boundI⟩, ⟨if i < j then j - 1 else j, by split <;> omega⟩, ?_⟩
        have second : (if (if i < j then j - 1 else j) ≥ i then (if i < j then j - 1 else j) + 1
            else if i < j then j - 1 else j) = j := by
          split <;> split <;> omega
        simp only [second, List.getElem?_eq_getElem boundI, List.getElem?_eq_getElem boundJ, atI, atJ, le,
          if_true, Drawing.outcome_ret]

include named distinct member in
theorem Selector.outcome_iff (sel : Selector) (sc : SelectCtx) :
    (∃ after, (sel.pick sc pool maxPer).Outcome (s.id, after)) ↔ sel.MayChoose sc pool maxPer s := by
  have drawn (t : Drawing String) : (∃ after, (t.map (·, sel)).Outcome (s.id, after)) ↔ t.Outcome s.id := by
    simp
  have told (id : String) (next : Selector) :
      (∃ after, (Drawing.ret (id, next)).Outcome (s.id, after)) ↔ id = s.id := by
    simp [eq_comm]
  cases sel with
  | leastActive =>
      rw [pick, drawn, LeastActiveSelector.pick, reservoir_iff named distinct member, contenders,
        foldl_contend_least (by simp)]
      simp [MayChoose, member]
  | leastLatency => exact (drawn _).trans (reservoir_iff named distinct member)
  | random => exact (drawn _).trans (iff_of_true (random_outcome member) trivial)
  | weightedRandom => exact (drawn _).trans (weightedRandom_iff distinct member)
  | p2c => exact (drawn _).trans (p2c_iff distinct member)
  | roundRobin idx => exact told _ _
  | wrr current => exact told _ _
  | consistentHash => exact told _ _
  | priorityFailover => exact told _ _

end

end S5lb
