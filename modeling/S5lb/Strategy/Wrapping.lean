import S5lb.Strategy.Fairness

/-! The int64 arithmetic of one call. The IDs need not differ here: specs without an ID may have the
same address. -/

namespace S5lb

theorem int64_range (x : Int) : -2 ^ 63 ≤ int64 x ∧ int64 x < 2 ^ 63 := by
  have low := @Int.le_bmod x (2 ^ 64) (by norm_num)
  have high := @Int.bmod_lt x (2 ^ 64) (by norm_num)
  unfold int64
  norm_num at low high ⊢
  exact ⟨low, high⟩

theorem int64_eq_iff {x : Int} : int64 x = x ↔ -2 ^ 63 ≤ x ∧ x < 2 ^ 63 := by
  constructor
  · intro same
    rw [← same]
    exact int64_range x
  · rintro ⟨low, high⟩
    exact WRRSelector.int64_eq low high

namespace WRRSelector

def additions (wrap : Int → Int) (maxPer : Int) : Best → List Snapshot → List Int
  | _, [] => []
  | acc, u :: rest =>
      (if u.eligible maxPer then
        [stored acc.current u.id + effectiveWeight u, acc.total + effectiveWeight u] else []) ++
      additions wrap maxPer (visit wrap maxPer acc u) rest

def operations (wrap : Int → Int) (current : Current) (call : Call) : List Int :=
  let start : Best := ⟨prune current call.pool, 0, "", 0⟩
  let best := call.pool.foldl (visit wrap call.maxPer) start
  additions wrap call.maxPer start call.pool ++
    if best.bestID = "" then [] else [best.bestCur - best.total]

def Exact (current : Current) (call : Call) : Prop := ∀ x ∈ operations int64 current call, int64 x = x

structure Fits (current : Current) (call : Call) : Prop where
  total : weightSum (eligible call.pool call.maxPer) < 2 ^ 63
  earned : ∀ u ∈ eligible call.pool call.maxPer,
    stored current u.id + weightOf (eligible call.pool call.maxPer) u.id < 2 ^ 63
  paid : eligible call.pool call.maxPer ≠ [] → ∃ u ∈ eligible call.pool call.maxPer,
    weightSum (eligible call.pool call.maxPer) - 2 ^ 63 ≤
      stored current u.id + weightOf (eligible call.pool call.maxPer) u.id

section Wrap

variable {wrap : Int → Int} {maxPer : Int}

theorem visit_exact {acc : Best} {u : Snapshot}
    (exact : ∀ x ∈ (if u.eligible maxPer then
      [stored acc.current u.id + effectiveWeight u, acc.total + effectiveWeight u] else []), wrap x = x) :
    visit wrap maxPer acc u = visit id maxPer acc u := by
  cases able : u.eligible maxPer with
  | false => simp [visit, able]
  | true =>
      simp only [able, if_true, List.forall_mem_cons] at exact
      rw [stored] at exact
      simp only [visit, able, exact.1, exact.2.1, id]

theorem additions_exact {acc : Best} {pool : List Snapshot}
    (exact : (∀ x ∈ additions wrap maxPer acc pool, wrap x = x) ∨
      ∀ x ∈ additions id maxPer acc pool, wrap x = x) :
    additions wrap maxPer acc pool = additions id maxPer acc pool ∧
      pool.foldl (visit wrap maxPer) acc = pool.foldl (visit id maxPer) acc := by
  induction pool generalizing acc with
  | nil => exact ⟨rfl, rfl⟩
  | cons u rest ih =>
      simp only [additions, List.forall_mem_append] at exact
      have first : visit wrap maxPer acc u = visit id maxPer acc u := by
        rcases exact with exact | exact
        · exact visit_exact exact.1
        · exact visit_exact exact.1
      obtain ⟨later, last⟩ := @ih (visit id maxPer acc u) (by
        rcases exact with exact | exact
        · exact .inl (first ▸ exact.2)
        · exact .inr exact.2)
      rw [additions, additions, List.foldl_cons, List.foldl_cons, first, later, last]
      exact ⟨rfl, rfl⟩

theorem operations_exact {current : Current} {call : Call}
    (exact : (∀ x ∈ operations wrap current call, wrap x = x) ∨
      ∀ x ∈ operations id current call, wrap x = x) :
    operations wrap current call = operations id current call ∧
      pick wrap current call.pool call.maxPer = pick id current call.pool call.maxPer := by
  simp only [operations, List.forall_mem_append] at exact
  obtain ⟨adds, folds⟩ := additions_exact (exact.imp And.left And.left)
  have same : operations wrap current call = operations id current call := by
    rw [operations, operations, adds, folds]
  refine ⟨same, ?_⟩
  rw [folds] at exact
  have last := exact.elim And.right And.right
  rw [pick, pick, folds]
  split
  · rfl
  · rename_i someone
    rw [if_neg someone, List.forall_mem_singleton] at last
    rw [last]
    rfl

theorem exact_iff {current : Current} {call : Call} :
    (∀ x ∈ operations wrap current call, wrap x = x) ↔ ∀ x ∈ operations id current call, wrap x = x := by
  constructor
  · intro exact
    rw [← (operations_exact (.inl exact)).1]
    exact exact
  · intro exact
    rw [(operations_exact (.inr exact)).1]
    exact exact

theorem additions_append (acc : Best) (seen rest : List Snapshot) :
    additions wrap maxPer acc (seen ++ rest) =
      additions wrap maxPer acc seen ++ additions wrap maxPer (seen.foldl (visit wrap maxPer) acc) rest := by
  induction seen generalizing acc with
  | nil => rfl
  | cons u seen ih => rw [List.cons_append, additions, additions, ih, List.foldl_cons, List.append_assoc]

end Wrap

section Exactly

variable {maxPer : Int} {before : Current}

theorem additions_snoc {seen : List Snapshot} (named : ∀ v ∈ seen, v.id ≠ "") {u : Snapshot}
    (able : u.eligible maxPer = true) :
    additions id maxPer ⟨before, 0, "", 0⟩ (seen ++ [u]) = additions id maxPer ⟨before, 0, "", 0⟩ seen ++
      [stored before u.id + weightOf (eligible (seen ++ [u]) maxPer) u.id,
        weightSum (eligible (seen ++ [u]) maxPer)] := by
  have tallied := @tallied_foldl maxPer before seen named
  rw [additions_append, additions, additions, able, if_pos rfl, List.append_nil, tallied.credits,
    tallied.total, eligible_snoc able, weightOf_snoc, if_pos rfl, add_assoc]
  simp [weightSum]

theorem additions_snoc_not (acc : Best) (seen : List Snapshot) {u : Snapshot}
    (unable : u.eligible maxPer = false) :
    additions id maxPer acc (seen ++ [u]) = additions id maxPer acc seen := by
  simp [additions_append, additions, unable]

theorem additions_lt_iff {pool : List Snapshot} (named : ∀ u ∈ pool, u.id ≠ "") {bound : Int}
    (positive : 0 < bound) : (∀ x ∈ additions id maxPer ⟨before, 0, "", 0⟩ pool, x < bound) ↔
      weightSum (eligible pool maxPer) < bound ∧
        ∀ u ∈ eligible pool maxPer, stored before u.id + weightOf (eligible pool maxPer) u.id < bound := by
  induction pool using List.reverseRecOn with
  | nil => simp [additions, eligible, weightSum, positive]
  | append_singleton seen u ih =>
      have others : ∀ v ∈ seen, v.id ≠ "" := fun v member => named v (List.mem_append_left _ member)
      cases able : u.eligible maxPer with
      | false =>
          rw [additions_snoc_not _ _ able, eligible_snoc_not able]
          exact ih others
      | true =>
          have gain := effectiveWeight_pos u
          have total : weightSum (eligible seen maxPer ++ [u]) = weightSum (eligible seen maxPer) + effectiveWeight u := by
            simp [weightSum]
          rw [additions_snoc others able, List.forall_mem_append, ih others, eligible_snoc able,
            List.forall_mem_append, List.forall_mem_singleton, List.forall_mem_cons, List.forall_mem_singleton]
          constructor
          · rintro ⟨⟨-, earlier⟩, own, sum⟩
            refine ⟨sum, fun v among => ?_, own⟩
            by_cases same : u.id = v.id
            · rwa [← same]
            · rw [weightOf_snoc, if_neg same, add_zero]
              exact earlier v among
          · rintro ⟨sum, earlier, own⟩
            refine ⟨⟨by omega, fun v among => ?_⟩, own, sum⟩
            have less := earlier v among
            rw [weightOf_snoc] at less
            split at less <;> omega

theorem additions_low {pool : List Snapshot} (named : ∀ u ∈ pool, u.id ≠ "") {bound : Int}
    (nonpos : bound ≤ 0) (low : ∀ id, bound ≤ stored before id) :
    ∀ x ∈ additions id maxPer ⟨before, 0, "", 0⟩ pool, bound ≤ x := by
  induction pool using List.reverseRecOn with
  | nil => exact fun x none => absurd none List.not_mem_nil
  | append_singleton seen u ih =>
      have others : ∀ v ∈ seen, v.id ≠ "" := fun v member => named v (List.mem_append_left _ member)
      cases able : u.eligible maxPer with
      | false =>
          rw [additions_snoc_not _ _ able]
          exact ih others
      | true =>
          have own := low u.id
          have gains := weightOf_nonneg (eligible (seen ++ [u]) maxPer) u.id
          have sum := weightSum_nonneg (eligible (seen ++ [u]) maxPer)
          rw [additions_snoc others able, List.forall_mem_append, List.forall_mem_cons, List.forall_mem_singleton]
          exact ⟨ih others, by omega, by omega⟩

end Exactly

section Call

variable {current : Current} {call : Call} (named : ∀ u ∈ call.pool, u.id ≠ "")

theorem stored_prune_low {bound : Int} (nonpos : bound ≤ 0) {pool : List Snapshot}
    (low : ∀ u ∈ pool, bound ≤ stored current u.id) (id : String) :
    bound ≤ stored (prune current pool) id := by
  unfold stored prune
  split
  · rename_i found
    obtain ⟨u, member, same⟩ := List.any_eq_true.1 found
    rw [← beq_iff_eq.1 same]
    exact low u member
  · exact nonpos

theorem stored_kept {v : Snapshot} (among : v ∈ eligible call.pool call.maxPer) :
    stored (prune current call.pool) v.id = stored current v.id :=
  stored_prune (List.mem_map_of_mem (List.mem_of_mem_filter among))

include named in
theorem stored_best {best : Best}
    (folded : call.pool.foldl (visit id call.maxPer) ⟨prune current call.pool, 0, "", 0⟩ = best) :
    eligible call.pool call.maxPer = [] ∧ best.bestID = "" ∨
      best.bestID ≠ "" ∧ best.bestID ∈ (eligible call.pool call.maxPer).map (·.id) ∧
      best.bestCur = stored current best.bestID + weightOf (eligible call.pool call.maxPer) best.bestID ∧
      ∀ v ∈ eligible call.pool call.maxPer,
        stored current v.id + weightOf (eligible call.pool call.maxPer) v.id ≤ best.bestCur := by
  have tallied := @tallied_foldl call.maxPer (prune current call.pool) call.pool named
  rw [folded] at tallied
  rcases tallied.best with nobody | ⟨held, bestCur, most⟩
  · exact .inl nobody
  · obtain ⟨w, listed, same⟩ := List.mem_map.1 held
    refine .inr ⟨same ▸ named w (List.mem_of_mem_filter listed), held, ?_, fun v among => ?_⟩
    · rw [bestCur, tallied.credits, ← same, stored_kept listed]
    · have less := most v among
      rwa [tallied.credits, stored_kept among] at less

include named in
theorem fits_iff (low : ∀ u ∈ call.pool, -2 ^ 63 ≤ stored current u.id) :
    Exact current call ↔ Fits current call := by
  have floor := @additions_low call.maxPer (prune current call.pool) call.pool named (-2 ^ 63) (by norm_num)
    (stored_prune_low (by norm_num) low)
  have ceiling := @additions_lt_iff call.maxPer (prune current call.pool) call.pool named (2 ^ 63) (by norm_num)
  have nonneg := weightSum_nonneg (eligible call.pool call.maxPer)
  have total := (@tallied_foldl call.maxPer (prune current call.pool) call.pool named).total
  rw [Exact, exact_iff, operations, List.forall_mem_append]
  generalize folded : call.pool.foldl (visit id call.maxPer) ⟨prune current call.pool, 0, "", 0⟩ = best at total
  have adds : (∀ x ∈ additions id call.maxPer ⟨prune current call.pool, 0, "", 0⟩ call.pool, int64 x = x) ↔
      weightSum (eligible call.pool call.maxPer) < 2 ^ 63 ∧ ∀ u ∈ eligible call.pool call.maxPer,
        stored current u.id + weightOf (eligible call.pool call.maxPer) u.id < 2 ^ 63 := by
    constructor
    · intro exact
      obtain ⟨sum, earned⟩ := ceiling.1 fun x member => (int64_eq_iff.1 (exact x member)).2
      exact ⟨sum, fun u among => stored_kept among ▸ earned u among⟩
    · rintro ⟨sum, earned⟩ x member
      exact int64_eq_iff.2 ⟨floor x member, ceiling.2 ⟨sum, fun u among => (stored_kept among).symm ▸ earned u among⟩ x member⟩
  rw [adds]
  rcases stored_best named folded with ⟨nobody, blank⟩ | ⟨someone, held, bestCur, most⟩
  · rw [if_pos blank]
    constructor
    · rintro ⟨⟨sum, earned⟩, -⟩
      exact ⟨sum, earned, fun some => absurd nobody some⟩
    · intro fits
      exact ⟨⟨fits.total, fits.earned⟩, fun x none => absurd none List.not_mem_nil⟩
  · obtain ⟨w, listed, same⟩ := List.mem_map.1 held
    rw [if_neg someone, List.forall_mem_singleton, int64_eq_iff, total]
    constructor
    · rintro ⟨⟨sum, earned⟩, enough, -⟩
      refine ⟨sum, earned, fun _ => ⟨w, listed, ?_⟩⟩
      rw [same, ← bestCur]
      omega
    · intro fits
      obtain ⟨v, among, enough⟩ := fits.paid (List.ne_nil_of_mem listed)
      have atMost := most v among
      have small := fits.earned w listed
      rw [same, ← bestCur] at small
      exact ⟨⟨fits.total, fits.earned⟩, by omega, by omega⟩

end Call

end WRRSelector

end S5lb
