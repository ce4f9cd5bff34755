import S5lb.Config.Checked
import S5lb.Strategy.Proportion

/-! The weights of a config over the runs of the selectors: which calls are exact, and for which
weights all of them are. -/

namespace S5lb

namespace WRRSelector

open Balance Transition

section Run

theorem visit_low {maxPer : Int} {acc : Best} (low : ∀ id, -2 ^ 63 ≤ stored acc.current id) (u : Snapshot) :
    ∀ id, -2 ^ 63 ≤ stored (visit int64 maxPer acc u).current id := by
  have updated : ∀ id, -2 ^ 63 ≤ stored (Function.update acc.current u.id
      (some (int64 ((acc.current u.id).getD 0 + effectiveWeight u)))) id := by
    intro id
    rw [stored_update]
    split
    · exact (int64_range _).1
    · exact low id
  unfold visit
  split
  · exact low
  · dsimp only
    split
    · exact updated
    · exact updated

theorem pick_low {current : Current} (low : ∀ id, -2 ^ 63 ≤ stored current id) (pool : List Snapshot)
    (maxPer : Int) : ∀ id, -2 ^ 63 ≤ stored (pick int64 current pool maxPer).2 id := by
  have folded (seen : List Snapshot) : ∀ id, -2 ^ 63 ≤
      stored (seen.foldl (visit int64 maxPer) ⟨prune current pool, 0, "", 0⟩).current id := by
    induction seen using List.reverseRecOn with
    | nil => exact stored_prune_low (by norm_num) fun u _ => low u.id
    | append_singleton seen u ih =>
        rw [List.foldl_append]
        exact visit_low ih u
  unfold pick
  dsimp only
  split
  · exact folded pool
  · intro id
    rw [stored_update]
    split
    · exact (int64_range _).1
    · exact folded pool id

theorem run_low {trace : List (Current × Call)} {current : Current} (exec : Exec step fresh trace current) :
    ∀ id, -2 ^ 63 ≤ stored current id := by
  apply exec.stable
  · intro id
    simp [stored, fresh]
  · intro s call after low taken
    rw [← Option.some.inj taken]
    exact pick_low low call.pool call.maxPer

theorem run_fits_iff {trace : List (Current × Call)} {current : Current} (exec : Exec step fresh trace current)
    (named : ∀ entry ∈ trace, ∀ u ∈ entry.2.pool, u.id ≠ "") :
    (∀ entry ∈ trace, Exact entry.1 entry.2) ↔ Guarded Fits trace := by
  have each : ∀ entry ∈ trace, (Exact entry.1 entry.2 ↔ Fits entry.1 entry.2) := by
    intro entry member
    obtain ⟨before, after, rfl⟩ := List.append_of_mem member
    exact fits_iff (named entry member) fun u _ => run_low exec.split.1 u.id
  constructor
  · intro exact entry member
    exact (each entry member).1 (exact entry member)
  · intro fits entry member
    exact (each entry member).2 (fits entry member)

end Run

def Call.On (call : Call) (base : List Snapshot) : Prop := (call.pool.map identity).Perm (base.map identity)

section Bound

variable {base : List Snapshot} {call : Call} (these : call.On base)

theorem weightSum_sublist {us vs : List Snapshot} (part : us.Sublist vs) : weightSum us ≤ weightSum vs := by
  apply (part.map effectiveWeight).sum_le_sum
  intro w member
  obtain ⟨u, -, rfl⟩ := List.mem_map.1 member
  exact (effectiveWeight_pos u).le

include these in
theorem Call.On.ids : (call.pool.map (·.id)).Perm (base.map (·.id)) := by
  rw [ids_identity call.pool, ids_identity base]
  exact List.Perm.map (·.1) these

include these in
theorem Call.On.members_eq : members call.pool = members base := by
  rw [members, members]
  exact List.toFinset_eq_of_perm _ _ these.ids

include these in
theorem Call.On.weights : weightOf call.pool = weightOf base := funext (weightOf_congr these)

include these in
theorem Call.On.total_le : weightSum (eligible call.pool call.maxPer) ≤ weightSum base := by
  apply (weightSum_sublist List.filter_sublist).trans
  rw [← sum_members, ← sum_members, these.members_eq, these.weights]

theorem weightOf_le_sum (us : List Snapshot) (id : String) : weightOf us id ≤ weightSum us :=
  weightSum_sublist List.filter_sublist

include these in
theorem fits_of_level {current : Current} (small : ((base.length : Int) + 1) * weightSum base < 2 ^ 64)
    (level : Level (members base) (weightOf base) (stored current)) : Fits current call := by
  have nonneg := weightSum_nonneg base
  have total := these.total_le
  have near {u : Snapshot} (among : u ∈ eligible call.pool call.maxPer) :
      2 * |stored current u.id| ≤ weightSum base * (base.length - 1) := by
    have listed : u.id ∈ members base := by
      rw [← these.members_eq]
      exact List.mem_toFinset.2 (List.mem_map_of_mem (List.mem_of_mem_filter among))
    have close := level.abs_le listed
    have count : ((members base).card : Int) ≤ base.length := by
      have few := List.toFinset_card_le (base.map (·.id))
      rw [List.length_map] at few
      exact_mod_cast few
    rw [sum_members] at close
    exact close.trans (mul_le_mul_of_nonneg_left (by omega) nonneg)
  have spread : weightSum base * (base.length - 1) + 2 * weightSum base < 2 ^ 64 := by linarith
  refine ⟨?_, fun u among => ?_, fun some => ?_⟩
  · rcases base.eq_nil_or_concat with none | ⟨others, last, rfl⟩
    · have zero : weightSum base = 0 := by rw [none]; rfl
      omega
    · rw [List.length_concat] at small
      push_cast at small
      nlinarith [Int.natCast_nonneg others.length]
  · have share := weightOf_le_sum (eligible call.pool call.maxPer) u.id
    have close := near among
    have upper := le_abs_self (stored current u.id)
    omega
  · obtain ⟨u, rest, first⟩ := List.exists_cons_of_ne_nil some
    have among : u ∈ eligible call.pool call.maxPer := by rw [first]; exact List.mem_cons_self
    have gains := weightOf_nonneg (eligible call.pool call.maxPer) u.id
    have close := near among
    have lower := neg_abs_le (stored current u.id)
    exact ⟨u, among, by omega⟩

include these in
theorem level_pick (named : ∀ u ∈ call.pool, u.id ≠ "") {current : Current} (exact : Exact current call)
    (level : Level (members base) (weightOf base) (stored current)) :
    Level (members base) (weightOf base) (stored (pick int64 current call.pool call.maxPer).2) := by
  have tallied := @tallied_foldl call.maxPer (prune current call.pool) call.pool named
  rw [(operations_exact (.inl exact)).2, pick]
  generalize folded : call.pool.foldl (visit id call.maxPer) ⟨prune current call.pool, 0, "", 0⟩ = best at tallied
  have credits {id : String} (present : id ∈ call.pool.map (·.id)) : stored best.current id =
      stored current id + weightOf (eligible call.pool call.maxPer) id := by
    rw [tallied.credits, stored_prune present]
  rcases stored_best named folded with ⟨nobody, blank⟩ | ⟨someone, held, bestCur, most⟩
  · rw [if_pos blank]
    apply level.congr
    intro id member
    rw [← these.members_eq] at member
    rw [credits (List.mem_toFinset.1 member), nobody]
    simp [weightOf, weightSum]
  · rw [if_neg someone]
    rw [bestCur] at most
    have paid : ∀ id ∈ call.pool.map (·.id),
        stored (Function.update best.current best.bestID (some (best.bestCur - best.total))) id =
          stored current id + weightOf (eligible call.pool call.maxPer) id -
            if best.bestID = id then weightSum (eligible call.pool call.maxPer) else 0 := by
      intro id present
      rw [stored_update]
      split
      · rename_i same
        rw [bestCur, same, tallied.total]
      · rw [credits present, sub_zero]
    have round := earned_round held most paid
    rw [these.members_eq] at round
    apply round.level (fun id _ => weightOf_nonneg _ id) _ level
    intro id _
    rw [← these.weights]
    exact weightSum_sublist (List.filter_sublist.filter _)

include these in
theorem named_of_on (named : ∀ u ∈ base, u.id ≠ "") : ∀ u ∈ call.pool, u.id ≠ "" := by
  intro u member blank
  obtain ⟨v, listed, same⟩ := List.mem_map.1 (these.ids.mem_iff.1 (List.mem_map_of_mem member))
  exact named v listed (same.trans blank)

end Bound

theorem run_fits {base : List Snapshot} (named : ∀ u ∈ base, u.id ≠ "")
    (small : ((base.length : Int) + 1) * weightSum base < 2 ^ 64) {trace : List (Current × Call)}
    {current : Current} (exec : Exec step fresh trace current) (these : ∀ entry ∈ trace, entry.2.On base) :
    Guarded Fits trace ∧ Level (members base) (weightOf base) (stored current) := by
  induction exec with
  | nil =>
      have level := @level_zero _ (members base) _ fun id _ => weightOf_nonneg base id
      exact ⟨fun entry none => absurd none List.not_mem_nil, level.congr fun id _ => by simp [stored, fresh]⟩
  | @snoc trace s call after before taken ih =>
      have now : call.On base := these (s, call) (by simp)
      obtain ⟨earlier, level⟩ := ih fun entry member => these entry (List.mem_append_left _ member)
      have fits := fits_of_level now small level
      have exact := (fits_iff (named_of_on now named) fun u _ => run_low before u.id).2 fits
      refine ⟨guarded_snoc.2 ⟨earlier, fits⟩, ?_⟩
      rw [← Option.some.inj taken]
      exact level_pick now (named_of_on now named) exact level

end WRRSelector

namespace WeightedRandomSelector

open WRRSelector

def additions (total : Int) : List Snapshot → List Int
  | [] => []
  | u :: rest => (total + effectiveWeight u) :: additions (int64 (total + effectiveWeight u)) rest

theorem additions_exact_iff {total : Int} (start : 0 ≤ total) (below : total < 2 ^ 63) (cands : List Snapshot) :
    (∀ x ∈ additions total cands, int64 x = x) ↔ total + weightSum cands < 2 ^ 63 := by
  induction cands generalizing total with
  | nil => simpa [additions, weightSum] using below
  | cons u rest ih =>
      have gain := effectiveWeight_pos u
      have others := weightSum_nonneg rest
      have sum : weightSum (u :: rest) = effectiveWeight u + weightSum rest := by simp [weightSum]
      rw [additions, List.forall_mem_cons, int64_eq_iff, sum]
      by_cases room : total + effectiveWeight u < 2 ^ 63
      · rw [int64_eq (by omega) room, ih (by omega) room]
        omega
      · omega

end WeightedRandomSelector

open Transition WRRSelector

def UpstreamSpec.builtWeight (s : UpstreamSpec) : Int := if s.weight ≤ 0 then 1 else s.weight

def Picks (call : WRRSelector.Call) (ups : List Upstream) : Prop :=
  (call.pool.map fun u => (u.id, u.weight)).Perm (ups.map fun u => (u.id, u.weight))

def pristine (ups : List Upstream) : List Snapshot := ups.map (·.snapshot ⟨fun _ => newState, 0⟩)

theorem Picks.on {call : WRRSelector.Call} {ups : List Upstream} (picks : Picks call ups) :
    call.On (pristine ups) := by
  have known := picks.map fun p : String × Int => (p.1, if p.2 ≤ 0 then 1 else p.2)
  have read : identity = fun u => (u.id, if u.weight ≤ 0 then 1 else u.weight) := rfl
  simpa [WRRSelector.Call.On, pristine, Function.comp_def, read, Upstream.snapshot] using known

section Built

variable {cfg : Config} {heap after : Heap State} {ups : List Upstream}
  (built : cfg.buildUpstreams heap = .ok (ups, after))

include built

theorem pristine_named : ∀ u ∈ pristine ups, u.id ≠ "" := by
  intro s member
  obtain ⟨u, listed, rfl⟩ := List.mem_map.1 member
  have bare : u.bare ∈ cfg.upstreams.map UpstreamSpec.toUpstream := by
    rw [← bare_of_buildUpstreamsFrom built]
    exact List.mem_map_of_mem listed
  obtain ⟨spec, -, same⟩ := List.mem_map.1 bare
  have id : u.id = spec.toUpstream.id := by rw [same]; rfl
  change u.id ≠ ""
  rw [id, UpstreamSpec.toUpstream]
  split
  · assumption
  · exact Upstream.normalizeID_ne_empty _

theorem pristine_weights : weightSum (pristine ups) = (cfg.upstreams.map UpstreamSpec.builtWeight).sum ∧
    (pristine ups).length = cfg.upstreams.length := by
  have weights : ups.map (·.weight) = cfg.upstreams.map UpstreamSpec.builtWeight := by
    have bare := congrArg (List.map (·.weight)) (bare_of_buildUpstreamsFrom built)
    rw [List.map_map, List.map_map] at bare
    rw [show ups.map (·.weight) = ups.map ((·.weight) ∘ Upstream.bare) from rfl, bare]
    apply List.map_congr_left
    intro spec _
    simp only [Function.comp_apply, UpstreamSpec.toUpstream, UpstreamSpec.builtWeight, Upstream.normalizeID]
    split <;> rfl
  constructor
  · have effective : (pristine ups).map effectiveWeight =
        (ups.map (·.weight)).map fun w => if w ≤ 0 then 1 else w := by
      simp [pristine, Function.comp_def, effectiveWeight, Upstream.snapshot]
    rw [weightSum, effective, weights, List.map_map]
    congr 1
    apply List.map_congr_left
    intro spec _
    by_cases low : spec.weight ≤ 0
    · simp [UpstreamSpec.builtWeight, low]
    · simp [UpstreamSpec.builtWeight, low]
  · rw [pristine, List.length_map]
    simpa using congrArg List.length weights

end Built

/-- The operations of a call of either selector are exact precisely if the call fits, in the state
before it. Every call fits where the weights of a config are not close to the limit. -/
theorem weights_exact_iff {cfg : Config} {heap after : Heap State} {ups : List Upstream}
    (built : cfg.buildUpstreams heap = .ok (ups, after)) :
    (∀ trace current, Exec WRRSelector.step fresh trace current → (∀ entry ∈ trace, Picks entry.2 ups) →
      ((∀ entry ∈ trace, Exact entry.1 entry.2) ↔ Guarded Fits trace)) ∧
    (∀ call : WRRSelector.Call,
      (∀ x ∈ WeightedRandomSelector.additions 0 (eligible call.pool call.maxPer), int64 x = x) ↔
      weightSum (eligible call.pool call.maxPer) < 2 ^ 63) ∧
    (((cfg.upstreams.length : Int) + 1) * (cfg.upstreams.map UpstreamSpec.builtWeight).sum < 2 ^ 64 →
      ∀ trace current, Exec WRRSelector.step fresh trace current → (∀ entry ∈ trace, Picks entry.2 ups) →
        Guarded Fits trace) := by
  have named := pristine_named built
  obtain ⟨sum, count⟩ := pristine_weights built
  refine ⟨fun trace current exec picks => ?_, fun call => ?_, fun small trace current exec picks => ?_⟩
  · apply run_fits_iff exec
    intro entry member
    exact named_of_on (picks entry member).on named
  · have exact := WeightedRandomSelector.additions_exact_iff le_rfl (by norm_num) (eligible call.pool call.maxPer)
    rwa [zero_add] at exact
  · rw [← sum, ← count] at small
    exact (run_fits named small exec fun entry member => (picks entry member).on).1

def weighted (first second : Int) : Config :=
  { defaults with
    upstreams := [⟨"a", "10.0.0.1", 1080, "", "", first, 0⟩, ⟨"b", "10.0.0.2", 1080, "", "", second, 0⟩] }

theorem weights_exact_iff_defaults : ∃ ups after,
    (weighted 0 0).buildUpstreams ⟨fun _ => newState, 0⟩ = .ok (ups, after) ∧
    ∀ trace current, Exec WRRSelector.step fresh trace current → (∀ entry ∈ trace, Picks entry.2 ups) →
      ∀ entry ∈ trace, Exact entry.1 entry.2 := by
  obtain ⟨⟨ups, after⟩, built, -⟩ := @ok_of_any _ _ ((weighted 0 0).buildUpstreams ⟨fun _ => newState, 0⟩)
    (fun _ => true) (by decide +kernel)
  obtain ⟨exact, -, fits⟩ := weights_exact_iff built
  refine ⟨ups, after, built, fun trace current exec picks => ?_⟩
  exact (exact trace current exec picks).2 (fits (by decide +kernel) trace current exec picks)

/-- Two weights of `2 ^ 62` pass `Validate`, and their total wraps around in the first call. -/
theorem accepted_weights_overflow : (weighted (2 ^ 62) (2 ^ 62)).validate = .ok (weighted (2 ^ 62) (2 ^ 62)) ∧
    ∃ ups after, (weighted (2 ^ 62) (2 ^ 62)).buildUpstreams ⟨fun _ => newState, 0⟩ = .ok (ups, after) ∧
      ¬Exact fresh ⟨pristine ups, 1⟩ ∧
      ¬∀ x ∈ WeightedRandomSelector.additions 0 (eligible (pristine ups) 1), int64 x = x := by
  refine ⟨rfl, ?_⟩
  obtain ⟨⟨ups, after⟩, built, tested⟩ := @ok_of_any _ _
    ((weighted (2 ^ 62) (2 ^ 62)).buildUpstreams ⟨fun _ => newState, 0⟩)
    (fun p => decide (2 ^ 63 ∈ operations int64 fresh ⟨pristine p.1, 1⟩ ∧
      2 ^ 63 ∈ WeightedRandomSelector.additions 0 (eligible (pristine p.1) 1))) (by decide +kernel)
  obtain ⟨wrr, random⟩ := of_decide_eq_true tested
  refine ⟨ups, after, built, fun exact => ?_, fun exact => ?_⟩
  · exact absurd (exact _ wrr) (by decide +kernel)
  · exact absurd (exact _ random) (by decide +kernel)

end S5lb
