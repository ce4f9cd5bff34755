import Mathlib

/-! A game of credit: in each round some members earn their weights, and one of them that then has
the most pays what all of them have earned. -/

namespace Balance

variable {ι : Type*} [DecidableEq ι] {members earners : Finset ι} {weight earned before after : ι → ℤ}
  {payer : ι}

structure Round (members : Finset ι) (weight before : ι → ℤ) (earners : Finset ι) (payer : ι)
    (after : ι → ℤ) : Prop where
  inside : earners ⊆ members
  earns : payer ∈ earners
  richest : ∀ i ∈ earners, before i + weight i ≤ before payer + weight payer
  paid : ∀ i ∈ members, after i = before i + (if i ∈ earners then weight i else 0) -
    if i = payer then ∑ j ∈ earners, weight j else 0

/-- No coalition is far above or below zero. Bounds on single members would not survive a round:
what one member may have depends on what the others have. -/
structure Level (members : Finset ι) (weight credit : ι → ℤ) : Prop where
  settled : ∑ i ∈ members, credit i = 0
  bounded : ∀ s ⊆ members, 2 * ∑ i ∈ s, credit i ≤
    (∑ i ∈ members, weight i) * (s.card * (members.card - s.card))

theorem Round.congr (round : Round members weight before earners payer after)
    (same : ∀ i ∈ earners, earned i = weight i) : Round members earned before earners payer after := by
  refine ⟨round.inside, round.earns, fun i member => ?_, fun i member => ?_⟩
  · rw [same i member, same payer round.earns]
    exact round.richest i member
  · rw [round.paid i member, Finset.sum_congr rfl same]
    by_cases earns : i ∈ earners
    · rw [if_pos earns, if_pos earns, same i earns]
    · rw [if_neg earns, if_neg earns]

theorem Round.sum_eq (round : Round members weight before earners payer after) {s : Finset ι}
    (part : s ⊆ members) :
    ∑ i ∈ s, after i = ∑ i ∈ s, before i + ∑ i ∈ s ∩ earners, weight i -
      if payer ∈ s then ∑ j ∈ earners, weight j else 0 := by
  rw [Finset.sum_congr rfl fun i member => round.paid i (part member)]
  simp only [Finset.sum_sub_distrib, Finset.sum_add_distrib, Finset.sum_ite_mem,
    Finset.sum_ite_eq']

theorem level_arith {n k j total others theirs most : ℤ} (some : 1 ≤ j) (weights : 0 ≤ total)
    (outside : 2 * others ≤ total * ((k - j) * (n - (k - j)))) (poorer : theirs ≤ j * most)
    (joint : 2 * (others + theirs + most) ≤ total * ((k + 1) * (n - (k + 1))) + 2 * total) :
    2 * (others + theirs) ≤ total * (k * (n - k)) := by
  have doubled : (j + 1) * (2 * (others + theirs)) ≤ (j + 1) * (total * (k * (n - k))) := by
    calc (j + 1) * (2 * (others + theirs))
        ≤ 2 * others + j * (2 * (others + theirs + most)) := by nlinarith
      _ ≤ total * ((k - j) * (n - (k - j))) + j * (total * ((k + 1) * (n - (k + 1))) + 2 * total) := by
          nlinarith
      _ = (j + 1) * (total * (k * (n - k))) - total * (j * (j - 1)) := by ring
      _ ≤ (j + 1) * (total * (k * (n - k))) := by
          have spare : 0 ≤ total * (j * (j - 1)) := mul_nonneg weights (mul_nonneg (by omega) (by omega))
          omega
  exact le_of_mul_le_mul_left doubled (by omega)

theorem Round.bounded (round : Round members earned before earners payer after)
    (nonneg : ∀ i ∈ members, 0 ≤ earned i) (most : ∀ i ∈ members, earned i ≤ weight i)
    (level : Level members weight before) {s : Finset ι} (part : s ⊆ members) :
    2 * ∑ i ∈ s, after i ≤ (∑ i ∈ members, weight i) * (s.card * (members.card - s.card)) := by
  have gains : ∀ i ∈ earners, 0 ≤ earned i := fun i member => nonneg i (round.inside member)
  rw [round.sum_eq part]
  by_cases pays : payer ∈ s
  · have less : ∑ i ∈ s ∩ earners, earned i ≤ ∑ j ∈ earners, earned j :=
      Finset.sum_le_sum_of_subset_of_nonneg Finset.inter_subset_right fun i member _ => gains i member
    have old := level.bounded s part
    rw [if_pos pays]
    omega
  · rw [if_neg pays, sub_zero]
    rcases (s ∩ earners).eq_empty_or_nonempty with nobody | somebody
    · rw [nobody, Finset.sum_empty, add_zero]
      exact level.bounded s part
    · have split : ∑ i ∈ s, before i + ∑ i ∈ s ∩ earners, earned i =
          ∑ i ∈ s \ earners, before i + ∑ i ∈ s ∩ earners, (before i + earned i) := by
        rw [← Finset.sum_inter_add_sum_sdiff s earners before, Finset.sum_add_distrib]
        ring
      have size := Finset.card_sdiff_add_card_inter s earners
      have outside := level.bounded (s \ earners) (Finset.sdiff_subset.trans part)
      have joint := level.bounded (insert payer s) (Finset.insert_subset (round.inside round.earns) part)
      rw [Finset.sum_insert pays, Finset.card_insert_of_notMem pays] at joint
      have poorer : ∑ i ∈ s ∩ earners, (before i + earned i) ≤
          (s ∩ earners).card * (before payer + earned payer) := by
        rw [← nsmul_eq_mul]
        exact Finset.sum_le_card_nsmul _ _ _ fun i member => round.richest i (Finset.mem_inter.1 member).2
      have total : ∑ i ∈ members, earned i ≤ ∑ i ∈ members, weight i := Finset.sum_le_sum most
      have shared : ∑ i ∈ s ∩ earners, earned i + earned payer ≤ ∑ i ∈ members, earned i := by
        have apart : payer ∉ s ∩ earners := fun member => pays (Finset.mem_inter.1 member).1
        rw [add_comm, ← Finset.sum_insert apart]
        refine Finset.sum_le_sum_of_subset_of_nonneg ?_ fun i member _ => nonneg i member
        exact Finset.insert_subset (round.inside round.earns) (Finset.inter_subset_left.trans part)
      have rest : ((s \ earners).card : ℤ) = s.card - (s ∩ earners).card := by omega
      rw [rest] at outside
      push_cast at joint
      rw [split]
      exact level_arith (by exact_mod_cast somebody.card_pos)
        ((Finset.sum_nonneg nonneg).trans total) outside poorer (by linarith)

theorem Round.level (round : Round members earned before earners payer after)
    (nonneg : ∀ i ∈ members, 0 ≤ earned i) (most : ∀ i ∈ members, earned i ≤ weight i)
    (level : Level members weight before) : Level members weight after := by
  refine ⟨?_, fun s part => round.bounded nonneg most level part⟩
  rw [round.sum_eq subset_rfl, if_pos (round.inside round.earns),
    Finset.inter_eq_right.2 round.inside, level.settled]
  ring

omit [DecidableEq ι] in
theorem Level.congr (level : Level members weight before) (same : ∀ i ∈ members, after i = before i) :
    Level members weight after := by
  refine ⟨?_, fun s part => ?_⟩
  · rw [Finset.sum_congr rfl same]
    exact level.settled
  · rw [Finset.sum_congr rfl fun i member => same i (part member)]
    exact level.bounded s part

omit [DecidableEq ι] in
theorem level_zero (weights : ∀ i ∈ members, 0 ≤ weight i) : Level members weight fun _ => 0 := by
  refine ⟨by simp, fun s part => ?_⟩
  have size : (s.card : ℤ) ≤ members.card := by exact_mod_cast Finset.card_le_card part
  have total := Finset.sum_nonneg weights
  have room : (0 : ℤ) ≤ s.card * (members.card - s.card) := mul_nonneg (by positivity) (by omega)
  simpa using mul_nonneg total room

theorem Level.abs_le {credit : ι → ℤ} (level : Level members weight credit) {i : ι}
    (member : i ∈ members) :
    2 * |credit i| ≤ (∑ j ∈ members, weight j) * (members.card - 1) := by
  have above := level.bounded {i} (Finset.singleton_subset_iff.2 member)
  have below := level.bounded (members.erase i) (Finset.erase_subset i members)
  have settled := level.settled
  have positive := Finset.card_pos.2 ⟨i, member⟩
  rw [← Finset.add_sum_erase members credit member] at settled
  rw [Finset.card_erase_of_mem member, Nat.cast_sub positive] at below
  simp only [Finset.sum_singleton, Finset.card_singleton, Nat.cast_one, one_mul] at above
  have sizes : ((members.card : ℤ) - 1) * (members.card - (members.card - 1)) = members.card - 1 := by ring
  push_cast at below
  rw [sizes] at below
  rcases abs_cases (credit i) with ⟨same, -⟩ | ⟨same, -⟩ <;> rw [same] <;> linarith

end Balance
