import S5lb.Lib.Balance

/-! The game of credit when every member earns in every round and the payer is determined by what
the members have: it comes back to its start, and in between everybody has paid as often as their
weight says. -/

namespace Balance

variable {ι : Type*} [DecidableEq ι] {members : Finset ι} {weight before after : ι → ℤ} {payer : ι}

theorem Round.payer_pos (round : Round members weight before members payer after)
    (positive : ∀ i ∈ members, 0 < weight i) (settled : ∑ i ∈ members, before i = 0) :
    0 < before payer + weight payer := by
  by_contra low
  have less : ∑ i ∈ members, (before i + weight i) ≤ 0 := by
    apply Finset.sum_nonpos
    intro i member
    exact (round.richest i member).trans (not_lt.1 low)
  rw [Finset.sum_add_distrib, settled, zero_add] at less
  exact absurd (Finset.sum_pos positive ⟨payer, round.earns⟩) (not_lt.2 less)

theorem Round.above (round : Round members weight before members payer after)
    (positive : ∀ i ∈ members, 0 < weight i) (settled : ∑ i ∈ members, before i = 0)
    (above : ∀ i ∈ members, -∑ j ∈ members, weight j < before i) :
    ∀ i ∈ members, -∑ j ∈ members, weight j < after i := by
  intro i member
  have earned := positive i member
  have low := above i member
  rw [round.paid i member, if_pos member]
  split
  · rename_i pays
    subst pays
    have rich := round.payer_pos positive settled
    omega
  · omega

/-- Every member earns in every round, and what the members have decides who pays. -/
structure Game (σ : Type*) (members : Finset ι) (weight : ι → ℤ) where
  credit : σ → ι → ℤ
  payer : σ → ι
  next : σ → σ
  positive : ∀ i ∈ members, 0 < weight i
  round : ∀ s, Round members weight (credit s) members (payer s) (credit (next s))
  only : ∀ s t, (∀ i ∈ members, credit s i = credit t i) → payer s = payer t

namespace Game

variable {σ : Type*} (game : Game σ members weight)

def payers (s : σ) (rounds : ℕ) : List ι := (List.range rounds).map fun t => game.payer (game.next^[t] s)

theorem payers_succ (s : σ) (rounds : ℕ) :
    game.payers s (rounds + 1) = game.payers s rounds ++ [game.payer (game.next^[rounds] s)] := by
  simp [payers, List.range_succ]

theorem payers_add (s : σ) (a b : ℕ) :
    game.payers s (a + b) = game.payers s a ++ game.payers (game.next^[a] s) b := by
  simp only [payers, List.range_add, List.map_append, List.map_map]
  congr 1
  apply List.map_congr_left
  intro t _
  rw [Function.comp_apply, Nat.add_comm, Function.iterate_add_apply]

@[simp] theorem length_payers (s : σ) (rounds : ℕ) : (game.payers s rounds).length = rounds := by
  simp [payers]

theorem credit_iterate (s : σ) (rounds : ℕ) {i : ι} (member : i ∈ members) :
    game.credit (game.next^[rounds] s) i = game.credit s i + rounds * weight i -
      (∑ j ∈ members, weight j) * (game.payers s rounds).count i := by
  induction rounds with
  | zero => simp [payers]
  | succ rounds ih =>
      rw [Function.iterate_succ_apply', (game.round _).paid i member, if_pos member, ih, payers_succ,
        List.count_append, List.count_singleton]
      by_cases pays : i = game.payer (game.next^[rounds] s)
      · rw [if_pos pays, if_pos (beq_iff_eq.2 pays.symm)]
        push_cast
        ring
      · rw [if_neg pays, if_neg fun same => pays (beq_iff_eq.1 same).symm]
        push_cast
        ring

def Zero (s : σ) : Prop := ∀ i ∈ members, game.credit s i = 0

structure Reached (s : σ) : Prop where
  level : Level members weight (game.credit s)
  above : ∀ i ∈ members, -∑ j ∈ members, weight j < game.credit s i

theorem reached_iterate {s : σ} (zero : game.Zero s) (rounds : ℕ) : game.Reached (game.next^[rounds] s) := by
  have weights : ∀ i ∈ members, 0 ≤ weight i := fun i member => (game.positive i member).le
  induction rounds with
  | zero =>
      have level := level_zero weights
      refine ⟨⟨?_, fun part inside => ?_⟩, fun i member => ?_⟩
      · exact Finset.sum_eq_zero zero
      · rw [Function.iterate_zero_apply, Finset.sum_congr rfl fun i member => zero i (inside member)]
        exact level.bounded part inside
      · rw [Function.iterate_zero_apply, zero i member]
        exact neg_lt_zero.2 (Finset.sum_pos game.positive ⟨i, member⟩)
  | succ rounds ih =>
      rw [Function.iterate_succ_apply']
      exact ⟨(game.round _).level weights (fun _ _ => le_rfl) ih.level,
        (game.round _).above game.positive ih.level.settled ih.above⟩

variable {rounds : ℕ} (cycle : (rounds : ℤ) = ∑ j ∈ members, weight j)

include cycle

/-- After as many rounds as all weights together, what a member has is a multiple of the total, and
more than the total below zero nobody is; so nobody is below zero. -/
theorem zero_of_cycle {s : σ} (zero : game.Zero s) : game.Zero (game.next^[rounds] s) := by
  have reached := game.reached_iterate zero rounds
  have nonneg : ∀ i ∈ members, 0 ≤ game.credit (game.next^[rounds] s) i := by
    intro i member
    have total : 0 < ∑ j ∈ members, weight j := Finset.sum_pos game.positive ⟨i, member⟩
    have above := reached.above i member
    rw [game.credit_iterate s rounds member, zero i member, cycle, zero_add, ← mul_sub] at above ⊢
    apply mul_nonneg total.le
    by_contra short
    have least : weight i - (game.payers s rounds).count i ≤ -1 := by omega
    have low := mul_le_mul_of_nonneg_left least total.le
    omega
  exact (Finset.sum_eq_zero_iff_of_nonneg nonneg).1 reached.level.settled

theorem zero_of_cycles {s : σ} (zero : game.Zero s) (cycles : ℕ) :
    game.Zero (game.next^[cycles * rounds] s) := by
  induction cycles with
  | zero => simpa using zero
  | succ cycles ih =>
      rw [Nat.succ_mul, Nat.add_comm, Function.iterate_add_apply]
      exact game.zero_of_cycle cycle ih

theorem credit_cycle {s : σ} (zero : game.Zero s) (t : ℕ) :
    ∀ i ∈ members, game.credit (game.next^[t + rounds] s) i = game.credit (game.next^[t] s) i := by
  induction t with
  | zero =>
      intro i member
      rw [Nat.zero_add, game.zero_of_cycle cycle zero i member, Function.iterate_zero_apply, zero i member]
  | succ t ih =>
      intro i member
      rw [Nat.add_right_comm, Function.iterate_succ_apply', Function.iterate_succ_apply',
        (game.round _).paid i member, (game.round _).paid i member, ih i member, game.only _ _ ih]

theorem count_window {s : σ} (zero : game.Zero s) (t : ℕ) {i : ι} (member : i ∈ members) :
    ((game.payers (game.next^[t] s) rounds).count i : ℤ) = weight i := by
  have total : ∑ j ∈ members, weight j ≠ 0 := (Finset.sum_pos game.positive ⟨i, member⟩).ne'
  have back := game.credit_cycle cycle zero t i member
  rw [Nat.add_comm, Function.iterate_add_apply, game.credit_iterate _ rounds member, cycle] at back
  apply mul_left_cancel₀ total
  linarith

end Game

end Balance
