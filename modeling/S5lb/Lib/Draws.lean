import Mathlib.Algebra.BigOperators.Fin
import S5lb.Lib.Drawing

/-! All combinations of the draws of a computation. -/

namespace Drawing

variable {α : Type}

def outcomes : Drawing α → List α
  | .ret a => [a]
  | .draw n next => (List.finRange n).flatMap fun i => (next i).outcomes

def Calls : Drawing α → List Nat → Prop
  | .ret _, ranges => ranges = []
  | .draw n next, ranges => ∃ rest, ranges = n :: rest ∧ ∀ i, (next i).Calls rest

theorem length_outcomes_draw {n : Nat} {next : Fin n → Drawing α} :
    (draw n next).outcomes.length = ∑ i, (next i).outcomes.length := by
  rw [outcomes, List.length_flatMap, Fin.sum_univ_def]

theorem count_outcomes_draw [BEq α] {n : Nat} {next : Fin n → Drawing α} {a : α} :
    (draw n next).outcomes.count a = ∑ i, (next i).outcomes.count a := by
  rw [outcomes, List.count_flatMap, Fin.sum_univ_def]
  rfl

theorem length_outcomes {t : Drawing α} {ranges : List Nat} (calls : t.Calls ranges) :
    t.outcomes.length = ranges.prod := by
  induction t generalizing ranges with
  | ret a =>
      rw [show ranges = [] from calls]
      rfl
  | draw n next ih =>
      obtain ⟨rest, rfl, calls⟩ := calls
      rw [length_outcomes_draw, Finset.sum_congr rfl fun i _ => ih i (calls i), List.prod_cons]
      simp

end Drawing
