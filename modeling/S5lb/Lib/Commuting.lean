import S5lb.Lib.Transition

/-!
# Steps that commute

In a system whose parties do not take each other's steps away, one run to the end settles all the
others: they are no longer, none gets stuck on the way, and they end the same.
-/

namespace Transition

variable {σ α : Type*} {step : σ → α → Option σ}

def Commutes (step : σ → α → Option σ) : Prop :=
  ∀ s a b s₁ s₂, a ≠ b → step s a = some s₁ → step s b = some s₂ →
    ∃ t, step s₁ b = some t ∧ step s₂ a = some t

inductive Runs (step : σ → α → Option σ) : Nat → σ → σ → Prop
  | nil (s : σ) : Runs step 0 s s
  | cons {n : Nat} {s t last : σ} {a : α} (taken : step s a = some t) (rest : Runs step n t last) :
      Runs step (n + 1) s last

namespace Runs

theorem single {s t : σ} {a : α} (taken : step s a = some t) : Runs step 1 s t := .cons taken (.nil t)

theorem append {m n : Nat} {s t last : σ} (first : Runs step m s t) (second : Runs step n t last) :
    Runs step (m + n) s last := by
  induction first with
  | nil s => rwa [Nat.zero_add]
  | @cons m s u t a taken rest ih =>
      rw [Nat.add_right_comm]
      exact .cons taken (ih second)

theorem after (commutes : Commutes step) {n : Nat} {s s₁ last : σ} {a : α}
    (runs : Runs step n s last) (stuck : ∀ a, step last a = none) (taken : step s a = some s₁) :
    ∃ m, n = m + 1 ∧ Runs step m s₁ last := by
  classical
  induction runs generalizing s₁ with
  | nil s =>
      rw [stuck a] at taken
      cases taken
  | @cons n s t last b other rest ih =>
      by_cases same : a = b
      · subst same
        cases other.symm.trans taken
        exact ⟨n, rfl, rest⟩
      · obtain ⟨u, left, right⟩ := commutes s a b s₁ t same taken other
        obtain ⟨m, rfl, shorter⟩ := ih stuck right
        exact ⟨m + 1, rfl, .cons left shorter⟩

theorem completes (commutes : Commutes step) {n : Nat} {s t last : σ} {trace : List (σ × α)}
    (runs : Runs step n s last) (stuck : ∀ a, step last a = none) (exec : Exec step s trace t) :
    ∃ m, trace.length + m = n ∧ Runs step m t last := by
  induction exec with
  | nil => exact ⟨n, Nat.zero_add n, runs⟩
  | @snoc trace t a t' before taken ih =>
      obtain ⟨m, total, left⟩ := ih
      obtain ⟨k, rfl, shorter⟩ := left.after commutes stuck taken
      refine ⟨k, ?_, shorter⟩
      rw [List.length_append, List.length_singleton]
      omega

end Runs

end Transition
