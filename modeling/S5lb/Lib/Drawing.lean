import Mathlib.Data.Fin.Basic

/-- A computation that draws from `Fin n`, for an `n` of its choice, finitely many times. -/
inductive Drawing (α : Type) : Type
  | ret (a : α)
  | draw (n : Nat) (next : Fin n → Drawing α)

namespace Drawing

variable {α β : Type}

def map (f : α → β) : Drawing α → Drawing β
  | .ret a => .ret (f a)
  | .draw n next => .draw n fun i => (next i).map f

def Outcome : Drawing α → α → Prop
  | .ret b, a => a = b
  | .draw _ next, a => ∃ i, (next i).Outcome a

def Total : Drawing α → Prop
  | .ret _ => True
  | .draw n next => 0 < n ∧ ∀ i, (next i).Total

def run : Drawing α → List Nat → Option α
  | .ret a, _ => some a
  | .draw _ _, [] => none
  | .draw n next, d :: rest => if h : d < n then (next ⟨d, h⟩).run rest else none

@[simp] theorem outcome_ret {a b : α} : (ret b).Outcome a ↔ a = b := Iff.rfl

@[simp] theorem outcome_draw {n : Nat} {next : Fin n → Drawing α} {a : α} :
    (draw n next).Outcome a ↔ ∃ i, (next i).Outcome a := Iff.rfl

@[simp] theorem outcome_map {f : α → β} {t : Drawing α} {b : β} :
    (t.map f).Outcome b ↔ ∃ a, t.Outcome a ∧ b = f a := by
  induction t with
  | ret a => simp [map]
  | draw n next ih =>
      simp only [map, outcome_draw, ih]
      constructor
      · rintro ⟨i, a, out, rfl⟩
        exact ⟨a, ⟨i, out⟩, rfl⟩
      · rintro ⟨a, ⟨i, out⟩, rfl⟩
        exact ⟨i, a, out, rfl⟩

theorem Total.map {f : α → β} {t : Drawing α} (total : t.Total) : (t.map f).Total := by
  induction t with
  | ret a => trivial
  | draw n next ih => exact ⟨total.1, fun i => ih i (total.2 i)⟩

theorem run_outcome {t : Drawing α} {draws : List Nat} {a : α} (h : t.run draws = some a) :
    t.Outcome a := by
  induction t generalizing draws with
  | ret b => simpa [run, eq_comm] using h
  | draw n next ih =>
      cases draws with
      | nil => simp [run] at h
      | cons d rest =>
          simp only [run] at h
          split at h
          · exact ⟨_, ih _ h⟩
          · cases h

theorem exists_run {t : Drawing α} {a : α} (out : t.Outcome a) : ∃ draws, t.run draws = some a := by
  induction t with
  | ret b =>
      cases out
      exact ⟨[], rfl⟩
  | draw n next ih =>
      obtain ⟨i, out⟩ := out
      obtain ⟨draws, ran⟩ := ih i out
      exact ⟨i :: draws, by rw [run, dif_pos i.isLt]; exact ran⟩

end Drawing
