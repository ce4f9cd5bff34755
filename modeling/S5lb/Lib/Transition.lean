import Mathlib.Data.List.Induction

namespace Transition

variable {σ α : Type*} {step : σ → α → Option σ} {start : σ}

/-- The actions of `trace`, each beside the state it is taken in, lead from `start` to the last
state. -/
inductive Exec (step : σ → α → Option σ) (start : σ) : List (σ × α) → σ → Prop
  | nil : Exec step start [] start
  | snoc {trace : List (σ × α)} {s : σ} {a : α} {s' : σ} (before : Exec step start trace s)
      (taken : step s a = some s') : Exec step start (trace ++ [(s, a)]) s'

def Guarded (guard : σ → α → Prop) (trace : List (σ × α)) : Prop :=
  ∀ entry ∈ trace, guard entry.1 entry.2

theorem guarded_snoc {guard : σ → α → Prop} {trace : List (σ × α)} {s : σ} {a : α} :
    Guarded guard (trace ++ [(s, a)]) ↔ Guarded guard trace ∧ guard s a := by
  simp only [Guarded, List.mem_append, List.mem_singleton]
  constructor
  · intro h
    exact ⟨fun entry member => h entry (.inl member), h (s, a) (.inr rfl)⟩
  · rintro ⟨earlier, last⟩ entry (member | rfl)
    · exact earlier entry member
    · exact last

theorem Exec.invariant {P : List (σ × α) → σ → Prop} {guard : σ → α → Prop} (base : P [] start)
    (keep : ∀ trace s a s', Exec step start trace s → P trace s → guard s a →
      step s a = some s' → P (trace ++ [(s, a)]) s')
    {trace : List (σ × α)} {s : σ} (exec : Exec step start trace s)
    (guarded : Guarded guard trace) : P trace s := by
  induction exec with
  | nil => exact base
  | snoc before taken ih =>
      obtain ⟨earlier, last⟩ := guarded_snoc.1 guarded
      exact keep _ _ _ _ before (ih earlier) last taken

theorem Exec.stable {P : σ → Prop} (base : P start)
    (keep : ∀ s a s', P s → step s a = some s' → P s')
    {trace : List (σ × α)} {s : σ} (exec : Exec step start trace s) : P s := by
  induction exec with
  | nil => exact base
  | snoc before taken ih => exact keep _ _ _ ih taken

/-- Where a step keeps a property exactly when it is guarded, the property holds throughout an
execution exactly when every step is. -/
theorem Exec.throughout_iff {P : σ → Prop} {guard : σ → α → Prop} (base : P start)
    (keep : ∀ trace s a s', Exec step start trace s → P s → step s a = some s' → (P s' ↔ guard s a))
    {trace : List (σ × α)} {s : σ} (exec : Exec step start trace s) :
    (∀ entry ∈ trace, P entry.1) ∧ P s ↔ Guarded guard trace := by
  induction exec with
  | nil => simp [base, Guarded]
  | @snoc trace s a s' before taken ih =>
      rw [guarded_snoc, ← ih]
      simp only [List.mem_append, List.mem_singleton]
      constructor
      · rintro ⟨past, now⟩
        have here : P s := past (s, a) (.inr rfl)
        exact ⟨⟨fun entry member => past entry (.inl member), here⟩,
          (keep _ _ _ _ before here taken).1 now⟩
      · rintro ⟨⟨past, here⟩, guarded⟩
        refine ⟨?_, (keep _ _ _ _ before here taken).2 guarded⟩
        rintro entry (member | rfl)
        · exact past entry member
        · exact here

theorem Exec.append {middle last : σ} {first second : List (σ × α)}
    (left : Exec step start first middle) (right : Exec step middle second last) :
    Exec step start (first ++ second) last := by
  induction right with
  | nil => simpa using left
  | snoc before taken ih =>
      rw [← List.append_assoc]
      exact .snoc ih taken

theorem Exec.unsnoc {trace : List (σ × α)} {s last : σ} {a : α}
    (exec : Exec step start (trace ++ [(s, a)]) last) :
    Exec step start trace s ∧ step s a = some last := by
  generalize whole : trace ++ [(s, a)] = extended at exec
  cases exec with
  | nil => simp at whole
  | snoc before taken =>
      obtain ⟨rfl, same⟩ := List.append_inj' whole rfl
      cases same
      exact ⟨before, taken⟩

theorem Exec.cut {xs ys : List (σ × α)} {last : σ} (exec : Exec step start (xs ++ ys) last) :
    ∃ middle, Exec step start xs middle ∧ Exec step middle ys last := by
  induction ys using List.reverseRecOn generalizing last with
  | nil => exact ⟨last, by simpa using exec, .nil⟩
  | append_singleton ys entry ih =>
      rw [← List.append_assoc] at exec
      obtain ⟨before, taken⟩ := exec.unsnoc
      obtain ⟨middle, earlier, rest⟩ := ih before
      exact ⟨middle, earlier, rest.snoc taken⟩

theorem Exec.split {xs ys : List (σ × α)} {s last : σ} {a : α}
    (exec : Exec step start (xs ++ (s, a) :: ys) last) :
    Exec step start xs s ∧ ∃ s', step s a = some s' ∧ Exec step s' ys last := by
  rw [List.append_cons] at exec
  obtain ⟨s', before, rest⟩ := exec.cut
  obtain ⟨earlier, taken⟩ := before.unsnoc
  exact ⟨earlier, s', taken, rest⟩

def play (step : σ → α → Option σ) : List (σ × α) → σ → List α → Option (List (σ × α) × σ)
  | past, s, [] => some (past, s)
  | past, s, a :: rest => (step s a).bind fun s' => play step (past ++ [(s, a)]) s' rest

theorem play_exec {past trace : List (σ × α)} {s last : σ} {actions : List α}
    (before : Exec step start past s) (played : play step past s actions = some (trace, last)) :
    Exec step start trace last := by
  induction actions generalizing past s with
  | nil =>
      simp only [play, Option.some.injEq, Prod.mk.injEq] at played
      obtain ⟨rfl, rfl⟩ := played
      exact before
  | cons a rest ih =>
      simp only [play, Option.bind_eq_some_iff] at played
      obtain ⟨s', taken, played⟩ := played
      exact ih (before.snoc taken) played

theorem play_actions {past trace : List (σ × α)} {s last : σ} {actions : List α}
    (played : play step past s actions = some (trace, last)) :
    trace.map Prod.snd = past.map Prod.snd ++ actions := by
  induction actions generalizing past s with
  | nil =>
      simp only [play, Option.some.injEq, Prod.mk.injEq] at played
      simp [← played.1]
  | cons a rest ih =>
      simp only [play, Option.bind_eq_some_iff] at played
      obtain ⟨s', taken, played⟩ := played
      simpa using ih played

theorem exec_of_play (step : σ → α → Option σ) (start : σ) (actions : List α)
    (test : List (σ × α) → σ → Bool)
    (passed : (play step [] start actions).any (fun p => test p.1 p.2) = true) :
    ∃ trace s, Exec step start trace s ∧ trace.map Prod.snd = actions ∧ test trace s = true := by
  cases played : play step [] start actions with
  | none => simp [played] at passed
  | some p =>
      simp only [played, Option.any_some] at passed
      exact ⟨p.1, p.2, play_exec .nil played, play_actions played, passed⟩

theorem ok_of_any {ε μ : Type*} {made : Except ε μ} {test : μ → Bool}
    (passed : made.toOption.any test = true) : ∃ m, made = .ok m ∧ test m = true := by
  cases made with
  | error why => simp [Except.toOption] at passed
  | ok m => exact ⟨m, rfl, by simpa [Except.toOption] using passed⟩

theorem exec_of_play_made {ε μ : Type*} (step : σ → α → Option σ) (made : Except ε μ) (init : μ → σ)
    (actions : List α) (test : μ → List (σ × α) → σ → Bool)
    (passed : made.toOption.any (fun m =>
      (play step [] (init m) actions).any fun p => test m p.1 p.2) = true) :
    ∃ m trace s, made = .ok m ∧ Exec step (init m) trace s ∧ trace.map Prod.snd = actions ∧
      test m trace s = true := by
  obtain ⟨m, rfl, played⟩ := ok_of_any passed
  obtain ⟨trace, s, exec⟩ := exec_of_play step (init m) actions (test m) played
  exact ⟨m, trace, s, rfl, exec⟩

end Transition
