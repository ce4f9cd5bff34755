import Mathlib.Data.List.Induction

variable {ε α β : Type}

/-- A property of what a fallible loop has gone through that every round preserves holds where it ends,
and where it is broken off it held before the last round. -/
theorem List.foldlM_except_invariant {f : β → α → Except ε β} {l : List α} {P : List α → β → Prop}
    {b : β} (base : P [] b)
    (round : ∀ past a rest b b', l = past ++ a :: rest → P past b → f b a = .ok b' →
      P (past ++ [a]) b') :
    (∀ last, l.foldlM f b = .ok last → P l last) ∧
      ∀ why, l.foldlM f b = .error why →
        ∃ past a rest b', l = past ++ a :: rest ∧ P past b' ∧ f b' a = .error why := by
  have later : ∀ rest past b, l = past ++ rest → P past b →
      (∀ last, rest.foldlM f b = .ok last → P l last) ∧
        ∀ why, rest.foldlM f b = .error why →
          ∃ past a rest b', l = past ++ a :: rest ∧ P past b' ∧ f b' a = .error why := by
    intro rest
    induction rest with
    | nil =>
        intro past b split before
        rw [split, List.append_nil]
        exact ⟨fun last ran => Except.ok.inj ran ▸ before, nofun⟩
    | cons a rest ih =>
        intro past b split before
        rw [List.foldlM_cons]
        cases taken : f b a with
        | error why =>
            refine ⟨nofun, fun why' broken => ⟨past, a, rest, b, split, before, ?_⟩⟩
            rw [taken, ← Except.error.inj broken]
        | ok b' =>
            exact ih (past ++ [a]) b' (by simpa using split) (round _ _ _ _ _ split before taken)
  exact later l [] b rfl base

theorem List.foldlM_except_total {f : β → α → Except ε β} {l : List α} {P : List α → β → Prop} {b : β}
    (base : P [] b)
    (round : ∀ past a rest b, l = past ++ a :: rest → P past b →
      ∃ b', f b a = .ok b' ∧ P (past ++ [a]) b') :
    ∃ last, l.foldlM f b = .ok last := by
  have later : ∀ rest past b, l = past ++ rest → P past b → ∃ last, rest.foldlM f b = .ok last := by
    intro rest
    induction rest with
    | nil => exact fun _ b _ _ => ⟨b, rfl⟩
    | cons a rest ih =>
        intro past b split before
        obtain ⟨b', taken, kept⟩ := round past a rest b split before
        obtain ⟨last, ran⟩ := ih (past ++ [a]) b' (by simpa using split) kept
        exact ⟨last, by rw [List.foldlM_cons, taken]; exact ran⟩
  exact later l [] b rfl base

namespace List

def FirstMax (key : α → Int) (l : List α) (a : α) : Prop :=
  ∃ pre post, l = pre ++ a :: post ∧ (∀ x ∈ pre, key x < key a) ∧ ∀ x ∈ post, key x ≤ key a

def scanMax (key : α → Int) (best : Option α) (a : α) : Option α :=
  match best with
  | none => some a
  | some b => if key a > key b then some a else best

theorem foldl_scanMax (key : α → Int) (l : List α) :
    (l.foldl (scanMax key) none = none ∧ l = []) ∨
      ∃ a, l.foldl (scanMax key) none = some a ∧ FirstMax key l a := by
  induction l using List.reverseRecOn with
  | nil => exact .inl ⟨rfl, rfl⟩
  | append_singleton l x ih =>
      refine .inr ?_
      rw [foldl_append, foldl_cons, foldl_nil]
      rcases ih with ⟨best, rfl⟩ | ⟨a, best, pre, post, rfl, below, atMost⟩
      · exact ⟨x, by rw [best]; rfl, [], [], rfl, by simp, by simp⟩
      · rw [best]
        by_cases larger : key x > key a
        · refine ⟨x, by simp only [scanMax, if_pos larger], pre ++ a :: post, [], rfl, ?_, by simp⟩
          intro y member
          rcases mem_append.1 member with before | member
          · exact Int.lt_trans (below y before) larger
          · rcases mem_cons.1 member with rfl | after
            · exact larger
            · exact Int.lt_of_le_of_lt (atMost y after) larger
        · refine ⟨a, by simp only [scanMax, if_neg larger], pre, post ++ [x], by simp, below, ?_⟩
          intro y member
          rcases mem_append.1 member with after | last
          · exact atMost y after
          · rw [mem_singleton.1 last]
            exact Int.not_lt.1 larger

end List
