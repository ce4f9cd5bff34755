import Mathlib.Data.List.MinMax
import Mathlib.Data.List.Nodup

/-! The first maximum of a list: what happens to it when elements drop out or change places. -/

namespace List

variable {α β : Type*} [DecidableEq α] [LinearOrder β] {f : α → β} {l l' : List α} {m : α}

theorem argmax_eq_some_iff_split : argmax f l = some m ↔
    ∃ before after, l = before ++ m :: after ∧ (∀ a ∈ before, f a < f m) ∧ ∀ a ∈ after, f a ≤ f m := by
  rw [argmax_eq_some_iff]
  constructor
  · rintro ⟨member, most, first⟩
    obtain ⟨before, after, rfl, fresh⟩ := eq_append_cons_of_mem member
    refine ⟨before, after, rfl, fun a early => ?_, fun a late => most a (by simp [late])⟩
    have index : (before ++ m :: after).idxOf m = before.length := by simp [idxOf_append_of_notMem fresh]
    have sooner : (before ++ m :: after).idxOf a < before.length := by
      rw [idxOf_append_of_mem early]
      exact idxOf_lt_length_of_mem early
    by_contra large
    have order := first a (by simp [early]) (not_lt.1 large)
    omega
  · rintro ⟨before, after, rfl, below, most⟩
    have fresh : m ∉ before := fun early => lt_irrefl _ (below m early)
    have index : (before ++ m :: after).idxOf m = before.length := by simp [idxOf_append_of_notMem fresh]
    refine ⟨by simp, fun a member => ?_, fun a member large => ?_⟩
    · rcases mem_append.1 member with early | late
      · exact (below a early).le
      · rcases mem_cons.1 late with rfl | late
        · exact le_rfl
        · exact most a late
    · have late : a ∉ before := fun early => absurd (below a early) (not_lt.2 large)
      rw [index, idxOf_append_of_notMem late]
      exact Nat.le_add_right _ _

theorem argmax_of_sublist (distinct : l.Nodup) (part : l' <+ l) (member : m ∈ l')
    (best : argmax f l = some m) : argmax f l' = some m := by
  obtain ⟨before, after, rfl, below, most⟩ := argmax_eq_some_iff_split.1 best
  obtain ⟨-, rest, apart⟩ := nodup_append.1 distinct
  obtain ⟨fresh, -⟩ := nodup_cons.1 rest
  obtain ⟨early, late, rfl, partEarly, partLate⟩ := sublist_append_iff.1 part
  have notEarly : m ∉ early := fun among =>
    apart m (partEarly.subset among) m mem_cons_self rfl
  have lateMember : m ∈ late := (mem_append.1 member).resolve_left notEarly
  rcases sublist_cons_iff.1 partLate with inside | ⟨others, rfl, partOthers⟩
  · exact absurd (inside.subset lateMember) fresh
  · exact argmax_eq_some_iff_split.2 ⟨early, others, rfl, fun a among => below a (partEarly.subset among),
      fun a among => most a (partOthers.subset among)⟩

omit [DecidableEq α] in
theorem argmax_of_perm (distinct : (l.map f).Nodup) (same : l' ~ l) : argmax f l' = argmax f l := by
  cases best : argmax f l with
  | none =>
      rw [argmax_eq_none] at best ⊢
      exact perm_nil.1 (best ▸ same)
  | some m =>
      have member : m ∈ l' := same.symm.subset (argmax_mem best)
      cases other : argmax f l' with
      | none =>
          rw [argmax_eq_none.1 other] at member
          cases member
      | some n =>
          have listed : n ∈ l := same.subset (argmax_mem other)
          have values : f n = f m := le_antisymm (le_of_mem_argmax listed best) (le_of_mem_argmax member other)
          rw [inj_on_of_nodup_map distinct listed (argmax_mem best) values]

end List
