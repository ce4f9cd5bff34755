import Mathlib.Data.List.Basic

namespace Threads

variable {τ κ : Type*} {threads : List τ} {P Q : Nat → τ → Prop} {key : τ → Option κ} {i : Nat}
  {t t' : τ}

def Each (threads : List τ) (P : Nat → τ → Prop) : Prop := ∀ i t, threads[i]? = some t → P i t

def Sole (threads : List τ) (key : τ → Option κ) : Prop :=
  ∀ (i j : Nat) t u k, threads[i]? = some t → threads[j]? = some u → key t = some k →
    key u = some k → i = j

theorem located_set {j : Nat} {u : τ} (here : threads[i]? = some t)
    (located : (threads.set i t')[j]? = some u) : j = i ∧ u = t' ∨ j ≠ i ∧ threads[j]? = some u := by
  by_cases self : j = i
  · subst self
    rw [List.getElem?_set_self (List.getElem?_eq_some_iff.1 here).1] at located
    exact .inl ⟨rfl, (Option.some.inj located).symm⟩
  · rw [List.getElem?_set_ne (Ne.symm self)] at located
    exact .inr ⟨self, located⟩

theorem located_snoc {j : Nat} {u : τ} (located : (threads ++ [t])[j]? = some u) :
    j = threads.length ∧ u = t ∨ threads[j]? = some u := by
  by_cases old : j < threads.length
  · exact .inr (by rwa [List.getElem?_append_left old] at located)
  · rw [List.getElem?_append_right (Nat.not_lt.1 old)] at located
    obtain ⟨bound, same⟩ := List.getElem?_eq_some_iff.1 located
    rw [List.length_singleton] at bound
    rw [List.getElem_singleton] at same
    exact .inl ⟨by omega, same.symm⟩

theorem forall_set {P : τ → Prop} (all : ∀ u ∈ threads, P u) (i : Nat) (mine : P t') :
    ∀ u ∈ threads.set i t', P u := by
  intro u member
  rcases List.mem_or_eq_of_mem_set member with old | rfl
  · exact all u old
  · exact mine

theorem exists_iff {P : τ → Prop} (here : threads[i]? = some t) :
    (∃ u ∈ threads, P u) ↔ P t ∨ ∃ j u, j ≠ i ∧ threads[j]? = some u ∧ P u := by
  constructor
  · rintro ⟨u, member, holds⟩
    obtain ⟨j, located⟩ := List.getElem?_of_mem member
    by_cases self : j = i
    · subst self
      cases located.symm.trans here
      exact .inl holds
    · exact .inr ⟨j, u, self, located, holds⟩
  · rintro (holds | ⟨j, u, -, located, holds⟩)
    · exact ⟨t, List.mem_of_getElem? here, holds⟩
    · exact ⟨u, List.mem_of_getElem? located, holds⟩

theorem exists_set_iff {P : τ → Prop} (here : threads[i]? = some t) :
    (∃ u ∈ threads.set i t', P u) ↔ P t' ∨ ∃ j u, j ≠ i ∧ threads[j]? = some u ∧ P u := by
  have bound := (List.getElem?_eq_some_iff.1 here).1
  rw [exists_iff (List.getElem?_set_self bound)]
  refine or_congr_right (exists_congr fun j => exists_congr fun u => and_congr_right fun other => ?_)
  rw [List.getElem?_set_ne (Ne.symm other)]

theorem Each.set (each : Each threads P) (here : threads[i]? = some t) (mine : Q i t')
    (others : ∀ j u, j ≠ i → threads[j]? = some u → P j u → Q j u) :
    Each (threads.set i t') Q := by
  intro j u located
  rcases located_set here located with ⟨rfl, rfl⟩ | ⟨other, located⟩
  · exact mine
  · exact others j u other located (each j u located)

theorem Each.snoc (each : Each threads P) (new : ∀ i, P i t) : Each (threads ++ [t]) P := by
  intro j u located
  rcases located_snoc located with ⟨_, rfl⟩ | located
  · exact new j
  · exact each j u located

theorem Sole.set (sole : Sole threads key) (here : threads[i]? = some t)
    (alone : ∀ k, key t' = some k → ∀ j u, j ≠ i → threads[j]? = some u → key u ≠ some k) :
    Sole (threads.set i t') key := by
  intro j l u v k atJ atL holdsJ holdsL
  rcases located_set here atJ with ⟨rfl, rfl⟩ | ⟨otherJ, wasJ⟩ <;>
    rcases located_set here atL with ⟨rfl, rfl⟩ | ⟨otherL, wasL⟩
  · rfl
  · exact absurd holdsL (alone k holdsJ l v otherL wasL)
  · exact absurd holdsJ (alone k holdsL j u otherJ wasJ)
  · exact sole j l u v k wasJ wasL holdsJ holdsL

theorem Sole.set_of_eq (sole : Sole threads key) (here : threads[i]? = some t)
    (same : key t' = key t) : Sole (threads.set i t') key :=
  sole.set here fun k holds j u other located holdsU =>
    other (sole j i u t k located here holdsU (same.symm.trans holds))

theorem Sole.snoc (sole : Sole threads key) (none : key t = none) :
    Sole (threads ++ [t]) key := by
  intro j l u v k atJ atL holdsJ holdsL
  rcases located_snoc atJ with ⟨_, rfl⟩ | atJ
  · exact absurd (none.symm.trans holdsJ) nofun
  · rcases located_snoc atL with ⟨_, rfl⟩ | atL
    · exact absurd (none.symm.trans holdsL) nofun
    · exact sole j l u v k atJ atL holdsJ holdsL

end Threads
