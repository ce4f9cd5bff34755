import Mathlib.Data.List.Sort
import Mathlib.Order.Lattice

namespace StableSort

variable {α κ : Type} [LinearOrder κ]

structure StableSorted (key : α → κ) (l sorted : List α) : Prop where
  perm : sorted.Perm l
  ordered : sorted.Pairwise fun a b => key a ≤ key b
  stable : ∀ k, sorted.filter (fun a => key a = k) = l.filter (fun a => key a = k)

def byKey (key : α → κ) (l : List α) : List α := l.insertionSort fun a b => key a ≤ key b

theorem byKey_perm (key : α → κ) (l : List α) : (byKey key l).Perm l :=
  List.perm_insertionSort _ l

theorem byKey_map {β : Type} {key : α → κ} {key' : β → κ} {f : α → β} (same : ∀ a, key' (f a) = key a)
    (l : List α) : byKey key' (l.map f) = (byKey key l).map f :=
  (List.map_insertionSort _ _ f l fun a _ b _ => by rw [same, same]).symm

theorem byKey_stable (key : α → κ) (l : List α) (k : κ) :
    (byKey key l).filter (fun a => key a = k) = l.filter (fun a => key a = k) := by
  have equal : (l.filter fun a => key a = k).Pairwise fun a b => key a ≤ key b := by
    apply List.pairwise_of_forall_mem_list
    intro a memberA b memberB
    have keyA : key a = k := by simpa using (List.mem_filter.1 memberA).2
    have keyB : key b = k := by simpa using (List.mem_filter.1 memberB).2
    rw [keyA, keyB]
  have sublist : (l.filter fun a => key a = k).Sublist (byKey key l) :=
    List.sublist_insertionSort equal List.filter_sublist
  have inside := sublist.filter (fun a => decide (key a = k))
  rw [List.filter_filter] at inside
  simp only [Bool.and_self] at inside
  exact (inside.eq_of_length (((byKey_perm key l).filter _).length_eq).symm).symm

theorem byKey_stableSorted (key : α → κ) (l : List α) : StableSorted key l (byKey key l) where
  perm := byKey_perm key l
  ordered := by
    have : Std.Total (fun a b => key a ≤ key b) := ⟨fun a b => le_total (key a) (key b)⟩
    have : IsTrans α (fun a b => key a ≤ key b) := ⟨fun _ _ _ first second => first.trans second⟩
    exact List.pairwise_insertionSort _ l
  stable := byKey_stable key l

theorem StableSorted.pairwise {key : α → κ} {l sorted : List α} {R : α → α → Prop}
    (stable : StableSorted key l sorted) (ordered : l.Pairwise R) :
    sorted.Pairwise fun a b => key a < key b ∨ key a = key b ∧ R a b := by
  rw [List.pairwise_iff_forall_sublist]
  intro a b sublist
  have le : key a ≤ key b := List.pairwise_iff_forall_sublist.1 stable.ordered sublist
  rcases le.lt_or_eq with lt | same
  · exact .inl lt
  · refine .inr ⟨same, List.pairwise_iff_forall_sublist.1 ordered ?_⟩
    have kept := sublist.filter fun x => decide (key x = key b)
    rw [stable.stable, List.filter_eq_self.2 (by simp [same])] at kept
    exact kept.trans List.filter_sublist

theorem pairwise_idxOf [DecidableEq α] {l : List α} (distinct : l.Nodup) :
    l.Pairwise fun a b => l.idxOf a < l.idxOf b := by
  rw [List.pairwise_iff_getElem]
  intro i j below bound lt
  rwa [distinct.idxOf_getElem, distinct.idxOf_getElem]

end StableSort
