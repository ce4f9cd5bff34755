import Mathlib

namespace List

variable {α : Type*}

theorem getLast_eq_sum_iff {f : α → Nat} {l : List α} (some : l ≠ []) :
    f (l.getLast some) = (l.map f).sum ↔ l.Pairwise fun a _ => f a = 0 := by
  induction l with
  | nil => exact absurd rfl some
  | cons a rest ih =>
      by_cases alone : rest = []
      · subst alone
        simp
      · have bound : f (rest.getLast alone) ≤ (rest.map f).sum :=
          List.single_le_sum (fun _ _ => Nat.zero_le _) _ (mem_map_of_mem (getLast_mem alone))
        rw [getLast_cons alone, map_cons, sum_cons, pairwise_cons, ← ih alone]
        constructor
        · intro whole
          exact ⟨fun _ _ => by omega, by omega⟩
        · rintro ⟨zero, same⟩
          have none := zero _ (getLast_mem alone)
          omega

end List

structure GaugeVec (κ : Type*) where
  value : κ → Option Int

namespace GaugeVec

variable {κ α : Type*} [DecidableEq κ]

def empty : GaugeVec κ := ⟨fun _ => none⟩

def set (g : GaugeVec κ) (a : κ) (n : Int) : GaugeVec κ := ⟨Function.update g.value a (some n)⟩

def add (g : GaugeVec κ) (a : κ) (d : Int) : GaugeVec κ := g.set a ((g.value a).getD 0 + d)

def delete (g : GaugeVec κ) (a : κ) : GaugeVec κ := ⟨Function.update g.value a none⟩

def setAll (g : GaugeVec κ) (members : List α) (label : α → κ) (n : α → Int) : GaugeVec κ :=
  members.foldl (fun g x => g.set (label x) (n x)) g

def deleteAll (g : GaugeVec κ) (labels : List κ) : GaugeVec κ := labels.foldl delete g

@[simp] theorem value_add_self (g : GaugeVec κ) (a : κ) (d : Int) :
    (g.add a d).value a = some ((g.value a).getD 0 + d) := by
  simp [add, set]

theorem value_add_of_ne (g : GaugeVec κ) {a b : κ} (d : Int) (ne : b ≠ a) :
    (g.add a d).value b = g.value b := by
  simp [add, set, ne]

theorem value_setAll (g : GaugeVec κ) (members : List α) (label : α → κ) (n : α → Int) (a : κ) :
    (g.setAll members label n).value a =
      ((members.filter fun x => label x = a).getLast?.map n).or (g.value a) := by
  induction members using List.reverseRecOn with
  | nil => simp [setAll]
  | append_singleton members x ih =>
      have last : (g.setAll (members ++ [x]) label n).value a =
          Function.update (g.setAll members label n).value (label x) (some (n x)) a := by
        simp [setAll, set]
      rw [last, Function.update_apply, List.filter_append]
      by_cases here : a = label x
      · simp [here]
      · simp [here, Ne.symm here, ih]

theorem value_deleteAll (g : GaugeVec κ) (labels : List κ) (a : κ) :
    (g.deleteAll labels).value a = if a ∈ labels then none else g.value a := by
  induction labels generalizing g with
  | nil => rfl
  | cons b labels ih =>
      rw [deleteAll, List.foldl_cons]
      refine (ih (g.delete b)).trans ?_
      by_cases here : a = b
      · simp [here, delete]
      · simp [here, delete]

theorem setAll_eq_sum_iff (g : GaugeVec κ) (members : List α) (label : α → κ) (f : α → Nat) :
    (∀ x ∈ members, (g.setAll members label fun x => f x).value (label x) =
      some (((members.filter fun y => label y = label x).map f).sum : Int)) ↔
    members.Pairwise fun x y => label x = label y → f x = 0 := by
  have exact_iff {x : α} (member : x ∈ members) :
      (g.setAll members label fun x => f x).value (label x) =
        some (((members.filter fun y => label y = label x).map f).sum : Int) ↔
      (members.filter fun y => label y = label x).Pairwise fun y _ => f y = 0 := by
    have some : members.filter (fun y => label y = label x) ≠ [] :=
      List.ne_nil_of_mem (List.mem_filter.2 ⟨member, by simp⟩)
    rw [value_setAll, List.getLast?_eq_getLast_of_ne_nil some, ← List.getLast_eq_sum_iff some]
    simp only [Option.map_some, Option.some_or, Option.some.injEq]
    exact Nat.cast_inj
  constructor
  · intro exact
    rw [List.pairwise_iff_forall_sublist]
    intro x y sublist same
    have member : y ∈ members := sublist.subset (by simp)
    have zero := (exact_iff member).1 (exact y member)
    rw [List.pairwise_iff_forall_sublist] at zero
    apply @zero x y
    have kept := sublist.filter fun z => decide (label z = label y)
    rwa [List.filter_eq_self.2 (by simp [same])] at kept
  · intro zero x member
    rw [exact_iff member, List.pairwise_filter]
    refine zero.imp fun none first second => none ?_
    exact (of_decide_eq_true first).trans (of_decide_eq_true second).symm

end GaugeVec
