import Mathlib

namespace Ledger

variable {α : Type*}

def total (holds : α → Nat) (members : List α) : Nat := (members.map holds).sum

@[simp] theorem total_snoc (holds : α → Nat) (members : List α) (a : α) :
    total holds (members ++ [a]) = total holds members + holds a := by
  simp [total]

theorem total_set (holds : α → Nat) {members : List α} {i : Nat} {a : α}
    (located : members[i]? = some a) (b : α) :
    total holds (members.set i b) + holds a = total holds members + holds b := by
  induction members generalizing i with
  | nil => simp at located
  | cons c rest ih =>
      cases i with
      | zero =>
          cases located
          simp only [total, List.set_cons_zero, List.map_cons, List.sum_cons]
          omega
      | succ i =>
          have later := ih (by simpa using located)
          simp only [total, List.set_cons_succ, List.map_cons, List.sum_cons] at later ⊢
          omega

theorem total_congr {f g : α → Nat} {members : List α} (same : ∀ a ∈ members, f a = g a) :
    total f members = total g members :=
  congrArg List.sum (List.map_congr_left same)

theorem total_of_ne {f g : α → Nat} {members : List α} {a : α} (distinct : members.Nodup)
    (member : a ∈ members) (others : ∀ b ∈ members, b ≠ a → g b = f b) :
    total g members + f a = total f members + g a := by
  classical
  have apart (f : α → Nat) : total f members = f a + total f (members.erase a) :=
    ((List.perm_cons_erase member).map f).sum_eq
  have rest : total g (members.erase a) = total f (members.erase a) := by
    apply total_congr
    intro b inside
    obtain ⟨ne, inside⟩ := distinct.mem_erase_iff.1 inside
    exact others b inside ne
  rw [apart f, apart g, rest]
  omega

theorem le_total {holds : α → Nat} {members : List α} {a : α} (member : a ∈ members) :
    holds a ≤ total holds members :=
  List.single_le_sum (fun _ _ => Nat.zero_le _) _ (List.mem_map_of_mem member)

theorem total_eq_zero {holds : α → Nat} {members : List α} (none : ∀ a ∈ members, holds a = 0) :
    total holds members = 0 := by
  refine List.sum_eq_zero fun n member => ?_
  obtain ⟨a, inside, rfl⟩ := List.mem_map.1 member
  exact none a inside

theorem countP_le_total {holds : α → Nat} {p : α → Bool} {members : List α}
    (one : ∀ a ∈ members, p a = true → 1 ≤ holds a) : members.countP p ≤ total holds members := by
  induction members with
  | nil => simp
  | cons a rest ih =>
      have later := ih fun b member => one b (List.mem_cons_of_mem _ member)
      have here := one a List.mem_cons_self
      rw [List.countP_cons]
      simp only [total, List.map_cons, List.sum_cons] at later ⊢
      split
      · have counts := here ‹_›
        omega
      · omega

theorem countP_eq_total {holds : α → Nat} {p : α → Bool} {members : List α}
    (exact : ∀ a ∈ members, holds a = (p a).toNat) : members.countP p = total holds members := by
  induction members with
  | nil => rfl
  | cons a rest ih =>
      have later := ih fun b member => exact b (List.mem_cons_of_mem _ member)
      have here := exact a List.mem_cons_self
      rw [List.countP_cons, later]
      simp only [total, List.map_cons, List.sum_cons, here]
      cases p a <;> simp [Nat.add_comm]

theorem total_add (f g : α → Nat) (members : List α) :
    total (fun a => f a + g a) members = total f members + total g members :=
  List.sum_map_add

end Ledger
