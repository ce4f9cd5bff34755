import Mathlib.Order.Nat

structure Heap (α : Type) where
  cells : Nat → α
  next : Nat

namespace Heap

variable {α : Type}

def get (h : Heap α) (r : Nat) : α := h.cells r

def set (h : Heap α) (r : Nat) (a : α) : Heap α := { h with cells := Function.update h.cells r a }

def alloc (h : Heap α) (a : α) : Nat × Heap α :=
  (h.next, { cells := Function.update h.cells h.next a, next := h.next + 1 })

@[simp] theorem get_set_self (h : Heap α) (r : Nat) (a : α) : (h.set r a).get r = a := by
  simp [get, set]

theorem get_set_of_ne (h : Heap α) {r q : Nat} (a : α) (ne : q ≠ r) :
    (h.set r a).get q = h.get q := by
  simp [get, set, ne]

theorem get_set (h : Heap α) (r q : Nat) (a : α) :
    (h.set r a).get q = if q = r then a else h.get q := by
  simp [get, set, Function.update_apply]

@[simp] theorem next_set (h : Heap α) (r : Nat) (a : α) : (h.set r a).next = h.next := rfl

@[simp] theorem alloc_fst (h : Heap α) (a : α) : (h.alloc a).1 = h.next := rfl

@[simp] theorem next_alloc (h : Heap α) (a : α) : (h.alloc a).2.next = h.next + 1 := rfl

theorem get_alloc (h : Heap α) (a : α) (q : Nat) :
    (h.alloc a).2.get q = if q = h.next then a else h.get q := by
  simp [get, alloc, Function.update_apply]

structure Extends (earlier later : Heap α) : Prop where
  next_le : earlier.next ≤ later.next
  get_eq : ∀ r < earlier.next, later.get r = earlier.get r

theorem Extends.refl (h : Heap α) : Extends h h := ⟨le_rfl, fun _ _ => rfl⟩

theorem Extends.trans {h₁ h₂ h₃ : Heap α} (first : Extends h₁ h₂) (second : Extends h₂ h₃) :
    Extends h₁ h₃ := by
  refine ⟨first.next_le.trans second.next_le, fun r bound => ?_⟩
  rw [second.get_eq r (bound.trans_le first.next_le), first.get_eq r bound]

theorem extends_alloc (h : Heap α) (a : α) : Extends h (h.alloc a).2 := by
  refine ⟨Nat.le_succ _, fun r bound => ?_⟩
  rw [get_alloc, if_neg bound.ne]

structure Keeps {β : Type} (f : α → β) (earlier later : Heap α) : Prop where
  next_le : earlier.next ≤ later.next
  read_eq : ∀ r < earlier.next, f (later.get r) = f (earlier.get r)

section Keeps

variable {β : Type} {f : α → β}

theorem Keeps.refl (h : Heap α) : Keeps f h h := ⟨le_rfl, fun _ _ => rfl⟩

theorem Keeps.trans {h₁ h₂ h₃ : Heap α} (first : Keeps f h₁ h₂) (second : Keeps f h₂ h₃) :
    Keeps f h₁ h₃ := by
  refine ⟨first.next_le.trans second.next_le, fun r bound => ?_⟩
  rw [second.read_eq r (bound.trans_le first.next_le), first.read_eq r bound]

theorem Extends.keeps {h₁ h₂ : Heap α} (extension : Extends h₁ h₂) : Keeps f h₁ h₂ :=
  ⟨extension.next_le, fun r bound => congrArg f (extension.get_eq r bound)⟩

theorem keeps_set (h : Heap α) {r : Nat} {a : α} (same : f a = f (h.get r)) : Keeps f h (h.set r a) := by
  refine ⟨le_rfl, fun q _ => ?_⟩
  rw [get_set]
  split
  · rename_i equal
    rw [same, equal]
  · rfl

end Keeps

end Heap
