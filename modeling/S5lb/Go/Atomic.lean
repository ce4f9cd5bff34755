import Mathlib.Data.Option.Basic

namespace Go

structure AtomicValue (α : Type) where
  stored : Option α
  deriving DecidableEq

namespace AtomicValue

variable {α τ : Type} [DecidableEq τ]

/-- `Store` panics, here `none`, when the concrete type differs from that of the value there. -/
def store (typeOf : α → τ) (cell : AtomicValue α) (v : α) : Option (AtomicValue α) :=
  match cell.stored with
  | none => some ⟨some v⟩
  | some old => if typeOf old = typeOf v then some ⟨some v⟩ else none

theorem stored_of_store {typeOf : α → τ} {cell cell' : AtomicValue α} {v : α}
    (stored : cell.store typeOf v = some cell') : cell'.stored = some v := by
  unfold store at stored
  split at stored
  · cases stored
    rfl
  · split at stored
    · cases stored
      rfl
    · cases stored

theorem store_of_stored {typeOf : α → τ} {cell : AtomicValue α} {old v : α}
    (here : cell.stored = some old) :
    cell.store typeOf v = if typeOf old = typeOf v then some ⟨some v⟩ else none := by
  unfold store
  rw [here]

theorem type_of_store {typeOf : α → τ} {cell cell' : AtomicValue α} {old v : α}
    (here : cell.stored = some old) (stored : cell.store typeOf v = some cell') :
    typeOf old = typeOf v := by
  rw [store_of_stored here] at stored
  by_contra differs
  simp [differs] at stored

theorem type_ne_of_store {typeOf : α → τ} {cell : AtomicValue α} {old v : α}
    (here : cell.stored = some old) (refused : cell.store typeOf v = none) :
    typeOf old ≠ typeOf v := by
  intro same
  simp [store_of_stored here, same] at refused

end AtomicValue

end Go
