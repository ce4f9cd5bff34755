import S5lb.Lib.Ledger

/-!
# Workers on a queue

Items that wait in a queue, workers that take them one by one, and the items that are done.
-/

structure WorkQueue (α π : Type*) where
  queue : List α
  workers : List π
  finished : List α

namespace WorkQueue

variable {α π : Type*} {hand : π → Option α} {cost : π → Nat} {each : Nat} {w w' : WorkQueue α π}
  {items : List α}

def inHand (hand : π → Option α) (w : WorkQueue α π) : List α := w.workers.filterMap hand

def Left (hand : π → Option α) (cost : π → Nat) (p : π) : Prop := hand p = none ∧ cost p = 0

/-- A step of one worker, at a cost: an item in the queue stands for `each`, a worker for what it has
before it. -/
inductive Moves (hand : π → Option α) (cost : π → Nat) (each : Nat) (w : WorkQueue α π) :
    WorkQueue α π → Prop
  | takes {i : Nat} {p p' : π} {a : α} {rest : List α} (here : w.workers[i]? = some p)
      (idle : hand p = none) (first : w.queue = a :: rest) (holds : hand p' = some a)
      (less : cost p' < cost p + each) : Moves hand cost each w ⟨rest, w.workers.set i p', w.finished⟩
  | works {i : Nat} {p p' : π} {a : α} (here : w.workers[i]? = some p) (held : hand p = some a)
      (holds : hand p' = some a) (less : cost p' < cost p) :
      Moves hand cost each w { w with workers := w.workers.set i p' }
  | finishes {i : Nat} {p p' : π} {a : α} (here : w.workers[i]? = some p) (held : hand p = some a)
      (idle : hand p' = none) (stays : 0 < cost p') (less : cost p' < cost p) :
      Moves hand cost each w ⟨w.queue, w.workers.set i p', w.finished ++ [a]⟩
  | leaves {i : Nat} {p p' : π} (here : w.workers[i]? = some p) (idle : hand p = none)
      (empty : w.queue = []) (still : hand p' = none) (less : cost p' < cost p) :
      Moves hand cost each w { w with workers := w.workers.set i p' }

theorem filterMap_set (hand : π → Option α) {workers : List π} {i : Nat} {p : π} (p' : π)
    (here : workers[i]? = some p) :
    ((hand p).toList ++ (workers.set i p').filterMap hand).Perm
      ((hand p').toList ++ workers.filterMap hand) := by
  induction workers generalizing i with
  | nil => simp at here
  | cons q workers ih =>
      have first (p : π) (rest : List π) :
          (p :: rest).filterMap hand = (hand p).toList ++ rest.filterMap hand := by
        cases holds : hand p <;> simp [holds]
      cases i with
      | zero =>
          cases here
          simp only [List.set_cons_zero, first]
          rw [← List.append_assoc, ← List.append_assoc]
          exact List.perm_append_comm.append_right _
      | succ i =>
          simp only [List.set_cons_succ, first]
          calc (hand p).toList ++ ((hand q).toList ++ (workers.set i p').filterMap hand)
            _ |>.Perm ((hand q).toList ++ ((hand p).toList ++ (workers.set i p').filterMap hand)) :=
                List.perm_append_comm_assoc _ _ _
            _ |>.Perm ((hand q).toList ++ ((hand p').toList ++ workers.filterMap hand)) :=
                (ih here).append_left _
            _ |>.Perm ((hand p').toList ++ ((hand q).toList ++ workers.filterMap hand)) :=
                List.perm_append_comm_assoc _ _ _

theorem filterMap_set_same {workers : List π} {i : Nat} {p p' : π} (here : workers[i]? = some p)
    (same : hand p' = hand p) : ((workers.set i p').filterMap hand).Perm (workers.filterMap hand) := by
  have change := filterMap_set hand p' here
  rw [same] at change
  exact (List.perm_append_left_iff _).1 change

def Conserves (hand : π → Option α) (items : List α) (w : WorkQueue α π) : Prop :=
  (w.finished ++ w.inHand hand ++ w.queue).Perm items

theorem Conserves.moves (conserves : Conserves hand items w) (moves : Moves hand cost each w w') :
    Conserves hand items w' := by
  refine List.Perm.trans ?_ conserves
  cases moves with
  | @takes i p p' a rest here idle first holds less =>
      have change := filterMap_set hand p' here
      simp only [idle, holds, Option.toList_none, Option.toList_some, List.nil_append] at change
      simp only [inHand, first, List.append_assoc]
      refine List.Perm.append_left _ ((change.append_right rest).trans ?_)
      exact List.perm_middle.symm
  | works here held holds less =>
      exact ((filterMap_set_same here (holds.trans held.symm)).append_left _).append_right _
  | leaves here idle empty still less =>
      exact ((filterMap_set_same here (still.trans idle.symm)).append_left _).append_right _
  | @finishes i p p' a here held idle stays less =>
      have change := filterMap_set hand p' here
      simp only [idle, held, Option.toList_none, Option.toList_some, List.nil_append,
        List.singleton_append] at change
      simp only [inHand, List.append_assoc, List.singleton_append]
      exact (change.append_right _).append_left _

def Drained (hand : π → Option α) (cost : π → Nat) (w : WorkQueue α π) : Prop :=
  (∃ p ∈ w.workers, Left hand cost p) → w.queue = []

theorem Drained.moves (drained : Drained hand cost w) (moves : Moves hand cost each w w') :
    Drained hand cost w' := by
  have others {i : Nat} {p' : π} (busy : ¬Left hand cost p')
      (gone : ∃ p ∈ w.workers.set i p', Left hand cost p) : w.queue = [] := by
    obtain ⟨p, member, left⟩ := gone
    rcases List.mem_or_eq_of_mem_set member with old | rfl
    · exact drained ⟨p, old, left⟩
    · exact absurd left busy
  cases moves with
  | takes here idle first holds less =>
      intro gone
      have empty := others (by simp [Left, holds]) gone
      cases first.symm.trans empty
  | works here held holds less => exact others (by simp [Left, holds])
  | finishes here held idle stays less => exact others (by simp [Left, stays.ne'])
  | leaves here idle empty still less => exact fun _ => empty

theorem finished_perm (conserves : Conserves hand items w) (drained : Drained hand cost w)
    (some : w.workers ≠ []) (left : ∀ p ∈ w.workers, Left hand cost p) :
    w.finished.Perm items := by
  obtain ⟨p, member⟩ := List.exists_mem_of_ne_nil _ some
  have empty := drained ⟨p, member, left p member⟩
  have none : w.inHand hand = [] := List.filterMap_eq_nil_iff.2 fun p member => (left p member).1
  rw [Conserves, empty, none, List.append_nil, List.append_nil] at conserves
  exact conserves

theorem inHand_length_le (hand : π → Option α) (w : WorkQueue α π) :
    (w.inHand hand).length ≤ w.workers.length := List.length_filterMap_le _ _

def rank (cost : π → Nat) (each : Nat) (w : WorkQueue α π) : Nat :=
  each * w.queue.length + Ledger.total cost w.workers

theorem Moves.rank_lt (moves : Moves hand cost each w w') : rank cost each w' < rank cost each w := by
  cases moves with
  | @takes i p p' a rest here idle first holds less =>
      have change := Ledger.total_set cost here p'
      simp only [rank, first, List.length_cons, Nat.mul_add]
      omega
  | @works i p p' a here held holds less =>
      have change := Ledger.total_set cost here p'
      simp only [rank]
      omega
  | @leaves i p p' here idle empty still less =>
      have change := Ledger.total_set cost here p'
      simp only [rank]
      omega
  | @finishes i p p' a here held idle stays less =>
      have change := Ledger.total_set cost here p'
      simp only [rank]
      omega

theorem Moves.workers_length (moves : Moves hand cost each w w') :
    w'.workers.length = w.workers.length := by
  cases moves <;> simp

end WorkQueue
