import S5lb.Lib.Threads
import S5lb.Lib.Transition
import S5lb.Strategy.Choice

/-! Calls of `RoundRobinSelector.Pick` that share a cursor. -/

namespace S5lb.RoundRobinSelector

open Transition Threads

structure Picking where
  pool : List Snapshot
  maxPer : Int
  attempts : Nat
  -- ghost: the positions of the pool that the call has looked at
  tried : List Nat
  result : Option String
  deriving DecidableEq

def Picking.begun (pool : List Snapshot) (maxPer : Int) : Picking :=
  ⟨pool, maxPer, 0, [], if pool.length = 0 then some "" else none⟩

def Picking.tries (call : Picking) (idx : UInt64) : Picking :=
  { call with
    attempts := call.attempts + 1
    tried := call.tried ++ [idx.toNat % call.pool.length]
    result := match (attempt call.pool call.maxPer idx).1 with
      | some id => some id
      | none => if call.attempts + 1 < call.pool.length then none else some "" }

def Picking.Finds (call : Picking) : Prop :=
  match call.result with
  | some id => id ≠ "" ∧ ∃ u ∈ call.pool, u.eligible call.maxPer = true ∧ u.id = id
  | none => call.attempts < call.pool.length

structure Picking.Progress (call : Picking) : Prop where
  able : ∃ i < call.pool.length, EligibleAt call.pool call.maxPer i
  named : ∀ u ∈ call.pool, u.id ≠ ""
  distinct : call.tried.Nodup
  count : call.tried.length = call.attempts
  inside : ∀ i ∈ call.tried, i < call.pool.length
  missed : call.result = none → ∀ i ∈ call.tried, ¬EligibleAt call.pool call.maxPer i
  finds : call.Finds

theorem Picking.begun_progress {pool : List Snapshot} {maxPer : Int}
    (able : ∃ u ∈ pool, u.eligible maxPer = true) (named : ∀ u ∈ pool, u.id ≠ "") :
    (begun pool maxPer).Progress := by
  obtain ⟨u, member, ok⟩ := able
  obtain ⟨i, bound, located⟩ := List.mem_iff_getElem.1 member
  have pending : (begun pool maxPer).result = none := if_neg (by omega)
  refine ⟨⟨i, bound, u, ?_, ok⟩, named, List.nodup_nil, rfl, fun _ none => absurd none nofun,
    fun _ _ none => absurd none nofun, ?_⟩
  · exact List.getElem?_eq_some_iff.2 ⟨bound, located⟩
  · rw [Finds, pending]
    exact Nat.zero_lt_of_lt bound

theorem mem_of_covers {tried : List Nat} {n i : Nat} (distinct : tried.Nodup)
    (inside : ∀ j ∈ tried, j < n) (all : tried.length = n) (bound : i < n) : i ∈ tried := by
  have part : tried ⊆ List.range n := fun j member => List.mem_range.2 (inside j member)
  have size : (List.range n).length ≤ tried.length := by rw [List.length_range, all]
  exact ((List.subperm_of_subset distinct part).perm_of_length_le size).mem_iff.2 (List.mem_range.2 bound)

theorem Picking.tries_progress {call : Picking} {idx : UInt64} (pending : call.result = none)
    (fresh : idx.toNat % call.pool.length ∉ call.tried) (progress : call.Progress) :
    (call.tries idx).Progress := by
  have room : call.attempts < call.pool.length := by
    have finds := progress.finds
    rwa [Finds, pending] at finds
  have distinct : (call.tries idx).tried.Nodup :=
    List.nodup_append.2 ⟨progress.distinct, by simp, fun j old k new same =>
      fresh (List.mem_singleton.1 new ▸ same ▸ old)⟩
  have count : (call.tries idx).tried.length = call.attempts + 1 := by
    simp [tries, progress.count]
  have inside : ∀ j ∈ (call.tries idx).tried, j < call.pool.length :=
    List.forall_mem_append.2 ⟨progress.inside,
      List.forall_mem_singleton.2 (Nat.mod_lt _ (Nat.zero_lt_of_lt room))⟩
  cases tried : (attempt call.pool call.maxPer idx).1 with
  | some id =>
      have result : (call.tries idx).result = some id := by simp [tries, tried]
      obtain ⟨u, member, able, same⟩ := attempt_some tried
      refine ⟨progress.able, progress.named, distinct, count, inside, by simp [result], ?_⟩
      rw [Finds, result]
      exact ⟨same ▸ progress.named u member, u, member, able, same⟩
  | none =>
      have missed : ∀ j ∈ (call.tries idx).tried, ¬EligibleAt call.pool call.maxPer j :=
        List.forall_mem_append.2 ⟨progress.missed pending,
          List.forall_mem_singleton.2 (attempt_none tried)⟩
      have more : call.attempts + 1 < call.pool.length := by
        by_contra last
        obtain ⟨j, bound, able⟩ := progress.able
        exact missed j (mem_of_covers distinct inside (by omega) bound) able
      have result : (call.tries idx).result = none := by simp [tries, tried, more]
      refine ⟨progress.able, progress.named, distinct, count, inside, fun _ => missed, ?_⟩
      rw [Finds, result]
      exact more

structure Rotation where
  idx : UInt64
  calls : List Picking

namespace Rotation

def init (idx : UInt64) : Rotation := ⟨idx, []⟩

inductive Turn
  | call (pool : List Snapshot) (maxPer : Int)
  | attempt (i : Nat)
  deriving DecidableEq

def step (s : Rotation) : Turn → Option Rotation
  | .call pool maxPer => some { s with calls := s.calls ++ [.begun pool maxPer] }
  | .attempt i => do
      let call ← s.calls[i]?
      if call.result.isSome then none
      else some ⟨(attempt call.pool call.maxPer s.idx).2, s.calls.set i (call.tries s.idx)⟩

theorem step_cases {s s' : Rotation} {turn : Turn} (taken : s.step turn = some s') :
    (∃ pool maxPer, turn = .call pool maxPer ∧ s' = { s with calls := s.calls ++ [.begun pool maxPer] }) ∨
    ∃ i call, turn = .attempt i ∧ s.calls[i]? = some call ∧ call.result = none ∧
      s' = ⟨s.idx + 1, s.calls.set i (call.tries s.idx)⟩ := by
  cases turn with
  | call pool maxPer => exact .inl ⟨pool, maxPer, rfl, (Option.some.inj taken).symm⟩
  | attempt i =>
      simp only [step, Option.bind_eq_bind, Option.bind_eq_some_iff, Option.ite_none_left_eq_some,
        Option.some.injEq, Option.not_isSome_iff_eq_none] at taken
      obtain ⟨call, here, pending, same⟩ := taken
      exact .inr ⟨i, call, rfl, here, pending, same.symm⟩

def Turn.Admissible : Turn → Prop
  | .call pool maxPer => (∃ u ∈ pool, u.eligible maxPer = true) ∧ ∀ u ∈ pool, u.id ≠ ""
  | .attempt _ => True

instance (turn : Turn) : Decidable turn.Admissible :=
  match turn with
  | .call pool maxPer =>
      inferInstanceAs (Decidable ((∃ u ∈ pool, u.eligible maxPer = true) ∧ ∀ u ∈ pool, u.id ≠ ""))
  | .attempt _ => isTrue trivial

def Fresh (s : Rotation) : Turn → Prop
  | .call _ _ => True
  | .attempt i => ∀ call ∈ s.calls[i]?, s.idx.toNat % call.pool.length ∉ call.tried

instance (s : Rotation) (turn : Turn) : Decidable (s.Fresh turn) :=
  match turn with
  | .call _ _ => isTrue trivial
  | .attempt i =>
      inferInstanceAs (Decidable (∀ call ∈ s.calls[i]?, s.idx.toNat % call.pool.length ∉ call.tried))

theorem step_progress {s s' : Rotation} {turn : Turn} (admissible : turn.Admissible)
    (fresh : s.Fresh turn) (taken : s.step turn = some s')
    (progress : Each s.calls fun _ call => call.Progress) : Each s'.calls fun _ call => call.Progress := by
  rcases step_cases taken with ⟨pool, maxPer, rfl, rfl⟩ | ⟨i, call, rfl, here, pending, rfl⟩
  · exact progress.snoc fun _ => Picking.begun_progress admissible.1 admissible.2
  · exact progress.set here (Picking.tries_progress pending (fresh call here) (progress i call here))
      fun _ _ _ _ kept => kept

theorem rotation_finds {idx : UInt64} {trace : List (Rotation × Turn)} {s : Rotation}
    (exec : Exec step (init idx) trace s)
    (guarded : Guarded (fun s turn => turn.Admissible ∧ s.Fresh turn) trace) :
    ∀ call ∈ s.calls, call.Finds := by
  have progress : Each s.calls fun _ call => call.Progress := by
    refine exec.invariant (P := fun _ s => Each s.calls fun _ call => call.Progress) ?_ ?_ guarded
    · intro i call located
      simp [init] at located
    · intro _ _ _ _ _ progress good taken
      exact step_progress good.1 good.2 taken progress
  intro call member
  obtain ⟨i, located⟩ := List.getElem?_of_mem member
  exact (progress i call located).finds

theorem attempt_alone {s : Rotation} {i : Nat} {call : Picking} (here : s.calls[i]? = some call)
    (pending : call.result = none) :
    s.step (.attempt i) = some ⟨s.idx + 1, s.calls.set i (call.tries s.idx)⟩ := by
  simp [step, here, pending, attempt]

theorem scan_succ (pool : List Snapshot) (maxPer : Int) (left : Nat) (idx : UInt64) :
    scan pool maxPer (left + 1) idx = match (attempt pool maxPer idx).1 with
      | some id => (id, idx + 1)
      | none => scan pool maxPer left (idx + 1) := by
  have moved : attempt pool maxPer idx = ((attempt pool maxPer idx).1, idx + 1) := rfl
  rw [scan, moved]
  cases (attempt pool maxPer idx).1 with
  | none => rfl
  | some id => rfl

theorem scan_alone {s : Rotation} {i left : Nat} {call : Picking} (here : s.calls[i]? = some call)
    (pending : call.result = none) (more : call.attempts + (left + 1) = call.pool.length) :
    ∃ trace s' call', Exec step s trace s' ∧ s'.calls[i]? = some call' ∧
      call'.result = some (scan call.pool call.maxPer (left + 1) s.idx).1 ∧
      s'.idx = (scan call.pool call.maxPer (left + 1) s.idx).2 := by
  induction left generalizing s call with
  | zero =>
      have last : ¬call.attempts + 1 < call.pool.length := by omega
      refine ⟨_, _, _, .snoc .nil (attempt_alone here pending),
        List.getElem?_set_self (List.getElem?_eq_some_iff.1 here).1, ?_, ?_⟩
      · rw [scan_succ]
        cases tried : (attempt call.pool call.maxPer s.idx).1 <;> simp [Picking.tries, tried, last, scan]
      · rw [scan_succ]
        cases (attempt call.pool call.maxPer s.idx).1 <;> rfl
  | succ left ih =>
      have turn := Exec.snoc .nil (attempt_alone here pending)
      have there := List.getElem?_set_self (a := call.tries s.idx) (List.getElem?_eq_some_iff.1 here).1
      rw [scan_succ]
      cases tried : (attempt call.pool call.maxPer s.idx).1 with
      | some id => exact ⟨_, _, _, turn, there, by simp [Picking.tries, tried], rfl⟩
      | none =>
          have again : (call.tries s.idx).result = none := by
            simp [Picking.tries, tried, show call.attempts + 1 < call.pool.length by omega]
          obtain ⟨trace, s', call', exec, ends⟩ :=
            ih (s := ⟨s.idx + 1, s.calls.set i (call.tries s.idx)⟩) there again
              (show call.attempts + 1 + (left + 1) = call.pool.length by omega)
          exact ⟨_, s', call', turn.append exec, ends⟩

theorem pick_alone (s : Rotation) (pool : List Snapshot) (maxPer : Int) :
    ∃ trace s' call', Exec step s trace s' ∧ s'.calls[s.calls.length]? = some call' ∧
      call'.result = some (pick s.idx pool maxPer).1 ∧ s'.idx = (pick s.idx pool maxPer).2 := by
  have begins : Exec step s [(s, .call pool maxPer)] { s with calls := s.calls ++ [.begun pool maxPer] } :=
    .snoc .nil rfl
  have here : (s.calls ++ [Picking.begun pool maxPer])[s.calls.length]? = some (.begun pool maxPer) := by simp
  cases size : pool.length with
  | zero => exact ⟨_, _, _, begins, here, by simp [Picking.begun, size, pick, scan], by simp [pick, size, scan]⟩
  | succ left =>
      have pending : (Picking.begun pool maxPer).result = none := by simp [Picking.begun, size]
      obtain ⟨trace, s', call', exec, ends⟩ :=
        scan_alone (s := { s with calls := s.calls ++ [.begun pool maxPer] }) here pending
          (show 0 + (left + 1) = pool.length by omega)
      rw [pick, size]
      exact ⟨_, s', call', begins.append exec, ends⟩

def lastUp : List Snapshot := [.idle "a" 1 false, .idle "b" 1 true]

/-- Between the two attempts of the first call, the second one moves the cursor past the only
upstream that is up. -/
theorem rotation_misses : (∃ u ∈ lastUp, u.eligible 1 = true) ∧ (∀ u ∈ lastUp, u.id ≠ "") ∧
    ∃ trace s, Exec step (init 0) trace s ∧
      trace.map Prod.snd = [.call lastUp 1, .attempt 0, .call lastUp 1, .attempt 1, .attempt 0] ∧
      ∃ call ∈ s.calls, call.result = some "" := by
  obtain ⟨trace, s, exec, actions, missed⟩ := exec_of_play step (init 0)
    [.call lastUp 1, .attempt 0, .call lastUp 1, .attempt 1, .attempt 0]
    (fun _ s => decide (∃ call ∈ s.calls, call.result = some "")) (by decide +kernel)
  exact ⟨by decide +kernel, by decide +kernel, trace, s, exec, actions, of_decide_eq_true missed⟩

theorem rotation_finds_last : ∃ trace s, Exec step (init 0) trace s ∧
    (∃ call ∈ s.calls, call.result = some "b") ∧ ∀ call ∈ s.calls, call.Finds := by
  obtain ⟨trace, s, exec, -, good⟩ := exec_of_play step (init 0)
    [.call lastUp 1, .attempt 0, .attempt 0, .call lastUp 1]
    (fun trace s => decide ((∀ entry ∈ trace, entry.2.Admissible ∧ entry.1.Fresh entry.2) ∧
      ∃ call ∈ s.calls, call.result = some "b")) (by decide +kernel)
  obtain ⟨guarded, found⟩ := of_decide_eq_true good
  exact ⟨trace, s, exec, found, rotation_finds exec guarded⟩

end Rotation

end S5lb.RoundRobinSelector
