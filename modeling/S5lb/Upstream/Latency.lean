import S5lb.Lib.Swaps
import S5lb.Upstream

/-!
# Latency samples observed at once

The moving average is kept outside the lock of a `State`: `ObserveLatency` loads it, merges its
sample and swaps the result in, again and again until no other call was faster.
-/

namespace S5lb

open Transition

inductive LockedOp
  | incActive (max : Int)
  | decActive
  | markHealthy
  | markUnhealthy (now : Time)
  | recordSuccess
  | recordFailure (threshold : Int) (window : Duration) (now : Time)
  | setDrain (drain : Bool)
  deriving DecidableEq

namespace LockedOp

def run : LockedOp → State → State
  | incActive max, s => (s.incActive max).getD s
  | decActive, s => s.decActive
  | markHealthy, s => s.markHealthy.1
  | markUnhealthy now, s => (s.markUnhealthy now).1
  | recordSuccess, s => s.recordSuccess
  | recordFailure threshold window now, s => (s.recordFailure threshold window now).1
  | setDrain drain, s => s.setDrain drain

theorem run_ewma (op : LockedOp) (s : State) (v : Float64) :
    op.run { s with ewma := v } = { op.run s with ewma := v } := by
  cases op with
  | incActive max =>
      simp only [run, State.incActive]
      split
      · rfl
      · split <;> rfl
  | decActive =>
      simp only [run, State.decActive]
      split <;> rfl
  | markHealthy =>
      simp only [run, State.markHealthy]
      split <;> rfl
  | markUnhealthy now =>
      simp only [run, State.markUnhealthy]
      split <;> rfl
  | recordSuccess =>
      simp only [run, State.recordSuccess]
      split <;> rfl
  | recordFailure threshold window now =>
      simp only [run, State.recordFailure]
      split_ifs <;> rfl
  | setDrain drain => rfl

theorem run_same_ewma (op : LockedOp) (s : State) : (op.run s).ewma = s.ewma := by
  have same : (op.run { s with ewma := s.ewma }).ewma = s.ewma := by rw [run_ewma]
  exact same

theorem foldl_run_ewma (ops : List LockedOp) (s : State) (v : Float64) :
    ops.foldl (fun s op => op.run s) { s with ewma := v } =
      { ops.foldl (fun s op => op.run s) s with ewma := v } := by
  induction ops generalizing s with
  | nil => rfl
  | cons op ops ih =>
      rw [List.foldl_cons, List.foldl_cons, run_ewma]
      exact ih (op.run s)

end LockedOp

def mergeSample (d : Duration) (cur : Float64) : Float64 :=
  let sample := State.seconds d
  if cur.eq (.fin 0) then sample
  else ((Float64.round State.ewmaAlpha).mul sample).add
    ((Float64.round (1 - State.ewmaAlpha)).mul cur)

theorem observeLatency_eq (s : State) (d : Duration) :
    s.observeLatency d = { s with ewma := mergeSample d s.ewma } := rfl

structure Observing (κ : Type) where
  state : State
  calls : κ → Swaps.Pc Float64
  observed : List κ

inductive ObserveAction (κ : Type)
  | load (k : κ)
  | swap (k : κ)
  | locked (op : LockedOp)
  deriving DecidableEq

namespace ObserveAction

variable {κ : Type}

def IsCall : ObserveAction κ → Prop
  | load _ | swap _ => True
  | locked _ => False

instance : DecidablePred (@IsCall κ)
  | load _ | swap _ => .isTrue trivial
  | locked _ => .isFalse id

def lockedOp? : ObserveAction κ → Option LockedOp
  | locked op => some op
  | load _ | swap _ => none

end ObserveAction

namespace Observing

variable {κ : Type} [DecidableEq κ]

def start (u : State) : Observing κ := ⟨u, fun _ => .loading, []⟩

def step (d : κ → Duration) (s : Observing κ) : ObserveAction κ → Option (Observing κ)
  | .load k =>
      match s.calls k with
      | .loading =>
          let prev := s.state.ewma
          some { s with calls := Function.update s.calls k (.loaded prev s.observed.length) }
      | _ => none
  | .swap k =>
      match s.calls k with
      | .loaded prev _ =>
          let next := mergeSample (d k) prev
          -- The code compares bits. Samples are never a NaN or a negative zero, nor is an average.
          if s.state.ewma = prev then
            some ⟨{ s.state with ewma := next }, Function.update s.calls k .done, s.observed ++ [k]⟩
          else some { s with calls := Function.update s.calls k .loading }
      | _ => none
  | .locked op => some { s with state := op.run s.state }

def cell (s : Observing κ) : Swaps.Cell κ Float64 := ⟨s.state.ewma, s.calls, s.observed⟩

def Returned (s : Observing κ) (k : κ) : Prop := s.calls k = .done

variable {d : κ → Duration} {u : State} {s s' : Observing κ}

def toSwaps : (a : ObserveAction κ) → a.IsCall → Swaps.Action κ
  | .load k, _ => .load k
  | .swap k, _ => .swap k

theorem cell_step {a : ObserveAction κ} (call : a.IsCall) (taken : step d s a = some s') :
    Swaps.step (fun k => mergeSample (d k)) s.cell (toSwaps a call) = some s'.cell := by
  cases a with
  | load k =>
      cases here : s.calls k with
      | loading =>
          simp only [step, here, Option.some.injEq] at taken
          simp [toSwaps, Swaps.step, cell, here, ← taken]
      | loaded | done => simp [step, here] at taken
  | swap k =>
      cases here : s.calls k with
      | loaded prev seen =>
          simp only [step, here] at taken
          split at taken
          · rename_i same
            cases taken
            simp [toSwaps, Swaps.step, cell, here, same]
          · rename_i differs
            cases taken
            simp [toSwaps, Swaps.step, cell, here, differs]
      | loading | done => simp [step, here] at taken
  | locked op => exact call.elim

theorem cell_locked {op : LockedOp} (taken : step d s (.locked op) = some s') :
    s'.cell = s.cell := by
  cases taken
  simp [cell, LockedOp.run_same_ewma]

def callSteps (trace : List (Observing κ × ObserveAction κ)) : Nat :=
  trace.countP fun entry => decide entry.2.IsCall

theorem cell_exec {trace : List (Observing κ × ObserveAction κ)}
    (exec : Exec (step d) (start u) trace s) :
    ∃ swaps, Exec (Swaps.step fun k => mergeSample (d k)) (Swaps.start u.ewma) swaps s.cell ∧
      swaps.length = callSteps trace := by
  induction exec with
  | nil => exact ⟨[], .nil, rfl⟩
  | @snoc trace s a s' before taken ih =>
      obtain ⟨swaps, exec, same⟩ := ih
      by_cases call : a.IsCall
      · refine ⟨_, exec.snoc (cell_step call taken), ?_⟩
        rw [List.length_append, same]
        simp [callSteps, call]
      · cases a with
        | locked op =>
            refine ⟨swaps, ?_, ?_⟩
            · rw [cell_locked taken]
              exact exec
            · simp [callSteps, call, same]
        | load | swap => exact absurd trivial call

def lockedOps (trace : List (Observing κ × ObserveAction κ)) : List LockedOp :=
  trace.filterMap fun entry => entry.2.lockedOp?

theorem state_of_exec {trace : List (Observing κ × ObserveAction κ)}
    (exec : Exec (step d) (start u) trace s) :
    s.state = { (lockedOps trace).foldl (fun u op => op.run u) u with ewma := s.state.ewma } := by
  induction exec with
  | nil => rfl
  | @snoc trace s a s' before taken ih =>
      cases a with
      | load k | swap k =>
          have keeps : ∃ v, s'.state = { s.state with ewma := v } := by
            cases here : s.calls k <;> simp only [step, here] at taken
            all_goals first
              | cases taken; exact ⟨s.state.ewma, rfl⟩
              | split at taken <;> cases taken
                · exact ⟨_, rfl⟩
                · exact ⟨s.state.ewma, rfl⟩
              | cases taken
          obtain ⟨v, keeps⟩ := keeps
          rw [keeps, ih]
          simp [lockedOps, ObserveAction.lockedOp?]
      | locked op =>
          cases taken
          simp only [lockedOps, List.filterMap_append, List.filterMap_cons, List.filterMap_nil,
            ObserveAction.lockedOp?, List.foldl_append, List.foldl_cons, List.foldl_nil] at ih ⊢
          rw [LockedOp.run_same_ewma]
          conv_lhs => rw [ih]
          exact op.run_ewma _ _

omit [DecidableEq κ] in
theorem foldl_observeLatency (log : List κ) (u : State) :
    log.foldl (fun u k => u.observeLatency (d k)) u =
      { u with ewma := Swaps.applied (fun k => mergeSample (d k)) u.ewma log } := by
  induction log generalizing u with
  | nil => rfl
  | cons k log ih =>
      rw [List.foldl_cons, ih]
      rfl

theorem call_enabled {k : κ} (waiting : ¬ s.Returned k) :
    ∃ a : ObserveAction κ, a.IsCall ∧ ∃ s', step d s a = some s' := by
  cases here : s.calls k with
  | loading => exact ⟨.load k, trivial, by simp [step, here]⟩
  | loaded prev seen =>
      refine ⟨.swap k, trivial, ?_⟩
      simp only [step, here]
      split <;> exact ⟨_, rfl⟩
  | done => exact absurd here waiting

variable [Fintype κ]

/-- However the calls interleave with one another and with what is done under the lock, the state is
that of the samples merged one after the other and of the locked operations in their order. -/
theorem samples_merged_once {trace : List (Observing κ × ObserveAction κ)}
    (exec : Exec (step d) (start u) trace s) :
    s.state = (lockedOps trace).foldl (fun u op => op.run u)
        (s.observed.foldl (fun u k => u.observeLatency (d k)) u) ∧
      s.observed.Nodup ∧ (∀ k, k ∈ s.observed ↔ s.Returned k) ∧
      callSteps trace ≤ 2 * Fintype.card κ ^ 2 ∧
      ((∃ k, ¬ s.Returned k) → ∃ a : ObserveAction κ, a.IsCall ∧ ∃ s', step d s a = some s') := by
  obtain ⟨swaps, projected, same⟩ := cell_exec exec
  obtain ⟨value, nodup, returned, _⟩ := Swaps.sound_of_exec projected
  have bounded := Swaps.length_le projected
  refine ⟨?_, nodup, returned, by omega, fun ⟨k, waiting⟩ => call_enabled waiting⟩
  rw [foldl_observeLatency, LockedOp.foldl_run_ewma, state_of_exec exec]
  exact congrArg _ value

/-- The slower of two calls on an unmeasured upstream swaps in vain, while a session is counted. -/
theorem samples_merged_once_contended :
    let d : Bool → Duration := fun slow => if slow then 2000000000 else 1000000000
    ∃ (trace : List (Observing Bool × ObserveAction Bool)) (s : Observing Bool),
      Exec (step d) (start newState) trace s ∧
      callSteps trace = 6 ∧ s.observed = [false, true] ∧ s.state.active = 1 ∧
      s.state = (LockedOp.incActive 1).run
        ((newState.observeLatency 1000000000).observeLatency 2000000000) := by
  intro d
  obtain ⟨trace, s, exec, actions, reached⟩ := exec_of_play (step d) (start newState)
    [.load false, .load true, .swap false, .locked (.incActive 1), .swap true, .load true,
      .swap true]
    (fun trace s => decide (callSteps trace = 6 ∧ s.observed = [false, true] ∧
      s.state.active = 1 ∧ lockedOps trace = [.incActive 1]))
    (by decide +kernel)
  obtain ⟨calls, observed, active, ops⟩ := of_decide_eq_true reached
  have state := (samples_merged_once exec).1
  rw [ops, observed] at state
  exact ⟨trace, s, exec, calls, observed, active, state⟩

end Observing

end S5lb
