import Mathlib.Algebra.BigOperators.Group.Finset.Basic
import Mathlib.Algebra.Group.Action.Defs
import Mathlib.Algebra.Order.BigOperators.Group.Finset
import Mathlib.Tactic.Ring
import S5lb.Lib.Transition

/-!
# Loops around a compare-and-swap

Calls that load a shared value, compute the next one from it and swap it in, and start again when the
value is another one by then.
-/

namespace Swaps

open Transition

inductive Pc (τ : Type*)
  | loading
  | loaded (v : τ) (seen : Nat)
  | done
  deriving DecidableEq

structure Cell (κ τ : Type*) where
  value : τ
  pc : κ → Pc τ
  log : List κ

inductive Action (κ : Type*)
  | load (k : κ)
  | swap (k : κ)

variable {κ τ : Type*} [DecidableEq κ] [DecidableEq τ]

def start (init : τ) : Cell κ τ := ⟨init, fun _ => .loading, []⟩

def step (next : κ → τ → τ) (s : Cell κ τ) : Action κ → Option (Cell κ τ)
  | .load k =>
      match s.pc k with
      | .loading => some { s with pc := Function.update s.pc k (.loaded s.value s.log.length) }
      | _ => none
  | .swap k =>
      match s.pc k with
      | .loaded v _ =>
          if s.value = v then some ⟨next k v, Function.update s.pc k .done, s.log ++ [k]⟩
          else some { s with pc := Function.update s.pc k .loading }
      | _ => none

def applied (next : κ → τ → τ) (init : τ) (log : List κ) : τ := log.foldl (fun v k => next k v) init

variable {next : κ → τ → τ} {init : τ} {s s' : Cell κ τ}

inductive Moves (next : κ → τ → τ) (s : Cell κ τ) : Cell κ τ → Prop
  | loads {k : κ} (here : s.pc k = .loading) :
      Moves next s { s with pc := Function.update s.pc k (.loaded s.value s.log.length) }
  | swaps {k : κ} {seen : Nat} (here : s.pc k = .loaded s.value seen) :
      Moves next s ⟨next k s.value, Function.update s.pc k .done, s.log ++ [k]⟩
  | retries {k : κ} {v : τ} {seen : Nat} (here : s.pc k = .loaded v seen) (other : s.value ≠ v) :
      Moves next s { s with pc := Function.update s.pc k .loading }

theorem moves_of_step {a : Action κ} (taken : step next s a = some s') : Moves next s s' := by
  cases a with
  | load k =>
      cases here : s.pc k with
      | loading =>
          simp only [step, here, Option.some.injEq] at taken
          exact taken ▸ .loads here
      | loaded | done => simp [step, here] at taken
  | swap k =>
      cases here : s.pc k with
      | loaded v seen =>
          simp only [step, here] at taken
          split at taken
          · rename_i same
            cases taken
            subst same
            exact .swaps here
          · cases taken
            exact .retries here ‹_›
      | loading | done => simp [step, here] at taken

structure Sound (next : κ → τ → τ) (init : τ) (s : Cell κ τ) : Prop where
  value : s.value = applied next init s.log
  nodup : s.log.Nodup
  done : ∀ k, k ∈ s.log ↔ s.pc k = .done
  loaded : ∀ k v seen, s.pc k = .loaded v seen →
    seen ≤ s.log.length ∧ v = applied next init (s.log.take seen)

omit [DecidableEq κ] [DecidableEq τ] in
theorem sound_start : Sound next init (start init) := by
  refine ⟨rfl, List.nodup_nil, fun k => ?_, fun k v seen here => ?_⟩
  · simp [start]
  · cases here

omit [DecidableEq τ] in
theorem Sound.moves (sound : Sound next init s) (moves : Moves next s s') : Sound next init s' := by
  obtain ⟨value, nodup, done, loaded⟩ := sound
  cases moves with
  | @loads k here =>
      refine ⟨value, nodup, fun j => ?_, fun j v seen there => ?_⟩
      · by_cases same : j = k
        · subst same
          simp [done, here]
        · simp [done, Function.update_of_ne same]
      · by_cases same : j = k
        · subst same
          simp only [Function.update_self, Pc.loaded.injEq] at there
          obtain ⟨rfl, rfl⟩ := there
          exact ⟨le_rfl, by rw [List.take_length]; exact value⟩
        · simp only [Function.update_of_ne same] at there
          exact loaded j v seen there
  | @swaps k seen here =>
      have absent : k ∉ s.log := by simp [done, here]
      refine ⟨?_, ?_, fun j => ?_, fun j v seen there => ?_⟩
      · simp only [applied, List.foldl_append, List.foldl_cons, List.foldl_nil] at value ⊢
        rw [← value]
      · exact nodup.append (List.nodup_singleton k) (List.disjoint_singleton.2 absent)
      · by_cases same : j = k
        · subst same
          simp
        · simp [done, same]
      · by_cases same : j = k
        · subst same
          simp at there
        · simp only [Function.update_of_ne same] at there
          obtain ⟨within, before⟩ := loaded j v seen there
          refine ⟨within.trans (by simp), ?_⟩
          rw [List.take_append_of_le_length within]
          exact before
  | @retries k v seen here other =>
      refine ⟨value, nodup, fun j => ?_, fun j v seen there => ?_⟩
      · by_cases same : j = k
        · subst same
          simp [done, here]
        · simp [done, Function.update_of_ne same]
      · by_cases same : j = k
        · subst same
          simp at there
        · simp only [Function.update_of_ne same] at there
          exact loaded j v seen there

theorem sound_of_exec {trace : List (Cell κ τ × Action κ)}
    (exec : Exec (step next) (start init) trace s) : Sound next init s :=
  exec.stable sound_start fun _ _ _ sound taken => sound.moves (moves_of_step taken)

omit [DecidableEq κ] [DecidableEq τ] in
theorem Sound.seen_lt (sound : Sound next init s) {k : κ} {v : τ} {seen : Nat}
    (here : s.pc k = .loaded v seen) (other : s.value ≠ v) : seen < s.log.length := by
  obtain ⟨within, before⟩ := sound.loaded k v seen here
  refine lt_of_le_of_ne within fun whole => other ?_
  rw [before, whole, List.take_length, sound.value]

section Bounded

variable [Fintype κ]

def left (s : Cell κ τ) : Nat := Fintype.card κ - s.log.length

def weight (s : Cell κ τ) (k : κ) : Nat :=
  match s.pc k with
  | .done => 0
  | .loading => 2 * left s
  | .loaded _ seen => if seen = s.log.length then 2 * left s - 1 else 2 * left s + 1

def rank (s : Cell κ τ) : Nat := ∑ k, weight s k

omit [DecidableEq κ] [DecidableEq τ] in
theorem Sound.left_pos (sound : Sound next init s) {k : κ} (waiting : s.pc k ≠ .done) :
    0 < left s := by
  have absent : k ∉ s.log := fun member => waiting ((sound.done k).1 member)
  have fewer := (List.nodup_cons.2 ⟨absent, sound.nodup⟩).length_le_card
  rw [List.length_cons] at fewer
  unfold left
  omega

omit [DecidableEq τ] in
theorem rank_lt {k : κ} (others : ∀ j, j ≠ k → weight s' j ≤ weight s j)
    (mine : weight s' k < weight s k) : rank s' < rank s := by
  refine Finset.sum_lt_sum (fun j _ => ?_) ⟨k, Finset.mem_univ k, mine⟩
  by_cases same : j = k
  · subst same
    exact mine.le
  · exact others j same

omit [DecidableEq τ] in
theorem Sound.rank_lt (sound : Sound next init s) (moves : Moves next s s') : rank s' < rank s := by
  cases moves with
  | @loads k here =>
      have positive := sound.left_pos (k := k) (by simp [here])
      refine Swaps.rank_lt (k := k) (fun j other => ?_) ?_
      · simp [weight, left, Function.update_of_ne other]
      · simp only [weight, left, Function.update_self, here, if_true] at positive ⊢
        omega
  | @swaps k seen here =>
      have positive := sound.left_pos (k := k) (by simp [here])
      have fewer : left (⟨next k s.value, Function.update s.pc k .done, s.log ++ [k]⟩ : Cell κ τ) =
          left s - 1 := by
        simp only [left, List.length_append, List.length_singleton]
        omega
      refine Swaps.rank_lt (k := k) (fun j other => ?_) ?_
      · simp only [weight, Function.update_of_ne other, fewer, List.length_append,
          List.length_singleton]
        cases there : s.pc j with
        | loading =>
            dsimp only
            omega
        | loaded v seen =>
            have within := (sound.loaded j v seen there).1
            dsimp only
            split <;> split <;> omega
        | done => exact le_rfl
      · simp only [weight, Function.update_self, here]
        split <;> omega
  | @retries k v seen here other =>
      have stale := sound.seen_lt here other
      refine Swaps.rank_lt (k := k) (fun j other => ?_) ?_
      · simp [weight, left, Function.update_of_ne other]
      · simp only [weight, left, Function.update_self, here]
        rw [if_neg stale.ne]
        omega

theorem length_le {trace : List (Cell κ τ × Action κ)}
    (exec : Exec (step next) (start init) trace s) :
    trace.length + rank s ≤ 2 * Fintype.card κ ^ 2 := by
  induction exec with
  | nil =>
      have each (k : κ) : weight (start init : Cell κ τ) k = 2 * Fintype.card κ := rfl
      simp only [rank, each, Finset.sum_const, Finset.card_univ, smul_eq_mul, List.length_nil]
      exact le_of_eq (by ring)
  | @snoc trace s a s' before taken ih =>
      have lower := (sound_of_exec before).rank_lt (moves_of_step taken)
      rw [List.length_append, List.length_singleton]
      omega

end Bounded

end Swaps
