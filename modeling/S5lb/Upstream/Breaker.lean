import S5lb.Lib.Transition
import S5lb.Upstream

namespace S5lb

open Transition

namespace State

section RecordFailure

variable (s : State) (threshold : Int) (window : Duration) (now : Time)

def Expires : Prop := s.consecutiveFailures > 0 ∧ now - s.firstFailureTS > window

instance : Decidable (s.Expires window now) := inferInstanceAs (Decidable (_ ∧ _))

def countAt : Nat := if s.Expires window now then 1 else s.consecutiveFailures + 1

def firstAt : Time :=
  if s.Expires window now ∨ s.consecutiveFailures = 0 then now else s.firstFailureTS

theorem trip_state (failed : State) :
    (if failed.healthy ∧ (failed.consecutiveFailures : Int) ≥ threshold then
      ({ failed with healthy := false }, failed.consecutiveFailures, true)
    else (failed, failed.consecutiveFailures, false)).1 =
      { failed with
        healthy := failed.healthy && decide ((failed.consecutiveFailures : Int) < threshold) } := by
  split
  · rename_i trips
    simp [trips.2]
  · rename_i quiet
    have same : (failed.healthy && decide ((failed.consecutiveFailures : Int) < threshold)) =
        failed.healthy := by
      cases healthy : failed.healthy with
      | false => rfl
      | true => exact decide_eq_true (not_le.1 fun reached => quiet ⟨healthy, reached⟩)
    rw [same]

theorem recordFailure_state :
    (s.recordFailure threshold window now).1 =
      { s with
        totalFailures := s.totalFailures + 1
        firstFailureTS := s.firstAt window now
        consecutiveFailures := s.countAt window now
        lastFailureTS := now
        healthy := s.healthy && decide ((s.countAt window now : Int) < threshold) } := by
  refine (trip_state threshold _).trans ?_
  by_cases expires : s.Expires window now
  · have dropped : s.consecutiveFailures > 0 ∧ now - s.firstFailureTS > window := expires
    simp [countAt, firstAt, expires, dropped]
  · have kept : ¬(s.consecutiveFailures > 0 ∧ now - s.firstFailureTS > window) := expires
    by_cases none : s.consecutiveFailures = 0
    · simp [countAt, firstAt, expires, none]
    · simp only [countAt, firstAt, if_neg kept, expires, none, or_self, if_false]

theorem recordFailure_reports :
    (s.recordFailure threshold window now).2 =
      (s.countAt window now, s.healthy && decide (threshold ≤ s.countAt window now)) := by
  have report (failed : State) :
      (if failed.healthy ∧ (failed.consecutiveFailures : Int) ≥ threshold then
        ({ failed with healthy := false }, failed.consecutiveFailures, true)
      else (failed, failed.consecutiveFailures, false)).2 =
        (failed.consecutiveFailures,
          failed.healthy && decide (threshold ≤ (failed.consecutiveFailures : Int))) := by
    split
    · rename_i trips
      simp [trips.1, trips.2]
    · rename_i quiet
      cases healthy : failed.healthy with
      | false => rfl
      | true => simp [not_le.1 fun reached => quiet ⟨healthy, reached⟩]
  refine (report _).trans ?_
  by_cases expires : s.Expires window now
  · have dropped : s.consecutiveFailures > 0 ∧ now - s.firstFailureTS > window := expires
    simp [countAt, expires, dropped]
  · have kept : ¬(s.consecutiveFailures > 0 ∧ now - s.firstFailureTS > window) := expires
    by_cases none : s.consecutiveFailures = 0
    · simp [countAt, expires, none]
    · simp only [countAt, if_neg kept, expires, none, if_false]

end RecordFailure

end State

/-- An upstream's state under the calls that report on it, with the last clock reading and the
failures since the counters were last cleared, the latest first. -/
structure Breaker where
  state : State
  clock : Time
  recent : List Time
  deriving DecidableEq

inductive Report
  | recordFailure (now : Time)
  | recordSuccess
  | markHealthy

namespace Breaker

def init (start : Time) : Breaker := ⟨newState, start, []⟩

def step (threshold : Nat) (window : Duration) (b : Breaker) : Report → Option Breaker
  | .recordFailure now =>
      if b.clock ≤ now then
        some ⟨(b.state.recordFailure threshold window now).1, now, now :: b.recent⟩
      else none
  | .recordSuccess => some { b with state := b.state.recordSuccess, recent := [] }
  | .markHealthy =>
      some { b with
        state := b.state.markHealthy.1
        recent := if b.state.markHealthy.2 then [] else b.recent }

/-- The latest `threshold` failures all lie in the window that ends with the last one. -/
def Full (threshold : Nat) (window : Duration) (b : Breaker) : Prop :=
  threshold ≤ b.recent.length ∧
    ∀ last ∈ b.recent.head?, ∀ t ∈ b.recent.take threshold, last - window ≤ t

/-- Failures are dropped from a healthy upstream's count only when the last of them is out of the
window as well. -/
def Guard (window : Duration) (b : Breaker) : Report → Prop
  | .recordFailure now =>
      b.state.healthy = true → b.state.Expires window now → now - b.state.lastFailureTS > window
  | _ => True

instance (window : Duration) (b : Breaker) (r : Report) : Decidable (b.Guard window r) :=
  match r with
  | .recordFailure _ => inferInstanceAs (Decidable (_ → _ → _))
  | .recordSuccess | .markHealthy => inferInstanceAs (Decidable True)

structure Counts (threshold : Nat) (window : Duration) (b : Breaker) : Prop where
  idle : b.state.consecutiveFailures = 0 → b.recent = []
  first : 0 < b.state.consecutiveFailures → b.state.firstFailureTS ≤ b.state.lastFailureTS
  clock : 0 < b.state.consecutiveFailures → b.state.lastFailureTS ≤ b.clock
  head : ∀ last ∈ b.recent.head?, last = b.state.lastFailureTS
  past : ∀ t ∈ b.recent, t ≤ b.state.lastFailureTS
  tripped : b.state.healthy = true → b.state.consecutiveFailures < threshold
  old : b.state.healthy = true → ∀ t ∈ b.recent.drop b.state.consecutiveFailures,
    t + window < b.state.firstFailureTS

theorem out_of_window {t last now : Time} {window : Duration} (before : t ≤ last)
    (gone : now - last > window) : t + window < now :=
  Int.lt_of_le_of_lt (Int.add_le_add_right before window)
    (Int.add_comm last window ▸ Int.add_lt_of_lt_sub_right gone)

section Counts

variable {threshold : Nat} {window : Duration} {b : Breaker} (positive : 1 ≤ threshold)

include positive

theorem counts_cleared (none : b.state.consecutiveFailures = 0) (empty : b.recent = []) :
    b.Counts threshold window := by
  constructor <;> simp [none, empty]
  exact fun _ => positive

theorem counts_init (start : Time) : (init start).Counts threshold window :=
  counts_cleared positive rfl rfl

theorem Counts.recordSuccess :
    Counts threshold window { b with state := b.state.recordSuccess, recent := [] } := by
  refine counts_cleared positive ?_ rfl
  unfold State.recordSuccess
  dsimp only
  split
  · rfl
  · omega

theorem Counts.markHealthy (counts : b.Counts threshold window) :
    Counts threshold window { b with
      state := b.state.markHealthy.1
      recent := if b.state.markHealthy.2 then [] else b.recent } := by
  unfold State.markHealthy
  split
  · exact counts
  · exact counts_cleared positive rfl rfl

omit positive in
theorem Counts.recordFailure (counts : b.Counts threshold window) {now : Time}
    (later : b.clock ≤ now) (guard : b.Guard window (.recordFailure now)) :
    Counts threshold window
      ⟨(b.state.recordFailure threshold window now).1, now, now :: b.recent⟩ := by
  have past (t : Time) (member : t ∈ b.recent) : t ≤ b.state.lastFailureTS ∧ t ≤ now := by
    have counted : 0 < b.state.consecutiveFailures := by
      by_contra none
      rw [counts.idle (by omega)] at member
      cases member
    have before := counts.past t member
    have clock := counts.clock counted
    exact ⟨before, Int.le_trans before (Int.le_trans clock later)⟩
  rw [State.recordFailure_state]
  refine ⟨?_, ?_, ?_, ?_, ?_, ?_, ?_⟩
  · intro none
    simp only [State.countAt] at none
    split at none <;> omega
  · intro _
    simp only [State.firstAt]
    split
    · exact le_refl now
    · rename_i kept
      have counted : 0 < b.state.consecutiveFailures := by
        have := (not_or.1 kept).2
        omega
      exact Int.le_trans (counts.first counted) (Int.le_trans (counts.clock counted) later)
  · exact fun _ => le_refl now
  · rintro last ⟨⟩
    rfl
  · intro t member
    rcases List.mem_cons.1 member with rfl | old
    · exact le_refl t
    · exact (past t old).2
  · intro healthy
    have below := of_decide_eq_true (Bool.and_eq_true_iff.1 healthy).2
    simp only
    omega
  · intro healthy t member
    have before := (Bool.and_eq_true_iff.1 healthy).1
    simp only [State.countAt, State.firstAt] at member ⊢
    by_cases expires : b.state.Expires window now
    · rw [if_pos expires] at member
      rw [if_pos (.inl expires)]
      exact out_of_window (past t member).1 (guard before expires)
    · rw [if_neg expires, List.drop_succ_cons] at member
      have counted : b.state.consecutiveFailures ≠ 0 := by
        intro none
        rw [counts.idle none] at member
        simp at member
      rw [if_neg (not_or.2 ⟨expires, counted⟩)]
      exact counts.old before t member

theorem counts_exec {start : Time} {trace : List (Breaker × Report)}
    (exec : Exec (step threshold window) (init start) trace b)
    (guarded : Guarded (Guard window) trace) : b.Counts threshold window := by
  refine exec.invariant (P := fun _ b => b.Counts threshold window) (counts_init positive start)
    (fun _ b r b' _ counts guard taken => ?_) guarded
  cases r with
  | recordFailure now =>
      obtain ⟨later, ⟨⟩⟩ := Option.ite_none_right_eq_some.1 taken
      exact counts.recordFailure later guard
  | recordSuccess =>
      cases taken
      exact Counts.recordSuccess positive
  | markHealthy =>
      cases taken
      exact counts.markHealthy positive

end Counts

/-- The breaker is open whenever its window is full, in a run that never drops a failure that is
still in the window. -/
theorem tripped_of_full (threshold : Nat) (window : Duration) (positive : 1 ≤ threshold)
    (start : Time) (trace : List (Breaker × Report)) (b : Breaker)
    (exec : Exec (step threshold window) (init start) trace b)
    (guarded : Guarded (Guard window) trace) (full : b.Full threshold window) :
    b.state.healthy = false := by
  have counts := counts_exec positive exec guarded
  by_contra up
  have healthy : b.state.healthy = true := Bool.not_eq_false _ ▸ up
  have below := counts.tripped healthy
  obtain ⟨enough, inside⟩ := full
  cases split : b.recent with
  | nil =>
      rw [split] at enough
      exact absurd enough (Nat.not_le.2 positive)
  | cons last earlier =>
      have counted : 0 < b.state.consecutiveFailures := by
        by_contra none
        rw [counts.idle (by omega)] at split
        cases split
      have isLast := counts.head last (by rw [split]; rfl)
      -- the first failure that is not counted is among the latest `threshold` ones
      have bound : b.state.consecutiveFailures < b.recent.length := by omega
      have uncounted := counts.old healthy (b.recent[b.state.consecutiveFailures])
        (List.mem_iff_getElem.2 ⟨0, by simpa using bound, by simp⟩)
      have recent := inside last (by rw [split]; rfl) (b.recent[b.state.consecutiveFailures])
        (List.mem_iff_getElem.2 ⟨b.state.consecutiveFailures, by simpa using ⟨below, bound⟩, by simp⟩)
      have first := counts.first counted
      rw [← isLast] at first
      exact absurd (Int.lt_of_lt_of_le uncounted first) (Int.not_lt.2 (sub_le_iff_le_add.1 recent))

def Lone (b : Breaker) : Prop :=
  b.state.healthy = true → 0 < b.state.consecutiveFailures →
    b.state.firstFailureTS = b.state.lastFailureTS

theorem Lone.step {threshold : Nat} {window : Duration} (small : threshold ≤ 2) {b b' : Breaker} {r : Report}
    (lone : b.Lone) (taken : step threshold window b r = some b') : b'.Lone := by
  cases r with
  | recordFailure now =>
      obtain ⟨-, ⟨⟩⟩ := Option.ite_none_right_eq_some.1 taken
      intro healthy _
      rw [State.recordFailure_state] at healthy ⊢
      have below := of_decide_eq_true (Bool.and_eq_true_iff.1 healthy).2
      -- the count is below 2, so that it has started at this failure
      have started : b.state.Expires window now ∨ b.state.consecutiveFailures = 0 := by
        by_contra kept
        rw [not_or] at kept
        rw [State.countAt, if_neg kept.1] at below
        omega
      exact if_pos started
  | recordSuccess =>
      cases taken
      intro healthy counted
      unfold State.recordSuccess at healthy counted ⊢
      dsimp only at healthy counted ⊢
      split at counted
      · exact absurd counted (lt_irrefl 0)
      · contradiction
  | markHealthy =>
      cases taken
      intro healthy counted
      unfold State.markHealthy at healthy counted ⊢
      split at counted
      · rename_i up
        rw [if_pos up]
        exact lone up counted
      · exact absurd counted (lt_irrefl 0)

/-- With a threshold of 2 or less no call drops a failure that is still in the window. -/
theorem guarded_of_threshold_le_two {threshold : Nat} {window : Duration} (small : threshold ≤ 2) {start : Time}
    {trace : List (Breaker × Report)} {b : Breaker}
    (exec : Exec (step threshold window) (init start) trace b) : Guarded (Guard window) trace := by
  induction exec with
  | nil => exact List.forall_mem_nil _
  | @snoc trace b r _ before taken ih =>
      have lone : b.Lone := before.stable nofun fun _ _ _ lone taken => lone.step small taken
      refine guarded_snoc.2 ⟨ih, ?_⟩
      cases r with
      | recordFailure now => exact fun healthy expires => lone healthy expires.1 ▸ expires.2
      | recordSuccess => trivial
      | markHealthy => trivial

/-- Failures at 0, 9, 11 and 12 with a window of 10: at 12 the last three are in the window, but the
one at 9 was dropped from the count at 11. -/
theorem full_untripped :
    ∃ trace b, Exec (step 3 10) (init 0) trace b ∧ b.recent = [12, 11, 9, 0] ∧ b.Full 3 10 ∧
      b.state.healthy = true := by
  obtain ⟨trace, b, exec, _, tested⟩ := exec_of_play (step 3 10) (init 0)
    [.recordFailure 0, .recordFailure 9, .recordFailure 11, .recordFailure 12]
    (fun _ b => decide (b.recent = [12, 11, 9, 0]) && b.state.healthy) (by decide +kernel)
  obtain ⟨recent, healthy⟩ := Bool.and_eq_true_iff.1 tested
  have recent := of_decide_eq_true recent
  refine ⟨trace, b, exec, recent, ⟨by rw [recent]; decide, ?_⟩, healthy⟩
  rw [recent]
  decide

theorem tripped_of_burst :
    ∃ trace b, Exec (step 3 10) (init 0) trace b ∧ Guarded (Guard 10) trace ∧
      b.recent = [25, 24, 23, 0] ∧ b.state.healthy = false := by
  obtain ⟨trace, b, exec, _, tested⟩ := exec_of_play (step 3 10) (init 0)
    [.recordFailure 0, .recordFailure 23, .recordFailure 24, .recordFailure 25]
    (fun trace b => trace.all (fun entry => decide (entry.1.Guard 10 entry.2)) &&
      decide (b.recent = [25, 24, 23, 0])) (by decide +kernel)
  obtain ⟨guarded, recent⟩ := Bool.and_eq_true_iff.1 tested
  have recent := of_decide_eq_true recent
  have guarded : Guarded (Guard 10) trace := fun entry member =>
    of_decide_eq_true (List.all_eq_true.1 guarded entry member)
  have full : b.Full 3 10 := by
    refine ⟨by rw [recent]; decide, ?_⟩
    rw [recent]
    decide
  exact ⟨trace, b, exec, guarded, recent,
    tripped_of_full 3 10 (by decide) 0 trace b exec guarded full⟩

def Clears (b : Breaker) : Report → Prop
  | .recordFailure _ => False
  | .recordSuccess => True
  | .markHealthy => b.state.markHealthy.2 = true

def failures (trace : List (Breaker × Report)) : List Time :=
  trace.filterMap fun
    | (_, .recordFailure now) => some now
    | _ => none

theorem failures_snoc (trace : List (Breaker × Report)) (b : Breaker) (r : Report) :
    failures (trace ++ [(b, r)]) = failures trace ++ failures [(b, r)] := by
  simp [failures]

structure Counted (trace : List (Breaker × Report)) (b : Breaker) : Prop where
  count : (failures trace).length = b.state.consecutiveFailures
  uncleared : ∀ entry ∈ trace, ¬entry.1.Clears entry.2
  first : ∀ t ∈ failures trace, b.state.firstFailureTS ≤ t
  past : ∀ t ∈ failures trace, t ≤ b.clock

theorem counted_nil {b : Breaker} (none : b.state.consecutiveFailures = 0) : Counted [] b :=
  ⟨none.symm, List.forall_mem_nil _, List.forall_mem_nil _, List.forall_mem_nil _⟩

section Counted

variable {threshold : Nat} {window : Duration} {b b' : Breaker} {burst : List (Breaker × Report)}

theorem Counted.quiet (counted : Counted burst b) (r : Report) (quiet : failures [(b, r)] = [])
    (uncleared : ¬b.Clears r) : Counted (burst ++ [(b, r)]) b := by
  have same : failures (burst ++ [(b, r)]) = failures burst := by
    rw [failures_snoc, quiet, List.append_nil]
  exact ⟨same ▸ counted.count,
    List.forall_mem_append.2 ⟨counted.uncleared, List.forall_mem_singleton.2 uncleared⟩,
    same ▸ counted.first, same ▸ counted.past⟩

theorem Counted.first_le (counted : Counted burst b) {now : Time} (later : b.clock ≤ now)
    (some : b.state.consecutiveFailures ≠ 0) : b.state.firstFailureTS ≤ now := by
  obtain ⟨t, member⟩ := List.exists_mem_of_ne_nil (failures burst) fun none => by
    rw [← counted.count, none] at some
    exact some rfl
  exact (counted.first t member).trans ((counted.past t member).trans later)

theorem Counted.recordFailure (counted : Counted burst b) {now : Time} (later : b.clock ≤ now) :
    ∃ burst', burst' <:+ burst ∧ Counted (burst' ++ [(b, Report.recordFailure now)])
      ⟨(b.state.recordFailure threshold window now).1, now, now :: b.recent⟩ := by
  have own : failures [(b, Report.recordFailure now)] = [now] := rfl
  rw [State.recordFailure_state]
  by_cases expires : b.state.Expires window now
  · refine ⟨[], List.nil_suffix, ?_, List.forall_mem_singleton.2 id, ?_, ?_⟩
    · simp [State.countAt, expires, own]
    · simp [State.firstAt, expires, own]
    · simp [own]
  · refine ⟨burst, List.suffix_refl burst, ?_, ?_, ?_, ?_⟩
    · simp [failures_snoc, own, State.countAt, expires, counted.count]
    · exact List.forall_mem_append.2 ⟨counted.uncleared, List.forall_mem_singleton.2 id⟩
    · rw [failures_snoc, own]
      by_cases none : b.state.consecutiveFailures = 0
      · have empty : failures burst = [] := List.length_eq_zero_iff.1 (counted.count.trans none)
        simp [empty, State.firstAt, none]
      · simp only [State.firstAt, expires, none, or_self, if_false]
        exact List.forall_mem_append.2
          ⟨counted.first, List.forall_mem_singleton.2 (counted.first_le later none)⟩
    · rw [failures_snoc, own]
      exact List.forall_mem_append.2 ⟨fun t member => (counted.past t member).trans later,
        List.forall_mem_singleton.2 (le_refl now)⟩

theorem counted_exec {start : Time} {trace : List (Breaker × Report)}
    (exec : Exec (step threshold window) (init start) trace b) :
    ∃ burst, burst <:+ trace ∧ Counted burst b := by
  induction exec with
  | nil => exact ⟨[], List.nil_suffix, counted_nil rfl⟩
  | @snoc trace b r b' before taken ih =>
      obtain ⟨burst, ⟨older, rfl⟩, counted⟩ := ih
      cases r with
      | recordFailure now =>
          obtain ⟨later, ⟨⟩⟩ := Option.ite_none_right_eq_some.1 taken
          obtain ⟨kept, ⟨dropped, rfl⟩, counted⟩ := counted.recordFailure later
          exact ⟨_, ⟨older ++ dropped, by simp⟩, counted⟩
      | recordSuccess =>
          cases taken
          refine ⟨[], List.nil_suffix, counted_nil ?_⟩
          simp only [State.recordSuccess]
          split
          · rfl
          · omega
      | markHealthy =>
          cases taken
          cases healthy : b.state.healthy with
          | true =>
              have unmoved : b.state.markHealthy = (b.state, false) := by
                simp [State.markHealthy, healthy]
              simp only [unmoved]
              refine ⟨burst ++ [(b, .markHealthy)], ⟨older, by simp⟩, counted.quiet _ rfl ?_⟩
              simp [Clears, unmoved]
          | false =>
              refine ⟨[], List.nil_suffix, counted_nil ?_⟩
              simp [State.markHealthy, healthy]

theorem below_exec {start : Time} {trace : List (Breaker × Report)} (positive : 1 ≤ threshold)
    (exec : Exec (step threshold window) (init start) trace b) (up : b.state.healthy = true) :
    b.state.consecutiveFailures < threshold := by
  revert up
  refine exec.stable (P := fun b => b.state.healthy = true → b.state.consecutiveFailures < threshold)
    (fun _ => positive) fun b r b' below taken => ?_
  cases r with
  | recordFailure now =>
      obtain ⟨_, ⟨⟩⟩ := Option.ite_none_right_eq_some.1 taken
      rw [State.recordFailure_state]
      intro up
      exact Int.ofNat_lt.1 (of_decide_eq_true (Bool.and_eq_true_iff.1 up).2)
  | recordSuccess =>
      cases taken
      simp only [State.recordSuccess]
      split
      · exact fun _ => positive
      · exact below
  | markHealthy =>
      cases taken
      simp only [State.markHealthy]
      split
      · exact below
      · exact fun _ => positive

theorem recovery_of_up {trace : List (Breaker × Report)}
    (exec : Exec (step threshold window) b trace b') (down : b.state.healthy = false)
    (up : b'.state.healthy = true) : ∃ entry ∈ trace, entry.2 = .markHealthy ∧ entry.1.Clears entry.2 := by
  induction exec with
  | nil =>
      rw [down] at up
      cases up
  | @snoc trace c r c' before taken ih =>
      have earlier (up : c.state.healthy = true) :
          ∃ entry ∈ trace ++ [(c, r)], entry.2 = .markHealthy ∧ entry.1.Clears entry.2 := by
        obtain ⟨entry, member, recovers⟩ := ih up
        exact ⟨entry, List.mem_append_left _ member, recovers⟩
      cases r with
      | recordFailure now =>
          obtain ⟨_, ⟨⟩⟩ := Option.ite_none_right_eq_some.1 taken
          rw [State.recordFailure_state] at up
          exact earlier (Bool.and_eq_true_iff.1 up).1
      | recordSuccess =>
          cases taken
          simp only [State.recordSuccess] at up
          split at up
          · exact earlier up
          · exact earlier up
      | markHealthy =>
          cases healthy : c.state.healthy with
          | true => exact earlier healthy
          | false =>
              refine ⟨(c, .markHealthy), by simp, rfl, ?_⟩
              simp [Clears, State.markHealthy, healthy]

end Counted

def Trips (threshold : Nat) (window : Duration) (b : Breaker) : Report → Prop
  | .recordFailure now => (b.state.recordFailure threshold window now).2.2 = true
  | _ => False

theorem recovery_between {threshold : Nat} {window : Duration} {start : Time}
    {earlier between later : List (Breaker × Report)} {b₁ b₂ b : Breaker} {r₁ r₂ : Report}
    (exec : Exec (step threshold window) (init start)
      (earlier ++ (b₁, r₁) :: (between ++ (b₂, r₂) :: later)) b)
    (first : b₁.Trips threshold window r₁) (second : b₂.Trips threshold window r₂) :
    ∃ entry ∈ between, entry.2 = .markHealthy ∧ entry.1.Clears entry.2 := by
  obtain ⟨_, opened, taken, rest⟩ := exec.split
  obtain ⟨until_, _⟩ := rest.split
  cases r₁ with
  | recordSuccess => cases first
  | markHealthy => cases first
  | recordFailure now₁ =>
      cases r₂ with
      | recordSuccess => cases second
      | markHealthy => cases second
      | recordFailure now₂ =>
          obtain ⟨_, ⟨⟩⟩ := Option.ite_none_right_eq_some.1 taken
          simp only [Trips, State.recordFailure_reports, Bool.and_eq_true_iff] at first second
          refine recovery_of_up until_ ?_ second.1
          have reached : ¬(b₁.state.countAt window now₁ : Int) < threshold :=
            not_lt.2 (of_decide_eq_true first.2)
          simp only [State.recordFailure_state, reached, decide_false, Bool.and_false]

/-- The breaker opens only on a full window of failures, and only after it was closed. -/
theorem never_trips_falsely (threshold : Nat) (window : Duration) (positive : 1 ≤ threshold)
    (wide : 0 < window) (start : Time) (trace : List (Breaker × Report)) (b : Breaker)
    (exec : Exec (step threshold window) (init start) trace b) :
    (b.state.healthy = true → b.state.consecutiveFailures < threshold) ∧
    (∀ now, b.clock ≤ now → b.Trips threshold window (.recordFailure now) →
      (b.state.recordFailure threshold window now).2.1 = threshold ∧
      ∃ burst, burst <:+ trace ++ [(b, Report.recordFailure now)] ∧
        (failures burst).length = threshold ∧ (∀ entry ∈ burst, ¬entry.1.Clears entry.2) ∧
        ∀ t ∈ failures burst, now - window ≤ t ∧ t ≤ now) ∧
    ∀ earlier between later b₁ r₁ b₂ r₂,
      trace = earlier ++ (b₁, r₁) :: (between ++ (b₂, r₂) :: later) →
      b₁.Trips threshold window r₁ → b₂.Trips threshold window r₂ →
      ∃ entry ∈ between, entry.2 = .markHealthy ∧ entry.1.Clears entry.2 := by
  refine ⟨below_exec positive exec, fun now later trips => ?_, ?_⟩
  · simp only [Trips, State.recordFailure_reports, Bool.and_eq_true_iff] at trips
    have below := below_exec positive exec trips.1
    have reached : threshold ≤ b.state.countAt window now :=
      Int.ofNat_le.1 (of_decide_eq_true trips.2)
    have exact : b.state.countAt window now = threshold := by
      refine le_antisymm ?_ reached
      simp only [State.countAt]
      split <;> omega
    have next : Exec (step threshold window) (init start) (trace ++ [(b, Report.recordFailure now)])
        ⟨(b.state.recordFailure threshold window now).1, now, now :: b.recent⟩ :=
      exec.snoc (if_pos later)
    obtain ⟨burst, suffix, counted⟩ := counted_exec next
    have count := counted.count
    have first := counted.first
    rw [State.recordFailure_state] at count first
    refine ⟨by rw [State.recordFailure_reports]; exact exact, burst, suffix, count.trans exact,
      counted.uncleared, fun t member => ⟨?_, counted.past t member⟩⟩
    refine le_trans ?_ (first t member)
    simp only [State.firstAt]
    split
    · exact Int.sub_le_self now wide.le
    · rename_i kept
      have inside : ¬now - b.state.firstFailureTS > window := fun gone =>
        (not_or.1 kept).1 ⟨Nat.pos_of_ne_zero (not_or.1 kept).2, gone⟩
      exact sub_le_comm.1 (not_lt.1 inside)
  · rintro earlier between later b₁ r₁ b₂ r₂ rfl first second
    exact recovery_between exec first second

instance (threshold : Nat) (window : Duration) (b : Breaker) (r : Report) :
    Decidable (b.Trips threshold window r) :=
  match r with
  | .recordFailure _ => inferInstanceAs (Decidable (_ = true))
  | .recordSuccess | .markHealthy => inferInstanceAs (Decidable False)

/-- Two failures within the window trip a breaker with threshold 2, and once more after it has
recovered. -/
theorem never_trips_falsely_twice :
    ∃ earlier between b₁ b₂ b, Exec (step 2 10) (init 0)
        (earlier ++ (b₁, Report.recordFailure 4) :: (between ++ [(b₂, Report.recordFailure 30)])) b ∧
      b₁.Trips 2 10 (.recordFailure 4) ∧ b₂.Trips 2 10 (.recordFailure 30) ∧
      ∃ entry ∈ between, entry.2 = .markHealthy ∧ entry.1.Clears entry.2 := by
  obtain ⟨trace, b, exec, actions, tested⟩ := exec_of_play (step 2 10) (init 0)
    [.recordFailure 0, .recordFailure 4, .markHealthy, .recordFailure 29, .recordFailure 30]
    (fun past _ => decide ((past.map fun entry => decide (entry.1.Trips 2 10 entry.2)) =
      [false, true, false, false, true])) (by decide +kernel)
  have trips := of_decide_eq_true tested
  obtain ⟨⟨b₀, _⟩, _, rfl, rfl, rest1⟩ := List.map_eq_cons_iff.1 actions
  obtain ⟨⟨b₁, _⟩, _, rfl, rfl, rest2⟩ := List.map_eq_cons_iff.1 rest1
  obtain ⟨⟨b₂, _⟩, _, rfl, rfl, rest3⟩ := List.map_eq_cons_iff.1 rest2
  obtain ⟨⟨b₃, _⟩, _, rfl, rfl, rest4⟩ := List.map_eq_cons_iff.1 rest3
  obtain ⟨⟨b₄, _⟩, _, rfl, rfl, rest5⟩ := List.map_eq_cons_iff.1 rest4
  cases List.map_eq_nil_iff.1 rest5
  simp only [List.map_cons, List.map_nil, List.cons.injEq, decide_eq_true_eq, and_true] at trips
  obtain ⟨_, first, _, _, second⟩ := trips
  obtain ⟨_, _, between⟩ := never_trips_falsely 2 10 (by decide) (by decide) 0 _ b exec
  exact ⟨[(b₀, _)], [(b₂, _), (b₃, _)], b₁, b₄, b, exec, first, second,
    between [(b₀, _)] [(b₂, _), (b₃, _)] [] _ _ _ _ rfl first second⟩

end Breaker

end S5lb
