import Mathlib.Data.List.Nodup

/-! Two writers on three cells, with a lock for each cell and none for all of them. A writer reads the
second cell, later writes the first and then the second, and goes on to the third only if what it read
and what it writes differ in what the third one depends on. -/

namespace Writers

variable {π κ γ σ : Type}

structure Cells (π κ γ : Type) where
  first : π
  second : κ
  third : γ

structure Plan (π κ γ : Type) where
  first : π → π
  second : κ
  third : γ

inductive Pc (σ : Type)
  | idle
  | read (old : σ)
  | ready (needs : Bool)
  | published (needs : Bool)
  | committed
  | done
  | failed

namespace Pc

def pending : Pc σ → Bool
  | .published needs => needs
  | .committed => true
  | _ => false

def uncommitted : Pc σ → Bool
  | .published _ => true
  | _ => false

def hasPublished : Pc σ → Bool
  | .published _ | .committed | .done => true
  | _ => false

def hasCommitted : Pc σ → Bool
  | .committed | .done => true
  | _ => false

theorem hasCommitted_of_early {pc : Pc σ} (early : pc.hasPublished = false) : pc.hasCommitted = false := by
  cases pc <;> first | rfl | cases early

theorem pending_of_early {pc : Pc σ} (early : pc.hasPublished = false) : pc.pending = false := by
  cases pc <;> first | rfl | cases early

theorem done_of_idle {pc : Pc σ} (committed : pc.hasCommitted = true) (idle : pc.pending = false) :
    pc = .done := by
  cases pc with
  | done => rfl
  | committed => cases idle
  | idle | read | ready | published | failed => cases committed

theorem uncommitted_of_committed {pc : Pc σ} (committed : pc.hasCommitted = true) :
    pc.uncommitted = false := by
  cases pc <;> first | rfl | cases committed

end Pc

structure State (σ : Type) where
  pc : Bool → Pc σ
  published : List Bool
  committed : List Bool
  stored : List Bool

namespace State

def set (s : State σ) (i : Bool) (pc : Pc σ) : State σ := { s with pc := Function.update s.pc i pc }

@[simp] theorem pc_set_self (s : State σ) (i : Bool) (pc : Pc σ) : (s.set i pc).pc i = pc := by
  simp [set]

@[simp] theorem pc_set_other (s : State σ) (i : Bool) (pc : Pc σ) :
    (s.set i pc).pc (!i) = s.pc (!i) := by
  simp [set]

@[simp] theorem published_set (s : State σ) (i : Bool) (pc : Pc σ) :
    (s.set i pc).published = s.published := rfl

@[simp] theorem committed_set (s : State σ) (i : Bool) (pc : Pc σ) :
    (s.set i pc).committed = s.committed := rfl

@[simp] theorem stored_set (s : State σ) (i : Bool) (pc : Pc σ) : (s.set i pc).stored = s.stored := rfl

def needs (s : State σ) (i : Bool) : Option Bool :=
  match s.pc i with
  | .ready needs | .published needs => some needs
  | .committed => some true
  | .done => some (decide (i ∈ s.stored))
  | _ => none

end State

def land [DecidableEq σ] (sig : κ → σ) (cells : Cells π κ γ) (p : Plan π κ γ) : Cells π κ γ where
  first := p.first cells.first
  second := p.second
  third := if sig cells.second = sig p.second then cells.third else p.third

section

variable (sig : κ → σ) (start : Cells π κ γ) (plan : Bool → Plan π κ γ)

def cells (s : State σ) : Cells π κ γ where
  first := s.published.foldl (fun first i => (plan i).first first) start.first
  second := (s.committed.getLast?.map fun i => (plan i).second).getD start.second
  third := (s.stored.getLast?.map fun i => (plan i).third).getD start.third

inductive Step (s : State σ) (i : Bool) : State σ → Prop
  | read (here : s.pc i = .idle) : Step s i (s.set i (.read (sig (cells start plan s).second)))
  | choose {old : σ} {needs : Bool} (here : s.pc i = .read old)
      (differs : needs = true ↔ old ≠ sig (plan i).second) : Step s i (s.set i (.ready needs))
  | publish {needs : Bool} (here : s.pc i = .ready needs) :
      Step s i { s.set i (.published needs) with published := s.published ++ [i] }
  | commit {needs : Bool} (here : s.pc i = .published needs) :
      Step s i { s.set i (if needs then .committed else .done) with committed := s.committed ++ [i] }
  | store (here : s.pc i = .committed) : Step s i { s.set i .done with stored := s.stored ++ [i] }
  | fail : Step s i (s.set i .failed)

/-- A writer writes the second cell while the first is its own or the other has still to follow, and
leaves the third cell as it is only if that fits; it writes the third cell only if that fits or the
other has still to follow. -/
def Agrees (s : State σ) (i : Bool) : Prop :=
  match s.pc i with
  | .published needs =>
      (s.published.getLast? = some i ∨ (s.pc (!i)).uncommitted = true) ∧
        (needs = false → s.stored.getLast? = some (!i) → (plan (!i)).third = (plan i).third)
  | .committed =>
      (∃ last, s.committed.getLast? = some last ∧ (plan i).third = (plan last).third) ∨
        (s.pc (!i)).pending = true
  | _ => True

def Source (committed : List Bool) (i : Bool) (old : σ) : Prop :=
  old = sig start.second ∨ (!i) ∈ committed ∧ old = sig (plan (!i)).second

structure Decided (committed : List Bool) (i needs : Bool) : Prop where
  needed : needs = true → sig (plan i).second ≠ sig start.second ∨
    sig (plan i).second ≠ sig (plan (!i)).second
  unneeded : needs = false → sig (plan i).second = sig start.second ∨
    (!i) ∈ committed ∧ (i ∈ committed → committed = [!i, i]) ∧
      sig (plan i).second = sig (plan (!i)).second

structure Own (s : State σ) (i : Bool) : Prop where
  published : i ∈ s.published ↔ (s.pc i).hasPublished = true
  committed : i ∈ s.committed ↔ (s.pc i).hasCommitted = true
  stored : i ∈ s.stored → s.pc i = .done
  source : ∀ old, s.pc i = .read old → Source sig start plan s.committed i old
  decided : ∀ needs, s.needs i = some needs → Decided sig start plan s.committed i needs

def Fits (s : State σ) : Prop :=
  match s.stored.getLast? with
  | none => sig (cells start plan s).second = sig start.second
  | some k => ∃ last, s.committed.getLast? = some last ∧ (plan k).third = (plan last).third

structure Core (s : State σ) : Prop where
  own : ∀ i, Own sig start plan s i
  publishedOnce : s.published.Nodup
  committedOnce : s.committed.Nodup
  ordered : (∀ i, i ∈ s.committed) → s.published.getLast? = s.committed.getLast?
  fits : (∀ i, (s.pc i).pending = false) → Fits sig start plan s

end

variable {sig : κ → σ} {start : Cells π κ γ} {plan : Bool → Plan π κ γ} {s s' : State σ} {i : Bool}

theorem eq_not_of_ne {i j : Bool} (ne : j ≠ i) : j = !i := by
  cases i <;> cases j <;> first | rfl | exact absurd rfl ne

theorem forall_bool {P : Bool → Prop} (i : Bool) (left : P i) (right : P (!i)) : ∀ j, P j := by
  intro j
  by_cases same : j = i
  · exact same ▸ left
  · exact eq_not_of_ne same ▸ right

theorem singleton_of_nodup {l : List Bool} {i : Bool} (once : l.Nodup) (absent : i ∉ l)
    (member : (!i) ∈ l) : l = [!i] := by
  refine List.perm_singleton.1 ((List.perm_ext_iff_of_nodup once (by simp)).2 (forall_bool i ?_ ?_))
  · simp [absent]
  · simp [member]

theorem pair_of_nodup {l : List Bool} {i : Bool} (once : l.Nodup) (all : ∀ i, i ∈ l)
    (last : l.getLast? = some i) : l = [!i, i] := by
  obtain ⟨front, rfl⟩ := List.getLast?_eq_some_iff.1 last
  rw [List.nodup_append] at once
  have absent : i ∉ front := fun member => once.2.2 i member i (by simp) rfl
  have member : (!i) ∈ front := by simpa using all (!i)
  rw [singleton_of_nodup once.1 absent member]
  rfl

theorem Own.other {j : Bool} (own : Own sig start plan s j) (pc : s'.pc j = s.pc j)
    (published : j ∈ s'.published ↔ j ∈ s.published) (stored : j ∈ s'.stored ↔ j ∈ s.stored)
    (committed : s'.committed = s.committed ∨
      (!j) ∉ s.committed ∧ s'.committed = s.committed ++ [!j]) : Own sig start plan s' j := by
  have needs : s'.needs j = s.needs j := by simp only [State.needs, pc, stored]
  have same : j ∈ s'.committed ↔ j ∈ s.committed := by
    rcases committed with committed | ⟨-, committed⟩
    · rw [committed]
    · simp [committed]
  refine ⟨by rw [published, pc, own.published], by rw [same, pc, own.committed],
    fun member => pc.trans (own.stored (stored.1 member)), fun old here => ?_, fun n here => ?_⟩
  · refine (own.source old (pc ▸ here)).imp_right fun ⟨member, read⟩ => ⟨?_, read⟩
    rcases committed with committed | ⟨-, committed⟩
    · rwa [committed]
    · simp [committed]
  · obtain ⟨needed, unneeded⟩ := own.decided n (needs ▸ here)
    refine ⟨needed, fun no => (unneeded no).imp_right fun late => ?_⟩
    rcases committed with committed | ⟨absent, -⟩
    · rwa [committed]
    · exact absurd late.1 absent

theorem nodup_snoc {l : List Bool} (once : l.Nodup) (absent : i ∉ l) : (l ++ [i]).Nodup := by
  refine List.nodup_append.2 ⟨once, by simp, fun a member b last same => ?_⟩
  rw [same, List.mem_singleton.1 last] at member
  exact absent member

theorem Core.early (core : Core sig start plan s) {pc : Pc σ} (before : (s.pc i).hasPublished = false)
    (after : pc.hasPublished = false)
    (source : ∀ old, pc = .read old → Source sig start plan s.committed i old)
    (decided : ∀ needs, pc = .ready needs → Decided sig start plan s.committed i needs) :
    Core sig start plan (s.set i pc) := by
  have own := core.own i
  refine ⟨forall_bool i ?_ ?_, core.publishedOnce, core.committedOnce, core.ordered, fun none =>
    core.fits (forall_bool i (Pc.pending_of_early before) ?_)⟩
  · refine ⟨?_, ?_, fun member => ?_, fun old here => ?_, fun needs here => ?_⟩
    · rw [State.pc_set_self, after, ← before]
      exact own.published
    · rw [State.pc_set_self, Pc.hasCommitted_of_early after, ← Pc.hasCommitted_of_early before]
      exact own.committed
    · rw [own.stored member] at before
      cases before
    · rw [State.pc_set_self] at here
      exact source old here
    · simp only [State.needs, State.pc_set_self] at here
      cases pc with
      | ready =>
          cases here
          exact decided _ rfl
      | idle | read | failed => cases here
      | published | committed | done => cases after
  · exact (core.own (!i)).other (State.pc_set_other s i pc) Iff.rfl Iff.rfl (.inl rfl)
  · rw [← State.pc_set_other s i pc]
    exact none (!i)

theorem Core.read (core : Core sig start plan s) (here : s.pc i = .idle) :
    Core sig start plan (s.set i (.read (sig (cells start plan s).second))) := by
  refine core.early (by rw [here]; rfl) rfl (fun old same => ?_) nofun
  cases same
  simp only [Source, cells]
  cases last : s.committed.getLast? with
  | none => exact .inl rfl
  | some k =>
      have member := List.mem_of_getLast? last
      have other : k = !i := by
        refine eq_not_of_ne fun same => ?_
        have done := (core.own k).committed.1 member
        rw [same, here] at done
        cases done
      exact .inr ⟨other ▸ member, by rw [other]; rfl⟩

theorem Core.choose (core : Core sig start plan s) {old : σ} {needs : Bool} (here : s.pc i = .read old)
    (differs : needs = true ↔ old ≠ sig (plan i).second) :
    Core sig start plan (s.set i (.ready needs)) := by
  have own := core.own i
  have absent : i ∉ s.committed := by simp [own.committed, here, Pc.hasCommitted]
  refine core.early (by rw [here]; rfl) rfl nofun fun n same => ?_
  cases same
  refine ⟨fun yes => ?_, fun no => ?_⟩
  · rcases own.source old here with rfl | ⟨-, rfl⟩
    · exact .inl (differs.1 yes).symm
    · exact .inr (differs.1 yes).symm
  · have same : old = sig (plan i).second := by
      by_contra ne
      rw [differs.2 ne] at no
      cases no
    rcases own.source old here with first | ⟨member, second⟩
    · exact .inl (same.symm.trans first)
    · exact .inr ⟨member, fun inside => absurd inside absent, same.symm.trans second⟩

theorem Core.publish (core : Core sig start plan s) {needs : Bool} (here : s.pc i = .ready needs) :
    Core sig start plan { s.set i (.published needs) with published := s.published ++ [i] } := by
  have own := core.own i
  have unpublished : i ∉ s.published := by simp [own.published, here, Pc.hasPublished]
  have absent : i ∉ s.committed := by simp [own.committed, here, Pc.hasCommitted]
  have self := State.pc_set_self s i (.published needs)
  refine ⟨forall_bool i ?_ ?_, nodup_snoc core.publishedOnce unpublished, core.committedOnce,
    fun all => absurd (all i) absent, fun none => core.fits (forall_bool i ?_ ?_)⟩
  · refine ⟨by simp [Pc.hasPublished], by simpa [self, Pc.hasCommitted] using absent,
      fun member => ?_, fun old read => ?_, fun n same => ?_⟩
    · cases here.symm.trans (own.stored member)
    · cases self.symm.trans read
    · simp only [State.needs, self] at same
      exact own.decided n (by simpa only [State.needs, here] using same)
  · exact (core.own (!i)).other (State.pc_set_other s i _) (by simp) Iff.rfl (.inl rfl)
  · rw [here]
    rfl
  · rw [← State.pc_set_other s i (.published needs)]
    exact none (!i)

theorem Core.unstored (core : Core sig start plan s) (here : s.pc i = .published false)
    (idle : (s.pc (!i)).pending = false) (never : s.stored = []) :
    sig (plan i).second = sig start.second := by
  have absent : i ∉ s.committed := by simp [(core.own i).committed, here, Pc.hasCommitted]
  rcases ((core.own i).decided false (by simp [State.needs, here])).unneeded rfl with same | late
  · exact same
  · have other := core.own (!i)
    have done : s.pc (!i) = .done := Pc.done_of_idle (other.committed.1 late.1) idle
    rcases (other.decided false (by simp [State.needs, done, never])).unneeded rfl with same | early
    · exact late.2.2.trans same
    · rw [Bool.not_not] at early
      exact absurd early.1 absent

theorem Core.commit (core : Core sig start plan s) {needs : Bool} (here : s.pc i = .published needs)
    (agrees : Agrees plan s i) : Core sig start plan
      { s.set i (if needs then .committed else .done) with committed := s.committed ++ [i] } := by
  have own := core.own i
  have inside : i ∈ s.published := by simp [own.published, here, Pc.hasPublished]
  have absent : i ∉ s.committed := by simp [own.committed, here, Pc.hasCommitted]
  have unstored : i ∉ s.stored := fun member => by cases here.symm.trans (own.stored member)
  simp only [Agrees, here] at agrees
  obtain ⟨first, third⟩ := agrees
  have self := State.pc_set_self s i (if needs then .committed else .done)
  have place : (if needs then Pc.committed else Pc.done : Pc σ).hasPublished = true ∧
      (if needs then Pc.committed else Pc.done : Pc σ).hasCommitted = true := by
    cases needs <;> exact ⟨rfl, rfl⟩
  refine ⟨forall_bool i ?_ ?_, core.publishedOnce, nodup_snoc core.committedOnce absent, fun all => ?_,
    fun none => ?_⟩
  · refine ⟨by simp [place, inside], by simp [place], fun member => absurd member unstored,
      fun old read => ?_, fun n same => ?_⟩
    · rw [self.symm.trans read] at place
      cases place.1
    · have kept : n = needs := by
        simp only [State.needs, self] at same
        cases needs <;> simpa [unstored, eq_comm] using same
      subst kept
      obtain ⟨needed, unneeded⟩ := own.decided n (by simp [State.needs, here])
      refine ⟨needed, fun no => (unneeded no).imp_right fun late => ?_⟩
      obtain ⟨member, -, same⟩ := late
      refine ⟨List.mem_append_left _ member, fun _ => ?_, same⟩
      rw [singleton_of_nodup core.committedOnce absent member]
      rfl
  · refine (core.own (!i)).other (State.pc_set_other s i _) Iff.rfl Iff.rfl (.inr ?_)
    rw [Bool.not_not]
    exact ⟨absent, rfl⟩
  · have member : (!i) ∈ s.committed := by simpa using all (!i)
    have settled := Pc.uncommitted_of_committed ((core.own (!i)).committed.1 member)
    simp [first.resolve_right (by simp [settled])]
  · have unneeded : needs = false := by
      have idle := none i
      rw [self] at idle
      cases needs with
      | false => rfl
      | true => cases idle
    subst unneeded
    have idle : (s.pc (!i)).pending = false := by
      rw [← State.pc_set_other s i .done]
      exact none (!i)
    simp only [Fits, cells, State.stored_set, List.getLast?_concat]
    cases last : s.stored.getLast? with
    | none => exact core.unstored here idle (List.getLast?_eq_none_iff.1 last)
    | some k =>
        have other : k = !i := eq_not_of_ne fun same => unstored (same ▸ List.mem_of_getLast? last)
        subst other
        exact ⟨i, rfl, third rfl last⟩

theorem Core.store (core : Core sig start plan s) (here : s.pc i = .committed)
    (agrees : Agrees plan s i) :
    Core sig start plan { s.set i .done with stored := s.stored ++ [i] } := by
  have own := core.own i
  simp only [Agrees, here] at agrees
  have self := State.pc_set_self s i .done
  refine ⟨forall_bool i ?_ ?_, core.publishedOnce, core.committedOnce, core.ordered, fun none => ?_⟩
  · refine ⟨?_, ?_, fun _ => self, fun old read => ?_, fun n same => ?_⟩
    · simp [own.published, here, Pc.hasPublished]
    · simp [own.committed, here, Pc.hasCommitted]
    · cases self.symm.trans read
    · have needed : n = true := by simpa [State.needs, self, eq_comm] using same
      exact own.decided n (by simp [State.needs, here, needed])
  · exact (core.own (!i)).other (State.pc_set_other s i _) Iff.rfl (by simp) (.inl rfl)
  · rcases agrees with fits | waits
    · simpa only [Fits, State.committed_set, List.getLast?_concat] using fits
    · have idle : (s.pc (!i)).pending = false := by
        rw [← State.pc_set_other s i .done]
        exact none (!i)
      cases waits.symm.trans idle

def Sound (sig : κ → σ) (start : Cells π κ γ) (plan : Bool → Plan π κ γ) (s : State σ) : Prop :=
  (∀ i, s.pc i ≠ .failed) → Core sig start plan s

theorem sound_init (sig : κ → σ) (start : Cells π κ γ) (plan : Bool → Plan π κ γ) :
    Sound sig start plan ⟨fun _ => .idle, [], [], []⟩ := by
  refine fun _ => ⟨fun i => ⟨by simp [Pc.hasPublished], by simp [Pc.hasCommitted], by simp, nofun, ?_⟩,
    List.nodup_nil, List.nodup_nil, fun all => absurd (all true) (by simp), fun _ => rfl⟩
  intro needs here
  cases here

theorem Step.pc_other (step : Step sig start plan s i s') : s'.pc (!i) = s.pc (!i) := by
  cases step <;> exact State.pc_set_other s i _

theorem Sound.step (sound : Sound sig start plan s) (going : s.pc i ≠ .failed)
    (agrees : Core sig start plan s → Agrees plan s i) (step : Step sig start plan s i s') :
    Sound sig start plan s' := by
  intro unfailed
  have core : Core sig start plan s :=
    sound (forall_bool i going (step.pc_other ▸ unfailed (!i)))
  cases step with
  | read here => exact core.read here
  | choose here differs => exact core.choose here differs
  | publish here => exact core.publish here
  | commit here => exact core.commit here (agrees core)
  | store here => exact core.store here (agrees core)
  | fail => exact absurd (State.pc_set_self s i .failed) (unfailed i)

theorem Core.stored_first (core : Core sig start plan s) (done : ∀ i, s.pc i = .done)
    (order : s.committed = [!i, i]) (differs : sig (plan (!i)).second ≠ sig start.second) :
    (!i) ∈ s.stored := by
  by_contra never
  have decided := (core.own (!i)).decided false (by simp [State.needs, done, never])
  refine differs ((decided.unneeded rfl).resolve_right fun late => ?_)
  have reversed := late.2.1 (by simp [order])
  rw [order, Bool.not_not] at reversed
  cases i <;> cases reversed

section

variable [DecidableEq σ]

theorem Core.third_unstored (core : Core sig start plan s) (done : ∀ i, s.pc i = .done)
    (order : s.committed = [!i, i]) (never : s.stored = [])
    (same : sig (plan i).second = sig start.second) :
    (land sig (land sig start (plan (!i))) (plan i)).third = start.third := by
  have earlier : sig (plan (!i)).second = sig start.second := by
    by_contra differs
    have member := core.stored_first done order differs
    simp [never] at member
  simp [land, earlier, same]

theorem Core.third_stored (core : Core sig start plan s) (done : ∀ i, s.pc i = .done)
    (law : sig (plan true).second = sig (plan false).second → (plan true).third = (plan false).third)
    {k : Bool} (member : k ∈ s.stored) :
    (land sig (land sig start (plan (!i))) (plan i)).third = (plan i).third := by
  have needed := ((core.own k).decided true (by simp [State.needs, done, member])).needed rfl
  by_cases same : sig (plan (!i)).second = sig (plan i).second
  · have third : (plan (!i)).third = (plan i).third := by
      cases i with
      | false => exact law same
      | true => exact (law same.symm).symm
    have differs : sig start.second ≠ sig (plan (!i)).second := by
      intro start'
      rcases needed with first | second
      · by_cases here : k = i
        · exact first (here ▸ (start'.trans same).symm)
        · exact first (eq_not_of_ne here ▸ start'.symm)
      · by_cases here : k = i
        · exact second (here ▸ same.symm)
        · rw [eq_not_of_ne here, Bool.not_not] at second
          exact second same
    simp [land, same, third, same ▸ differs]
  · simp [land, same]

theorem Core.serial (core : Core sig start plan s) (done : ∀ i, s.pc i = .done)
    (law : sig (plan true).second = sig (plan false).second → (plan true).third = (plan false).third) :
    ∃ i, s.committed = [!i, i] ∧
      cells start plan s = land sig (land sig start (plan (!i))) (plan i) := by
  have committed : ∀ i, i ∈ s.committed := fun i => by
    simp [(core.own i).committed, done i, Pc.hasCommitted]
  have published : ∀ i, i ∈ s.published := fun i => by
    simp [(core.own i).published, done i, Pc.hasPublished]
  obtain ⟨i, last⟩ : ∃ i, s.committed.getLast? = some i := by
    refine Option.isSome_iff_exists.1 ?_
    simpa using List.ne_nil_of_mem (committed true)
  have order := pair_of_nodup core.committedOnce committed last
  have order' := pair_of_nodup core.publishedOnce published ((core.ordered committed).trans last)
  have fits := core.fits fun i => by rw [done i]; rfl
  refine ⟨i, order, ?_⟩
  have third : (cells start plan s).third = (land sig (land sig start (plan (!i))) (plan i)).third := by
    simp only [Fits, cells, last] at fits ⊢
    cases lastStored : s.stored.getLast? with
    | none =>
        rw [lastStored] at fits
        exact (core.third_unstored done order (List.getLast?_eq_none_iff.1 lastStored) fits).symm
    | some k =>
        rw [lastStored] at fits
        obtain ⟨l, same, agrees⟩ := fits
        cases same
        exact agrees.trans (core.third_stored done law (List.mem_of_getLast? lastStored)).symm
  simp only [cells, order, order'] at third ⊢
  rw [third]
  rfl

end

end Writers
