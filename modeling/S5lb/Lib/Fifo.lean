import Mathlib.Data.List.Nodup

/-! A queue whose members leave at the front when they are served, and anywhere when they give up. -/

namespace Fifo

variable {α : Type*} [DecidableEq α]

inductive Event (α : Type*)
  | joined (a : α)
  | served (a : α)
  | left (a : α)
  deriving DecidableEq

inductive Run : List (Event α) → List α → Prop
  | nil : Run [] []
  | join {events : List (Event α)} {queue : List α} {a : α} (run : Run events queue)
      (new : .joined a ∉ events) : Run (events ++ [.joined a]) (queue ++ [a])
  | serve {events : List (Event α)} {queue : List α} {a : α} (run : Run events (a :: queue)) :
      Run (events ++ [.served a]) queue
  | leave {events : List (Event α)} {queue : List α} {a : α} (run : Run events queue)
      (known : .joined a ∈ events) (still : .left a ∉ events) :
      Run (events ++ [.left a]) (queue.erase a)

structure Consistent (events : List (Event α)) (queue : List α) : Prop where
  once : events.Nodup
  order : (queue.map .joined).Sublist events
  waiting : ∀ a ∈ queue, .served a ∉ events ∧ .left a ∉ events
  accounted : ∀ a, .joined a ∈ events → a ∈ queue ∨ .served a ∈ events ∨ .left a ∈ events
  known : ∀ a, .served a ∈ events ∨ .left a ∈ events → .joined a ∈ events

omit [DecidableEq α] in
theorem Consistent.distinct {events : List (Event α)} {queue : List α}
    (consistent : Consistent events queue) : queue.Nodup :=
  (consistent.once.sublist consistent.order).of_map _

omit [DecidableEq α] in
theorem Consistent.joined {events : List (Event α)} {queue : List α}
    (consistent : Consistent events queue) {a : α} (queued : a ∈ queue) : .joined a ∈ events :=
  consistent.order.subset (List.mem_map_of_mem queued)

theorem Run.consistent {events : List (Event α)} {queue : List α} (run : Run events queue) :
    Consistent events queue := by
  induction run with
  | nil => exact ⟨List.nodup_nil, .slnil, by simp, by simp, by simp⟩
  | @join events queue a run new ih =>
      refine ⟨?_, ?_, ?_, ?_, ?_⟩
      · rw [← List.concat_eq_append]
        exact ih.once.concat new
      · rw [List.map_append]
        exact ih.order.append (List.Sublist.refl _)
      · intro b queued
        rcases List.mem_append.1 queued with queued | queued
        · simpa using ih.waiting b queued
        · cases List.mem_singleton.1 queued
          simpa using ⟨fun gone => new (ih.known a (.inl gone)), fun gone => new (ih.known a (.inr gone))⟩
      · intro b present
        rcases List.mem_append.1 present with present | present
        · rcases ih.accounted b present with queued | gone
          · exact .inl (List.mem_append_left _ queued)
          · exact .inr (by simpa using gone)
        · simp_all
      · intro b gone
        exact List.mem_append_left _ (ih.known b (by simpa using gone))
  | @serve events queue a run ih =>
      obtain ⟨unserved, stays⟩ := ih.waiting a (List.mem_cons_self ..)
      have apart := List.nodup_cons.1 ih.distinct
      refine ⟨?_, ?_, ?_, ?_, ?_⟩
      · rw [← List.concat_eq_append]
        exact ih.once.concat unserved
      · exact ((List.sublist_cons_self _ _).trans ih.order).trans (List.sublist_append_left _ _)
      · intro b queued
        have other : b ≠ a := fun same => apart.1 (same ▸ queued)
        simpa [other] using ih.waiting b (List.mem_cons_of_mem _ queued)
      · intro b present
        rcases ih.accounted b (by simpa using present) with queued | gone
        · rcases List.mem_cons.1 queued with rfl | queued
          · simp
          · exact .inl queued
        · rcases gone with gone | gone <;> simp [gone]
      · intro b gone
        by_cases same : b = a
        · subst same
          exact List.mem_append_left _ (ih.joined (List.mem_cons_self ..))
        · exact List.mem_append_left _ (ih.known b (by simpa [same] using gone))
  | @leave events queue a run known still ih =>
      refine ⟨?_, ?_, ?_, ?_, ?_⟩
      · rw [← List.concat_eq_append]
        exact ih.once.concat still
      · exact ((List.erase_sublist.map _).trans ih.order).trans (List.sublist_append_left _ _)
      · intro b queued
        have other : b ≠ a := fun same => ih.distinct.not_mem_erase (same ▸ queued)
        simpa [other] using ih.waiting b (List.mem_of_mem_erase queued)
      · intro b present
        by_cases same : b = a
        · simp [same]
        · rcases ih.accounted b (by simpa using present) with queued | gone
          · exact .inl ((List.mem_erase_of_ne same).2 queued)
          · rcases gone with gone | gone <;> simp [gone]
      · intro b gone
        by_cases same : b = a
        · subst same
          exact List.mem_append_left _ known
        · exact List.mem_append_left _ (ih.known b (by simpa [same] using gone))

theorem not_sublist_swap {β : Type*} {l : List β} {a b : β} (once : l.Nodup) (one : [a, b].Sublist l) :
    ¬[b, a].Sublist l := by
  induction l with
  | nil => cases one
  | cons x l ih =>
      obtain ⟨fresh, once⟩ := List.nodup_cons.1 once
      intro other
      cases one with
      | cons _ one =>
          cases other with
          | cons _ other => exact ih once one other
          | cons_cons _ other => exact fresh (one.subset (by simp))
      | cons_cons _ one =>
          cases other with
          | cons _ other => exact fresh (other.subset (by simp))
          | cons_cons _ other => exact fresh (one.subset (by simp))

def Served (events : List (Event α)) : Prop :=
  ∀ past later a, events = past ++ .served a :: later → .joined a ∈ past ∧ .left a ∉ past ∧
    ∀ b, [.joined b, .joined a].Sublist past → .served b ∈ past ∨ .left b ∈ past

theorem Run.earlier {events : List (Event α)} {queue : List α} {a b : α}
    (run : Run events (a :: queue)) (before : [.joined b, .joined a].Sublist events) :
    .served b ∈ events ∨ .left b ∈ events := by
  have consistent := run.consistent
  rcases consistent.accounted b (before.subset (by simp)) with queued | gone
  · rcases List.mem_cons.1 queued with rfl | behind
    · have twice := consistent.once.sublist before
      simp at twice
    · have after : [Event.joined a, .joined b].Sublist events :=
        .trans (.cons_cons _ (List.singleton_sublist.2 (List.mem_map_of_mem behind))) consistent.order
      exact absurd before (not_sublist_swap consistent.once after)
  · exact gone

theorem Run.served {events : List (Event α)} {queue : List α} (run : Run events queue) :
    Served events := by
  have last {events : List (Event α)} {e : Event α} (ih : Served events)
      (new : ∀ a, e = .served a → .joined a ∈ events ∧ .left a ∉ events ∧
        ∀ b, [.joined b, .joined a].Sublist events → .served b ∈ events ∨ .left b ∈ events) :
      Served (events ++ [e]) := by
    intro past later a same
    rcases List.eq_nil_or_concat later with rfl | ⟨later, x, rfl⟩
    · obtain ⟨equal, final⟩ := List.append_inj' same rfl
      subst equal
      exact new a (List.singleton_inj.1 final)
    · rw [List.concat_eq_append, ← List.cons_append, ← List.append_assoc] at same
      exact ih past later a (List.append_inj' same rfl).1
  induction run with
  | nil =>
      intro past later a same
      simp at same
  | join run new ih => exact last ih fun a same => by cases same
  | serve run ih =>
      refine last ih fun a same => ?_
      cases same
      have consistent := run.consistent
      exact ⟨consistent.joined (by simp), (consistent.waiting _ (by simp)).2, fun b => run.earlier⟩
  | leave run known still ih => exact last ih fun a same => by cases same

theorem pair_of_append {β : Type*} {past later : List β} {a b c : β} (once : (past ++ c :: later).Nodup)
    (member : b ∈ past) (pair : [a, b].Sublist (past ++ c :: later)) : [a, b].Sublist past := by
  obtain ⟨one, two, split, first, second⟩ := List.sublist_append_iff.1 pair
  rcases List.eq_nil_or_concat two with rfl | ⟨init, x, rfl⟩
  · rw [split, List.append_nil]
    exact first
  · rw [List.concat_eq_append, ← List.append_assoc] at split
    have ends : [a] ++ [b] = one ++ init ++ [x] := split
    have final : b = x := List.singleton_inj.1 (List.append_inj' ends rfl).2
    have twice : b ∈ c :: later := second.subset (by simp [final])
    exact absurd rfl ((List.nodup_append.1 once).2.2 b member b twice)

theorem Run.in_order {events : List (Event α)} {queue : List α} (run : Run events queue) {a b : α}
    (before : [.joined a, .joined b].Sublist events) (servedA : .served a ∈ events)
    (servedB : .served b ∈ events) : [.served a, .served b].Sublist events := by
  have once := run.consistent.once
  have served := run.served
  obtain ⟨past, later, rfl⟩ := List.append_of_mem servedB
  obtain ⟨joined, -, earlier⟩ := served past later b rfl
  have ended : Event.served a ∈ past := by
    rcases List.mem_append.1 servedA with early | late
    · exact early
    · rcases List.mem_cons.1 late with same | late
      · cases same
        have twice := once.sublist before
        simp at twice
      · rcases earlier a (pair_of_append once joined before) with early | gone
        · exact early
        · obtain ⟨middle, rest, rfl⟩ := List.append_of_mem late
          have stays := (served (past ++ .served b :: middle) rest a (by simp)).2.1
          exact absurd (List.mem_append_left _ gone) stays
  exact (List.singleton_sublist.2 ended).append (List.singleton_sublist.2 (by simp))

end Fifo
