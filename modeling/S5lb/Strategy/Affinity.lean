import S5lb.Lib.Argmax
import S5lb.Strategy.Choice

/-! Which keys consistent hashing moves when upstreams come and go. -/

namespace S5lb.ConsistentHashSelector

def rank (key id : String) : Nat := (hrw key id).toNat

def heldHash (key : String) (held : Option String) : UInt64 := held.elim 0 (hrw key)

theorem scan_argmax (key : String) {maxPer : Int} {pool : List Snapshot} (named : ∀ u ∈ pool, u.id ≠ "")
    {held : Option String} (holds : held ≠ some "") :
    scan key maxPer pool (held.getD "") (heldHash key held) =
      (((eligible pool maxPer).map (·.id)).foldl (List.argAux fun b c => rank key c < rank key b) held).getD "" := by
  induction pool generalizing held with
  | nil => rfl
  | cons u rest ih =>
      obtain ⟨namedU, named⟩ := List.forall_mem_cons.1 named
      cases able : u.eligible maxPer with
      | false =>
          simp only [scan, able, Bool.not_false, if_true]
          rw [eligible_cons_of_not able]
          exact ih named holds
      | true =>
          have next : some u.id ≠ some "" := fun blank => namedU (Option.some.inj blank)
          simp only [scan, able, Bool.not_true, Bool.false_eq_true, if_false]
          rw [eligible_cons_of_eligible able, List.map_cons, List.foldl_cons]
          cases held with
          | none => exact ih named next
          | some id =>
              have someone : id ≠ "" := fun blank => holds (congrArg some blank)
              have order : hrw key u.id > hrw key id ↔ rank key id < rank key u.id := UInt64.lt_iff_toNat_lt
              simp only [Option.getD_some, someone, false_or, heldHash, Option.elim_some, List.argAux, order]
              by_cases better : rank key id < rank key u.id
              · rw [if_pos better, if_pos better]
                exact ih named next
              · rw [if_neg better, if_neg better]
                exact ih named holds

theorem pick_argmax (sc : SelectCtx) {pool : List Snapshot} (named : ∀ u ∈ pool, u.id ≠ "") (maxPer : Int) :
    pick sc pool maxPer = (((eligible pool maxPer).map (·.id)).argmax (rank sc.hashInput)).getD "" :=
  @scan_argmax sc.hashInput maxPer pool named none nofun

theorem pick_maximal {sc : SelectCtx} {pool : List Snapshot} {maxPer : Int}
    (named : ∀ s ∈ pool, s.id ≠ "") (nonempty : pick sc pool maxPer ≠ "") :
    ∀ t ∈ eligible pool maxPer, hrw sc.hashInput t.id ≤ hrw sc.hashInput (pick sc pool maxPer) := by
  intro t member
  rw [pick_argmax sc named] at nonempty ⊢
  cases best : ((eligible pool maxPer).map (·.id)).argmax (rank sc.hashInput) with
  | none =>
      rw [best] at nonempty
      exact absurd rfl nonempty
  | some id =>
      have most : rank sc.hashInput t.id ≤ rank sc.hashInput id :=
        List.le_of_mem_argmax (List.mem_map_of_mem member) best
      exact UInt64.le_iff_toNat_le.2 most

section Change

variable {sc : SelectCtx} {pool pool' : List Snapshot} {maxPer maxPer' : Int}
  (named : ∀ u ∈ pool, u.id ≠ "") (named' : ∀ u ∈ pool', u.id ≠ "") (distinct : (pool.map (·.id)).Nodup)

include named named' distinct in
theorem pick_of_sublist (part : ((eligible pool' maxPer').map (·.id)).Sublist ((eligible pool maxPer).map (·.id)))
    (still : pick sc pool maxPer ∈ (eligible pool' maxPer').map (·.id)) :
    pick sc pool' maxPer' = pick sc pool maxPer := by
  have once : ((eligible pool maxPer).map (·.id)).Nodup := distinct.sublist (List.filter_sublist.map _)
  rw [pick_argmax sc named] at still ⊢
  rw [pick_argmax sc named']
  cases best : ((eligible pool maxPer).map (·.id)).argmax (rank sc.hashInput) with
  | none =>
      rw [List.argmax_eq_none] at best
      rw [best, List.sublist_nil] at part
      rw [part]
      rfl
  | some id =>
      rw [best, Option.getD_some] at still
      rw [List.argmax_of_sublist once part still best]

include named named' distinct in
theorem pick_of_drop {u : String} {before after : List String}
    (all : (eligible pool maxPer).map (·.id) = before ++ u :: after)
    (others : (eligible pool' maxPer').map (·.id) = before ++ after) :
    pick sc pool maxPer = u ∨ pick sc pool' maxPer' = pick sc pool maxPer := by
  have part : ((eligible pool' maxPer').map (·.id)).Sublist ((eligible pool maxPer).map (·.id)) := by
    rw [all, others]
    exact (List.Sublist.refl before).append (List.sublist_cons_self u after)
  cases best : ((eligible pool maxPer).map (·.id)).argmax (rank sc.hashInput) with
  | none =>
      rw [List.argmax_eq_none, all] at best
      simp at best
  | some id =>
      have chosen : pick sc pool maxPer = id := by rw [pick_argmax sc named, best, Option.getD_some]
      have listed := List.argmax_mem best
      rw [all] at listed
      rcases List.mem_append.1 listed with early | late
      · exact .inr (pick_of_sublist named named' distinct part (by rw [chosen, others]; simp [early]))
      · rcases List.mem_cons.1 late with rfl | late
        · exact .inl chosen
        · exact .inr (pick_of_sublist named named' distinct part (by rw [chosen, others]; simp [late]))

end Change

theorem rank_nodup {key : String} {us : List Snapshot} (distinct : (us.map fun u => hrw key u.id).Nodup) :
    ((us.map (·.id)).map (rank key)).Nodup := by
  have values : (us.map (·.id)).map (rank key) = (us.map fun u => hrw key u.id).map UInt64.toNat := by
    simp [rank, Function.comp_def]
  rw [values]
  exact distinct.map fun x y => UInt64.toNat_inj.1

/-- Consistent hashing moves only the keys it must: a choice that is still eligible stays when others
drop out, and only the keys of one upstream move when it comes or goes. Where no two hashes agree,
the order of the pool plays no part. -/
theorem consistent_hash_moves_least (sc : SelectCtx) {pool pool' : List Snapshot} (maxPer maxPer' : Int)
    (named : ∀ u ∈ pool, u.id ≠ "") (distinct : (pool.map (·.id)).Nodup)
    (named' : ∀ u ∈ pool', u.id ≠ "") :
    (((eligible pool' maxPer').map (·.id)).Sublist ((eligible pool maxPer).map (·.id)) →
      pick sc pool maxPer ∈ (eligible pool' maxPer').map (·.id) →
      pick sc pool' maxPer' = pick sc pool maxPer) ∧
    (∀ u before after, (eligible pool maxPer).map (·.id) = before ++ u :: after →
      (eligible pool' maxPer').map (·.id) = before ++ after →
      pick sc pool maxPer = u ∨ pick sc pool' maxPer' = pick sc pool maxPer) ∧
    (((eligible pool maxPer).map fun u => hrw sc.hashInput u.id).Nodup →
      ((eligible pool' maxPer').map (·.id)).Perm ((eligible pool maxPer).map (·.id)) →
      pick sc pool' maxPer' = pick sc pool maxPer) := by
  refine ⟨pick_of_sublist named named' distinct, fun u before after => pick_of_drop named named' distinct, ?_⟩
  intro hashes same
  rw [pick_argmax sc named, pick_argmax sc named', List.argmax_of_perm (rank_nodup hashes) same]

def request (port : UInt16) : SelectCtx := ⟨none, "example.com", port, .destination⟩

/-- The key of port 80 is on the third upstream, whether or not the second one is there. -/
theorem consistent_hash_moves_least_trio :
    pick (request 80) (Snapshot.trio true) 1 = "c" ∧
    pick (request 80) (Snapshot.trio false) 1 = pick (request 80) (Snapshot.trio true) 1 ∧
    pick (request 81) (Snapshot.trio true) 1 = "b" ∧ pick (request 81) (Snapshot.trio false) 1 ≠ "b" := by
  have least := consistent_hash_moves_least (request 80) 1 1
    (show ∀ u ∈ Snapshot.trio true, u.id ≠ "" by decide +kernel) (by decide +kernel)
    (show ∀ u ∈ Snapshot.trio false, u.id ≠ "" by decide +kernel)
  refine ⟨by decide +kernel, ?_, by decide +kernel, by decide +kernel⟩
  exact least.1 (by decide +kernel) (by decide +kernel)

end S5lb.ConsistentHashSelector
