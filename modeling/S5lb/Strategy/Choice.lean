import S5lb.Strategy.Selectors

namespace S5lb

/-- A scan that holds `held` so far may end with `id`: it took an eligible snapshot of the pool, or
it kept what it held, and then it held something unless nothing was eligible. -/
def Chosen (pool : List Snapshot) (maxPer : Int) (held id : String) : Prop :=
  (∃ s ∈ pool, s.eligible maxPer = true ∧ s.id = id) ∨
    id = held ∧ (held = "" → ∀ s ∈ pool, s.eligible maxPer = false)

theorem Chosen.skip {u : Snapshot} {pool : List Snapshot} {maxPer : Int} {held id : String}
    (ineligible : u.eligible maxPer = false) (chosen : Chosen pool maxPer held id) :
    Chosen (u :: pool) maxPer held id := by
  rcases chosen with ⟨s, member, able, named⟩ | ⟨kept, none⟩
  · exact .inl ⟨s, List.mem_cons_of_mem _ member, able, named⟩
  · refine .inr ⟨kept, fun empty s member => ?_⟩
    rcases List.mem_cons.1 member with rfl | member
    · exact ineligible
    · exact none empty s member

theorem Chosen.keep {u : Snapshot} {pool : List Snapshot} {maxPer : Int} {held id : String}
    (holds : held ≠ "") (chosen : Chosen pool maxPer held id) :
    Chosen (u :: pool) maxPer held id := by
  rcases chosen with ⟨s, member, able, named⟩ | ⟨kept, _⟩
  · exact .inl ⟨s, List.mem_cons_of_mem _ member, able, named⟩
  · exact .inr ⟨kept, fun empty => absurd empty holds⟩

theorem Chosen.take {u : Snapshot} {pool : List Snapshot} {maxPer : Int} {held id : String}
    (able : u.eligible maxPer = true) (chosen : Chosen pool maxPer u.id id) :
    Chosen (u :: pool) maxPer held id := by
  rcases chosen with ⟨s, member, ableS, named⟩ | ⟨kept, _⟩
  · exact .inl ⟨s, List.mem_cons_of_mem _ member, ableS, named⟩
  · exact .inl ⟨u, List.mem_cons_self, able, kept.symm⟩

theorem reservoirScan_chosen {β : Type} (score : Snapshot → β) (better tied : β → β → Bool)
    (maxPer : Int) (pool : List Snapshot) (held : String) (best : β) (tieCount : Nat) (id : String)
    (out : (reservoirScan score better tied maxPer pool held best tieCount).Outcome id) :
    Chosen pool maxPer held id := by
  induction pool generalizing held best tieCount with
  | nil => exact .inr ⟨out, fun _ => by simp⟩
  | cons u rest ih =>
      cases able : u.eligible maxPer with
      | false =>
          simp only [reservoirScan, able, Bool.not_false, if_true] at out
          exact (ih _ _ _ out).skip able
      | true =>
          simp only [reservoirScan, able, Bool.not_true, Bool.false_eq_true, if_false] at out
          split at out
          · exact (ih _ _ _ out).take able
          · rename_i current
            have holds : held ≠ "" := fun empty => current (.inl empty)
            split at out
            · rw [Drawing.outcome_draw] at out
              obtain ⟨d, out⟩ := out
              split at out
              · exact (ih _ _ _ out).take able
              · exact (ih _ _ _ out).keep holds
            · exact (ih _ _ _ out).keep holds

theorem hashScan_chosen (key : String) (maxPer : Int) (pool : List Snapshot) (held : String)
    (best : UInt64) :
    Chosen pool maxPer held (ConsistentHashSelector.scan key maxPer pool held best) := by
  induction pool generalizing held best with
  | nil => exact .inr ⟨rfl, fun _ => by simp⟩
  | cons u rest ih =>
      cases able : u.eligible maxPer with
      | false =>
          simp only [ConsistentHashSelector.scan, able, Bool.not_false, if_true]
          exact (ih _ _).skip able
      | true =>
          simp only [ConsistentHashSelector.scan, able, Bool.not_true, Bool.false_eq_true, if_false]
          split
          · exact (ih _ _).take able
          · rename_i current
            exact (ih _ _).keep fun empty => current (.inl empty)

theorem wrrFold_chosen (wrap : Int → Int) (maxPer : Int) (pool : List Snapshot)
    (acc : WRRSelector.Best) :
    Chosen pool maxPer acc.bestID (pool.foldl (WRRSelector.visit wrap maxPer) acc).bestID := by
  induction pool generalizing acc with
  | nil => exact .inr ⟨rfl, fun _ => by simp⟩
  | cons u rest ih =>
      have later := ih (WRRSelector.visit wrap maxPer acc u)
      cases able : u.eligible maxPer with
      | false =>
          simp only [WRRSelector.visit, able, Bool.not_false, if_true] at later
          simpa [WRRSelector.visit, able] using later.skip able
      | true =>
          simp only [WRRSelector.visit, able, Bool.not_true, Bool.false_eq_true, if_false] at later
          simp only [List.foldl_cons, WRRSelector.visit, able, Bool.not_true, Bool.false_eq_true,
            if_false]
          split at later
          · rename_i replace
            rw [if_pos replace]
            exact later.take able
          · rename_i current
            rw [if_neg current]
            exact later.keep fun empty => current (.inl empty)

theorem wrr_chosen (wrap : Int → Int) (current : WRRSelector.Current) (pool : List Snapshot)
    (maxPer : Int) : Chosen pool maxPer "" (WRRSelector.pick wrap current pool maxPer).1 := by
  have chosen := wrrFold_chosen wrap maxPer pool ⟨WRRSelector.prune current pool, 0, "", 0⟩
  simp only [WRRSelector.pick]
  split
  · rename_i empty
    rw [empty] at chosen
    exact chosen
  · exact chosen

theorem mem_eligible {pool : List Snapshot} {maxPer : Int} {s : Snapshot} :
    s ∈ eligible pool maxPer ↔ s ∈ pool ∧ s.eligible maxPer = true := by
  simp [eligible]

theorem eligible_cons_of_eligible {u : Snapshot} {maxPer : Int} (able : u.eligible maxPer = true)
    (rest : List Snapshot) : eligible (u :: rest) maxPer = u :: eligible rest maxPer :=
  List.filter_cons_of_pos able

theorem eligible_cons_of_not {u : Snapshot} {maxPer : Int} (unable : u.eligible maxPer = false)
    (rest : List Snapshot) : eligible (u :: rest) maxPer = eligible rest maxPer :=
  List.filter_cons_of_neg (by simp [unable])

theorem chosen_of_mem_eligible {pool : List Snapshot} {maxPer : Int} {held : String} {s : Snapshot}
    (member : s ∈ eligible pool maxPer) : Chosen pool maxPer held s.id :=
  .inl ⟨s, (mem_eligible.1 member).1, (mem_eligible.1 member).2, rfl⟩

theorem chosen_of_eligible_nil {pool : List Snapshot} {maxPer : Int}
    (empty : eligible pool maxPer = []) : Chosen pool maxPer "" "" := by
  refine .inr ⟨rfl, fun _ s member => ?_⟩
  simpa using List.filter_eq_nil_iff.1 empty s member

theorem weightedLocate_mem (fallback : String) (cands : List Snapshot) (r : Int) :
    (∃ s ∈ cands, s.id = WeightedRandomSelector.locate fallback cands r) ∨
      WeightedRandomSelector.locate fallback cands r = fallback := by
  induction cands generalizing r with
  | nil => exact .inr rfl
  | cons u rest ih =>
      simp only [WeightedRandomSelector.locate]
      split
      · exact .inl ⟨u, List.mem_cons_self, rfl⟩
      · rcases ih (r - effectiveWeight u) with ⟨s, member, named⟩ | last
        · exact .inl ⟨s, List.mem_cons_of_mem _ member, named⟩
        · exact .inr last

theorem weightedRandom_chosen (pool : List Snapshot) (maxPer : Int) (id : String)
    (out : (WeightedRandomSelector.pick pool maxPer).Outcome id) : Chosen pool maxPer "" id := by
  simp only [WeightedRandomSelector.pick] at out
  split at out
  · rename_i empty
    rw [Drawing.outcome_ret.1 out]
    exact chosen_of_eligible_nil (List.isEmpty_iff.1 empty)
  · rename_i some
    split at out
    · obtain ⟨d, out⟩ := out
      rw [Drawing.outcome_ret.1 out]
      exact chosen_of_mem_eligible (List.get_mem _ d)
    · obtain ⟨r, out⟩ := out
      rw [Drawing.outcome_ret.1 out]
      rcases weightedLocate_mem _ (eligible pool maxPer) r with ⟨s, member, named⟩ | last
      · rw [← named]
        exact chosen_of_mem_eligible member
      · have nonempty : eligible pool maxPer ≠ [] := fun nil => some (by simp [nil])
        rw [last, List.getLast?_eq_some_getLast nonempty]
        exact chosen_of_mem_eligible (List.getLast_mem nonempty)

theorem random_chosen (pool : List Snapshot) (maxPer : Int) (id : String)
    (out : (RandomSelector.pick pool maxPer).Outcome id) : Chosen pool maxPer "" id := by
  simp only [RandomSelector.pick] at out
  split at out
  · rename_i empty
    rw [Drawing.outcome_ret.1 out]
    exact chosen_of_eligible_nil (List.isEmpty_iff.1 empty)
  · obtain ⟨d, out⟩ := out
    rw [Drawing.outcome_ret.1 out]
    exact chosen_of_mem_eligible (List.get_mem _ d)

theorem p2c_chosen (pool : List Snapshot) (maxPer : Int) (id : String)
    (out : (P2CSelector.pick pool maxPer).Outcome id) : Chosen pool maxPer "" id := by
  unfold P2CSelector.pick at out
  split at out
  · rename_i empty
    rw [Drawing.outcome_ret.1 out]
    exact chosen_of_eligible_nil empty
  · rename_i u single
    rw [Drawing.outcome_ret.1 out]
    exact chosen_of_mem_eligible (by rw [single]; exact List.mem_singleton.2 rfl)
  · rename_i several
    obtain ⟨i, j, out⟩ := out
    -- the second index skips the first, so both are positions of the candidates
    have second : (if j.val ≥ i.val then j.val + 1 else j.val) < (eligible pool maxPer).length := by
      split <;> omega
    simp only [List.getElem?_eq_getElem i.isLt, List.getElem?_eq_getElem second,
      Drawing.outcome_ret] at out
    generalize (if j.val ≥ i.val then j.val + 1 else j.val) = k at second out
    rw [out]
    split
    · exact chosen_of_mem_eligible (List.getElem_mem _)
    · exact chosen_of_mem_eligible (List.getElem_mem _)

theorem priorityFailover_chosen (pool : List Snapshot) (maxPer : Int) :
    Chosen pool maxPer "" (PriorityFailoverSelector.pick pool maxPer) := by
  unfold PriorityFailoverSelector.pick
  cases found : pool.find? (·.eligible maxPer) with
  | none =>
      refine .inr ⟨rfl, fun _ s member => ?_⟩
      simpa using List.find?_eq_none.1 found s member
  | some s => exact .inl ⟨s, List.mem_of_find?_eq_some found, by simpa using List.find?_some found, rfl⟩

def EligibleAt (pool : List Snapshot) (maxPer : Int) (i : Nat) : Prop :=
  ∃ s, pool[i]? = some s ∧ s.eligible maxPer = true

theorem attempt_fst (pool : List Snapshot) (maxPer : Int) (idx : UInt64) :
    (RoundRobinSelector.attempt pool maxPer idx).1 =
      (pool[idx.toNat % pool.length]?.filter (·.eligible maxPer)).map (·.id) := by
  simp [RoundRobinSelector.attempt]

theorem attempt_some {pool : List Snapshot} {maxPer : Int} {idx : UInt64} {id : String}
    (hit : (RoundRobinSelector.attempt pool maxPer idx).1 = some id) :
    ∃ s ∈ pool, s.eligible maxPer = true ∧ s.id = id := by
  rw [attempt_fst, Option.map_eq_some_iff] at hit
  obtain ⟨s, kept, named⟩ := hit
  obtain ⟨located, able⟩ := Option.filter_eq_some_iff.1 kept
  exact ⟨s, List.mem_of_getElem? located, able, named⟩

theorem attempt_none {pool : List Snapshot} {maxPer : Int} {idx : UInt64}
    (miss : (RoundRobinSelector.attempt pool maxPer idx).1 = none) :
    ¬EligibleAt pool maxPer (idx.toNat % pool.length) := by
  rintro ⟨s, located, able⟩
  simp [attempt_fst, located, able] at miss

theorem toNat_add_one (idx : UInt64) : (idx + 1).toNat = (idx.toNat + 1) % 2 ^ 64 := by
  simp [UInt64.toNat_add]

theorem roundRobinScan_spec (pool : List Snapshot) (maxPer : Int) (turns : Nat) (idx : UInt64) :
    (∃ s ∈ pool, s.eligible maxPer = true ∧
        s.id = (RoundRobinSelector.scan pool maxPer turns idx).1) ∨
      (RoundRobinSelector.scan pool maxPer turns idx).1 = "" ∧
        ∀ t < turns, ¬EligibleAt pool maxPer ((idx.toNat + t) % 2 ^ 64 % pool.length) := by
  induction turns generalizing idx with
  | zero => exact .inr ⟨rfl, fun t bound => absurd bound (Nat.not_lt_zero t)⟩
  | succ turns ih =>
      have moved : (RoundRobinSelector.attempt pool maxPer idx).2 = idx + 1 := rfl
      rw [RoundRobinSelector.scan]
      rcases tried : RoundRobinSelector.attempt pool maxPer idx with ⟨result, after⟩
      rw [tried] at moved
      subst moved
      cases result with
      | some id =>
          obtain ⟨s, member, able, named⟩ := attempt_some (by rw [tried])
          exact .inl ⟨s, member, able, named⟩
      | none =>
          have here := attempt_none (by rw [tried] : (RoundRobinSelector.attempt pool maxPer idx).1 = none)
          rcases ih (idx + 1) with found | ⟨empty, missed⟩
          · exact .inl found
          · refine .inr ⟨empty, fun t bound => ?_⟩
            cases t with
            | zero => simpa [Nat.mod_eq_of_lt idx.toNat_lt] using here
            | succ t =>
                have later := missed t (Nat.lt_of_succ_lt_succ bound)
                rwa [toNat_add_one, Nat.mod_add_mod, Nat.add_assoc, Nat.add_comm 1 t] at later

theorem roundRobin_miss {pool : List Snapshot} {maxPer : Int} {idx : UInt64}
    (missed : ∀ t < pool.length, ¬EligibleAt pool maxPer ((idx.toNat + t) % 2 ^ 64 % pool.length)) :
    (RoundRobinSelector.pick idx pool maxPer).1 = "" := by
  suffices scan : ∀ turns (idx : UInt64),
      (∀ t < turns, ¬EligibleAt pool maxPer ((idx.toNat + t) % 2 ^ 64 % pool.length)) →
        (RoundRobinSelector.scan pool maxPer turns idx).1 = "" from scan pool.length idx missed
  intro turns
  induction turns with
  | zero => exact fun _ _ => rfl
  | succ turns ih =>
      intro idx missed
      have here : (RoundRobinSelector.attempt pool maxPer idx).1 = none := by
        rw [attempt_fst, Option.map_eq_none_iff, Option.filter_eq_none_iff]
        intro s located able
        apply missed 0 (Nat.succ_pos turns)
        rw [Nat.add_zero, Nat.mod_eq_of_lt idx.toNat_lt]
        exact ⟨s, located, able⟩
      rw [RoundRobinSelector.scan]
      rcases tried : RoundRobinSelector.attempt pool maxPer idx with ⟨result, after⟩
      have moved : after = idx + 1 := by rw [← (Prod.mk.inj tried).2]
      rw [tried] at here
      cases here
      subst moved
      apply ih
      intro t bound
      rw [toNat_add_one, Nat.mod_add_mod, Nat.add_assoc, Nat.add_comm 1 t]
      exact missed (t + 1) (Nat.succ_lt_succ bound)

theorem pick_chosen {sel after : Selector} {sc : SelectCtx} {pool : List Snapshot} {maxPer : Int}
    {id : String} (out : (sel.pick sc pool maxPer).Outcome (id, after)) :
    Chosen pool maxPer "" id ∨
      ∃ idx : UInt64, sel = .roundRobin idx ∧ id = "" ∧
        ∀ t < pool.length, ¬EligibleAt pool maxPer ((idx.toNat + t) % 2 ^ 64 % pool.length) := by
  cases sel with
  | leastActive =>
      obtain ⟨_, drawn, same⟩ := Drawing.outcome_map.1 out
      cases same
      exact .inl (reservoirScan_chosen _ _ _ _ _ _ _ _ _ drawn)
  | roundRobin idx =>
      cases Drawing.outcome_ret.1 out
      rcases roundRobinScan_spec pool maxPer pool.length idx with found | ⟨empty, missed⟩
      · exact .inl (.inl found)
      · exact .inr ⟨idx, rfl, empty, missed⟩
  | wrr current =>
      have named : id = _ := congrArg Prod.fst (Drawing.outcome_ret.1 out)
      rw [named]
      exact .inl (wrr_chosen _ _ _ _)
  | random =>
      obtain ⟨_, drawn, same⟩ := Drawing.outcome_map.1 out
      cases same
      exact .inl (random_chosen _ _ _ drawn)
  | weightedRandom =>
      obtain ⟨_, drawn, same⟩ := Drawing.outcome_map.1 out
      cases same
      exact .inl (weightedRandom_chosen _ _ _ drawn)
  | p2c =>
      obtain ⟨_, drawn, same⟩ := Drawing.outcome_map.1 out
      cases same
      exact .inl (p2c_chosen _ _ _ drawn)
  | leastLatency =>
      obtain ⟨_, drawn, same⟩ := Drawing.outcome_map.1 out
      cases same
      exact .inl (reservoirScan_chosen _ _ _ _ _ _ _ _ _ drawn)
  | consistentHash =>
      cases Drawing.outcome_ret.1 out
      exact .inl (hashScan_chosen _ _ _ _ _)
  | priorityFailover =>
      cases Drawing.outcome_ret.1 out
      exact .inl (priorityFailover_chosen _ _)

def Snapshot.idle (id : String) (weight : Int) (healthy : Bool) : Snapshot :=
  ⟨id, "", weight, 0, 0, healthy, false, 0, .fin 0, 0, 0⟩

def Snapshot.trio (second : Bool) : List Snapshot := [idle "a" 1 true, idle "b" 1 second, idle "c" 1 true]

end S5lb
