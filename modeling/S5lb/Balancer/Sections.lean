import S5lb.Balancer.Queue

namespace S5lb

section Selecting

inductive Selects (sc : SelectCtx) (snaps : List Snapshot) (maxPer : Int) :
    Selector → Nat → String × Selector → Prop
  | chosen {sel after : Selector} {attempts : Nat} {id : String}
      (out : (sel.advance sc snaps maxPer attempts).Outcome (some id, after)) :
      Selects sc snaps maxPer sel attempts (id, after)
  | again {sel next : Selector} {attempts : Nat} {p : String × Selector}
      (out : (sel.advance sc snaps maxPer attempts).Outcome (none, next))
      (rest : Selects sc snaps maxPer next (attempts + 1) p) : Selects sc snaps maxPer sel attempts p

variable {sc : SelectCtx} {snaps : List Snapshot} {maxPer : Int}

theorem selects_iff {sel : Selector} {attempts : Nat} {p : String × Selector} :
    Selects sc snaps maxPer sel attempts p ↔
      (sel.advance sc snaps maxPer attempts).Outcome (some p.1, p.2) ∨
      ∃ next, (sel.advance sc snaps maxPer attempts).Outcome (none, next) ∧
        Selects sc snaps maxPer next (attempts + 1) p := by
  constructor
  · intro selects
    cases selects with
    | chosen out => exact .inl out
    | again out rest => exact .inr ⟨_, out, rest⟩
  · rintro (out | ⟨next, out, rest⟩)
    · exact .chosen out
    · exact .again out rest

theorem advance_none {sel next : Selector} {attempts : Nat}
    (out : (sel.advance sc snaps maxPer attempts).Outcome (none, next)) :
    attempts + 1 < snaps.length := by
  cases sel with
  | roundRobin idx =>
      simp only [Selector.advance] at out
      split at out
      · cases out
      · rcases tried : RoundRobinSelector.attempt snaps maxPer idx with ⟨_ | id, after⟩
        · rw [tried] at out
          by_contra last
          rw [if_neg last] at out
          cases out
        · rw [tried] at out
          cases out
  | _ =>
      obtain ⟨_, -, same⟩ := Drawing.outcome_map.1 out
      cases same

theorem roundRobin_selects {turns attempts : Nat} {idx : UInt64} {p : String × Selector}
    (left : snaps.length - attempts = turns) :
    Selects sc snaps maxPer (.roundRobin idx) attempts p ↔
      p = ((RoundRobinSelector.scan snaps maxPer turns idx).1,
        .roundRobin (RoundRobinSelector.scan snaps maxPer turns idx).2) := by
  induction turns generalizing attempts idx with
  | zero =>
      have spent : snaps.length ≤ attempts := Nat.sub_eq_zero_iff_le.1 left
      rw [selects_iff]
      simp [Selector.advance, spent, RoundRobinSelector.scan, Prod.ext_iff]
  | succ turns ih =>
      have more : ¬snaps.length ≤ attempts := by omega
      rw [selects_iff, RoundRobinSelector.scan]
      simp only [Selector.advance, if_neg more]
      rcases RoundRobinSelector.attempt snaps maxPer idx with ⟨_ | id, after⟩
      · by_cases last : attempts + 1 < snaps.length
        · simp [last, ih (by omega : snaps.length - (attempts + 1) = turns)]
        · cases (by omega : turns = 0)
          simp [last, RoundRobinSelector.scan, Prod.ext_iff]
      · simp [Prod.ext_iff]

/-- Uninterrupted, the sections of `Selector.Pick` do what `Pick` does in one go. -/
theorem selects_pick {sel : Selector} {p : String × Selector} :
    Selects sc snaps maxPer sel 0 p ↔ (sel.pick sc snaps maxPer).Outcome p := by
  by_cases rotates : ∃ idx, sel = .roundRobin idx
  · obtain ⟨idx, rfl⟩ := rotates
    rw [roundRobin_selects rfl]
    rfl
  · have whole : sel.advance sc snaps maxPer 0 =
        (sel.pick sc snaps maxPer).map fun q => (some q.1, q.2) := by
      cases sel with
      | roundRobin idx => exact absurd ⟨idx, rfl⟩ rotates
      | _ => rfl
    rw [selects_iff, whole]
    simp [Prod.ext_iff]

end Selecting

namespace LoadBalancer

inductive PickRun (sc : SelectCtx) :
    LoadBalancer → PickPos → Option Upstream × LoadBalancer → Prop
  | got {lb lb' : LoadBalancer} {pos : PickPos} {draws : List Nat} {u : Upstream}
      (stepped : lb.pickStep sc draws pos = some (lb', .got u)) : PickRun sc lb pos (some u, lb')
  | failed {lb lb' : LoadBalancer} {pos : PickPos} {draws : List Nat}
      (stepped : lb.pickStep sc draws pos = some (lb', .failed)) : PickRun sc lb pos (none, lb')
  | more {lb lb' : LoadBalancer} {pos next : PickPos} {draws : List Nat}
      {out : Option Upstream × LoadBalancer}
      (stepped : lb.pickStep sc draws pos = some (lb', .more next)) (rest : PickRun sc lb' next out) :
      PickRun sc lb pos out

variable {sc : SelectCtx} {lb : LoadBalancer} {out : Option Upstream × LoadBalancer}

def Continues (sc : SelectCtx) (lb : LoadBalancer) (out : Option Upstream × LoadBalancer) :
    PickResult → Prop
  | .more next => PickRun sc lb next out
  | .got u => out = (some u, lb)
  | .failed => out = (none, lb)

theorem pickRun_iff {pos : PickPos} : PickRun sc lb pos out ↔
    ∃ draws lb' result, lb.pickStep sc draws pos = some (lb', result) ∧ Continues sc lb' out result := by
  constructor
  · intro run
    cases run with
    | got stepped => exact ⟨_, _, _, stepped, rfl⟩
    | failed stepped => exact ⟨_, _, _, stepped, rfl⟩
    | more stepped rest => exact ⟨_, _, _, stepped, rest⟩
  · rintro ⟨draws, lb', result, stepped, continues⟩
    cases result with
    | more next => exact .more stepped continues
    | got u => exact continues ▸ .got stepped
    | failed => exact continues ▸ .failed stepped

theorem pickRun_of_step {pos : PickPos} {lb' : LoadBalancer} {result : PickResult}
    (stepped : ∀ draws, lb.pickStep sc draws pos = some (lb', result)) :
    PickRun sc lb pos out ↔ Continues sc lb' out result := by
  simp [pickRun_iff, stepped]

theorem pickRun_more {pos next : PickPos}
    (stepped : ∀ draws, lb.pickStep sc draws pos = some (lb, .more next)) :
    PickRun sc lb pos out ↔ PickRun sc lb next out :=
  pickRun_of_step stepped

theorem pickRun_snapshot {maxPer : Int} {pool : Pool} {taken : List Snapshot} {rest : List Upstream} :
    PickRun sc lb (.snapshot maxPer pool taken rest) out ↔
      PickRun sc lb (.select maxPer pool (taken ++ rest.map fun u => u.snapshot lb.heap) 0) out := by
  induction rest generalizing taken with
  | nil =>
      rw [List.map_nil, List.append_nil]
      exact pickRun_more fun _ => rfl
  | cons u rest ih =>
      have later := @ih (taken ++ [u.snapshot lb.heap])
      rw [List.append_assoc, List.singleton_append] at later
      exact (pickRun_more fun _ => rfl).trans later

theorem pickRun_inc {id : String} {u : Upstream} (named : id ≠ "") (found : lb.pool.byID id = some u) :
    PickRun sc lb (.inc lb.cfg.maxPerProxy u) out ↔ out = lb.reserve id := by
  simp only [reserve, if_neg named, found]
  cases granted : (lb.heap.get u.state).incActive lb.cfg.maxPerProxy with
  | none =>
      have stepped (draws : List Nat) : lb.pickStep sc draws (.inc lb.cfg.maxPerProxy u) =
          some (lb, .failed) := by simp [pickStep, granted]
      exact pickRun_of_step stepped
  | some s =>
      have stepped (draws : List Nat) : lb.pickStep sc draws (.inc lb.cfg.maxPerProxy u) =
          some ({ lb with heap := lb.heap.set u.state s }, .got u) := by simp [pickStep, granted]
      exact pickRun_of_step stepped

theorem continues_answer (out : Option Upstream × LoadBalancer) {snaps : List Snapshot}
    {attempts : Nat} {draws : List Nat} {id : Option String} {selector : Selector}
    (ran : (lb.selector.advance sc snaps lb.cfg.maxPerProxy attempts).run draws = some (id, selector)) :
    ∃ result, lb.pickStep sc draws (.select lb.cfg.maxPerProxy lb.pool snaps attempts) =
        some ({ lb with selector }, result) ∧
      (Continues sc { lb with selector } out result ↔ match id with
        | none => PickRun sc { lb with selector }
            (.select lb.cfg.maxPerProxy lb.pool snaps (attempts + 1)) out
        | some id => out = reserve { lb with selector } id) := by
  cases id with
  | none => exact ⟨.more (.select _ _ snaps (attempts + 1)), by simp [pickStep, ran], Iff.rfl⟩
  | some id =>
      by_cases empty : id = ""
      · exact ⟨.failed, by simp [pickStep, ran, empty], by simp [Continues, reserve, empty]⟩
      · cases found : lb.pool.byID id with
        | none => exact ⟨.failed, by simp [pickStep, ran, empty, found],
            by simp [Continues, reserve, empty, found]⟩
        | some u =>
            have reserves : PickRun sc { lb with selector } (.inc lb.cfg.maxPerProxy u) out ↔
                out = reserve { lb with selector } id := pickRun_inc empty found
            exact ⟨.more (.inc _ u), by simp [pickStep, ran, empty, found], reserves⟩

theorem pickRun_section {snaps : List Snapshot} {attempts : Nat} :
    PickRun sc lb (.select lb.cfg.maxPerProxy lb.pool snaps attempts) out ↔
      (∃ id after, (lb.selector.advance sc snaps lb.cfg.maxPerProxy attempts).Outcome (some id, after) ∧
        out = reserve { lb with selector := after } id) ∨
      ∃ next, (lb.selector.advance sc snaps lb.cfg.maxPerProxy attempts).Outcome (none, next) ∧
        PickRun sc { lb with selector := next }
          (.select lb.cfg.maxPerProxy lb.pool snaps (attempts + 1)) out := by
  constructor
  · intro run
    obtain ⟨draws, lb', result, stepped, continues⟩ := pickRun_iff.1 run
    cases ran : (lb.selector.advance sc snaps lb.cfg.maxPerProxy attempts).run draws with
    | none => simp [pickStep, ran] at stepped
    | some answer =>
        obtain ⟨id, selector⟩ := answer
        obtain ⟨result', stepped', means⟩ := continues_answer out ran
        cases stepped.symm.trans stepped'
        cases id with
        | none => exact .inr ⟨selector, Drawing.run_outcome ran, means.1 continues⟩
        | some id => exact .inl ⟨id, selector, Drawing.run_outcome ran, means.1 continues⟩
  · rintro (⟨id, after, answer, same⟩ | ⟨next, answer, rest⟩)
    · obtain ⟨draws, ran⟩ := Drawing.exists_run answer
      obtain ⟨result, stepped, means⟩ := continues_answer out ran
      exact pickRun_iff.2 ⟨draws, _, result, stepped, means.2 same⟩
    · obtain ⟨draws, ran⟩ := Drawing.exists_run answer
      obtain ⟨result, stepped, means⟩ := continues_answer out ran
      exact pickRun_iff.2 ⟨draws, _, result, stepped, means.2 rest⟩

theorem pickRun_select {lb : LoadBalancer} {snaps : List Snapshot} {attempts : Nat} :
    PickRun sc lb (.select lb.cfg.maxPerProxy lb.pool snaps attempts) out ↔
      ∃ id after, Selects sc snaps lb.cfg.maxPerProxy lb.selector attempts (id, after) ∧
        out = reserve { lb with selector := after } id := by
  refine pickRun_section.trans ⟨?_, ?_⟩
  · rintro (⟨id, after, answer, same⟩ | ⟨next, answer, rest⟩)
    · exact ⟨id, after, .chosen answer, same⟩
    · have more := advance_none answer
      obtain ⟨id, after, selects, same⟩ := pickRun_select.1 rest
      exact ⟨id, after, .again answer selects, same⟩
  · rintro ⟨id, after, selects, same⟩
    rcases selects_iff.1 selects with answer | ⟨next, answer, later⟩
    · exact .inl ⟨id, after, answer, same⟩
    · have more := advance_none answer
      exact .inr ⟨next, answer, pickRun_select.2 ⟨id, after, later, same⟩⟩
termination_by snaps.length - attempts
decreasing_by all_goals omega

/-- Uninterrupted, the sections of `pick` have the outcomes of `pick`. -/
theorem pickRun_pick : PickRun sc lb .config out ↔ (lb.pick sc).Outcome out := by
  have first : PickRun sc lb .config out ↔ PickRun sc lb (.pool lb.cfg.maxPerProxy) out :=
    pickRun_more fun _ => rfl
  have second : PickRun sc lb (.pool lb.cfg.maxPerProxy) out ↔
      PickRun sc lb (.snapshot lb.cfg.maxPerProxy lb.pool [] lb.pool.upstreams) out :=
    pickRun_more fun _ => rfl
  rw [first, second, pickRun_snapshot, List.nil_append, pickRun_select]
  simp only [selects_pick, pick, Drawing.outcome_map, Prod.exists, snapshots]

end LoadBalancer

end S5lb
