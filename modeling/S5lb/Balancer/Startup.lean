import S5lb.Balancer.Groups

namespace S5lb

open Transition

def Config.UniqueIDs (cfg : Config) : Prop := (cfg.upstreams.map UpstreamSpec.upstreamID).Nodup

instance (cfg : Config) : Decidable cfg.UniqueIDs := inferInstanceAs (Decidable (List.Nodup _))

def Config.Direct (cfg : Config) : Prop :=
  cfg.transport.type = .unset ∨ cfg.transport.type = .direct

instance (cfg : Config) : Decidable cfg.Direct := inferInstanceAs (Decidable (_ ∨ _))

structure Config.Builds (cfg : Config) : Prop where
  strategy : ∃ sel, strategyNew cfg.strategy = .ok sel
  upstreams : ∀ heap, ∃ ups after, cfg.buildUpstreams heap = .ok (ups, after) ∧
    ∀ lb : LoadBalancer, ∃ lb', lb.setUpstreams ups = .ok lb'

theorem Config.builds_iff {cfg : Config} (usable : cfg.Usable) : cfg.Builds ↔ cfg.UniqueIDs := by
  constructor
  · intro builds
    obtain ⟨ups, after, listed, published⟩ := builds.upstreams ⟨fun _ => newState, 0⟩
    obtain ⟨normal, ids⟩ := LoadBalancer.normalized_of_built usable.specs listed
    obtain ⟨lb, set⟩ := published (.unpublished defaults ⟨fun _ => newState, 0⟩ .leastActive)
    obtain ⟨pool, replaced, -⟩ := LoadBalancer.setUpstreams_eq_ok.1 set
    have distinct := (Pool.replace_ok replaced).1
    rw [normal, ids] at distinct
    exact distinct
  · intro distinct
    refine ⟨usable.strategy, fun heap => ?_⟩
    obtain ⟨ups, after, listed, ids⟩ := buildUpstreamsFrom_total usable.specs heap 0
    obtain ⟨normal, -⟩ := LoadBalancer.normalized_of_built usable.specs listed
    refine ⟨ups, after, listed, fun lb => ?_⟩
    have once : ((ups.map Upstream.normalizeID).map (·.id)).Nodup := by
      rw [normal, ids]
      exact distinct
    obtain ⟨pool, replaced⟩ := lb.pool.exists_replace once
    exact ⟨_, LoadBalancer.setUpstreams_eq_ok.2 ⟨pool, replaced, rfl⟩⟩

theorem validateTransport_direct {t : TransportConfig} (direct : t.type = .unset ∨ t.type = .direct) :
    validateTransport t = .ok { t with type := .direct } := by
  unfold validateTransport
  rcases direct with direct | direct <;> rw [direct]

theorem Config.transport_of_validate {raw cfg : Config} (direct : raw.Direct)
    (valid : raw.validate = .ok cfg) : cfg.transport.type = .direct := by
  have transport := (Config.transport_validated valid).2
  rw [validateTransport_direct direct] at transport
  rw [← Except.ok.inj transport]

theorem MultiConfig.direct_of_validate {mc checked : MultiConfig}
    (valid : mc.validate = .ok checked) (direct : ∀ eff ∈ mc.effectiveGroups, eff.Direct) :
    ∀ eff ∈ checked.effectiveGroups, eff.Direct := by
  cases validate_ok.1 valid with
  | global single passed =>
      simp only [effectiveGroups, single, if_true, List.forall_mem_singleton] at direct ⊢
      have transport := Config.transport_of_validate (show mc.config.Direct from direct) passed
      exact .inr transport
  | groups => exact direct

theorem Config.committable_direct {client : KubeClient} {raw filled : Config} (direct : raw.Direct)
    (valid : raw.validate = .ok filled) : raw.Committable client ↔ raw.UniqueIDs := by
  have transport := Config.transport_of_validate direct valid
  obtain ⟨_, same⟩ := (Config.checked_of_validate valid).filled
  constructor
  · rintro ⟨filled', valid', -, distinct⟩
    cases valid.symm.trans valid'
    rw [same] at distinct
    exact distinct
  · intro distinct
    have buildable : filled.Buildable client := by
      rw [Manager.buildable_direct (.inr transport), same]
      exact distinct
    exact ⟨filled, valid, buildable⟩

namespace LoadBalancer

theorem reloadFromConfig_error_iff (client : KubeClient) (lb : LoadBalancer) (raw : Config) :
    (∃ message, (lb.reloadFromConfig client raw).2 = .error message) ↔ ¬raw.Committable client := by
  have reloaded := reloaded_of_reloadFromConfig client lb raw
  generalize (lb.reloadFromConfig client raw).1 = lb' at reloaded
  generalize (lb.reloadFromConfig client raw).2 = result at reloaded ⊢
  cases reloaded with
  | refused unfit states others => exact ⟨fun _ => unfit, fun _ => ⟨_, rfl⟩⟩
  | applied fit valid built replaced prepared => exact ⟨nofun, absurd fit⟩
  | swapped fit valid built replaced prepared stored => exact ⟨nofun, absurd fit⟩
  | panicked fit valid built replaced prepared stored => exact ⟨nofun, absurd fit⟩

end LoadBalancer

namespace Manager

open GroupTable

def refuses (client : KubeClient) (byName : AList fun _ : String => EntryRef) (acc : Reloading)
    (cfg : Config) : Bool :=
  match byName.lookup cfg.groupName with
  | some existing =>
      match ((acc.table.entries.get existing).lb.reloadFromConfig client cfg).2 with
      | .error _ => true
      | _ => false
  | none =>
      match acc.table.build client cfg with
      | .error _ => true
      | .ok _ => false

structure Tried where
  out : Except Reloading Reloading
  tried : List Config
  refused : List Config

/-- `reloadAll`, with the configs that it came to and those that were refused. -/
def reloadEach (client : KubeClient) (byName : AList fun _ : String => EntryRef) :
    Reloading → List Config → Tried
  | acc, [] => ⟨.ok acc, [], []⟩
  | acc, cfg :: rest =>
      let refused := if refuses client byName acc cfg then [cfg] else []
      match reloadOne client byName acc cfg with
      | .error acc => ⟨.error acc, [cfg], refused⟩
      | .ok acc =>
          let later := reloadEach client byName acc rest
          ⟨later.out, cfg :: later.tried, refused ++ later.refused⟩

theorem reloadEach_out (client : KubeClient) (byName : AList fun _ : String => EntryRef)
    (acc : Reloading) (effs : List Config) :
    (reloadEach client byName acc effs).out = effs.foldlM (reloadOne client byName) acc := by
  induction effs generalizing acc with
  | nil => rfl
  | cons cfg rest ih =>
      rw [List.foldlM_cons, reloadEach]
      cases reloadOne client byName acc cfg with
      | error acc => rfl
      | ok acc => exact ih acc

/-- The config repeats an ID, or asks for a new group whose collectors cannot be registered: a removed
one of that name is draining, or a panic has left its collectors behind. -/
def Refuses (m : Manager) (cfg : Config) : Prop :=
  ¬cfg.UniqueIDs ∨ cfg.groupName ∉ m.byName ∧
    ((∃ r ∈ m.draining, (m.entries.get r).name = cfg.groupName) ∨ cfg.groupName ∈ m.leaked)

instance (m : Manager) (cfg : Config) : Decidable (m.Refuses cfg) := inferInstanceAs (Decidable (_ ∨ _))

structure Ready (cfg : Config) : Prop where
  named : cfg.groupName ≠ ""
  usable : cfg.Usable
  direct : cfg.Direct
  valid : ∃ filled, cfg.validate = .ok filled

theorem ready_of_validate {mc checked : MultiConfig} (valid : mc.validate = .ok checked)
    (direct : ∀ eff ∈ mc.effectiveGroups, eff.Direct) : ∀ eff ∈ checked.effectiveGroups, Ready eff := by
  intro eff member
  exact ⟨(MultiConfig.accepted_of_validate valid).named eff member,
    MultiConfig.usable_of_validate valid eff member, MultiConfig.direct_of_validate valid direct eff member,
    MultiConfig.valid_effective valid eff member⟩

theorem refuses_iff {client : KubeClient} {m : Manager} {past : List Config}
    {pairs : List (Config × EntryRef)} {acc : Reloading} {cfg : Config} (accounted : m.Accounted [])
    (ready : Ready cfg) (tally : Tally client m.toGroupTable past pairs acc.table)
    (unused : ∀ p ∈ pairs, p.1.groupName ≠ cfg.groupName) :
    refuses client m.byName acc cfg = true ↔ m.Refuses cfg := by
  unfold refuses Refuses
  cases known : m.byName.lookup cfg.groupName with
  | some existing =>
      have listed : cfg.groupName ∈ m.byName :=
        AList.lookup_isSome.1 (Option.isSome_iff_exists.2 ⟨existing, known⟩)
      obtain ⟨filled, valid⟩ := ready.valid
      have failed := (acc.table.entries.get existing).lb.reloadFromConfig_error_iff client cfg
      rw [Config.committable_direct ready.direct valid] at failed
      simp only [listed, not_true_eq_false, false_and, or_false]
      rw [← failed]
      split
      · rename_i message answer
        simp [answer]
      · rename_i other
        simp only [Bool.false_eq_true, false_iff, not_exists]
        exact other
  | none =>
      have absent : cfg.groupName ∉ m.byName := AList.lookup_eq_none.1 known
      have builds := @buildGroup_iff client acc.table.registered cfg ready.named ready.usable
      rw [tally.registered_iff unused, mem_registered accounted, buildable_direct ready.direct] at builds
      simp only [absent, List.not_mem_nil, or_false, false_or] at builds
      simp only [absent, not_false_eq_true, true_and]
      split
      · rename_i why answer
        have unmade := build_error answer
        rw [builds, not_and_or, not_not] at unmade
        simp only [true_iff]
        exact unmade.symm
      · rename_i both answer
        obtain ⟨entry, registered, made, -⟩ := build_ok answer
        obtain ⟨free, distinct⟩ := builds.1 ⟨_, made⟩
        simp only [Bool.false_eq_true, false_iff, not_or, not_not]
        exact ⟨distinct, not_or.1 free⟩

theorem refused_of_reloadEach {client : KubeClient} {m : Manager} {effs : List Config}
    (accounted : m.Accounted []) (accepted : Accepted effs) (ready : ∀ cfg ∈ effs, Ready cfg)
    {past rest : List Config} {pairs : List (Config × EntryRef)} {acc : Reloading}
    (split : effs = past ++ rest) (tally : Tally client m.toGroupTable past pairs acc.table) :
    let each := reloadEach client m.byName acc rest
    each.tried <+: rest ∧ (∀ acc, each.out = .ok acc → each.tried = rest) ∧
      each.refused = each.tried.filter fun cfg => m.Refuses cfg := by
  induction rest generalizing past pairs acc with
  | nil => exact ⟨List.prefix_rfl, fun _ _ => rfl, rfl⟩
  | cons cfg rest ih =>
      have member : cfg ∈ effs := by simp [split]
      have verdict := refuses_iff accounted (ready cfg member) tally
        (unused_of_accepted accepted split tally.part)
      have noted : (if refuses client m.byName acc cfg then [cfg] else []) =
          [cfg].filter fun cfg => m.Refuses cfg := by
        by_cases refused : m.Refuses cfg <;> simp [verdict, refused]
      rw [reloadEach]
      cases one : reloadOne client m.byName acc cfg with
      | error acc' => exact ⟨⟨rest, rfl⟩, nofun, noted⟩
      | ok acc' =>
          obtain ⟨pairs, next⟩ := tally_of_reloadOne accepted split (ready cfg member).usable tally one
          obtain ⟨reached, all, refused⟩ := ih (by simpa using split) next
          refine ⟨List.cons_prefix_cons.2 ⟨rfl, reached⟩, fun last ran => ?_, ?_⟩
          · exact congrArg (cfg :: ·) (all last ran)
          · dsimp only
            rw [noted, refused, ← List.filter_append]
            rfl

theorem newManager_of_unique {client : KubeClient} {mc checked : MultiConfig} (cfgPath : String)
    (valid : mc.validate = .ok checked) (direct : ∀ eff ∈ mc.effectiveGroups, eff.Direct)
    (distinct : ∀ eff ∈ checked.effectiveGroups, eff.UniqueIDs) :
    ∃ m, newManager client mc cfgPath [] = .ok m := by
  have accepted := MultiConfig.accepted_of_validate valid
  have ready := ready_of_validate valid direct
  obtain ⟨table, built⟩ : ∃ table, checked.effectiveGroups.foldlM
      (fun (t : GroupTable) cfg => ((t.build client cfg).map (·.1)).mapError
        ("group " ++ Go.quote cfg.groupName ++ ": " ++ ·)) (GroupTable.empty []) = .ok table := by
    refine List.foldlM_except_total
      (P := fun past t => ∃ pairs, Tally client (GroupTable.empty []) past pairs t)
      ⟨[], Tally.empty client (GroupTable.empty [])⟩ ?_
    rintro past cfg rest t split ⟨pairs, tally⟩
    have member : cfg ∈ checked.effectiveGroups := by simp [split]
    have fit := ready cfg member
    have unused := unused_of_accepted accepted split tally.part
    have free : cfg.groupName ∉ t.registered := by
      rw [tally.registered_iff unused]
      exact List.not_mem_nil
    have buildable : cfg.Buildable client := (buildable_direct fit.direct).2 (distinct cfg member)
    obtain ⟨⟨entry, registered⟩, made⟩ := (buildGroup_iff fit.named fit.usable).2 ⟨free, buildable⟩
    obtain ⟨both, answer⟩ : ∃ both, t.build client cfg = .ok both := by
      rw [GroupTable.build, made]
      exact ⟨_, rfl⟩
    refine ⟨both.1, by rw [answer]; rfl, _, tally.build fit.named fit.usable unused
      (fresh_of_accepted accepted split) (AList.lookup_empty _) answer⟩
  exact ⟨_, by simp only [newManager, bind_ok, mapError_ok]; exact ⟨checked, valid, table, built, rfl⟩⟩

def twice (groups : List (String × String)) : MultiConfig :=
  { listening groups with
    groups := (listening groups).groups.map fun g =>
      if g.name = "b" then
        { g with upstreams := [⟨"", "10.0.0.1", 1080, "", "", 1, 0⟩, ⟨"", "10.0.0.1", 1080, "", "", 2, 0⟩] }
      else g }

end Manager

end S5lb
