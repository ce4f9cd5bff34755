import Mathlib.Data.List.Perm.Subperm
import S5lb.Balancer.ListenAddrs

namespace S5lb

open Transition

structure Config.Usable (cfg : Config) : Prop where
  upstreams_ne : cfg.upstreams ≠ []
  specs : ∀ s ∈ cfg.upstreams, s.host ≠ "" ∧ 0 < s.port
  strategy : ∃ sel, strategyNew cfg.strategy = .ok sel

theorem strategyNew_of_validateStrategyName {name : String} {u : Unit}
    (valid : validateStrategyName name = .ok u) : ∃ sel, strategyNew name = .ok sel := by
  simp only [validateStrategyName, refuse_ok, Bool.not_eq_eq_eq_not, Bool.not_false,
    List.contains_eq_mem, decide_eq_true_eq] at valid
  unfold strategyNew
  generalize Go.toLower (Go.trimSpace name) = key at valid ⊢
  simp only [validStrategyNames, List.mem_cons, List.not_mem_nil, or_false] at valid
  rcases valid with rfl | rfl | rfl | rfl | rfl | rfl | rfl | rfl | rfl | rfl | rfl | rfl | rfl |
    rfl | rfl | rfl | rfl | rfl | rfl
  all_goals exact ⟨_, rfl⟩

theorem Config.usable_of_validate {raw cfg : Config} (valid : raw.validate = .ok cfg) : cfg.Usable := by
  have checked := Config.checked_of_validate valid
  refine ⟨checked.upstreams_ne, checked.specs, ?_⟩
  simp only [validate, bind_ok, pure, Except.pure, Except.ok.injEq] at valid
  obtain ⟨_, -, _, -, _, -, _, -, _, -, _, -, _, -, _, -, _, -, _, strategy, _, -, _, -, _, -, _, -,
    _, -, rfl⟩ := valid
  exact strategyNew_of_validateStrategyName strategy

theorem MultiConfig.usable_of_validate {mc checked : MultiConfig} (valid : mc.validate = .ok checked) :
    ∀ eff ∈ checked.effectiveGroups, eff.Usable := by
  intro eff member
  obtain ⟨filled, passed⟩ := MultiConfig.valid_effective valid eff member
  obtain ⟨transport, rfl⟩ := (Config.checked_of_validate passed).filled
  obtain ⟨nonempty, specs, strategy⟩ := Config.usable_of_validate passed
  exact ⟨nonempty, specs, strategy⟩

/-- What building a group asks for beyond a config that passes the checks and a name that is free:
a dialer, and upstreams whose IDs differ. -/
def Config.Buildable (client : KubeClient) (cfg : Config) : Prop :=
  (∃ dialer, newFromConfig client cfg = .ok dialer) ∧
    (cfg.upstreams.map UpstreamSpec.upstreamID).Nodup

theorem buildGroup_registered {client : KubeClient} {reg registered : Registry} {cfg : Config}
    {entry : GroupEntry} (named : cfg.groupName ≠ "")
    (built : buildGroup client reg cfg = .ok (entry, registered)) :
    cfg.groupName ∉ reg ∧ registered = cfg.groupName :: reg := by
  simp only [buildGroup, if_neg named, bind_ok, mapError_ok, pure, Except.pure, Except.ok.injEq,
    Prod.mk.injEq] at built
  obtain ⟨_, -, _, -, _, -, _, collectors, _, -, _, -, -, rfl⟩ := built
  unfold metricsNew at collectors
  split at collectors
  · cases collectors
  · rename_i free
    cases collectors
    exact ⟨free, rfl⟩

theorem buildGroup_iff {client : KubeClient} {reg : Registry} {cfg : Config}
    (named : cfg.groupName ≠ "") (usable : cfg.Usable) :
    (∃ made, buildGroup client reg cfg = .ok made) ↔
      cfg.groupName ∉ reg ∧ cfg.Buildable client := by
  obtain ⟨ups, heap, listed, ids⟩ := buildUpstreamsFrom_total usable.specs ⟨fun _ => newState, 0⟩ 0
  obtain ⟨normal, -⟩ := LoadBalancer.normalized_of_built usable.specs listed
  constructor
  · rintro ⟨⟨entry, registered⟩, built⟩
    refine ⟨(buildGroup_registered named built).1, ?_⟩
    simp only [buildGroup, bind_ok, mapError_ok, pure, Except.pure, Except.ok.injEq,
      Prod.mk.injEq] at built
    obtain ⟨⟨ups', heap'⟩, listed', _, -, _, -, _, -, dialer, dialed, lb, made, -⟩ := built
    cases listed.symm.trans listed'
    obtain ⟨pool, replaced, -⟩ := LoadBalancer.new_ok made
    have distinct := (Pool.replace_ok replaced).1
    rw [normal, ids] at distinct
    exact ⟨⟨dialer, dialed⟩, distinct⟩
  · rintro ⟨free, ⟨dialer, dialed⟩, distinct⟩
    obtain ⟨sel, strategy⟩ := usable.strategy
    obtain ⟨pool, replaced⟩ := Pool.empty.exists_replace (normal.symm ▸ ids.symm ▸ distinct)
    have nonempty : ups.isEmpty = false := by
      cases ups with
      | nil => exact absurd (List.map_eq_nil_iff.1 ids.symm) usable.upstreams_ne
      | cons => rfl
    have made : LoadBalancer.new cfg heap ups sel =
        .ok { LoadBalancer.unpublished cfg heap sel with pool } := by
      rw [LoadBalancer.new, LoadBalancer.setUpstreams_eq_ok.2 ⟨pool, replaced, rfl⟩]
      rfl
    refine ⟨(⟨cfg.groupName, { LoadBalancer.unpublished cfg heap sel with pool, dialer }, false⟩,
      cfg.groupName :: reg), ?_⟩
    simp only [buildGroup, if_neg named, bind_ok, mapError_ok, refuse_ok]
    refine ⟨(ups, heap), listed, (), nonempty, sel, strategy, cfg.groupName :: reg, ?_, dialer, dialed,
      _, made, rfl⟩
    rw [metricsNew, if_neg free]

namespace GroupTable

def nameOf (t : GroupTable) (r : EntryRef) : String := (t.entries.get r).name

def Admits (client : KubeClient) (old : GroupTable) (cfg : Config) : Prop :=
  cfg.groupName ∈ old.byName ∨ cfg.groupName ∉ old.registered ∧ cfg.Buildable client

structure Tally (client : KubeClient) (old : GroupTable) (past : List Config)
    (pairs : List (Config × EntryRef)) (t : GroupTable) : Prop where
  part : (pairs.map Prod.fst).Sublist past
  filled : Filled old pairs t
  admitted : ∀ cfg ∈ past, cfg ∈ pairs.map Prod.fst ↔ old.Admits client cfg
  registered : ∀ name, t.registered.count name =
    old.registered.count name + if name ∈ t.byName ∧ name ∉ old.byName then 1 else 0

section

variable {client : KubeClient} {old t : GroupTable} {past : List Config}
  {pairs : List (Config × EntryRef)} {cfg : Config}

theorem Filled.mem_byName (filled : Filled old pairs t) {name : String} :
    name ∈ t.byName ↔ ∃ p ∈ pairs, p.1.groupName = name := by
  rw [← AList.lookup_isSome, Option.isSome_iff_exists]
  constructor
  · rintro ⟨r, found⟩
    obtain ⟨cfg, member, named⟩ := (filled.indexed name r).1 found
    exact ⟨(cfg, r), member, named⟩
  · rintro ⟨⟨cfg, r⟩, member, named⟩
    exact ⟨r, (filled.indexed name r).2 ⟨cfg, member, named⟩⟩

theorem Tally.unlisted (tally : Tally client old past pairs t)
    (unused : ∀ p ∈ pairs, p.1.groupName ≠ cfg.groupName) : cfg.groupName ∉ t.byName := by
  rw [tally.filled.mem_byName]
  rintro ⟨p, member, named⟩
  exact unused p member named

theorem Tally.registered_iff (tally : Tally client old past pairs t)
    (unused : ∀ p ∈ pairs, p.1.groupName ≠ cfg.groupName) :
    cfg.groupName ∈ t.registered ↔ cfg.groupName ∈ old.registered := by
  rw [← List.count_pos_iff, ← List.count_pos_iff, tally.registered,
    if_neg fun both => tally.unlisted unused both.1, Nat.add_zero]

theorem Tally.snoc (tally : Tally client old past pairs t) {t' : GroupTable} {r : EntryRef}
    (unused : ∀ p ∈ pairs, p.1.groupName ≠ cfg.groupName) (fresh : cfg ∉ past)
    (filled : Filled old (pairs ++ [(cfg, r)]) t') (admits : old.Admits client cfg)
    (registered : ∀ name, t'.registered.count name = t.registered.count name +
      if name = cfg.groupName ∧ name ∉ old.byName then 1 else 0) :
    Tally client old (past ++ [cfg]) (pairs ++ [(cfg, r)]) t' := by
  refine ⟨by simpa using tally.part, filled, fun c member => ?_, fun name => ?_⟩
  · rcases List.mem_append.1 member with earlier | last
    · have other : c ≠ cfg := fun same => fresh (same ▸ earlier)
      rw [← tally.admitted c earlier]
      simp [other]
    · cases List.mem_singleton.1 last
      simp [admits]
  · have names : name ∈ t'.byName ↔ name ∈ t.byName ∨ name = cfg.groupName := by
      rw [filled.mem_byName, tally.filled.mem_byName]
      simp [or_and_right, exists_or, eq_comm]
    rw [registered, tally.registered]
    simp only [names]
    by_cases same : name = cfg.groupName
    · simp [same, tally.unlisted unused]
    · simp [same]

theorem Tally.skip (tally : Tally client old past pairs t) (fresh : cfg ∉ past)
    (refused : ¬old.Admits client cfg) : Tally client old (past ++ [cfg]) pairs t := by
  refine ⟨tally.part.trans (List.sublist_append_left _ _), tally.filled, fun c member => ?_,
    tally.registered⟩
  rcases List.mem_append.1 member with earlier | last
  · exact tally.admitted c earlier
  · cases List.mem_singleton.1 last
    exact ⟨fun listed => absurd (tally.part.subset listed) fresh, fun admits => absurd admits refused⟩

theorem Tally.keep (tally : Tally client old past pairs t) {r : EntryRef} {lb : LoadBalancer}
    (unused : ∀ p ∈ pairs, p.1.groupName ≠ cfg.groupName) (fresh : cfg ∉ past)
    (addr : lb.cfg.listenAddr = t.listenAddr r)
    (known : old.byName.lookup cfg.groupName = some r) :
    Tally client old (past ++ [cfg]) (pairs ++ [(cfg, r)])
      ((t.setBalancer r lb).append cfg.groupName r) := by
  have listed : cfg.groupName ∈ old.byName :=
    AList.lookup_isSome.1 (Option.isSome_iff_exists.2 ⟨r, known⟩)
  refine tally.snoc unused fresh (tally.filled.keep addr unused known) (.inl listed) fun name => ?_
  rw [if_neg]
  · rfl
  · rintro ⟨rfl, unlisted⟩
    exact unlisted listed

theorem build_error {why : String} (refused : t.build client cfg = .error why) :
    ¬∃ made, buildGroup client t.registered cfg = .ok made := by
  rintro ⟨made, built⟩
  simp [build, built, Except.map] at refused

theorem Tally.build (tally : Tally client old past pairs t) {t' : GroupTable} {r : EntryRef}
    (named : cfg.groupName ≠ "") (usable : cfg.Usable)
    (unused : ∀ p ∈ pairs, p.1.groupName ≠ cfg.groupName) (fresh : cfg ∉ past)
    (unknown : old.byName.lookup cfg.groupName = none)
    (built : t.build client cfg = .ok (t', r)) :
    Tally client old (past ++ [cfg]) (pairs ++ [(cfg, r)]) t' := by
  obtain ⟨entry, registered, made, same, -⟩ := build_ok built
  obtain ⟨free, buildable⟩ := (buildGroup_iff named usable).1 ⟨_, made⟩
  have unlisted : cfg.groupName ∉ old.byName := AList.lookup_eq_none.1 unknown
  refine tally.snoc unused fresh (tally.filled.build named unknown unused built) (.inr ⟨?_, buildable⟩)
    fun name => ?_
  · rwa [← tally.registered_iff unused]
  · have prefixed : t'.registered = cfg.groupName :: t.registered := by
      rw [same]
      exact (buildGroup_registered named made).2
    rw [prefixed, List.count_cons]
    by_cases equal : name = cfg.groupName
    · simp [equal, unlisted]
    · simp [equal, Ne.symm equal]

theorem Tally.refuse (tally : Tally client old past pairs t) {why : String}
    (named : cfg.groupName ≠ "") (usable : cfg.Usable)
    (unused : ∀ p ∈ pairs, p.1.groupName ≠ cfg.groupName) (fresh : cfg ∉ past)
    (unknown : old.byName.lookup cfg.groupName = none) (refused : t.build client cfg = .error why) :
    Tally client old (past ++ [cfg]) pairs t := by
  refine tally.skip fresh ?_
  rintro (listed | ⟨free, buildable⟩)
  · exact AList.lookup_eq_none.1 unknown listed
  · refine build_error refused ((buildGroup_iff named usable).2 ⟨?_, buildable⟩)
    rwa [tally.registered_iff unused]

theorem Tally.empty (client : KubeClient) (old : GroupTable) :
    Tally client old [] [] { old with groups := [], byName := ∅ } :=
  ⟨.refl _, Filled.empty old, by simp, by simp⟩

end

end GroupTable

namespace Manager

open GroupTable

theorem fresh_of_accepted {effs past rest : List Config} {cfg : Config} (accepted : Accepted effs)
    (split : effs = past ++ cfg :: rest) : cfg ∉ past := by
  have distinct := accepted.names.of_map
  rw [split, List.nodup_append] at distinct
  exact fun member => distinct.2.2 cfg member cfg List.mem_cons_self rfl

theorem tally_of_reloadOne {client : KubeClient} {m : Manager} {effs past rest : List Config}
    {pairs : List (Config × EntryRef)} {cfg : Config} {acc acc' : Reloading} (accepted : Accepted effs)
    (split : effs = past ++ cfg :: rest) (usable : cfg.Usable)
    (tally : Tally client m.toGroupTable past pairs acc.table)
    (taken : reloadOne client m.byName acc cfg = .ok acc') :
    ∃ pairs, Tally client m.toGroupTable (past ++ [cfg]) pairs acc'.table := by
  have named := accepted.named cfg (by simp [split])
  have unused := unused_of_accepted accepted split tally.part
  have fresh := fresh_of_accepted accepted split
  cases round_of_reloadOne taken with
  | kept known addr => exact ⟨_, tally.keep unused fresh addr known⟩
  | failed unknown refused => exact ⟨pairs, tally.refuse named usable unused fresh unknown refused⟩
  | added unknown built => exact ⟨_, tally.build named usable unused fresh unknown built⟩

theorem tally_of_reloadAll {client : KubeClient} {m : Manager} {effs : List Config} {acc : Reloading}
    (accepted : Accepted effs) (usable : ∀ cfg ∈ effs, cfg.Usable)
    (ran : m.reloadAll client effs = .ok acc) :
    ∃ pairs, Tally client m.toGroupTable effs pairs acc.table := by
  refine (List.foldlM_except_invariant
    (P := fun past (acc : Reloading) => ∃ pairs, Tally client m.toGroupTable past pairs acc.table)
    ⟨[], .empty client m.toGroupTable⟩ ?_).1 acc ran
  rintro past cfg rest acc acc' split ⟨pairs, tally⟩ taken
  exact tally_of_reloadOne accepted split (usable cfg (by simp [split])) tally taken

/-- The names under which collectors are registered: those of the groups in force, those of the
groups that are draining, those that a panic has left behind, and those that were there before the
manager. -/
structure Accounted (reg : Registry) (m : Manager) : Prop where
  named : ∀ name r, m.byName.lookup name = some r → r < m.entries.next ∧ m.nameOf r = name
  drains : ∀ r ∈ m.draining, r < m.entries.next
  counted : ∀ name, m.registered.count name = m.byName.keys.count name +
    (m.draining.map m.nameOf).count name + m.leaked.count name + reg.count name

theorem mem_registered {reg : Registry} {m : Manager} (accounted : m.Accounted reg) {name : String} :
    name ∈ m.registered ↔
      name ∈ m.byName ∨ (∃ r ∈ m.draining, m.nameOf r = name) ∨ name ∈ m.leaked ∨ name ∈ reg := by
  rw [← List.count_pos_iff, accounted.counted, AList.mem_keys, ← List.mem_map, ← List.count_pos_iff,
    ← List.count_pos_iff, ← List.count_pos_iff, ← List.count_pos_iff]
  omega

theorem named_of_tally {client : KubeClient} {old t : GroupTable} {past : List Config}
    {pairs : List (Config × EntryRef)} (tally : Tally client old past pairs t)
    (named : ∀ name r, old.byName.lookup name = some r → r < old.entries.next ∧ old.nameOf r = name)
    (name : String) (r : EntryRef) (found : t.byName.lookup name = some r) :
    r < t.entries.next ∧ t.nameOf r = name := by
  obtain ⟨cfg, member, rfl⟩ := (tally.filled.indexed name r).1 found
  cases tally.filled.placed _ member with
  | kept known =>
      obtain ⟨bound, same⟩ := named _ _ known
      have steady := congrArg Prod.fst (tally.filled.steady.read_eq r bound)
      exact ⟨bound.trans_le tally.filled.steady.next_le, steady.trans same⟩
  | added unknown fresh made label => exact ⟨made, congrArg Prod.fst label⟩

theorem nameOf_steady {old t : GroupTable} (steady : old.Steady t) {refs : List EntryRef}
    (bounds : ∀ r ∈ refs, r < old.entries.next) : refs.map t.nameOf = refs.map old.nameOf :=
  List.map_congr_left fun r member => congrArg Prod.fst (steady.read_eq r (bounds r member))

structure Registers (m : Manager) (acc : Reloading) : Prop where
  pending : ∀ r ∈ acc.pendingStarts, r < acc.table.entries.next
  counted : ∀ name, acc.table.registered.count name =
    m.registered.count name + (acc.pendingStarts.map acc.table.nameOf).count name

theorem Registers.steady {m : Manager} {acc acc' : Reloading} (registers : m.Registers acc)
    (steady : acc.table.Steady acc'.table) (registered : acc'.table.registered = acc.table.registered)
    (pendingStarts : acc'.pendingStarts = acc.pendingStarts) : m.Registers acc' := by
  refine ⟨fun r member => ?_, fun name => ?_⟩
  · rw [pendingStarts] at member
    exact (registers.pending r member).trans_le steady.next_le
  · rw [registered, pendingStarts, nameOf_steady steady registers.pending]
    exact registers.counted name

theorem Registers.build {client : KubeClient} {m : Manager} {acc : Reloading} {cfg : Config}
    {table : GroupTable} {entry : EntryRef} (registers : m.Registers acc) (named : cfg.groupName ≠ "")
    (built : acc.table.build client cfg = .ok (table, entry)) :
    m.Registers { acc with table, pendingStarts := acc.pendingStarts ++ [entry] } := by
  obtain ⟨made, registered, answer, rfl, rfl⟩ := build_ok built
  have steady : acc.table.Steady ({ acc.table with
      entries := (acc.table.entries.alloc made).2, registered }.append cfg.groupName
        acc.table.entries.next) := (acc.table.entries.extends_alloc made).keeps
  refine ⟨fun r member => ?_, fun name => ?_⟩
  · rcases List.mem_append.1 member with old | new
    · exact (registers.pending r old).trans_le steady.next_le
    · cases List.mem_singleton.1 new
      exact Nat.lt_succ_self _
  · have label := congrArg Prod.fst (buildGroup_label named answer)
    have collectors : registered = cfg.groupName :: acc.table.registered :=
      (buildGroup_registered named answer).2
    dsimp only
    rw [List.map_append, nameOf_steady steady registers.pending, List.count_append, List.map_singleton]
    simp only [GroupTable.append, nameOf, Heap.get_alloc, if_true, collectors, List.count_cons,
      List.count_nil, registers.counted]
    rw [show made.name = cfg.groupName from label]
    omega

theorem registers_of_panic {client : KubeClient} {m : Manager} {effs : List Config} {acc : Reloading}
    (accepted : Accepted effs) (broken : m.reloadAll client effs = .error acc) : m.Registers acc := by
  have rounds := List.foldlM_except_invariant (f := reloadOne client m.byName) (l := effs)
    (P := fun _ acc => m.Registers acc) (b := m.begin) ⟨nofun, fun _ => rfl⟩ ?_
  · obtain ⟨past, cfg, rest, acc, split, registers, stopped⟩ := rounds.2 acc broken
    cases round_of_reloadOne stopped with
    | panicked known addr => exact registers.steady (acc.table.steady_setBalancer addr) rfl rfl
  · intro past cfg rest acc acc' split registers taken
    cases round_of_reloadOne taken with
    | kept known addr => exact registers.steady (acc.table.steady_setBalancer addr) rfl rfl
    | failed unknown refused => exact registers.steady (Heap.Keeps.refl _) rfl rfl
    | added unknown built => exact registers.build (accepted.named cfg (by simp [split])) built

theorem count_unregister (reg : Registry) (names : List String) (name : String) :
    (names.foldl List.erase reg).count name = reg.count name - names.count name := by
  induction names generalizing reg with
  | nil => simp
  | cons first rest ih =>
      rw [List.foldl_cons, ih, List.count_erase, List.count_cons]
      omega

theorem removed_names {reg : Registry} {m : Manager} (accounted : m.Accounted reg) (acc : Reloading) :
    (m.removed acc).map m.nameOf = m.byName.keys.filter fun name => name ∉ acc.table.byName := by
  rw [removed, List.map_map, AList.keys, List.keys, List.filter_map]
  refine List.map_congr_left fun p member => ?_
  exact (accounted.named p.1 p.2 (AList.mem_lookup_iff.2 (List.mem_filter.1 member).1)).2

theorem count_split (refs : List EntryRef) (name : EntryRef → String) (waited : EntryRef → Bool)
    (key : String) :
    (refs.map name).count key = ((refs.filter waited).map name).count key +
      ((refs.filter fun r => r ∉ refs.filter waited).map name).count key := by
  have rest : (refs.filter fun r => r ∉ refs.filter waited) = refs.filter fun r => !waited r := by
    refine List.filter_congr fun r member => ?_
    simp [member]
  rw [rest, ← List.count_append, ← List.map_append]
  exact ((List.filter_append_perm waited refs).map name).symm.count_eq key

theorem Accounted.counted_install {client : KubeClient} {reg : Registry} {m : Manager}
    {effs : List Config} {acc : Reloading} {pairs : List (Config × EntryRef)}
    (accounted : m.Accounted reg) (tally : Tally client m.toGroupTable effs pairs acc.table)
    {waited late : List String} (name : String)
    (split : ((m.removed acc).map m.nameOf).count name = waited.count name + late.count name) :
    (waited.foldl List.erase acc.table.registered).count name = acc.table.byName.keys.count name +
      ((m.draining.map m.nameOf).count name + late.count name) + m.leaked.count name +
        reg.count name := by
  rw [removed_names accounted] at split
  rw [count_unregister, tally.registered, accounted.counted, m.byName.keys_nodup.count,
    acc.table.byName.keys_nodup.count]
  rw [(m.byName.keys_nodup.filter _).count] at split
  simp only [List.mem_filter, decide_eq_true_eq, ← AList.mem_keys] at split ⊢
  by_cases before : name ∈ m.byName <;> by_cases after : name ∈ acc.table.byName
  all_goals
    simp only [before, after, not_true_eq_false, not_false_eq_true, and_true, and_false, and_self,
      if_true, if_false] at split ⊢
    omega

theorem Accounted.install {client : KubeClient} {reg : Registry} {m : Manager} {effs : List Config}
    {acc : Reloading} {pairs : List (Config × EntryRef)} (accounted : m.Accounted reg)
    (tally : Tally client m.toGroupTable effs pairs acc.table) : (m.install acc).Accounted reg := by
  have steady := tally.filled.steady
  have same : (m.install acc).nameOf = acc.table.nameOf :=
    funext fun r => retire_name acc.table.entries (m.removed acc) r
  have next : (m.install acc).entries.next = acc.table.entries.next := retire_next _ _
  have gone : ∀ r ∈ m.removed acc, r < m.entries.next := by
    intro r member
    obtain ⟨name, known, -⟩ := mem_removed.1 member
    exact (accounted.named name r known).1
  refine ⟨fun name r found => ?_, fun r member => ?_, fun name => ?_⟩
  · rw [next, same]
    exact named_of_tally tally accounted.named name r found
  · rw [next]
    refine lt_of_lt_of_le ?_ steady.next_le
    rcases List.mem_append.1 member with old | late
    · exact accounted.drains r old
    · exact gone r (List.mem_filter.1 late).1
  · obtain ⟨waits, registered, draining⟩ : ∃ waits : EntryRef → Bool,
        (m.install acc).registered = (((m.removed acc).filter waits).map (m.install acc).nameOf).foldl
          List.erase acc.table.registered ∧
        (m.install acc).draining =
          m.draining ++ (m.removed acc).filter fun r => r ∉ (m.removed acc).filter waits :=
      ⟨fun r => acc.pendingStarts.any fun entry =>
        (m.install acc).listenAddr entry == (m.install acc).listenAddr r, List.foldl_map.symm, rfl⟩
    have split := count_split (m.removed acc) (m.install acc).nameOf waits name
    rw [registered, draining, List.map_append, List.count_append, same,
      nameOf_steady steady accounted.drains]
    rw [same, nameOf_steady steady gone] at split
    exact accounted.counted_install tally name split

theorem tally_of_newManager {client : KubeClient} {mc : MultiConfig} {cfgPath : String}
    {reg : Registry} {m : Manager} (made : newManager client mc cfgPath reg = .ok m) :
    ∃ effs pairs table, Accepted effs ∧ Tally client (GroupTable.empty reg) effs pairs table ∧
      m = { table with cfgPath, started := false, launched := [], draining := [], leaked := [] } := by
  simp only [newManager, bind_ok, mapError_ok, pure, Except.pure, Except.ok.injEq] at made
  obtain ⟨checked, valid, table, built, rfl⟩ := made
  have accepted := MultiConfig.accepted_of_validate valid
  have usable := MultiConfig.usable_of_validate valid
  have tally : ∃ pairs, Tally client (GroupTable.empty reg) checked.effectiveGroups pairs table := by
    refine (List.foldlM_except_invariant
      (P := fun past t => ∃ pairs, Tally client (GroupTable.empty reg) past pairs t)
      ⟨[], Tally.empty client (GroupTable.empty reg)⟩ ?_).1 table built
    rintro past cfg rest t t' split ⟨pairs, tally⟩ added
    rw [mapError_ok] at added
    cases answer : t.build client cfg with
    | error why => simp [answer, Except.map] at added
    | ok both =>
        rw [answer] at added
        cases added
        have member : cfg ∈ checked.effectiveGroups := by simp [split]
        exact ⟨_, tally.build (accepted.named cfg member) (usable cfg member)
          (unused_of_accepted accepted split tally.part) (fresh_of_accepted accepted split)
          (AList.lookup_empty _) answer⟩
  obtain ⟨pairs, tally⟩ := tally
  exact ⟨_, pairs, table, accepted, tally, rfl⟩

theorem accounted_of_newManager {client : KubeClient} {mc : MultiConfig} {cfgPath : String}
    {reg : Registry} {m : Manager} (made : newManager client mc cfgPath reg = .ok m) :
    m.Accounted reg := by
  obtain ⟨effs, pairs, table, -, tally, rfl⟩ := tally_of_newManager made
  have unnamed : ∀ name r, (GroupTable.empty reg).byName.lookup name = some r →
      r < (GroupTable.empty reg).entries.next ∧ (GroupTable.empty reg).nameOf r = name := by
    simp [GroupTable.empty]
  refine ⟨named_of_tally tally unnamed, by simp, fun name => ?_⟩
  have absent : name ∉ (GroupTable.empty reg).byName := by simp [GroupTable.empty]
  have counted := tally.registered name
  simp only [absent, not_false_eq_true, and_true] at counted
  simp only [List.map_nil, List.count_nil, table.byName.keys_nodup.count, ← AList.mem_keys]
  exact counted.trans (Nat.add_comm _ _)

theorem Accounted.steady {reg : Registry} {m m' : Manager} (accounted : m.Accounted reg)
    (steady : m.toGroupTable.Steady m'.toGroupTable) (byName : m'.byName = m.byName)
    (draining : m'.draining = m.draining) (registered : ∀ name,
      m'.registered.count name + m.leaked.count name = m.registered.count name + m'.leaked.count name) :
    m'.Accounted reg := by
  have same : ∀ r < m.entries.next, m'.nameOf r = m.nameOf r := fun r bound =>
    congrArg Prod.fst (steady.read_eq r bound)
  refine ⟨fun name r found => ?_, fun r member => ?_, fun name => ?_⟩
  · rw [byName] at found
    obtain ⟨bound, named⟩ := accounted.named name r found
    exact ⟨bound.trans_le steady.next_le, (same r bound).trans named⟩
  · rw [draining] at member
    exact (accounted.drains r member).trans_le steady.next_le
  · have counted := accounted.counted name
    have moved := registered name
    rw [byName, draining, nameOf_steady steady accounted.drains]
    omega

theorem Accounted.setBalancer {reg : Registry} {m : Manager} (accounted : m.Accounted reg)
    {r : EntryRef} {lb : LoadBalancer} (addr : lb.cfg.listenAddr = m.listenAddr r) :
    ({ m with toGroupTable := m.toGroupTable.setBalancer r lb } : Manager).Accounted reg :=
  accounted.steady (m.toGroupTable.steady_setBalancer addr) rfl rfl fun _ => rfl

theorem Accounted.abandon {client : KubeClient} {reg : Registry} {m : Manager} {effs : List Config}
    {acc : Reloading} (accounted : m.Accounted reg) (accepted : Accepted effs)
    (broken : m.reloadAll client effs = .error acc) : (m.abandon acc).Accounted reg := by
  refine accounted.steady (steady_abandon accepted broken) rfl rfl fun name => ?_
  have counted := (registers_of_panic accepted broken).counted name
  change acc.table.registered.count name + m.leaked.count name = m.registered.count name +
    (m.leaked ++ acc.pendingStarts.map acc.table.nameOf).count name
  rw [List.count_append]
  omega

theorem Accounted.drained {reg : Registry} {m : Manager} (accounted : m.Accounted reg) {r : EntryRef}
    (drains : r ∈ m.draining) : (m.drained r).Accounted reg := by
  refine ⟨accounted.named, fun q member => accounted.drains q (List.mem_of_mem_erase member),
    fun name => ?_⟩
  have counted := accounted.counted name
  have kept := ((List.perm_cons_erase drains).map m.nameOf).count_eq name
  rw [List.map_cons, List.count_cons] at kept
  change (m.registered.erase (m.nameOf r)).count name = m.byName.keys.count name +
    ((m.draining.erase r).map m.nameOf).count name + m.leaked.count name + reg.count name
  rw [List.count_erase]
  omega

theorem usable_of_loadConfig {m : Manager} {what : String} {file : Except String MultiConfig}
    {effs : List Config} (loaded : m.loadConfig what file = .ok effs) : ∀ cfg ∈ effs, cfg.Usable := by
  simp only [loadConfig, bind_ok, mapError_ok, pure, Except.pure, Except.ok.injEq] at loaded
  obtain ⟨_, -, mc, -, checked, valid, rfl⟩ := loaded
  exact MultiConfig.usable_of_validate valid

theorem Accounted.step {client : KubeClient} {reg : Registry} {m m' : Manager}
    {action : ManagerAction} (accounted : m.Accounted reg)
    (taken : m.step client action = some m') : m'.Accounted reg := by
  cases moved_of_step taken with
  | unmoved => exact accounted
  | started => exact accounted.steady (Heap.Keeps.refl m.entries) rfl rfl fun _ => rfl
  | reloaded loaded all =>
      obtain ⟨pairs, tally⟩ :=
        tally_of_reloadAll (accepted_of_loadConfig loaded) (usable_of_loadConfig loaded) all
      exact accounted.install tally
  | panicked loaded broken => exact accounted.abandon (accepted_of_loadConfig loaded) broken
  | served addr => exact accounted.setBalancer addr
  | drained drains => exact accounted.drained drains

/-- The index has exactly the groups of the file, and the list has them in its order. -/
structure Follows (m : Manager) (effs : List Config) : Prop where
  keys : ∀ name, name ∈ m.byName ↔ name ∈ effs.map (·.groupName)
  groups : m.groups.map some = effs.map fun cfg => m.byName.lookup cfg.groupName

theorem follows_of_tally {client : KubeClient} {m : Manager} {effs : List Config} {acc : Reloading}
    {pairs : List (Config × EntryRef)} (accepted : Accepted effs)
    (tally : Tally client m.toGroupTable effs pairs acc.table) :
    (m.install acc).Follows effs ↔ ∀ cfg ∈ effs, m.toGroupTable.Admits client cfg := by
  constructor
  · intro follows cfg member
    obtain ⟨p, placed, same⟩ :=
      tally.filled.mem_byName.1 ((follows.keys _).2 (List.mem_map_of_mem member))
    have inFile : p.1 ∈ effs := tally.part.subset (List.mem_map_of_mem placed)
    have equal : p.1 = cfg := List.inj_on_of_nodup_map accepted.names inFile member same
    exact equal ▸ (tally.admitted p.1 inFile).1 (List.mem_map_of_mem placed)
  · intro admits
    have all : effs ⊆ pairs.map Prod.fst := fun cfg member =>
      (tally.admitted cfg member).2 (admits cfg member)
    have distinct : effs.Nodup := accepted.names.of_map
    have whole : pairs.map Prod.fst = effs :=
      tally.part.eq_of_length_le (distinct.subperm all).length_le
    refine ⟨fun name => ?_, ?_⟩
    · rw [← whole, List.map_map]
      exact tally.filled.mem_byName.trans List.mem_map.symm
    · rw [← whole, List.map_map]
      change acc.table.groups.map some = _
      rw [tally.filled.groups, List.map_map]
      refine List.map_congr_left fun p placed => ?_
      exact ((tally.filled.indexed _ _).2 ⟨p.1, placed, rfl⟩).symm

theorem finish_panic_iff {m : Manager} {out : Except Reloading Reloading} :
    (m.finish out).2 = .panic ↔ ∃ acc, out = .error acc := by
  cases out with
  | ok acc => cases err : acc.lastErr <;> simp [finish, err]
  | error acc => simp [finish]

theorem buildable_direct {client : KubeClient} {cfg : Config}
    (direct : cfg.transport.type = .unset ∨ cfg.transport.type = .direct) :
    cfg.Buildable client ↔ (cfg.upstreams.map UpstreamSpec.upstreamID).Nodup := by
  refine and_iff_right ?_
  unfold newFromConfig
  rcases direct with direct | direct
  · rw [direct]
    exact ⟨_, rfl⟩
  · rw [direct]
    exact ⟨_, rfl⟩

end Manager

end S5lb
