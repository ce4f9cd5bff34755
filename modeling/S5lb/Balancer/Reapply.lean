import S5lb.Balancer.Groups

namespace S5lb

open Transition

/-! The pool made again of the same specs is the pool that was there. -/

theorem Pool.eq_of_upstreams {p q : Pool} (same : p.upstreams = q.upstreams) : p = q := by
  have index : p.byID = q.byID := by
    funext id
    apply Option.ext
    intro u
    rw [p.indexed, q.indexed, same]
  cases p
  cases q
  cases same
  cases index
  rfl

theorem Pool.adopt_bare {old : Pool} {u v : Upstream} (known : v ∈ old.upstreams) (same : v.id = u.id) :
    old.adopt u.bare = { u with state := v.state } ∧ old.adopt u = { u with state := v.state } := by
  have found : old.byID u.id = some v := (old.indexed u.id v).2 ⟨known, same⟩
  have bare : old.byID u.bare.id = some v := found
  exact ⟨by simp only [adopt, bare]; rfl, by simp only [adopt, found]⟩

theorem Pool.replace_again {old new : Pool} {ups ups' : List Upstream}
    (normal : ups.map Upstream.normalizeID = ups) (normal' : ups'.map Upstream.normalizeID = ups')
    (same : ups.map Upstream.bare = ups'.map Upstream.bare)
    (first : Pool.empty.replace ups = .ok old) (second : old.replace ups' = .ok new) : new = old := by
  apply Pool.eq_of_upstreams
  have made : old.upstreams = StableSort.byKey (·.priority) ups := by
    rw [(Pool.replace_ok first).2, normal]
    exact List.map_id _
  have commutes (l : List Upstream) : (StableSort.byKey (·.priority) l).map Upstream.bare =
      StableSort.byKey (·.priority) (l.map Upstream.bare) :=
    (@StableSort.byKey_map _ _ _ _ (·.priority) (·.priority) Upstream.bare (fun _ => rfl) l).symm
  have sorted : (StableSort.byKey (·.priority) ups').map Upstream.bare =
      old.upstreams.map Upstream.bare := by
    rw [made, commutes, commutes, same]
  rw [(Pool.replace_ok second).2, normal', replacement]
  calc (StableSort.byKey (·.priority) ups').map old.adopt
      = ((StableSort.byKey (·.priority) ups').map Upstream.bare).map old.adopt := by
        rw [List.map_map]
        refine List.map_congr_left fun u member => ?_
        have listed : u.bare ∈ old.upstreams.map Upstream.bare := sorted ▸ List.mem_map_of_mem member
        obtain ⟨v, known, equal⟩ := List.mem_map.1 listed
        have named : v.bare.id = u.bare.id := by rw [equal]
        have adopted := adopt_bare (u := u) known named
        exact adopted.2.trans adopted.1.symm
    _ = (old.upstreams.map Upstream.bare).map old.adopt := by rw [sorted]
    _ = old.upstreams := by
        rw [List.map_map]
        exact (List.map_congr_left fun u member => (adopt_bare member rfl).1).trans (List.map_id _)

namespace LoadBalancer

structure MadeOf (client : KubeClient) (cfg : Config) (lb : LoadBalancer) : Prop where
  cfg_eq : lb.cfg = cfg
  specs : ∀ s ∈ cfg.upstreams, s.host ≠ "" ∧ 0 < s.port
  dials : ∃ dialer, newFromConfig client cfg = .ok dialer
  pool : ∃ heap ups after, cfg.buildUpstreams heap = .ok (ups, after) ∧ Pool.empty.replace ups = .ok lb.pool

structure Same (lb lb' : LoadBalancer) : Prop where
  cfg : lb'.cfg = lb.cfg
  pool : lb'.pool = lb.pool
  states : Heap.Extends lb.heap lb'.heap

def Reapplies (lb : LoadBalancer) (raw : Config) : Prop :=
  ∃ filled, raw.validate = .ok filled ∧ (lb.prepareGate (filled.keepImmutable lb.cfg)).1 = lb.cfg

theorem prepareGate_some {lb : LoadBalancer} {newCfg cfg : Config} {g : GateRef} {gates : Heap Gate}
    (prepared : lb.prepareGate newCfg = (cfg, some g, gates)) : cfg ≠ lb.cfg := by
  unfold prepareGate at prepared
  split at prepared
  · rename_i needed
    split at prepared
    · cases prepared
    · cases prepared
      rintro rfl
      rcases needed with differs | differs
      · exact differs rfl
      · exact differs rfl
  · cases prepared

theorem prepareGate_upstreams (lb : LoadBalancer) (newCfg : Config) :
    (lb.prepareGate newCfg).1.upstreams = newCfg.upstreams := by
  unfold prepareGate
  split
  · split <;> rfl
  · rfl

theorem MadeOf.upstreams {client : KubeClient} {cfg filled : Config} {lb : LoadBalancer}
    (made : lb.MadeOf client cfg)
    (same : (lb.prepareGate (filled.keepImmutable lb.cfg)).1 = lb.cfg) :
    filled.upstreams = cfg.upstreams := by
  have kept := lb.prepareGate_upstreams (filled.keepImmutable lb.cfg)
  rw [same, made.cfg_eq] at kept
  exact kept.symm

theorem MadeOf.committable {client : KubeClient} {cfg raw filled : Config} {lb : LoadBalancer}
    (made : lb.MadeOf client cfg) (valid : raw.validate = .ok filled)
    (same : (lb.prepareGate (filled.keepImmutable lb.cfg)).1 = lb.cfg) : raw.Committable client := by
  obtain ⟨heap, ups, after, built, published⟩ := made.pool
  obtain ⟨normal, ids⟩ := normalized_of_built made.specs built
  have distinct := (Pool.replace_ok published).1
  rw [normal, ids] at distinct
  obtain ⟨transport, timeout⟩ := prepareGate_transport lb (filled.keepImmutable lb.cfg)
  rw [same, made.cfg_eq] at transport timeout
  obtain ⟨dialer, dials⟩ := made.dials
  exact ⟨filled, valid, ⟨dialer, (newFromConfig_congr client transport.symm timeout.symm).trans dials⟩,
    made.upstreams same ▸ distinct⟩

theorem MadeOf.reload_same_iff {client : KubeClient} {cfg : Config} {lb : LoadBalancer}
    (made : lb.MadeOf client cfg) (raw : Config) :
    (lb.reloadFromConfig client raw).2 = .ok ∧ lb.Same (lb.reloadFromConfig client raw).1 ↔
      lb.Reapplies raw := by
  have reloaded := reloaded_of_reloadFromConfig client lb raw
  generalize (lb.reloadFromConfig client raw).1 = lb' at reloaded ⊢
  generalize (lb.reloadFromConfig client raw).2 = result at reloaded ⊢
  cases reloaded with
  | refused unfit states others =>
      refine ⟨nofun, ?_⟩
      rintro ⟨filled, valid, same⟩
      exact absurd (made.committable valid same) unfit
  | @applied filled newCfg ups heap pool dialer gates fit valid built replaced prepared =>
      constructor
      · rintro ⟨-, same⟩
        exact ⟨filled, valid, by rw [prepared]; exact same.cfg⟩
      · rintro ⟨filled', valid', same⟩
        cases valid.symm.trans valid'
        obtain ⟨old, before, after, built₀, published⟩ := made.pool
        have sound := (Config.checked_of_validate valid).specs
        have again : pool = lb.pool := Pool.replace_again (normalized_of_built made.specs built₀).1
          (normalized_of_built sound built).1
          ((bare_of_buildUpstreamsFrom built₀).trans
            (made.upstreams same ▸ (bare_of_buildUpstreamsFrom built).symm)) published replaced
        rw [prepared] at same
        exact ⟨rfl, same, again, (built_of_buildUpstreams built).old⟩
  | @swapped filled newCfg ups heap pool dialer gates g gateVal fit valid built replaced prepared stored =>
      refine ⟨fun ⟨_, same⟩ => absurd same.cfg (prepareGate_some prepared), ?_⟩
      rintro ⟨filled', valid', same⟩
      cases valid.symm.trans valid'
      rw [prepared] at same
      exact absurd same (prepareGate_some prepared)
  | @panicked filled newCfg ups heap pool dialer gates g fit valid built replaced prepared stored =>
      refine ⟨nofun, ?_⟩
      rintro ⟨filled', valid', same⟩
      cases valid.symm.trans valid'
      rw [prepared] at same
      exact absurd same (prepareGate_some prepared)

end LoadBalancer

namespace GroupTable

def index (names : List String) (refs : List EntryRef) : AList fun _ : String => EntryRef :=
  (names.zip refs).foldl (fun byName p => byName.insert p.1 p.2) ∅

def reloadAt (client : KubeClient) (t : GroupTable) (p : Config × EntryRef) : GroupTable :=
  (t.setBalancer p.2 ((t.entries.get p.2).lb.reloadFromConfig client p.1).1).append p.1.groupName p.2

section

variable (client : KubeClient)

theorem reloadAt_get (t : GroupTable) (p : Config × EntryRef) (r : EntryRef) :
    ((t.reloadAt client p).entries.get r).lb =
      if r = p.2 then ((t.entries.get p.2).lb.reloadFromConfig client p.1).1 else (t.entries.get r).lb := by
  change ((t.entries.set p.2 _).get r).lb = _
  rw [Heap.get_set]
  split <;> rfl

theorem foldl_reloadAt_groups (pairs : List (Config × EntryRef)) (t : GroupTable) :
    (pairs.foldl (reloadAt client) t).groups = t.groups ++ pairs.map Prod.snd := by
  induction pairs generalizing t with
  | nil => simp
  | cons p rest ih =>
      rw [List.foldl_cons, ih]
      simp [reloadAt, append, setBalancer]

theorem foldl_reloadAt_byName (pairs : List (Config × EntryRef)) (t : GroupTable) :
    (pairs.foldl (reloadAt client) t).byName =
      (pairs.map fun p => (p.1.groupName, p.2)).foldl (fun byName p => byName.insert p.1 p.2) t.byName := by
  induction pairs generalizing t with
  | nil => rfl
  | cons p rest ih => exact ih _

theorem foldl_reloadAt_of_notMem {pairs : List (Config × EntryRef)} {r : EntryRef}
    (other : r ∉ pairs.map Prod.snd) (t : GroupTable) :
    ((pairs.foldl (reloadAt client) t).entries.get r).lb = (t.entries.get r).lb := by
  induction pairs generalizing t with
  | nil => rfl
  | cons p rest ih =>
      rw [List.map_cons, List.mem_cons, not_or] at other
      rw [List.foldl_cons, ih other.2, reloadAt_get, if_neg other.1]

theorem foldl_reloadAt_of_mem {pairs : List (Config × EntryRef)} (apart : (pairs.map Prod.snd).Nodup)
    {p : Config × EntryRef} (member : p ∈ pairs) (t : GroupTable) :
    ((pairs.foldl (reloadAt client) t).entries.get p.2).lb =
      ((t.entries.get p.2).lb.reloadFromConfig client p.1).1 := by
  induction pairs generalizing t with
  | nil => cases member
  | cons q rest ih =>
      rw [List.map_cons, List.nodup_cons] at apart
      rw [List.foldl_cons]
      rcases List.mem_cons.1 member with rfl | member
      · rw [foldl_reloadAt_of_notMem client apart.1, reloadAt_get, if_pos rfl]
      · have other : p.2 ≠ q.2 := fun same => apart.1 (same ▸ List.mem_map_of_mem member)
        rw [ih apart.2 member, reloadAt_get, if_neg other]

end

end GroupTable

namespace Manager

open GroupTable

theorem reloadOne_known_iff {client : KubeClient} {byName : AList fun _ : String => EntryRef}
    {pairs : List (Config × EntryRef)} (known : ∀ p ∈ pairs, byName.lookup p.1.groupName = some p.2)
    (apart : (pairs.map Prod.snd).Nodup) (acc acc' : Reloading) :
    (pairs.map Prod.fst).foldlM (reloadOne client byName) acc = .ok acc' ∧ acc'.lastErr = none ↔
      acc.lastErr = none ∧
        (∀ p ∈ pairs, ((acc.table.entries.get p.2).lb.reloadFromConfig client p.1).2 = .ok) ∧
        acc' = { acc with table := pairs.foldl (reloadAt client) acc.table } := by
  induction pairs generalizing acc with
  | nil =>
      simp only [List.map_nil, List.foldlM_nil, pure, Except.pure, Except.ok.injEq]
      constructor
      · rintro ⟨rfl, fine⟩
        exact ⟨fine, List.forall_mem_nil _, rfl⟩
      · rintro ⟨fine, -, rfl⟩
        exact ⟨rfl, fine⟩
  | cons p rest ih =>
      rw [List.map_cons, List.nodup_cons] at apart
      rw [List.forall_mem_cons] at known
      rw [List.map_cons, List.foldlM_cons]
      have framed : ∀ q ∈ rest, ((acc.table.reloadAt client p).entries.get q.2).lb =
          (acc.table.entries.get q.2).lb := by
        intro q member
        have other : q.2 ≠ p.2 := fun same => apart.1 (same ▸ List.mem_map_of_mem member)
        rw [reloadAt_get, if_neg other]
      cases result : ((acc.table.entries.get p.2).lb.reloadFromConfig client p.1).2 with
      | ok =>
          have taken : reloadOne client byName acc p.1 =
              .ok { acc with table := acc.table.reloadAt client p } := by
            simp only [reloadOne, known.1, result]
            rfl
          rw [taken]
          refine (ih known.2 apart.2 _).trans ?_
          refine and_congr_right fun _ => and_congr ?_ Iff.rfl
          rw [List.forall_mem_cons, result]
          simp only [true_and]
          exact forall₂_congr fun q member => by rw [framed q member]
      | error why =>
          have taken : reloadOne client byName acc p.1 =
              .ok { acc with table := acc.table.reloadAt client p, lastErr := some why } := by
            simp only [reloadOne, known.1, result]
            rfl
          rw [taken]
          refine ⟨fun ran => ?_, fun ⟨_, fine, _⟩ => ?_⟩
          · cases ((ih known.2 apart.2 _).1 ran).1
          · cases result.symm.trans (fine p List.mem_cons_self)
      | panic =>
          obtain ⟨stopped, taken⟩ : ∃ stopped, reloadOne client byName acc p.1 = .error stopped := by
            simp only [reloadOne, known.1, result]
            exact ⟨_, rfl⟩
          rw [taken]
          refine ⟨fun ran => ?_, fun ⟨_, fine, _⟩ => ?_⟩
          · cases ran.1
          · cases result.symm.trans (fine p List.mem_cons_self)

structure Holds (client : KubeClient) (effs : List Config) (m : Manager) : Prop where
  length : m.groups.length = effs.length
  apart : m.groups.Nodup
  byName : m.byName = index (effs.map (·.groupName)) m.groups
  known : ∀ p ∈ (effs.map (·.groupName)).zip m.groups, m.byName.lookup p.1 = some p.2
  made : ∀ p ∈ effs.zip m.groups, (m.entries.get p.2).lb.MadeOf client p.1

structure Same (m m' : Manager) : Prop where
  groups : m'.groups = m.groups
  byName : m'.byName = m.byName
  balancers : ∀ r ∈ m.groups, (m.entries.get r).lb.Same (m'.entries.get r).lb

theorem install_kept {m : Manager} {acc : Reloading} (kept : acc.table.byName = m.byName) :
    (m.install acc).entries = acc.table.entries := by
  have none : m.removed acc = [] := by
    rw [removed, kept, List.filter_eq_nil_iff.2, List.map_nil]
    intro p member
    have listed : p.1 ∈ m.byName := List.mem_keys_of_mem member
    simp [listed]
  unfold install
  simp only [none]
  rfl

theorem finish_eq_ok_iff {m m' : Manager} {out : Except Reloading Reloading} :
    m.finish out = (m', .ok) ↔ ∃ acc, out = .ok acc ∧ m.install acc = m' ∧ acc.lastErr = none := by
  cases out with
  | ok acc => cases err : acc.lastErr <;> simp [finish, err]
  | error acc => simp [finish]

theorem Holds.reload_same_iff {client : KubeClient} {m : Manager} {effs fresh : List Config}
    {file : Except String MultiConfig} (holds : m.Holds client effs)
    (names : fresh.map (·.groupName) = effs.map (·.groupName))
    (loaded : m.loadConfig "reload" file = .ok fresh) :
    (∃ m', m.reload client file = (m', .ok) ∧ m.Same m') ↔
      ∀ p ∈ fresh.zip m.groups, (m.entries.get p.2).lb.Reapplies p.1 := by
  have length : m.groups.length = fresh.length := by
    rw [holds.length, ← List.length_map (f := (·.groupName)), ← names, List.length_map]
  have first : (fresh.zip m.groups).map Prod.fst = fresh := List.map_fst_zip length.ge
  have second : (fresh.zip m.groups).map Prod.snd = m.groups := List.map_snd_zip length.le
  have labels : ((fresh.zip m.groups).map fun p => (p.1.groupName, p.2)) =
      (effs.map (·.groupName)).zip m.groups := by
    rw [← names, List.zip_map_left]
    rfl
  have known : ∀ p ∈ fresh.zip m.groups, m.byName.lookup p.1.groupName = some p.2 := by
    intro p member
    exact holds.known (p.1.groupName, p.2) (labels ▸ List.mem_map_of_mem member)
  have made : ∀ p ∈ fresh.zip m.groups, ∃ cfg, (m.entries.get p.2).lb.MadeOf client cfg := by
    intro p member
    have old : p.2 ∈ (effs.zip m.groups).map Prod.snd := by
      rw [List.map_snd_zip holds.length.le, ← second]
      exact List.mem_map_of_mem member
    obtain ⟨q, there, same⟩ := List.mem_map.1 old
    exact ⟨q.1, same ▸ holds.made q there⟩
  have apart : ((fresh.zip m.groups).map Prod.snd).Nodup := second.symm ▸ holds.apart
  let table := (fresh.zip m.groups).foldl (reloadAt client) m.begin.table
  have kept : table.byName = m.byName := by
    rw [foldl_reloadAt_byName, labels, holds.byName]
    rfl
  have groups : table.groups = m.groups := by
    rw [foldl_reloadAt_groups, second]
    rfl
  have entries : (m.install { m.begin with table }).entries = table.entries := install_kept kept
  have loop := @reloadOne_known_iff client m.byName _ known apart m.begin
  rw [first] at loop
  have verdict : ∀ p ∈ fresh.zip m.groups,
      ((m.entries.get p.2).lb.reloadFromConfig client p.1).2 = .ok ∧
        (m.entries.get p.2).lb.Same (table.entries.get p.2).lb ↔
      (m.entries.get p.2).lb.Reapplies p.1 := by
    intro p member
    obtain ⟨cfg, made⟩ := made p member
    rw [foldl_reloadAt_of_mem client apart member]
    exact made.reload_same_iff p.1
  simp only [reload_loaded loaded, finish_eq_ok_iff]
  constructor
  · rintro ⟨m', ⟨acc, all, rfl, fine⟩, same⟩ p member
    obtain ⟨-, taken, rfl⟩ := (loop acc).1 ⟨all, fine⟩
    have balancer := same.balancers p.2 (second ▸ List.mem_map_of_mem member)
    rw [entries] at balancer
    exact (verdict p member).1 ⟨taken p member, balancer⟩
  · intro reapplies
    obtain ⟨all, fine⟩ := (loop { m.begin with table }).2
      ⟨rfl, fun p member => ((verdict p member).2 (reapplies p member)).1, rfl⟩
    refine ⟨_, ⟨_, all, rfl, fine⟩, groups, kept, fun r member => ?_⟩
    rw [← second] at member
    obtain ⟨p, there, rfl⟩ := List.mem_map.1 member
    rw [entries]
    exact ((verdict p there).2 (reapplies p there)).2

theorem madeOf_of_buildGroup {client : KubeClient} {reg registered : Registry} {cfg : Config}
    {entry : GroupEntry} (usable : cfg.Usable)
    (built : buildGroup client reg cfg = .ok (entry, registered)) : entry.lb.MadeOf client cfg := by
  simp only [buildGroup, bind_ok, mapError_ok, pure, Except.pure, Except.ok.injEq,
    Prod.mk.injEq] at built
  obtain ⟨⟨ups, heap⟩, listed, _, -, sel, -, _, -, dialer, dials, lb, made, rfl, -⟩ := built
  obtain ⟨pool, published, rfl⟩ := LoadBalancer.new_ok made
  exact ⟨rfl, usable.specs, ⟨dialer, dials⟩, _, ups, heap, listed, published⟩

structure Making (client : KubeClient) (reg : Registry) (pairs : List (Config × EntryRef))
    (t : GroupTable) : Prop where
  filled : Filled (GroupTable.empty reg) pairs t
  byName : t.byName = (pairs.map fun p => (p.1.groupName, p.2)).foldl
    (fun byName p => byName.insert p.1 p.2) ∅
  apart : (pairs.map Prod.snd).Nodup
  bound : ∀ p ∈ pairs, p.2 < t.entries.next
  made : ∀ p ∈ pairs, (t.entries.get p.2).lb.MadeOf client p.1

theorem Making.build {client : KubeClient} {reg : Registry} {pairs : List (Config × EntryRef)}
    {t t' : GroupTable} {cfg : Config} {r : EntryRef} (making : Making client reg pairs t)
    (named : cfg.groupName ≠ "") (usable : cfg.Usable)
    (unused : ∀ p ∈ pairs, p.1.groupName ≠ cfg.groupName) (built : t.build client cfg = .ok (t', r)) :
    Making client reg (pairs ++ [(cfg, r)]) t' := by
  have filled := making.filled.build named (AList.lookup_empty _) unused built
  obtain ⟨entry, registered, made, rfl, rfl⟩ := build_ok built
  refine ⟨filled, ?_, ?_, ?_, ?_⟩
  · simp [GroupTable.append, making.byName]
  · rw [List.map_append, List.nodup_append]
    refine ⟨making.apart, List.nodup_singleton _, ?_⟩
    rintro q earlier q' last rfl
    obtain ⟨p, member, rfl⟩ := List.mem_map.1 earlier
    exact absurd (making.bound p member) (by simpa using (List.mem_singleton.1 last).ge)
  · intro p member
    rcases List.mem_append.1 member with member | member
    · exact (making.bound p member).trans (Nat.lt_succ_self _)
    · rw [List.mem_singleton.1 member]
      exact Nat.lt_succ_self _
  · intro p member
    change ((t.entries.alloc entry).2.get p.2).lb.MadeOf client p.1
    rw [Heap.get_alloc]
    rcases List.mem_append.1 member with member | member
    · rw [if_neg (making.bound p member).ne]
      exact making.made p member
    · cases List.mem_singleton.1 member
      rw [if_pos rfl]
      exact madeOf_of_buildGroup usable made

theorem holds_of_newManager {client : KubeClient} {mc : MultiConfig} {cfgPath : String}
    {reg : Registry} {m : Manager} (made : newManager client mc cfgPath reg = .ok m) :
    m.cfgPath = cfgPath ∧ ∃ checked, mc.validate = .ok checked ∧ m.Holds client checked.effectiveGroups := by
  simp only [newManager, bind_ok, mapError_ok, pure, Except.pure, Except.ok.injEq] at made
  obtain ⟨checked, valid, table, built, rfl⟩ := made
  refine ⟨rfl, checked, valid, ?_⟩
  have accepted := MultiConfig.accepted_of_validate valid
  have usable := MultiConfig.usable_of_validate valid
  obtain ⟨pairs, whole, making⟩ : ∃ pairs, pairs.map Prod.fst = checked.effectiveGroups ∧
      Making client reg pairs table := by
    refine (List.foldlM_except_invariant
      (P := fun past t => ∃ pairs, pairs.map Prod.fst = past ∧ Making client reg pairs t)
      ⟨[], rfl, Filled.empty _, rfl, List.nodup_nil, List.forall_mem_nil _, List.forall_mem_nil _⟩
      ?_).1 table built
    rintro past cfg rest t t' split ⟨pairs, whole, making⟩ added
    rw [mapError_ok] at added
    cases answer : t.build client cfg with
    | error why => simp [answer, Except.map] at added
    | ok both =>
        rw [answer] at added
        cases added
        have member : cfg ∈ checked.effectiveGroups := by simp [split]
        refine ⟨_, ?_, making.build (accepted.named cfg member) (usable cfg member)
          (unused_of_accepted accepted split (whole ▸ .refl _)) answer⟩
        rw [List.map_append, whole]
        rfl
  have groups := making.filled.groups
  have pairing : pairs = checked.effectiveGroups.zip table.groups :=
    List.zip_of_prod whole groups.symm
  have labels : (pairs.map fun p => (p.1.groupName, p.2)) =
      (checked.effectiveGroups.map (·.groupName)).zip table.groups := by
    rw [pairing, List.zip_map_left]
    rfl
  refine ⟨?_, ?_, ?_, ?_, ?_⟩
  · change table.groups.length = _
    rw [groups, ← whole, List.length_map, List.length_map]
  · change table.groups.Nodup
    exact groups ▸ making.apart
  · change table.byName = _
    rw [making.byName, labels]
    rfl
  · change ∀ p ∈ (checked.effectiveGroups.map (·.groupName)).zip table.groups,
      table.byName.lookup p.1 = some p.2
    rw [← labels]
    intro q member
    obtain ⟨p, there, rfl⟩ := List.mem_map.1 member
    exact (making.filled.indexed _ _).2 ⟨p.1, there, rfl⟩
  · change ∀ p ∈ checked.effectiveGroups.zip table.groups, (table.entries.get p.2).lb.MadeOf client p.1
    rw [← pairing]
    exact making.made

def Serving (m : Manager) : ManagerAction → Prop
  | .start => True
  | .serve r lb => lb.pool = (m.entries.get r).lb.pool
  | _ => False

theorem Holds.step {client : KubeClient} {effs : List Config} {m m' : Manager} {action : ManagerAction}
    (holds : m.Holds client effs) (serving : m.Serving action)
    (taken : m.step client action = some m') : m'.Holds client effs ∧ m'.cfgPath = m.cfgPath := by
  cases action with
  | start =>
      cases taken
      unfold start
      split
      · exact ⟨holds, rfl⟩
      · exact ⟨⟨holds.length, holds.apart, holds.byName, holds.known, holds.made⟩, rfl⟩
  | serve r lb =>
      simp only [Manager.step] at taken
      split at taken
      · rename_i config
        cases taken
        refine ⟨⟨holds.length, holds.apart, holds.byName, holds.known, fun p member => ?_⟩, rfl⟩
        have made := holds.made p member
        change ((m.entries.set r _).get p.2).lb.MadeOf client p.1
        rw [Heap.get_set]
        split
        · rename_i same
          subst same
          refine ⟨config.trans made.cfg_eq, made.specs, made.dials, ?_⟩
          rw [show lb.pool = _ from serving]
          exact made.pool
        · exact made
      · cases taken
  | reload file => cases serving
  | reloadGroup name file => cases serving
  | drained r => cases serving

end Manager

end S5lb
