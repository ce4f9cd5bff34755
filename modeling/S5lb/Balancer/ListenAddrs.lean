import S5lb.Balancer.Manager
import S5lb.Lib.Fold

namespace S5lb

open Transition

def GroupEntry.label (e : GroupEntry) : String × String × Bool :=
  (e.name, e.lb.cfg.listenAddr, e.retired)

theorem LoadBalancer.reloadFromConfig_listenAddr (client : KubeClient) (lb : LoadBalancer)
    (raw : Config) : (lb.reloadFromConfig client raw).1.cfg.listenAddr = lb.cfg.listenAddr := by
  have reloaded := reloaded_of_reloadFromConfig client lb raw
  generalize (lb.reloadFromConfig client raw).1 = lb' at reloaded ⊢
  generalize (lb.reloadFromConfig client raw).2 = result at reloaded
  cases reloaded with
  | refused unfit states others => rfl
  | @applied filled _ _ _ _ _ _ fit valid built replaced prepared =>
      simpa [prepared] using (prepareGate_immutable lb filled).1
  | @swapped filled _ _ _ _ _ _ _ _ fit valid built replaced prepared stored =>
      simpa [prepared] using (prepareGate_immutable lb filled).1
  | @panicked filled _ _ _ _ _ _ _ fit valid built replaced prepared stored =>
      simpa [prepared] using (prepareGate_immutable lb filled).1

theorem buildGroup_label {client : KubeClient} {reg registered : Registry} {cfg : Config}
    {entry : GroupEntry} (named : cfg.groupName ≠ "")
    (built : buildGroup client reg cfg = .ok (entry, registered)) :
    entry.label = (cfg.groupName, cfg.listenAddr, false) := by
  simp only [buildGroup, bind_ok, mapError_ok, pure, Except.pure, Except.ok.injEq,
    Prod.mk.injEq] at built
  obtain ⟨⟨ups, heap⟩, -, _, -, sel, -, _, -, dialer, -, lb, made, rfl, -⟩ := built
  obtain ⟨pool, -, rfl⟩ := LoadBalancer.new_ok made
  simp only [GroupEntry.label, if_neg named]
  rfl

namespace Manager

theorem retire_next (entries : Heap GroupEntry) (removed : List EntryRef) :
    (retire entries removed).next = entries.next := by
  induction removed generalizing entries with
  | nil => rfl
  | cons r rest ih => exact ih _

theorem retire_get (entries : Heap GroupEntry) (removed : List EntryRef) (q : EntryRef) :
    (retire entries removed).get q =
      if q ∈ removed then { entries.get q with retired := true } else entries.get q := by
  induction removed generalizing entries with
  | nil => rfl
  | cons r rest ih =>
      refine (ih _).trans ?_
      rw [Heap.get_set]
      by_cases same : q = r
      · subst same
        simp
      · simp [same]

theorem retire_name (entries : Heap GroupEntry) (removed : List EntryRef) (q : EntryRef) :
    ((retire entries removed).get q).name = (entries.get q).name := by
  rw [retire_get]
  split <;> rfl

end Manager

namespace GroupTable

abbrev Steady (before after : GroupTable) : Prop :=
  Heap.Keeps GroupEntry.label before.entries after.entries

theorem steady_setBalancer (t : GroupTable) {r : EntryRef} {lb : LoadBalancer}
    (same : lb.cfg.listenAddr = t.listenAddr r) : t.Steady (t.setBalancer r lb) := by
  apply Heap.keeps_set
  simp only [GroupEntry.label, same, listenAddr]

inductive Placed (old : GroupTable) (entries : Heap GroupEntry) (cfg : Config) (r : EntryRef) : Prop
  | kept (known : old.byName.lookup cfg.groupName = some r)
  | added (unknown : old.byName.lookup cfg.groupName = none) (fresh : old.entries.next ≤ r)
      (made : r < entries.next)
      (label : (entries.get r).label = (cfg.groupName, cfg.listenAddr, false))

theorem Placed.steady {old : GroupTable} {entries entries' : Heap GroupEntry} {cfg : Config}
    {r : EntryRef} (placed : Placed old entries cfg r)
    (steady : Heap.Keeps GroupEntry.label entries entries') : Placed old entries' cfg r := by
  cases placed with
  | kept known => exact .kept known
  | added unknown fresh made label =>
      exact .added unknown fresh (made.trans_le steady.next_le) ((steady.read_eq r made).trans label)

structure Filled (old : GroupTable) (pairs : List (Config × EntryRef)) (t : GroupTable) : Prop where
  steady : old.Steady t
  groups : t.groups = pairs.map Prod.snd
  placed : ∀ p ∈ pairs, Placed old t.entries p.1 p.2
  indexed : ∀ name r, t.byName.lookup name = some r ↔
    ∃ cfg, (cfg, r) ∈ pairs ∧ cfg.groupName = name
  covers : ∀ r, old.entries.next ≤ r → r < t.entries.next → r ∈ t.groups

theorem Filled.empty (old : GroupTable) : Filled old [] { old with groups := [], byName := ∅ } := by
  refine ⟨Heap.Keeps.refl old.entries, rfl, by simp, by simp, fun r low high => ?_⟩
  exact absurd low (Nat.not_le.2 high)

theorem Filled.append {old t t' : GroupTable} {pairs : List (Config × EntryRef)} {cfg : Config}
    {r : EntryRef} (filled : Filled old pairs t) (steady : t.Steady t') (groups : t'.groups = t.groups)
    (byName : t'.byName = t.byName) (unused : ∀ p ∈ pairs, p.1.groupName ≠ cfg.groupName)
    (placed : Placed old t'.entries cfg r)
    (only : ∀ q, t.entries.next ≤ q → q < t'.entries.next → q = r) :
    Filled old (pairs ++ [(cfg, r)]) (t'.append cfg.groupName r) := by
  refine ⟨filled.steady.trans steady, ?_, ?_, fun name q => ?_, fun q low high => ?_⟩
  · simp [GroupTable.append, groups, filled.groups]
  · intro p member
    rcases List.mem_append.1 member with member | member
    · exact (filled.placed p member).steady steady
    · cases List.mem_singleton.1 member
      exact placed
  · simp only [GroupTable.append, byName, List.mem_append, List.mem_singleton, Prod.mk.injEq]
    by_cases same : name = cfg.groupName
    · subst same
      rw [AList.lookup_insert, Option.some.injEq]
      constructor
      · rintro rfl
        exact ⟨cfg, .inr ⟨rfl, rfl⟩, rfl⟩
      · rintro ⟨cfg', member | ⟨rfl, rfl⟩, named⟩
        · exact absurd named (unused _ member)
        · rfl
    · rw [AList.lookup_insert_ne same, filled.indexed]
      refine exists_congr fun cfg' => ⟨fun ⟨member, named⟩ => ⟨.inl member, named⟩, ?_⟩
      rintro ⟨member | ⟨rfl, rfl⟩, named⟩
      · exact ⟨member, named⟩
      · exact absurd named.symm same
  · simp only [GroupTable.append, groups, List.mem_append, List.mem_singleton]
    rcases Nat.lt_or_ge q t.entries.next with below | above
    · exact .inl (filled.covers q low below)
    · exact .inr (only q above high)

theorem Filled.keep {old t : GroupTable} {pairs : List (Config × EntryRef)} {cfg : Config}
    {r : EntryRef} {lb : LoadBalancer} (filled : Filled old pairs t)
    (addr : lb.cfg.listenAddr = t.listenAddr r) (unused : ∀ p ∈ pairs, p.1.groupName ≠ cfg.groupName)
    (known : old.byName.lookup cfg.groupName = some r) :
    Filled old (pairs ++ [(cfg, r)]) ((t.setBalancer r lb).append cfg.groupName r) :=
  filled.append (t.steady_setBalancer addr) rfl rfl unused (.kept known)
    fun _ low high => absurd low (Nat.not_le.2 high)

theorem build_ok {client : KubeClient} {t t' : GroupTable} {cfg : Config} {r : EntryRef}
    (built : t.build client cfg = .ok (t', r)) :
    ∃ entry registered, buildGroup client t.registered cfg = .ok (entry, registered) ∧
      t' = { t with entries := (t.entries.alloc entry).2, registered }.append cfg.groupName r ∧
      r = t.entries.next := by
  unfold build at built
  cases made : buildGroup client t.registered cfg with
  | error why => simp [made, Except.map] at built
  | ok both =>
      simp only [made, Except.map, Except.ok.injEq, Prod.mk.injEq] at built
      obtain ⟨rfl, rfl⟩ := built
      exact ⟨both.1, both.2, rfl, rfl, rfl⟩

theorem Filled.build {client : KubeClient} {old t t' : GroupTable} {pairs : List (Config × EntryRef)}
    {cfg : Config} {r : EntryRef} (filled : Filled old pairs t) (named : cfg.groupName ≠ "")
    (unknown : old.byName.lookup cfg.groupName = none)
    (unused : ∀ p ∈ pairs, p.1.groupName ≠ cfg.groupName)
    (built : t.build client cfg = .ok (t', r)) :
    Filled old (pairs ++ [(cfg, r)]) t' := by
  obtain ⟨entry, registered, made, rfl, rfl⟩ := build_ok built
  refine filled.append (t.entries.extends_alloc entry).keeps rfl rfl unused ?_ ?_
  · refine .added unknown filled.steady.next_le (Nat.lt_succ_self _) ?_
    rw [Heap.get_alloc, if_pos rfl]
    exact buildGroup_label named made
  · intro q low high
    exact Nat.le_antisymm (Nat.lt_succ_iff.1 high) low

structure Sound (t : GroupTable) : Prop where
  live : ∀ r ∈ t.groups, r < t.entries.next ∧ t.retired r = false
  covers : ∀ r < t.entries.next, t.retired r = false → r ∈ t.groups
  indexed : ∀ name r, t.byName.lookup name = some r ↔ r ∈ t.groups ∧ (t.entries.get r).name = name
  distinct : (t.groups.map t.listenAddr).Nodup

theorem sound_empty (reg : Registry) : (empty reg).Sound :=
  ⟨nofun, nofun, by simp [empty], by simp [empty]⟩

theorem Sound.steady {t t' : GroupTable} (sound : t.Sound) (steady : t.Steady t')
    (next : t'.entries.next = t.entries.next) (groups : t'.groups = t.groups)
    (byName : t'.byName = t.byName) : t'.Sound := by
  have same : ∀ r < t.entries.next, (t'.entries.get r).name = (t.entries.get r).name ∧
      t'.listenAddr r = t.listenAddr r ∧ t'.retired r = t.retired r := by
    intro r bound
    simpa only [GroupEntry.label, Prod.mk.injEq, listenAddr, retired] using steady.read_eq r bound
  refine ⟨fun r member => ?_, fun r bound live => ?_, fun name r => ?_, ?_⟩
  · rw [groups] at member
    obtain ⟨bound, live⟩ := sound.live r member
    exact ⟨next ▸ bound, (same r bound).2.2.trans live⟩
  · rw [next] at bound
    exact groups ▸ sound.covers r bound ((same r bound).2.2.symm.trans live)
  · rw [byName, groups, sound.indexed]
    refine and_congr_right fun member => ?_
    rw [(same r (sound.live r member).1).1]
  · rw [groups, List.map_congr_left fun r member => (same r (sound.live r member).1).2.1]
    exact sound.distinct

/-- No group that is new in the file asks for the address of a group that the file keeps. -/
def Apart (old : GroupTable) (effs : List Config) : Prop :=
  ∀ cfg ∈ effs, old.byName.lookup cfg.groupName = none →
    ∀ other ∈ effs, ∀ r ∈ old.byName.lookup other.groupName, cfg.listenAddr ≠ old.listenAddr r

instance (old : GroupTable) (effs : List Config) : Decidable (old.Apart effs) :=
  inferInstanceAs (Decidable (∀ cfg ∈ effs, _ → ∀ other ∈ effs, ∀ r ∈ _, _))

section

variable {old t : GroupTable} {effs : List Config} {pairs : List (Config × EntryRef)}

theorem Filled.label (sound : old.Sound) (filled : Filled old pairs t) {p : Config × EntryRef}
    (member : p ∈ pairs) : p.2 < t.entries.next ∧ (t.entries.get p.2).name = p.1.groupName ∧
      t.retired p.2 = false ∧
      t.listenAddr p.2 = if old.byName.lookup p.1.groupName = none then p.1.listenAddr
        else old.listenAddr p.2 := by
  cases filled.placed p member with
  | kept known =>
      obtain ⟨listed, name⟩ := (sound.indexed _ _).1 known
      obtain ⟨bound, live⟩ := sound.live _ listed
      have same := filled.steady.read_eq p.2 bound
      simp only [GroupEntry.label, Prod.mk.injEq] at same
      rw [known, if_neg (by simp)]
      exact ⟨bound.trans_le filled.steady.next_le, same.1.trans name, same.2.2.trans live, same.2.1⟩
  | added unknown fresh made label =>
      simp only [GroupEntry.label, Prod.mk.injEq] at label
      rw [if_pos unknown]
      exact ⟨made, label.1, label.2.2, label.2.1⟩

theorem Filled.distinct (sound : old.Sound) (filled : Filled old pairs t) (accepted : Accepted effs)
    (part : (pairs.map Prod.fst).Sublist effs) (apart : old.Apart effs) :
    (t.groups.map t.listenAddr).Nodup := by
  have separate : pairs.Pairwise fun p q =>
      p.1.groupName ≠ q.1.groupName ∧ p.1.listenAddr ≠ q.1.listenAddr := by
    have names := List.pairwise_map.1 accepted.names
    have addrs := List.pairwise_map.1 accepted.addrs
    exact List.pairwise_map.1 ((names.and addrs).sublist part)
  have inFile : ∀ p ∈ pairs, p.1 ∈ effs := fun p member => part.subset (List.mem_map_of_mem member)
  rw [filled.groups, List.map_map]
  refine List.pairwise_map.2 (separate.imp_of_mem fun {p q} memberP memberQ differ => ?_)
  obtain ⟨-, -, -, addrP⟩ := filled.label sound memberP
  obtain ⟨-, -, -, addrQ⟩ := filled.label sound memberQ
  simp only [Function.comp_apply, addrP, addrQ]
  -- two kept groups differ by the old tables, two new ones by the file, and the rest by `apart`
  cases filled.placed p memberP with
  | kept knownP =>
      rw [knownP, if_neg (by simp)]
      cases filled.placed q memberQ with
      | kept knownQ =>
          rw [knownQ, if_neg (by simp)]
          intro same
          obtain ⟨listedP, nameP⟩ := (sound.indexed _ _).1 knownP
          obtain ⟨listedQ, nameQ⟩ := (sound.indexed _ _).1 knownQ
          have equal := List.inj_on_of_nodup_map sound.distinct listedP listedQ same
          exact differ.1 (nameP.symm.trans ((congrArg (fun r => (old.entries.get r).name) equal).trans nameQ))
      | added unknownQ =>
          rw [if_pos unknownQ]
          exact (apart _ (inFile q memberQ) unknownQ _ (inFile p memberP) _ knownP).symm
  | added unknownP =>
      rw [if_pos unknownP]
      cases filled.placed q memberQ with
      | kept knownQ =>
          rw [knownQ, if_neg (by simp)]
          exact apart _ (inFile p memberP) unknownP _ (inFile q memberQ) _ knownQ
      | added unknownQ =>
          rw [if_pos unknownQ]
          exact differ.2

def Gone (old t : GroupTable) (r : EntryRef) : Prop :=
  ∃ name, old.byName.lookup name = some r ∧ name ∉ t.byName

theorem Filled.listed_of_found (filled : Filled old pairs t) {name : String} {r : EntryRef}
    (known : old.byName.lookup name = some r) (present : name ∈ t.byName) : r ∈ t.groups := by
  obtain ⟨q, found⟩ := Option.isSome_iff_exists.1 (AList.lookup_isSome.2 present)
  obtain ⟨cfg, member, rfl⟩ := (filled.indexed _ _).1 found
  cases filled.placed _ member with
  | kept knownQ =>
      cases known.symm.trans knownQ
      exact filled.groups ▸ List.mem_map_of_mem (f := Prod.snd) member
  | added unknown => cases known.symm.trans unknown

theorem Filled.not_gone (sound : old.Sound) (filled : Filled old pairs t) {p : Config × EntryRef}
    (member : p ∈ pairs) : ¬old.Gone t p.2 := by
  rintro ⟨name, known, absent⟩
  obtain ⟨inForce, rfl⟩ := (sound.indexed _ _).1 known
  have same := congrArg Prod.fst (filled.steady.read_eq p.2 (sound.live _ inForce).1)
  have found := (filled.indexed _ _).2 ⟨p.1, member, (filled.label sound member).2.1.symm.trans same⟩
  exact absent (AList.lookup_isSome.1 (Option.isSome_iff_exists.2 ⟨p.2, found⟩))

theorem Filled.listed_of_live (sound : old.Sound) (filled : Filled old pairs t) {r : EntryRef}
    (bound : r < t.entries.next) (live : t.retired r = false) (stays : ¬old.Gone t r) :
    r ∈ t.groups := by
  rcases Nat.lt_or_ge r old.entries.next with before | fresh
  · have same := congrArg (·.2.2) (filled.steady.read_eq r before)
    have known := (sound.indexed _ r).2 ⟨sound.covers r before (same.symm.trans live), rfl⟩
    refine filled.listed_of_found known ?_
    by_contra absent
    exact stays ⟨_, known, absent⟩
  · exact filled.covers r fresh bound

theorem Filled.sound (sound : old.Sound) (filled : Filled old pairs t) (accepted : Accepted effs)
    (part : (pairs.map Prod.fst).Sublist effs) (apart : old.Apart effs) {removed : List EntryRef}
    (gone : ∀ r, r ∈ removed ↔ old.Gone t r) {t' : GroupTable}
    (entries : t'.entries = Manager.retire t.entries removed) (groups : t'.groups = t.groups)
    (byName : t'.byName = t.byName) : t'.Sound := by
  have next : t'.entries.next = t.entries.next := by rw [entries, Manager.retire_next]
  have same : ∀ r, (t'.entries.get r).name = (t.entries.get r).name ∧
      t'.listenAddr r = t.listenAddr r ∧
      (t'.retired r = false ↔ t.retired r = false ∧ ¬old.Gone t r) := by
    intro r
    simp only [listenAddr, retired, entries, Manager.retire_get, ← gone]
    by_cases dropped : r ∈ removed <;> simp [dropped]
  refine ⟨fun r member => ?_, fun r bound live => ?_, fun name r => ?_, ?_⟩
  · rw [groups, filled.groups] at member
    obtain ⟨p, placed, rfl⟩ := List.mem_map.1 member
    obtain ⟨bound, -, live, -⟩ := filled.label sound placed
    exact ⟨next ▸ bound, (same _).2.2.2 ⟨live, filled.not_gone sound placed⟩⟩
  · obtain ⟨live, stays⟩ := (same r).2.2.1 live
    exact groups ▸ filled.listed_of_live sound (next ▸ bound) live stays
  · rw [byName, filled.indexed, (same r).1, groups, filled.groups, List.mem_map]
    constructor
    · rintro ⟨cfg, member, rfl⟩
      exact ⟨⟨_, member, rfl⟩, (filled.label sound member).2.1⟩
    · rintro ⟨⟨p, member, rfl⟩, rfl⟩
      exact ⟨p.1, member, (filled.label sound member).2.1.symm⟩
  · rw [groups, funext fun r => (same r).2.1]
    exact filled.distinct sound accepted part apart

theorem unused_of_accepted {past rest : List Config} {cfg : Config} (accepted : Accepted effs)
    (split : effs = past ++ cfg :: rest) (part : (pairs.map Prod.fst).Sublist past) :
    ∀ p ∈ pairs, p.1.groupName ≠ cfg.groupName := by
  intro p member
  have names := accepted.names
  rw [split, List.map_append, List.map_cons] at names
  exact (List.nodup_append.1 names).2.2 _ (List.mem_map_of_mem (part.subset (List.mem_map_of_mem member)))
    _ List.mem_cons_self

end

end GroupTable

namespace Manager

open GroupTable

structure Sound (m : Manager) : Prop where
  table : m.toGroupTable.Sound
  launched : ∀ r ∈ m.launched, r < m.entries.next

theorem sound_of_newManager {client : KubeClient} {mc : MultiConfig} {cfgPath : String}
    {reg : Registry} {m : Manager} (made : newManager client mc cfgPath reg = .ok m) : m.Sound := by
  simp only [newManager, bind_ok, mapError_ok, pure, Except.pure, Except.ok.injEq] at made
  obtain ⟨checked, valid, table, built, rfl⟩ := made
  have accepted := MultiConfig.accepted_of_validate valid
  have filled : ∃ pairs : List (Config × EntryRef),
      (pairs.map Prod.fst).Sublist checked.effectiveGroups ∧ Filled (empty reg) pairs table := by
    refine (List.foldlM_except_invariant
      (P := fun past t => ∃ pairs : List (Config × EntryRef),
        (pairs.map Prod.fst).Sublist past ∧ Filled (empty reg) pairs t)
      ⟨[], .refl _, Filled.empty (empty reg)⟩ ?_).1 table built
    rintro past cfg rest t t' split ⟨pairs, part, filled⟩ added
    rw [mapError_ok] at added
    cases answer : t.build client cfg with
    | error why => simp [answer, Except.map] at added
    | ok both =>
        rw [answer] at added
        cases added
        have member : cfg ∈ checked.effectiveGroups := by simp [split]
        refine ⟨pairs ++ [(cfg, both.2)], by simpa using part, ?_⟩
        exact filled.build (accepted.named cfg member) (AList.lookup_empty _)
          (unused_of_accepted accepted split part) answer
  obtain ⟨pairs, part, filled⟩ := filled
  -- nothing was there before, so nothing is retired
  have gone : ∀ r, r ∈ ([] : List EntryRef) ↔ (empty reg).Gone table r := by simp [Gone, empty]
  have apart : (empty reg).Apart checked.effectiveGroups := by simp [Apart, empty]
  exact ⟨filled.sound (sound_empty reg) accepted part apart gone rfl rfl rfl, nofun⟩

inductive Round (client : KubeClient) (byName : AList fun _ : String => EntryRef) (acc : Reloading)
    (cfg : Config) : Except Reloading Reloading → Prop
  | kept {existing : EntryRef} {lb : LoadBalancer} {lastErr : Option String}
      (known : byName.lookup cfg.groupName = some existing)
      (addr : lb.cfg.listenAddr = acc.table.listenAddr existing) :
      Round client byName acc cfg (.ok
        ⟨(acc.table.setBalancer existing lb).append cfg.groupName existing, acc.pendingStarts, lastErr⟩)
  | panicked {existing : EntryRef} {lb : LoadBalancer}
      (known : byName.lookup cfg.groupName = some existing)
      (addr : lb.cfg.listenAddr = acc.table.listenAddr existing) :
      Round client byName acc cfg (.error { acc with table := acc.table.setBalancer existing lb })
  | failed {why : String} (unknown : byName.lookup cfg.groupName = none)
      (refused : acc.table.build client cfg = .error why) :
      Round client byName acc cfg (.ok { acc with lastErr := some why })
  | added {table : GroupTable} {entry : EntryRef} (unknown : byName.lookup cfg.groupName = none)
      (built : acc.table.build client cfg = .ok (table, entry)) :
      Round client byName acc cfg (.ok { acc with table, pendingStarts := acc.pendingStarts ++ [entry] })

theorem round_of_reloadOne {client : KubeClient} {byName : AList fun _ : String => EntryRef}
    {acc : Reloading} {cfg : Config} {out : Except Reloading Reloading}
    (taken : reloadOne client byName acc cfg = out) : Round client byName acc cfg out := by
  subst taken
  unfold reloadOne
  cases lookup : byName.lookup cfg.groupName with
  | some existing =>
      have addr := (acc.table.entries.get existing).lb.reloadFromConfig_listenAddr client cfg
      dsimp only
      split
      · exact .kept lookup addr
      · exact .kept lookup addr
      · exact .panicked lookup addr
  | none =>
      cases answer : acc.table.build client cfg with
      | error why => exact .failed lookup answer
      | ok both => exact .added lookup answer

theorem filled_of_rounds {client : KubeClient} {m : Manager} {effs : List Config}
    (accepted : Accepted effs) :
    (∀ acc, m.reloadAll client effs = .ok acc →
      ∃ pairs : List (Config × EntryRef), (pairs.map Prod.fst).Sublist effs ∧
        Filled m.toGroupTable pairs acc.table ∧ ∀ r ∈ acc.pendingStarts, r ∈ acc.table.groups) ∧
    ∀ acc, m.reloadAll client effs = .error acc → m.toGroupTable.Steady acc.table := by
  have rounds := List.foldlM_except_invariant (f := reloadOne client m.byName) (l := effs)
    (P := fun past (acc : Reloading) => ∃ pairs : List (Config × EntryRef),
      (pairs.map Prod.fst).Sublist past ∧ Filled m.toGroupTable pairs acc.table ∧
      ∀ r ∈ acc.pendingStarts, r ∈ acc.table.groups) (b := m.begin)
    ⟨[], .refl _, Filled.empty m.toGroupTable, nofun⟩ ?_
  · refine ⟨rounds.1, fun acc broken => ?_⟩
    obtain ⟨past, cfg, rest, acc, split, ⟨pairs, part, filled, -⟩, stopped⟩ := rounds.2 acc broken
    cases round_of_reloadOne stopped with
    | panicked known addr => exact filled.steady.trans (acc.table.steady_setBalancer addr)
  · rintro past cfg rest acc acc' split ⟨pairs, part, filled, starts⟩ taken
    have unused := unused_of_accepted accepted split part
    cases round_of_reloadOne taken with
    | kept known addr =>
        refine ⟨_, by simpa using part, filled.keep addr unused known, fun r member => ?_⟩
        exact List.mem_append_left _ (starts r member)
    | failed unknown refused =>
        exact ⟨pairs, part.trans (List.sublist_append_left _ _), filled, starts⟩
    | added unknown built =>
        have member : cfg ∈ effs := by simp [split]
        have added := filled.build (accepted.named cfg member) unknown unused built
        refine ⟨_, by simpa using part, added, fun r pending => ?_⟩
        rw [added.groups, List.map_append, ← filled.groups]
        exact List.mem_append.2 ((List.mem_append.1 pending).imp_left (starts r))

theorem filled_of_reloadAll {client : KubeClient} {m : Manager} {effs : List Config} {acc : Reloading}
    (accepted : Accepted effs) (ran : m.reloadAll client effs = .ok acc) :
    ∃ pairs : List (Config × EntryRef), (pairs.map Prod.fst).Sublist effs ∧
      Filled m.toGroupTable pairs acc.table ∧ ∀ r ∈ acc.pendingStarts, r ∈ acc.table.groups :=
  (filled_of_rounds accepted).1 acc ran

theorem steady_abandon {client : KubeClient} {m : Manager} {effs : List Config} {acc : Reloading}
    (accepted : Accepted effs) (broken : m.reloadAll client effs = .error acc) :
    m.toGroupTable.Steady (m.abandon acc).toGroupTable :=
  ⟨le_rfl, ((filled_of_rounds accepted).2 acc broken).read_eq⟩

theorem mem_removed {m : Manager} {acc : Reloading} {r : EntryRef} :
    r ∈ m.removed acc ↔ m.toGroupTable.Gone acc.table r := by
  simp only [removed, List.mem_map, List.mem_filter, decide_eq_true_eq, Gone]
  constructor
  · rintro ⟨⟨name, q⟩, ⟨member, absent⟩, rfl⟩
    exact ⟨name, AList.mem_lookup_iff.2 member, absent⟩
  · rintro ⟨name, known, absent⟩
    exact ⟨⟨name, r⟩, ⟨AList.mem_lookup_iff.1 known, absent⟩, rfl⟩

theorem accepted_of_loadConfig {m : Manager} {what : String} {file : Except String MultiConfig}
    {effs : List Config} (loaded : m.loadConfig what file = .ok effs) : Accepted effs := by
  simp only [loadConfig, bind_ok, mapError_ok, pure, Except.pure, Except.ok.injEq] at loaded
  obtain ⟨_, -, mc, -, checked, valid, rfl⟩ := loaded
  exact MultiConfig.accepted_of_validate valid

theorem reload_loaded {client : KubeClient} {m : Manager} {file : Except String MultiConfig}
    {effs : List Config} (loaded : m.loadConfig "reload" file = .ok effs) :
    m.reload client file = m.finish (m.reloadAll client effs) := by
  rw [Manager.reload, loaded]

inductive Moved (client : KubeClient) (m : Manager) : ManagerAction → Manager → Prop
  | unmoved {action : ManagerAction} : Moved client m action m
  | started : Moved client m .start { m with started := true, launched := m.launched ++ m.groups }
  | reloaded {file : Except String MultiConfig} {effs : List Config} {acc : Reloading}
      (loaded : m.loadConfig "reload" file = .ok effs) (all : m.reloadAll client effs = .ok acc) :
      Moved client m (.reload file) (m.install acc)
  | panicked {file : Except String MultiConfig} {effs : List Config} {acc : Reloading}
      (loaded : m.loadConfig "reload" file = .ok effs) (broken : m.reloadAll client effs = .error acc) :
      Moved client m (.reload file) (m.abandon acc)
  | served {action : ManagerAction} {r : EntryRef} {lb : LoadBalancer}
      (addr : lb.cfg.listenAddr = m.listenAddr r) :
      Moved client m action { m with toGroupTable := m.toGroupTable.setBalancer r lb }
  | drained {r : EntryRef} (drains : r ∈ m.draining) : Moved client m (.drained r) (m.drained r)

theorem moved_of_reload (client : KubeClient) (m : Manager) (file : Except String MultiConfig) :
    Moved client m (.reload file) (m.reload client file).1 := by
  cases loaded : m.loadConfig "reload" file with
  | error why =>
      rw [Manager.reload, loaded]
      exact .unmoved
  | ok effs =>
      rw [reload_loaded loaded]
      cases all : m.reloadAll client effs with
      | ok acc => exact .reloaded loaded all
      | error acc => exact .panicked loaded all

theorem moved_of_reloadGroup (client : KubeClient) (m : Manager) (name : String)
    (file : Except String MultiConfig) :
    Moved client m (.reloadGroup name file) (m.reloadGroup client name file).1 := by
  unfold Manager.reloadGroup
  split
  · exact .unmoved
  · split
    · exact .unmoved
    · exact .unmoved
    · rename_i selected r _ _
      exact .served ((m.entries.get r).lb.reloadFromConfig_listenAddr client selected)

theorem moved_of_step {client : KubeClient} {m m' : Manager} {action : ManagerAction}
    (taken : m.step client action = some m') : Moved client m action m' := by
  cases action with
  | start =>
      cases taken
      unfold Manager.start
      split
      · exact .unmoved
      · exact .started
  | reload file => exact Option.some.inj taken ▸ moved_of_reload client m file
  | reloadGroup name file => exact Option.some.inj taken ▸ moved_of_reloadGroup client m name file
  | drained r =>
      simp only [Manager.step] at taken
      split at taken
      · cases taken
        exact .drained ‹_›
      · cases taken
  | serve r lb =>
      simp only [Manager.step] at taken
      split at taken
      · rename_i same
        cases taken
        exact .served (congrArg Config.listenAddr same)
      · cases taken

def ReloadApart (m : Manager) : ManagerAction → Prop
  | .reload file => ∀ effs, m.loadConfig "reload" file = .ok effs → m.toGroupTable.Apart effs
  | _ => True

theorem Sound.install {client : KubeClient} {m : Manager} {effs : List Config} {acc : Reloading}
    (sound : m.Sound) (accepted : Accepted effs) (apart : m.toGroupTable.Apart effs)
    (ran : m.reloadAll client effs = .ok acc) : (m.install acc).Sound := by
  obtain ⟨pairs, part, filled, starts⟩ := filled_of_reloadAll accepted ran
  have table : (m.install acc).toGroupTable.Sound :=
    filled.sound sound.table accepted part apart (fun _ => mem_removed) rfl rfl rfl
  have earlier : ∀ r ∈ m.launched, r < (m.install acc).entries.next := by
    intro r member
    refine ((sound.launched r member).trans_le filled.steady.next_le).trans_eq ?_
    exact (retire_next _ _).symm
  refine ⟨table, fun r member => ?_⟩
  simp only [Manager.install] at member
  split at member
  · rcases List.mem_append.1 member with old | pending
    · exact earlier r old
    · exact (table.live r (starts r pending)).1
  · exact earlier r member

theorem Sound.setBalancer {m : Manager} (sound : m.Sound) {r : EntryRef} {lb : LoadBalancer}
    (same : lb.cfg.listenAddr = m.listenAddr r) :
    ({ m with toGroupTable := m.toGroupTable.setBalancer r lb } : Manager).Sound :=
  ⟨sound.table.steady (m.toGroupTable.steady_setBalancer same) rfl rfl rfl, sound.launched⟩

theorem Sound.step {client : KubeClient} {m m' : Manager} {action : ManagerAction} (sound : m.Sound)
    (apart : m.ReloadApart action) (taken : m.step client action = some m') : m'.Sound := by
  cases moved_of_step taken with
  | unmoved => exact sound
  | started =>
      refine ⟨sound.table, fun r member => ?_⟩
      rcases List.mem_append.1 member with old | listed
      · exact sound.launched r old
      · exact (sound.table.live r listed).1
  | reloaded loaded all => exact sound.install (accepted_of_loadConfig loaded) (apart _ loaded) all
  | panicked loaded broken =>
      have steady := steady_abandon (accepted_of_loadConfig loaded) broken
      exact ⟨sound.table.steady steady rfl rfl rfl, sound.launched⟩
  | served addr => exact sound.setBalancer addr
  | drained drains =>
      exact ⟨sound.table.steady (Heap.Keeps.refl m.entries) rfl rfl rfl, sound.launched⟩

/-- The groups in force that are not retired listen on different addresses, and whatever group has
been launched is alone on its address for as long as it is not retired. -/
structure Separate (m : Manager) : Prop where
  distinct : ((m.groups.filter fun r => !m.retired r).map m.listenAddr).Nodup
  alone : ∀ r ∈ m.launched, m.retired r = false → ∀ other < m.entries.next,
    m.retired other = false → m.listenAddr other = m.listenAddr r → other = r

theorem Sound.separate {m : Manager} (sound : m.Sound) : m.Separate := by
  refine ⟨?_, fun r member live other bound liveOther same => ?_⟩
  · exact sound.table.distinct.sublist (List.filter_sublist.map _)
  · have listed := sound.table.covers r (sound.launched r member) live
    have listedOther := sound.table.covers other bound liveOther
    exact List.inj_on_of_nodup_map sound.table.distinct listedOther listed same

/-- As long as no reload adds a group on the address of a group it keeps, running groups never share
a listen address. -/
theorem reloads_keep_separate {client : KubeClient} {mc : MultiConfig} {cfgPath : String}
    {reg : Registry} {m₀ m : Manager} (made : newManager client mc cfgPath reg = .ok m₀)
    {trace : List (Manager × ManagerAction)} (exec : Exec (step client) m₀ trace m)
    (guarded : Guarded ReloadApart trace) : m.Separate :=
  Sound.separate (exec.invariant (P := fun _ m => m.Sound) (sound_of_newManager made)
    (fun _ _ _ _ _ sound apart taken => sound.step apart taken) guarded)

def reloadApart (m : Manager) : ManagerAction → Bool
  | .reload file =>
      match m.loadConfig "reload" file with
      | .ok effs => m.toGroupTable.Apart effs
      | .error _ => true
  | _ => true

theorem reloadApart_of_test {m : Manager} {action : ManagerAction}
    (tested : m.reloadApart action = true) : m.ReloadApart action := by
  cases action with
  | reload file =>
      intro effs loaded
      simp only [reloadApart, loaded] at tested
      exact of_decide_eq_true tested
  | _ => trivial

def listening (groups : List (String × String)) : MultiConfig where
  config := LoadBalancer.oneUpstream
  groups := groups.map fun (name, listen) =>
    ⟨name, listen, none, none, none, none, none, none, none, none, none, none, none, none, none, "",
      .other "", .other "", none, none, "", none, none, []⟩

/-- The file moves group `a` and gives its address to a new group `b`; the reload leaves `a` where it
is and launches `b` on the same address. -/
theorem moved_address_taken :
    let file := listening [("a", "127.0.0.1:1081"), ("b", "127.0.0.1:1080")]
    (∃ checked, file.validate = .ok checked) ∧
    ∃ m₀ trace m, newManager noCluster (listening [("a", "127.0.0.1:1080")]) "s5lb.yaml" [] = .ok m₀ ∧
      Exec (step noCluster) m₀ trace m ∧ trace.map Prod.snd = [.start, .reload (.ok file)] ∧
      m.groups = [0, 1] ∧ m.launched = [0, 1] ∧ m.retired 0 = false ∧ m.retired 1 = false ∧
      m.listenAddr 0 = "127.0.0.1:1080" ∧ m.listenAddr 1 = "127.0.0.1:1080" ∧ ¬m.Separate := by
  refine ⟨⟨_, rfl⟩, ?_⟩
  obtain ⟨m₀, trace, m, made, exec, actions, passed⟩ := exec_of_play_made (step noCluster)
    (newManager noCluster (listening [("a", "127.0.0.1:1080")]) "s5lb.yaml" []) id
    [.start, .reload (.ok (listening [("a", "127.0.0.1:1081"), ("b", "127.0.0.1:1080")]))]
    (fun _ _ m => decide (m.groups = [0, 1] ∧ m.launched = [0, 1] ∧ m.retired 0 = false ∧
      m.retired 1 = false ∧ m.listenAddr 0 = "127.0.0.1:1080" ∧ m.listenAddr 1 = "127.0.0.1:1080"))
    (by decide +kernel)
  obtain ⟨groups, launched, live, live', addr, addr'⟩ := of_decide_eq_true passed
  refine ⟨m₀, trace, m, made, exec, actions, groups, launched, live, live', addr, addr', fun separate => ?_⟩
  have distinct := separate.distinct
  simp [groups, live, live', addr, addr'] at distinct

theorem reload_keeps_separate_elsewhere :
    let file := listening [("a", "127.0.0.1:1081"), ("b", "127.0.0.1:1082")]
    ∃ m₀ trace m, newManager noCluster (listening [("a", "127.0.0.1:1080")]) "s5lb.yaml" [] = .ok m₀ ∧
      Exec (step noCluster) m₀ trace m ∧ trace.map Prod.snd = [.start, .reload (.ok file)] ∧
      Guarded ReloadApart trace ∧ m.launched = [0, 1] ∧ m.Separate := by
  obtain ⟨m₀, trace, m, made, exec, actions, passed⟩ := exec_of_play_made (step noCluster)
    (newManager noCluster (listening [("a", "127.0.0.1:1080")]) "s5lb.yaml" []) id
    [.start, .reload (.ok (listening [("a", "127.0.0.1:1081"), ("b", "127.0.0.1:1082")]))]
    (fun _ trace m => (trace.all fun entry => entry.1.reloadApart entry.2) &&
      decide (m.launched = [0, 1]))
    (by decide +kernel)
  obtain ⟨tested, launched⟩ := Bool.and_eq_true_iff.1 passed
  have guarded : Guarded ReloadApart trace := fun entry member =>
    reloadApart_of_test (List.all_eq_true.1 tested entry member)
  exact ⟨m₀, trace, m, made, exec, actions, guarded, of_decide_eq_true launched,
    reloads_keep_separate made exec guarded⟩

end Manager

end S5lb
