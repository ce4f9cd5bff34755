import S5lb.Balancer.Groups

namespace S5lb

open Transition GroupTable

namespace Manager

def startGroupLocked (m : Manager) (g : EntryRef) : Manager :=
  if m.started then { m with launched := m.launched ++ [g] } else m

def prepare (m : Manager) (acc : Reloading) : Manager :=
  { m.install acc with launched := m.launched, groups := m.groups, byName := m.byName }

def publish (m : Manager) (acc : Reloading) : Manager :=
  { m with groups := acc.table.groups, byName := acc.table.byName }

theorem foldl_startGroupLocked (m : Manager) (refs : List EntryRef) :
    refs.foldl startGroupLocked m =
      { m with launched := if m.started then m.launched ++ refs else m.launched } := by
  induction refs generalizing m with
  | nil => simp
  | cons g rest ih =>
      rw [List.foldl_cons, ih, startGroupLocked]
      by_cases started : m.started = true
      · simp [started]
      · simp [started]

/-- The sections of `Reload`, run without interruption, are the reload of the sequential model. -/
theorem prepare_publish (m : Manager) (acc : Reloading) :
    (acc.pendingStarts.foldl startGroupLocked (m.prepare acc)).publish acc = m.install acc := by
  rw [foldl_startGroupLocked]
  rfl

theorem assign_launch {m : Manager} (unstarted : m.started = false) :
    m.groups.foldl startGroupLocked { m with started := true } = m.start := by
  rw [foldl_startGroupLocked]
  simp [start, unstarted]

end Manager

namespace GroupTable

structure Listed (entries : Heap GroupEntry) (groups : List EntryRef)
    (byName : AList fun _ : String => EntryRef) : Prop where
  bounds : ∀ r ∈ groups, r < entries.next
  named : ∀ name r, byName.lookup name = some r → r ∈ groups ∧ (entries.get r).name = name
  distinct : groups.Nodup

theorem Listed.keeps {entries entries' : Heap GroupEntry} {groups : List EntryRef}
    {byName : AList fun _ : String => EntryRef} (listed : Listed entries groups byName)
    (keeps : Heap.Keeps GroupEntry.name entries entries') : Listed entries' groups byName := by
  refine ⟨fun r member => (listed.bounds r member).trans_le keeps.next_le, fun name r found => ?_,
    listed.distinct⟩
  obtain ⟨member, named⟩ := listed.named name r found
  exact ⟨member, (keeps.read_eq r (listed.bounds r member)).trans named⟩

theorem Steady.keeps_name {old t : GroupTable} (steady : old.Steady t) :
    Heap.Keeps GroupEntry.name old.entries t.entries :=
  ⟨steady.next_le, fun r bound => congrArg Prod.fst (steady.read_eq r bound)⟩

theorem Tally.listed {client : KubeClient} {old t : GroupTable} {effs : List Config}
    {pairs : List (Config × EntryRef)} (accepted : Accepted effs)
    (listed : Listed old.entries old.groups old.byName) (tally : Tally client old effs pairs t) :
    Listed t.entries t.groups t.byName := by
  have known : ∀ name r, old.byName.lookup name = some r →
      r < old.entries.next ∧ old.nameOf r = name := by
    intro name r found
    obtain ⟨member, named⟩ := listed.named name r found
    exact ⟨listed.bounds r member, named⟩
  have named := Manager.named_of_tally tally known
  have placed : ∀ p ∈ pairs, p.2 < t.entries.next ∧ t.nameOf p.2 = p.1.groupName := by
    intro p member
    exact named _ _ ((tally.filled.indexed _ _).2 ⟨p.1, member, rfl⟩)
  have names : t.groups.map t.nameOf = (pairs.map Prod.fst).map (·.groupName) := by
    rw [tally.filled.groups, List.map_map, List.map_map]
    exact List.map_congr_left fun p member => (placed p member).2
  refine ⟨fun r member => ?_, fun name r found => ⟨?_, (named name r found).2⟩, ?_⟩
  · rw [tally.filled.groups] at member
    obtain ⟨p, inPairs, rfl⟩ := List.mem_map.1 member
    exact (placed p inPairs).1
  · obtain ⟨cfg, member, -⟩ := (tally.filled.indexed name r).1 found
    rw [tally.filled.groups]
    exact List.mem_map_of_mem (f := Prod.snd) member
  · have distinct := accepted.names.sublist (tally.part.map (·.groupName))
    rw [← names] at distinct
    exact distinct.of_map

end GroupTable

namespace Manager

theorem keeps_retire (entries : Heap GroupEntry) (removed : List EntryRef) :
    Heap.Keeps GroupEntry.name entries (retire entries removed) :=
  ⟨(retire_next entries removed).ge, fun r _ => retire_name entries removed r⟩

structure Starting (m : Manager) (acc : Reloading) : Prop where
  part : acc.pendingStarts.Sublist acc.table.groups
  known : ∀ r ∈ acc.table.groups, r ∉ acc.pendingStarts → ∃ name, m.byName.lookup name = some r
  fresh : ∀ r ∈ acc.pendingStarts, m.entries.next ≤ r
  next_le : m.entries.next ≤ acc.table.entries.next

theorem Starting.round {client : KubeClient} {m : Manager} {acc acc' : Reloading} {cfg : Config}
    (starting : m.Starting acc) (round : Round client m.byName acc cfg (.ok acc')) : m.Starting acc' := by
  cases round with
  | @kept existing lb lastErr known addr =>
      refine ⟨starting.part.trans (List.sublist_append_left _ _), fun r member late => ?_,
        starting.fresh, starting.next_le⟩
      rcases List.mem_append.1 member with earlier | last
      · exact starting.known r earlier late
      · cases List.mem_singleton.1 last
        exact ⟨_, known⟩
  | failed unknown refused => exact ⟨starting.part, starting.known, starting.fresh, starting.next_le⟩
  | added unknown built =>
      obtain ⟨entry, registered, made, rfl, rfl⟩ := build_ok built
      refine ⟨starting.part.append (.refl _), fun r member late => ?_, fun r pending => ?_,
        starting.next_le.trans (Nat.le_succ _)⟩
      · simp only [List.mem_append, List.mem_singleton, not_or] at late
        rcases List.mem_append.1 member with earlier | last
        · exact starting.known r earlier late.1
        · exact absurd (List.mem_singleton.1 last) late.2
      · rcases List.mem_append.1 pending with earlier | last
        · exact starting.fresh r earlier
        · cases List.mem_singleton.1 last
          exact starting.next_le

theorem starting_of_reloadAll {client : KubeClient} {m : Manager} {effs : List Config}
    {acc : Reloading} (ran : m.reloadAll client effs = .ok acc) : m.Starting acc := by
  refine (List.foldlM_except_invariant (P := fun _ acc => m.Starting acc)
    ⟨.refl _, by simp [begin], by simp [begin], le_rfl⟩ ?_).1 acc ran
  intro past cfg rest acc acc' _ starting taken
  exact starting.round (round_of_reloadOne taken)

end Manager

inductive StartPc
  | uncalled
  | assigned
  | entered
  | finished
  deriving DecidableEq

inductive Holder
  | nobody
  | start (rest : List EntryRef)
  | reload (acc : Reloading) (rest : List EntryRef)

def Holder.free : Holder → Bool
  | .nobody => true
  | _ => false

structure LaunchSys where
  manager : Manager
  start : StartPc
  holder : Holder
  waiting : List (List Config)

inductive LaunchAction
  | assign
  | enterStart
  | call (file : Except String MultiConfig)
  | enterReload (i : Nat)
  | launch
  | leave
  | drained (r : EntryRef)
  | serve (r : EntryRef) (lb : LoadBalancer)

namespace LaunchSys

def init (manager : Manager) : LaunchSys := ⟨manager, .uncalled, .nobody, []⟩

def step (client : KubeClient) (s : LaunchSys) : LaunchAction → Option LaunchSys
  | .assign =>
      if s.start = .uncalled then
        some { s with start := .assigned, manager := { s.manager with started := true } }
      else none
  | .enterStart =>
      match s.start, s.holder with
      | .assigned, .nobody =>
          some { s with start := .entered, holder := .start s.manager.groups }
      | _, _ => none
  | .call file =>
      match s.manager.loadConfig "reload" file with
      | .ok effs => some { s with waiting := s.waiting ++ [effs] }
      | .error _ => some s
  | .enterReload i =>
      match s.holder, s.waiting[i]? with
      | .nobody, some effs =>
          match s.manager.reloadAll client effs with
          | .ok acc => some
              { s with
                manager := s.manager.prepare acc
                holder := .reload acc acc.pendingStarts
                waiting := s.waiting.eraseIdx i }
          | .error acc => some
              { s with manager := s.manager.abandon acc, waiting := s.waiting.eraseIdx i }
      | _, _ => none
  | .launch =>
      match s.holder with
      | .start (g :: rest) =>
          some { s with manager := s.manager.startGroupLocked g, holder := .start rest }
      | .reload acc (g :: rest) =>
          some { s with manager := s.manager.startGroupLocked g, holder := .reload acc rest }
      | _ => none
  | .leave =>
      match s.holder with
      | .start [] => some { s with start := .finished, holder := .nobody }
      | .reload acc [] => some { s with manager := s.manager.publish acc, holder := .nobody }
      | _ => none
  | .drained r => (s.manager.step client (.drained r)).map fun manager => { s with manager }
  | .serve r lb => (s.manager.step client (.serve r lb)).map fun manager => { s with manager }

inductive Step (client : KubeClient) (s : LaunchSys) : LaunchAction → LaunchSys → Prop
  | assign (uncalled : s.start = .uncalled) :
      Step client s .assign { s with start := .assigned, manager := { s.manager with started := true } }
  | enterStart (assigned : s.start = .assigned) (free : s.holder = .nobody) :
      Step client s .enterStart { s with start := .entered, holder := .start s.manager.groups }
  | called {file : Except String MultiConfig} {effs : List Config}
      (loaded : s.manager.loadConfig "reload" file = .ok effs) :
      Step client s (.call file) { s with waiting := s.waiting ++ [effs] }
  | refused {file : Except String MultiConfig} : Step client s (.call file) s
  | enterReload {i : Nat} {effs : List Config} {acc : Reloading} (free : s.holder = .nobody)
      (turn : effs ∈ s.waiting) (all : s.manager.reloadAll client effs = .ok acc) :
      Step client s (.enterReload i)
        { s with
          manager := s.manager.prepare acc
          holder := .reload acc acc.pendingStarts
          waiting := s.waiting.eraseIdx i }
  | panicked {i : Nat} {effs : List Config} {acc : Reloading} (free : s.holder = .nobody)
      (turn : effs ∈ s.waiting) (broken : s.manager.reloadAll client effs = .error acc) :
      Step client s (.enterReload i)
        { s with manager := s.manager.abandon acc, waiting := s.waiting.eraseIdx i }
  | startLaunch {g : EntryRef} {rest : List EntryRef} (holds : s.holder = .start (g :: rest)) :
      Step client s .launch { s with manager := s.manager.startGroupLocked g, holder := .start rest }
  | reloadLaunch {acc : Reloading} {g : EntryRef} {rest : List EntryRef}
      (holds : s.holder = .reload acc (g :: rest)) :
      Step client s .launch
        { s with manager := s.manager.startGroupLocked g, holder := .reload acc rest }
  | startLeave (holds : s.holder = .start []) :
      Step client s .leave { s with start := .finished, holder := .nobody }
  | reloadLeave {acc : Reloading} (holds : s.holder = .reload acc []) :
      Step client s .leave { s with manager := s.manager.publish acc, holder := .nobody }
  | drained {r : EntryRef} :
      Step client s (.drained r) { s with manager := s.manager.drained r }
  | served {r : EntryRef} {lb : LoadBalancer} :
      Step client s (.serve r lb)
        { s with manager := { s.manager with toGroupTable := s.manager.toGroupTable.setBalancer r lb } }

theorem step_cases {client : KubeClient} {s s' : LaunchSys} {action : LaunchAction}
    (taken : s.step client action = some s') : Step client s action s' := by
  cases action with
  | assign =>
      simp only [step] at taken
      split at taken
      · cases taken
        exact .assign ‹_›
      · cases taken
  | enterStart =>
      simp only [step] at taken
      split at taken
      · cases taken
        exact .enterStart ‹_› ‹_›
      · cases taken
  | call file =>
      simp only [step] at taken
      split at taken
      · cases taken
        exact .called ‹_›
      · cases taken
        exact .refused
  | enterReload i =>
      simp only [step] at taken
      split at taken
      · rename_i effs free turn
        split at taken
        · cases taken
          exact .enterReload free (List.mem_of_getElem? turn) ‹_›
        · cases taken
          exact .panicked free (List.mem_of_getElem? turn) ‹_›
      · cases taken
  | launch =>
      simp only [step] at taken
      split at taken
      · cases taken
        exact .startLaunch ‹_›
      · cases taken
        exact .reloadLaunch ‹_›
      · cases taken
  | leave =>
      simp only [step] at taken
      split at taken
      · cases taken
        exact .startLeave ‹_›
      · cases taken
        exact .reloadLeave ‹_›
      · cases taken
  | drained r =>
      obtain ⟨manager, moved, rfl⟩ := Option.map_eq_some_iff.1 taken
      simp only [Manager.step] at moved
      split at moved
      · cases moved
        exact .drained
      · cases moved
  | serve r lb =>
      obtain ⟨manager, moved, rfl⟩ := Option.map_eq_some_iff.1 taken
      simp only [Manager.step] at moved
      split at moved
      · cases moved
        exact .served
      · cases moved

structure Reload (s : LaunchSys) (acc : Reloading) (rest : List EntryRef) : Prop where
  listed : Listed s.manager.entries acc.table.groups acc.table.byName
  part : rest.Sublist acc.table.groups
  fresh : ∀ r ∈ rest, r ∉ s.manager.groups
  once : s.start = .finished → ∀ r ∈ acc.table.groups,
    s.manager.launched.count r = if r ∈ rest then 0 else 1

structure Once (s : LaunchSys) : Prop where
  listed : Listed s.manager.entries s.manager.groups s.manager.byName
  accepted : ∀ effs ∈ s.waiting, Accepted effs ∧ ∀ cfg ∈ effs, cfg.Usable
  bounds : ∀ r ∈ s.manager.launched, r < s.manager.entries.next
  begun : s.manager.started = true ↔ s.start ≠ .uncalled
  unlaunched : s.start = .uncalled ∨ s.start = .assigned → s.manager.launched = []
  entered : s.start = .entered ↔ ∃ rest, s.holder = .start rest
  starting : ∀ rest, s.holder = .start rest → s.manager.launched ++ rest = s.manager.groups
  once : s.start = .finished → ∀ r ∈ s.manager.groups, s.manager.launched.count r = 1
  reloading : ∀ acc rest, s.holder = .reload acc rest → s.Reload acc rest

theorem once_init {client : KubeClient} {mc : MultiConfig} {cfgPath : String} {reg : Registry}
    {m₀ : Manager} (made : Manager.newManager client mc cfgPath reg = .ok m₀) : (init m₀).Once := by
  obtain ⟨effs, pairs, table, accepted, tally, rfl⟩ := Manager.tally_of_newManager made
  have empty : Listed (GroupTable.empty reg).entries (GroupTable.empty reg).groups
      (GroupTable.empty reg).byName :=
    ⟨by simp [GroupTable.empty], by simp [GroupTable.empty], List.nodup_nil⟩
  exact ⟨tally.listed accepted empty, by simp [init], by simp [init], by simp [init], fun _ => rfl,
    by simp [init], by simp [init], by simp [init], by simp [init]⟩

def reloadLaunches (s : LaunchSys) : LaunchAction → Bool
  | .launch => match s.holder with
      | .reload _ _ => true
      | _ => false
  | _ => false

/-- A reload launches a group only while `Start` has not assigned `serveErrs` or when it is through. -/
def Orderly (s : LaunchSys) (action : LaunchAction) : Prop :=
  s.reloadLaunches action = true → s.manager.started = false ∨ s.start = .finished

instance (s : LaunchSys) (action : LaunchAction) : Decidable (s.Orderly action) :=
  inferInstanceAs (Decidable (_ → _))

theorem Once.background {s : LaunchSys} (once : s.Once) {manager : Manager}
    (keeps : Heap.Keeps GroupEntry.name s.manager.entries manager.entries)
    (groups : manager.groups = s.manager.groups) (byName : manager.byName = s.manager.byName)
    (started : manager.started = s.manager.started)
    (launched : manager.launched = s.manager.launched) : { s with manager := manager }.Once := by
  refine ⟨?_, once.accepted, ?_, ?_, ?_, once.entered, ?_, ?_, fun acc rest holds => ?_⟩
  · simp only [groups, byName]
    exact once.listed.keeps keeps
  · simp only [launched]
    exact fun r member => (once.bounds r member).trans_le keeps.next_le
  · simp only [started]
    exact once.begun
  · simp only [launched]
    exact once.unlaunched
  · simp only [launched, groups]
    exact once.starting
  · simp only [launched, groups]
    exact once.once
  · have reload := once.reloading acc rest holds
    refine ⟨reload.listed.keeps keeps, reload.part, ?_, ?_⟩
    · simp only [groups]
      exact reload.fresh
    · simp only [launched]
      exact reload.once

theorem Once.enterReload {client : KubeClient} {s : LaunchSys} (once : s.Once) {i : Nat}
    {effs : List Config} {acc : Reloading} (free : s.holder = .nobody) (turn : effs ∈ s.waiting)
    (all : s.manager.reloadAll client effs = .ok acc) :
    Once { s with
      manager := s.manager.prepare acc
      holder := .reload acc acc.pendingStarts
      waiting := s.waiting.eraseIdx i } := by
  obtain ⟨accepted, usable⟩ := once.accepted effs turn
  obtain ⟨pairs, tally⟩ := Manager.tally_of_reloadAll accepted usable all
  have starting := Manager.starting_of_reloadAll all
  have retired := Manager.keeps_retire acc.table.entries (s.manager.removed acc)
  have keeps : Heap.Keeps GroupEntry.name s.manager.entries (s.manager.prepare acc).entries :=
    tally.filled.steady.keeps_name.trans retired
  have fresh : ∀ r ∈ acc.pendingStarts, s.manager.entries.next ≤ r := starting.fresh
  have unentered : s.start ≠ .entered := by
    rw [ne_eq, once.entered, free]
    rintro ⟨rest, holds⟩
    cases holds
  refine ⟨once.listed.keeps keeps, fun e member => once.accepted e (List.mem_of_mem_eraseIdx member),
    fun r member => (once.bounds r member).trans_le keeps.next_le, once.begun, once.unlaunched,
    ⟨fun entered => absurd entered unentered, nofun⟩, nofun, once.once, ?_⟩
  rintro _ _ ⟨⟩
  refine ⟨(tally.listed accepted once.listed).keeps retired, starting.part, fun r pending listed => ?_,
    fun finished r member => ?_⟩
  · exact absurd (once.listed.bounds r listed) (Nat.not_lt.2 (fresh r pending))
  · split
    · rename_i pending
      rw [List.count_eq_zero]
      exact fun earlier => absurd (once.bounds r earlier) (Nat.not_lt.2 (fresh r pending))
    · rename_i kept
      obtain ⟨name, known⟩ := starting.known r member kept
      exact once.once finished r (once.listed.named name r known).1

theorem Once.panicked {client : KubeClient} {s : LaunchSys} (once : s.Once) {i : Nat}
    {effs : List Config} {acc : Reloading} (free : s.holder = .nobody) (turn : effs ∈ s.waiting)
    (broken : s.manager.reloadAll client effs = .error acc) :
    Once { s with manager := s.manager.abandon acc, waiting := s.waiting.eraseIdx i } := by
  have steady := Manager.steady_abandon (once.accepted effs turn).1 broken
  have rest := once.background steady.keeps_name rfl rfl rfl rfl
  refine ⟨rest.listed, fun e member => once.accepted e (List.mem_of_mem_eraseIdx member), rest.bounds,
    rest.begun, rest.unlaunched, rest.entered, rest.starting, rest.once, ?_⟩
  rw [free]
  nofun

theorem Once.startLaunch {s : LaunchSys} (once : s.Once) {g : EntryRef} {rest : List EntryRef}
    (holds : s.holder = .start (g :: rest)) :
    Once { s with manager := s.manager.startGroupLocked g, holder := .start rest } := by
  have entered := once.entered.2 ⟨_, holds⟩
  have begun : s.manager.started = true := by
    rw [once.begun, entered]
    simp
  have launched := once.starting _ holds
  have member : g ∈ s.manager.groups := by
    rw [← launched]
    simp
  rw [Manager.startGroupLocked, if_pos begun]
  refine ⟨once.listed, once.accepted, fun r earlier => ?_, once.begun, by simp [entered],
    by simp [entered], ?_, by simp [entered], nofun⟩
  · rcases List.mem_append.1 earlier with earlier | last
    · exact once.bounds r earlier
    · cases List.mem_singleton.1 last
      exact once.listed.bounds g member
  · rintro _ ⟨⟩
    simpa using launched

theorem Once.reloadLaunch {s : LaunchSys} (once : s.Once) {acc : Reloading} {g : EntryRef}
    {rest : List EntryRef} (holds : s.holder = .reload acc (g :: rest))
    (orderly : s.manager.started = false ∨ s.start = .finished) :
    Once { s with manager := s.manager.startGroupLocked g, holder := .reload acc rest } := by
  have reload := once.reloading _ _ holds
  have unentered : s.start ≠ .entered := by
    rw [ne_eq, once.entered, holds]
    simp
  have part := (List.sublist_cons_self g rest).trans reload.part
  have later : ∀ r ∈ rest, r ∉ s.manager.groups := fun r member =>
    reload.fresh r (List.mem_cons_of_mem _ member)
  unfold Manager.startGroupLocked
  by_cases started : s.manager.started = true
  · have finished : s.start = .finished := by
      rcases orderly with unstarted | finished
      · exact absurd started (by simp [unstarted])
      · exact finished
    have new : g ∉ s.manager.groups := reload.fresh g List.mem_cons_self
    have distinct := List.nodup_cons.1 (reload.listed.distinct.sublist reload.part)
    rw [if_pos started]
    refine ⟨once.listed, once.accepted, fun r earlier => ?_, once.begun, by simp [finished],
      by simp [finished], nofun, fun _ r member => ?_, ?_⟩
    · rcases List.mem_append.1 earlier with earlier | last
      · exact once.bounds r earlier
      · cases List.mem_singleton.1 last
        exact reload.listed.bounds g (reload.part.subset List.mem_cons_self)
    · have other : g ≠ r := fun same => new (same ▸ member)
      simp [once.once finished r member, other]
    · rintro _ _ ⟨⟩
      refine ⟨reload.listed, part, later, fun _ r member => ?_⟩
      have count := reload.once finished r member
      rw [List.count_append, count]
      by_cases same : r = g
      · subst same
        simp [distinct.1]
      · simp [same, Ne.symm same]
  · have uncalled : s.start = .uncalled := by
      by_contra called
      exact started (once.begun.2 called)
    rw [if_neg started]
    refine ⟨once.listed, once.accepted, once.bounds, once.begun, once.unlaunched, by simp [unentered],
      nofun, once.once, ?_⟩
    rintro _ _ ⟨⟩
    exact ⟨reload.listed, part, later, fun finished => by simp [uncalled] at finished⟩

theorem Once.step {client : KubeClient} {s s' : LaunchSys} {action : LaunchAction} (once : s.Once)
    (orderly : s.Orderly action) (taken : s.step client action = some s') : s'.Once := by
  cases step_cases taken with
  | assign uncalled =>
      refine ⟨once.listed, once.accepted, once.bounds, by simp, fun _ => once.unlaunched (.inl uncalled),
        ?_, once.starting, nofun, fun acc rest holds => ?_⟩
      · rw [← once.entered, uncalled]
        simp
      · have reload := once.reloading acc rest holds
        exact ⟨reload.listed, reload.part, reload.fresh, nofun⟩
  | enterStart assigned free =>
      refine ⟨once.listed, once.accepted, once.bounds, ?_, by simp, by simp, ?_, nofun, nofun⟩
      · rw [once.begun, assigned]
        simp
      · rintro rest ⟨⟩
        simp [once.unlaunched (.inr assigned)]
  | called loaded =>
      refine ⟨once.listed, fun effs member => ?_, once.bounds, once.begun, once.unlaunched, once.entered,
        once.starting, once.once, fun acc rest holds => ?_⟩
      · rcases List.mem_append.1 member with earlier | last
        · exact once.accepted effs earlier
        · cases List.mem_singleton.1 last
          exact ⟨Manager.accepted_of_loadConfig loaded, Manager.usable_of_loadConfig loaded⟩
      · have reload := once.reloading acc rest holds
        exact ⟨reload.listed, reload.part, reload.fresh, reload.once⟩
  | refused => exact once
  | enterReload free turn all => exact once.enterReload free turn all
  | panicked free turn broken => exact once.panicked free turn broken
  | startLaunch holds => exact once.startLaunch holds
  | reloadLaunch holds =>
      refine once.reloadLaunch holds (orderly ?_)
      simp [reloadLaunches, holds]
  | startLeave holds =>
      have launched := once.starting [] holds
      rw [List.append_nil] at launched
      have begun : s.manager.started = true := by
        rw [once.begun, once.entered.2 ⟨_, holds⟩]
        simp
      refine ⟨once.listed, once.accepted, once.bounds, by simp [begun], by simp, by simp, nofun,
        fun _ r member => ?_, nofun⟩
      rw [launched]
      exact List.count_eq_one_of_mem once.listed.distinct member
  | reloadLeave holds =>
      have reload := once.reloading _ _ holds
      have unentered : s.start ≠ .entered := by
        rw [ne_eq, once.entered, holds]
        simp
      refine ⟨reload.listed, once.accepted, once.bounds, once.begun, once.unlaunched,
        by simp [unentered], nofun, fun finished r member => ?_, nofun⟩
      have count := reload.once finished r member
      rw [if_neg List.not_mem_nil] at count
      exact count
  | drained => exact once.background (.refl _) rfl rfl rfl rfl
  | served => exact once.background (Heap.keeps_set _ rfl) rfl rfl rfl rfl

/-- From the end of `Start`'s `startOnce` body on, whether or not a `Reload` is running, the `Serve`
of every group in force has been launched exactly once, if no reload launches a group between
`Start`'s assignment of `serveErrs` and the end of that body. -/
theorem groups_served_once {client : KubeClient} {mc : MultiConfig} {cfgPath : String} {reg : Registry}
    {m₀ : Manager} (made : Manager.newManager client mc cfgPath reg = .ok m₀)
    {trace : List (LaunchSys × LaunchAction)} {s : LaunchSys}
    (exec : Exec (step client) (init m₀) trace s) (guarded : Guarded Orderly trace)
    (finished : s.start = .finished) : ∀ r ∈ s.manager.groups, s.manager.launched.count r = 1 := by
  have once : s.Once := exec.invariant (P := fun _ s => s.Once) (once_init made)
    (fun _ _ _ _ _ once orderly taken => once.step orderly taken) guarded
  exact once.once finished

theorem holder_of_free {holder : Holder} (free : holder.free = true) : holder = .nobody := by
  cases holder with
  | nobody => rfl
  | start rest => cases free
  | reload acc rest => cases free

/-- A reload adds group `b` after `Start` has assigned `serveErrs` and before it takes the lock: both
launch it. -/
theorem late_reload_launches_twice :
    let file := Manager.listening [("a", "127.0.0.1:1080"), ("b", "127.0.0.1:1081")]
    ∃ m₀ trace s,
      Manager.newManager noCluster (Manager.listening [("a", "127.0.0.1:1080")]) "s5lb.yaml" [] = .ok m₀ ∧
      Exec (step noCluster) (init m₀) trace s ∧
      trace.map Prod.snd = [.call (.ok file), .assign, .enterReload 0, .launch, .leave, .enterStart,
        .launch, .launch, .leave] ∧
      s.start = .finished ∧ s.waiting = [] ∧ s.holder = .nobody ∧ s.manager.groups = [0, 1] ∧
      s.manager.launched.count 1 = 2 := by
  obtain ⟨m₀, trace, s, made, exec, actions, passed⟩ := exec_of_play_made (step noCluster)
    (Manager.newManager noCluster (Manager.listening [("a", "127.0.0.1:1080")]) "s5lb.yaml" []) init
    [.call (.ok (Manager.listening [("a", "127.0.0.1:1080"), ("b", "127.0.0.1:1081")])), .assign,
      .enterReload 0, .launch, .leave, .enterStart, .launch, .launch, .leave]
    (fun _ _ s => decide (s.start = .finished ∧ s.waiting = [] ∧ s.manager.groups = [0, 1] ∧
      s.manager.launched.count 1 = 2) && s.holder.free)
    (by decide +kernel)
  obtain ⟨facts, free⟩ := Bool.and_eq_true_iff.1 passed
  obtain ⟨finished, returned, groups, twice⟩ := of_decide_eq_true facts
  exact ⟨m₀, trace, s, made, exec, actions, finished, returned, holder_of_free free, groups, twice⟩

/-- Two reloads around `Start`: `b` is added before it and `c` after it. -/
theorem groups_served_once_around :
    ∃ m₀ trace s,
      Manager.newManager noCluster (Manager.listening [("a", "127.0.0.1:1080")]) "s5lb.yaml" [] = .ok m₀ ∧
      Exec (step noCluster) (init m₀) trace s ∧ Guarded Orderly trace ∧ s.start = .finished ∧
      s.manager.groups = [0, 1, 2] ∧ ∀ r ∈ s.manager.groups, s.manager.launched.count r = 1 := by
  obtain ⟨m₀, trace, s, made, exec, actions, passed⟩ := exec_of_play_made (step noCluster)
    (Manager.newManager noCluster (Manager.listening [("a", "127.0.0.1:1080")]) "s5lb.yaml" []) init
    [.call (.ok (Manager.listening [("a", "127.0.0.1:1080"), ("b", "127.0.0.1:1081")])),
      .call (.ok (Manager.listening [("a", "127.0.0.1:1080"), ("b", "127.0.0.1:1081"),
        ("c", "127.0.0.1:1082")])),
      .enterReload 0, .launch, .leave, .assign, .enterStart, .launch, .launch, .leave,
      .enterReload 0, .launch, .leave]
    (fun _ trace s => (trace.all fun entry => decide (entry.1.Orderly entry.2)) &&
      decide (s.start = .finished ∧ s.manager.groups = [0, 1, 2]))
    (by decide +kernel)
  obtain ⟨tested, facts⟩ := Bool.and_eq_true_iff.1 passed
  obtain ⟨finished, groups⟩ := of_decide_eq_true facts
  have guarded : Guarded Orderly trace := fun entry member =>
    of_decide_eq_true (List.all_eq_true.1 tested entry member)
  exact ⟨m₀, trace, s, made, exec, guarded, finished, groups,
    groups_served_once made exec guarded finished⟩

end LaunchSys

end S5lb
