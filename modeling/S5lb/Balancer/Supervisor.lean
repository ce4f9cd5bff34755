import S5lb.Balancer.Launch
import S5lb.Balancer.Serve
import S5lb.Go.Chan
import S5lb.Lib.Threads

/-! `Start` supervises the `Serve` goroutines of the groups, while reloads add and remove groups and
others call `Shutdown`. -/

namespace S5lb

open Go Transition Threads GroupTable

namespace Holder

def groups (m : Manager) : Holder → List EntryRef
  | .reload acc _ => acc.table.groups
  | _ => m.groups

def byName (m : Manager) : Holder → AList fun _ : String => EntryRef
  | .reload acc _ => acc.table.byName
  | _ => m.byName

def rest : Holder → List EntryRef
  | .nobody => []
  | .start rest | .reload _ rest => rest

end Holder

namespace LaunchSys

structure Indexed (entries : Heap GroupEntry) (groups : List EntryRef)
    (byName : AList fun _ : String => EntryRef) : Prop where
  listed : Listed entries groups byName
  indexed : ∀ r ∈ groups, ∃ name, byName.lookup name = some r

theorem Indexed.keeps {entries entries' : Heap GroupEntry} {groups : List EntryRef}
    {byName : AList fun _ : String => EntryRef} (inv : Indexed entries groups byName)
    (keeps : Heap.Keeps GroupEntry.name entries entries') : Indexed entries' groups byName :=
  ⟨inv.listed.keeps keeps, inv.indexed⟩

structure Covered (s : LaunchSys) : Prop where
  current : Indexed s.manager.entries s.manager.groups s.manager.byName
  upcoming : Indexed s.manager.entries (s.holder.groups s.manager) (s.holder.byName s.manager)
  accepted : ∀ effs ∈ s.waiting, Accepted effs ∧ ∀ cfg ∈ effs, cfg.Usable
  rest : ∀ r ∈ s.holder.rest, r ∈ s.holder.groups s.manager
  bounds : ∀ r ∈ s.manager.launched, r < s.manager.entries.next
  held : ∀ r ∈ s.manager.launched,
    r ∈ s.holder.groups s.manager ∨ s.manager.retired r = true

theorem indexed_of_tally {client : KubeClient} {old t : GroupTable} {effs : List Config}
    {pairs : List (Config × EntryRef)} (accepted : Accepted effs)
    (listed : Listed old.entries old.groups old.byName) (tally : Tally client old effs pairs t) :
    Indexed t.entries t.groups t.byName := by
  refine ⟨tally.listed accepted listed, fun r member => ?_⟩
  rw [tally.filled.groups] at member
  obtain ⟨p, inPairs, rfl⟩ := List.mem_map.1 member
  exact ⟨p.1.groupName, (tally.filled.indexed _ _).2 ⟨p.1, inPairs, rfl⟩⟩

variable {client : KubeClient} {s s' : LaunchSys} {a : LaunchAction}

theorem covered_init {mc : MultiConfig} {cfgPath : String} {reg : Registry} {m₀ : Manager}
    (made : Manager.newManager client mc cfgPath reg = .ok m₀) : (init m₀).Covered := by
  obtain ⟨effs, pairs, table, accepted, tally, rfl⟩ := Manager.tally_of_newManager made
  have empty : Listed (GroupTable.empty reg).entries (GroupTable.empty reg).groups
      (GroupTable.empty reg).byName :=
    ⟨by simp [GroupTable.empty], by simp [GroupTable.empty], List.nodup_nil⟩
  have indexed := indexed_of_tally accepted empty tally
  exact ⟨indexed, indexed, by simp [init], by simp [init, Holder.rest], by simp [init], by simp [init]⟩

theorem kept_or_removed {m : Manager} {acc : Reloading} {pairs : List (Config × EntryRef)}
    (filled : Filled m.toGroupTable pairs acc.table)
    (indexed : ∀ r ∈ m.groups, ∃ name, m.byName.lookup name = some r) {r : EntryRef}
    (member : r ∈ m.groups) : r ∈ acc.table.groups ∨ r ∈ m.removed acc := by
  obtain ⟨name, found⟩ := indexed r member
  by_cases kept : name ∈ acc.table.byName
  · obtain ⟨r', found'⟩ := Option.isSome_iff_exists.1 (AList.lookup_isSome.2 kept)
    obtain ⟨cfg, inPairs, rfl⟩ := (filled.indexed name r').1 found'
    left
    rw [filled.groups]
    cases filled.placed _ inPairs with
    | kept known =>
        cases known.symm.trans found
        exact List.mem_map_of_mem (f := Prod.snd) inPairs
    | added unknown fresh made label => cases unknown.symm.trans found
  · right
    exact List.mem_map.2 ⟨⟨name, r⟩, List.mem_filter.2 ⟨AList.mem_lookup_iff.1 found, by simpa using kept⟩, rfl⟩

structure Ages (before after : Heap GroupEntry) : Prop where
  keeps : Heap.Keeps GroupEntry.name before after
  retired : ∀ r < before.next, (before.get r).retired = true → (after.get r).retired = true

theorem Ages.refl (entries : Heap GroupEntry) : Ages entries entries := ⟨.refl _, fun _ _ => id⟩

theorem ages_prepare {m : Manager} {acc : Reloading}
    (steady : m.toGroupTable.Steady acc.table) : Ages m.entries (m.prepare acc).entries := by
  refine ⟨steady.keeps_name.trans (Manager.keeps_retire _ _), fun r bound retired => ?_⟩
  have same : (acc.table.entries.get r).retired = (m.entries.get r).retired :=
    congrArg (fun label => label.2.2) (steady.read_eq r bound)
  change ((Manager.retire acc.table.entries (m.removed acc)).get r).retired = true
  rw [Manager.retire_get]
  split
  · rfl
  · exact same.trans retired

theorem ages_of_steady {m m' : Manager} (steady : m.toGroupTable.Steady m'.toGroupTable) :
    Ages m.entries m'.entries := by
  refine ⟨steady.keeps_name, fun r bound retired => ?_⟩
  exact (congrArg (fun label => label.2.2) (steady.read_eq r bound)).trans retired

theorem Covered.steady_of_reloadAll {effs : List Config} {acc : Reloading} (inv : s.Covered)
    (turn : effs ∈ s.waiting) (all : s.manager.reloadAll client effs = .ok acc) :
    ∃ pairs, Tally client s.manager.toGroupTable effs pairs acc.table := by
  obtain ⟨accepted, usable⟩ := inv.accepted effs turn
  exact Manager.tally_of_reloadAll accepted usable all

theorem Covered.ages (inv : s.Covered) (taken : s.step client a = some s') :
    Ages s.manager.entries s'.manager.entries := by
  cases step_cases taken with
  | enterReload free turn all =>
      obtain ⟨pairs, tally⟩ := inv.steady_of_reloadAll turn all
      exact ages_prepare tally.filled.steady
  | panicked free turn broken =>
      exact ages_of_steady (Manager.steady_abandon (inv.accepted _ turn).1 broken)
  | startLaunch holds =>
      rw [Manager.startGroupLocked]
      split <;> exact .refl _
  | reloadLaunch holds =>
      rw [Manager.startGroupLocked]
      split <;> exact .refl _
  | @served r lb =>
      refine ⟨Heap.keeps_set _ rfl, fun q _ retired => ?_⟩
      change ((s.manager.entries.set r { s.manager.entries.get r with lb }).get q).retired = true
      rw [Heap.get_set]
      split
      · rename_i same
        exact same ▸ retired
      · exact retired
  | _ => exact .refl _

theorem Covered.hand {manager : Manager} {start : StartPc} {holder : Holder}
    {waiting : List (List Config)} (inv : s.Covered) (ages : Ages s.manager.entries manager.entries)
    (current : Indexed manager.entries manager.groups manager.byName)
    (upcoming : Indexed manager.entries (holder.groups manager) (holder.byName manager))
    (accepted : ∀ effs ∈ waiting, Accepted effs ∧ ∀ cfg ∈ effs, cfg.Usable)
    (rest : ∀ r ∈ holder.rest, r ∈ holder.groups manager)
    (launched : manager.launched = s.manager.launched)
    (moved : ∀ r ∈ s.holder.groups s.manager, r ∈ holder.groups manager ∨ manager.retired r = true) :
    Covered ⟨manager, start, holder, waiting⟩ := by
  refine ⟨current, upcoming, accepted, rest, fun r member => ?_, fun r member => ?_⟩
  · rw [launched] at member
    exact (inv.bounds r member).trans_le ages.keeps.next_le
  · rw [launched] at member
    rcases inv.held r member with here | retired
    · exact moved r here
    · exact .inr (ages.retired r (inv.bounds r member) retired)

theorem Covered.launch {holder : Holder} {g : EntryRef} (inv : s.Covered)
    (groups : holder.groups s.manager = s.holder.groups s.manager)
    (byName : holder.byName s.manager = s.holder.byName s.manager)
    (rest : s.holder.rest = g :: holder.rest) :
    Covered { s with manager := s.manager.startGroupLocked g, holder } := by
  have member : g ∈ s.holder.groups s.manager := inv.rest g (rest ▸ List.mem_cons_self)
  have later (r : EntryRef) (member : r ∈ holder.rest) : r ∈ holder.groups s.manager :=
    groups ▸ inv.rest r (rest ▸ List.mem_cons_of_mem g member)
  have upcoming : Indexed s.manager.entries (holder.groups s.manager) (holder.byName s.manager) := by
    rw [groups, byName]
    exact inv.upcoming
  rw [Manager.startGroupLocked]
  split
  · have same (launched : List EntryRef) :
        holder.groups { s.manager with launched } = holder.groups s.manager ∧
          holder.byName { s.manager with launched } = holder.byName s.manager := by
      cases holder <;> exact ⟨rfl, rfl⟩
    refine ⟨inv.current, ?_, inv.accepted, ?_, fun r known => ?_, fun r known => ?_⟩
    · rw [(same _).1, (same _).2]
      exact upcoming
    · rw [(same _).1]
      exact later
    · rcases List.mem_append.1 known with earlier | last
      · exact inv.bounds r earlier
      · cases List.mem_singleton.1 last
        exact inv.upcoming.listed.bounds g member
    · rw [(same _).1, groups]
      rcases List.mem_append.1 known with earlier | last
      · exact inv.held r earlier
      · cases List.mem_singleton.1 last
        exact .inl member
  · exact ⟨inv.current, upcoming, inv.accepted, later, inv.bounds, groups ▸ inv.held⟩

theorem Covered.step (inv : s.Covered) (taken : s.step client a = some s') : s'.Covered := by
  have ages := inv.ages taken
  cases step_cases taken with
  | assign uncalled =>
      obtain ⟨manager, start, holder, waiting⟩ := s
      cases holder <;>
        exact inv.hand ages inv.current inv.upcoming inv.accepted inv.rest rfl fun _ => .inl
  | enterStart assigned free =>
      refine inv.hand ages inv.current inv.current inv.accepted (fun _ => id) rfl fun r member => .inl ?_
      rw [free] at member
      exact member
  | called loaded =>
      refine inv.hand ages inv.current inv.upcoming (fun effs member => ?_) inv.rest rfl fun _ => .inl
      rcases List.mem_append.1 member with earlier | last
      · exact inv.accepted effs earlier
      · cases List.mem_singleton.1 last
        exact ⟨Manager.accepted_of_loadConfig loaded, Manager.usable_of_loadConfig loaded⟩
  | refused => exact inv
  | @enterReload i effs acc free turn all =>
      obtain ⟨pairs, tally⟩ := inv.steady_of_reloadAll turn all
      have indexed := indexed_of_tally (inv.accepted effs turn).1 inv.current.listed tally
      have starting := Manager.starting_of_reloadAll all
      refine inv.hand ages (inv.current.keeps ages.keeps)
        (indexed.keeps (Manager.keeps_retire _ _))
        (fun effs member => inv.accepted effs (List.mem_of_mem_eraseIdx member))
        (fun r member => starting.part.subset member) rfl fun r member => ?_
      rw [free] at member
      refine (kept_or_removed tally.filled inv.current.indexed member).imp_right fun removed => ?_
      change ((Manager.retire acc.table.entries (s.manager.removed acc)).get r).retired = true
      rw [Manager.retire_get, if_pos removed]
  | panicked free turn broken =>
      have upcoming := inv.upcoming.keeps ages.keeps
      simp only [free] at upcoming ⊢
      refine inv.hand ages (inv.current.keeps ages.keeps) upcoming
        (fun effs member => inv.accepted effs (List.mem_of_mem_eraseIdx member)) nofun rfl
        fun r member => .inl ?_
      rw [free] at member
      exact member
  | startLaunch holds =>
      exact inv.launch (by rw [holds]; rfl) (by rw [holds]; rfl) (by rw [holds]; rfl)
  | reloadLaunch holds =>
      exact inv.launch (by rw [holds]; rfl) (by rw [holds]; rfl) (by rw [holds]; rfl)
  | startLeave holds =>
      refine inv.hand ages inv.current inv.current inv.accepted nofun rfl fun r member => .inl ?_
      rw [holds] at member
      exact member
  | reloadLeave holds =>
      have upcoming := inv.upcoming
      rw [holds] at upcoming
      refine inv.hand ages upcoming upcoming inv.accepted nofun rfl fun r member => .inl ?_
      rw [holds] at member
      exact member
  | drained =>
      obtain ⟨manager, start, holder, waiting⟩ := s
      cases holder <;>
        exact inv.hand ages inv.current inv.upcoming inv.accepted inv.rest rfl fun _ => .inl
  | served =>
      obtain ⟨manager, start, holder, waiting⟩ := s
      cases holder <;>
        exact inv.hand ages (inv.current.keeps ages.keeps) (inv.upcoming.keeps ages.keeps) inv.accepted
          inv.rest rfl fun _ => .inl

end LaunchSys

structure ServeResult where
  name : String
  err : Option String
  retired : Bool
  deriving DecidableEq

inductive WorkerPc
  | binding
  | accepting
  | exited (err : Option String)
  | sending (result : ServeResult)
  | sent
  deriving DecidableEq

namespace ServeSys

structure Standing (s : ServeSys) : Prop where
  unbound : s.serve = .uncalled ∨ s.serve = .binding → s.listener = .unbound
  bound : s.serve ≠ .uncalled → s.serve ≠ .binding → s.serve ≠ .returned → s.listener ≠ .unbound
  closed : s.listener = .closed → s.canceled = true
  closer : s.closer = .running → s.listener ≠ .unbound
  returned : s.serve = .returned → s.listener = .unbound ∨ s.canceled = true

variable {client : KubeClient} {s s' : ServeSys} {a : ServeAction}

theorem canceled_of_serveStep {input : Input} (taken : s.serveStep input = some s')
    (stops : s'.serve = .returned) :
    s.serve = .binding ∨ s.canceled = true ∨ s.listener = .closed := by
  unfold serveStep at taken
  split at taken
  · cases taken
    cases stops
  · cases taken
    cases stops
  · exact .inl ‹_›
  · cases taken
    cases stops
  · cases taken
    cases stops
  · split at taken
    · cases taken
      cases stops
    · cases taken
  · split at taken
    · exact .inr ‹_›
    · cases taken
      cases stops
  · cases taken
    cases stops
  · split at taken
    · exact .inr (.inl ‹_›)
    · cases taken
  · split at taken
    · cases taken
      cases stops
    · cases taken
      cases stops
  · split at taken <;> cases taken <;> cases stops
  · obtain ⟨⟨gate, pc'⟩, stepped, rfl⟩ := Option.map_eq_some_iff.1 taken
    cases stops
  · cases taken
    cases stops
  · cases taken
    cases stops
  · cases taken
    cases stops
  · cases taken

theorem Standing.serve {input : Input} (inv : s.Standing) (taken : s.serveStep input = some s') :
    s'.Standing := by
  have stops := canceled_of_serveStep taken
  obtain ⟨unbound, bound, closed, closer, returned⟩ := inv
  cases serves_of_serveStep taken with
  | waits moved => cases moved <;> constructor <;> grind
  | bind here => constructor <;> grind
  | probe here => constructor <;> grind
  | watch here => constructor <;> grind
  | acquire here acquired => constructor <;> grind [setGateAt]
  | track here => constructor <;> grind [setTracker]
  | count here => constructor <;> grind
  | go here => constructor <;> grind

theorem Standing.of_eq (inv : s.Standing) (serve : s'.serve = s.serve)
    (listener : s'.listener = s.listener) (closer : s'.closer = s.closer)
    (canceled : s.canceled = true → s'.canceled = true) : s'.Standing := by
  obtain ⟨unbound, bound, closed, watched, returned⟩ := inv
  constructor <;> grind

theorem Standing.step (inv : s.Standing) (taken : s.step client a = some s') : s'.Standing := by
  cases step_cases taken with
  | serve moved => exact inv.serve taken
  | session here moved => cases moved <;> exact inv.of_eq rfl rfl rfl id
  | close =>
      obtain ⟨⟨running, canceled⟩, -⟩ := Option.ite_none_right_eq_some.1 taken
      exact ⟨fun early => absurd (inv.unbound early) (inv.closer running), nofun, fun _ => canceled,
        nofun, fun _ => .inr canceled⟩
  | cancel here => exact inv.of_eq rfl rfl rfl fun _ => rfl
  | _ => exact inv.of_eq rfl rfl rfl id

def stage (why : String) (s : ServeSys) : WorkerPc :=
  match s.serve with
  | .uncalled | .binding => .binding
  | .returned => if s.listener = .unbound then .exited (some why) else .exited none
  | _ => .accepting

/-- Every step of a balancer is one of its goroutine under the supervisor, or none. -/
theorem serve_simulates (why : String) (inv : s.Standing) (taken : s.step client a = some s') :
    s'.stage why = s.stage why ∨
    s.stage why = .binding ∧ (s'.stage why = .accepting ∨ s'.stage why = .exited (some why)) ∨
    s.stage why = .accepting ∧ s.canceled = true ∧ s'.stage why = .exited none := by
  obtain ⟨unbound, bound, closed, closer, returned⟩ := inv
  cases step_cases taken with
  | serve moved =>
      have stops := canceled_of_serveStep taken
      cases moved with
      | waits moved => cases moved <;> grind [stage]
      | bind here => grind [stage]
      | probe here => grind [stage]
      | watch here => grind [stage]
      | acquire here acquired => grind [stage]
      | track here => grind [stage]
      | count here => grind [stage]
      | go here => grind [stage]
  | session here moved =>
      left
      cases moved <;> rfl
  | close =>
      obtain ⟨⟨running, -⟩, -⟩ := Option.ite_none_right_eq_some.1 taken
      have opened := closer running
      grind [stage]
  | _ => exact .inl rfl

theorem standing_of_exec {lb : LoadBalancer} {trace : List (ServeSys × ServeAction)}
    (exec : Exec (step client) (init lb) trace s) : s.Standing := by
  have start : (init lb).Standing :=
    ⟨fun _ => rfl, fun called => absurd rfl called, nofun, nofun, nofun⟩
  exact exec.stable start fun _ _ _ inv taken => inv.step taken

end ServeSys

structure Worker where
  group : EntryRef
  pc : WorkerPc
  deriving DecidableEq

/-- Where a call of `Manager.Shutdown` stands. Of the groups it has read, it has still to shut down
those of `todo`; the `Shutdown` of those of `draining` has begun, that of those of `down` has
returned. -/
inductive StopPc
  | called
  | stopping (todo draining down : List EntryRef)
  | returned (down : List EntryRef)
  deriving DecidableEq

inductive StopEvent
  | snapshot
  | cancel (r : EntryRef)
  | down (r : EntryRef)
  | finish
  deriving DecidableEq

abbrev Cause := Option (Nat × ServeResult)

inductive SupervisorPc
  | starting
  | select
  | stopping (pc : StopPc) (cause : Cause)
  deriving DecidableEq

def SupervisorPc.cause : SupervisorPc → Option Cause
  | .stopping _ cause => some cause
  | _ => none

structure SuperviseSys where
  launch : LaunchSys
  workers : List Worker
  serveErrs : Chan (Nat × ServeResult)
  ctxDone : Bool
  canceled : List EntryRef
  loop : SupervisorPc
  stops : List StopPc

inductive WorkerEvent
  | bind (err : Option String)
  | exit
  | load
  | send
  deriving DecidableEq

inductive SuperviseAction
  | manage (a : LaunchAction)
  | worker (i : Nat) (e : WorkerEvent)
  | cancelRetired (r : EntryRef)
  | cancelCtx
  | enterLoop
  | seeCtx
  | receive
  | callShutdown
  | stop (who : Option Nat) (e : StopEvent)

namespace StopPc

def step (launch : LaunchSys) : StopPc → StopEvent → Option (StopPc × List EntryRef)
  | .called, .snapshot =>
      if launch.holder.free then some (.stopping launch.manager.groups [] [], []) else none
  | .stopping todo draining down, .cancel r =>
      if r ∈ todo then some (.stopping (todo.erase r) (r :: draining) down, [r]) else none
  | .stopping todo draining down, .down r =>
      if r ∈ draining then some (.stopping todo (draining.erase r) (r :: down), []) else none
  | .stopping [] [] down, .finish => some (.returned down, [])
  | _, _ => none

end StopPc

theorem LaunchSys.launched_prefix {client : KubeClient} {s s' : LaunchSys} {a : LaunchAction}
    (taken : s.step client a = some s') : s.manager.launched <+: s'.manager.launched := by
  cases step_cases taken with
  | startLaunch holds =>
      rw [Manager.startGroupLocked]
      split
      · exact List.prefix_append _ _
      · exact List.prefix_refl _
  | reloadLaunch holds =>
      rw [Manager.startGroupLocked]
      split
      · exact List.prefix_append _ _
      · exact List.prefix_refl _
  | _ => exact List.prefix_refl _

namespace SuperviseSys

def init (m : Manager) : SuperviseSys := ⟨.init m, [], .make 64, false, [], .starting, []⟩

def workerStep (s : SuperviseSys) (i : Nat) (w : Worker) : WorkerEvent → Option SuperviseSys
  | .bind err =>
      if w.pc = .binding then
        let pc := match err with
          | none => .accepting
          | some why => .exited (some why)
        some { s with workers := s.workers.set i { w with pc } }
      else none
  | .exit =>
      if w.pc = .accepting ∧ w.group ∈ s.canceled then
        some { s with workers := s.workers.set i { w with pc := .exited none } }
      else none
  | .load =>
      match w.pc with
      | .exited err =>
          let entry := s.launch.manager.entries.get w.group
          some { s with
            workers := s.workers.set i { w with pc := .sending ⟨entry.name, err, entry.retired⟩ } }
      | _ => none
  | .send =>
      match w.pc with
      | .sending result =>
          match s.serveErrs.send (i, result) with
          | some (.ok serveErrs) =>
              some { s with serveErrs, workers := s.workers.set i { w with pc := .sent } }
          | _ => none
      | _ => none

def step (client : KubeClient) (s : SuperviseSys) : SuperviseAction → Option SuperviseSys
  | .manage a =>
      (s.launch.step client a).map fun launch =>
        let new := launch.manager.launched.drop s.launch.manager.launched.length
        { s with launch, workers := s.workers ++ new.map fun group => ⟨group, .binding⟩ }
  | .worker i e => s.workers[i]?.bind fun w => s.workerStep i w e
  | .cancelRetired r =>
      if r < s.launch.manager.entries.next ∧ s.launch.manager.retired r then
        some { s with canceled := r :: s.canceled }
      else none
  | .cancelCtx => some { s with ctxDone := true }
  | .enterLoop =>
      if s.loop = .starting ∧ s.launch.start = .finished then some { s with loop := .select } else none
  | .seeCtx =>
      if s.loop = .select ∧ s.ctxDone then some { s with loop := .stopping .called none } else none
  | .receive =>
      match s.loop, s.serveErrs.recv with
      | .select, some (some (i, result), serveErrs) =>
          if result.retired then some { s with serveErrs }
          else some { s with serveErrs, loop := .stopping .called (some (i, result)) }
      | _, _ => none
  | .callShutdown => some { s with stops := s.stops ++ [.called] }
  | .stop none e =>
      match s.loop with
      | .stopping pc cause =>
          (pc.step s.launch e).map fun (pc, canceled) =>
            { s with
              canceled := canceled ++ s.canceled
              loop := .stopping pc cause }
      | _ => none
  | .stop (some j) e =>
      s.stops[j]?.bind fun pc =>
        (pc.step s.launch e).map fun (pc, canceled) =>
          { s with canceled := canceled ++ s.canceled, stops := s.stops.set j pc }

abbrev setWorker (s : SuperviseSys) (i : Nat) (w : Worker) : SuperviseSys :=
  { s with workers := s.workers.set i w }

inductive Works (s : SuperviseSys) (i : Nat) (w : Worker) : SuperviseSys → Prop
  | binds (at_ : w.pc = .binding) : Works s i w (s.setWorker i { w with pc := .accepting })
  | fails {why : String} (at_ : w.pc = .binding) :
      Works s i w (s.setWorker i { w with pc := .exited (some why) })
  | exits (canceled : w.group ∈ s.canceled) : Works s i w (s.setWorker i { w with pc := .exited none })
  | loads {err : Option String} (at_ : w.pc = .exited err) :
      Works s i w (s.setWorker i { w with
        pc := .sending ⟨(s.launch.manager.entries.get w.group).name, err,
          s.launch.manager.retired w.group⟩ })
  | sends {result : ServeResult} (at_ : w.pc = .sending result) :
      Works s i w ({ s with
        serveErrs := { s.serveErrs with buf := s.serveErrs.buf ++ [(i, result)] } }.setWorker i
          { w with pc := .sent })

theorem works_of_workerStep {s s' : SuperviseSys} {i : Nat} {w : Worker} {e : WorkerEvent}
    (taken : s.workerStep i w e = some s') : s.Works i w s' := by
  cases e with
  | bind err =>
      obtain ⟨at_, same⟩ := Option.ite_none_right_eq_some.1 taken
      cases same
      cases err with
      | none => exact .binds at_
      | some why => exact .fails at_
  | exit =>
      obtain ⟨⟨at_, canceled⟩, same⟩ := Option.ite_none_right_eq_some.1 taken
      cases same
      exact .exits canceled
  | load =>
      simp only [workerStep] at taken
      split at taken
      · cases taken
        exact .loads ‹_›
      · cases taken
  | send =>
      simp only [workerStep] at taken
      split at taken
      · rename_i at_
        split at taken
        · rename_i sent
          obtain ⟨-, -, rfl⟩ := Chan.send_eq_ok.1 sent
          cases taken
          exact .sends at_
        · cases taken
      · cases taken

inductive Steps (client : KubeClient) (s : SuperviseSys) : SuperviseAction → SuperviseSys → Prop
  | manages {a : LaunchAction} {launch : LaunchSys} {new : List Worker}
      (taken : s.launch.step client a = some launch)
      (begun : ∀ w ∈ new, w.pc = .binding ∧ w.group ∈ launch.manager.launched) :
      Steps client s (.manage a) { s with launch, workers := s.workers ++ new }
  | works {i : Nat} {w : Worker} {e : WorkerEvent} {s' : SuperviseSys}
      (here : s.workers[i]? = some w) (worked : s.Works i w s') : Steps client s (.worker i e) s'
  | cancelsRetired {r : EntryRef} (bound : r < s.launch.manager.entries.next)
      (retired : s.launch.manager.retired r = true) :
      Steps client s (.cancelRetired r) { s with canceled := r :: s.canceled }
  | cancelsCtx : Steps client s .cancelCtx { s with ctxDone := true }
  | entersLoop (at_ : s.loop = .starting) : Steps client s .enterLoop { s with loop := .select }
  | seesCtx (at_ : s.loop = .select) (done : s.ctxDone = true) :
      Steps client s .seeCtx { s with loop := .stopping .called none }
  | ignores {entry : Nat × ServeResult} {rest : List (Nat × ServeResult)} (at_ : s.loop = .select)
      (ahead : s.serveErrs.buf = entry :: rest) (retired : entry.2.retired = true) :
      Steps client s .receive { s with serveErrs := { s.serveErrs with buf := rest } }
  | takes {entry : Nat × ServeResult} {rest : List (Nat × ServeResult)} (at_ : s.loop = .select)
      (ahead : s.serveErrs.buf = entry :: rest) (active : entry.2.retired = false) :
      Steps client s .receive
        { s with serveErrs := { s.serveErrs with buf := rest }, loop := .stopping .called (some entry) }
  | calls : Steps client s .callShutdown { s with stops := s.stops ++ [.called] }
  | stopsOwn {e : StopEvent} {pc pc' : StopPc} {cause : Cause} {canceled : List EntryRef}
      (at_ : s.loop = .stopping pc cause) (stopped : pc.step s.launch e = some (pc', canceled)) :
      Steps client s (.stop none e)
        { s with canceled := canceled ++ s.canceled, loop := .stopping pc' cause }
  | stopsOther {j : Nat} {e : StopEvent} {pc pc' : StopPc} {canceled : List EntryRef}
      (here : s.stops[j]? = some pc) (stopped : pc.step s.launch e = some (pc', canceled)) :
      Steps client s (.stop (some j) e)
        { s with canceled := canceled ++ s.canceled, stops := s.stops.set j pc' }

variable {client : KubeClient} {s s' : SuperviseSys} {a : SuperviseAction}

theorem steps_of_step (taken : s.step client a = some s') : s.Steps client a s' := by
  cases a with
  | manage a =>
      obtain ⟨launch, moved, rfl⟩ := Option.map_eq_some_iff.1 taken
      refine .manages moved fun w member => ?_
      obtain ⟨group, new, rfl⟩ := List.mem_map.1 member
      exact ⟨rfl, List.mem_of_mem_drop new⟩
  | worker i e =>
      obtain ⟨w, here, worked⟩ := Option.bind_eq_some_iff.1 taken
      exact .works here (works_of_workerStep worked)
  | cancelRetired r =>
      obtain ⟨⟨bound, retired⟩, same⟩ := Option.ite_none_right_eq_some.1 taken
      cases same
      exact .cancelsRetired bound retired
  | cancelCtx =>
      cases taken
      exact .cancelsCtx
  | enterLoop =>
      obtain ⟨⟨at_, -⟩, same⟩ := Option.ite_none_right_eq_some.1 taken
      cases same
      exact .entersLoop at_
  | seeCtx =>
      obtain ⟨⟨at_, done⟩, same⟩ := Option.ite_none_right_eq_some.1 taken
      cases same
      exact .seesCtx at_ done
  | receive =>
      simp only [step] at taken
      split at taken
      · rename_i at_ received
        obtain ⟨rest, ahead, rfl⟩ := Chan.recv_eq_some.1 received
        split at taken
        · cases taken
          exact .ignores at_ ahead ‹_›
        · cases taken
          exact .takes at_ ahead (Bool.not_eq_true _ ▸ ‹_›)
      · cases taken
  | callShutdown =>
      cases taken
      exact .calls
  | stop who e =>
      cases who with
      | none =>
          simp only [step] at taken
          split at taken
          · obtain ⟨⟨pc, canceled⟩, stopped, rfl⟩ := Option.map_eq_some_iff.1 taken
            exact .stopsOwn ‹_› stopped
          · cases taken
      | some j =>
          obtain ⟨pc, here, moved⟩ := Option.bind_eq_some_iff.1 taken
          obtain ⟨⟨pc', canceled⟩, stopped, rfl⟩ := Option.map_eq_some_iff.1 moved
          exact .stopsOther here stopped

def Stopping (s : SuperviseSys) : Prop := s.stops ≠ [] ∨ s.loop.cause ≠ none

def Excused (s : SuperviseSys) (result : ServeResult) : Prop :=
  result.err = none → result.retired = true ∨ s.Stopping

def WorkerExcused (s : SuperviseSys) (w : Worker) : Prop :=
  match w.pc with
  | .exited none => w.group ∈ s.canceled
  | .sending result => s.Excused result
  | _ => True

def CauseExplained (s : SuperviseSys) : Cause → Prop
  | none => s.ctxDone = true
  | some (_, result) => result.retired = false ∧ (result.err = none → s.stops ≠ [])

structure Explained (s : SuperviseSys) : Prop where
  covered : s.launch.Covered
  groups : ∀ w ∈ s.workers, w.group ∈ s.launch.manager.launched
  canceled : ∀ r ∈ s.canceled,
    r < s.launch.manager.entries.next ∧ s.launch.manager.retired r = true ∨ s.Stopping
  workers : ∀ w ∈ s.workers, s.WorkerExcused w
  results : ∀ entry ∈ s.serveErrs.buf, s.Excused entry.2
  cause : ∀ cause, s.loop.cause = some cause → s.CauseExplained cause

theorem WorkerExcused.mono {w : Worker} (excused : s.WorkerExcused w)
    (canceled : s.canceled ⊆ s'.canceled) (stopping : s.Stopping → s'.Stopping) :
    s'.WorkerExcused w := by
  unfold WorkerExcused at excused ⊢
  split
  · rename_i at_
    rw [at_] at excused
    exact canceled excused
  · rename_i at_
    rw [at_] at excused
    exact fun none => (excused none).imp_right stopping
  · trivial

namespace Explained

theorem moves (inv : s.Explained) (launch : s'.launch = s.launch) (workers : s'.workers = s.workers)
    (results : s'.serveErrs.buf ⊆ s.serveErrs.buf) (canceled : s.canceled ⊆ s'.canceled)
    (new : ∀ r ∈ s'.canceled, r ∈ s.canceled ∨
      (r < s.launch.manager.entries.next ∧ s.launch.manager.retired r = true) ∨ s'.Stopping)
    (stopping : s.Stopping → s'.Stopping)
    (cause : ∀ cause, s'.loop.cause = some cause → s'.CauseExplained cause) : s'.Explained where
  covered := launch ▸ inv.covered
  groups := by
    rw [workers, launch]
    exact inv.groups
  canceled r member := by
    rw [launch]
    rcases new r member with earlier | retired | stopping
    · exact (inv.canceled r earlier).imp_right stopping
    · exact .inl retired
    · exact .inr stopping
  workers w member := (inv.workers w (workers ▸ member)).mono canceled stopping
  results entry member none := (inv.results entry (results member) none).imp_right stopping
  cause := cause

theorem works {i : Nat} {w : Worker} (inv : s.Explained) (here : s.workers[i]? = some w)
    (worked : s.Works i w s') : s'.Explained := by
  have known : w ∈ s.workers := List.mem_of_getElem? here
  have kept {w' : Worker} (group : w'.group = w.group) (mine : s.WorkerExcused w') :
      (s.setWorker i w').Explained := by
    refine ⟨inv.covered, ?_, inv.canceled, ?_, inv.results, inv.cause⟩
    · exact forall_set inv.groups i (group ▸ inv.groups w known)
    · exact forall_set (P := s.WorkerExcused) inv.workers i mine
  have excused := inv.workers w known
  cases worked with
  | binds at_ => exact kept rfl trivial
  | fails at_ => exact kept rfl trivial
  | exits canceled => exact kept rfl canceled
  | @loads err at_ =>
      refine kept rfl fun none => ?_
      -- the flag is read after `Serve` has returned, and it was set before the context was cancelled
      dsimp only at none
      rw [WorkerExcused, at_, none] at excused
      exact (inv.canceled w.group excused).imp_left And.right
  | @sends result at_ =>
      rw [WorkerExcused, at_] at excused
      have sent : (s.setWorker i { w with pc := .sent }).Explained := kept rfl trivial
      refine ⟨sent.covered, sent.groups, sent.canceled, sent.workers, fun entry member => ?_, sent.cause⟩
      rcases List.mem_append.1 member with earlier | last
      · exact inv.results entry earlier
      · cases List.mem_singleton.1 last
        exact excused

theorem step (inv : s.Explained) (taken : s.step client a = some s') : s'.Explained := by
  have same : s.serveErrs.buf ⊆ s.serveErrs.buf := fun _ => id
  have held : s.canceled ⊆ s.canceled := fun _ => id
  cases steps_of_step taken with
  | @manages a launch new moved begun =>
      have ages := inv.covered.ages moved
      have grown := LaunchSys.launched_prefix moved
      refine ⟨inv.covered.step moved, fun w member => ?_, fun r member => ?_, fun w member => ?_,
        inv.results, inv.cause⟩
      · rcases List.mem_append.1 member with earlier | last
        · exact grown.subset (inv.groups w earlier)
        · exact (begun w last).2
      · refine (inv.canceled r member).imp_left ?_
        rintro ⟨bound, retired⟩
        exact ⟨bound.trans_le ages.keeps.next_le, ages.retired r bound retired⟩
      · rcases List.mem_append.1 member with earlier | last
        · exact inv.workers w earlier
        · rw [WorkerExcused, (begun w last).1]
          trivial
  | works here worked => exact inv.works here worked
  | cancelsRetired bound retired =>
      refine inv.moves rfl rfl same (List.subset_cons_self _ _) (fun r member => ?_) id inv.cause
      rcases List.mem_cons.1 member with rfl | earlier
      · exact .inr (.inl ⟨bound, retired⟩)
      · exact .inl earlier
  | cancelsCtx =>
      refine inv.moves rfl rfl same held (fun _ => .inl) id fun cause at_ => ?_
      cases cause with
      | none => rfl
      | some entry => exact inv.cause _ at_
  | entersLoop at_ =>
      refine inv.moves rfl rfl same held (fun _ => .inl) (fun stopping => ?_) nofun
      rw [Stopping, at_] at stopping
      exact stopping
  | seesCtx at_ done =>
      refine inv.moves rfl rfl same held (fun _ => .inl) (fun _ => .inr nofun) ?_
      rintro _ ⟨⟩
      exact done
  | ignores at_ ahead retired =>
      exact inv.moves rfl rfl (ahead ▸ List.subset_cons_self _ _) held (fun _ => .inl) id inv.cause
  | takes at_ ahead active =>
      refine inv.moves rfl rfl (ahead ▸ List.subset_cons_self _ _) held (fun _ => .inl)
        (fun _ => .inr nofun) ?_
      rintro _ ⟨⟩
      refine ⟨active, fun none => ?_⟩
      rcases inv.results _ (ahead ▸ List.mem_cons_self) none with retired | others | left
      · cases active.symm.trans retired
      · exact others
      · rw [at_] at left
        exact absurd rfl left
  | calls =>
      refine inv.moves rfl rfl same held (fun _ => .inl) (fun _ => .inl (by simp)) fun cause at_ => ?_
      have explained := inv.cause cause at_
      cases cause with
      | none => exact explained
      | some entry => exact ⟨explained.1, fun _ => by simp⟩
  | @stopsOwn e pc pc' cause canceled at_ stopped =>
      refine inv.moves rfl rfl same (List.subset_append_right _ _)
        (fun _ _ => .inr (.inr (.inr nofun))) (fun _ => .inr nofun) ?_
      rintro _ ⟨⟩
      exact inv.cause cause (by rw [at_]; rfl)
  | @stopsOther j e pc pc' canceled here stopped =>
      have others : s.stops.set j pc' ≠ [] := by
        intro empty
        have bound := (List.getElem?_eq_some_iff.1 here).1
        rw [← List.length_set (a := pc') (i := j), empty] at bound
        exact absurd bound (Nat.not_lt_zero _)
      refine inv.moves rfl rfl same (List.subset_append_right _ _) (fun _ _ => .inr (.inr (.inl others)))
        (fun _ => .inl others) fun cause at_ => ?_
      have explained := inv.cause cause at_
      cases cause with
      | none => exact explained
      | some entry => exact ⟨explained.1, fun _ => others⟩

end Explained

/-- `Start` gives up only when its context is done, when a group in force has failed to open its
listener, or when someone else has called `Shutdown`: never because a reload has removed a group. -/
theorem start_stops_for_cause {mc : MultiConfig} {cfgPath : String} {reg : Registry} {m₀ : Manager}
    (made : Manager.newManager client mc cfgPath reg = .ok m₀)
    {trace : List (SuperviseSys × SuperviseAction)}
    (exec : Exec (step client) (init m₀) trace s) {cause : Cause} (left : s.loop.cause = some cause) :
    cause = none ∧ s.ctxDone = true ∨ ∃ i result, cause = some (i, result) ∧ result.retired = false ∧
      ((∃ why, result.err = some why) ∨ s.stops ≠ []) := by
  have start : (init m₀).Explained :=
    ⟨LaunchSys.covered_init made, nofun, nofun, nofun, nofun, nofun⟩
  have inv := exec.stable start fun _ _ _ inv taken => inv.step taken
  have explained := inv.cause cause left
  cases cause with
  | none => exact .inl ⟨rfl, explained⟩
  | some entry =>
      obtain ⟨active, excused⟩ := explained
      refine .inr ⟨entry.1, entry.2, rfl, active, ?_⟩
      cases err : entry.2.err with
      | none => exact .inr (excused err)
      | some why => exact .inl ⟨why, rfl⟩

/-- A reload replaces group `a` by group `b`. The exit of `a` is passed over; `b` cannot open its
listener. -/
theorem start_stops_for_failed_group :
    ∃ m₀ trace s result,
      Manager.newManager noCluster (Manager.listening [("a", "127.0.0.1:1080")]) "s5lb.yaml" [] = .ok m₀ ∧
      Exec (step noCluster) (init m₀) trace s ∧ s.workers[0]? = some ⟨0, .sent⟩ ∧
      s.loop.cause = some (some (1, result)) ∧ result.retired = false ∧
      ∃ why, result.err = some why := by
  obtain ⟨m₀, trace, s, made, exec, -, passed⟩ := exec_of_play_made (step noCluster)
    (Manager.newManager noCluster (Manager.listening [("a", "127.0.0.1:1080")]) "s5lb.yaml" []) init
    [.manage .assign, .manage .enterStart, .manage .launch, .manage .leave, .enterLoop,
      .worker 0 (.bind none),
      .manage (.call (.ok (Manager.listening [("b", "127.0.0.1:1081")]))), .manage (.enterReload 0),
      .manage .launch, .manage .leave, .cancelRetired 0, .worker 0 .exit, .worker 0 .load,
      .worker 0 .send, .receive, .worker 1 (.bind (some "bind 127.0.0.1:1081: in use")),
      .worker 1 .load, .worker 1 .send, .receive]
    (fun _ _ s => decide (s.workers[0]? = some (Worker.mk 0 .sent) ∧ s.stops = [] ∧
      s.loop.cause = some (some (1, ⟨"b", some "bind 127.0.0.1:1081: in use", false⟩))))
    (by decide +kernel)
  obtain ⟨sent, alone, left⟩ := of_decide_eq_true passed
  refine ⟨m₀, trace, s, _, made, exec, sent, left, ?_⟩
  rcases start_stops_for_cause made exec left with ⟨other, -⟩ | ⟨i, result, same, active, why⟩
  · cases other
  · cases same
    exact ⟨active, why.resolve_right fun others => others alone⟩

def call (s : SuperviseSys) : Option Nat → Option StopPc
  | none => match s.loop with
      | .stopping pc _ => some pc
      | _ => none
  | some j => s.stops[j]?

end SuperviseSys

namespace StopPc

def pending : StopPc → List EntryRef
  | .stopping todo draining _ => todo ++ draining
  | _ => []

def down : StopPc → List EntryRef
  | .called => []
  | .stopping _ _ down | .returned down => down

structure Moves (launch : LaunchSys) (pc pc' : StopPc) : Prop where
  begun : pc' ≠ .called
  snapshot : pc = .called → launch.holder = .nobody ∧ pc'.pending = launch.manager.groups
  later : pc ≠ .called → pc.pending ++ pc.down ⊆ pc'.pending ++ pc'.down

theorem moves_of_step {launch : LaunchSys} {pc pc' : StopPc} {e : StopEvent} {canceled : List EntryRef}
    (stopped : pc.step launch e = some (pc', canceled)) : Moves launch pc pc' := by
  unfold step at stopped
  split at stopped
  · obtain ⟨free, same⟩ := Option.ite_none_right_eq_some.1 stopped
    cases same
    exact ⟨nofun, fun _ => ⟨LaunchSys.holder_of_free free, by simp [pending]⟩, fun begun => absurd rfl begun⟩
  · rename_i r
    obtain ⟨member, same⟩ := Option.ite_none_right_eq_some.1 stopped
    cases same
    refine ⟨nofun, nofun, fun _ q known => ?_⟩
    simp only [pending, down, List.mem_append, List.mem_cons] at known ⊢
    by_cases same : q = r
    · simp [same]
    · rw [List.mem_erase_of_ne same]
      tauto
  · rename_i r
    obtain ⟨member, same⟩ := Option.ite_none_right_eq_some.1 stopped
    cases same
    refine ⟨nofun, nofun, fun _ q known => ?_⟩
    simp only [pending, down, List.mem_append, List.mem_cons] at known ⊢
    by_cases same : q = r
    · simp [same]
    · rw [List.mem_erase_of_ne same]
      tauto
  · cases stopped
    exact ⟨nofun, nofun, fun _ r known => by simpa [pending, down] using known⟩
  · cases stopped

end StopPc

namespace SuperviseSys

variable {client : KubeClient} {s s' : SuperviseSys} {a : SuperviseAction}

def Reaches (trace : List (SuperviseSys × SuperviseAction)) (s : SuperviseSys) (who : Option Nat)
    (pc : StopPc) : Prop :=
  pc = .called ∨ ∃ s₁, (s₁, .stop who .snapshot) ∈ trace ∧
    ∀ r ∈ s₁.launch.manager.launched, r ∈ pc.pending ++ pc.down ∨
      r < s.launch.manager.entries.next ∧ s.launch.manager.retired r = true

theorem Reaches.mono {trace : List (SuperviseSys × SuperviseAction)} {who : Option Nat} {pc : StopPc}
    (reaches : Reaches trace s who pc)
    (ages : LaunchSys.Ages s.launch.manager.entries s'.launch.manager.entries) :
    Reaches (trace ++ [(s, a)]) s' who pc := by
  refine reaches.imp_right ?_
  rintro ⟨s₁, earlier, covers⟩
  refine ⟨s₁, List.mem_append_left _ earlier, fun r launched => (covers r launched).imp_right ?_⟩
  rintro ⟨bound, retired⟩
  exact ⟨bound.trans_le ages.keeps.next_le, ages.retired r bound retired⟩

theorem Reaches.stop {trace : List (SuperviseSys × SuperviseAction)} {who : Option Nat}
    {pc pc' : StopPc} {e : StopEvent} {canceled : List EntryRef} (reaches : Reaches trace s who pc)
    (covered : s.launch.Covered) (stopped : pc.step s.launch e = some (pc', canceled))
    (launch : s'.launch = s.launch) : Reaches (trace ++ [(s, .stop who e)]) s' who pc' := by
  have moves := StopPc.moves_of_step stopped
  rw [Reaches, launch]
  right
  rcases reaches with rfl | ⟨s₁, earlier, covers⟩
  · obtain ⟨free, groups⟩ := moves.snapshot rfl
    have taken : e = .snapshot := by
      cases e with
      | snapshot => rfl
      | _ => cases stopped
    subst taken
    refine ⟨s, List.mem_append_right _ (List.mem_singleton_self _), fun r launched => ?_⟩
    have held := covered.held r launched
    rw [free] at held
    rcases held with inForce | retired
    · refine .inl (List.mem_append_left _ ?_)
      rw [groups]
      exact inForce
    · exact .inr ⟨covered.bounds r launched, retired⟩
  · refine ⟨s₁, List.mem_append_left _ earlier, fun r launched => (covers r launched).imp_left ?_⟩
    refine fun known => moves.later ?_ known
    rintro rfl
    cases known

structure Reaching (trace : List (SuperviseSys × SuperviseAction)) (s : SuperviseSys) : Prop where
  covered : s.launch.Covered
  calls : ∀ who pc, s.call who = some pc → Reaches trace s who pc

theorem Reaching.step {trace : List (SuperviseSys × SuperviseAction)} (inv : Reaching trace s)
    (taken : s.step client a = some s') : Reaching (trace ++ [(s, a)]) s' := by
  have still (launch : s'.launch = s.launch) {who : Option Nat} {pc : StopPc}
      (at_ : s.call who = some pc) : Reaches (trace ++ [(s, a)]) s' who pc :=
    (inv.calls who pc at_).mono (launch ▸ .refl _)
  have called {who : Option Nat} : Reaches (trace ++ [(s, a)]) s' who .called := .inl rfl
  cases steps_of_step taken with
  | manages moved begun =>
      exact ⟨inv.covered.step moved, fun who pc at_ =>
        (inv.calls who pc at_).mono (inv.covered.ages moved)⟩
  | works here worked => cases worked <;> exact ⟨inv.covered, fun who pc => still rfl⟩
  | cancelsRetired bound retired => exact ⟨inv.covered, fun who pc => still rfl⟩
  | cancelsCtx => exact ⟨inv.covered, fun who pc => still rfl⟩
  | entersLoop at_ =>
      refine ⟨inv.covered, fun who pc there => ?_⟩
      cases who with
      | none => cases there
      | some j => exact still rfl there
  | seesCtx at_ done =>
      refine ⟨inv.covered, fun who pc there => ?_⟩
      cases who with
      | none =>
          cases there
          exact called
      | some j => exact still rfl there
  | ignores at_ ahead retired => exact ⟨inv.covered, fun who pc => still rfl⟩
  | takes at_ ahead active =>
      refine ⟨inv.covered, fun who pc there => ?_⟩
      cases who with
      | none =>
          cases there
          exact called
      | some j => exact still rfl there
  | calls =>
      refine ⟨inv.covered, fun who pc there => ?_⟩
      cases who with
      | none => exact still rfl there
      | some j =>
          rcases located_snoc there with ⟨_, rfl⟩ | there
          · exact called
          · exact still rfl there
  | stopsOwn at_ stopped =>
      refine ⟨inv.covered, fun who pc there => ?_⟩
      cases who with
      | none =>
          cases there
          exact (inv.calls none _ (by rw [call, at_])).stop inv.covered stopped rfl
      | some j => exact still rfl there
  | stopsOther here stopped =>
      refine ⟨inv.covered, fun who pc there => ?_⟩
      cases who with
      | none => exact still rfl there
      | some j =>
          rcases located_set here there with ⟨rfl, rfl⟩ | ⟨_, there⟩
          · exact (inv.calls (some _) _ here).stop inv.covered stopped rfl
          · exact still rfl there

theorem reaching_of_exec {mc : MultiConfig} {cfgPath : String} {reg : Registry} {m₀ : Manager}
    (made : Manager.newManager client mc cfgPath reg = .ok m₀)
    {trace : List (SuperviseSys × SuperviseAction)}
    (exec : Exec (step client) (init m₀) trace s) : Reaching trace s := by
  induction exec with
  | nil =>
      refine ⟨LaunchSys.covered_init made, fun who pc at_ => ?_⟩
      cases who <;> cases at_
  | snoc before taken ih => exact ih.step taken

/-- When a call of `Shutdown` returns, be it the one with which `Start` ends or another, the balancer
of every group that was launched when the call read the groups has been shut down, or a reload has
retired the group. Only a group that a reload launches afterwards is left running. -/
theorem shutdown_reaches_launched {mc : MultiConfig} {cfgPath : String} {reg : Registry}
    {m₀ : Manager} (made : Manager.newManager client mc cfgPath reg = .ok m₀)
    {trace : List (SuperviseSys × SuperviseAction)}
    (exec : Exec (step client) (init m₀) trace s) {who : Option Nat} {down : List EntryRef}
    (returned : s.call who = some (.returned down)) :
    ∃ s₁, (s₁, .stop who .snapshot) ∈ trace ∧
      ∀ r ∈ s₁.launch.manager.launched, r ∈ down ∨ s.launch.manager.retired r = true := by
  rcases (reaching_of_exec made exec).calls who _ returned with unread | ⟨s₁, taken, covers⟩
  · cases unread
  · exact ⟨s₁, taken, fun r launched => (covers r launched).imp id And.right⟩

/-- A reload enters after `Shutdown` has read the groups and launches group `b`: `Start` returns with
`a` shut down and `b` serving. -/
theorem shutdown_misses_late_group :
    ∃ m₀ trace s,
      Manager.newManager noCluster (Manager.listening [("a", "127.0.0.1:1080")]) "s5lb.yaml" [] = .ok m₀ ∧
      Exec (step noCluster) (init m₀) trace s ∧ s.call none = some (.returned [0]) ∧
      s.workers[1]? = some ⟨1, .accepting⟩ ∧ 1 ∉ s.canceled ∧
      ∃ s₁, (s₁, .stop none .snapshot) ∈ trace ∧
        ∀ r ∈ s₁.launch.manager.launched, r ∈ [0] ∨ s.launch.manager.retired r = true := by
  obtain ⟨m₀, trace, s, made, exec, -, passed⟩ := exec_of_play_made (step noCluster)
    (Manager.newManager noCluster (Manager.listening [("a", "127.0.0.1:1080")]) "s5lb.yaml" []) init
    [.manage .assign, .manage .enterStart, .manage .launch, .manage .leave, .enterLoop,
      .worker 0 (.bind none), .cancelCtx, .seeCtx,
      .manage (.call (.ok (Manager.listening [("a", "127.0.0.1:1080"), ("b", "127.0.0.1:1081")]))),
      .stop none .snapshot, .manage (.enterReload 0), .manage .launch, .manage .leave,
      .worker 1 (.bind none), .stop none (.cancel 0), .worker 0 .exit, .stop none (.down 0),
      .stop none .finish]
    (fun _ _ s => decide (s.call none = some (.returned [0]) ∧
      s.workers[1]? = some (Worker.mk 1 .accepting) ∧ 1 ∉ s.canceled)) (by decide +kernel)
  obtain ⟨returned, serving, uncanceled⟩ := of_decide_eq_true passed
  exact ⟨m₀, trace, s, made, exec, returned, serving, uncanceled,
    shutdown_reaches_launched made exec returned⟩

end SuperviseSys

end S5lb
