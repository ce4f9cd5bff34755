import Mathlib.Data.List.AList
import S5lb.Balancer.Reload
import S5lb.Config.Multi
import S5lb.Lib.Transition

namespace S5lb

open Transition

abbrev EntryRef := Nat

structure GroupEntry where
  name : String
  lb : LoadBalancer
  retired : Bool

abbrev Registry := List String

/-- `metrics.New`: a collector of the same group still in the registry makes it fail. -/
def metricsNew (reg : Registry) (group : String) : Except String Registry :=
  if group ∈ reg then
    .error ("register metrics for group " ++ Go.quote group ++
      ": duplicate metrics collector registration attempted")
  else .ok (group :: reg)

def buildGroup (client : KubeClient) (reg : Registry) (cfg : Config) :
    Except String (GroupEntry × Registry) := do
  let name := if cfg.groupName = "" then "default" else cfg.groupName
  let (ups, heap) ← (cfg.buildUpstreams ⟨fun _ => newState, 0⟩).mapError ("build upstreams: " ++ ·)
  refuse ups.isEmpty "at least one upstream is required"
  let sel ← (strategyNew cfg.strategy).mapError ("strategy " ++ Go.quote cfg.strategy ++ ": " ++ ·)
  let registered ← (metricsNew reg name).mapError ("metrics: " ++ ·)
  -- a failure below unregisters the collectors again
  let dialer ← (newFromConfig client cfg).mapError ("transport: " ++ ·)
  let lb ← (LoadBalancer.new cfg heap ups sel).mapError ("balancer: " ++ ·)
  return ({ name, lb := { lb with dialer }, retired := false }, registered)

structure GroupTable where
  entries : Heap GroupEntry
  registered : Registry
  groups : List EntryRef
  byName : AList fun _ : String => EntryRef

namespace GroupTable

def listenAddr (t : GroupTable) (r : EntryRef) : String := (t.entries.get r).lb.cfg.listenAddr

def retired (t : GroupTable) (r : EntryRef) : Bool := (t.entries.get r).retired

def empty (reg : Registry) : GroupTable where
  entries := ⟨fun _ => ⟨"", .unpublished defaults ⟨fun _ => newState, 0⟩ .leastActive, true⟩, 0⟩
  registered := reg
  groups := []
  byName := ∅

def append (t : GroupTable) (name : String) (r : EntryRef) : GroupTable :=
  { t with groups := t.groups ++ [r], byName := t.byName.insert name r }

def build (client : KubeClient) (t : GroupTable) (cfg : Config) :
    Except String (GroupTable × EntryRef) :=
  (buildGroup client t.registered cfg).map fun (entry, registered) =>
    let (r, entries) := t.entries.alloc entry
    ({ t with entries, registered }.append cfg.groupName r, r)

def setBalancer (t : GroupTable) (r : EntryRef) (lb : LoadBalancer) : GroupTable :=
  { t with entries := t.entries.set r { t.entries.get r with lb } }

end GroupTable

structure Manager extends GroupTable where
  cfgPath : String
  started : Bool
  launched : List EntryRef
  /-- The removed entries that a goroutine is still to shut down and unregister. -/
  draining : List EntryRef
  /-- The groups that a `Reload` had built when it panicked. Nobody unregisters their collectors. -/
  leaked : List String

structure Reloading where
  table : GroupTable
  pendingStarts : List EntryRef
  lastErr : Option String

namespace Manager

def newManager (client : KubeClient) (mc : MultiConfig) (cfgPath : String) (reg : Registry) :
    Except String Manager := do
  let mc ← mc.validate.mapError ("invalid config: " ++ ·)
  let table ← mc.effectiveGroups.foldlM
    (fun (t : GroupTable) cfg => ((t.build client cfg).map (·.1)).mapError
      ("group " ++ Go.quote cfg.groupName ++ ": " ++ ·)) (GroupTable.empty reg)
  return { table with cfgPath, started := false, launched := [], draining := [], leaked := [] }

/-- What `Reload` and `ReloadGroup` do before they take the lock; `file` is what `LoadMultiFile`
returns. -/
def loadConfig (m : Manager) (what : String) (file : Except String MultiConfig) :
    Except String (List Config) := do
  refuse (m.cfgPath == "") (what ++ ": no config path was supplied at startup")
  let mc ← file.mapError (what ++ ": load: " ++ ·)
  let mc ← mc.validate.mapError (what ++ ": validate: " ++ ·)
  return mc.effectiveGroups

/-- One round of the loop; the error is where a panic leaves it. -/
def reloadOne (client : KubeClient) (byName : AList fun _ : String => EntryRef) (acc : Reloading)
    (cfg : Config) : Except Reloading Reloading :=
  match byName.lookup cfg.groupName with
  -- the group stays on its address, whatever the file says
  | some existing =>
      let (lb, result) := (acc.table.entries.get existing).lb.reloadFromConfig client cfg
      let written := acc.table.setBalancer existing lb
      let table := written.append cfg.groupName existing
      match result with
      | .ok => .ok { acc with table }
      | .error why => .ok { acc with table, lastErr := some why }
      | .panic => .error { acc with table := written }
  | none =>
      match acc.table.build client cfg with
      | .error why => .ok { acc with lastErr := some why }
      | .ok (table, entry) => .ok { acc with table, pendingStarts := acc.pendingStarts ++ [entry] }

def begin (m : Manager) : Reloading :=
  { table := { m.toGroupTable with groups := [], byName := ∅ }, pendingStarts := [], lastErr := none }

def reloadAll (client : KubeClient) (m : Manager) (effs : List Config) : Except Reloading Reloading :=
  effs.foldlM (reloadOne client m.byName) m.begin

def removed (m : Manager) (acc : Reloading) : List EntryRef :=
  (m.byName.entries.filter fun p => p.1 ∉ acc.table.byName).map (·.2)

def retire (entries : Heap GroupEntry) (removed : List EntryRef) : Heap GroupEntry :=
  removed.foldl (fun h r => h.set r { h.get r with retired := true }) entries

/-- `Manager.Reload` after its first loop: retire what is gone, wait for those whose address a new
group needs, leave the others to the background, launch the new groups. -/
def install (m : Manager) (acc : Reloading) : Manager :=
  let removed := m.removed acc
  let entries := retire acc.table.entries removed
  let listen := fun r => (entries.get r).lb.cfg.listenAddr
  let drained := removed.filter fun r => acc.pendingStarts.any fun entry => listen entry == listen r
  { acc.table with
    entries
    registered := drained.foldl (fun reg r => reg.erase (entries.get r).name) acc.table.registered
    cfgPath := m.cfgPath
    started := m.started
    launched := if m.started then m.launched ++ acc.pendingStarts else m.launched
    draining := m.draining ++ removed.filter (· ∉ drained)
    leaked := m.leaked }

/-- `Manager.Reload` after a panic in its first loop, which `net/http` recovers when the call comes from
the admin server. The deferred unlock leaves index and list as they were, and nothing refers to the groups
built so far, but what was written to the balancers and to the registry stays. -/
def abandon (m : Manager) (acc : Reloading) : Manager :=
  { m with
    entries := { acc.table.entries with next := m.entries.next }
    registered := acc.table.registered
    leaked := m.leaked ++ acc.pendingStarts.map fun r => (acc.table.entries.get r).name }

def finish (m : Manager) : Except Reloading Reloading → Manager × ReloadResult
  | .ok acc => (m.install acc, acc.lastErr.elim .ok .error)
  | .error acc => (m.abandon acc, .panic)

def reload (client : KubeClient) (m : Manager) (file : Except String MultiConfig) :
    Manager × ReloadResult :=
  match m.loadConfig "reload" file with
  | .error why => (m, .error why)
  | .ok effs => m.finish (m.reloadAll client effs)

def reloadGroup (client : KubeClient) (m : Manager) (name : String)
    (file : Except String MultiConfig) : Manager × ReloadResult :=
  match m.loadConfig ("reload group " ++ Go.quote name) file with
  | .error why => (m, .error why)
  | .ok effs =>
      match effs.find? fun cfg => cfg.groupName == name, m.byName.lookup name with
      | none, _ => (m, .error ("reload group " ++ Go.quote name ++ ": group not present in config"))
      | some _, none => (m, .error ("group " ++ Go.quote name ++ " not found"))
      | some selected, some r =>
          let (lb, result) := (m.entries.get r).lb.reloadFromConfig client selected
          ({ m with toGroupTable := m.toGroupTable.setBalancer r lb }, result)

def start (m : Manager) : Manager :=
  if m.started then m else { m with started := true, launched := m.launched ++ m.groups }

def drained (m : Manager) (r : EntryRef) : Manager :=
  { m with registered := m.registered.erase (m.entries.get r).name, draining := m.draining.erase r }

end Manager

inductive ManagerAction
  | start
  | reload (file : Except String MultiConfig)
  | reloadGroup (name : String) (file : Except String MultiConfig)
  | drained (r : EntryRef)
  | serve (r : EntryRef) (lb : LoadBalancer)

namespace Manager

def step (client : KubeClient) (m : Manager) : ManagerAction → Option Manager
  | .start => some m.start
  | .reload file => some (m.reload client file).1
  | .reloadGroup name file => some (m.reloadGroup client name file).1
  | .drained r => if r ∈ m.draining then some (m.drained r) else none
  | .serve r lb =>
      if lb.cfg = (m.entries.get r).lb.cfg then
        some { m with toGroupTable := m.toGroupTable.setBalancer r lb }
      else none

end Manager

end S5lb
