import S5lb.Admission.Acquire
import S5lb.Lib.Fold
import S5lb.Lib.Links
import S5lb.Lib.Transition

/-!
# The tracker as a list of sessions

The intrusive links of `Tracker` form a doubly linked list. `Tracked` runs the tracker beside the
list it stands for, and `Represents` relates the two after every operation.
-/

namespace S5lb

structure SessionSnapshot where
  clientAddr : String
  upstreamID : String
  upstreamPrio : Int
  admittedAt : Time
  deriving DecidableEq

def Session.snapshot (s : Session) : SessionSnapshot where
  clientAddr := s.remote.getD ""
  upstreamID := s.upstreamID
  upstreamPrio := s.upstreamPrio
  admittedAt := s.admittedAt

namespace Tracker

def noSessions : Heap Session := ⟨fun _ => ⟨none, "", 0, 0, none, none, false⟩, 0⟩

def newTracker (sessions : Heap Session) : Tracker := ⟨sessions, none, none, 0⟩

def listSessions (t : Tracker) : List SessionSnapshot :=
  (t.walk t.sessions.next t.head).map fun s => (t.sessions.get s).snapshot

def links (t : Tracker) : Links SessionRef where
  head := t.head
  tail := t.tail
  prev s := (t.sessions.get s).prev
  next s := (t.sessions.get s).next

theorem walk_links (t : Tracker) (fuel : Nat) (start : Option SessionRef) :
    t.walk fuel start = t.links.walk fuel start := by
  induction fuel generalizing start with
  | zero => rfl
  | succ fuel ih =>
      cases start with
      | none => rfl
      | some s => exact congrArg (s :: ·) (ih _)

theorem get_modify (t : Tracker) (s x : SessionRef) (f : Session → Session) :
    (t.modify s f).sessions.get x = if x = s then f (t.sessions.get x) else t.sessions.get x := by
  rw [modify, Heap.get_set]
  split
  · rename_i same
    rw [same]
  · rfl

theorem get_add (t : Tracker) (s x : SessionRef) :
    (t.add s).sessions.get x =
      { t.sessions.get x with
        released := if x = s then false else (t.sessions.get x).released
        prev := if x = s then t.tail else (t.sessions.get x).prev
        next := if t.tail = some x then some s else if x = s then none else (t.sessions.get x).next } := by
  unfold add
  cases t.tail with
  | none =>
      simp only [get_modify, reduceCtorEq, if_false]
      split <;> rfl
  | some tail =>
      simp only [get_modify, Option.some.injEq, eq_comm (a := tail)]
      by_cases self : x = s <;> by_cases last : x = tail
      · simp only [if_pos self, if_pos last]
      · simp only [if_pos self, if_neg last]
      · simp only [if_neg self, if_pos last]
      · simp only [if_neg self, if_neg last]

theorem links_add (t : Tracker) (s : SessionRef) : (t.add s).links = t.links.append s := by
  have head : (t.add s).head = if t.tail = none then some s else t.head := by
    unfold add
    cases t.tail <;> rfl
  simp only [links, get_add, head]
  rfl

def linkNext (t : Tracker) (prev next : Option SessionRef) : Tracker :=
  match prev with
  | some prev => t.modify prev fun x => { x with next := next }
  | none => { t with head := next }

def linkPrev (t : Tracker) (prev next : Option SessionRef) : Tracker :=
  match next with
  | some next => t.modify next fun x => { x with prev := prev }
  | none => { t with tail := prev }

def bypass (t : Tracker) (prev next : Option SessionRef) : Tracker :=
  (t.linkNext prev next).linkPrev prev next

section Bypass

variable (t : Tracker) (prev next : Option SessionRef)

theorem get_linkNext (x : SessionRef) :
    (t.linkNext prev next).sessions.get x =
      { t.sessions.get x with next := if prev = some x then next else (t.sessions.get x).next } := by
  cases prev with
  | none => rfl
  | some p =>
      simp only [linkNext, get_modify, Option.some.injEq, eq_comm (a := p)]
      split <;> rfl

theorem get_linkPrev (x : SessionRef) :
    (t.linkPrev prev next).sessions.get x =
      { t.sessions.get x with prev := if next = some x then prev else (t.sessions.get x).prev } := by
  cases next with
  | none => rfl
  | some n =>
      simp only [linkPrev, get_modify, Option.some.injEq, eq_comm (a := n)]
      split <;> rfl

theorem head_bypass : (t.bypass prev next).head = if prev = none then next else t.head := by
  cases prev <;> cases next <;> rfl

theorem tail_bypass : (t.bypass prev next).tail = if next = none then prev else t.tail := by
  cases prev <;> cases next <;> rfl

theorem count_bypass : (t.bypass prev next).count = t.count := by
  cases prev <;> cases next <;> rfl

theorem next_bypass : (t.bypass prev next).sessions.next = t.sessions.next := by
  cases prev <;> cases next <;> rfl

end Bypass

section Release

variable {t : Tracker} {s : SessionRef} (live : (t.sessions.get s).released = false)
  (counted : 0 < t.count)

include live counted

theorem release_eq : t.release s =
    let marked := t.modify s fun x => { x with released := true }
    let bypassed := marked.bypass (t.sessions.get s).prev (t.sessions.get s).next
    { bypassed.modify s fun x => { x with prev := none, next := none } with
      count := bypassed.count - 1 } := by
  rw [release, if_neg (by simp [live]), if_neg (by omega)]
  rfl

theorem get_release (x : SessionRef) :
    (t.release s).sessions.get x =
      { t.sessions.get x with
        released := if x = s then true else (t.sessions.get x).released
        prev := if x = s then none else if (t.sessions.get s).next = some x then
          (t.sessions.get s).prev else (t.sessions.get x).prev
        next := if x = s then none else if (t.sessions.get s).prev = some x then
          (t.sessions.get s).next else (t.sessions.get x).next } := by
  rw [release_eq live counted]
  simp only [get_modify, bypass, get_linkNext, get_linkPrev]
  split <;> rfl

theorem links_release : (t.release s).links = t.links.remove s := by
  simp only [links, get_release live counted]
  rw [release_eq live counted]
  exact Links.ext (head_bypass _ _ _) (tail_bypass _ _ _) rfl rfl

theorem count_release : (t.release s).count = t.count - 1 := by
  rw [release_eq live counted]
  exact congrArg (· - 1) (count_bypass _ _ _)

end Release

theorem next_release (t : Tracker) (s : SessionRef) :
    (t.release s).sessions.next = t.sessions.next := by
  rw [release]
  split
  · rfl
  · split
    · rfl
    · exact next_bypass (t.modify s fun x => { x with released := true }) _ _

theorem count_add (t : Tracker) (s : SessionRef) : (t.add s).count = t.count + 1 := by
  unfold add
  cases t.tail <;> rfl

theorem next_add (t : Tracker) (s : SessionRef) : (t.add s).sessions.next = t.sessions.next := by
  unfold add
  cases t.tail <;> rfl

theorem links_update (t : Tracker) (s : SessionRef) (upID : String) (prio : Int) :
    (t.update s upID prio).links = t.links := by
  refine Links.ext rfl rfl (funext fun x => ?_) (funext fun x => ?_)
  · simp only [links, update, get_modify]
    split <;> rfl
  · simp only [links, update, get_modify]
    split <;> rfl

theorem pickLowestPriorityVictim_eq (t : Tracker) :
    t.pickLowestPriorityVictim = t.head.map fun head =>
      (((t.walk t.sessions.next t.head).filter fun x => (t.sessions.get x).upstreamID ≠ "").foldl
        (List.scanMax fun x => (t.sessions.get x).upstreamPrio) none).getD head := by
  unfold pickLowestPriorityVictim
  congr 1
  funext head
  rw [List.foldl_filter]
  dsimp only
  congr 2
  funext worst s
  by_cases unassigned : (t.sessions.get s).upstreamID = ""
  · simp [unassigned]
  · cases worst <;> simp [unassigned, List.scanMax]

def Lowest (t : Tracker) (order : List SessionRef) (s : SessionRef) : Prop :=
  let assigned := order.filter fun x => (t.sessions.get x).upstreamID ≠ ""
  if assigned = [] then order.head? = some s
  else assigned.FirstMax (fun x => (t.sessions.get x).upstreamPrio) s

theorem Lowest.mem {t : Tracker} {order : List SessionRef} {s : SessionRef}
    (lowest : t.Lowest order s) : s ∈ order := by
  unfold Lowest at lowest
  dsimp only at lowest
  split at lowest
  · exact List.mem_of_head? lowest
  · obtain ⟨pre, post, split, _⟩ := lowest
    have member : s ∈ order.filter fun x => (t.sessions.get x).upstreamID ≠ "" := by
      rw [split]
      simp
    exact List.mem_of_mem_filter member

structure Represents (t : Tracker) (added order : List SessionRef) : Prop where
  spans : t.links.Spans order
  count : t.count = order.length
  allocated : ∀ s ∈ order, s < t.sessions.next
  live : ∀ s ∈ order, (t.sessions.get s).released = false
  gone : ∀ s ∈ added, s ∉ order → (t.sessions.get s).released = true

theorem represents_newTracker (sessions : Heap Session) :
    (newTracker sessions).Represents [] [] where
  spans := Links.spans_nil
  count := rfl
  allocated := by simp
  live := by simp
  gone := by simp

namespace Represents

variable {t : Tracker} {added order : List SessionRef} {s : SessionRef}

theorem weaken (represents : t.Represents added order) {fewer : List SessionRef}
    (subset : fewer ⊆ added) : t.Represents fewer order :=
  { represents with gone := fun s member => represents.gone s (subset member) }

theorem add (represents : t.Represents added order) (made : s < t.sessions.next)
    (fresh : s ∉ order) : (t.add s).Represents (s :: added) (order ++ [s]) where
  spans := by
    rw [links_add]
    exact represents.spans.append fresh
  count := by
    rw [count_add, represents.count, List.length_append]
    rfl
  allocated := by
    rw [next_add]
    exact List.forall_mem_append.2 ⟨represents.allocated, List.forall_mem_singleton.2 made⟩
  live := by
    intro x member
    simp only [get_add]
    split
    · rfl
    · rename_i other
      refine represents.live x ((List.mem_append.1 member).resolve_right fun new => ?_)
      exact other (List.mem_singleton.1 new)
  gone := by
    intro x member absent
    simp only [List.mem_append, List.mem_singleton, not_or] at absent
    simp only [get_add, if_neg absent.2]
    exact represents.gone x ((List.mem_cons.1 member).resolve_left absent.2) absent.1

theorem release_absent (represents : t.Represents added order) (member : s ∈ added)
    (absent : s ∉ order) : t.release s = t := by
  rw [release, if_pos (represents.gone s member absent)]

theorem counted (represents : t.Represents added order) (member : s ∈ order) : 0 < t.count := by
  rw [represents.count]
  exact_mod_cast List.length_pos_of_mem member

theorem release (represents : t.Represents added order) (member : s ∈ added) :
    (t.release s).Represents added (order.erase s) := by
  by_cases tracked : s ∈ order
  · have live := represents.live s tracked
    have counted := represents.counted tracked
    obtain ⟨a, b, rfl⟩ := List.append_of_mem tracked
    have distinct := List.nodup_middle.1 represents.spans.nodup
    have outside : s ∉ a ++ b := (List.nodup_cons.1 distinct).1
    have rest : (a ++ s :: b).erase s = a ++ b := by
      rw [List.erase_append_right _ fun left => outside (List.mem_append_left _ left),
        List.erase_cons_head]
    rw [rest]
    refine ⟨?_, ?_, ?_, ?_, ?_⟩
    · rw [links_release live counted]
      exact represents.spans.remove
    · rw [count_release live counted, represents.count]
      simp only [List.length_append, List.length_cons]
      push_cast
      omega
    · intro x member
      rw [next_release]
      exact represents.allocated x (by grind)
    · intro x member
      have other : x ≠ s := fun same => outside (same ▸ member)
      simp only [get_release live counted, if_neg other]
      exact represents.live x (by grind)
    · intro x member absent
      simp only [get_release live counted]
      split
      · rfl
      · rename_i other
        exact represents.gone x member (by grind)
  · rw [List.erase_of_not_mem tracked, represents.release_absent member tracked]
    exact represents

theorem update (represents : t.Represents added order) (s : SessionRef) (upID : String) (prio : Int) :
    (t.update s upID prio).Represents added order := by
  have released (x : SessionRef) :
      ((t.update s upID prio).sessions.get x).released = (t.sessions.get x).released := by
    rw [Tracker.update, get_modify]
    split <;> rfl
  refine ⟨?_, represents.count, represents.allocated, ?_, ?_⟩
  · rw [links_update]
    exact represents.spans
  · intro x member
    rw [released]
    exact represents.live x member
  · intro x member absent
    rw [released]
    exact represents.gone x member absent

theorem alloc (represents : t.Represents added order) (made : ∀ s ∈ added, s < t.sessions.next)
    (session : Session) :
    ({ t with sessions := (t.sessions.alloc session).2 }).Represents added order := by
  have same {x : SessionRef} (bound : x < t.sessions.next) :
      (t.sessions.alloc session).2.get x = t.sessions.get x :=
    (Heap.extends_alloc t.sessions session).get_eq x bound
  refine ⟨?_, represents.count, ?_, ?_, ?_⟩
  · refine represents.spans.congr rfl rfl (fun x member => ?_) fun x member => ?_
    · exact congrArg Session.next (same (represents.allocated x member))
    · exact congrArg Session.prev (same (represents.allocated x member))
  · exact fun x member => Nat.lt_succ_of_lt (represents.allocated x member)
  · intro x member
    exact (congrArg Session.released (same (represents.allocated x member))).trans
      (represents.live x member)
  · intro x member absent
    exact (congrArg Session.released (same (made x member))).trans (represents.gone x member absent)

theorem length_le (represents : t.Represents added order) : order.length ≤ t.sessions.next := by
  have bounded : order ⊆ List.range t.sessions.next := fun s member =>
    List.mem_range.2 (represents.allocated s member)
  simpa using (List.subperm_of_subset represents.spans.nodup bounded).length_le

theorem walk (represents : t.Represents added order) {fuel : Nat} (enough : order.length ≤ fuel) :
    t.walk fuel t.head = order := by
  rw [walk_links]
  exact represents.spans.walk_head enough

theorem listSessions (represents : t.Represents added order) :
    t.listSessions = order.map fun s => (t.sessions.get s).snapshot := by
  rw [Tracker.listSessions, represents.walk represents.length_le]

theorem pickOldestVictim (represents : t.Represents added order) :
    t.pickOldestVictim = order.head? := represents.spans.head

theorem pickLowestPriorityVictim (represents : t.Represents added order) :
    (t.pickLowestPriorityVictim = none ∧ order = []) ∨
      ∃ s, t.pickLowestPriorityVictim = some s ∧ Lowest t order s := by
  have first : t.head = order.head? := represents.spans.head
  have walked : t.walk t.sessions.next order.head? = order := by
    rw [← first, represents.walk represents.length_le]
  rw [pickLowestPriorityVictim_eq, first, walked]
  cases order with
  | nil => exact .inl ⟨rfl, rfl⟩
  | cons head rest =>
      refine .inr ?_
      rcases List.foldl_scanMax (fun x => (t.sessions.get x).upstreamPrio)
        ((head :: rest).filter fun x => (t.sessions.get x).upstreamID ≠ "") with
        ⟨none, empty⟩ | ⟨s, found, max⟩
      · refine ⟨head, by rw [none]; rfl, ?_⟩
        rw [Lowest, if_pos empty]
        rfl
      · refine ⟨s, by rw [found]; rfl, ?_⟩
        have some : ((head :: rest).filter fun x => (t.sessions.get x).upstreamID ≠ "") ≠ [] := by
          obtain ⟨pre, post, split, _⟩ := max
          rw [split]
          simp
        rw [Lowest, if_neg some]
        exact max

theorem pickVictim_mem (represents : t.Represents added order) {g : Gate} {victim : SessionRef}
    (picked : g.pickVictim t = some victim) : victim ∈ order := by
  unfold Gate.pickVictim at picked
  split at picked
  · rw [represents.pickOldestVictim] at picked
    exact List.mem_of_head? picked
  · rcases represents.pickLowestPriorityVictim with ⟨none, _⟩ | ⟨found, some, lowest⟩
    · rw [none] at picked
      cases picked
    · rw [some] at picked
      cases picked
      exact lowest.mem

end Represents

end Tracker

inductive TrackerOp
  | add (s : SessionRef)
  | release (s : SessionRef)
  | update (s : SessionRef) (upID : String) (prio : Int)

/-- A tracker in use, beside the sessions that were ever added to it and the list of those not
released since, in the order of their latest addition. -/
structure Tracked where
  tracker : Tracker
  added : List SessionRef
  order : List SessionRef

namespace Tracked

def init (sessions : Heap Session) : Tracked := ⟨Tracker.newTracker sessions, [], []⟩

/-- A caller adds sessions that exist and are not tracked, and releases sessions it has added. -/
def step (k : Tracked) : TrackerOp → Option Tracked
  | .add s =>
      if s < k.tracker.sessions.next ∧ s ∉ k.order then
        some ⟨k.tracker.add s, s :: k.added, k.order ++ [s]⟩
      else none
  | .release s =>
      if s ∈ k.added then some ⟨k.tracker.release s, k.added, k.order.erase s⟩ else none
  | .update s upID prio => some { k with tracker := k.tracker.update s upID prio }

theorem represents_step {k k' : Tracked} {op : TrackerOp} (taken : k.step op = some k')
    (represents : k.tracker.Represents k.added k.order) :
    k'.tracker.Represents k'.added k'.order := by
  cases op with
  | add s =>
      obtain ⟨⟨made, fresh⟩, ⟨⟩⟩ := Option.ite_none_right_eq_some.1 taken
      exact represents.add made fresh
  | release s =>
      obtain ⟨member, ⟨⟩⟩ := Option.ite_none_right_eq_some.1 taken
      exact represents.release member
  | update s upID prio =>
      cases taken
      exact represents.update s upID prio

theorem represents_exec {sessions : Heap Session} {trace : List (Tracked × TrackerOp)} {k : Tracked}
    (exec : Transition.Exec step (init sessions) trace k) :
    k.tracker.Represents k.added k.order :=
  exec.stable (P := fun k => k.tracker.Represents k.added k.order)
    (Tracker.represents_newTracker sessions) fun _ _ _ represents taken =>
      represents_step taken represents

structure Refines (t : Tracker) (added order : List SessionRef) : Prop where
  ends : t.head = none ↔ t.tail = none
  inverse : ∀ x ∈ order, ∀ y ∈ order,
    (t.sessions.get x).next = some y ↔ (t.sessions.get y).prev = some x
  acyclic : order.Nodup
  reached : ∀ fuel, order.length ≤ fuel → t.walk fuel t.head = order
  count : t.count = order.length
  sessions : t.listSessions = order.map fun s => (t.sessions.get s).snapshot
  released : ∀ s ∈ added, s ∉ order → t.release s = t
  releasedTwice : ∀ s ∈ added, (t.release s).release s = t.release s
  oldest : t.pickOldestVictim = order.head?
  lowest : ∀ s, t.pickLowestPriorityVictim = some s → Tracker.Lowest t order s
  noOldest : t.pickOldestVictim = none ↔ order = []
  noLowest : t.pickLowestPriorityVictim = none ↔ order = []

theorem tracker_refines (sessions : Heap Session) (trace : List (Tracked × TrackerOp)) (k : Tracked)
    (exec : Transition.Exec step (init sessions) trace k) : Refines k.tracker k.added k.order := by
  have represents := represents_exec exec
  have oldest : k.tracker.pickOldestVictim = k.order.head? := represents.pickOldestVictim
  refine ⟨?_, ?_, represents.spans.nodup, fun fuel enough => represents.walk enough,
    represents.count, represents.listSessions, fun s member => represents.release_absent member, ?_,
    oldest, ?_, ?_, ?_⟩
  · exact represents.spans.head_none_iff.trans represents.spans.tail_none_iff.symm
  · exact fun x mx y my => represents.spans.next_iff_prev mx my
  · intro s member
    refine (represents.release member).release_absent member fun again => ?_
    exact (represents.spans.nodup.mem_erase_iff.1 again).1 rfl
  · intro s picked
    rcases represents.pickLowestPriorityVictim with ⟨none, _⟩ | ⟨found, some, lowest⟩
    · rw [none] at picked
      cases picked
    · rw [some] at picked
      cases picked
      exact lowest
  · rw [oldest, List.head?_eq_none_iff]
  · rcases represents.pickLowestPriorityVictim with ⟨none, empty⟩ | ⟨found, some, lowest⟩
    · exact ⟨fun _ => empty, fun _ => none⟩
    · rw [some]
      refine ⟨fun impossible => (by cases impossible), fun empty => ?_⟩
      rw [empty] at lowest
      simp [Tracker.Lowest] at lowest

def twoSessions : Heap Session where
  cells _ := ⟨none, "", 0, 0, none, none, false⟩
  next := 2

theorem tracker_refines_readded :
    ∃ trace k, Transition.Exec step (init twoSessions) trace k ∧ k.order = [1, 0] ∧
      k.tracker.listSessions.length = 2 ∧ k.tracker.pickOldestVictim = some 1 := by
  obtain ⟨trace, k, exec, _, ordered⟩ := Transition.exec_of_play step (init twoSessions)
    [.add 0, .add 1, .release 0, .add 0] (fun _ k => k.order = [1, 0]) (by decide +kernel)
  have order := of_decide_eq_true ordered
  have refines := tracker_refines twoSessions trace k exec
  refine ⟨trace, k, exec, order, ?_, ?_⟩
  · rw [refines.sessions, List.length_map, order]
    rfl
  · rw [refines.oldest, order]
    rfl

end Tracked

namespace Tracker

def apply (t : Tracker) : TrackerOp → Tracker
  | .add s => t.add s
  | .release s => t.release s
  | .update s upID prio => t.update s upID prio

theorem released_release (t : Tracker) (s x : SessionRef) :
    ((t.release s).sessions.get x).released = (decide (x = s) || (t.sessions.get x).released) := by
  by_cases live : (t.sessions.get s).released = false
  · by_cases counted : 0 < t.count
    · rw [get_release live counted]
      by_cases same : x = s <;> simp [same]
    · rw [release, if_neg (by simp [live]), if_pos (by omega), get_modify]
      by_cases same : x = s <;> simp [same]
  · rw [Bool.not_eq_false] at live
    rw [release, if_pos live]
    by_cases same : x = s <;> simp [same, live]

theorem released_run (sessions : Heap Session) {s : SessionRef} {ops : List TrackerOp}
    (never : .add s ∉ ops) :
    ((ops.foldl apply (newTracker sessions)).sessions.get s).released = true ↔
      (sessions.get s).released = true ∨ .release s ∈ ops := by
  induction ops using List.reverseRecOn with
  | nil => simp [newTracker]
  | append_singleton ops op ih =>
      rw [List.mem_append, not_or] at never
      rw [List.foldl_append, List.foldl_cons, List.foldl_nil, List.mem_append, ← or_assoc, ← ih never.1]
      generalize ops.foldl apply (newTracker sessions) = t
      cases op with
      | add x =>
          have other : s ≠ x := fun same => never.2 (by simp [same])
          simp [apply, get_add, other]
      | release x => simp [apply, released_release, or_comm]
      | update x upID prio =>
          simp only [apply, update, get_modify]
          split <;> simp

theorem listSessions_mark (t : Tracker) (s : SessionRef) :
    (t.modify s fun x => { x with released := true }).listSessions = t.listSessions := by
  have links : (t.modify s fun x => { x with released := true }).links = t.links := by
    refine Links.ext rfl rfl (funext fun x => ?_) (funext fun x => ?_)
    · simp only [Tracker.links, get_modify]
      split <;> rfl
    · simp only [Tracker.links, get_modify]
      split <;> rfl
  rw [listSessions, listSessions, walk_links, walk_links, links]
  apply List.map_congr_left
  intro x _
  rw [get_modify]
  split <;> rfl

/-- The guard looks at the count alone, so releasing a session that was never added is harmless only
while the tracker counts nobody, unless it was released before. -/
theorem release_never_added_iff (sessions : Heap Session) {s : SessionRef} {ops : List TrackerOp}
    (never : .add s ∉ ops) :
    let t := ops.foldl apply (newTracker sessions)
    ((t.release s).listSessions = t.listSessions ∧ (t.release s).count = t.count ∧
      (t.release s).head = t.head ∧ (t.release s).tail = t.tail) ↔
    (sessions.get s).released = true ∨ .release s ∈ ops ∨ t.count ≤ 0 := by
  intro t
  have flag : (t.sessions.get s).released = true ↔ _ := released_run sessions never
  rw [← or_assoc, ← flag]
  clear_value t
  constructor
  · rintro ⟨-, count, -, -⟩
    by_contra guarded
    rw [not_or, Bool.not_eq_true] at guarded
    rw [count_release guarded.1 (by omega)] at count
    omega
  · intro guarded
    by_cases live : (t.sessions.get s).released = true
    · rw [release, if_pos live]
      exact ⟨rfl, rfl, rfl, rfl⟩
    · have empty := guarded.resolve_left live
      rw [release, if_neg live, if_pos empty]
      exact ⟨t.listSessions_mark s, rfl, rfl, rfl⟩

/-- One session is tracked, and another one was released before that. -/
theorem release_never_added_iff_again :
    let t := [TrackerOp.release 1, .add 0].foldl apply (newTracker Tracked.twoSessions)
    t.count = 1 ∧ (t.sessions.get 1).released = true ∧
      (t.release 1).listSessions = t.listSessions ∧ (t.release 1).count = t.count ∧
      (t.release 1).head = t.head ∧ (t.release 1).tail = t.tail :=
  ⟨by decide +kernel, by decide +kernel,
    (@release_never_added_iff Tracked.twoSessions 1 [.release 1, .add 0] (by simp)).2 (.inr (.inl (by simp)))⟩

/-- One session is tracked and another one, which was never added, is released: nobody is tracked
any more. -/
theorem never_added_empties : let t := [TrackerOp.add 0].foldl apply (newTracker Tracked.twoSessions)
    t.listSessions.length = 1 ∧ t.count = 1 ∧ t.head = some 0 ∧ t.tail = some 0 ∧
    (t.release 1).listSessions = [] ∧ (t.release 1).count = 0 ∧ (t.release 1).head = none ∧
    (t.release 1).tail = none := by
  decide +kernel

end Tracker

end S5lb
