import S5lb.Admission.Gate
import S5lb.Admission.Tracker

namespace S5lb

inductive Outcome
  | admitted
  | rejected
  | evicted
  deriving DecidableEq

structure Decision where
  outcome : Outcome
  reason : String
  deriving DecidableEq

namespace Tracker

def walk (t : Tracker) : Nat → Option SessionRef → List SessionRef
  | fuel + 1, some s => s :: t.walk fuel (t.sessions.get s).next
  | _, _ => []

def pickOldestVictim (t : Tracker) : Option SessionRef := t.head

def pickLowestPriorityVictim (t : Tracker) : Option SessionRef :=
  t.head.map fun head =>
    let worst := (t.walk t.sessions.next t.head).foldl (fun worst s =>
      if (t.sessions.get s).upstreamID = "" then worst
      else match worst with
        | none => some s
        | some w => if (t.sessions.get s).upstreamPrio > (t.sessions.get w).upstreamPrio then some s
            else worst) none
    worst.getD head

end Tracker

inductive Ready
  | slot
  | done
  | timer
  deriving DecidableEq

inductive AcquirePc
  | trying
  | picking
  | closing (victim : SessionRef)
  | waiting (evicting : Bool)
  | refused (evicting : Bool)
  | counting (evicting : Bool)
  | returned (dec : Decision)
  deriving DecidableEq

namespace Gate

def hasRoom (g : Gate) : Bool := (g.slots : Int) < g.cap

def pickVictim (g : Gate) (tracker : Tracker) : Option SessionRef :=
  if g.pickOldest then tracker.pickOldestVictim else tracker.pickLowestPriorityVictim

def refusal (g : Gate) (canceled evicting : Bool) : Decision :=
  match g.type with
  | .evictGate => ⟨.rejected, if evicting then "evict_wait_timeout" else "evict_no_victim"⟩
  | _ => ⟨.rejected, if canceled then "admission_canceled" else "admission_wait_timeout"⟩

/-- `Acquire` of the three gates, one channel operation, atomic add or locked section at a time. -/
def acquireStep (g : Gate) (tracker : Tracker) (canceled : Bool) (ready : Ready) :
    AcquirePc → Option (Gate × AcquirePc)
  | .trying =>
      if g.hasRoom then some ({ g with slots := g.slots + 1 }, .counting false)
      else match g.type with
        | .rejectGate => some (g, .returned ⟨.rejected, "admission_full"⟩)
        | .waitGate => some (g, .waiting false)
        | .evictGate => some (g, .picking)
  | .picking =>
      match g.pickVictim tracker with
      | none => some (g, .waiting false)
      | some victim => some (g, .closing victim)
  | .closing _ => some (g, .waiting true)
  | .waiting evicting =>
      match ready with
      | .slot =>
          if g.hasRoom then some ({ g with slots := g.slots + 1 }, .counting evicting) else none
      | .done => if canceled then some (g, .refused evicting) else none
      | .timer => if 0 < g.waitTO then some (g, .refused evicting) else none
  | .refused evicting => some (g, .returned (g.refusal canceled evicting))
  | .counting evicting =>
      let outcome := if evicting then .evicted else .admitted
      some ({ g with inflight := g.inflight + 1 }, .returned ⟨outcome, ""⟩)
  | .returned _ => none

def takeOut (g : Gate) : Gate × Bool :=
  if 0 < g.slots then ({ g with slots := g.slots - 1 }, true) else (g, false)

def countOut (g : Gate) : Gate := { g with inflight := g.inflight - 1 }

end Gate

namespace AcquirePc

def holds : AcquirePc → Bool
  | .counting _ => true
  | .returned dec => dec.outcome ≠ .rejected
  | _ => false

end AcquirePc

namespace Gate

inductive Acquires (g : Gate) (tracker : Tracker) : AcquirePc → Gate → AcquirePc → Prop
  | put (room : g.hasRoom = true) :
      Acquires g tracker .trying { g with slots := g.slots + 1 } (.counting false)
  | full (reason : String) : Acquires g tracker .trying g (.returned ⟨.rejected, reason⟩)
  | wait : Acquires g tracker .trying g (.waiting false)
  | evict : Acquires g tracker .trying g .picking
  | spare : Acquires g tracker .picking g (.waiting false)
  | select {victim : SessionRef} (picked : g.pickVictim tracker = some victim) :
      Acquires g tracker .picking g (.closing victim)
  | close {victim : SessionRef} : Acquires g tracker (.closing victim) g (.waiting true)
  | enter {evicting : Bool} (room : g.hasRoom = true) :
      Acquires g tracker (.waiting evicting) { g with slots := g.slots + 1 } (.counting evicting)
  | leave {evicting : Bool} : Acquires g tracker (.waiting evicting) g (.refused evicting)
  | refuse {evicting : Bool} {dec : Decision} (rejected : dec.outcome = .rejected) :
      Acquires g tracker (.refused evicting) g (.returned dec)
  | count {evicting : Bool} {dec : Decision} (success : dec.outcome ≠ .rejected) :
      Acquires g tracker (.counting evicting) { g with inflight := g.inflight + 1 } (.returned dec)

theorem refusal_rejected (g : Gate) (canceled evicting : Bool) :
    (g.refusal canceled evicting).outcome = .rejected := by
  unfold refusal
  split <;> rfl

theorem acquires_of_acquireStep {g g' : Gate} {tracker : Tracker} {canceled : Bool} {ready : Ready}
    {pc pc' : AcquirePc} (stepped : g.acquireStep tracker canceled ready pc = some (g', pc')) :
    g.Acquires tracker pc g' pc' := by
  cases pc with
  | trying =>
      simp only [acquireStep] at stepped
      split at stepped
      · rename_i room
        cases stepped
        exact .put room
      · split at stepped <;> cases stepped
        · exact .full _
        · exact .wait
        · exact .evict
  | picking =>
      simp only [acquireStep] at stepped
      split at stepped
      · cases stepped
        exact .spare
      · rename_i picked
        cases stepped
        exact .select picked
  | closing victim =>
      cases stepped
      exact .close
  | waiting evicting =>
      cases ready with
      | slot =>
          obtain ⟨room, ⟨⟩⟩ := Option.ite_none_right_eq_some.1 stepped
          exact .enter room
      | done | timer =>
          obtain ⟨_, ⟨⟩⟩ := Option.ite_none_right_eq_some.1 stepped
          exact .leave
  | refused evicting =>
      cases stepped
      exact .refuse (g.refusal_rejected canceled evicting)
  | counting evicting =>
      cases stepped
      exact .count (by cases evicting <;> decide)
  | returned dec => cases stepped

structure Acquired (g : Gate) (pc : AcquirePc) (g' : Gate) (pc' : AcquirePc) : Prop where
  type : g'.type = g.type
  cap : g'.cap = g.cap
  slots : g'.slots + pc.holds.toNat = g.slots + pc'.holds.toNat
  room : (g.slots : Int) ≤ g.cap → (g'.slots : Int) ≤ g'.cap

theorem room_after_put {g : Gate} (room : g.hasRoom = true) :
    ((g.slots + 1 : Nat) : Int) ≤ g.cap := by
  have below := of_decide_eq_true room
  omega

theorem Acquires.acquired {g g' : Gate} {tracker : Tracker} {pc pc' : AcquirePc}
    (acquires : g.Acquires tracker pc g' pc') : g.Acquired pc g' pc' := by
  cases acquires with
  | put room | enter room => exact ⟨rfl, rfl, rfl, fun _ => room_after_put room⟩
  | full | wait | evict | spare | select | close | leave => exact ⟨rfl, rfl, rfl, id⟩
  | refuse rejected => exact ⟨rfl, rfl, by simp [AcquirePc.holds, rejected], id⟩
  | count success => exact ⟨rfl, rfl, by simp [AcquirePc.holds, success], id⟩

theorem acquired_of_acquireStep {g g' : Gate} {tracker : Tracker} {canceled : Bool} {ready : Ready}
    {pc pc' : AcquirePc} (stepped : g.acquireStep tracker canceled ready pc = some (g', pc')) :
    g.Acquired pc g' pc' :=
  (acquires_of_acquireStep stepped).acquired

end Gate

end S5lb
