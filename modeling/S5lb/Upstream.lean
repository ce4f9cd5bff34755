import S5lb.Go.Sha1
import S5lb.Go.Strings
import S5lb.Lib.Float64
import S5lb.Lib.Heap

namespace S5lb

/-- Nanoseconds; the zero `time.Time` is `0`. -/
abbrev Time := Int

abbrev Duration := Int

abbrev StateRef := Nat

structure State where
  active : Nat
  healthy : Bool
  draining : Bool
  lastFailureTS : Time
  firstFailureTS : Time
  consecutiveFailures : Nat
  totalSessions : UInt64
  totalFailures : UInt64
  ewma : Float64
  deriving DecidableEq

def newState : State where
  active := 0
  healthy := true
  draining := false
  lastFailureTS := 0
  firstFailureTS := 0
  consecutiveFailures := 0
  totalSessions := 0
  totalFailures := 0
  ewma := .fin 0

namespace State

/-- `none` when the reservation is refused, which leaves the state as it was. -/
def incActive (s : State) (max : Int) : Option State :=
  if !s.healthy || s.draining then none
  else if (s.active : Int) ≥ max then none
  else some { s with active := s.active + 1, totalSessions := s.totalSessions + 1 }

def decActive (s : State) : State :=
  if s.active > 0 then { s with active := s.active - 1 } else s

def markHealthy (s : State) : State × Bool :=
  if s.healthy then (s, false)
  else ({ s with healthy := true, consecutiveFailures := 0, firstFailureTS := 0 }, true)

def markUnhealthy (s : State) (now : Time) : State × Bool :=
  if !s.healthy then (s, false)
  else ({ s with healthy := false, lastFailureTS := now }, true)

def recordSuccess (s : State) : State :=
  if s.consecutiveFailures > 0 then { s with consecutiveFailures := 0, firstFailureTS := 0 } else s

def recordFailure (s : State) (threshold : Int) (window : Duration) (now : Time) :
    State × Nat × Bool :=
  let counted := { s with totalFailures := s.totalFailures + 1 }
  let expired := if counted.consecutiveFailures > 0 ∧ now - counted.firstFailureTS > window then
      { counted with consecutiveFailures := 0 }
    else counted
  let opened := if expired.consecutiveFailures = 0 then { expired with firstFailureTS := now }
    else expired
  let failed :=
    { opened with consecutiveFailures := opened.consecutiveFailures + 1, lastFailureTS := now }
  if failed.healthy ∧ (failed.consecutiveFailures : Int) ≥ threshold then
    ({ failed with healthy := false }, failed.consecutiveFailures, true)
  else (failed, failed.consecutiveFailures, false)

def setDrain (s : State) (drain : Bool) : State := { s with draining := drain }

def ewmaAlpha : ℚ := 1 / 5

def seconds (d : Duration) : Float64 :=
  Float64.add (Float64.ofInt (d.tdiv 1000000000))
    (Float64.round (d.tmod 1000000000 / 1000000000))

def observeLatency (s : State) (d : Duration) : State :=
  let sample := seconds d
  let next := if s.ewma.eq (.fin 0) then sample
    else ((Float64.round ewmaAlpha).mul sample).add ((Float64.round (1 - ewmaAlpha)).mul s.ewma)
  { s with ewma := next }

def canServe (s : State) (max : Int) : Bool :=
  s.healthy && !s.draining && decide ((s.active : Int) < max)

theorem incActive_eq (s : State) (max : Int) :
    s.incActive max = if s.canServe max then
      some { s with active := s.active + 1, totalSessions := s.totalSessions + 1 } else none := by
  unfold incActive canServe
  cases s.healthy <;> cases s.draining <;> by_cases full : (s.active : Int) < max
  all_goals simp [full, not_le.mpr, not_lt.mp]

theorem incActive_eq_none {s : State} {max : Int} :
    s.incActive max = none ↔ s.canServe max = false := by
  simp [incActive_eq]

theorem incActive_eq_some {s s' : State} {max : Int} : s.incActive max = some s' ↔
    s.canServe max = true ∧
      s' = { s with active := s.active + 1, totalSessions := s.totalSessions + 1 } := by
  rw [incActive_eq, Option.ite_none_right_eq_some, Option.some_inj, @eq_comm _ _ s']

theorem decActive_active (s : State) : s.decActive.active = s.active - 1 := by
  unfold decActive
  split
  · rfl
  · omega

end State

structure Upstream where
  id : String
  host : String
  port : Int
  username : String
  password : String
  weight : Int
  priority : Int
  state : StateRef
  deriving DecidableEq

namespace Upstream

def addr (u : Upstream) : String :=
  if u.host.toList.contains ':' && u.host.toList.head? != some '[' then
    "[" ++ u.host ++ "]:" ++ toString u.port
  else u.host ++ ":" ++ toString u.port

def normalizeID (u : Upstream) : Upstream :=
  if u.id ≠ "" then u
  else { u with id := Go.hexEncode ((Go.Sha1.sum (Go.stringBytes u.addr)).take 8) }

def new (heap : Heap State) (host : String) (port : Int) (user pass : String)
    (weight priority : Int) : Upstream × Heap State :=
  let (state, heap) := heap.alloc newState
  (normalizeID ⟨"", host, port, user, pass, weight, priority, state⟩, heap)

end Upstream

structure Snapshot where
  id : String
  addr : String
  weight : Int
  priority : Int
  active : Int
  healthy : Bool
  draining : Bool
  consecutiveFailures : Int
  ewmaLatency : Float64
  totalSessions : UInt64
  totalFailures : UInt64
  deriving DecidableEq

def Upstream.snapshot (u : Upstream) (heap : Heap State) : Snapshot :=
  let s := heap.get u.state
  { id := u.id
    addr := u.addr
    weight := u.weight
    priority := u.priority
    active := s.active
    healthy := s.healthy
    draining := s.draining
    consecutiveFailures := s.consecutiveFailures
    ewmaLatency := s.ewma
    totalSessions := s.totalSessions
    totalFailures := s.totalFailures }

end S5lb
