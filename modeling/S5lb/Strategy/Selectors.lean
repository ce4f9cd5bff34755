import S5lb.Config.Config
import S5lb.Lib.Drawing

namespace S5lb

structure SelectCtx where
  clientAddr : Option String
  dstHost : String
  dstPort : UInt16
  hashKey : HashKey
  deriving DecidableEq

def SelectCtx.hashInput (sc : SelectCtx) : String :=
  match sc.hashKey with
  | .destination => sc.dstHost ++ ":" ++ toString sc.dstPort.toNat
  | .destHost => sc.dstHost
  | _ =>
      match sc.clientAddr with
      | none => ""
      | some addr =>
          match Go.Net.splitHostPort addr with
          | .error _ => addr
          | .ok (host, _) => host

def Snapshot.eligible (s : Snapshot) (maxPer : Int) : Bool := s.healthy && decide (s.active < maxPer)

def eligible (pool : List Snapshot) (maxPer : Int) : List Snapshot :=
  pool.filter (·.eligible maxPer)

def effectiveWeight (s : Snapshot) : Int := if s.weight ≤ 0 then 1 else s.weight

def int64 (x : Int) : Int := x.bmod (2 ^ 64)

/-- The scan of the least-active and the least-latency selector: keep the first snapshot of the
best score, and let each one tied with it replace it by reservoir sampling. -/
def reservoirScan {β : Type} (score : Snapshot → β) (better tied : β → β → Bool) (maxPer : Int) :
    List Snapshot → String → β → Nat → Drawing String
  | [], bestID, _, _ => .ret bestID
  | u :: rest, bestID, best, tieCount =>
      if !u.eligible maxPer then reservoirScan score better tied maxPer rest bestID best tieCount
      else if bestID = "" ∨ better (score u) best then
        reservoirScan score better tied maxPer rest u.id (score u) 1
      else if tied (score u) best then
        .draw (tieCount + 1) fun d =>
          reservoirScan score better tied maxPer rest (if d.val = 0 then u.id else bestID) best
            (tieCount + 1)
      else reservoirScan score better tied maxPer rest bestID best tieCount

def LeastActiveSelector.pick (pool : List Snapshot) (maxPer : Int) : Drawing String :=
  reservoirScan (·.active) (fun x y => decide (x < y)) (fun x y => decide (x = y)) maxPer pool
    "" (-1) 0

namespace LeastLatencySelector

def score (u : Snapshot) : Float64 :=
  let lat := if u.ewmaLatency.le (.fin 0) then Float64.round (1 / 10 ^ (9 : ℕ)) else u.ewmaLatency
  lat.mul (Float64.ofInt (1 + u.active))

def pick (pool : List Snapshot) (maxPer : Int) : Drawing String :=
  reservoirScan score Float64.lt Float64.eq maxPer pool "" Float64.maxValue 0

end LeastLatencySelector

namespace RoundRobinSelector

def attempt (pool : List Snapshot) (maxPer : Int) (idx : UInt64) : Option String × UInt64 :=
  let added := idx + 1
  let i := (added - 1).toNat % pool.length
  ((pool[i]?.filter (·.eligible maxPer)).map (·.id), added)

def scan (pool : List Snapshot) (maxPer : Int) : Nat → UInt64 → String × UInt64
  | 0, idx => ("", idx)
  | attempts + 1, idx =>
      match attempt pool maxPer idx with
      | (some id, idx) => (id, idx)
      | (none, idx) => scan pool maxPer attempts idx

def pick (idx : UInt64) (pool : List Snapshot) (maxPer : Int) : String × UInt64 :=
  scan pool maxPer pool.length idx

end RoundRobinSelector

namespace WRRSelector

abbrev Current := String → Option Int

def prune (current : Current) (pool : List Snapshot) : Current :=
  fun id => if pool.any (·.id == id) then current id else none

structure Best where
  current : Current
  total : Int
  bestID : String
  bestCur : Int

def visit (wrap : Int → Int) (maxPer : Int) (acc : Best) (u : Snapshot) : Best :=
  if !u.eligible maxPer then acc
  else
    let w := effectiveWeight u
    let cur := wrap ((acc.current u.id).getD 0 + w)
    let current := Function.update acc.current u.id (some cur)
    let total := wrap (acc.total + w)
    if acc.bestID = "" ∨ cur > acc.bestCur then ⟨current, total, u.id, cur⟩
    else ⟨current, total, acc.bestID, acc.bestCur⟩

def pick (wrap : Int → Int) (current : Current) (pool : List Snapshot) (maxPer : Int) :
    String × Current :=
  let best := pool.foldl (visit wrap maxPer) ⟨prune current pool, 0, "", 0⟩
  if best.bestID = "" then ("", best.current)
  else (best.bestID,
    Function.update best.current best.bestID (some (wrap (best.bestCur - best.total))))

end WRRSelector

def RandomSelector.pick (pool : List Snapshot) (maxPer : Int) : Drawing String :=
  let cands := eligible pool maxPer
  if cands.isEmpty then .ret ""
  else .draw cands.length fun d => .ret (cands.get d).id

namespace WeightedRandomSelector

def locate (fallback : String) : List Snapshot → Int → String
  | [], _ => fallback
  | u :: rest, r =>
      if r < effectiveWeight u then u.id else locate fallback rest (r - effectiveWeight u)

def pick (pool : List Snapshot) (maxPer : Int) : Drawing String :=
  let cands := eligible pool maxPer
  let total := cands.foldl (fun total u => int64 (total + effectiveWeight u)) 0
  if cands.isEmpty then .ret ""
  else if total ≤ 0 then .draw cands.length fun d => .ret (cands.get d).id
  else .draw total.toNat fun r => .ret (locate ((cands.getLast?.map (·.id)).getD "") cands r)

end WeightedRandomSelector

def P2CSelector.pick (pool : List Snapshot) (maxPer : Int) : Drawing String :=
  match eligible pool maxPer with
  | [] => .ret ""
  | [u] => .ret u.id
  | cands =>
      .draw cands.length fun i => .draw (cands.length - 1) fun j =>
        let a := cands[i.val]?
        let b := cands[if j.val ≥ i.val then j.val + 1 else j.val]?
        match a, b with
        | some a, some b => .ret (if a.active ≤ b.active then a.id else b.id)
        | _, _ => .ret ""

namespace ConsistentHashSelector

def fnv1a (h : UInt64) (bytes : List UInt8) : UInt64 :=
  bytes.foldl (fun h b => (h ^^^ b.toUInt64) * 1099511628211) h

def hrw (key target : String) : UInt64 :=
  fnv1a 14695981039346656037 (Go.stringBytes key ++ [0] ++ Go.stringBytes target)

def scan (key : String) (maxPer : Int) : List Snapshot → String → UInt64 → String
  | [], bestID, _ => bestID
  | u :: rest, bestID, bestH =>
      if !u.eligible maxPer then scan key maxPer rest bestID bestH
      else if bestID = "" ∨ hrw key u.id > bestH then scan key maxPer rest u.id (hrw key u.id)
      else scan key maxPer rest bestID bestH

def pick (sc : SelectCtx) (pool : List Snapshot) (maxPer : Int) : String :=
  scan sc.hashInput maxPer pool "" 0

end ConsistentHashSelector

def PriorityFailoverSelector.pick (pool : List Snapshot) (maxPer : Int) : String :=
  ((pool.find? (·.eligible maxPer)).map (·.id)).getD ""

inductive Selector
  | leastActive
  | roundRobin (idx : UInt64)
  | wrr (current : WRRSelector.Current)
  | random
  | weightedRandom
  | p2c
  | leastLatency
  | consistentHash
  | priorityFailover

namespace Selector

def name : Selector → String
  | .leastActive => "least-active"
  | .roundRobin _ => "round-robin"
  | .wrr _ => "weighted-round-robin"
  | .random => "random"
  | .weightedRandom => "weighted-random"
  | .p2c => "p2c"
  | .leastLatency => "least-latency"
  | .consistentHash => "consistent-hash"
  | .priorityFailover => "priority-failover"

/-- `Selector.Pick` without a concurrent call: the chosen ID and the selector afterwards. -/
def pick (sel : Selector) (sc : SelectCtx) (pool : List Snapshot) (maxPer : Int) :
    Drawing (String × Selector) :=
  match sel with
  | .leastActive => (LeastActiveSelector.pick pool maxPer).map (·, sel)
  | .roundRobin idx =>
      let (id, idx) := RoundRobinSelector.pick idx pool maxPer
      .ret (id, .roundRobin idx)
  | .wrr current =>
      let (id, current) := WRRSelector.pick int64 current pool maxPer
      .ret (id, .wrr current)
  | .random => (RandomSelector.pick pool maxPer).map (·, sel)
  | .weightedRandom => (WeightedRandomSelector.pick pool maxPer).map (·, sel)
  | .p2c => (P2CSelector.pick pool maxPer).map (·, sel)
  | .leastLatency => (LeastLatencySelector.pick pool maxPer).map (·, sel)
  | .consistentHash => .ret (ConsistentHashSelector.pick sc pool maxPer, sel)
  | .priorityFailover => .ret (PriorityFailoverSelector.pick pool maxPer, sel)

/-- One atomic section of `Selector.Pick`, after `attempts` earlier ones of the same call. Only
round-robin has more than one, since each turn of its loop moves the shared cursor once; `none`
asks for another. -/
def advance (sel : Selector) (sc : SelectCtx) (pool : List Snapshot) (maxPer : Int)
    (attempts : Nat) : Drawing (Option String × Selector) :=
  match sel with
  | .roundRobin idx =>
      if pool.length ≤ attempts then .ret (some "", sel)
      else match RoundRobinSelector.attempt pool maxPer idx with
        | (some id, idx) => .ret (some id, .roundRobin idx)
        | (none, idx) =>
            .ret (if attempts + 1 < pool.length then none else some "", .roundRobin idx)
  | sel => (sel.pick sc pool maxPer).map fun (id, sel) => (some id, sel)

end Selector

def strategyNew (name : String) : Except String Selector :=
  match Go.toLower (Go.trimSpace name) with
  | "" | "least-active" | "leastconn" => .ok .leastActive
  | "round-robin" | "rr" => .ok (.roundRobin 0)
  | "weighted-round-robin" | "wrr" => .ok (.wrr fun _ => none)
  | "random" => .ok .random
  | "weighted-random" | "wrandom" => .ok .weightedRandom
  | "p2c" | "power-of-two" => .ok .p2c
  | "least-latency" | "ll" => .ok .leastLatency
  | "consistent-hash" | "hash" => .ok .consistentHash
  | "priority-failover" | "priority" | "failover" => .ok .priorityFailover
  | _ => .error ("unknown strategy " ++ Go.quote name)

end S5lb
