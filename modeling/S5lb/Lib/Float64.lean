import Mathlib.Algebra.Order.Floor.Ring
import Mathlib.Data.Int.Log
import Mathlib.Data.Rat.Floor

inductive Float64 : Type
  | nan
  | inf (negative : Bool)
  | fin (q : ℚ)
  deriving DecidableEq

namespace Float64

def roundHalfEven (x : ℚ) : ℤ :=
  let below := ⌊x⌋
  if x - below < 1 / 2 then below
  else if 1 / 2 < x - below then below + 1
  else if below % 2 = 0 then below else below + 1

/-- Round to 53 significant bits, gradually below the normal range and to infinity above it. -/
def round (q : ℚ) : Float64 :=
  if q = 0 then .fin 0
  else
    let ulp : ℚ := 2 ^ max (Int.log 2 |q| - 52) (-1074)
    let r : ℚ := roundHalfEven (q / ulp) * ulp
    if 2 ^ (1024 : ℕ) ≤ |r| then .inf (decide (q < 0)) else .fin r

def ofInt (n : ℤ) : Float64 := round n

def mul : Float64 → Float64 → Float64
  | .fin p, .fin q => round (p * q)
  | .nan, _ | _, .nan => .nan
  | .inf s, .inf t => .inf (s != t)
  | .inf s, .fin q => if q = 0 then .nan else .inf (s != decide (q < 0))
  | .fin q, .inf s => if q = 0 then .nan else .inf (s != decide (q < 0))

def add : Float64 → Float64 → Float64
  | .fin p, .fin q => round (p + q)
  | .nan, _ | _, .nan => .nan
  | .inf s, .inf t => if s = t then .inf s else .nan
  | .inf s, .fin _ | .fin _, .inf s => .inf s

def lt : Float64 → Float64 → Bool
  | .fin p, .fin q => decide (p < q)
  | .nan, _ | _, .nan => false
  | .inf s, .inf t => s && !t
  | .inf s, .fin _ => s
  | .fin _, .inf t => !t

def eq : Float64 → Float64 → Bool
  | .nan, _ | _, .nan => false
  | .fin p, .fin q => decide (p = q)
  | .inf s, .inf t => s == t
  | .inf _, .fin _ | .fin _, .inf _ => false

def le (x y : Float64) : Bool := lt x y || eq x y

def maxValue : Float64 := .fin ((2 ^ (53 : ℕ) - 1) * 2 ^ (971 : ℕ))

end Float64
