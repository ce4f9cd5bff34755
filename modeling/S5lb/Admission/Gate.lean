import S5lb.Config.Config

namespace S5lb

abbrev GateRef := Nat

inductive GateType
  | rejectGate
  | waitGate
  | evictGate
  deriving DecidableEq

/-- A gate object: its concrete type with the `tokenGate` it embeds. `slots` counts the tokens in
the channel of capacity `cap`; `pickOldest` is read by `evictGate` only. -/
structure Gate where
  type : GateType
  cap : Int
  slots : Nat
  inflight : Int
  waitTO : Duration
  pickOldest : Bool
  deriving DecidableEq

def BackpressureStrategy.gateType : BackpressureStrategy → GateType
  | .wait => .waitGate
  | .dropOldest | .dropLowestPriority => .evictGate
  | .reject | .other _ => .rejectGate

def admissionNew (cfg : Config) : Gate where
  type := cfg.backpressure.gateType
  cap := cfg.maxClients
  slots := 0
  inflight := 0
  waitTO := cfg.admissionWaitTimeout
  pickOldest := cfg.backpressure = .dropOldest

end S5lb
