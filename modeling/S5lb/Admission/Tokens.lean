import S5lb.Admission.Sessions
import S5lb.Lib.Ledger
import S5lb.Lib.Threads

namespace S5lb

open Transition Ledger

namespace AcquirePc

def counted : AcquirePc → Bool
  | .returned dec => dec.outcome ≠ .rejected
  | _ => false

def midStep : AcquirePc → Bool
  | .counting _ => true
  | _ => false

theorem holds_toNat (pc : AcquirePc) : pc.holds.toNat = pc.counted.toNat + pc.midStep.toNat := by
  cases pc <;> rfl

end AcquirePc

namespace Gate

def noTracker : Tracker := Tracker.newTracker Tracker.noSessions

def acquireCall (g : Gate) (tracker : Option Tracker) (canceled : Bool) (ready : Ready)
    (pc : AcquirePc) : Option (Gate × AcquirePc) :=
  match tracker, pc, g.type with
  | none, .refused _, .evictGate => some (g, .returned ⟨.rejected, "evict_no_tracker"⟩)
  | tracker, pc, _ => g.acquireStep (tracker.getD noTracker) canceled ready pc

structure Accounted (g : Gate) (pc : AcquirePc) (g' : Gate) (pc' : AcquirePc) : Prop
    extends Acquired g pc g' pc' where
  keeps : pc.holds = true → pc'.holds = true
  inflight : g'.inflight + pc.counted.toNat = g.inflight + pc'.counted.toNat

theorem Acquires.accounted {g g' : Gate} {tracker : Tracker} {pc pc' : AcquirePc}
    (acquires : g.Acquires tracker pc g' pc') : g.Accounted pc g' pc' := by
  refine ⟨acquires.acquired, ?_, ?_⟩
  · cases acquires with
    | count success => exact fun _ => decide_eq_true success
    | _ => exact fun holds => by cases holds
  · cases acquires with
    | refuse rejected => simp [AcquirePc.counted, rejected]
    | count success => simp [AcquirePc.counted, success]
    | _ => rfl

theorem accounted_of_acquireCall {g g' : Gate} {tracker : Option Tracker} {canceled : Bool}
    {ready : Ready} {pc pc' : AcquirePc}
    (stepped : g.acquireCall tracker canceled ready pc = some (g', pc')) :
    g.Accounted pc g' pc' := by
  unfold acquireCall at stepped
  split at stepped
  · cases stepped
    exact ⟨⟨rfl, rfl, rfl, id⟩, by simp [AcquirePc.holds], rfl⟩
  · exact (acquires_of_acquireStep stepped).accounted

end Gate

inductive CallPc
  | acquiring (pc : AcquirePc)
  | countingOut
  | released (found : Bool)
  deriving DecidableEq

structure Call where
  pc : CallPc
  puts : Nat
  takes : Nat
  deriving DecidableEq

namespace Call

def admitted (call : Call) : Bool :=
  match call.pc with
  | .acquiring pc => pc.counted
  | _ => false

def midStep (call : Call) : Bool :=
  match call.pc with
  | .acquiring pc => pc.midStep
  | .countingOut => true
  | .released _ => false

def tokens (call : Call) : Nat :=
  match call.pc with
  | .acquiring pc => pc.holds.toNat
  | _ => 0

def counted (call : Call) : Nat :=
  match call.pc with
  | .acquiring pc => pc.counted.toNat
  | .countingOut => 1
  | .released _ => 0

def Settled (call : Call) : Prop :=
  call.takes = 0 ∧
    match call.pc with
    | .acquiring pc => call.puts = pc.holds.toNat
    | .countingOut => call.puts = 1
    | .released found => call.puts = 1 ∧ found = true

end Call

structure TokenSys where
  gate : Gate
  calls : List Call
  deriving DecidableEq

/-- What a step of `Acquire` meets is free: the tracker, the state of the context, the case a `select`
takes. -/
inductive TokenAction
  | call
  | acquire (i : Nat) (tracker : Option Tracker) (canceled : Bool) (ready : Ready)
  | release (i : Nat)
  | countOut (i : Nat)

namespace TokenSys

def init (cfg : Config) : TokenSys := ⟨admissionNew cfg, []⟩

def step (s : TokenSys) : TokenAction → Option TokenSys
  | .call => some { s with calls := s.calls ++ [⟨.acquiring .trying, 0, 0⟩] }
  | .acquire i tracker canceled ready =>
      match s.calls[i]? with
      | some ⟨.acquiring pc, puts, takes⟩ =>
          (s.gate.acquireCall tracker canceled ready pc).map fun (gate, pc') =>
            ⟨gate, s.calls.set i ⟨.acquiring pc', puts + (gate.slots - s.gate.slots),
              takes + (s.gate.slots - gate.slots)⟩⟩
      | _ => none
  | .release i =>
      match s.calls[i]? with
      | some ⟨.acquiring (.returned dec), puts, takes⟩ =>
          if dec.outcome ≠ .rejected then
            some ⟨s.gate.takeOut.1, s.calls.set i
              ⟨if s.gate.takeOut.2 then .countingOut else .released false, puts, takes⟩⟩
          else none
      | _ => none
  | .countOut i =>
      match s.calls[i]? with
      | some ⟨.countingOut, puts, takes⟩ =>
          some ⟨s.gate.countOut, s.calls.set i ⟨.released true, puts, takes⟩⟩
      | _ => none

inductive Steps (s : TokenSys) : TokenSys → Prop
  | call : Steps s { s with calls := s.calls ++ [⟨.acquiring .trying, 0, 0⟩] }
  | acquire {i : Nat} {pc pc' : AcquirePc} {puts takes : Nat} {gate : Gate}
      (here : s.calls[i]? = some ⟨.acquiring pc, puts, takes⟩)
      (accounted : s.gate.Accounted pc gate pc') :
      Steps s ⟨gate, s.calls.set i ⟨.acquiring pc', puts + (gate.slots - s.gate.slots),
        takes + (s.gate.slots - gate.slots)⟩⟩
  | release {i : Nat} {dec : Decision} {puts takes : Nat}
      (here : s.calls[i]? = some ⟨.acquiring (.returned dec), puts, takes⟩)
      (success : dec.outcome ≠ .rejected) :
      Steps s ⟨s.gate.takeOut.1, s.calls.set i
        ⟨if s.gate.takeOut.2 then .countingOut else .released false, puts, takes⟩⟩
  | countOut {i : Nat} {puts takes : Nat} (here : s.calls[i]? = some ⟨.countingOut, puts, takes⟩) :
      Steps s ⟨s.gate.countOut, s.calls.set i ⟨.released true, puts, takes⟩⟩

theorem steps_of_step {s s' : TokenSys} {a : TokenAction} (taken : s.step a = some s') :
    s.Steps s' := by
  cases a with
  | call =>
      cases taken
      exact .call
  | acquire i tracker canceled ready =>
      simp only [step] at taken
      split at taken
      · rename_i pc puts takes here
        obtain ⟨⟨gate, pc'⟩, stepped, rfl⟩ := Option.map_eq_some_iff.1 taken
        exact .acquire here (Gate.accounted_of_acquireCall stepped)
      · cases taken
  | release i =>
      simp only [step] at taken
      split at taken
      · rename_i here
        obtain ⟨success, ⟨⟩⟩ := Option.ite_none_right_eq_some.1 taken
        exact .release here success
      · cases taken
  | countOut i =>
      simp only [step] at taken
      split at taken
      · rename_i here
        cases taken
        exact .countOut here
      · cases taken

structure Conserved (c : Int) (s : TokenSys) : Prop where
  cap : s.gate.cap = c
  room : (s.gate.slots : Int) ≤ c
  slots : s.gate.slots = total Call.tokens s.calls
  inflight : s.gate.inflight = total Call.counted s.calls
  settled : ∀ call ∈ s.calls, call.Settled

theorem conserved_init {cfg : Config} {c : Int} (limit : cfg.maxClients = c) (positive : 0 < c) :
    Conserved c (init cfg) :=
  ⟨limit, positive.le, rfl, rfl, by simp [init]⟩

theorem Conserved.takeOut {c : Int} {s : TokenSys} (conserved : Conserved c s) {call : Call}
    (member : call ∈ s.calls) (token : call.tokens = 1) :
    s.gate.takeOut = ({ s.gate with slots := s.gate.slots - 1 }, true) ∧ 0 < s.gate.slots := by
  have present : 0 < s.gate.slots := by
    have le : call.tokens ≤ total Call.tokens s.calls := le_total member
    rw [conserved.slots]
    omega
  exact ⟨by rw [Gate.takeOut, if_pos present], present⟩

theorem Conserved.call {c : Int} {s : TokenSys} (conserved : Conserved c s) :
    Conserved c { s with calls := s.calls ++ [⟨.acquiring .trying, 0, 0⟩] } := by
  refine ⟨conserved.cap, conserved.room, ?_, ?_, ?_⟩
  · rw [total_snoc]
    exact conserved.slots
  · rw [total_snoc]
    exact conserved.inflight
  · exact List.forall_mem_append.2 ⟨conserved.settled, List.forall_mem_singleton.2 ⟨rfl, rfl⟩⟩

theorem Conserved.acquire {c : Int} {s : TokenSys} (conserved : Conserved c s) {i : Nat}
    {pc pc' : AcquirePc} {puts takes : Nat} {gate : Gate}
    (here : s.calls[i]? = some ⟨.acquiring pc, puts, takes⟩)
    (accounted : s.gate.Accounted pc gate pc') :
    Conserved c ⟨gate, s.calls.set i ⟨.acquiring pc', puts + (gate.slots - s.gate.slots),
      takes + (s.gate.slots - gate.slots)⟩⟩ := by
  have slots := accounted.slots
  have counter := accounted.inflight
  have kept : pc.holds.toNat ≤ pc'.holds.toNat := Bool.toNat_le_toNat accounted.keeps
  obtain ⟨untaken, put⟩ := conserved.settled _ (List.mem_of_getElem? here)
  simp only at untaken put
  refine ⟨accounted.cap.trans conserved.cap, ?_, ?_, ?_, Threads.forall_set conserved.settled i ⟨?_, ?_⟩⟩
  · have room := accounted.room (conserved.room.trans_eq conserved.cap.symm)
    rwa [accounted.cap, conserved.cap] at room
  · have moved := total_set Call.tokens here
      ⟨.acquiring pc', puts + (gate.slots - s.gate.slots), takes + (s.gate.slots - gate.slots)⟩
    have before := conserved.slots
    simp only [Call.tokens] at moved before ⊢
    omega
  · have moved := total_set Call.counted here
      ⟨.acquiring pc', puts + (gate.slots - s.gate.slots), takes + (s.gate.slots - gate.slots)⟩
    have before := conserved.inflight
    simp only [Call.counted] at moved before ⊢
    omega
  · simp only
    omega
  · simp only
    omega

theorem Conserved.release {c : Int} {s : TokenSys} (conserved : Conserved c s) {i : Nat}
    {dec : Decision} {puts takes : Nat}
    (here : s.calls[i]? = some ⟨.acquiring (.returned dec), puts, takes⟩)
    (success : dec.outcome ≠ .rejected) :
    Conserved c ⟨s.gate.takeOut.1, s.calls.set i
      ⟨if s.gate.takeOut.2 then .countingOut else .released false, puts, takes⟩⟩ := by
  have member := List.mem_of_getElem? here
  have held : (AcquirePc.returned dec).holds = true := decide_eq_true success
  have counted : (AcquirePc.returned dec).counted = true := decide_eq_true success
  obtain ⟨taken, present⟩ := conserved.takeOut member
    (show (AcquirePc.returned dec).holds.toNat = 1 by rw [held]; rfl)
  obtain ⟨untaken, put⟩ := conserved.settled _ member
  simp only [held, Bool.toNat_true] at untaken put
  rw [taken, if_pos rfl]
  have room := conserved.room
  refine ⟨conserved.cap, ?_, ?_, ?_, Threads.forall_set conserved.settled i ⟨untaken, put⟩⟩
  · simp only
    omega
  · have moved := total_set Call.tokens here ⟨.countingOut, puts, takes⟩
    have before := conserved.slots
    simp only [Call.tokens, held, Bool.toNat_true] at moved before ⊢
    omega
  · have moved := total_set Call.counted here ⟨.countingOut, puts, takes⟩
    have before := conserved.inflight
    simp only [Call.counted, counted, Bool.toNat_true] at moved before ⊢
    omega

theorem Conserved.countOut {c : Int} {s : TokenSys} (conserved : Conserved c s) {i : Nat}
    {puts takes : Nat} (here : s.calls[i]? = some ⟨.countingOut, puts, takes⟩) :
    Conserved c ⟨s.gate.countOut, s.calls.set i ⟨.released true, puts, takes⟩⟩ := by
  obtain ⟨untaken, put⟩ := conserved.settled _ (List.mem_of_getElem? here)
  refine ⟨conserved.cap, conserved.room, ?_, ?_,
    Threads.forall_set conserved.settled i ⟨untaken, put, rfl⟩⟩
  · have moved := total_set Call.tokens here ⟨.released true, puts, takes⟩
    have before := conserved.slots
    simp only [Call.tokens, Gate.countOut] at moved before ⊢
    omega
  · have moved := total_set Call.counted here ⟨.released true, puts, takes⟩
    have before := conserved.inflight
    simp only [Call.counted, Gate.countOut] at moved before ⊢
    omega

theorem conserved_exec {cfg : Config} {c : Int} (limit : cfg.maxClients = c) (positive : 0 < c)
    {trace : List (TokenSys × TokenAction)} {s : TokenSys} (exec : Exec step (init cfg) trace s) :
    Conserved c s := by
  refine exec.stable (conserved_init limit positive) fun s a s' conserved taken => ?_
  cases steps_of_step taken with
  | call => exact conserved.call
  | acquire here accounted => exact conserved.acquire here accounted
  | release here success => exact conserved.release here success
  | countOut here => exact conserved.countOut here

theorem tokens_of_admitted {call : Call} (admitted : call.admitted = true) : 1 ≤ call.tokens := by
  obtain ⟨pc, puts, takes⟩ := call
  cases pc with
  | acquiring pc =>
      change pc.counted = true at admitted
      simp only [Call.tokens, AcquirePc.holds_toNat, admitted, Bool.toNat_true]
      omega
  | countingOut | released => cases admitted

theorem counted_of_quiet {call : Call} (quiet : call.midStep = false) :
    call.counted = call.admitted.toNat := by
  obtain ⟨pc, puts, takes⟩ := call
  cases pc with
  | acquiring | released => rfl
  | countingOut => cases quiet

theorem tokens_of_quiet {call : Call} (quiet : call.midStep = false) :
    call.tokens = call.admitted.toNat := by
  obtain ⟨pc, puts, takes⟩ := call
  cases pc with
  | acquiring pc =>
      change pc.midStep = false at quiet
      change pc.holds.toNat = pc.counted.toNat
      rw [AcquirePc.holds_toNat, quiet]
      rfl
  | countingOut => cases quiet
  | released => rfl

/-- Tokens are conserved: no more holders than the limit, one token for each success and none for a
refusal, a token for every `Release`, and between steps one token in the channel for each holder and a
counter that is exact. -/
theorem tokens_conserved (cfg : Config) (c : Int) (limit : cfg.maxClients = c) (positive : 0 < c)
    (trace : List (TokenSys × TokenAction)) (s : TokenSys) (exec : Exec step (init cfg) trace s) :
    (s.calls.countP Call.admitted : Int) ≤ c ∧
    (∀ call ∈ s.calls, ∀ dec, call.pc = .acquiring (.returned dec) → call.takes = 0 ∧
      (dec.outcome = .admitted ∨ dec.outcome = .evicted ↔ call.puts = 1) ∧
      (dec.outcome = .rejected → call.puts = 0)) ∧
    (∀ call ∈ s.calls, call.pc ≠ .released false) ∧
    ((∀ call ∈ s.calls, call.midStep = false) →
      s.gate.slots = s.calls.countP Call.admitted ∧
        s.gate.inflight = s.calls.countP Call.admitted) := by
  have conserved := conserved_exec limit positive exec
  refine ⟨?_, ?_, ?_, ?_⟩
  · have holders : s.calls.countP Call.admitted ≤ total Call.tokens s.calls :=
      countP_le_total fun call _ => tokens_of_admitted
    have slots := conserved.slots
    have room := conserved.room
    omega
  · rintro ⟨pc, puts, takes⟩ member dec rfl
    obtain ⟨untaken, put⟩ := conserved.settled _ member
    refine ⟨untaken, ?_⟩
    change puts = (decide (dec.outcome ≠ .rejected)).toNat at put
    rw [put]
    dsimp only
    cases dec.outcome <;> decide
  · rintro call member gone
    obtain ⟨_, put⟩ := conserved.settled _ member
    rw [gone] at put
    exact absurd put.2 (by decide)
  · intro quiet
    refine ⟨?_, ?_⟩
    · rw [conserved.slots, countP_eq_total fun call member => tokens_of_quiet (quiet call member)]
    · rw [conserved.inflight, countP_eq_total fun call member => counted_of_quiet (quiet call member)]

def oneToken : Config := { defaults with maxClients := 1, backpressure := .dropOldest }

/-- The only token is taken, a second call is refused, and the holder gives the token back. -/
theorem tokens_conserved_refusal :
    ∃ trace s, Exec step (init oneToken) trace s ∧
      s.calls.map Call.pc = [.released true, .acquiring (.returned ⟨.rejected, "evict_no_tracker"⟩)] ∧
      s.gate.slots = 0 ∧ s.gate.inflight = 0 ∧ ∃ entry ∈ trace, entry.1.gate.slots = 1 := by
  obtain ⟨trace, s, exec, _, passed⟩ := exec_of_play step (init oneToken)
    [.call, .acquire 0 none false .slot, .acquire 0 none false .slot, .call,
      .acquire 1 none false .slot, .acquire 1 none false .slot, .acquire 1 none true .done,
      .acquire 1 none true .done, .release 0, .countOut 0]
    (fun trace s => decide (s.calls.map Call.pc =
        [.released true, .acquiring (.returned ⟨.rejected, "evict_no_tracker"⟩)]) &&
      decide (s.calls.countP Call.admitted = 0) && decide (∀ call ∈ s.calls, call.midStep = false) &&
      decide (∃ entry ∈ trace, entry.1.gate.slots = 1))
    (by decide +kernel)
  simp only [Bool.and_eq_true, decide_eq_true_eq] at passed
  obtain ⟨⟨⟨pcs, none⟩, quiet⟩, full⟩ := passed
  obtain ⟨_, _, _, settled⟩ := tokens_conserved oneToken 1 rfl (by decide) trace s exec
  obtain ⟨slots, inflight⟩ := settled quiet
  exact ⟨trace, s, exec, pcs, slots.trans none, by rw [inflight, none]; rfl, full⟩

end TokenSys

end S5lb
