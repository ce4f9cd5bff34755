import Mathlib
import S5lb.Lib.Heap
import S5lb.Lib.Ledger
import S5lb.Lib.Threads
import S5lb.Lib.Transition

/-!
# The connections of sessions

What `Serve` accepts and `handleClient` dials, the registry `conns` of the balancer, and the forced
close of `Shutdown`.
-/

namespace S5lb

open Transition

abbrev ConnRef := Nat

structure Socket where
  isOpen : Bool
  armed : Bool
  halfCloses : Bool
  owner : Option Nat
  deriving DecidableEq

inductive Command
  | connect
  | udpAssociate
  | other
  deriving DecidableEq

inductive Deferred
  | close (c : ConnRef)
  | untrack (c : ConnRef)
  | releaseSlot
  deriving DecidableEq

inductive HandlePc
  | spawned
  | tracked
  | greeting
  | requesting
  | requested (cmd : Command)
  | acquiring (cmd : Command)
  | dialing (cmd : Command)
  | dialed (cmd : Command) (c : ConnRef)
  | handshaking (cmd : Command) (c : ConnRef)
  | discarding (c : ConnRef)
  | shaken (cmd : Command) (c : ConnRef)
  | asking (cmd : Command) (c : ConnRef)
  | answering (c : ConnRef)
  | opening (c : ConnRef)
  | piping (c : ConnRef) (up down : Bool)
  | resolving (c : ConnRef)
  | binding (c : ConnRef)
  | advertising (c : ConnRef)
  | replying (c : ConnRef)
  | relaying (c : ConnRef)
  | refusing
  | unwinding
  deriving DecidableEq

structure Handler where
  client : ConnRef
  pc : HandlePc
  defers : List Deferred
  deriving DecidableEq

inductive Unblock
  | go
  | deadline
  | peer (ok : Bool)
  | asks (cmd : Command)
  | dials (halfCloses : Bool)
  deriving DecidableEq

inductive ConnEffect
  | silent
  | arm (c : ConnRef) (on : Bool)
  | track (c : ConnRef)
  | dial (halfCloses : Bool)
  | close (c : ConnRef)
  | untrack (c : ConnRef)
  deriving DecidableEq

def Socket.result (k : Socket) : Unblock → Option Bool
  | .go => if k.isOpen then none else some false
  | .deadline => if k.isOpen && k.armed then some false else none
  | .peer ok => if k.isOpen then some ok else none
  | .asks _ | .dials _ => none

namespace Handler

def finished (t : Handler) : Prop := t.pc = .unwinding ∧ t.defers = []

def endDirection (sockets : Heap Socket) (t : Handler) (c : ConnRef) (up last : Bool) :
    ConnEffect × Handler :=
  if last then (.silent, { t with pc := .unwinding })
  else
    let dst := if up then c else t.client
    (if (sockets.get dst).halfCloses then .silent else .close dst, { t with pc := .piping c up !up })

def step (canceled udpEnabled : Bool) (sockets : Heap Socket) (out : Unblock) (t : Handler) :
    Option (ConnEffect × Handler) :=
  let own (e : ConnEffect) (t' : Handler) := if out = .go then some (e, t') else none
  let client := sockets.get t.client
  let goto (pc : HandlePc) : ConnEffect × Handler := (.silent, { t with pc })
  match t.pc with
  | .spawned =>
      own (.track t.client)
        { t with pc := .tracked, defers := .close t.client :: .untrack t.client :: t.defers }
  | .tracked => own (.arm t.client true) { t with pc := .greeting }
  | .greeting => (client.result out).map fun ok => goto (if ok then .requesting else .unwinding)
  | .requesting =>
      match out with
      -- The request may be in the buffer already, whatever has become of the connection.
      | .asks cmd => some (goto (.requested cmd))
      | _ => (client.result out).map fun _ => goto .unwinding
  | .requested cmd =>
      let refused := cmd = .other ∨ cmd = .udpAssociate ∧ udpEnabled = false
      own (.arm t.client false) { t with pc := if refused then .refusing else .acquiring cmd }
  | .acquiring cmd =>
      match out with
      | .go => if canceled then some (goto .refusing) else none
      | .peer true => some (.silent, { t with pc := .dialing cmd, defers := .releaseSlot :: t.defers })
      | .peer false | .deadline => some (goto .refusing)
      | .asks _ | .dials _ => none
  | .dialing cmd =>
      match out with
      | .go => if canceled then some (goto .refusing) else none
      | .dials halfCloses => some (.dial halfCloses, { t with pc := .dialed cmd sockets.next })
      | .peer _ | .deadline => some (goto .refusing)
      | .asks _ => none
  | .dialed cmd c => own (.arm c true) { t with pc := .handshaking cmd c }
  | .handshaking cmd c =>
      ((sockets.get c).result out).map fun ok => goto (if ok then .shaken cmd c else .discarding c)
  | .discarding c => own (.close c) { t with pc := .refusing }
  | .shaken cmd c =>
      own (.track c) { t with pc := .asking cmd c, defers := .close c :: .untrack c :: t.defers }
  | .asking cmd c =>
      ((sockets.get c).result out).map fun ok =>
        goto (if ok then if cmd = .udpAssociate then .resolving c else .answering c else .refusing)
  -- What the write returns is not looked at.
  | .answering c => (client.result out).map fun _ => goto (.opening c)
  | .opening c => own (.arm c false) { t with pc := .piping c false false }
  | .piping c up down =>
      match out with
      | .go =>
          if client.isOpen || (sockets.get c).isOpen then none
          else some (t.endDirection sockets c (!up) (up || down))
      | .peer upward =>
          if (if upward then up else down) then none
          else some (t.endDirection sockets c upward (up || down))
      | .deadline | .asks _ | .dials _ => none
  | .resolving c =>
      match out with
      | .go => some (goto .refusing)
      | .peer true =>
          some (.dial false, { t with pc := .binding c, defers := .close sockets.next :: t.defers })
      | .peer false | .deadline | .asks _ | .dials _ => none
  | .binding c =>
      match out with
      | .go => some (goto .refusing)
      | .peer true =>
          some (.dial false, { t with pc := .advertising c, defers := .close sockets.next :: t.defers })
      | .peer false | .deadline | .asks _ | .dials _ => none
  | .advertising c =>
      match out with
      | .go => some (goto .refusing)
      | .peer true => some (goto (.replying c))
      | .peer false | .deadline | .asks _ | .dials _ => none
  | .replying c => (client.result out).map fun ok => goto (if ok then .relaying c else .unwinding)
  | .relaying _ =>
      match out with
      | .go => if canceled || !client.isOpen then some (goto .unwinding) else none
      | .peer _ => some (goto .unwinding)
      | .deadline | .asks _ | .dials _ => none
  | .refusing => (client.result out).map fun _ => goto .unwinding
  | .unwinding =>
      match t.defers with
      | [] => none
      | .close c :: rest => own (.close c) { t with defers := rest }
      | .untrack c :: rest => own (.untrack c) { t with defers := rest }
      | .releaseSlot :: rest => own .silent { t with defers := rest }

end Handler

inductive AcceptPc
  | accepting
  | deciding (c : ConnRef)
  | rejecting (c : ConnRef)
  deriving DecidableEq

structure ConnSys where
  sockets : Heap Socket
  registry : Finset ConnRef
  canceled : Bool
  serve : AcceptPc
  handlers : List Handler

inductive ConnAction
  | accept (halfCloses : Bool)
  | admitted
  | reject
  | rejected
  | evict (i : Nat)
  | handler (i : Nat) (out : Unblock)
  | cancel
  | closeAllConns
  deriving DecidableEq

namespace ConnSys

def start : ConnSys := ⟨⟨fun _ => ⟨false, false, false, none⟩, 0⟩, ∅, false, .accepting, []⟩

def closeConn (sockets : Heap Socket) (c : ConnRef) : Heap Socket :=
  sockets.set c { sockets.get c with isOpen := false }

def effect (s : ConnSys) (i : Nat) : ConnEffect → ConnSys
  | .silent => s
  | .arm c on => { s with sockets := s.sockets.set c { s.sockets.get c with armed := on } }
  | .track c => { s with registry := insert c s.registry }
  | .dial halfCloses => { s with sockets := (s.sockets.alloc ⟨true, false, halfCloses, some i⟩).2 }
  | .close c => { s with sockets := closeConn s.sockets c }
  | .untrack c => { s with registry := s.registry.erase c }

def step (udpEnabled : Bool) (s : ConnSys) : ConnAction → Option ConnSys
  | .accept halfCloses =>
      match s.serve with
      | .accepting =>
          let (c, sockets) := s.sockets.alloc ⟨true, false, halfCloses, none⟩
          some { s with sockets, serve := .deciding c }
      | _ => none
  | .admitted =>
      match s.serve with
      | .deciding c => some { s with
          sockets := s.sockets.set c { s.sockets.get c with owner := some s.handlers.length }
          serve := .accepting
          handlers := s.handlers ++ [⟨c, .spawned, []⟩] }
      | _ => none
  | .reject =>
      match s.serve with
      | .deciding c => some { s with serve := .rejecting c }
      | _ => none
  | .rejected =>
      match s.serve with
      | .rejecting c => some { s with sockets := closeConn s.sockets c, serve := .accepting }
      | _ => none
  | .evict i => s.handlers[i]?.map fun t => { s with sockets := closeConn s.sockets t.client }
  | .handler i out =>
      s.handlers[i]?.bind fun t =>
        (t.step s.canceled udpEnabled s.sockets out).map fun (e, t') =>
          { s.effect i e with handlers := s.handlers.set i t' }
  | .cancel => some { s with canceled := true }
  | .closeAllConns =>
      some { s with sockets := { s.sockets with
        cells := fun c => if c ∈ s.registry then { s.sockets.get c with isOpen := false }
          else s.sockets.get c } }

end ConnSys

/-!
## What a step of a session can do
-/

namespace HandlePc

inductive Next : HandlePc → HandlePc → Prop
  | greets : Next greeting requesting
  | ungreeted : Next greeting unwinding
  | requests (cmd : Command) : Next requesting (requested cmd)
  | unrequested : Next requesting unwinding
  | unserved (cmd : Command) : Next (acquiring cmd) refusing
  | undialed (cmd : Command) : Next (dialing cmd) refusing
  | shakes (cmd : Command) (c : ConnRef) : Next (handshaking cmd c) (shaken cmd c)
  | unshaken (cmd : Command) (c : ConnRef) : Next (handshaking cmd c) (discarding c)
  | connects (cmd : Command) (c : ConnRef) : Next (asking cmd c) (answering c)
  | associates (cmd : Command) (c : ConnRef) : Next (asking cmd c) (resolving c)
  | unanswered (cmd : Command) (c : ConnRef) : Next (asking cmd c) refusing
  | answers (c : ConnRef) : Next (answering c) (opening c)
  | halfEnds (c : ConnRef) (up : Bool) : Next (piping c false false) (piping c up !up)
  | ends (c : ConnRef) {up down : Bool} (last : (up || down) = true) : Next (piping c up down) unwinding
  | unresolved (c : ConnRef) : Next (resolving c) refusing
  | unbound (c : ConnRef) : Next (binding c) refusing
  | advertises (c : ConnRef) : Next (advertising c) (replying c)
  | unadvertised (c : ConnRef) : Next (advertising c) refusing
  | relays (c : ConnRef) : Next (replying c) (relaying c)
  | unreplied (c : ConnRef) : Next (replying c) unwinding
  | relayed (c : ConnRef) : Next (relaying c) unwinding
  | refuses : Next refusing unwinding

inductive Arms (client : ConnRef) : HandlePc → ConnRef → Bool → HandlePc → Prop
  | greeting : Arms client tracked client true greeting
  | refuses (cmd : Command) : Arms client (requested cmd) client false refusing
  | acquires (cmd : Command) : Arms client (requested cmd) client false (acquiring cmd)
  | handshaking (cmd : Command) (c : ConnRef) : Arms client (dialed cmd c) c true (handshaking cmd c)
  | piping (c : ConnRef) : Arms client (opening c) c false (piping c false false)

inductive Binds : HandlePc → HandlePc → Prop
  | resolved (c : ConnRef) : Binds (resolving c) (binding c)
  | bound (c : ConnRef) : Binds (binding c) (advertising c)

end HandlePc

namespace Handler

variable {canceled udpEnabled : Bool} {sockets : Heap Socket} {out : Unblock} {t t' : Handler}
  {e : ConnEffect}

inductive Moves (sockets : Heap Socket) (t : Handler) : ConnEffect → Handler → Prop
  | enters (here : t.pc = .spawned) : Moves sockets t (.track t.client)
      { t with pc := .tracked, defers := .close t.client :: .untrack t.client :: t.defers }
  | goes {pc : HandlePc} (next : t.pc.Next pc) : Moves sockets t .silent { t with pc }
  | arms {pc : HandlePc} {c : ConnRef} {on : Bool} (next : t.pc.Arms t.client c on pc) :
      Moves sockets t (.arm c on) { t with pc }
  | acquires {cmd : Command} (here : t.pc = .acquiring cmd) : Moves sockets t .silent
      { t with pc := .dialing cmd, defers := .releaseSlot :: t.defers }
  | dials {cmd : Command} {halfCloses : Bool} (here : t.pc = .dialing cmd) :
      Moves sockets t (.dial halfCloses) { t with pc := .dialed cmd sockets.next }
  | discards {c : ConnRef} (here : t.pc = .discarding c) :
      Moves sockets t (.close c) { t with pc := .refusing }
  | tracks {cmd : Command} {c : ConnRef} (here : t.pc = .shaken cmd c) : Moves sockets t (.track c)
      { t with pc := .asking cmd c, defers := .close c :: .untrack c :: t.defers }
  | shuts {c : ConnRef} {up : Bool} (here : t.pc = .piping c false false) :
      Moves sockets t (.close (if up then c else t.client)) { t with pc := .piping c up !up }
  | binds {pc : HandlePc} (next : t.pc.Binds pc) : Moves sockets t (.dial false)
      { t with pc, defers := .close sockets.next :: t.defers }
  | closes {c : ConnRef} {rest : List Deferred} (here : t.pc = .unwinding)
      (first : t.defers = .close c :: rest) :
      Moves sockets t (.close c) { t with pc := .unwinding, defers := rest }
  | untracks {c : ConnRef} {rest : List Deferred} (here : t.pc = .unwinding)
      (first : t.defers = .untrack c :: rest) :
      Moves sockets t (.untrack c) { t with pc := .unwinding, defers := rest }
  | releases {rest : List Deferred} (here : t.pc = .unwinding)
      (first : t.defers = .releaseSlot :: rest) :
      Moves sockets t .silent { t with pc := .unwinding, defers := rest }

theorem moves_endDirection {c : ConnRef} {up down last : Bool} (here : t.pc = .piping c up down)
    (whether : last = (up || down)) {upward : Bool}
    (same : t.endDirection sockets c upward last = (e, t')) : Moves sockets t e t' := by
  unfold endDirection at same
  cases last with
  | true =>
      simp only [if_true, Prod.mk.injEq] at same
      obtain ⟨rfl, rfl⟩ := same
      exact .goes (here ▸ .ends c whether.symm)
  | false =>
      obtain ⟨rfl, rfl⟩ := Bool.or_eq_false_iff.1 whether.symm
      simp only [Bool.false_eq_true, if_false, Prod.mk.injEq] at same
      obtain ⟨rfl, rfl⟩ := same
      by_cases half : (sockets.get (if upward then c else t.client)).halfCloses = true
      · rw [if_pos half]
        exact .goes (here ▸ .halfEnds c upward)
      · rw [if_neg half]
        exact .shuts here

theorem moves_of_step (taken : t.step canceled udpEnabled sockets out = some (e, t')) :
    Moves sockets t e t' := by
  have goes {pc : HandlePc} (next : t.pc.Next pc) (same : (ConnEffect.silent, { t with pc }) = (e, t')) :
      Moves sockets t e t' := by
    cases same
    exact .goes next
  cases here : t.pc with
  | spawned =>
      simp only [step, here, Option.ite_none_right_eq_some, Option.some.injEq, Prod.mk.injEq] at taken
      obtain ⟨-, rfl, rfl⟩ := taken
      exact .enters here
  | tracked =>
      simp only [step, here, Option.ite_none_right_eq_some, Option.some.injEq, Prod.mk.injEq] at taken
      obtain ⟨-, rfl, rfl⟩ := taken
      exact .arms (here ▸ .greeting)
  | greeting =>
      simp only [step, here, Option.map_eq_some_iff] at taken
      obtain ⟨ok, -, same⟩ := taken
      cases ok with
      | false => exact goes (here ▸ .ungreeted) same
      | true => exact goes (here ▸ .greets) same
  | requesting =>
      simp only [step, here] at taken
      split at taken
      · exact goes (here ▸ .requests _) (Option.some.inj taken)
      · obtain ⟨ok, -, same⟩ := Option.map_eq_some_iff.1 taken
        exact goes (here ▸ .unrequested) same
  | requested cmd =>
      simp only [step, here, Option.ite_none_right_eq_some, Option.some.injEq, Prod.mk.injEq] at taken
      obtain ⟨-, rfl, rfl⟩ := taken
      split
      · exact .arms (here ▸ .refuses cmd)
      · exact .arms (here ▸ .acquires cmd)
  | acquiring cmd =>
      simp only [step, here] at taken
      split at taken
      · rw [Option.ite_none_right_eq_some] at taken
        exact goes (here ▸ .unserved cmd) (Option.some.inj taken.2)
      · cases taken
        exact .acquires here
      · exact goes (here ▸ .unserved cmd) (Option.some.inj taken)
      · exact goes (here ▸ .unserved cmd) (Option.some.inj taken)
      · cases taken
      · cases taken
  | dialing cmd =>
      simp only [step, here] at taken
      split at taken
      · rw [Option.ite_none_right_eq_some] at taken
        exact goes (here ▸ .undialed cmd) (Option.some.inj taken.2)
      · cases taken
        exact .dials here
      · exact goes (here ▸ .undialed cmd) (Option.some.inj taken)
      · exact goes (here ▸ .undialed cmd) (Option.some.inj taken)
      · cases taken
  | dialed cmd c =>
      simp only [step, here, Option.ite_none_right_eq_some, Option.some.injEq, Prod.mk.injEq] at taken
      obtain ⟨-, rfl, rfl⟩ := taken
      exact .arms (here ▸ .handshaking cmd c)
  | handshaking cmd c =>
      simp only [step, here, Option.map_eq_some_iff] at taken
      obtain ⟨ok, -, same⟩ := taken
      cases ok with
      | false => exact goes (here ▸ .unshaken cmd c) same
      | true => exact goes (here ▸ .shakes cmd c) same
  | discarding c =>
      simp only [step, here, Option.ite_none_right_eq_some, Option.some.injEq, Prod.mk.injEq] at taken
      obtain ⟨-, rfl, rfl⟩ := taken
      exact .discards here
  | shaken cmd c =>
      simp only [step, here, Option.ite_none_right_eq_some, Option.some.injEq, Prod.mk.injEq] at taken
      obtain ⟨-, rfl, rfl⟩ := taken
      exact .tracks here
  | asking cmd c =>
      simp only [step, here, Option.map_eq_some_iff] at taken
      obtain ⟨ok, -, same⟩ := taken
      cases ok with
      | false => exact goes (here ▸ .unanswered cmd c) same
      | true =>
          simp only [if_true] at same
          split at same
          · exact goes (here ▸ .associates cmd c) same
          · exact goes (here ▸ .connects cmd c) same
  | answering c =>
      simp only [step, here, Option.map_eq_some_iff] at taken
      obtain ⟨ok, -, same⟩ := taken
      exact goes (here ▸ .answers c) same
  | opening c =>
      simp only [step, here, Option.ite_none_right_eq_some, Option.some.injEq, Prod.mk.injEq] at taken
      obtain ⟨-, rfl, rfl⟩ := taken
      exact .arms (here ▸ .piping c)
  | piping c up down =>
      simp only [step, here] at taken
      split at taken
      · rw [Option.ite_none_left_eq_some] at taken
        exact moves_endDirection here rfl (Option.some.inj taken.2)
      · rw [Option.ite_none_left_eq_some] at taken
        exact moves_endDirection here rfl (Option.some.inj taken.2)
      all_goals cases taken
  | resolving c =>
      simp only [step, here] at taken
      split at taken
      · exact goes (here ▸ .unresolved c) (Option.some.inj taken)
      · cases taken
        exact .binds (here ▸ .resolved c)
      all_goals cases taken
  | binding c =>
      simp only [step, here] at taken
      split at taken
      · exact goes (here ▸ .unbound c) (Option.some.inj taken)
      · cases taken
        exact .binds (here ▸ .bound c)
      all_goals cases taken
  | advertising c =>
      simp only [step, here] at taken
      split at taken
      · exact goes (here ▸ .unadvertised c) (Option.some.inj taken)
      · exact goes (here ▸ .advertises c) (Option.some.inj taken)
      all_goals cases taken
  | replying c =>
      simp only [step, here, Option.map_eq_some_iff] at taken
      obtain ⟨ok, -, same⟩ := taken
      cases ok with
      | false => exact goes (here ▸ .unreplied c) same
      | true => exact goes (here ▸ .relays c) same
  | relaying c =>
      simp only [step, here] at taken
      split at taken
      · rw [Option.ite_none_right_eq_some] at taken
        exact goes (here ▸ .relayed c) (Option.some.inj taken.2)
      · exact goes (here ▸ .relayed c) (Option.some.inj taken)
      all_goals cases taken
  | refusing =>
      simp only [step, here, Option.map_eq_some_iff] at taken
      obtain ⟨ok, -, same⟩ := taken
      exact goes (here ▸ .refuses) same
  | unwinding =>
      simp only [step, here] at taken
      split at taken
      · cases taken
      all_goals
        rename_i first
        simp only [Option.ite_none_right_eq_some, Option.some.injEq, Prod.mk.injEq] at taken
        obtain ⟨-, rfl, rfl⟩ := taken
      · exact .closes here first
      · exact .untracks here first
      · exact .releases here first

end Handler

/-!
## What a session accounts for
-/

namespace HandlePc

variable {pc pc' : HandlePc} {client c : ConnRef} {on : Bool}

def conn? : HandlePc → Option ConnRef
  | dialed _ c | handshaking _ c | discarding c | shaken _ c | asking _ c | answering c | opening c
  | piping c _ _ | resolving c | binding c | advertising c | replying c | relaying c => some c
  | spawned | tracked | greeting | requesting | requested _ | acquiring _ | dialing _ | refusing
  | unwinding => none

def pending (client : ConnRef) : HandlePc → List ConnRef
  | spawned => [client]
  | dialed _ c | handshaking _ c | discarding c | shaken _ c => [c]
  | tracked | greeting | requesting | requested _ | acquiring _ | dialing _ | asking _ _ | answering _
  | opening _ | piping _ _ _ | resolving _ | binding _ | advertising _ | replying _ | relaying _
  | refusing | unwinding => []

def rank : HandlePc → Nat
  | unwinding => 0
  | refusing | relaying _ => 1
  | replying _ | discarding _ => 2
  | advertising _ => 3
  | binding _ => 5
  | resolving _ => 7
  | piping _ up down => if up || down then 1 else 2
  | opening _ => 3
  | answering _ => 4
  | asking _ _ => 8
  | shaken _ _ => 11
  | handshaking _ _ => 12
  | dialed _ _ => 13
  | dialing _ => 14
  | acquiring _ => 16
  | requested _ => 17
  | requesting => 18
  | greeting => 19
  | tracked => 20
  | spawned => 23

theorem Next.conn (next : Next pc pc') (later : pc'.conn? = some c) : pc.conn? = some c := by
  cases next <;> first | exact later | cases later

theorem Next.pending (next : Next pc pc') : pc'.pending client = pc.pending client := by
  cases next <;> rfl

theorem Next.rank (next : Next pc pc') : pc'.rank < pc.rank := by
  cases next with
  | halfEnds c up => cases up <;> simp [HandlePc.rank]
  | ends c last => simp [HandlePc.rank, last]
  | _ => simp [HandlePc.rank]

theorem Arms.target (next : Arms client pc c on pc') : c = client ∨ pc.conn? = some c := by
  cases next with
  | handshaking | piping => exact .inr rfl
  | _ => exact .inl rfl

theorem Arms.conn {c' : ConnRef} (next : Arms client pc c on pc') (later : pc'.conn? = some c') :
    pc.conn? = some c' := by
  cases next <;> exact later

theorem Arms.pending (next : Arms client pc c on pc') : pc'.pending client = pc.pending client := by
  cases next <;> rfl

theorem Arms.rank (next : Arms client pc c on pc') : pc'.rank < pc.rank := by
  cases next <;> simp [HandlePc.rank]

end HandlePc

namespace Deferred

@[simp] def closes : List Deferred → List ConnRef
  | [] => []
  | close c :: rest => c :: closes rest
  | untrack _ :: rest | releaseSlot :: rest => closes rest

@[simp] def untracks : List Deferred → List ConnRef
  | [] => []
  | untrack c :: rest => c :: untracks rest
  | close _ :: rest | releaseSlot :: rest => untracks rest

end Deferred

namespace Handler

def pending (t : Handler) : List ConnRef := t.pc.pending t.client

def holds (t : Handler) : List ConnRef := t.pending ++ Deferred.closes t.defers

def untracks (t : Handler) : List ConnRef := Deferred.untracks t.defers

def refs (t : Handler) : List ConnRef :=
  t.client :: (t.pc.conn?.toList ++ Deferred.closes t.defers ++ Deferred.untracks t.defers)

def rank (t : Handler) : Nat := t.pc.rank + t.defers.length

end Handler

namespace ConnEffect

def target? : ConnEffect → Option ConnRef
  | arm c _ | track c | close c | untrack c => some c
  | silent | dial _ => none

def Untracks (before after : List ConnRef) : ConnEffect → Prop
  | track c => after = c :: before
  | untrack c => before = c :: after
  | silent | arm _ _ | dial _ | close _ => after = before

end ConnEffect

namespace Handler

variable {sockets : Heap Socket} {t t' : Handler} {e : ConnEffect}

structure Accounts (sockets : Heap Socket) (t : Handler) (e : ConnEffect) (t' : Handler) : Prop where
  client : t'.client = t.client
  refs : ∀ c ∈ t'.refs, c ∈ t.refs ∨ c = sockets.next ∧ ∃ halfCloses, e = .dial halfCloses
  target : ∀ c, e.target? = some c → c ∈ t.refs
  holds : ∀ c ∈ t.holds, c ∈ t'.holds ∨ e = .close c
  dialed : ∀ halfCloses, e = .dial halfCloses → sockets.next ∈ t'.holds
  untracks : e.Untracks t.untracks t'.untracks
  pending : t'.pending = t.pending ∨ t'.pending = [] ∨
    t'.pending = [sockets.next] ∧ ∃ halfCloses, e = .dial halfCloses
  tracked : ∀ c, e = .track c → t.pending = [c] ∧ t'.pending = []

theorem accounts_goto {pc : HandlePc}
    (quiet : e = .silent ∨ (∃ c on, e = .arm c on ∧ c ∈ t.refs) ∨ ∃ c, e = .close c ∧ c ∈ t.refs)
    (conn : ∀ c, pc.conn? = some c → t.pc.conn? = some c)
    (pending : pc.pending t.client = t.pc.pending t.client) : Accounts sockets t e { t with pc } := by
  have untouched : e.Untracks t.untracks t.untracks ∧ (∀ halfCloses, e ≠ .dial halfCloses) ∧
      (∀ c, e ≠ .track c) ∧ ∀ c, e.target? = some c → c ∈ t.refs := by
    rcases quiet with rfl | ⟨c, on, rfl, own⟩ | ⟨c, rfl, own⟩
    · simp [ConnEffect.Untracks, ConnEffect.target?]
    · simp [ConnEffect.Untracks, ConnEffect.target?, own]
    · simp [ConnEffect.Untracks, ConnEffect.target?, own]
  obtain ⟨same, undialed, untracked, target⟩ := untouched
  refine ⟨rfl, fun c member => .inl ?_, target, fun c member => .inl ?_,
    fun h dial => absurd dial (undialed h), same, .inl pending, fun c track => absurd track (untracked c)⟩
  · simp only [Handler.refs, List.mem_cons, List.mem_append, Option.mem_toList] at member ⊢
    rcases member with rfl | (here | closes) | untracks
    · exact .inl rfl
    · exact .inr (.inl (.inl (conn c here)))
    · exact .inr (.inl (.inr closes))
    · exact .inr (.inr untracks)
  · simp only [Handler.holds, Handler.pending, List.mem_append] at member ⊢
    rw [pending]
    exact member

theorem Moves.accounts (moves : Moves sockets t e t') : Accounts sockets t e t' := by
  have client : t.client ∈ t.refs := List.mem_cons_self
  have conn {c : ConnRef} (here : t.pc.conn? = some c) : c ∈ t.refs := by simp [Handler.refs, here]
  cases moves with
  | goes next => exact accounts_goto (.inl rfl) (fun _ => next.conn) next.pending
  | arms next =>
      refine accounts_goto (.inr (.inl ⟨_, _, rfl, ?_⟩)) (fun _ => next.conn) next.pending
      rcases next.target with rfl | here
      · exact client
      · exact conn here
  | @shuts c up here =>
      refine accounts_goto (.inr (.inr ⟨_, rfl, ?_⟩)) ?_ ?_
      · cases up with
        | false => exact client
        | true => exact conn (by rw [here]; rfl)
      · rw [here]
        exact fun _ later => later
      · rw [here]
        rfl
  | enters here | tracks here | acquires here | dials here | discards here =>
      constructor <;> simp [Handler.refs, Handler.holds, Handler.pending, Handler.untracks,
        HandlePc.pending, HandlePc.conn?, ConnEffect.target?, ConnEffect.Untracks, here] <;> grind
  | binds next =>
      generalize here : t.pc = pc at next
      cases next <;> constructor <;> simp [Handler.refs, Handler.holds, Handler.pending,
        Handler.untracks, HandlePc.pending, HandlePc.conn?, ConnEffect.target?, ConnEffect.Untracks,
        here] <;> grind
  | closes here first | untracks here first | releases here first =>
      constructor <;> simp [Handler.refs, Handler.holds, Handler.pending, Handler.untracks,
        HandlePc.pending, HandlePc.conn?, ConnEffect.target?, ConnEffect.Untracks, here, first] <;> grind

theorem Moves.rank_lt (moves : Moves sockets t e t') : t'.rank < t.rank := by
  cases moves with
  | goes next => exact Nat.add_lt_add_right next.rank _
  | arms next => exact Nat.add_lt_add_right next.rank _
  | @shuts c up here => cases up <;> simp [Handler.rank, HandlePc.rank, here]
  | enters here | tracks here | acquires here | dials here | discards here =>
      simp only [Handler.rank, HandlePc.rank, here, List.length_cons]
      omega
  | binds next =>
      generalize here : t.pc = pc at next
      cases next <;> simp only [Handler.rank, HandlePc.rank, here, List.length_cons] <;> omega
  | closes here first | untracks here first | releases here first =>
      simp [Handler.rank, here, first]

theorem untracks_refs {c : ConnRef} (t : Handler) (member : c ∈ t.untracks) : c ∈ t.refs :=
  List.mem_cons_of_mem _ (List.mem_append_right _ member)

theorem Accounts.distinct (accounts : Accounts sockets t e t')
    (distinct : (t.pending ++ t.untracks).Nodup) (fresh : sockets.next ∉ t.untracks) :
    (t'.pending ++ t'.untracks).Nodup := by
  by_cases tracks : ∃ c, e = .track c
  · obtain ⟨c, rfl⟩ := tracks
    obtain ⟨before, after⟩ := accounts.tracked c rfl
    have untracks : t'.untracks = c :: t.untracks := accounts.untracks
    rw [after, untracks]
    rw [before] at distinct
    exact distinct
  · have untracks : t'.untracks.Sublist t.untracks := by
      have change := accounts.untracks
      cases e with
      | track c => exact absurd ⟨c, rfl⟩ tracks
      | untrack c =>
          have popped : t.untracks = c :: t'.untracks := change
          rw [popped]
          exact List.sublist_cons_self _ _
      | silent | arm | dial | close =>
          have same : t'.untracks = t.untracks := change
          rw [same]
    rcases accounts.pending with same | none | ⟨new, -⟩
    · rw [same]
      exact distinct.sublist (untracks.append_left _)
    · rw [none]
      exact distinct.sublist (untracks.trans (List.sublist_append_right _ _))
    · rw [new]
      have rest := distinct.sublist (untracks.trans (List.sublist_append_right _ _))
      exact List.nodup_cons.2 ⟨fun member => fresh (untracks.subset member), rest⟩

end Handler

/-!
## What holds of all sessions
-/

def AcceptPc.conn? : AcceptPc → Option ConnRef
  | accepting => none
  | deciding c | rejecting c => some c

def ConnAction.ofSession : ConnAction → Bool
  | handler _ _ => true
  | accept _ | admitted | reject | rejected | evict _ | cancel | closeAllConns => false

namespace ConnSys

variable {udpEnabled : Bool} {s s' : ConnSys} {i : Nat} {e : ConnEffect} {t t' : Handler} {c : ConnRef}

section Effect

theorem next_effect_le : s.sockets.next ≤ (s.effect i e).sockets.next := by
  cases e <;> simp [effect, closeConn]

theorem owner_effect (old : c < s.sockets.next) :
    ((s.effect i e).sockets.get c).owner = (s.sockets.get c).owner := by
  cases e with
  | silent | track | untrack => rfl
  | arm c' on =>
      simp only [effect, Heap.get_set]
      split <;> simp [*]
  | close c' =>
      simp only [effect, closeConn, Heap.get_set]
      split <;> simp [*]
  | dial halfCloses =>
      simp only [effect, Heap.get_alloc]
      rw [if_neg old.ne]

theorem owner_dial {halfCloses : Bool} :
    ((s.effect i (.dial halfCloses)).sockets.get s.sockets.next).owner = some i := by
  simp [effect, Heap.get_alloc]

theorem open_of_effect (opened : ((s.effect i e).sockets.get c).isOpen = true) :
    (s.sockets.get c).isOpen = true ∧ e ≠ .close c ∨
      c = s.sockets.next ∧ ∃ halfCloses, e = .dial halfCloses := by
  cases e with
  | silent | track | untrack => exact .inl ⟨opened, nofun⟩
  | arm c' on =>
      refine .inl ⟨?_, nofun⟩
      simp only [effect, Heap.get_set] at opened
      split at opened
      · rename_i same
        exact same ▸ opened
      · exact opened
  | close c' =>
      refine .inl ?_
      simp only [effect, closeConn, Heap.get_set] at opened
      split at opened
      · cases opened
      · rename_i other
        refine ⟨opened, fun same => other ?_⟩
        cases same
        rfl
  | dial halfCloses =>
      simp only [effect, Heap.get_alloc] at opened
      split at opened
      · rename_i same
        exact .inr ⟨same, halfCloses, rfl⟩
      · exact .inl ⟨opened, nofun⟩

theorem mem_registry_effect :
    c ∈ (s.effect i e).registry ↔ c ∈ s.registry ∧ e ≠ .untrack c ∨ e = .track c := by
  cases e with
  | silent | arm | dial | close => simp [effect]
  | track c' => simp [effect, or_comm, eq_comm]
  | untrack c' => simp [effect, and_comm, eq_comm]

end Effect

structure Sound (s : ConnSys) : Prop where
  owned : Threads.Each s.handlers fun i t =>
    ∀ c ∈ t.refs, c < s.sockets.next ∧ (s.sockets.get c).owner = some i
  distinct : ∀ t ∈ s.handlers, (t.pending ++ t.untracks).Nodup
  accepted : ∀ c, s.serve.conn? = some c → c < s.sockets.next ∧ (s.sockets.get c).owner = none
  registered : ∀ c, c ∈ s.registry ↔ ∃ t ∈ s.handlers, c ∈ t.untracks
  held : ∀ c, (s.sockets.get c).isOpen = true →
    s.serve.conn? = some c ∨ ∃ t ∈ s.handlers, c ∈ t.holds

theorem sound_start : start.Sound := by
  refine ⟨fun i t located => ?_, ?_, nofun, ?_, nofun⟩
  · simp [start] at located
  · simp [start]
  · simp [start]

theorem Sound.closing {sockets : Heap Socket} (sound : s.Sound) (next : sockets.next = s.sockets.next)
    (owner : ∀ c, (sockets.get c).owner = (s.sockets.get c).owner)
    (opened : ∀ c, (sockets.get c).isOpen = true → (s.sockets.get c).isOpen = true) :
    ({ s with sockets } : ConnSys).Sound := by
  obtain ⟨owned, distinct, accepted, registered, held⟩ := sound
  refine ⟨fun i t located c member => ?_, distinct, fun c here => ?_, registered,
    fun c isOpen => held c (opened c isOpen)⟩
  · rw [next, owner]
    exact owned i t located c member
  · rw [next, owner]
    exact accepted c here

theorem owner_closeConn {sockets : Heap Socket} (c c' : ConnRef) :
    ((closeConn sockets c).get c').owner = (sockets.get c').owner := by
  simp only [closeConn, Heap.get_set]
  split <;> simp [*]

theorem open_of_closeConn {sockets : Heap Socket} {c c' : ConnRef}
    (opened : ((closeConn sockets c).get c').isOpen = true) :
    (sockets.get c').isOpen = true ∧ c' ≠ c := by
  simp only [closeConn, Heap.get_set] at opened
  split at opened
  · cases opened
  · exact ⟨opened, ‹_›⟩

theorem Sound.handler (sound : s.Sound) (here : s.handlers[i]? = some t)
    (accounts : Handler.Accounts s.sockets t e t') :
    ({ s.effect i e with handlers := s.handlers.set i t' } : ConnSys).Sound := by
  obtain ⟨owned, distinct, accepted, registered, held⟩ := sound
  have member := List.mem_of_getElem? here
  have serve : (s.effect i e).serve = s.serve := by cases e <;> rfl
  have keeps {j : Nat} {c : ConnRef}
      (mine : c < s.sockets.next ∧ (s.sockets.get c).owner = some j) :
      c < (s.effect i e).sockets.next ∧ ((s.effect i e).sockets.get c).owner = some j :=
    ⟨mine.1.trans_le next_effect_le, (owner_effect mine.1).trans mine.2⟩
  refine ⟨?_, ?_, ?_, ?_, ?_⟩
  · refine owned.set here (fun c ref => ?_) fun j u _ _ theirs c ref => keeps (theirs c ref)
    rcases accounts.refs c ref with old | ⟨rfl, halfCloses, rfl⟩
    · exact keeps (owned i t here c old)
    · exact ⟨Nat.lt_succ_self _, owner_dial⟩
  · refine Threads.forall_set distinct i (accounts.distinct (distinct t member) fun next => ?_)
    exact (owned i t here _ (t.untracks_refs next)).1.false
  · intro c waits
    rw [serve] at waits
    obtain ⟨old, owner⟩ := accepted c waits
    exact ⟨old.trans_le next_effect_le, (owner_effect old).trans owner⟩
  · intro c
    rw [Threads.exists_set_iff here, mem_registry_effect, registered c, Threads.exists_iff here]
    have change := accounts.untracks
    cases e with
    | silent | arm | dial | close =>
        have same : t'.untracks = t.untracks := change
        simp [same]
    | track c' =>
        have pushed : t'.untracks = c' :: t.untracks := change
        simp only [pushed, List.mem_cons, ne_eq, reduceCtorEq, not_false_eq_true, and_true,
          ConnEffect.track.injEq]
        rw [or_comm, eq_comm, or_assoc]
    | untrack c' =>
        have popped : t.untracks = c' :: t'.untracks := change
        simp only [popped, List.mem_cons, ne_eq, ConnEffect.untrack.injEq, reduceCtorEq, or_false]
        by_cases same : c' = c
        · subst same
          have once : c' ∉ t'.untracks := by
            have twice := distinct t member
            rw [popped] at twice
            exact (List.nodup_cons.1 (twice.sublist (List.sublist_append_right _ _))).1
          have elsewhere : ¬∃ j u, j ≠ i ∧ s.handlers[j]? = some u ∧ c' ∈ u.untracks := by
            rintro ⟨j, u, other, located, theirs⟩
            have mine := (owned i t here c' (t.untracks_refs (popped ▸ List.mem_cons_self))).2
            have owner := (owned j u located c' (u.untracks_refs theirs)).2
            exact other (Option.some.inj (owner.symm.trans mine))
          simp only [not_true_eq_false, and_false, once, elsewhere, or_self]
        · simp [same, Ne.symm same]
  · intro c opened
    rw [Threads.exists_set_iff here]
    rcases open_of_effect opened with ⟨before, kept⟩ | ⟨rfl, halfCloses, rfl⟩
    · rw [serve]
      rcases held c before with waits | holders
      · exact .inl waits
      · rcases (Threads.exists_iff here).1 holders with mine | others
        · exact .inr (.inl ((accounts.holds c mine).resolve_right kept))
        · exact .inr (.inr others)
    · exact .inr (.inl (accounts.dialed halfCloses rfl))

theorem Sound.step {a : ConnAction} (sound : s.Sound) (taken : ConnSys.step udpEnabled s a = some s') :
    s'.Sound := by
  have ⟨owned, distinct, accepted, registered, held⟩ := sound
  cases a with
  | accept halfCloses =>
      cases serve : s.serve with
      | accepting =>
          simp only [ConnSys.step, serve, Option.some.injEq] at taken
          subst taken
          have old {c : ConnRef} (below : c < s.sockets.next) :
              (s.sockets.alloc ⟨true, false, halfCloses, none⟩).2.get c = s.sockets.get c := by
            rw [Heap.get_alloc, if_neg below.ne]
          refine ⟨fun i t located c member => ?_, distinct, fun c waits => ?_, registered,
            fun c opened => ?_⟩
          · obtain ⟨below, owner⟩ := owned i t located c member
            exact ⟨Nat.lt_succ_of_lt below, by rw [old below]; exact owner⟩
          · cases waits
            refine ⟨Nat.lt_succ_self _, ?_⟩
            simp [Heap.get_alloc]
          · simp only [Heap.get_alloc] at opened
            split at opened
            · rename_i same
              exact .inl (congrArg some same.symm)
            · refine .inr ((held c opened).resolve_left ?_)
              rw [serve]
              exact nofun
      | deciding | rejecting => simp [ConnSys.step, serve] at taken
  | admitted =>
      cases serve : s.serve with
      | deciding c =>
          simp only [ConnSys.step, serve, Option.some.injEq] at taken
          subst taken
          obtain ⟨below, unowned⟩ := accepted c (by rw [serve]; rfl)
          have apart {i : Nat} {t : Handler} (located : s.handlers[i]? = some t) {c' : ConnRef}
              (ref : c' ∈ t.refs) : c' ≠ c := by
            rintro rfl
            cases unowned.symm.trans (owned i t located c' ref).2
          refine ⟨fun i t located c' ref => ?_, ?_, nofun, fun c' => ?_, fun c' opened => ?_⟩
          · rcases Threads.located_snoc located with ⟨rfl, rfl⟩ | located
            · have same : c' = c := by simpa [Handler.refs, HandlePc.conn?] using ref
              subst same
              exact ⟨below, by rw [Heap.get_set_self]⟩
            · rw [Heap.get_set_of_ne _ _ (apart located ref)]
              exact owned i t located c' ref
          · intro t member
            rcases List.mem_append.1 member with old | new
            · exact distinct t old
            · rw [List.mem_singleton.1 new]
              simp [Handler.pending, Handler.untracks, HandlePc.pending]
          · rw [registered c']
            simp [or_and_right, exists_or, Handler.untracks]
          · have before : (s.sockets.get c').isOpen = true := by
              simp only [Heap.get_set] at opened
              split at opened
              · rename_i same
                exact same ▸ opened
              · exact opened
            rcases held c' before with waits | ⟨t, member, holds⟩
            · rw [serve] at waits
              cases waits
              exact .inr ⟨_, List.mem_append_right _ List.mem_cons_self, List.mem_cons_self⟩
            · exact .inr ⟨t, List.mem_append_left _ member, holds⟩
      | accepting | rejecting => simp [ConnSys.step, serve] at taken
  | reject =>
      cases serve : s.serve with
      | deciding c =>
          simp only [ConnSys.step, serve, Option.some.injEq] at taken
          subst taken
          rw [serve] at accepted held
          exact ⟨owned, distinct, accepted, registered, held⟩
      | accepting | rejecting => simp [ConnSys.step, serve] at taken
  | rejected =>
      cases serve : s.serve with
      | rejecting c =>
          simp only [ConnSys.step, serve, Option.some.injEq] at taken
          subst taken
          have closed : ({ s with sockets := closeConn s.sockets c } : ConnSys).Sound :=
            sound.closing rfl (owner_closeConn c) fun _ opened => (open_of_closeConn opened).1
          refine ⟨closed.owned, distinct, nofun, registered, fun c' opened => .inr ?_⟩
          obtain ⟨before, other⟩ := open_of_closeConn opened
          refine (held c' before).resolve_left fun waits => other ?_
          rw [serve] at waits
          cases waits
          rfl
      | accepting | deciding => simp [ConnSys.step, serve] at taken
  | evict i =>
      obtain ⟨t, -, rfl⟩ := Option.map_eq_some_iff.1 taken
      exact sound.closing rfl (owner_closeConn _) fun _ opened => (open_of_closeConn opened).1
  | handler i out =>
      obtain ⟨t, here, taken⟩ := Option.bind_eq_some_iff.1 taken
      obtain ⟨⟨e, t'⟩, moved, rfl⟩ := Option.map_eq_some_iff.1 taken
      exact sound.handler here (Handler.moves_of_step moved).accounts
  | cancel =>
      cases taken
      exact ⟨owned, distinct, accepted, registered, held⟩
  | closeAllConns =>
      cases taken
      refine sound.closing rfl (fun c => ?_) fun c opened => ?_
      · simp only [Heap.get]
        split <;> rfl
      · simp only [Heap.get] at opened ⊢
        split at opened
        · cases opened
        · exact opened

theorem sound_of_exec {trace : List (ConnSys × ConnAction)}
    (exec : Exec (ConnSys.step udpEnabled) start trace s) : s.Sound :=
  exec.stable sound_start fun _ _ _ sound taken => sound.step taken

theorem rank_of_step {a : ConnAction} (taken : ConnSys.step udpEnabled s a = some s') :
    Ledger.total Handler.rank s'.handlers + a.ofSession.toNat + 23 * s.handlers.length ≤
      Ledger.total Handler.rank s.handlers + 23 * s'.handlers.length := by
  cases a with
  | handler i out =>
      obtain ⟨t, here, taken⟩ := Option.bind_eq_some_iff.1 taken
      obtain ⟨⟨e, t'⟩, moved, rfl⟩ := Option.map_eq_some_iff.1 taken
      have less := (Handler.moves_of_step moved).rank_lt
      have change := Ledger.total_set Handler.rank here t'
      simp only [ConnAction.ofSession, Bool.toNat_true, List.length_set]
      omega
  | admitted =>
      simp only [ConnSys.step] at taken
      split at taken <;> cases taken
      simp only [Ledger.total_snoc, ConnAction.ofSession, Bool.toNat_false, List.length_append,
        List.length_singleton, Handler.rank, HandlePc.rank, List.length_nil]
      omega
  | accept | reject | rejected =>
      simp only [ConnSys.step] at taken
      split at taken <;> cases taken
      exact le_rfl
  | evict i =>
      obtain ⟨t, -, rfl⟩ := Option.map_eq_some_iff.1 taken
      exact le_rfl
  | cancel | closeAllConns =>
      cases taken
      exact le_rfl

theorem sessions_bounded {trace : List (ConnSys × ConnAction)}
    (exec : Exec (ConnSys.step udpEnabled) start trace s) :
    (trace.filter fun entry => entry.2.ofSession).length + Ledger.total Handler.rank s.handlers ≤
      23 * s.handlers.length := by
  induction exec with
  | nil => simp [start, Ledger.total]
  | @snoc trace s a s' before taken ih =>
      have lower := rank_of_step taken
      rw [List.filter_append, List.length_append]
      cases mine : a.ofSession <;> simp [mine] at lower ⊢ <;> omega

/-- Whatever becomes of its sessions, a connection that is open is one that `Serve` or a session is
still to close, and the registry is what sessions are still to take from it. -/
theorem conns_follow_sessions {trace : List (ConnSys × ConnAction)}
    (exec : Exec (ConnSys.step udpEnabled) start trace s) :
    (∀ c, (s.sockets.get c).isOpen = true →
        s.serve.conn? = some c ∨ ∃ t ∈ s.handlers, c ∈ t.holds) ∧
      (∀ c, c ∈ s.registry ↔ ∃ t ∈ s.handlers, c ∈ t.untracks) ∧
      ((∀ t ∈ s.handlers, t.finished) → s.registry = ∅ ∧
        ∀ c, (s.sockets.get c).isOpen = true → s.serve.conn? = some c) := by
  obtain ⟨-, -, -, registered, held⟩ := sound_of_exec exec
  refine ⟨held, registered, fun finished => ⟨?_, fun c opened => ?_⟩⟩
  · refine Finset.eq_empty_of_forall_notMem fun c member => ?_
    obtain ⟨t, inside, untracks⟩ := (registered c).1 member
    simp [Handler.untracks, (finished t inside).2] at untracks
  · refine (held c opened).resolve_right ?_
    rintro ⟨t, inside, holds⟩
    simp [Handler.holds, Handler.pending, (finished t inside).1, (finished t inside).2,
      HandlePc.pending] at holds

/-- A tunnel from its beginning to its end: two connections are made, and none is left. -/
theorem conns_follow_sessions_tunnel : ∃ (trace : List (ConnSys × ConnAction)) (s : ConnSys),
    Exec (ConnSys.step true) start trace s ∧ s.handlers.length = 1 ∧ s.sockets.next = 2 ∧
      s.registry = ∅ ∧ ∀ c, (s.sockets.get c).isOpen = false := by
  obtain ⟨trace, s, exec, -, passed⟩ := exec_of_play (ConnSys.step true) start
    ([.accept true, .admitted] ++ ([.go, .go, .peer true, .asks .connect, .go, .peer true, .dials false, .go,
      .peer true, .go, .peer true, .peer true, .go, .peer true, .peer false, .go, .go, .go, .go,
      .go] : List Unblock).map (ConnAction.handler 0))
    (fun _ s => decide (s.handlers = [⟨0, .unwinding, []⟩] ∧ s.sockets.next = 2 ∧
      s.serve = .accepting))
    (by decide +kernel)
  obtain ⟨handlers, made, serve⟩ := of_decide_eq_true passed
  obtain ⟨none, closed⟩ := (conns_follow_sessions exec).2.2 (by simp [handlers, Handler.finished])
  refine ⟨trace, s, exec, by rw [handlers]; rfl, made, none, fun c => ?_⟩
  refine Bool.not_eq_true _ ▸ fun opened => ?_
  have waits := closed c opened
  rw [serve] at waits
  cases waits

end ConnSys

end S5lb
