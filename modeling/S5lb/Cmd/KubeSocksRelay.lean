import S5lb.Go.Chan
import S5lb.Go.Strings
import S5lb.Lib.Transition
import S5lb.Socks5.Pipe

/-! The relay of a pod: it bridges its stdin and stdout to a TCP target. -/

namespace S5lb.KubeSocksRelay

open Go Transition

section Copy

inductive CopyPc
  | read
  | write (buf : Bytes)
  | returned (err : Option Err)
  deriving DecidableEq

inductive Outcome
  | moves (n : Nat)
  | fails (n : Nat) (err : Err)
  deriving DecidableEq

structure Ends where
  src : Bytes
  srcEnded : Bool
  srcClosed : Bool
  dst : Bytes
  dstClosed : Bool

/-- A step of `io.Copy`, `none` while it blocks. A read may take any part of what has arrived: how
much one takes at most depends on the path that `ReadFrom` and `WriteTo` choose. -/
def copy (e : Ends) : CopyPc → Outcome → Option (Ends × CopyPc)
  | .read, .moves n =>
      if e.srcClosed then some (e, .returned (some Socks5.errClosed))
      else if n = 0 then
        if e.src = [] ∧ e.srcEnded = true then some (e, .returned none) else none
      else if n ≤ e.src.length then some ({ e with src := e.src.drop n }, .write (e.src.take n))
      else none
  | .read, .fails _ err => some (e, .returned (some err))
  | .write buf, .moves _ =>
      if e.dstClosed then some (e, .returned (some Socks5.errClosed))
      else some ({ e with dst := e.dst ++ buf }, .read)
  | .write buf, .fails n err =>
      some ({ e with dst := e.dst ++ buf.take n }, .returned (some err))
  | .returned _, _ => none

def CopyPc.held : CopyPc → Bytes
  | .write buf => buf
  | _ => []

structure Copied (e : Ends) (pc : CopyPc) (e' : Ends) (pc' : CopyPc) : Prop where
  bytes : e'.dst ++ (pc'.held ++ e'.src) = e.dst ++ (pc.held ++ e.src)
  ended : e.srcClosed = false → ∀ err, pc' = .returned err → e'.src = [] ∧ e.srcEnded = true

theorem copy_moves {e e' : Ends} {pc pc' : CopyPc} {n : Nat} (opened : e.dstClosed = false)
    (moved : copy e pc (.moves n) = some (e', pc')) : Copied e pc e' pc' := by
  cases pc with
  | read =>
      rw [copy] at moved
      split at moved
      · rename_i closed
        cases moved
        exact ⟨rfl, fun open_ => absurd closed (by rw [open_]; exact Bool.false_ne_true)⟩
      · split at moved
        · split at moved
          · rename_i ended
            cases moved
            exact ⟨rfl, fun _ _ _ => ended⟩
          · cases moved
        · split at moved
          · cases moved
            exact ⟨by simp [CopyPc.held], fun _ _ returned => CopyPc.noConfusion returned⟩
          · cases moved
  | write buf =>
      rw [copy, opened, if_neg Bool.false_ne_true] at moved
      cases moved
      exact ⟨by simp [CopyPc.held], fun _ _ returned => CopyPc.noConfusion returned⟩
  | returned err => cases moved

theorem copy_dst {e e' : Ends} {pc pc' : CopyPc} {k : Outcome}
    (moved : copy e pc k = some (e', pc')) : e.dst <+: e'.dst := by
  revert moved
  fun_cases copy <;> intro moved <;> cases moved
  all_goals first
    | exact List.prefix_refl _
    | exact List.prefix_append _ _

end Copy

def normalizeCopyErr : Option Err → Option Err
  | none => none
  | some err =>
      if err.is .eof then none
      else if err.is Socks5.errClosed then none
      else some err

inductive CopierPc
  | copy (pc : CopyPc)
  | send (err : Option Err)
  | done
  deriving DecidableEq

namespace CopierPc

def Ended : CopierPc → Prop
  | .copy (.returned _) | .send _ | .done => True
  | _ => False

def held : CopierPc → Bytes
  | .copy pc => pc.held
  | _ => []

theorem held_of_ended {pc : CopierPc} (ended : pc.Ended) : pc.held = [] := by
  cases pc with
  | copy pc =>
      cases pc with
      | read => rfl
      | write buf => exact ended.elim
      | returned err => rfl
  | send err => rfl
  | done => rfl

instance (pc : CopierPc) : Decidable pc.Ended :=
  match pc with
  | .copy (.returned _) | .send _ | .done => inferInstanceAs (Decidable True)
  | .copy .read | .copy (.write _) => inferInstanceAs (Decidable False)

end CopierPc

inductive MainPc
  | select
  | close (err : Option Err)
  | leave (err : Option Err)
  | returned (err : Option Err)
  deriving DecidableEq

structure Relay where
  stdin : Bytes
  stdout : Bytes
  unsent : Bytes
  targetClosed : Bool
  arrived : Bytes
  written : Bytes
  writeClosed : Bool
  closed : Bool
  signalled : Bool
  errCh : Chan (Option Err)
  up : CopierPc
  down : CopierPc
  main : MainPc

def target : List String → Except String (String × String)
  | [_, network, host, port] =>
      if network ≠ "tcp" ∧ network ≠ "tcp4" ∧ network ≠ "tcp6" then
        .error ("unsupported network " ++ quote network)
      else .ok (network,
        if host.toList.contains ':' then "[" ++ host ++ "]:" ++ port else host ++ ":" ++ port)
  | _ => .error "usage: kube-socks-relay tcp host port"

def Relay.start (stdin sends : Bytes) : Relay where
  stdin := stdin
  stdout := []
  unsent := sends
  targetClosed := false
  arrived := []
  written := []
  writeClosed := false
  closed := false
  signalled := false
  errCh := .make 2
  up := .copy .read
  down := .copy .read
  main := .select

def run (args : List String) (dial : String → String → Option String) (stdin sends : Bytes) :
    Except String Relay :=
  match target args with
  | .error err => .error err
  | .ok (network, address) =>
      match dial network address with
      | some err => .error ("dial " ++ address ++ ": " ++ err)
      | none => .ok (.start stdin sends)

namespace Relay

def upEnds (s : Relay) : Ends := ⟨s.stdin, true, false, s.written, s.closed⟩

def downEnds (s : Relay) : Ends := ⟨s.arrived, s.targetClosed, s.closed, s.stdout, false⟩

def report (s : Relay) (err : Option Err) : Option (Chan (Option Err)) :=
  match s.errCh.send err with
  | some (.ok ch) => some ch
  | _ => none

def upload (s : Relay) (k : Outcome) : Option Relay :=
  match s.up with
  | .copy (.returned err) =>
      some { s with writeClosed := true, up := .send (normalizeCopyErr err) }
  | .copy pc =>
      (copy s.upEnds pc k).map fun (e, pc') =>
        { s with stdin := e.src, written := e.dst, up := .copy pc' }
  | .send err => (s.report err).map fun ch => { s with errCh := ch, up := .done }
  | .done => none

def download (s : Relay) (k : Outcome) : Option Relay :=
  match s.down with
  | .copy (.returned err) => some { s with down := .send (normalizeCopyErr err) }
  | .copy pc =>
      (copy s.downEnds pc k).map fun (e, pc') =>
        { s with arrived := e.src, stdout := e.dst, down := .copy pc' }
  | .send err => (s.report err).map fun ch => { s with errCh := ch, down := .done }
  | .done => none

inductive Action
  | arrive (n : Nat)
  | targetClose
  | signal
  | upload (k : Outcome)
  | download (k : Outcome)
  | receive
  | interrupted
  | close
  | leave
  deriving DecidableEq

def step (s : Relay) : Action → Option Relay
  | .arrive n =>
      if s.closed then none
      else some { s with unsent := s.unsent.drop n, arrived := s.arrived ++ s.unsent.take n }
  | .targetClose => if s.unsent = [] then some { s with targetClosed := true } else none
  | .signal => some { s with signalled := true }
  | .upload k => s.upload k
  | .download k => s.download k
  | .receive =>
      match s.main, s.errCh.recv with
      | .select, some (some err, ch) => some { s with errCh := ch, main := .close err }
      | _, _ => none
  | .interrupted =>
      if s.main = .select ∧ s.signalled = true then some { s with main := .close none } else none
  | .close =>
      match s.main with
      | .close err => some { s with closed := true, main := .leave err }
      | _ => none
  | .leave =>
      match s.main with
      | .leave err => some { s with main := .returned err }
      | _ => none

def Quiet (_ : Relay) : Action → Prop
  | .signal | .upload (.fails _ _) | .download (.fails _ _) => False
  | _ => True

/-- `main` takes a message only when the copy to stdout has ended. -/
def Patient (s : Relay) (a : Action) : Prop := a = .receive → s.down.Ended

structure Whole (sends : Bytes) (s : Relay) : Prop where
  bytes : s.stdout ++ (s.down.held ++ (s.arrived ++ s.unsent)) = sends
  fin : s.targetClosed = true → s.unsent = []
  listens : s.main = .select → s.closed = false ∧ s.signalled = false
  ended : s.main = .select → s.down.Ended → s.arrived = [] ∧ s.unsent = []

variable {sends : Bytes} {s s' : Relay} {a : Action}

inductive Stepped (s : Relay) : Action → Relay → Prop
  | arrive {n : Nat} : Stepped s (.arrive n)
      { s with unsent := s.unsent.drop n, arrived := s.arrived ++ s.unsent.take n }
  | targetClose (empty : s.unsent = []) : Stepped s .targetClose { s with targetClosed := true }
  | signal : Stepped s .signal { s with signalled := true }
  | upload {k : Outcome} {stdin written : Bytes} {writeClosed : Bool} {errCh : Chan (Option Err)}
      {up : CopierPc} : Stepped s (.upload k) { s with stdin, written, writeClosed, errCh, up }
  | copied {k : Outcome} {pc pc' : CopyPc} {e : Ends} (here : s.down = .copy pc)
      (copied : copy s.downEnds pc k = some (e, pc')) : Stepped s (.download k)
        { s with arrived := e.src, stdout := e.dst, down := .copy pc' }
  | reported {k : Outcome} {errCh : Chan (Option Err)} {down : CopierPc} (ended : s.down.Ended)
      (ended' : down.Ended) : Stepped s (.download k) { s with errCh, down }
  | receive {errCh : Chan (Option Err)} {err : Option Err} :
      Stepped s .receive { s with errCh, main := .close err }
  | interrupted (signalled : s.signalled = true) : Stepped s .interrupted { s with main := .close none }
  | close {err : Option Err} (here : s.main = .close err) :
      Stepped s .close { s with closed := true, main := .leave err }
  | leave {err : Option Err} (here : s.main = .leave err) :
      Stepped s .leave { s with main := .returned err }

theorem upload_cases {k : Outcome} (moved : s.upload k = some s') : Stepped s (.upload k) s' := by
  revert moved
  fun_cases upload s k <;> intro moved
  · cases moved
    exact .upload
  · obtain ⟨_, _, rfl⟩ := Option.map_eq_some_iff.1 moved
    exact .upload
  · obtain ⟨_, _, rfl⟩ := Option.map_eq_some_iff.1 moved
    exact .upload
  · cases moved

theorem download_cases {k : Outcome} (moved : s.download k = some s') : Stepped s (.download k) s' := by
  revert moved
  fun_cases download s k <;> intro moved
  · rename_i err here
    cases moved
    exact .reported (by rw [here]; trivial) trivial
  · rename_i pc _ here
    obtain ⟨⟨e, pc'⟩, copied, rfl⟩ := Option.map_eq_some_iff.1 moved
    exact .copied here copied
  · rename_i err here
    obtain ⟨ch, _, rfl⟩ := Option.map_eq_some_iff.1 moved
    exact .reported (by rw [here]; trivial) trivial
  · cases moved

theorem step_cases (taken : s.step a = some s') : Stepped s a s' := by
  cases a with
  | upload k => exact upload_cases taken
  | download k => exact download_cases taken
  | signal =>
      cases taken
      exact .signal
  | arrive n =>
      rw [step] at taken
      split at taken <;> cases taken
      exact .arrive
  | targetClose =>
      rw [step] at taken
      split at taken <;> cases taken
      rename_i empty
      exact .targetClose empty
  | receive =>
      rw [step] at taken
      split at taken <;> cases taken
      exact .receive
  | interrupted =>
      rw [step] at taken
      split at taken <;> cases taken
      rename_i ready
      exact .interrupted ready.2
  | close =>
      rw [step] at taken
      split at taken <;> cases taken
      rename_i here
      exact .close here
  | leave =>
      rw [step] at taken
      split at taken <;> cases taken
      rename_i here
      exact .leave here

theorem start_of_run {args : List String} {dial : String → String → Option String} {stdin : Bytes}
    (made : run args dial stdin sends = .ok s) : s = .start stdin sends := by
  revert made
  fun_cases run args dial stdin sends <;> intro made <;> cases made
  rfl

theorem whole_start (stdin sends : Bytes) : (start stdin sends).Whole sends where
  bytes := rfl
  fin closed := absurd closed Bool.false_ne_true
  listens _ := ⟨rfl, rfl⟩
  ended _ ended := ended.elim

theorem whole_copied {pc pc' : CopyPc} {e : Ends} {n : Nat} (whole : s.Whole sends)
    (here : s.down = .copy pc) (copied : copy s.downEnds pc (.moves n) = some (e, pc')) :
    Whole sends { s with arrived := e.src, stdout := e.dst, down := .copy pc' } := by
  have kept := copy_moves rfl copied
  refine ⟨?_, whole.fin, whole.listens, fun selecting ended => ?_⟩
  · have before := whole.bytes
    rw [here, CopierPc.held] at before
    rw [← before, CopierPc.held, ← List.append_assoc pc'.held, ← List.append_assoc e.dst, kept.bytes]
    simp only [downEnds, List.append_assoc]
  · cases pc' with
    | returned err =>
        obtain ⟨empty, closed⟩ := kept.ended (whole.listens selecting).1 err rfl
        exact ⟨empty, whole.fin closed⟩
    | read => exact ended.elim
    | write buf => exact ended.elim

theorem whole_step (whole : s.Whole sends) (quiet : Quiet s a) (taken : s.step a = some s') :
    s'.Whole sends := by
  cases step_cases taken with
  | arrive =>
      refine ⟨?_, fun closed => ?_, whole.listens, fun selecting ended => ?_⟩
      · rw [← whole.bytes]
        simp
      · simp [whole.fin closed]
      · simp [whole.ended selecting ended]
  | targetClose empty => exact ⟨whole.bytes, fun _ => empty, whole.listens, whole.ended⟩
  | signal => exact quiet.elim
  | upload => exact ⟨whole.bytes, whole.fin, whole.listens, whole.ended⟩
  | @copied k _ _ _ here copied =>
      cases k with
      | fails n err => exact quiet.elim
      | moves n => exact whole_copied whole here copied
  | reported ended ended' =>
      refine ⟨?_, whole.fin, whole.listens, fun selecting _ => whole.ended selecting ended⟩
      have before := whole.bytes
      rw [CopierPc.held_of_ended ended] at before
      rw [CopierPc.held_of_ended ended']
      exact before
  | receive => exact ⟨whole.bytes, whole.fin, nofun, nofun⟩
  | interrupted => exact ⟨whole.bytes, whole.fin, nofun, nofun⟩
  | close => exact ⟨whole.bytes, whole.fin, nofun, nofun⟩
  | leave => exact ⟨whole.bytes, whole.fin, nofun, nofun⟩

theorem step_stdout (taken : s.step a = some s') : s.stdout <+: s'.stdout := by
  cases step_cases taken with
  | copied _ copied => exact copy_dst copied
  | _ => exact List.prefix_refl _

theorem step_main (taken : s.step a = some s') :
    s'.main = s.main ∨ a = .receive ∨ s.signalled = true ∨ s.main ≠ .select := by
  cases step_cases taken with
  | receive => exact .inr (.inl rfl)
  | interrupted signalled => exact .inr (.inr (.inl signalled))
  | close here => exact .inr (.inr (.inr (by rw [here]; exact MainPc.noConfusion)))
  | leave here => exact .inr (.inr (.inr (by rw [here]; exact MainPc.noConfusion)))
  | _ => exact .inl rfl

theorem written_exec {stdin : Bytes} {trace : List (Relay × Action)}
    (exec : Exec step (start stdin sends) trace s) (quiet : Guarded Quiet trace)
    (patient : Guarded Patient trace) : s.Whole sends ∧ (s.main ≠ .select → s.stdout = sends) := by
  have guarded : Guarded (fun s a => Quiet s a ∧ Patient s a) trace :=
    fun entry member => ⟨quiet entry member, patient entry member⟩
  apply exec.invariant (P := fun _ s => s.Whole sends ∧ (s.main ≠ .select → s.stdout = sends))
    ⟨whole_start stdin sends, fun left => absurd rfl left⟩ ?_ guarded
  rintro _ s a s' _ ⟨whole, written⟩ ⟨quiet, patient⟩ taken
  have whole' := whole_step whole quiet taken
  refine ⟨whole', fun left => ?_⟩
  have all : s.stdout = sends := by
    by_cases selecting : s.main = .select
    · rcases step_main taken with same | rfl | signalled | gone
      · exact absurd (same.trans selecting) left
      · obtain ⟨arrived, unsent⟩ := whole.ended selecting (patient rfl)
        have bytes := whole.bytes
        rwa [CopierPc.held_of_ended (patient rfl), arrived, unsent, List.append_nil, List.append_nil,
          List.append_nil] at bytes
      · exact absurd signalled (by rw [(whole.listens selecting).2]; exact Bool.false_ne_true)
      · exact absurd selecting gone
    · exact written selecting
  have within : s'.stdout <+: sends := ⟨_, whole'.bytes⟩
  have grown := step_stdout taken
  rw [all] at grown
  exact within.eq_of_length_le grown.length_le

/-- Where the copy to stdout ends before `main` takes a message, all that the target sends is on stdout
when `run` returns. A message taken while something is missing may be followed by the return. -/
theorem target_bytes_delivered (args : List String) (dial : String → String → Option String)
    (stdin sends : Bytes) (relay : Relay) (made : run args dial stdin sends = .ok relay) :
    (∀ trace s err, Exec step relay trace s → Guarded Quiet trace → Guarded Patient trace →
      s.main = .returned err → s.stdout = sends) ∧
    ∀ trace s s', Exec step relay trace s → Guarded Quiet trace → s.step .receive = some s' →
      s.stdout ≠ sends → ∃ rest last err, Exec step s' rest last ∧ Guarded Quiet rest ∧
        last.main = .returned err ∧ last.stdout ≠ sends := by
  cases start_of_run made
  refine ⟨fun trace s err exec quiet patient returned => ?_, fun _ s s' _ _ taken missing => ?_⟩
  · apply (written_exec exec quiet patient).2
    rw [returned]
    exact MainPc.noConfusion
  · cases step_cases taken
    rename_i errCh err
    let closing : Relay := { s with errCh, main := .close err }
    let leaving : Relay := { closing with closed := true, main := .leave err }
    have exec : Exec step closing [(closing, .close), (leaving, .leave)]
        { leaving with main := .returned err } := .snoc (.snoc .nil rfl) rfl
    refine ⟨_, _, err, exec, ?_, rfl, missing⟩
    intro entry member
    simp only [List.mem_cons, List.not_mem_nil, or_false] at member
    rcases member with rfl | rfl <;> trivial

instance (s : Relay) (a : Action) : Decidable (Quiet s a) :=
  match a with
  | .signal | .upload (.fails _ _) | .download (.fails _ _) => inferInstanceAs (Decidable False)
  | .upload (.moves _) | .download (.moves _) => inferInstanceAs (Decidable True)
  | .arrive _ | .targetClose | .receive | .interrupted | .close | .leave =>
      inferInstanceAs (Decidable True)

/-- The reply of the target has arrived, and the target has closed its side, when `main` takes the
message of the copy from stdin and closes the connection. -/
theorem half_close_truncates : ∃ relay trace s,
    run ["kube-socks-relay", "tcp", "10.0.0.1", "1080"] (fun _ _ => none) [71] [72, 105] =
      .ok relay ∧
    Exec step relay trace s ∧ Guarded Quiet trace ∧ s.targetClosed = true ∧
    s.main = .returned none ∧ s.stdout = [] := by
  obtain ⟨relay, trace, s, made, exec, -, tested⟩ := exec_of_play_made step
    (run ["kube-socks-relay", "tcp", "10.0.0.1", "1080"] (fun _ _ => none) [71] [72, 105]) id
    [.upload (.moves 1), .upload (.moves 1), .arrive 2, .targetClose, .upload (.moves 0),
      .upload (.moves 0), .upload (.moves 0), .receive, .close, .leave]
    (fun _ trace s => decide ((∀ entry ∈ trace, Quiet entry.1 entry.2) ∧ s.targetClosed = true ∧
      s.main = .returned none ∧ s.stdout = [])) (by decide +kernel)
  have truncated := of_decide_eq_true tested
  exact ⟨relay, trace, s, made, exec, truncated⟩

/-- The copy from stdin ends first here as well, but `main` takes its message last. -/
theorem target_bytes_delivered_patient : ∃ relay trace s,
    run ["kube-socks-relay", "tcp", "10.0.0.1", "1080"] (fun _ _ => none) [71] [72, 105] =
      .ok relay ∧
    Exec step relay trace s ∧ Guarded Quiet trace ∧ Guarded Patient trace ∧
    s.main = .returned none ∧ s.stdout = [72, 105] := by
  obtain ⟨relay, trace, s, made, exec, -, tested⟩ := exec_of_play_made step
    (run ["kube-socks-relay", "tcp", "10.0.0.1", "1080"] (fun _ _ => none) [71] [72, 105]) id
    [.upload (.moves 1), .upload (.moves 1), .arrive 1, .upload (.moves 0), .upload (.moves 0),
      .upload (.moves 0), .download (.moves 1), .arrive 1, .targetClose, .download (.moves 0),
      .download (.moves 1), .download (.moves 0), .download (.moves 0), .receive, .close, .leave]
    (fun _ trace s => decide ((∀ entry ∈ trace, Quiet entry.1 entry.2) ∧
      (∀ entry ∈ trace, entry.2 = .receive → entry.1.down.Ended) ∧
      s.main = .returned none)) (by decide +kernel)
  obtain ⟨quiet, patient, returned⟩ := of_decide_eq_true tested
  obtain ⟨delivered, -⟩ := target_bytes_delivered _ _ _ _ relay made
  exact ⟨relay, trace, s, made, exec, quiet, patient, returned,
    delivered trace s none exec quiet patient returned⟩

end Relay

end S5lb.KubeSocksRelay
