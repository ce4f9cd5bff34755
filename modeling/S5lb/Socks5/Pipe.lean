import S5lb.Go.Stream
import S5lb.Upstream

namespace S5lb.Socks5

open Go

/-- A connection of the balancer. `halfCloser` says whether it has a `CloseWrite`. -/
structure Conn where
  src : Source
  sink : Sink
  halfCloser : Bool

section Copy

variable {σ ω : Type} [Reader σ] [Writer ω]

/-- What one direction has copied. It ends with an error or without; `none` is a loop still
running. -/
structure Copied (σ ω : Type) where
  total : Nat
  ended : Option (Option Err)
  src : σ
  dst : ω

def bufSize : Nat := 32 * 1024

def errInvalidWrite : Err := .other "invalid write result"
def errClosed : Err := .other "use of closed network connection"

def writeOnce (w : ω) (b : Bytes) : Nat × Option Err × ω :=
  match write w b with
  | (nw, err, w) =>
      if b.length < nw then (0, some (err.getD errInvalidWrite), w)
      else match err with
        | some e => (nw, some e, w)
        | none => if nw = b.length then (nw, none, w) else (nw, some .shortWrite, w)

/-- The write loop of the idle path. Each round writes at least a byte, so the fuel is the number of
bytes. -/
def writeLoop : Nat → ω → Bytes → Nat → Nat × Option Err × ω
  | 0, w, _, total => (total, none, w)
  | fuel + 1, w, b, total =>
      if b = [] then (total, none, w)
      else match write w b with
        | (nw, some e, w) => (total + nw, some e, w)
        | (nw, none, w) =>
            if nw = 0 then (total, some .shortWrite, w)
            else writeLoop fuel w (b.drop nw) (total + nw)

/-- The loop of `io.Copy` and of the idle path, for a number of rounds. They differ in how they
write what was read and in which errors are the end of the stream. -/
def copyLoop (isEOF : Err → Bool) (put : ω → Bytes → Nat × Option Err × ω) :
    Nat → σ → ω → Nat → Copied σ ω
  | 0, src, dst, total => ⟨total, none, src, dst⟩
  | rounds + 1, src, dst, total =>
      match read src bufSize with
      | (got, rerr, src) =>
          match if got = [] then (0, none, dst) else put dst got with
          | (n, some werr, dst) => ⟨total + n, some (some werr), src, dst⟩
          | (n, none, dst) =>
              match rerr with
              | none => copyLoop isEOF put rounds src dst (total + n)
              | some e => ⟨total + n, some (if isEOF e then none else some e), src, dst⟩

def copyDir (rounds : Nat) (dst : ω) (src : σ) (idle : Duration) : Copied σ ω :=
  if idle ≤ 0 then copyLoop (· == .eof) writeOnce rounds src dst 0
  else copyLoop (·.is .eof) (fun w b => writeLoop b.length w b 0) rounds src dst 0

end Copy

inductive Direction
  | up
  | down
  deriving DecidableEq

namespace Direction

def other : Direction → Direction
  | .up => .down
  | .down => .up

@[simp] theorem other_other (d : Direction) : d.other.other = d := by
  cases d <;> rfl

theorem other_ne (d : Direction) : d.other ≠ d := by
  cases d <;> nofun

theorem eq_or_other (d e : Direction) : e = d ∨ e = d.other := by
  cases d <;> cases e <;> decide

end Direction

/-- One direction, left to itself: no read of a connection returns nothing, so there are at most as
many rounds as bytes, and one for the end. -/
def copyAll (dst : Sink) (src : Source) (idle : Duration) : Copied Source Sink :=
  copyDir (src.bytes.length + 1) dst src idle

def copyClosed (rounds : Nat) (dst : Sink) (src : Source) (idle : Duration) : Copied Source Sink :=
  let copied := copyDir rounds dst src idle
  { copied with ended := some (copied.ended.getD (some errClosed)) }

/-- `Pipe`, when `first` is the direction that ends first, and the other one has then made some
rounds. The connection the first one wrote to is half closed, or closed where it has no
`CloseWrite`. -/
def pipe (first : Direction) (rounds : Nat) (client upstream : Conn) (idle : Duration) :
    Copied Source Sink × Copied Source Sink :=
  match first with
  | .up =>
      (copyAll upstream.sink client.src idle,
        if upstream.halfCloser then copyAll client.sink upstream.src idle
        else copyClosed rounds client.sink upstream.src idle)
  | .down =>
      (if client.halfCloser then copyAll upstream.sink client.src idle
        else copyClosed rounds upstream.sink client.src idle,
        copyAll client.sink upstream.src idle)

def Accepting (put : Sink → Bytes → Nat × Option Err × Sink) : Prop :=
  ∀ w b, b ≠ [] → w.broken = none →
    put w b = (b.length, none, { w with written := w.written ++ b })

theorem accepting_writeOnce : Accepting writeOnce := by
  intro w b _ alive
  simp only [writeOnce, w.write_open b alive, Nat.lt_irrefl, if_false, if_true]

theorem accepting_writeLoop : Accepting fun w b => writeLoop b.length w b 0 := by
  intro w b some alive
  have positive : b.length ≠ 0 := by simpa using some
  obtain ⟨k, length⟩ := Nat.exists_eq_succ_of_ne_zero positive
  have empty : writeLoop k { w with written := w.written ++ b } (b.drop b.length) (0 + b.length) =
      (b.length, none, { w with written := w.written ++ b }) := by
    rw [List.drop_length, Nat.zero_add]
    cases k <;> rfl
  simp only [length, writeLoop, if_neg some, w.write_open b alive]
  rw [if_neg (Nat.succ_ne_zero k), ← length]
  exact empty

theorem copyLoop_stream {σ : Type} [Stream σ] {put : Sink → Bytes → Nat × Option Err × Sink}
    {isEOF : Err → Bool} (eof : isEOF .eof = true) (accepting : Accepting put) (rounds : Nat) (src : σ) (dst : Sink) (total : Nat)
    (alive : dst.broken = none) (enough : (stream src).length < rounds) :
    (copyLoop isEOF put rounds src dst total).total = total + (stream src).length ∧
      (copyLoop isEOF put rounds src dst total).ended = some none ∧
      (copyLoop isEOF put rounds src dst total).dst =
        { dst with written := dst.written ++ stream src } := by
  induction rounds generalizing src dst total with
  | zero => omega
  | succ rounds ih =>
      have reads := Stream.reads src bufSize (by decide)
      rw [copyLoop]
      generalize read src bufSize = result at reads ⊢
      obtain ⟨got, rerr, src'⟩ := result
      dsimp only at reads ⊢
      generalize stream src = ahead at reads enough ⊢
      generalize after : stream src' = left at reads
      cases reads with
      | eof => simp [eof]
      | data some fits =>
          have progress : 0 < got.length := List.length_pos_iff.2 some
          rw [List.length_append] at enough
          have next := ih src' { dst with written := dst.written ++ got } (total + got.length) alive
            (by rw [after]; omega)
          rw [after] at next
          simp only [if_neg some, accepting dst got some alive, List.length_append]
          obtain ⟨count, ended, written⟩ := next
          exact ⟨by omega, ended, by rw [written, List.append_assoc]⟩

theorem copyAll_copies (dst : Sink) (src : Source) (idle : Duration) (alive : dst.broken = none) :
    (copyAll dst src idle).total = src.bytes.length ∧ (copyAll dst src idle).ended = some none ∧
      (copyAll dst src idle).dst = { dst with written := dst.written ++ src.bytes } := by
  have enough : (stream src).length < src.bytes.length + 1 := Nat.lt_succ_self _
  unfold copyAll copyDir
  split
  · have copied := @copyLoop_stream _ _ _ (· == .eof) rfl accepting_writeOnce _ src dst 0 alive enough
    rwa [Nat.zero_add] at copied
  · have copied := @copyLoop_stream _ _ _ (·.is .eof) rfl accepting_writeLoop _ src dst 0 alive enough
    rwa [Nat.zero_add] at copied

theorem pipe_up (first : Direction) (rounds : Nat) (client upstream : Conn) (idle : Duration)
    (half : client.halfCloser = true) :
    (pipe first rounds client upstream idle).1 = copyAll upstream.sink client.src idle := by
  cases first with
  | up => rfl
  | down => simp [pipe, half]

end S5lb.Socks5
