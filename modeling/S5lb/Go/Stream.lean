import Mathlib.Data.List.Basic

namespace Go

abbrev Bytes := List UInt8

inductive Err
  | eof
  | unexpectedEOF
  | shortWrite
  | other (text : String)
  | wrapped (text : String) (inner : Err)
  deriving DecidableEq

def Err.text : Err → String
  | .eof => "EOF"
  | .unexpectedEOF => "unexpected EOF"
  | .shortWrite => "short write"
  | .other text => text
  | .wrapped text _ => text

def Err.is : Err → Err → Bool
  | .wrapped text inner, target => .wrapped text inner == target || inner.is target
  | e, target => e == target

class Reader (σ : Type) where
  read : σ → Nat → Bytes × Option Err × σ

class Writer (ω : Type) where
  write : ω → Bytes → Nat × Option Err × ω

inductive Reads (n : Nat) : Bytes → Bytes → Option Err → Bytes → Prop
  | eof : Reads n [] [] (some .eof) []
  | data {got rest : Bytes} (some : got ≠ []) (fits : got.length ≤ n) :
      Reads n (got ++ rest) got none rest

theorem Reads.split {n : Nat} {b got rest : Bytes} {err : Option Err}
    (reads : Reads n b got err rest) : b = got ++ rest := by
  cases reads <;> rfl

class Stream (σ : Type) extends Reader σ where
  stream : σ → Bytes
  reads : ∀ (r : σ) (n : Nat), 0 < n →
    Reads n (stream r) (Reader.read r n).1 (Reader.read r n).2.1 (stream (Reader.read r n).2.2)

export Reader (read)
export Writer (write)
export Stream (stream)

section ReadFull

variable {σ : Type}

/-- The loop of `io.ReadFull`. A call reads at least one byte or fails, unless the reader returns
nothing without an error, so the fuel is the number of bytes wanted. -/
def readLoop [Reader σ] : Nat → Nat → σ → Bytes × Option Err × σ
  | 0, _, r => ([], none, r)
  | fuel + 1, need, r =>
      if need = 0 then ([], none, r)
      else match read r need with
        | (got, some e, r) => (got, some e, r)
        | (got, none, r) =>
            match readLoop fuel (need - got.length) r with
            | (more, err, r) => (got ++ more, err, r)

def readFull [Reader σ] (r : σ) (n : Nat) : Except Err Bytes × σ :=
  match readLoop n n r with
  | (got, err, r) =>
      if n ≤ got.length then (.ok got, r)
      else match err with
        | some .eof => (.error (if got = [] then .eof else .unexpectedEOF), r)
        | some e => (.error e, r)
        | none => (.error .unexpectedEOF, r)

theorem readLoop_keeps [Reader σ] {P : σ → Prop} {limit : Nat}
    (keep : ∀ r n, P r → 0 < n → n ≤ limit → P (read r n).2.2) (fuel need : Nat) (r : σ)
    (holds : P r) (small : need ≤ limit) : P (readLoop fuel need r).2.2 := by
  induction fuel generalizing need r with
  | zero => exact holds
  | succ fuel ih =>
      by_cases none : need = 0
      · simpa [readLoop, none] using holds
      · have next := keep r need holds (by omega) small
        rw [readLoop, if_neg none]
        rcases result : read r need with ⟨got, err, r'⟩
        rw [result] at next
        cases err with
        | some e => exact next
        | none => exact ih _ _ next (by omega)

theorem readFull_keeps [Reader σ] {P : σ → Prop} {limit : Nat}
    (keep : ∀ r n, P r → 0 < n → n ≤ limit → P (read r n).2.2) (r : σ) (n : Nat)
    (holds : P r) (small : n ≤ limit) : P (readFull r n).2 := by
  have looped := readLoop_keeps keep n n r holds small
  unfold readFull
  generalize readLoop n n r = result at looped ⊢
  obtain ⟨got, err, r'⟩ := result
  dsimp only
  split
  · exact looped
  · cases err with
    | none => exact looped
    | some e => cases e <;> exact looped

variable [Stream σ]

theorem readLoop_stream (fuel need : Nat) (r : σ) (enough : need ≤ fuel) :
    (readLoop fuel need r).1 = (stream r).take need ∧
      (readLoop fuel need r).2.1 = (if need ≤ (stream r).length then none else some .eof) ∧
      stream (readLoop fuel need r).2.2 = (stream r).drop need := by
  induction fuel generalizing need r with
  | zero =>
      have none : need = 0 := by omega
      simp [readLoop, none]
  | succ fuel ih =>
      by_cases none : need = 0
      · simp [readLoop, none]
      · have reads := Stream.reads r need (by omega)
        rw [readLoop, if_neg none]
        rcases result : read r need with ⟨got, err, r'⟩
        rw [result] at reads
        simp only at reads
        generalize ahead : stream r = bytes at reads ⊢
        generalize after : stream r' = left at reads
        cases reads with
        | eof => simp [none, after]
        | data some fits =>
            have progress : 0 < got.length := List.length_pos_iff.2 some
            obtain ⟨more, err, rest⟩ := ih (need - got.length) r' (by omega)
            rw [after] at more err rest
            simp only [more, err, rest]
            refine ⟨?_, ?_, ?_⟩
            · rw [List.take_append, List.take_of_length_le fits]
            · simp only [List.length_append, Nat.sub_le_iff_le_add']
            · rw [List.drop_append, List.drop_of_length_le fits, List.nil_append]

def full (n : Nat) (bytes : Bytes) : Except Err Bytes :=
  if n ≤ bytes.length then .ok (bytes.take n)
  else .error (if bytes = [] then .eof else .unexpectedEOF)

theorem readFull_stream (r : σ) (n : Nat) :
    (readFull r n).1 = full n (stream r) ∧ stream (readFull r n).2 = (stream r).drop n := by
  obtain ⟨got, err, rest⟩ := readLoop_stream n n r (Nat.le_refl n)
  unfold readFull full
  rcases looped : readLoop n n r with ⟨bytes, failure, r'⟩
  rw [looped] at got err rest
  simp only at got err rest
  subst got err
  by_cases long : n ≤ (stream r).length
  · simp [long, rest]
  · have whole : (stream r).take n = stream r := List.take_of_length_le (by omega)
    simp [long, rest, whole]

end ReadFull

instance : Stream Bytes where
  read b n := if b = [] then ([], some .eof, []) else (b.take n, none, b.drop n)
  stream b := b
  reads b n positive := by
    by_cases empty : b = []
    · subst empty
      exact .eof
    · simp only [if_neg empty]
      conv => arg 2; rw [← List.take_append_drop n b]
      refine .data (fun none => empty ?_) (List.length_take_le n b)
      exact (List.take_eq_nil_iff.1 none).resolve_left (by omega)

/-- The receiving side of a connection: a `Read` returns one chunk, or as much of it as fits. -/
structure Source where
  chunks : List Bytes
  nonempty : ∀ c ∈ chunks, c ≠ []

namespace Source

def read (s : Source) (n : Nat) : Bytes × Option Err × Source :=
  match s with
  | ⟨[], _⟩ => ([], some .eof, s)
  | ⟨c :: rest, nonempty⟩ =>
      if fits : c.length ≤ n then
        (c, none, ⟨rest, fun d member => nonempty d (List.mem_cons_of_mem _ member)⟩)
      else
        (c.take n, none, ⟨c.drop n :: rest, by
          intro d member
          rcases List.mem_cons.1 member with rfl | member
          · exact fun empty => fits (List.drop_eq_nil_iff.1 empty)
          · exact nonempty d (List.mem_cons_of_mem _ member)⟩)

def bytes (s : Source) : Bytes := s.chunks.flatten

instance : Stream Source where
  read := read
  stream := bytes
  reads s n positive := by
    rcases s with ⟨chunks, nonempty⟩
    cases chunks with
    | nil => exact .eof
    | cons c rest =>
        have some : c ≠ [] := nonempty c List.mem_cons_self
        by_cases fits : c.length ≤ n
        · simp only [read, dif_pos fits, bytes, List.flatten_cons]
          exact .data some fits
        · simp only [read, dif_neg fits, bytes, List.flatten_cons]
          conv => arg 2; rw [← List.take_append_drop n c, List.append_assoc]
          refine .data (fun none => some ?_) (List.length_take_le n c)
          exact (List.take_eq_nil_iff.1 none).resolve_left (by omega)

end Source

/-- The sending side of a connection: what was written, and the error of every further write once
the peer is gone. -/
structure Sink where
  written : Bytes
  broken : Option Err
  deriving DecidableEq

instance : Writer Sink where
  write k b :=
    match k.broken with
    | some e => (0, some e, k)
    | none => (b.length, none, { k with written := k.written ++ b })

namespace Sink

def fresh : Sink := ⟨[], none⟩

theorem write_open (k : Sink) (b : Bytes) (alive : k.broken = none) :
    write k b = (b.length, none, { k with written := k.written ++ b }) := by
  change (match k.broken with
    | some e => (0, some e, k)
    | none => (b.length, none, { k with written := k.written ++ b })) = _
  rw [alive]

end Sink

end Go
