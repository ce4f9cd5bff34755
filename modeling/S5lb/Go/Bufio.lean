import S5lb.Go.Stream

namespace Go

structure BufReader where
  buffered : Bytes
  src : Source

namespace BufReader

def size : Nat := 4096

/-- `bufio.Reader.Read`: the buffer is filled by one read, only when it is empty, and is bypassed by
a large request. -/
def read (b : BufReader) (n : Nat) : Bytes × Option Err × BufReader :=
  if b.buffered ≠ [] then (b.buffered.take n, none, { b with buffered := b.buffered.drop n })
  else if size ≤ n then
    match b.src.read n with
    | (got, err, src) => (got, err, { b with src })
  else
    match b.src.read size with
    | (got, err, src) => (got.take n, err, ⟨got.drop n, src⟩)

def bytes (b : BufReader) : Bytes := b.buffered ++ b.src.bytes

theorem reads (b : BufReader) (n : Nat) (positive : 0 < n) :
    Reads n b.bytes (b.read n).1 (b.read n).2.1 (b.read n).2.2.bytes := by
  unfold read
  by_cases some : b.buffered ≠ []
  · rw [if_pos some]
    have split : b.bytes = b.buffered.take n ++ (b.buffered.drop n ++ b.src.bytes) := by
      rw [bytes, ← List.append_assoc, List.take_append_drop]
    rw [split]
    exact .data (fun none => some ((List.take_eq_nil_iff.1 none).resolve_left (by omega)))
      (List.length_take_le n _)
  · rw [if_neg some]
    have empty : b.buffered = [] := not_not.1 some
    have ahead : b.bytes = b.src.bytes := by rw [bytes, empty, List.nil_append]
    rw [ahead]
    by_cases large : size ≤ n
    · rw [if_pos large]
      simp only [bytes, empty, List.nil_append]
      exact Stream.reads b.src n positive
    · rw [if_neg large]
      have filled := Stream.reads b.src size (by decide)
      change Reads size b.src.bytes (b.src.read size).1 (b.src.read size).2.1
        (b.src.read size).2.2.bytes at filled
      generalize b.src.read size = result at filled ⊢
      obtain ⟨got, err, src⟩ := result
      generalize b.src.bytes = ahead at filled ⊢
      generalize after : src.bytes = left at filled
      cases filled with
      | eof =>
          simp only [List.take_nil, List.drop_nil, bytes, after, List.append_nil]
          exact .eof
      | data some fits =>
          have split : got ++ left = got.take n ++ (got.drop n ++ left) := by
            rw [← List.append_assoc, List.take_append_drop]
          simp only [bytes, after]
          rw [split]
          exact .data (fun none => some ((List.take_eq_nil_iff.1 none).resolve_left (by omega)))
            (List.length_take_le n _)

instance : Stream BufReader where
  read := read
  stream := bytes
  reads := reads

end BufReader

def Boundary (chunks : List Bytes) (k : Nat) : Prop :=
  ∃ pre suf, chunks = pre ++ suf ∧ pre.flatten.length = k

theorem not_boundary_inside {pre rest : List Bytes} {c : Bytes} {k : Nat}
    (after : pre.flatten.length < k) (before : k < pre.flatten.length + c.length) :
    ¬Boundary (pre ++ c :: rest) k := by
  rintro ⟨pre', suf, same, rfl⟩
  rcases List.append_eq_append_iff.1 same with ⟨a, rfl, tail⟩ | ⟨a, rfl, tail⟩
  · cases a with
    | nil => simp at after
    | cons d a =>
        cases tail
        simp only [List.flatten_append, List.flatten_cons, List.length_append] at before
        omega
  · simp only [List.flatten_append, List.length_append] at after
    omega

namespace BufReader

def Whole (chunks : List Bytes) (k : Nat) (b : BufReader) : Prop :=
  b.buffered = [] ∧ ∃ pre, chunks = pre ++ b.src.chunks ∧ pre.flatten.length = k

def Part (chunks : List Bytes) (k : Nat) (b : BufReader) : Prop :=
  b.buffered ≠ [] ∧ ∃ pre c rest, chunks = pre ++ c :: rest ∧ pre.flatten.length < k ∧
    (b.src.chunks = rest ∧ k + b.buffered.length = pre.flatten.length + c.length ∨
      size < c.length ∧ k + b.buffered.length = pre.flatten.length + size)

/-- The reader was put on a connection with these chunks, and has consumed the first `k` bytes. As
long as these are fewer than the buffer has room for, no chunk was cut. -/
def Tracks (chunks : List Bytes) (b : BufReader) : Prop :=
  ∃ k, chunks.flatten.length = k + b.bytes.length ∧
    (k < size → b.Whole chunks k ∨ b.Part chunks k)

theorem tracks_start (src : Source) : Tracks src.chunks ⟨[], src⟩ :=
  ⟨0, by simp [bytes, Source.bytes], fun _ => .inl ⟨rfl, [], rfl, rfl⟩⟩

theorem buffered_nil_iff {chunks : List Bytes} {b : BufReader} {k : Nat} (small : k < size)
    (consumed : chunks.flatten.length = k + b.bytes.length) (tracks : b.Tracks chunks) :
    b.buffered = [] ↔ Boundary chunks k := by
  obtain ⟨k', consumed', shape⟩ := tracks
  obtain rfl : k' = k := by omega
  rcases shape small with ⟨empty, pre, split, count⟩ | ⟨some, pre, c, rest, rfl, after, inside⟩
  · exact ⟨fun _ => ⟨pre, b.src.chunks, split, count⟩, fun _ => empty⟩
  · have positive : 0 < b.buffered.length := List.length_pos_iff.2 some
    exact ⟨fun empty => absurd empty some,
      fun boundary => absurd boundary (not_boundary_inside after (by omega))⟩

theorem Part.read {chunks : List Bytes} {k n : Nat} {b : BufReader} (part : b.Part chunks k)
    (small : k + min n b.buffered.length < size) :
    Whole chunks (k + min n b.buffered.length) (b.read n).2.2 ∨
      Part chunks (k + min n b.buffered.length) (b.read n).2.2 := by
  obtain ⟨some, pre, c, rest, rfl, after, inside⟩ := part
  rw [BufReader.read, if_pos some]
  by_cases emptied : b.buffered.length ≤ n
  · rw [Nat.min_eq_right emptied] at small ⊢
    -- a chunk longer than the buffer is not consumed before `size` bytes are
    rcases inside with ⟨src, filled⟩ | ⟨_, filled⟩
    · exact .inl ⟨List.drop_eq_nil_iff.2 emptied, pre ++ [c], by simp [src],
        by rw [List.flatten_append, List.length_append, List.flatten_singleton, filled]⟩
    · omega
  · rw [Nat.min_eq_left (by omega)] at small ⊢
    refine .inr ⟨fun none => emptied (List.drop_eq_nil_iff.1 none), pre, c, rest, rfl, by omega, ?_⟩
    simp only [List.length_drop]
    rcases inside with ⟨src, filled⟩ | ⟨long, filled⟩
    · exact .inl ⟨src, by omega⟩
    · exact .inr ⟨long, by omega⟩

theorem read_fill {b : BufReader} {c : Bytes} {rest : List Bytes} {n : Nat}
    (empty : b.buffered = []) (ahead : b.src.chunks = c :: rest) (small : n < size) :
    (b.read n).1.length = min n c.length ∧ (b.read n).2.2.buffered = (c.take size).drop n ∧
      (c.length ≤ size → (b.read n).2.2.src.chunks = rest) := by
  rcases b with ⟨buffered, ⟨chunks, nonempty⟩⟩
  cases empty
  cases ahead
  rw [read, if_neg (by simp), if_neg (by omega)]
  by_cases fits : c.length ≤ size
  · simp [Source.read, fits, List.take_of_length_le fits]
  · simp only [Source.read, fits, dite_false, List.take_take, List.length_take]
    exact ⟨by omega, trivial, False.elim⟩

theorem Whole.read {chunks : List Bytes} {k n : Nat} {b : BufReader} {c : Bytes}
    {rest : List Bytes} (whole : b.Whole chunks k) (ahead : b.src.chunks = c :: rest)
    (positive : 0 < n) (small : n < size) :
    Whole chunks (k + min n c.length) (b.read n).2.2 ∨
      Part chunks (k + min n c.length) (b.read n).2.2 := by
  obtain ⟨empty, pre, rfl, count⟩ := whole
  obtain ⟨_, buffered, src⟩ := read_fill empty ahead small
  by_cases emptied : c.length ≤ n
  · rw [Nat.min_eq_right emptied]
    refine .inl ⟨?_, pre ++ [c], ?_, ?_⟩
    · rw [buffered]
      exact List.drop_eq_nil_iff.2 (Nat.le_trans (List.length_take_le' size c) emptied)
    · rw [src (by omega), ahead, List.append_assoc, List.singleton_append]
    · rw [List.flatten_append, List.length_append, List.flatten_singleton, count]
  · rw [Nat.min_eq_left (by omega)]
    have left : (b.read n).2.2.buffered.length = min size c.length - n := by
      rw [buffered, List.length_drop, List.length_take]
    have some : (b.read n).2.2.buffered ≠ [] := List.length_pos_iff.1 (by omega)
    refine .inr ⟨some, pre, c, rest, by rw [ahead], by omega, ?_⟩
    by_cases fits : c.length ≤ size
    · exact .inl ⟨src fits, by omega⟩
    · exact .inr ⟨by omega, by omega⟩

theorem Tracks.read {chunks : List Bytes} {b : BufReader} {n : Nat} (tracks : b.Tracks chunks)
    (positive : 0 < n) (small : n < size) : Tracks chunks (b.read n).2.2 := by
  obtain ⟨k, consumed, shape⟩ := tracks
  by_cases some : b.buffered ≠ []
  · refine ⟨k + min n b.buffered.length, ?_, fun small => ?_⟩
    · rw [consumed, BufReader.read, if_pos some]
      simp only [bytes, List.length_append, List.length_drop]
      omega
    · rcases shape (by omega) with whole | part
      · exact absurd whole.1 some
      · exact part.read small
  · have empty : b.buffered = [] := not_not.1 some
    cases ahead : b.src.chunks with
    | nil =>
        have stuck : (b.read n).2.2 = b := by
          rcases b with ⟨buffered, ⟨rest, nonempty⟩⟩
          cases empty
          cases ahead
          simp [BufReader.read, Nat.not_le.2 small, Source.read]
        rw [stuck]
        exact ⟨k, consumed, shape⟩
    | cons c rest =>
        refine ⟨k + min n c.length, ?_, fun small' => ?_⟩
        · rw [consumed, (b.reads n positive).split, List.length_append,
            (read_fill empty ahead small).1, Nat.add_assoc]
        · rcases shape (by omega) with whole | part
          · exact whole.read ahead positive small
          · exact absurd empty part.1
end BufReader

end Go
