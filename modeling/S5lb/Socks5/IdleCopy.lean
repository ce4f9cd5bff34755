import S5lb.Socks5.Pipe

/-!
# The copy with an idle timeout

The bytes that a source has returned and those that a destination has taken are recorded around any
reader and any writer, whatever counts and errors they answer with.
-/

namespace S5lb.Socks5

open Go

structure Heard (σ : Type) where
  inner : σ
  bytes : Bytes
  last : Option Err

structure Taken (ω : Type) where
  inner : ω
  bytes : Bytes
  failure : Option Err

section Recorded

variable {σ ω : Type}

structure Wrote (k : Taken ω) (b : Bytes) (total n : Nat) (result : Nat × Option Err × Taken ω) :
    Prop where
  fits : n ≤ b.length
  total : result.1 = total + n
  bytes : result.2.2.bytes = k.bytes ++ b.take n
  failure : result.2.2.failure = result.2.1
  whole : result.2.1 = none → n = b.length

structure Exact (c : Copied (Heard σ) (Taken ω)) : Prop where
  order : c.dst.bytes <+: c.src.bytes
  total : c.total = c.dst.bytes.length
  whole : c.dst.failure = none → c.dst.bytes = c.src.bytes
  ended : c.ended = (c.dst.failure.map some).or
    (c.src.last.map fun e => if e.is .eof then none else some e)

structure Even (src : Heard σ) (dst : Taken ω) (total : Nat) : Prop where
  bytes : dst.bytes = src.bytes
  total : total = dst.bytes.length
  failure : dst.failure = none

theorem Even.exact {src : Heard σ} {dst : Taken ω} {total : Nat} (even : Even src dst total) :
    Exact ⟨total, src.last.map fun e => if e.is .eof then none else some e, src, dst⟩ where
  order := even.bytes ▸ List.prefix_refl _
  total := even.total
  whole _ := even.bytes
  ended := by simp [even.failure]

variable [Writer ω]

instance : Writer (Taken ω) where
  write k b :=
    let (nw, err, inner) := write k.inner b
    (nw, err, ⟨inner, k.bytes ++ b.take nw, err.or (if nw = 0 then some .shortWrite else none)⟩)

theorem write_taken {k : Taken ω} {b : Bytes} {nw : Nat} {err : Option Err} {inner : ω}
    (answer : write k.inner b = (nw, err, inner)) :
    write k b = (nw, err,
      ⟨inner, k.bytes ++ b.take nw, err.or (if nw = 0 then some .shortWrite else none)⟩) := by
  simp only [Writer.write, answer]

/-- `Write` reports no more bytes than it was given, as `io.Writer` asks. -/
def Fair (ω : Type) [Writer ω] : Prop := ∀ (w : ω) (b : Bytes), (write w b).1 ≤ b.length

theorem writeLoop_wrote (fair : Fair ω) {fuel : Nat} (k : Taken ω) (b : Bytes) (total : Nat)
    (enough : b.length ≤ fuel) (sound : k.failure = none) :
    ∃ n, Wrote k b total n (writeLoop fuel k b total) := by
  induction fuel generalizing k b total with
  | zero =>
      have empty : b = [] := List.length_eq_zero_iff.1 (by omega)
      subst empty
      exact ⟨0, le_rfl, rfl, by simp [writeLoop], sound, fun _ => rfl⟩
  | succ fuel ih =>
      by_cases empty : b = []
      · subst empty
        exact ⟨0, le_rfl, rfl, by simp [writeLoop], sound, fun _ => rfl⟩
      · have short := fair k.inner b
        rcases answer : write k.inner b with ⟨nw, err, inner⟩
        rw [answer] at short
        rw [writeLoop, if_neg empty, write_taken answer]
        cases err with
        | some e => exact ⟨nw, short, rfl, rfl, rfl, fun clean => by cases clean⟩
        | none =>
            by_cases stuck : nw = 0
            · subst stuck
              exact ⟨0, Nat.zero_le _, rfl, rfl, rfl, fun clean => by cases clean⟩
            · simp only [if_neg stuck, Option.or_none]
              obtain ⟨n, next⟩ := ih ⟨inner, k.bytes ++ b.take nw, none⟩ (b.drop nw) (total + nw)
                (by rw [List.length_drop]; omega) rfl
              refine ⟨nw + n, ?_, ?_, ?_, next.failure, ?_⟩
              · have fits := next.fits
                rw [List.length_drop] at fits
                omega
              · rw [next.total, Nat.add_assoc]
              · rw [next.bytes, List.append_assoc, List.take_add]
              · intro clean
                have whole := next.whole clean
                rw [List.length_drop] at whole
                omega

theorem writeLoop_ends (w : ω) (b : Bytes) (total : Nat) {fuel more : Nat} (enough : b.length ≤ fuel)
    (enough' : b.length ≤ more) : writeLoop fuel w b total = writeLoop more w b total := by
  induction fuel generalizing w b total more with
  | zero =>
      have empty : b = [] := List.length_eq_zero_iff.1 (by omega)
      subst empty
      cases more <;> rfl
  | succ fuel ih =>
      by_cases empty : b = []
      · subst empty
        cases more <;> rfl
      · have positive : 0 < b.length := List.length_pos_iff.2 empty
        obtain ⟨more, rfl⟩ := Nat.exists_eq_add_one_of_ne_zero (show more ≠ 0 by omega)
        rw [writeLoop, writeLoop, if_neg empty, if_neg empty]
        rcases write w b with ⟨nw, _ | e, w'⟩
        · by_cases stuck : nw = 0
          · simp only [if_pos stuck]
          · simp only [if_neg stuck]
            apply ih
            · rw [List.length_drop]
              omega
            · rw [List.length_drop]
              omega
        · rfl

theorem put_read (fair : Fair ω) {src : Heard σ} {dst : Taken ω} {total : Nat}
    (even : Even src dst total) (inner : σ) (got : Bytes) (rerr : Option Err) :
    ∃ n werr dst',
      (if got = [] then (0, none, dst) else writeLoop got.length dst got 0) = (n, werr, dst') ∧
      (werr = none → Even ⟨inner, src.bytes ++ got, rerr⟩ dst' (total + n)) ∧
      ∀ e, werr = some e →
        Exact ⟨total + n, some (some e), ⟨inner, src.bytes ++ got, rerr⟩, dst'⟩ := by
  by_cases nothing : got = []
  · rw [if_pos nothing]
    refine ⟨0, none, dst, rfl, fun _ => ⟨?_, even.total, even.failure⟩, fun e failed => by cases failed⟩
    rw [nothing, even.bytes, List.append_nil]
  · rw [if_neg nothing]
    obtain ⟨n, wrote⟩ := writeLoop_wrote fair dst got 0 le_rfl even.failure
    generalize writeLoop got.length dst got 0 = result at wrote ⊢
    obtain ⟨t, werr, dst'⟩ := result
    obtain ⟨fits, counted, bytes, failure, whole⟩ := wrote
    dsimp only at counted bytes failure whole
    rw [Nat.zero_add] at counted
    subst counted
    have length : total + t = dst'.bytes.length := by
      rw [bytes, even.total, List.length_append, List.length_take_of_le fits]
    refine ⟨t, werr, dst', rfl, fun clean => ⟨?_, length, failure.trans clean⟩, ?_⟩
    · rw [bytes, even.bytes, whole clean, List.take_length]
    · rintro e rfl
      refine ⟨?_, length, fun clean => ?_, ?_⟩
      · dsimp only
        rw [bytes, even.bytes]
        exact (List.prefix_append_right_inj _).2 (List.take_prefix _ _)
      · cases failure.symm.trans clean
      · dsimp only
        rw [failure]
        rfl

variable [Reader σ]

instance : Reader (Heard σ) where
  read h n :=
    let (got, err, inner) := read h.inner n
    (got, err, ⟨inner, h.bytes ++ got, err⟩)

theorem read_heard {h : Heard σ} {n : Nat} {got : Bytes} {err : Option Err} {inner : σ}
    (answer : read h.inner n = (got, err, inner)) :
    read h n = (got, err, ⟨inner, h.bytes ++ got, err⟩) := by
  simp only [Reader.read, answer]

theorem copyLoop_exact (fair : Fair ω) (rounds : Nat) {src : Heard σ} {dst : Taken ω} {total : Nat}
    (even : Even src dst total) (going : src.last = none) :
    Exact (copyLoop (·.is .eof) (fun w b => writeLoop b.length w b 0) rounds src dst total) := by
  induction rounds generalizing src dst total with
  | zero =>
      have exact := even.exact
      rwa [going] at exact
  | succ rounds ih =>
      rcases answer : read src.inner bufSize with ⟨got, rerr, inner⟩
      obtain ⟨n, werr, dst', put, settled, failed⟩ := put_read fair even inner got rerr
      rw [copyLoop, read_heard answer]
      dsimp only
      rw [put]
      cases werr with
      | some e => exact failed e rfl
      | none =>
          have even' := settled rfl
          cases rerr with
          | none => exact ih even' rfl
          | some e => exact even'.exact

/-- The idle path delivers what was read, in order, up to a failed or empty `Write`, counts it, and
returns the error of that `Write` or of the last `Read`. -/
theorem idle_copy_exact (fair : Fair ω) (src : σ) (dst : ω) {idle : Duration} (positive : 0 < idle)
    (rounds : Nat) :
    Exact (copyDir rounds (⟨dst, [], none⟩ : Taken ω) (⟨src, [], none⟩ : Heard σ) idle) ∧
    ∀ (w : ω) (b : Bytes) (fuel : Nat), b.length ≤ fuel →
      writeLoop fuel w b 0 = writeLoop b.length w b 0 := by
  refine ⟨?_, fun w b fuel enough => writeLoop_ends w b 0 enough le_rfl⟩
  rw [copyDir, if_neg (not_le.2 positive)]
  exact copyLoop_exact fair rounds ⟨rfl, rfl, rfl⟩ rfl

end Recorded

structure ReadScript where
  answers : List (Bytes × Option Err)

instance : Reader ReadScript where
  read s n :=
    match s.answers with
    | [] => ([], some .eof, s)
    | (got, err) :: rest => (got.take n, err, ⟨rest⟩)

structure WriteScript where
  answers : List (Nat × Option Err)

instance : Writer WriteScript where
  write s b :=
    match s.answers with
    | [] => (b.length, none, s)
    | (nw, err) :: rest => (min nw b.length, err, ⟨rest⟩)

theorem fair_script : Fair WriteScript := by
  rintro ⟨answers⟩ b
  cases answers with
  | nil => exact le_rfl
  | cons answer rest => exact min_le_right _ _

/-- Two short writes, and bytes that come together with an error. -/
theorem idle_copy_exact_short :
    let c := copyDir 2 (⟨⟨[(1, none), (1, none)]⟩, [], none⟩ : Taken WriteScript)
      (⟨⟨[([1, 2, 3], none), ([4], some (.other "reset"))]⟩, [], none⟩ : Heard ReadScript) 1
    c.total = 4 ∧ c.dst.bytes = [1, 2, 3, 4] ∧ c.ended = some (some (.other "reset")) := by
  intro c
  have exact : Exact c := (idle_copy_exact fair_script _ _ Int.one_pos 2).1
  have clean : c.dst.failure = none := by decide +kernel
  have bytes : c.dst.bytes = [1, 2, 3, 4] := by
    rw [exact.whole clean]
    decide +kernel
  have last : c.src.last = some (.other "reset") := by decide +kernel
  refine ⟨by rw [exact.total, bytes]; rfl, bytes, ?_⟩
  rw [exact.ended, clean, last]
  rfl

/-- An error that wraps the end of the stream is another error and is not returned. -/
theorem wrapped_eof_swallowed :
    let wrapped : Err := .wrapped "relay: EOF" .eof
    let c := copyDir 1 (⟨⟨[]⟩, [], none⟩ : Taken WriteScript)
      (⟨⟨[([], some wrapped)]⟩, [], none⟩ : Heard ReadScript) 1
    wrapped ≠ .eof ∧ c.src.last = some wrapped ∧ c.dst.failure = none ∧ c.ended = some none := by
  decide +kernel

end S5lb.Socks5
