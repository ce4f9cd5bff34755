import S5lb.Go.Stream

namespace Go

/-- A conversation over a connection: it receives a fixed number of bytes, sends some, and goes on
with what that returned, errors included. -/
inductive Dialog (α : Type)
  | ret (a : α)
  | recv (n : Nat) (next : Except Err Bytes → Dialog α)
  | send (b : Bytes) (next : Option Err → Dialog α)

namespace Dialog

variable {α β δ ε σ ω : Type}

def bind : Dialog α → (α → Dialog β) → Dialog β
  | ret a, f => f a
  | recv n next, f => recv n fun got => (next got).bind f
  | send b next, f => send b fun err => (next err).bind f

instance : Monad Dialog where
  pure := ret
  bind := bind

def run [Reader σ] [Writer ω] : Dialog α → σ → ω → α × σ × ω
  | ret a, r, w => (a, r, w)
  | recv n next, r, w => (next (readFull r n).1).run (readFull r n).2 w
  | send b next, r, w => (next (write w b).2.1).run r (write w b).2.2

/-- A conversation sees only the bytes ahead, not how the reader portions them. -/
theorem run_stream [Stream σ] [Writer ω] (d : Dialog α) (r : σ) (w : ω) :
    d.run (stream r) w = ((d.run r w).1, stream (d.run r w).2.1, (d.run r w).2.2) := by
  induction d generalizing r w with
  | ret a => rfl
  | recv n next ih =>
      obtain ⟨got, rest⟩ := readFull_stream r n
      obtain ⟨got', rest'⟩ := readFull_stream (stream r) n
      have same : readFull (stream r) n = ((readFull r n).1, stream (readFull r n).2) :=
        Prod.ext (got'.trans got.symm) (rest'.trans rest.symm)
      simp only [run, same]
      exact ih _ _ _
  | send b next ih => exact ih _ _ _

theorem run_open [Reader σ] (d : Dialog α) (r : σ) (w : Sink) (alive : w.broken = none) :
    d.run r w = ((d.run r Sink.fresh).1, (d.run r Sink.fresh).2.1,
      ⟨w.written ++ (d.run r Sink.fresh).2.2.written, none⟩) := by
  induction d generalizing r w with
  | ret a =>
      obtain ⟨written, broken⟩ := w
      cases alive
      simp [run, Sink.fresh]
  | recv n next ih => exact ih _ _ _ alive
  | send b next ih =>
      simp only [run, w.write_open b alive, Sink.fresh.write_open b rfl]
      rw [ih none r { w with written := w.written ++ b } alive,
        ih none r { Sink.fresh with written := Sink.fresh.written ++ b } rfl]
      simp [Sink.fresh]

def Short : Nat → Dialog α → Prop
  | _, ret _ => True
  | m, recv n next => n ≤ m ∧ ∀ got, Short (m - n) (next got)
  | m, send _ next => ∀ err, Short m (next err)

theorem Short.mono {d : Dialog α} {m k : Nat} (short : d.Short m) (le : m ≤ k) : d.Short k := by
  induction d generalizing m k with
  | ret a => trivial
  | recv n next ih => exact ⟨Nat.le_trans short.1 le, fun got => ih got (short.2 got) (by omega)⟩
  | send b next ih => exact fun err => ih err (short err) le

theorem Short.bind {d : Dialog α} {f : α → Dialog β} {m k : Nat} (short : d.Short m)
    (rest : ∀ a, (f a).Short k) : (d.bind f).Short (m + k) := by
  induction d generalizing m with
  | ret a => exact (rest a).mono (by omega)
  | recv n next ih =>
      refine ⟨by have := short.1; omega, fun got => ?_⟩
      have := short.1
      exact (ih got (short.2 got)).mono (by omega)
  | send b next ih => exact fun err => ih err (short err)

theorem run_short [Stream σ] [Writer ω] {d : Dialog α} {m : Nat} (short : d.Short m) (r : σ)
    (w : ω) : (stream r).length ≤ (stream (d.run r w).2.1).length + m := by
  induction d generalizing m r w with
  | ret a => exact Nat.le_add_right _ _
  | recv n next ih =>
      have after := ih _ (short.2 (readFull r n).1) (readFull r n).2 w
      rw [(readFull_stream r n).2, List.length_drop] at after
      have fits := short.1
      simp only [run]
      omega
  | send b next ih => exact ih _ (short _) _ _

theorem run_keeps [Reader σ] [Writer ω] {P : σ → Prop} {limit : Nat}
    (keep : ∀ r n, P r → 0 < n → n ≤ limit → P (read r n).2.2) {d : Dialog α}
    (short : d.Short limit) (r : σ) (w : ω) (holds : P r) : P (d.run r w).2.1 := by
  suffices general : ∀ m ≤ limit, d.Short m → P (d.run r w).2.1 from general limit (Nat.le_refl _) short
  clear short
  induction d generalizing r w with
  | ret a => exact fun _ _ _ => holds
  | recv n next ih =>
      intro m le short
      exact ih _ _ _ (readFull_keeps keep r n holds (Nat.le_trans short.1 le)) (m - n) (by omega)
        (short.2 _)
  | send b next ih => exact fun m le short => ih _ _ _ holds m le (short _)

def Fails : Dialog (Except ε α) → Prop
  | ret a => ∃ e, a = .error e
  | recv _ next => ∀ got, Fails (next got)
  | send _ next => ∀ err, Fails (next err)

def Strict : Dialog (Except ε α) → Prop
  | ret _ => True
  | recv _ next => (∀ e, Fails (next (.error e))) ∧ ∀ got, Strict (next (.ok got))
  | send _ next => ∀ err, Strict (next err)

theorem Fails.run [Reader σ] [Writer ω] {d : Dialog (Except ε α)} (fails : d.Fails) (r : σ)
    (w : ω) : ∃ e, (d.run r w).1 = .error e := by
  induction d generalizing r w with
  | ret a => exact fails
  | recv n next ih => exact ih _ (fails _) _ _
  | send b next ih => exact ih _ (fails _) _ _

theorem Strict.run_append [Writer ω] {d : Dialog (Except ε α)} (strict : d.Strict) {b : Bytes}
    {w w' : ω} {a : α} {rest : Bytes} (accepted : d.run b w = (.ok a, rest, w')) (tail : Bytes) :
    d.run (b ++ tail) w = (.ok a, rest ++ tail, w') := by
  induction d generalizing b w with
  | ret a' =>
      cases accepted
      rfl
  | recv n next ih =>
      obtain ⟨got, left⟩ := readFull_stream b n
      obtain ⟨got', left'⟩ := readFull_stream (b ++ tail) n
      change (readFull b n).1 = full n b at got
      change (readFull b n).2 = b.drop n at left
      change (readFull (b ++ tail) n).1 = full n (b ++ tail) at got'
      change (readFull (b ++ tail) n).2 = (b ++ tail).drop n at left'
      simp only [run, got, left] at accepted
      simp only [run, got', left']
      by_cases enough : n ≤ b.length
      · have longer : n ≤ (b ++ tail).length := by rw [List.length_append]; omega
        rw [full, if_pos enough] at accepted
        rw [full, if_pos longer, List.take_append_of_le_length enough,
          List.drop_append_of_le_length enough]
        exact ih _ (strict.2 _) accepted
      · rw [full, if_neg enough] at accepted
        obtain ⟨e, failed⟩ := (strict.1 _).run (b.drop n) w
        rw [accepted] at failed
        cases failed
  | send c next ih => exact ih _ (strict _) accepted

theorem Fails.bind {d : Dialog (Except ε α)} {f : Except ε α → Dialog (Except δ β)}
    (fails : d.Fails) (failed : ∀ e, (f (.error e)).Fails) : (d.bind f).Fails := by
  induction d with
  | ret a =>
      obtain ⟨e, rfl⟩ := fails
      exact failed e
  | recv n next ih => exact fun got => ih got (fails got)
  | send b next ih => exact fun err => ih err (fails err)

theorem Strict.bind {d : Dialog (Except ε α)} {f : Except ε α → Dialog (Except δ β)}
    (strict : d.Strict) (next : ∀ a, (f (.ok a)).Strict) (failed : ∀ e, (f (.error e)).Fails)
    (failedStrict : ∀ e, (f (.error e)).Strict) : (d.bind f).Strict := by
  induction d with
  | ret a =>
      cases a with
      | ok a => exact next a
      | error e => exact failedStrict e
  | recv n k ih =>
      exact ⟨fun e => (strict.1 e).bind failed, fun got => ih (.ok got) (strict.2 got)⟩
  | send b k ih => exact fun err => ih err (strict err)

end Dialog

def Fallible (ε α : Type) := Dialog (Except ε α)

namespace Fallible

variable {α β δ ε : Type}

instance : Monad (Fallible ε) where
  pure a := Dialog.ret (.ok a)
  bind d f := Dialog.bind d fun
    | .ok a => f a
    | .error e => Dialog.ret (.error e)

def fail (e : ε) : Fallible ε α := Dialog.ret (.error e)

def refuse (b : Bytes) (e : ε) : Fallible ε α := Dialog.send b fun _ => Dialog.ret (.error e)

def handle (d : Fallible ε α) (h : ε → Fallible δ α) : Fallible δ α :=
  Dialog.bind d fun
    | .ok a => Dialog.ret (.ok a)
    | .error e => h e

def receive (why : String) (n : Nat) : Fallible String Bytes :=
  Dialog.recv n fun
    | .ok got => .ret (.ok got)
    | .error e => .ret (.error (why ++ e.text))

def transmit (why : String) (b : Bytes) : Fallible String Unit :=
  Dialog.send b fun
    | none => .ret (.ok ())
    | some e => .ret (.error (why ++ e.text))

structure Parses (m : Nat) (d : Fallible ε α) : Prop where
  short : Dialog.Short m d
  strict : Dialog.Strict d

structure Reports (d : Fallible ε α) : Prop extends Parses 0 d where
  fails : Dialog.Fails d

theorem reports_fail (e : ε) : Reports (fail e : Fallible ε α) := ⟨⟨trivial, trivial⟩, e, rfl⟩

theorem reports_refuse (b : Bytes) (e : ε) : Reports (refuse b e : Fallible ε α) :=
  ⟨⟨fun _ => trivial, fun _ => trivial⟩, fun _ => ⟨e, rfl⟩⟩

namespace Parses

variable {d : Fallible ε α} {m k : Nat}

theorem mono (parses : Parses m d) (le : m ≤ k) : Parses k d :=
  ⟨parses.short.mono le, parses.strict⟩

theorem pure (a : α) : Parses m (Pure.pure a : Fallible ε α) := ⟨trivial, trivial⟩

theorem fail (e : ε) : Parses m (Fallible.fail e : Fallible ε α) :=
  (reports_fail e).toParses.mono (Nat.zero_le m)

theorem refuse (b : Bytes) (e : ε) : Parses m (Fallible.refuse b e : Fallible ε α) :=
  (reports_refuse b e).toParses.mono (Nat.zero_le m)

theorem receive (why : String) (n : Nat) : Parses n (Fallible.receive why n) := by
  refine ⟨⟨Nat.le_refl n, fun got => ?_⟩, fun e => ⟨_, rfl⟩, fun got => trivial⟩
  cases got <;> trivial

theorem transmit (why : String) (b : Bytes) : Parses 0 (Fallible.transmit why b) := by
  refine ⟨fun err => ?_, fun err => ?_⟩ <;> cases err <;> trivial

theorem bind (parses : Parses m d) {f : α → Fallible ε β} (next : ∀ a, Parses k (f a)) :
    Parses (m + k) (d >>= f) := by
  refine ⟨parses.short.bind fun result => ?_, parses.strict.bind (fun a => (next a).strict)
    (fun e => ⟨e, rfl⟩) (fun e => trivial)⟩
  cases result with
  | ok a => exact (next a).short
  | error e => trivial

theorem handle (parses : Parses m d) {h : ε → Fallible δ α} (reports : ∀ e, Reports (h e)) :
    Parses m (d.handle h) := by
  refine ⟨parses.short.bind (k := 0) fun result => ?_, parses.strict.bind (fun a => trivial)
    (fun e => (reports e).fails) (fun e => (reports e).strict)⟩
  cases result with
  | ok a => trivial
  | error e => exact (reports e).short

end Parses

def Accepts (d : Fallible ε α) (b : Bytes) (a : α) : Prop :=
  ∃ out, Dialog.run d b Sink.fresh = (.ok a, [], out)

theorem Accepts.run {σ : Type} [Stream σ] {d : Fallible ε α} {b tail : Bytes} {a : α} {r : σ}
    {w : Sink} (accepts : d.Accepts b a) (strict : Dialog.Strict d) (ahead : stream r = b ++ tail)
    (alive : w.broken = none) :
    (Dialog.run d r w).1 = .ok a ∧ stream (Dialog.run d r w).2.1 = tail ∧
      (Dialog.run d r w).2.2.broken = none := by
  obtain ⟨out, accepted⟩ := accepts
  have longer := strict.run_append accepted tail
  have opened := Dialog.run_open d r w alive
  have streamed := Dialog.run_stream d r Sink.fresh
  rw [ahead, longer] at streamed
  simp only [Prod.mk.injEq, List.nil_append] at streamed
  rw [opened]
  exact ⟨streamed.1.symm, streamed.2.1.symm, rfl⟩

end Fallible

end Go
