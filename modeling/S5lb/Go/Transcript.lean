import S5lb.Go.Dialog

namespace Go

namespace Dialog

variable {α β σ ω : Type}

/-- A possible course of a conversation, whatever arrives and whatever its writes return: what it
writes, in order, and its result. -/
inductive Transcript : Dialog α → List Bytes → α → Prop
  | ret (a : α) : Transcript (ret a) [] a
  | recv {n : Nat} {next : Except Err Bytes → Dialog α} {sent : List Bytes} {a : α}
      (got : Except Err Bytes) (sized : ∀ b, got = .ok b → b.length = n)
      (rest : Transcript (next got) sent a) : Transcript (recv n next) sent a
  | send {b : Bytes} {next : Option Err → Dialog α} {sent : List Bytes} {a : α} (err : Option Err)
      (rest : Transcript (next err) sent a) : Transcript (send b next) (b :: sent) a

theorem transcript_ret {a a' : α} {sent : List Bytes} :
    Transcript (ret a) sent a' ↔ sent = [] ∧ a' = a := by
  constructor
  · rintro ⟨⟩
    exact ⟨rfl, rfl⟩
  · rintro ⟨rfl, rfl⟩
    exact .ret _

theorem transcript_send {b : Bytes} {next : Option Err → Dialog α} {sent : List Bytes} {a : α} :
    Transcript (send b next) sent a ↔
      ∃ err rest, sent = b :: rest ∧ Transcript (next err) rest a := by
  constructor
  · rintro ⟨⟩
    exact ⟨_, _, rfl, ‹_›⟩
  · rintro ⟨err, rest, rfl, continued⟩
    exact .send err continued

theorem Transcript.bind {d : Dialog α} {f : α → Dialog β} {sent more : List Bytes} {a : α} {c : β}
    (first : Transcript d sent a) (second : Transcript (f a) more c) :
    Transcript (d.bind f) (sent ++ more) c := by
  induction first with
  | ret a => exact second
  | recv got sized _ ih => exact .recv got sized (ih second)
  | send err _ ih => exact .send err (ih second)

theorem Transcript.split {d : Dialog α} {f : α → Dialog β} {sent : List Bytes} {c : β}
    (whole : Transcript (d.bind f) sent c) :
    ∃ before after a, sent = before ++ after ∧ Transcript d before a ∧ Transcript (f a) after c := by
  induction d generalizing sent with
  | ret a => exact ⟨[], sent, a, rfl, .ret a, whole⟩
  | recv n next ih =>
      cases whole with
      | recv got sized rest =>
          obtain ⟨before, after, a, split, first, second⟩ := ih got rest
          exact ⟨before, after, a, split, .recv got sized first, second⟩
  | send b next ih =>
      cases whole with
      | send err rest =>
          obtain ⟨before, after, a, rfl, first, second⟩ := ih err rest
          exact ⟨b :: before, after, a, rfl, .send err first, second⟩

theorem transcript_bind {d : Dialog α} {f : α → Dialog β} {sent : List Bytes} {c : β} :
    Transcript (d.bind f) sent c ↔
      ∃ before after a, sent = before ++ after ∧ Transcript d before a ∧ Transcript (f a) after c := by
  refine ⟨Transcript.split, ?_⟩
  rintro ⟨before, after, a, rfl, first, second⟩
  exact first.bind second

theorem run_transcript [Stream σ] (d : Dialog α) (r : σ) (w : Sink) (alive : w.broken = none) :
    ∃ sent, Transcript d sent (d.run r w).1 ∧
      (d.run r w).2.2 = ⟨w.written ++ sent.flatten, none⟩ := by
  induction d generalizing r w with
  | ret a =>
      obtain ⟨written, broken⟩ := w
      cases alive
      exact ⟨[], .ret a, by simp [run]⟩
  | recv n next ih =>
      obtain ⟨sent, follows, written⟩ := ih (readFull r n).1 (readFull r n).2 w alive
      refine ⟨sent, .recv _ ?_ follows, written⟩
      rw [(readFull_stream r n).1]
      intro b received
      rw [full] at received
      split at received
      · cases received
        exact List.length_take_of_le ‹_›
      · cases received
  | send b next ih =>
      simp only [run, w.write_open b alive]
      obtain ⟨sent, follows, written⟩ := ih none r { w with written := w.written ++ b } alive
      exact ⟨b :: sent, .send none follows, by rw [written]; simp⟩

theorem run_bind [Reader σ] [Writer ω] (d : Dialog α) (f : α → Dialog β) (r : σ) (w : ω) :
    (d.bind f).run r w = (f (d.run r w).1).run (d.run r w).2.1 (d.run r w).2.2 := by
  induction d generalizing r w with
  | ret a => rfl
  | recv n next ih => exact ih _ _ _
  | send b next ih => exact ih _ _ _

end Dialog

namespace Fallible

open Dialog (Transcript)

variable {α β δ ε ω : Type}

theorem transcript_pure {a : α} {sent : List Bytes} {result : Except ε α} :
    Transcript (pure a : Fallible ε α) sent result ↔ sent = [] ∧ result = .ok a :=
  Dialog.transcript_ret

theorem transcript_fail {e : ε} {sent : List Bytes} {result : Except ε α} :
    Transcript (fail e : Fallible ε α) sent result ↔ sent = [] ∧ result = .error e :=
  Dialog.transcript_ret

theorem transcript_refuse {b : Bytes} {e : ε} {sent : List Bytes} {result : Except ε α} :
    Transcript (refuse b e : Fallible ε α) sent result ↔ sent = [b] ∧ result = .error e := by
  simp only [refuse, Dialog.transcript_send, Dialog.transcript_ret]
  constructor
  · rintro ⟨err, rest, rfl, rfl, failed⟩
    exact ⟨rfl, failed⟩
  · rintro ⟨rfl, failed⟩
    exact ⟨none, [], rfl, rfl, failed⟩

theorem transcript_receive {why : String} {n : Nat} {sent : List Bytes}
    {result : Except String Bytes} :
    Transcript (receive why n) sent result ↔
      sent = [] ∧ ((∃ got, got.length = n ∧ result = .ok got) ∨
        ∃ e : Err, result = .error (why ++ e.text)) := by
  constructor
  · rintro ⟨⟩
    rename_i got sized rest
    cases got with
    | ok b =>
        obtain ⟨rfl, rfl⟩ := Dialog.transcript_ret.1 rest
        exact ⟨rfl, .inl ⟨b, sized b rfl, rfl⟩⟩
    | error e =>
        obtain ⟨rfl, rfl⟩ := Dialog.transcript_ret.1 rest
        exact ⟨rfl, .inr ⟨e, rfl⟩⟩
  · rintro ⟨rfl, ⟨got, length, rfl⟩ | ⟨e, rfl⟩⟩
    · exact .recv (.ok got) (fun b same => by cases same; exact length) (.ret _)
    · exact .recv (.error e) (fun b same => by cases same) (.ret _)

theorem transcript_transmit {why : String} {b : Bytes} {sent : List Bytes}
    {result : Except String Unit} :
    Transcript (transmit why b) sent result ↔
      sent = [b] ∧ (result = .ok () ∨ ∃ e : Err, result = .error (why ++ e.text)) := by
  simp only [transmit, Dialog.transcript_send]
  constructor
  · rintro ⟨err, rest, rfl, continued⟩
    cases err with
    | none =>
        obtain ⟨rfl, rfl⟩ := Dialog.transcript_ret.1 continued
        exact ⟨rfl, .inl rfl⟩
    | some e =>
        obtain ⟨rfl, rfl⟩ := Dialog.transcript_ret.1 continued
        exact ⟨rfl, .inr ⟨e, rfl⟩⟩
  · rintro ⟨rfl, rfl | ⟨e, rfl⟩⟩
    · exact ⟨none, [], rfl, .ret _⟩
    · exact ⟨some e, [], rfl, .ret _⟩

theorem transcript_bind {d : Fallible ε α} {f : α → Fallible ε β} {sent : List Bytes}
    {result : Except ε β} :
    Transcript (d >>= f : Fallible ε β) sent result ↔
      (∃ before after a, sent = before ++ after ∧ Transcript d before (.ok a) ∧
        Transcript (f a) after result) ∨
      ∃ e, Transcript d sent (.error e) ∧ result = .error e := by
  refine Dialog.transcript_bind.trans ⟨?_, ?_⟩
  · rintro ⟨before, after, outcome, rfl, first, second⟩
    cases outcome with
    | ok a => exact .inl ⟨before, after, a, rfl, first, second⟩
    | error e =>
        obtain ⟨rfl, rfl⟩ := Dialog.transcript_ret.1 second
        exact .inr ⟨e, by rwa [List.append_nil], rfl⟩
  · rintro (⟨before, after, a, rfl, first, second⟩ | ⟨e, first, rfl⟩)
    · exact ⟨before, after, .ok a, rfl, first, second⟩
    · exact ⟨sent, [], .error e, (List.append_nil sent).symm, first, .ret _⟩

theorem transcript_handle {d : Fallible ε α} {h : ε → Fallible δ α} {sent : List Bytes}
    {result : Except δ α} :
    Transcript (d.handle h) sent result ↔
      (∃ a, Transcript d sent (.ok a) ∧ result = .ok a) ∨
      ∃ before after e, sent = before ++ after ∧ Transcript d before (.error e) ∧
        Transcript (h e) after result := by
  refine Dialog.transcript_bind.trans ⟨?_, ?_⟩
  · rintro ⟨before, after, outcome, rfl, first, second⟩
    cases outcome with
    | ok a =>
        obtain ⟨rfl, rfl⟩ := Dialog.transcript_ret.1 second
        exact .inl ⟨a, by rwa [List.append_nil], rfl⟩
    | error e => exact .inr ⟨before, after, e, rfl, first, second⟩
  · rintro (⟨a, first, rfl⟩ | ⟨before, after, e, rfl, first, second⟩)
    · exact ⟨sent, [], .ok a, (List.append_nil sent).symm, first, .ret _⟩
    · exact ⟨before, after, .error e, rfl, first, second⟩

def Silent (d : Fallible ε α) : Prop := ∀ sent result, Transcript d sent result → sent = []

theorem silent_pure (a : α) : Silent (pure a : Fallible ε α) := fun _ _ follows =>
  (transcript_pure.1 follows).1

theorem silent_fail (e : ε) : Silent (fail e : Fallible ε α) := fun _ _ follows =>
  (transcript_fail.1 follows).1

theorem silent_receive (why : String) (n : Nat) : Silent (receive why n) := fun _ _ follows =>
  (transcript_receive.1 follows).1

theorem Silent.bind {d : Fallible ε α} {f : α → Fallible ε β} (silent : Silent d)
    (next : ∀ a, Silent (f a)) : Silent (d >>= f) := by
  intro sent result follows
  rcases transcript_bind.1 follows with ⟨before, after, a, rfl, first, second⟩ | ⟨e, first, _⟩
  · rw [silent _ _ first, next a _ _ second, List.append_nil]
  · exact silent _ _ first

def Yields [Writer ω] (d : Fallible ε α) (b : Bytes) (w : ω) (a : α) (rest : Bytes) (w' : ω) : Prop :=
  Dialog.run d b w = (.ok a, rest, w')

section Yields

variable [Writer ω] {b rest : Bytes} {w w' : ω}

theorem yields_pure {a c : α} :
    Yields (pure a : Fallible ε α) b w c rest w' ↔ c = a ∧ rest = b ∧ w' = w := by
  change ((.ok a : Except ε α), b, w) = _ ↔ _
  simp only [Prod.mk.injEq, Except.ok.injEq, eq_comm]

theorem yields_fail {e : ε} {a : α} : ¬Yields (fail e : Fallible ε α) b w a rest w' := by
  intro yields
  cases congrArg Prod.fst (yields : ((.error e : Except ε α), b, w) = _)

theorem yields_refuse {c : Bytes} {e : ε} {a : α} :
    ¬Yields (refuse c e : Fallible ε α) b w a rest w' := by
  intro yields
  cases congrArg Prod.fst (yields : ((.error e : Except ε α), b, _) = _)

theorem yields_receive {why : String} {n : Nat} {got : Bytes} :
    Yields (receive why n) b w got rest w' ↔ b = got ++ rest ∧ got.length = n ∧ w' = w := by
  obtain ⟨result, left⟩ := readFull_stream b n
  change (readFull b n).1 = full n b at result
  change (readFull b n).2 = b.drop n at left
  unfold Yields receive
  simp only [Dialog.run, result, left, full]
  by_cases enough : n ≤ b.length
  · simp only [if_pos enough, Dialog.run, Prod.mk.injEq, Except.ok.injEq]
    constructor
    · rintro ⟨rfl, rfl, rfl⟩
      exact ⟨(List.take_append_drop n b).symm, List.length_take_of_le enough, rfl⟩
    · rintro ⟨rfl, rfl, rfl⟩
      exact ⟨List.take_left, List.drop_left, rfl⟩
  · simp only [if_neg enough, Dialog.run, Prod.mk.injEq, reduceCtorEq, false_and, false_iff]
    rintro ⟨rfl, rfl, _⟩
    exact enough (by simp)

theorem yields_bind {d : Fallible ε α} {f : α → Fallible ε β} {c : β} :
    Yields (d >>= f) b w c rest w' ↔
      ∃ a b₁ w₁, Yields d b w a b₁ w₁ ∧ Yields (f a) b₁ w₁ c rest w' := by
  unfold Yields
  rw [show Dialog.run (d >>= f : Fallible ε β) b w = _ from Dialog.run_bind _ _ b w]
  rcases Dialog.run d b w with ⟨result, b₁, w₁⟩
  cases result with
  | ok a =>
      constructor
      · exact fun continued => ⟨a, b₁, w₁, rfl, continued⟩
      · rintro ⟨_, _, _, ⟨⟩, continued⟩
        exact continued
  | error e => exact ⟨nofun, nofun⟩

theorem yields_receive_bind {why : String} {n : Nat} {f : Bytes → Fallible String β} {c : β} :
    Yields (receive why n >>= f) b w c rest w' ↔
      ∃ got b₁, b = got ++ b₁ ∧ got.length = n ∧ Yields (f got) b₁ w c rest w' := by
  rw [yields_bind]
  constructor
  · rintro ⟨got, b₁, w₁, received, continued⟩
    obtain ⟨split, length, rfl⟩ := yields_receive.1 received
    exact ⟨got, b₁, split, length, continued⟩
  · rintro ⟨got, b₁, split, length, continued⟩
    exact ⟨got, b₁, w, yields_receive.2 ⟨split, length, rfl⟩, continued⟩

theorem yields_transmit_bind {why : String} {c : Bytes} {f : Unit → Fallible String β} {a : β} :
    Yields (transmit why c >>= f) b w a rest w' ↔
      (write w c).2.1 = none ∧ Yields (f ()) b (write w c).2.2 a rest w' := by
  rw [yields_bind]
  have sent {u : Unit} {b₁ : Bytes} {w₁ : ω} : Yields (transmit why c) b w u b₁ w₁ ↔
      (write w c).2.1 = none ∧ b₁ = b ∧ w₁ = (write w c).2.2 := by
    unfold Yields transmit
    simp only [Dialog.run]
    cases (write w c).2.1 <;> simp [Dialog.run, eq_comm]
  constructor
  · rintro ⟨u, b₁, w₁, first, continued⟩
    obtain ⟨written, rfl, rfl⟩ := sent.1 first
    exact ⟨written, continued⟩
  · rintro ⟨written, continued⟩
    exact ⟨(), b, _, sent.2 ⟨written, rfl, rfl⟩, continued⟩

theorem yields_handle {d : Fallible ε α} {h : ε → Fallible δ α} {a : α}
    (fails : ∀ e, Dialog.Fails (h e)) :
    Yields (d.handle h) b w a rest w' ↔ Yields d b w a rest w' := by
  unfold Yields
  rw [show Dialog.run (d.handle h) b w = _ from Dialog.run_bind _ _ b w]
  rcases Dialog.run d b w with ⟨result, b₁, w₁⟩
  cases result with
  | ok c =>
      change ((.ok c : Except δ α), b₁, w₁) = _ ↔ _
      simp only [Prod.mk.injEq, Except.ok.injEq]
  | error e =>
      obtain ⟨e', failed⟩ := (fails e).run b₁ w₁
      constructor
      · intro yields
        cases failed.symm.trans (congrArg Prod.fst yields)
      · exact nofun

theorem Yields.run {σ : Type} [Stream σ] {d : Fallible ε α} {r : σ} {a : α} :
    (∃ r', Dialog.run d r w = (.ok a, r', w') ∧ stream r' = rest) ↔
      Yields d (stream r) w a rest w' := by
  have streamed := Dialog.run_stream d r w
  unfold Yields
  rw [show Dialog.run d (stream r) w = _ from streamed]
  clear streamed
  rcases Dialog.run d r w with ⟨result, r', w₁⟩
  simp only [Prod.mk.injEq]
  constructor
  · rintro ⟨_, ⟨rfl, rfl, rfl⟩, rfl⟩
    exact ⟨rfl, rfl, rfl⟩
  · rintro ⟨rfl, rfl, rfl⟩
    exact ⟨r', ⟨rfl, rfl, rfl⟩, rfl⟩

end Yields

end Fallible

end Go
