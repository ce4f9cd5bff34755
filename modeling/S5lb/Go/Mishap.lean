import S5lb.Go.Talk

/-!
# Conversations over a connection that fails

A receive may fail at any time, with bytes that are then lost, and a send after any part of its bytes
has gone out.
-/

namespace Go

open Transition

inductive Mishap
  | none
  | recv (e : Err) (lost : Nat)
  | send (e : Err) (sent : Nat)
  deriving DecidableEq

namespace Dialog

variable {α β ε δ : Type}

def stumble : Mishap → Dialog α → Bytes → Option (Dialog α × Bytes × Bytes)
  | .none, d, input => d.turn input
  | .recv e lost, recv _ next, input => some (next (.error e), input.drop lost, [])
  | .send e sent, send b next, input => some (next (some e), input, b.take sent)
  | .recv _ _, _, _ | .send _ _, _, _ => none

inductive Path : Dialog α → Bytes → Bytes → Dialog α → Prop
  | nil (d : Dialog α) : Path d [] [] d
  | got {n : Nat} {next : Except Err Bytes → Dialog α} {b consumed sent : Bytes} {last : Dialog α}
      (full : b.length = n) (rest : Path (next (.ok b)) consumed sent last) :
      Path (recv n next) (b ++ consumed) sent last
  | lost {n : Nat} {next : Except Err Bytes → Dialog α} {consumed sent : Bytes} {last : Dialog α}
      (e : Err) (b : Bytes) (rest : Path (next (.error e)) consumed sent last) :
      Path (recv n next) (b ++ consumed) sent last
  | put {b : Bytes} {next : Option Err → Dialog α} {consumed sent : Bytes} {last : Dialog α}
      (rest : Path (next .none) consumed sent last) : Path (send b next) consumed (b ++ sent) last
  | cut {b : Bytes} {next : Option Err → Dialog α} {consumed sent : Bytes} {last : Dialog α} (e : Err)
      (k : Nat) (rest : Path (next (some e)) consumed sent last) :
      Path (send b next) consumed (b.take k ++ sent) last

namespace Path

variable {d d' last : Dialog α} {consumed sent : Bytes}

theorem ret {a : α} (path : Path (ret a) consumed sent last) :
    consumed = [] ∧ sent = [] ∧ last = .ret a := by
  cases path
  exact ⟨rfl, rfl, rfl⟩

theorem snoc {input rest more : Bytes} {m : Mishap} (path : Path d consumed sent d')
    (stumbled : d'.stumble m input = some (last, rest, more)) :
    ∃ taken, input = taken ++ rest ∧ Path d (consumed ++ taken) (sent ++ more) last := by
  induction path with
  | nil d =>
      cases m with
      | none =>
          cases d with
          | ret a => cases stumbled
          | recv n next =>
              obtain ⟨enough, same⟩ := Option.ite_none_right_eq_some.1 stumbled
              cases same
              refine ⟨input.take n, (List.take_append_drop n input).symm, ?_⟩
              have path : Path (recv n next) (input.take n ++ []) [] (next (.ok (input.take n))) :=
                .got (by rw [List.length_take, Nat.min_eq_left enough]) (.nil _)
              simpa using path
          | send b next =>
              cases stumbled
              refine ⟨[], rfl, ?_⟩
              have path : Path (send more next) [] (more ++ []) (next .none) := .put (.nil _)
              simpa using path
      | recv e lost =>
          cases d with
          | recv n next =>
              cases stumbled
              refine ⟨input.take lost, (List.take_append_drop lost input).symm, ?_⟩
              have path : Path (recv n next) (input.take lost ++ []) [] (next (.error e)) :=
                .lost e _ (.nil _)
              simpa using path
          | ret | send => cases stumbled
      | send e k =>
          cases d with
          | send b next =>
              cases stumbled
              refine ⟨[], rfl, ?_⟩
              have path : Path (send b next) [] (b.take k ++ []) (next (some e)) := .cut e k (.nil _)
              simpa using path
          | ret | recv => cases stumbled
  | got full path ih =>
      obtain ⟨taken, same, path⟩ := ih stumbled
      exact ⟨taken, same, List.append_assoc _ _ taken ▸ .got full path⟩
  | lost e b path ih =>
      obtain ⟨taken, same, path⟩ := ih stumbled
      exact ⟨taken, same, List.append_assoc _ _ taken ▸ .lost e b path⟩
  | put path ih =>
      obtain ⟨taken, same, path⟩ := ih stumbled
      exact ⟨taken, same, List.append_assoc _ _ more ▸ .put path⟩
  | cut e k path ih =>
      obtain ⟨taken, same, path⟩ := ih stumbled
      exact ⟨taken, same, List.append_assoc _ _ more ▸ .cut e k path⟩

theorem bind_cases {d : Dialog α} {f : α → Dialog β} {last : Dialog β}
    (path : Path (d.bind f) consumed sent last) :
    (∃ d', Path d consumed sent d' ∧ last = d'.bind f) ∨
      ∃ a c₁ c₂ s₁ s₂, Path d c₁ s₁ (.ret a) ∧ Path (f a) c₂ s₂ last ∧
        consumed = c₁ ++ c₂ ∧ sent = s₁ ++ s₂ := by
  induction d generalizing consumed sent with
  | ret a => exact .inr ⟨a, [], consumed, [], sent, .nil _, path, rfl, rfl⟩
  | recv n next ih =>
      cases path with
      | nil => exact .inl ⟨_, .nil _, rfl⟩
      | got full rest =>
          rcases ih _ rest with ⟨d', path, rfl⟩ | ⟨a, c₁, c₂, s₁, s₂, first, second, rfl, rfl⟩
          · exact .inl ⟨d', .got full path, rfl⟩
          · exact .inr ⟨a, _, c₂, s₁, s₂, .got full first, second, (List.append_assoc _ _ _).symm, rfl⟩
      | lost e b rest =>
          rcases ih _ rest with ⟨d', path, rfl⟩ | ⟨a, c₁, c₂, s₁, s₂, first, second, rfl, rfl⟩
          · exact .inl ⟨d', .lost e b path, rfl⟩
          · exact .inr ⟨a, _, c₂, s₁, s₂, .lost e b first, second, (List.append_assoc _ _ _).symm, rfl⟩
  | send b next ih =>
      cases path with
      | nil => exact .inl ⟨_, .nil _, rfl⟩
      | put rest =>
          rcases ih _ rest with ⟨d', path, rfl⟩ | ⟨a, c₁, c₂, s₁, s₂, first, second, rfl, rfl⟩
          · exact .inl ⟨d', .put path, rfl⟩
          · exact .inr ⟨a, c₁, c₂, _, s₂, .put first, second, rfl, (List.append_assoc _ _ _).symm⟩
      | cut e k rest =>
          rcases ih _ rest with ⟨d', path, rfl⟩ | ⟨a, c₁, c₂, s₁, s₂, first, second, rfl, rfl⟩
          · exact .inl ⟨d', .cut e k path, rfl⟩
          · exact .inr ⟨a, c₁, c₂, _, s₂, .cut e k first, second, rfl, (List.append_assoc _ _ _).symm⟩

end Path

def Careful : Dialog (Except ε α) → Prop
  | ret _ => True
  | recv _ next => (∀ e, Fails (next (.error e))) ∧ ∀ got, Careful (next (.ok got))
  | send _ next => (∀ e, Fails (next (some e))) ∧ Careful (next none)

theorem Fails.careful {d : Dialog (Except ε α)} (fails : d.Fails) : d.Careful := by
  induction d with
  | ret a => trivial
  | recv n next ih => exact ⟨fun e => fails (.error e), fun got => ih _ (fails (.ok got))⟩
  | send b next ih => exact ⟨fun e => fails (some e), ih _ (fails none)⟩

theorem Fails.path {d : Dialog (Except ε α)} (fails : d.Fails) {consumed sent : Bytes} {a : α} :
    ¬Path d consumed sent (.ret (.ok a)) := by
  intro path
  generalize ends : Dialog.ret (Except.ok a) = last at path
  induction path with
  | nil d =>
      subst ends
      obtain ⟨e, wrong⟩ := fails
      cases wrong
  | got full rest ih => exact ih (fails _) ends
  | lost e b rest ih => exact ih (fails _) ends
  | put rest ih => exact ih (fails _) ends
  | cut e k rest ih => exact ih (fails _) ends

theorem Careful.run {d : Dialog (Except ε α)} (careful : d.Careful) {consumed sent : Bytes} {a : α}
    {w : Sink} (alive : w.broken = none) (path : Path d consumed sent (.ret (.ok a))) :
    d.run consumed w = (.ok a, [], { w with written := w.written ++ sent }) := by
  generalize ends : Dialog.ret (Except.ok a) = last at path
  induction path generalizing w with
  | nil d =>
      subst ends
      simp [Dialog.run]
  | @got n next b consumed sent last full rest ih =>
      obtain ⟨got, left⟩ := readFull_stream (b ++ consumed) n
      change (readFull (b ++ consumed) n).1 = Go.full n (b ++ consumed) at got
      change (readFull (b ++ consumed) n).2 = (b ++ consumed).drop n at left
      have enough : n ≤ (b ++ consumed).length := by
        rw [List.length_append]
        omega
      rw [Go.full, if_pos enough, ← full, List.take_left] at got
      rw [← full, List.drop_left] at left
      simp only [Dialog.run, ← full, got, left]
      exact ih (careful.2 b) alive ends
  | lost e b rest _ => exact absurd (ends ▸ rest) (careful.1 e).path
  | @put b next consumed sent last rest ih =>
      simp only [Dialog.run, w.write_open b alive]
      have still : ({ w with written := w.written ++ b } : Sink).broken = none := alive
      rw [ih careful.2 still ends, List.append_assoc]
  | cut e k rest _ => exact absurd (ends ▸ rest) (careful.1 e).path

theorem Careful.bind {d : Dialog (Except ε α)} {f : Except ε α → Dialog (Except δ β)}
    (careful : d.Careful) (next : ∀ a, (f (.ok a)).Careful) (failed : ∀ e, (f (.error e)).Fails) :
    (d.bind f).Careful := by
  induction d with
  | ret a =>
      cases a with
      | ok a => exact next a
      | error e => exact (failed e).careful
  | recv n k ih => exact ⟨fun e => (careful.1 e).bind failed, fun got => ih _ (careful.2 got)⟩
  | send b k ih => exact ⟨fun e => (careful.1 e).bind failed, ih _ careful.2⟩

theorem Strict.cancel {d : Dialog (Except ε α)} (strict : d.Strict) {b b' x y : Bytes} {w w₁ w₂ : Sink}
    {a a' : α} (first : d.run b w = (.ok a, [], w₁)) (second : d.run b' w = (.ok a', [], w₂))
    (same : b ++ x = b' ++ y) : a = a' ∧ x = y := by
  have longer := strict.run_append first x
  rw [same, strict.run_append second y] at longer
  cases longer
  exact ⟨rfl, rfl⟩

def Mute : Dialog α → Prop
  | ret _ => True
  | recv _ next => ∀ got, Mute (next got)
  | send _ _ => False

def Once (M : Bytes → Prop) : Dialog α → Prop
  | ret _ => True
  | recv _ next => ∀ got, Once M (next got)
  | send b next => M b ∧ ∀ err, Mute (next err)

theorem Mute.path {d last : Dialog α} (mute : d.Mute) {consumed sent : Bytes}
    (path : Path d consumed sent last) : sent = [] := by
  induction path with
  | nil => rfl
  | got full rest ih => exact ih (mute _)
  | lost e b rest ih => exact ih (mute _)
  | put | cut => exact mute.elim

theorem Once.path {M : Bytes → Prop} {d last : Dialog α} (once : d.Once M) {consumed sent : Bytes}
    (path : Path d consumed sent last) : sent = [] ∨ ∃ b, M b ∧ sent <+: b := by
  induction path with
  | nil => exact .inl rfl
  | got full rest ih => exact ih (once _)
  | lost e b rest ih => exact ih (once _)
  | @put b next consumed sent last rest _ =>
      rw [(once.2 _).path rest, List.append_nil]
      exact .inr ⟨b, once.1, List.prefix_rfl⟩
  | @cut b next consumed sent last e k rest _ =>
      rw [(once.2 _).path rest, List.append_nil]
      exact .inr ⟨b, once.1, List.take_prefix k b⟩

theorem Mute.once {M : Bytes → Prop} {d : Dialog α} (mute : d.Mute) : d.Once M := by
  induction d with
  | ret a => trivial
  | recv n next ih => exact fun got => ih got (mute got)
  | send => exact mute.elim

theorem Mute.bind {d : Dialog α} {f : α → Dialog β} (mute : d.Mute) (rest : ∀ a, (f a).Mute) :
    (d.bind f).Mute := by
  induction d with
  | ret a => exact rest a
  | recv n next ih => exact fun got => ih got (mute got)
  | send => exact mute.elim

theorem Mute.once_bind {M : Bytes → Prop} {d : Dialog α} {f : α → Dialog β} (mute : d.Mute)
    (rest : ∀ a, (f a).Once M) : (d.bind f).Once M := by
  induction d with
  | ret a => exact rest a
  | recv n next ih => exact fun got => ih got (mute got)
  | send => exact mute.elim

theorem Once.bind {M : Bytes → Prop} {d : Dialog α} {f : α → Dialog β} (once : d.Once M)
    (rest : ∀ a, (f a).Mute) : (d.bind f).Once M := by
  induction d with
  | ret a => exact (rest a).once
  | recv n next ih => exact fun got => ih got (once got)
  | send b next _ => exact ⟨once.1, fun err => (once.2 err).bind rest⟩

end Dialog

namespace Fallible

variable {α β ε δ : Type} {M : Bytes → Prop}

theorem careful_receive (why : String) (n : Nat) : Dialog.Careful (receive why n) :=
  ⟨fun e => ⟨why ++ e.text, rfl⟩, fun _ => trivial⟩

theorem careful_transmit (why : String) (b : Bytes) : Dialog.Careful (transmit why b) :=
  ⟨fun e => ⟨why ++ e.text, rfl⟩, trivial⟩

theorem careful_bind {d : Fallible ε α} {f : α → Fallible ε β} (careful : Dialog.Careful d)
    (next : ∀ a, Dialog.Careful (f a)) : Dialog.Careful (d >>= f : Fallible ε β) :=
  Dialog.Careful.bind careful next fun e => ⟨e, rfl⟩

theorem careful_handle {d : Fallible ε α} {h : ε → Fallible δ α} (careful : Dialog.Careful d)
    (reports : ∀ e, Dialog.Fails (h e)) : Dialog.Careful (d.handle h) :=
  Dialog.Careful.bind careful (fun _ => trivial) reports

theorem mute_receive (why : String) (n : Nat) : Dialog.Mute (receive why n) := by
  intro got
  cases got <;> trivial

theorem mute_bind {d : Fallible ε α} {f : α → Fallible ε β} (mute : Dialog.Mute d)
    (next : ∀ a, Dialog.Mute (f a)) : Dialog.Mute (d >>= f : Fallible ε β) := by
  refine Dialog.Mute.bind mute fun result => ?_
  cases result with
  | ok a => exact next a
  | error e => trivial

theorem once_bind {d : Fallible ε α} {f : α → Fallible ε β} (mute : Dialog.Mute d)
    (next : ∀ a, Dialog.Once M (f a)) : Dialog.Once M (d >>= f : Fallible ε β) := by
  refine Dialog.Mute.once_bind mute fun result => ?_
  cases result with
  | ok a => exact next a
  | error e => trivial

theorem once_transmit (why : String) {b : Bytes} (told : M b) : Dialog.Once M (transmit why b) := by
  refine ⟨told, fun err => ?_⟩
  cases err <;> trivial

theorem once_refuse {b : Bytes} (e : ε) (told : M b) :
    Dialog.Once M (refuse b e : Fallible ε α) := ⟨told, fun _ => trivial⟩

end Fallible

namespace Talk

variable {α β : Type}

def mishap (t : Talk α β) : Side × Mishap → Option (Talk α β)
  | (.left, m) => (t.left.stumble m t.toLeft).map fun (left, toLeft, sent) =>
      { t with left, toLeft, toRight := t.toRight ++ sent }
  | (.right, m) => (t.right.stumble m t.toRight).map fun (right, toRight, sent) =>
      { t with right, toRight, toLeft := t.toLeft ++ sent }

theorem paths_of_exec {l : Dialog α} {r : Dialog β} {trace : List (Talk α β × Side × Mishap)}
    {t : Talk α β} (exec : Exec mishap ⟨l, r, [], []⟩ trace t) :
    ∃ byLeft fromLeft byRight fromRight, l.Path byLeft fromLeft t.left ∧
      r.Path byRight fromRight t.right ∧ fromRight = byLeft ++ t.toLeft ∧
      fromLeft = byRight ++ t.toRight := by
  induction exec with
  | nil => exact ⟨[], [], [], [], .nil _, .nil _, rfl, rfl⟩
  | @snoc trace t a t' before taken ih =>
      obtain ⟨byLeft, fromLeft, byRight, fromRight, left, right, toLeft, toRight⟩ := ih
      obtain ⟨side, m⟩ := a
      cases side with
      | left =>
          obtain ⟨⟨d, rest, sent⟩, stumbled, rfl⟩ := Option.map_eq_some_iff.1 taken
          obtain ⟨taken, same, path⟩ := left.snoc stumbled
          refine ⟨_, _, byRight, fromRight, path, right, ?_, ?_⟩
          · rw [toLeft, same, List.append_assoc]
          · rw [toRight, List.append_assoc]
      | right =>
          obtain ⟨⟨d, rest, sent⟩, stumbled, rfl⟩ := Option.map_eq_some_iff.1 taken
          obtain ⟨taken, same, path⟩ := right.snoc stumbled
          refine ⟨byLeft, fromLeft, _, _, left, path, ?_, ?_⟩
          · rw [toLeft, List.append_assoc]
          · rw [toRight, same, List.append_assoc]

end Talk

end Go
