import S5lb.Go.Dialog
import S5lb.Lib.Commuting

/-!
# Two conversations at the ends of one connection

What one end sends the other receives, in order. A party that wants more bytes than have come waits.
-/

namespace Go

open Transition

inductive Side
  | left
  | right
  deriving DecidableEq

structure Talk (α β : Type) where
  left : Dialog α
  right : Dialog β
  toLeft : Bytes
  toRight : Bytes

namespace Dialog

variable {α β : Type}

def turn : Dialog α → Bytes → Option (Dialog α × Bytes × Bytes)
  | ret _, _ => none
  | recv n next, input =>
      if n ≤ input.length then some (next (.ok (input.take n)), input.drop n, []) else none
  | send b next, input => some (next none, input, b)

theorem turn_append {d d' : Dialog α} {input rest sent : Bytes}
    (turned : d.turn input = some (d', rest, sent)) (more : Bytes) :
    d.turn (input ++ more) = some (d', rest ++ more, sent) := by
  cases d with
  | ret a => cases turned
  | recv n next =>
      obtain ⟨enough, same⟩ := Option.ite_none_right_eq_some.1 turned
      cases same
      have longer : n ≤ (input ++ more).length := by
        rw [List.length_append]
        omega
      rw [turn, if_pos longer, List.take_append_of_le_length enough,
        List.drop_append_of_le_length enough]
  | send b next =>
      cases turned
      rfl

inductive Turns : Dialog α → Bytes → Dialog α → Bytes → Bytes → Prop
  | nil (d : Dialog α) (input : Bytes) : Turns d input d input []
  | cons {d d' last : Dialog α} {input rest left sent more : Bytes}
      (turned : d.turn input = some (d', rest, sent)) (others : Turns d' rest last left more) :
      Turns d input last left (sent ++ more)

namespace Turns

variable {d d' last : Dialog α} {input rest left sent more : Bytes}

theorem single (turned : d.turn input = some (d', rest, sent)) : Turns d input d' rest sent := by
  rw [← List.append_nil sent]
  exact .cons turned (.nil d' rest)

theorem trans (first : Turns d input d' rest sent) (second : Turns d' rest last left more) :
    Turns d input last left (sent ++ more) := by
  induction first with
  | nil => exact second
  | cons turned _ ih =>
      rw [List.append_assoc]
      exact .cons turned (ih second)

theorem turn_bind (turned : d.turn input = some (d', rest, sent)) (f : α → Dialog β) :
    (d.bind f).turn input = some (d'.bind f, rest, sent) := by
  cases d with
  | ret a => cases turned
  | recv n next =>
      obtain ⟨enough, same⟩ := Option.ite_none_right_eq_some.1 turned
      cases same
      exact if_pos enough
  | send b next =>
      cases turned
      rfl

theorem bind (turns : Turns d input d' rest sent) (f : α → Dialog β) :
    Turns (d.bind f) input (d'.bind f) rest sent := by
  induction turns with
  | nil => exact .nil _ _
  | cons turned _ ih => exact .cons (turn_bind turned f) ih

end Turns

theorem Strict.turns {ε : Type} {d : Dialog (Except ε α)} (strict : d.Strict) {input rest : Bytes}
    {w w' : Sink} {a : α} (alive : w.broken = none) (accepted : d.run input w = (.ok a, rest, w')) :
    ∃ sent, Turns d input (.ret (.ok a)) rest sent ∧ w'.written = w.written ++ sent := by
  induction d generalizing input w with
  | ret result =>
      cases accepted
      exact ⟨[], .nil _ _, by simp⟩
  | recv n next ih =>
      obtain ⟨got, left⟩ := readFull_stream input n
      change (readFull input n).1 = full n input at got
      change (readFull input n).2 = input.drop n at left
      simp only [run, got, left] at accepted
      by_cases enough : n ≤ input.length
      · rw [full, if_pos enough] at accepted
        obtain ⟨sent, turns, written⟩ := ih _ (strict.2 _) alive accepted
        have turned : (recv n next).turn input =
            some (next (.ok (input.take n)), input.drop n, []) := if_pos enough
        exact ⟨sent, .cons turned turns, written⟩
      · rw [full, if_neg enough] at accepted
        obtain ⟨e, failed⟩ := (strict.1 _).run (input.drop n) w
        rw [accepted] at failed
        cases failed
  | send b next ih =>
      simp only [run, w.write_open b alive] at accepted
      have still : ({ w with written := w.written ++ b } : Sink).broken = none := alive
      obtain ⟨sent, turns, written⟩ := ih _ (strict _) still accepted
      exact ⟨b ++ sent, .cons rfl turns, by rw [written, List.append_assoc]⟩

end Dialog

theorem Fallible.turns_bind {ε α β : Type} {d d' : Fallible ε α} {input rest sent : Bytes}
    (turns : Dialog.Turns d input d' rest sent) (f : α → Fallible ε β) :
    Dialog.Turns (d >>= f : Fallible ε β) input (d' >>= f : Fallible ε β) rest sent :=
  turns.bind _

namespace Talk

variable {α β : Type}

def step (t : Talk α β) : Side → Option (Talk α β)
  | .left => (t.left.turn t.toLeft).map fun (left, toLeft, sent) =>
      { t with left, toLeft, toRight := t.toRight ++ sent }
  | .right => (t.right.turn t.toRight).map fun (right, toRight, sent) =>
      { t with right, toRight, toLeft := t.toLeft ++ sent }

theorem step_commutes : Commutes (step : Talk α β → Side → Option (Talk α β)) := by
  have sides (t l r : Talk α β) (lefts : t.step .left = some l) (rights : t.step .right = some r) :
      ∃ u, l.step .right = some u ∧ r.step .left = some u := by
    obtain ⟨⟨left, toLeft, sentRight⟩, turnedLeft, rfl⟩ := Option.map_eq_some_iff.1 lefts
    obtain ⟨⟨right, toRight, sentLeft⟩, turnedRight, rfl⟩ := Option.map_eq_some_iff.1 rights
    refine ⟨⟨left, right, toLeft ++ sentLeft, toRight ++ sentRight⟩, ?_, ?_⟩
    · exact Option.map_eq_some_iff.2 ⟨_, Dialog.turn_append turnedRight sentRight, rfl⟩
    · exact Option.map_eq_some_iff.2 ⟨_, Dialog.turn_append turnedLeft sentLeft, rfl⟩
  intro t a b t₁ t₂ different first second
  cases a with
  | left =>
      cases b with
      | left => exact absurd rfl different
      | right => exact sides t t₁ t₂ first second
  | right =>
      cases b with
      | left =>
          obtain ⟨u, right, left⟩ := sides t t₂ t₁ second first
          exact ⟨u, left, right⟩
      | right => exact absurd rfl different

variable {l l' : Dialog α} {r r' : Dialog β} {toLeft toRight rest sent : Bytes}

theorem runs_left (r : Dialog β) (toRight : Bytes) (turns : l.Turns toLeft l' rest sent) :
    ∃ n, Runs step n ⟨l, r, toLeft, toRight⟩ ⟨l', r, rest, toRight ++ sent⟩ := by
  induction turns generalizing toRight with
  | nil =>
      rw [List.append_nil]
      exact ⟨0, .nil _⟩
  | @cons l l' last toLeft rest left sent more turned _ ih =>
      obtain ⟨n, runs⟩ := ih (toRight ++ sent)
      rw [List.append_assoc] at runs
      refine ⟨n + 1, .cons (a := .left) ?_ runs⟩
      exact Option.map_eq_some_iff.2 ⟨_, turned, rfl⟩

theorem runs_right (l : Dialog α) (toLeft : Bytes) (turns : r.Turns toRight r' rest sent) :
    ∃ n, Runs step n ⟨l, r, toLeft, toRight⟩ ⟨l, r', toLeft ++ sent, rest⟩ := by
  induction turns generalizing toLeft with
  | nil =>
      rw [List.append_nil]
      exact ⟨0, .nil _⟩
  | @cons r r' last toRight rest left sent more turned _ ih =>
      obtain ⟨n, runs⟩ := ih (toLeft ++ sent)
      rw [List.append_assoc] at runs
      refine ⟨n + 1, .cons (a := .right) ?_ runs⟩
      exact Option.map_eq_some_iff.2 ⟨_, turned, rfl⟩

end Talk

end Go
