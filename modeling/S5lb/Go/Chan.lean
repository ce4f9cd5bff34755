import Mathlib.Data.List.Basic

namespace Go

structure Chan (α : Type) where
  cap : Nat
  buf : List α
  closed : Bool
  deriving DecidableEq

namespace Chan

variable {α : Type}

def make (cap : Nat) : Chan α := ⟨cap, [], false⟩

inductive Sent (α : Type)
  | panic
  | ok (ch : Chan α)

def send (ch : Chan α) (v : α) : Option (Sent α) :=
  if ch.closed then some .panic
  else if ch.buf.length < ch.cap then some (.ok { ch with buf := ch.buf ++ [v] })
  else none

/-- What a receive in a `select` returns, `none` for the zero value of a closed channel; the whole
is `none` when it is not ready. -/
def recv (ch : Chan α) : Option (Option α × Chan α) :=
  match ch.buf with
  | v :: rest => some (some v, { ch with buf := rest })
  | [] => if ch.closed then some (none, ch) else none

/-- `none` is the panic of a second close. -/
def close (ch : Chan α) : Option (Chan α) :=
  if ch.closed then none else some { ch with closed := true }

theorem send_eq_ok {ch ch' : Chan α} {v : α} : ch.send v = some (.ok ch') ↔
    ch.closed = false ∧ ch.buf.length < ch.cap ∧ { ch with buf := ch.buf ++ [v] } = ch' := by
  unfold send
  cases ch.closed <;> simp

theorem send_eq_panic {ch : Chan α} {v : α} : ch.send v = some .panic ↔ ch.closed = true := by
  unfold send
  cases ch.closed <;> simp

theorem recv_eq_some {ch ch' : Chan α} {v : α} : ch.recv = some (some v, ch') ↔
    ∃ rest, ch.buf = v :: rest ∧ { ch with buf := rest } = ch' := by
  rcases ch with ⟨cap, buf, closed⟩
  cases buf with
  | nil => cases closed <;> simp [recv]
  | cons w rest =>
      simp only [recv, Option.some.injEq, Prod.mk.injEq, List.cons.injEq]
      constructor
      · rintro ⟨rfl, same⟩
        exact ⟨rest, ⟨rfl, rfl⟩, same⟩
      · rintro ⟨_, ⟨rfl, rfl⟩, same⟩
        exact ⟨rfl, same⟩

theorem recv_eq_none {ch ch' : Chan α} : ch.recv = some (none, ch') ↔
    ch.buf = [] ∧ ch.closed = true ∧ ch = ch' := by
  rcases ch with ⟨cap, buf, closed⟩
  cases buf <;> cases closed <;> simp [recv]

theorem close_eq_some {ch ch' : Chan α} :
    ch.close = some ch' ↔ ch.closed = false ∧ { ch with closed := true } = ch' := by
  unfold close
  cases ch.closed <;> simp

theorem close_eq_none {ch : Chan α} : ch.close = none ↔ ch.closed = true := by
  unfold close
  cases ch.closed <;> simp

end Chan

end Go
