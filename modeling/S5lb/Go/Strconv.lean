import Mathlib.Algebra.Group.Int.Defs
import Mathlib.Algebra.Group.Nat.Defs
import S5lb.Go.Strings

namespace Go

/-- The digits of `strconv.ParseUint` in base 10. A value past 64 bits is reported before a later
character is looked at. -/
def parseDigits : Nat → List Char → Except String Nat
  | n, [] => .ok n
  | n, c :: rest =>
      if !c.isDigit then .error "invalid syntax"
      else if 2 ^ 64 ≤ 10 * n + (c.toNat - 48) then .error "value out of range"
      else parseDigits (10 * n + (c.toNat - 48)) rest

def parseInt (s : List Char) : Except String Int :=
  let (negative, digits) := match s with
    | '-' :: rest => (true, rest)
    | '+' :: rest => (false, rest)
    | _ => (false, s)
  if digits.isEmpty then .error "invalid syntax"
  else do
    let n ← parseDigits 0 digits
    if negative then
      if 2 ^ 63 < n then .error "value out of range" else return -n
    else if 2 ^ 63 ≤ n then .error "value out of range"
    else return n

def atoi (s : String) : Except String Int :=
  (parseInt s.toList).mapError ("strconv.Atoi: parsing " ++ quote s ++ ": " ++ ·)

theorem le_ofDigitChars (s : List Char) (n : Nat) : n ≤ Nat.ofDigitChars 10 s n := by
  rw [Nat.ofDigitChars_eq_ofDigitChars_zero]
  exact Nat.le_add_right_of_le (Nat.le_mul_of_pos_left n (Nat.pow_pos (by decide)))

theorem parseDigits_eq {s : List Char} {n : Nat} (digits : ∀ c ∈ s, c.isDigit = true)
    (fits : Nat.ofDigitChars 10 s n < 2 ^ 64) : parseDigits n s = .ok (Nat.ofDigitChars 10 s n) := by
  induction s generalizing n with
  | nil => rfl
  | cons c rest ih =>
      rw [Nat.ofDigitChars_cons] at fits ⊢
      have small := (le_ofDigitChars rest (10 * n + (c.toNat - 48))).trans_lt fits
      rw [parseDigits, digits c List.mem_cons_self, if_neg (by simp), if_neg (by omega)]
      exact ih (fun d member => digits d (List.mem_cons_of_mem _ member)) fits

theorem isDigit_toDigits {n : Nat} {c : Char} (member : c ∈ Nat.toDigits 10 n) : c.isDigit = true :=
  Nat.isDigit_of_mem_toDigits (by decide) (by decide) member

theorem parseDigits_toDigits {n : Nat} (fits : n < 2 ^ 64) :
    parseDigits 0 (Nat.toDigits 10 n) = .ok n := by
  rw [parseDigits_eq (fun c => isDigit_toDigits) (by rwa [Nat.ofDigitChars_ten_toDigits]),
    Nat.ofDigitChars_ten_toDigits]

theorem toList_toString_int (n : Int) :
    (toString n).toList =
      if 0 ≤ n then Nat.toDigits 10 n.toNat else '-' :: Nat.toDigits 10 (-n).toNat := by
  rw [Int.toString_eq_repr, Int.repr_eq_if]
  split
  · exact Nat.toList_repr
  · rw [String.toList_append, Nat.toList_repr]
    rfl

theorem parseInt_unsigned {s : List Char} (nonempty : s ≠ []) (digits : ∀ c ∈ s, c.isDigit = true)
    {n : Nat} (read : parseDigits 0 s = .ok n) (fits : n < 2 ^ 63) : parseInt s = .ok (n : Int) := by
  cases s with
  | nil => exact absurd rfl nonempty
  | cons c rest =>
      have digit := digits c List.mem_cons_self
      have minus : c ≠ '-' := by
        rintro rfl
        cases digit
      have plus : c ≠ '+' := by
        rintro rfl
        cases digit
      simp [parseInt, minus, plus, read, bind, Except.bind, pure, Except.pure]
      omega

theorem parseInt_negative {s : List Char} (nonempty : s ≠ []) {n : Nat}
    (read : parseDigits 0 s = .ok n) (fits : n ≤ 2 ^ 63) : parseInt ('-' :: s) = .ok (-n : Int) := by
  simp [parseInt, nonempty, read, bind, Except.bind, pure, Except.pure]
  omega

theorem atoi_toString {n : Int} (low : -2 ^ 63 ≤ n) (high : n < 2 ^ 63) :
    atoi (toString n) = .ok n := by
  rw [atoi, toList_toString_int]
  split
  · rename_i positive
    have read := @parseDigits_toDigits n.toNat (by omega)
    rw [parseInt_unsigned Nat.toDigits_ne_nil (fun c => isDigit_toDigits) read (by omega),
      Int.toNat_of_nonneg positive]
    rfl
  · have read := @parseDigits_toDigits (-n).toNat (by omega)
    rw [parseInt_negative Nat.toDigits_ne_nil read (by omega), Int.toNat_of_nonneg (by omega), Int.neg_neg]
    rfl

end Go
