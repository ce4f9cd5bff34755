import Mathlib.Data.List.Basic
import Mathlib.Data.List.DropRight

namespace Go

def isSpace (c : Char) : Bool :=
  let n := c.toNat
  (9 ≤ n && n ≤ 13) || n == 0x20 || n == 0x85 || n == 0xA0 || n == 0x1680 ||
    (0x2000 ≤ n && n ≤ 0x200A) || n == 0x2028 || n == 0x2029 || n == 0x202F || n == 0x205F ||
    n == 0x3000

def trimSpace (s : String) : String :=
  String.ofList ((s.toList.dropWhile isSpace).rdropWhile isSpace)

theorem trimSpace_solid {s : String} (solid : ∀ c ∈ s.toList, isSpace c = false) : trimSpace s = s := by
  unfold trimSpace
  have front : s.toList.dropWhile isSpace = s.toList := by
    rw [List.dropWhile_eq_self_iff]
    intro nonempty
    rw [solid _ (List.getElem_mem nonempty)]
    simp
  rw [front, List.rdropWhile_eq_self_iff.2, String.ofList_toList]
  intro nonempty
  rw [solid _ (List.getLast_mem nonempty)]
  simp

theorem idxOf?_cut {c : Char} {before : List Char} (free : c ∉ before) (after : List Char) :
    (before ++ c :: after).idxOf? c = some before.length := by
  induction before with
  | nil => simp [List.idxOf?_cons]
  | cons d rest ih =>
      rw [List.mem_cons, not_or] at free
      rw [List.cons_append, List.idxOf?_cons, ih free.2]
      simp [Ne.symm free.1]

theorem drop_cut (before : List Char) (c : Char) (after : List Char) :
    (before ++ c :: after).drop (before.length + 1) = after := by
  simp

/-- `unicode.ToLower`, restricted to the runes whose lower case is ASCII: besides the capital
letters, the dotted capital I and the Kelvin sign. No other rune is mapped onto an ASCII one. -/
def lowerRune (c : Char) : Char :=
  if c.toNat = 0x130 then 'i' else if c.toNat = 0x212A then 'k' else c.toLower

def toLower (s : String) : String := String.ofList (s.toList.map lowerRune)

def hexDigit (n : Nat) : Char := if n < 10 then Char.ofNat (48 + n) else Char.ofNat (87 + n)

def hexByte (b : UInt8) : List Char := [hexDigit (b.toNat / 16), hexDigit (b.toNat % 16)]

def hexEncode (bytes : List UInt8) : String := String.ofList (bytes.flatMap hexByte)

/-- The runes beyond ASCII, in ranges, of the categories that `strconv.IsPrint` leaves out: spaces,
separators, control and format characters, and the private use areas. -/
def unprintable : List (Nat × Nat) :=
  [(0x80, 0xA0), (0xAD, 0xAD), (0x600, 0x605), (0x61C, 0x61C), (0x6DD, 0x6DD), (0x70F, 0x70F),
    (0x890, 0x891), (0x8E2, 0x8E2), (0x1680, 0x1680), (0x180E, 0x180E), (0x2000, 0x200F),
    (0x2028, 0x202F), (0x205F, 0x206F), (0x3000, 0x3000), (0xE000, 0xF8FF), (0xFEFF, 0xFEFF),
    (0xFFF9, 0xFFFB), (0x110BD, 0x110BD), (0x110CD, 0x110CD), (0x13430, 0x1343F), (0x1BCA0, 0x1BCA3),
    (0x1D173, 0x1D17A), (0xE0001, 0xE0001), (0xE0020, 0xE007F), (0xF0000, 0x10FFFF)]

def hexRune (n digits : Nat) : List Char :=
  (List.range digits).reverse.map fun i => hexDigit (n >>> (4 * i) % 16)

def quoteRune (c : Char) : List Char :=
  match c.toNat with
  | 7 => ['\\', 'a']
  | 8 => ['\\', 'b']
  | 9 => ['\\', 't']
  | 10 => ['\\', 'n']
  | 11 => ['\\', 'v']
  | 12 => ['\\', 'f']
  | 13 => ['\\', 'r']
  | 34 => ['\\', '"']
  | 92 => ['\\', '\\']
  | n =>
      if n < 32 || n == 127 then ['\\', 'x'] ++ hexRune n 2
      else if unprintable.all fun range => n < range.1 || range.2 < n then [c]
      else if n < 0x10000 then ['\\', 'u'] ++ hexRune n 4
      else ['\\', 'U'] ++ hexRune n 8

/-- The verb `%q`, for a string without unassigned code points. -/
def quote (s : String) : String :=
  String.ofList (['"'] ++ s.toList.flatMap quoteRune ++ ['"'])

def stringBytes (s : String) : List UInt8 := s.toUTF8.toList

theorem toList_loop (bytes : ByteArray) (i : Nat) (acc : List UInt8) :
    ByteArray.toList.loop bytes i acc = acc.reverse ++ bytes.data.toList.drop i := by
  induction left : bytes.size - i generalizing i acc with
  | zero =>
      rw [ByteArray.toList.loop, if_neg (by omega), List.drop_of_length_le, List.append_nil]
      change bytes.size ≤ i
      omega
  | succ n ih =>
      have inside : i < bytes.data.size := by change i < bytes.size; omega
      have here : bytes.get! i = bytes.data[i] := getElem!_pos bytes.data i inside
      rw [ByteArray.toList.loop, if_pos (by omega), ih _ _ (by omega), List.drop_eq_getElem_cons inside]
      simp [here]

theorem stringBytes_inj {s t : String} (same : stringBytes s = stringBytes t) : s = t := by
  simp only [stringBytes, ByteArray.toList, toList_loop, List.reverse_nil, List.nil_append,
    List.drop_zero] at same
  exact String.toByteArray_inj.1 (ByteArray.ext (Array.toList_inj.1 same))

end Go
