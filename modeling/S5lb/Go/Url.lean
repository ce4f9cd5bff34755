import S5lb.Go.Stream
import S5lb.Lib.StableSort
import Mathlib.Data.List.Lex

/-!
# Queries of URLs

`url.QueryEscape` and `url.Values`, as `net/url` has them.
-/

namespace Go.Url

def upperhex (n : UInt8) : UInt8 := if n < 10 then 0x30 + n else 0x37 + n

def unhex (c : UInt8) : Option UInt8 :=
  if 0x30 ≤ c ∧ c ≤ 0x39 then some (c - 0x30)
  else if 0x61 ≤ c ∧ c ≤ 0x66 then some (c - 0x61 + 10)
  else if 0x41 ≤ c ∧ c ≤ 0x46 then some (c - 0x41 + 10)
  else none

def shouldEscape (c : UInt8) : Bool :=
  !(0x61 ≤ c ∧ c ≤ 0x7A ∨ 0x41 ≤ c ∧ c ≤ 0x5A ∨ 0x30 ≤ c ∧ c ≤ 0x39 ∨
    c = 0x2D ∨ c = 0x5F ∨ c = 0x2E ∨ c = 0x7E)

def escapeByte (c : UInt8) : Bytes :=
  if c = 0x20 then [0x2B]
  else if shouldEscape c then [0x25, upperhex (c >>> 4), upperhex (c &&& 15)]
  else [c]

def queryEscape (s : Bytes) : Bytes := s.flatMap escapeByte

def queryUnescape : Bytes → Option Bytes
  | [] => some []
  | 0x25 :: a :: b :: s =>
      match unhex a, unhex b with
      | some high, some low => (queryUnescape s).map fun t => (high <<< 4 ||| low) :: t
      | _, _ => none
  | c :: s =>
      if c = 0x25 then none
      else (queryUnescape s).map fun t => (if c = 0x2B then 0x20 else c) :: t

section Bytes

theorem forall_byte {P : UInt8 → Prop} (all : ∀ n < 256, P (UInt8.ofNat n)) (b : UInt8) : P b := by
  rw [← UInt8.ofNat_toNat (x := b)]
  exact all b.toNat b.toNat_lt

def special : Bytes := [0x26, 0x3D, 0x3B, 0x7B]

theorem escapeByte_clean : ∀ b, ∀ c ∈ escapeByte b, c ∉ special :=
  forall_byte (by decide +kernel)

theorem unhex_high : ∀ b : UInt8, unhex (upperhex (b >>> 4)) = some (b >>> 4) :=
  forall_byte (by decide +kernel)

theorem unhex_low : ∀ b : UInt8, unhex (upperhex (b &&& 15)) = some (b &&& 15) :=
  forall_byte (by decide +kernel)

theorem nibbles : ∀ b : UInt8, (b >>> 4) <<< 4 ||| (b &&& 15) = b :=
  forall_byte (by decide +kernel)

theorem plain_of_kept : ∀ b : UInt8, shouldEscape b = false → b ≠ 0x25 ∧ b ≠ 0x2B :=
  forall_byte (by decide +kernel)

end Bytes

theorem queryUnescape_escapeByte (b : UInt8) (s : Bytes) :
    queryUnescape (escapeByte b ++ s) = (queryUnescape s).map (b :: ·) := by
  unfold escapeByte
  split
  · rename_i space
    subst space
    rw [List.singleton_append, queryUnescape.eq_def]
    rfl
  split
  · simp only [List.cons_append, List.nil_append, queryUnescape, unhex_high, unhex_low, nibbles]
  · rename_i kept
    obtain ⟨percent, plus⟩ := plain_of_kept b (by simpa using kept)
    rw [List.singleton_append, queryUnescape]
    · rw [if_neg percent, if_neg plus]
    · rintro _ _ _ rfl
      exact absurd rfl percent

theorem queryUnescape_queryEscape (s : Bytes) : queryUnescape (queryEscape s) = some s := by
  induction s with
  | nil => rfl
  | cons b s ih =>
      rw [queryEscape, List.flatMap_cons, queryUnescape_escapeByte, ← queryEscape, ih]
      rfl

theorem queryEscape_clean {s : Bytes} {c : UInt8} (inside : c ∈ queryEscape s) : c ∉ special := by
  obtain ⟨b, _, inside⟩ := List.mem_flatMap.1 inside
  exact escapeByte_clean b c inside

abbrev Values := List (Bytes × Bytes)

namespace Values

def get (q : Values) (key : Bytes) : List Bytes := (q.filter fun p => p.1 = key).map Prod.snd

def del (q : Values) (key : Bytes) : Values := q.filter fun p => p.1 ≠ key

def add (q : Values) (key value : Bytes) : Values := q ++ [(key, value)]

def set (q : Values) (key value : Bytes) : Values := (q.del key).add key value

variable {q : Values} {key other value : Bytes}

theorem get_add : (q.add key value).get other = q.get other ++ if key = other then [value] else [] := by
  by_cases same : key = other <;> simp [get, add, same]

theorem get_del : (q.del key).get other = if key = other then [] else q.get other := by
  by_cases same : key = other
  · subst same
    simp [get, del]
  · rw [if_neg same, get, get, del, List.filter_filter]
    congr 1
    refine List.filter_congr fun p _ => ?_
    by_cases this : p.1 = other
    · simp [this, Ne.symm same]
    · simp [this]

theorem get_set : (q.set key value).get other = if key = other then [value] else q.get other := by
  rw [set, get_add, get_del]
  split <;> simp

theorem get_foldl_add (key : Bytes) (values : List Bytes) (q : Values) :
    (values.foldl (fun q value => q.add key value) q).get other =
      q.get other ++ if key = other then values else [] := by
  induction values generalizing q with
  | nil => simp
  | cons value values ih =>
      rw [List.foldl_cons, ih, get_add]
      split <;> simp

theorem get_foldl_set_of_notMem {params : Values} (q : Values) (absent : other ∉ params.map Prod.fst) :
    (params.foldl (fun q p => q.set p.1 p.2) q).get other = q.get other := by
  induction params generalizing q with
  | nil => rfl
  | cons p params ih =>
      rw [List.map_cons, List.mem_cons, not_or] at absent
      rw [List.foldl_cons, ih _ absent.2, get_set, if_neg (Ne.symm absent.1)]

theorem get_foldl_set {params : Values} (distinct : (params.map Prod.fst).Nodup) (q : Values)
    {p : Bytes × Bytes} (member : p ∈ params) :
    (params.foldl (fun q p => q.set p.1 p.2) q).get p.1 = [p.2] := by
  induction params generalizing q with
  | nil => cases member
  | cons first params ih =>
      obtain ⟨absent, distinct⟩ := List.nodup_cons.1 distinct
      rcases List.mem_cons.1 member with rfl | member
      · rw [List.foldl_cons, get_foldl_set_of_notMem _ absent, get_set, if_pos rfl]
      · exact ih distinct _ member

def parseField (field : Bytes) : Option (Bytes × Bytes) :=
  if 0x3B ∈ field then none
  else if field = [] then none
  else
    match queryUnescape (field.takeWhile (· ≠ 0x3D)),
        queryUnescape ((field.dropWhile (· ≠ 0x3D)).drop 1) with
    | some key, some value => some (key, value)
    | _, _ => none

def parse (query : Bytes) : Values := (query.splitOn 0x26).filterMap parseField

def field (p : Bytes × Bytes) : Bytes := queryEscape p.1 ++ 0x3D :: queryEscape p.2

def encode (q : Values) : Bytes :=
  [0x26].intercalate ((StableSort.byKey (fun p : Bytes × Bytes => p.1.map UInt8.toNat) q).map field)

theorem field_free {p : Bytes × Bytes} {c : UInt8} (meant : c ∈ special) (other : c ≠ 0x3D) :
    c ∉ field p := by
  intro inside
  rcases List.mem_append.1 inside with inside | inside
  · exact queryEscape_clean inside meant
  · rcases List.mem_cons.1 inside with rfl | inside
    · exact other rfl
    · exact queryEscape_clean inside meant

theorem parseField_field (p : Bytes × Bytes) : parseField (field p) = some p := by
  have unequal : ∀ c ∈ queryEscape p.1, decide (c ≠ 0x3D) = true := by
    intro c inside
    refine decide_eq_true ?_
    rintro rfl
    exact queryEscape_clean inside (by decide)
  have before : (field p).takeWhile (· ≠ 0x3D) = queryEscape p.1 := by
    rw [field, List.takeWhile_append_of_pos unequal]
    simp
  have after : (field p).dropWhile (· ≠ 0x3D) = 0x3D :: queryEscape p.2 := by
    rw [field, List.dropWhile_append_of_pos unequal]
    simp
  rw [parseField, if_neg (field_free (by decide) (by decide)), if_neg (by simp [field]), before, after,
    List.drop_one, List.tail_cons, queryUnescape_queryEscape, queryUnescape_queryEscape]

theorem parse_encode (q : Values) :
    parse (encode q) = StableSort.byKey (fun p : Bytes × Bytes => p.1.map UInt8.toNat) q := by
  rw [parse, encode]
  generalize StableSort.byKey (fun p : Bytes × Bytes => p.1.map UInt8.toNat) q = sorted
  cases sorted with
  | nil => rfl
  | cons p sorted =>
      rw [List.splitOn_intercalate, List.filterMap_map]
      · exact (List.filterMap_congr fun p _ => parseField_field p).trans List.filterMap_some
      · intro l inside
        obtain ⟨p, _, rfl⟩ := List.mem_map.1 inside
        exact field_free (by decide) (by decide)
      · exact List.cons_ne_nil _ _

theorem get_parse_encode (q : Values) (key : Bytes) : (parse (encode q)).get key = q.get key := by
  have injective : Function.Injective (List.map UInt8.toNat) :=
    List.map_injective_iff.2 fun _ _ => UInt8.toNat.inj
  have stable := StableSort.byKey_stable (fun p : Bytes × Bytes => p.1.map UInt8.toNat) q
    (key.map UInt8.toNat)
  simp only [injective.eq_iff] at stable
  rw [parse_encode, get, get, stable]

end Values

end Go.Url
