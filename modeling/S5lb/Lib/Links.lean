import Mathlib.Data.List.Nodup

@[ext]
structure Links (ι : Type) where
  head : Option ι
  tail : Option ι
  prev : ι → Option ι
  next : ι → Option ι

namespace Links

variable {ι : Type} {k : Links ι} {l : List ι}

structure Spans (k : Links ι) (l : List ι) : Prop where
  nodup : l.Nodup
  head : k.head = l.head?
  tail : k.tail = l.getLast?
  next : ∀ {pre x post}, l = pre ++ x :: post → k.next x = post.head?
  prev : ∀ {pre x post}, l = pre ++ x :: post → k.prev x = pre.getLast?

theorem spans_nil {prev next : ι → Option ι} : Spans ⟨none, none, prev, next⟩ [] :=
  ⟨List.nodup_nil, rfl, rfl, by simp, by simp⟩

theorem Spans.congr {k' : Links ι} (spans : k.Spans l) (head : k'.head = k.head)
    (tail : k'.tail = k.tail) (next : ∀ x ∈ l, k'.next x = k.next x)
    (prev : ∀ x ∈ l, k'.prev x = k.prev x) : k'.Spans l where
  nodup := spans.nodup
  head := head.trans spans.head
  tail := tail.trans spans.tail
  next split := (next _ (by rw [split]; simp)).trans (spans.next split)
  prev split := (prev _ (by rw [split]; simp)).trans (spans.prev split)

theorem Spans.head_none_iff (spans : k.Spans l) : k.head = none ↔ l = [] := by
  rw [spans.head, List.head?_eq_none_iff]

theorem Spans.tail_none_iff (spans : k.Spans l) : k.tail = none ↔ l = [] := by
  rw [spans.tail, List.getLast?_eq_none_iff]

theorem Spans.next_iff_prev (spans : k.Spans l) {x y : ι} (mx : x ∈ l) (my : y ∈ l) :
    k.next x = some y ↔ k.prev y = some x := by
  constructor
  · intro next
    obtain ⟨pre, post, split⟩ := List.append_of_mem mx
    rw [spans.next split] at next
    obtain ⟨post, rfl⟩ := List.head?_eq_some_iff.1 next
    have split : l = (pre ++ [x]) ++ y :: post := by simpa using split
    rw [spans.prev split, List.getLast?_concat]
  · intro prev
    obtain ⟨pre, post, split⟩ := List.append_of_mem my
    rw [spans.prev split] at prev
    obtain ⟨pre, rfl⟩ := List.getLast?_eq_some_iff.1 prev
    have split : l = pre ++ x :: y :: post := by simpa using split
    rw [spans.next split, List.head?_cons]

def walk (k : Links ι) : Nat → Option ι → List ι
  | fuel + 1, some x => x :: k.walk fuel (k.next x)
  | _, _ => []

theorem Spans.walk_of_split (spans : k.Spans l) {pre post : List ι} {fuel : Nat}
    (split : l = pre ++ post) (enough : post.length ≤ fuel) : k.walk fuel post.head? = post := by
  induction post generalizing pre fuel with
  | nil => cases fuel <;> rfl
  | cons x post ih =>
      obtain ⟨fuel, rfl⟩ : ∃ n, fuel = n + 1 :=
        ⟨fuel - 1, by rw [List.length_cons] at enough; omega⟩
      rw [List.length_cons] at enough
      have later : l = (pre ++ [x]) ++ post := by
        rw [split, List.append_assoc, List.singleton_append]
      rw [List.head?_cons, walk, spans.next split, ih later (by omega)]

theorem Spans.walk_head (spans : k.Spans l) {fuel : Nat} (enough : l.length ≤ fuel) :
    k.walk fuel k.head = l := by
  rw [spans.head]
  exact spans.walk_of_split (List.nil_append l).symm enough

theorem getLast?_eq_iff {pre post : List ι} {y : ι} (distinct : (pre ++ y :: post).Nodup) :
    (pre ++ y :: post).getLast? = some y ↔ post = [] := by
  constructor
  · intro last
    obtain ⟨_, distinct, _⟩ := List.nodup_append.1 distinct
    cases post with
    | nil => rfl
    | cons z post =>
        rw [List.getLast?_append_cons, List.getLast?_cons_cons] at last
        exact absurd (List.mem_of_getLast? last) (List.nodup_cons.1 distinct).1
  · rintro rfl
    exact List.getLast?_concat

theorem head?_eq_iff {pre post : List ι} {y : ι} (distinct : (pre ++ y :: post).Nodup) :
    (pre ++ y :: post).head? = some y ↔ pre = [] := by
  constructor
  · intro first
    cases pre with
    | nil => rfl
    | cons z pre =>
        cases first
        simp at distinct
  · rintro rfl
    rfl

theorem concat_split {pre post : List ι} {x y : ι} (split : l ++ [x] = pre ++ y :: post) :
    (pre = l ∧ y = x ∧ post = []) ∨ ∃ inner, l = pre ++ y :: inner ∧ post = inner ++ [x] := by
  rcases post.eq_nil_or_concat' with rfl | ⟨inner, z, rfl⟩
  · obtain ⟨rfl, same⟩ := List.append_inj' split rfl
    cases same
    exact .inl ⟨rfl, rfl, rfl⟩
  · rw [← List.cons_append, ← List.append_assoc] at split
    obtain ⟨rfl, same⟩ := List.append_inj' split rfl
    cases same
    exact .inr ⟨inner, rfl, rfl⟩

theorem removed_split {a b pre post : List ι} {y : ι} (split : a ++ b = pre ++ y :: post) :
    (∃ c, a = pre ++ y :: c ∧ post = c ++ b) ∨ ∃ c, b = c ++ y :: post ∧ pre = a ++ c := by
  rcases List.append_eq_append_iff.1 split with ⟨c, rfl, rfl⟩ | ⟨c, rfl, tail⟩
  · exact .inr ⟨c, rfl, rfl⟩
  · cases c with
    | nil => exact .inr ⟨[], by simpa using tail.symm, by simp⟩
    | cons z c =>
        obtain ⟨rfl, rfl⟩ := List.cons.inj tail
        exact .inl ⟨c, rfl, rfl⟩

section Update

variable [DecidableEq ι]

def append (k : Links ι) (x : ι) : Links ι where
  head := if k.tail = none then some x else k.head
  tail := some x
  prev y := if y = x then k.tail else k.prev y
  next y := if k.tail = some y then some x else if y = x then none else k.next y

def remove (k : Links ι) (x : ι) : Links ι where
  head := if k.prev x = none then k.next x else k.head
  tail := if k.next x = none then k.prev x else k.tail
  prev y := if y = x then none else if k.next x = some y then k.prev x else k.prev y
  next y := if y = x then none else if k.prev x = some y then k.next x else k.next y

theorem Spans.append (spans : k.Spans l) {x : ι} (fresh : x ∉ l) :
    (k.append x).Spans (l ++ [x]) where
  nodup := List.nodup_append.2 ⟨spans.nodup, List.nodup_singleton x,
    fun y my z mz same => fresh (by rw [List.mem_singleton.1 mz] at same; exact same ▸ my)⟩
  head := by
    cases l with
    | nil => simp [Links.append, spans.tail_none_iff.2 rfl]
    | cons y l =>
        have some : k.tail ≠ none := fun none => List.cons_ne_nil y l (spans.tail_none_iff.1 none)
        rw [Links.append, if_neg some, spans.head]
        rfl
  tail := by rw [List.getLast?_concat]; rfl
  next := by
    intro pre y post split
    change (if k.tail = some y then some x else if y = x then none else k.next y) = post.head?
    rw [spans.tail]
    rcases concat_split split with ⟨rfl, rfl, rfl⟩ | ⟨inner, rfl, rfl⟩
    · rw [if_neg fun last => fresh (List.mem_of_getLast? last), if_pos rfl]
      rfl
    · have other : y ≠ x := fun same => fresh (by simp [same])
      rw [if_neg other, spans.next rfl, List.head?_append]
      simp only [getLast?_eq_iff spans.nodup]
      cases inner with
      | nil => rfl
      | cons z inner => rfl
  prev := by
    intro pre y post split
    change (if y = x then k.tail else k.prev y) = pre.getLast?
    rcases concat_split split with ⟨rfl, rfl, rfl⟩ | ⟨inner, rfl, rfl⟩
    · rw [if_pos rfl, spans.tail]
    · have other : y ≠ x := fun same => fresh (by simp [same])
      rw [if_neg other, spans.prev rfl]

theorem Spans.remove {a b : List ι} {x : ι} (spans : k.Spans (a ++ x :: b)) :
    (k.remove x).Spans (a ++ b) := by
  have before : k.prev x = a.getLast? := spans.prev rfl
  have after : k.next x = b.head? := spans.next rfl
  obtain ⟨distinctA, distinct, apart⟩ := List.nodup_append.1 spans.nodup
  obtain ⟨outside, distinctB⟩ := List.nodup_cons.1 distinct
  refine ⟨(List.nodup_middle.1 spans.nodup).of_cons, ?_, ?_, ?_, ?_⟩
  · change (if k.prev x = none then k.next x else k.head) = _
    rw [before, after, spans.head]
    cases a with
    | nil => rfl
    | cons z a => simp
  · change (if k.next x = none then k.prev x else k.tail) = _
    rw [before, after, spans.tail]
    cases b with
    | nil => simp
    | cons z b => simp
  · intro pre y post split
    change (if y = x then none else if k.prev x = some y then k.next x else k.next y) = _
    rw [before, after]
    rcases removed_split split with ⟨c, rfl, rfl⟩ | ⟨c, rfl, rfl⟩
    · have other : y ≠ x := apart y (by simp) x (by simp)
      have split : pre ++ y :: c ++ x :: b = pre ++ y :: (c ++ x :: b) := by simp
      rw [if_neg other, spans.next split]
      simp only [getLast?_eq_iff distinctA]
      cases c with
      | nil => rfl
      | cons z c => rfl
    · have other : y ≠ x := fun same => outside (by simp [same])
      have early : a.getLast? ≠ some y := fun last =>
        apart y (List.mem_of_getLast? last) y (by simp) rfl
      rw [if_neg other, if_neg early]
      exact spans.next (show a ++ x :: (c ++ y :: post) = (a ++ x :: c) ++ y :: post by simp)
  · intro pre y post split
    change (if y = x then none else if k.next x = some y then k.prev x else k.prev y) = _
    rw [before, after]
    rcases removed_split split with ⟨c, rfl, rfl⟩ | ⟨c, rfl, rfl⟩
    · have other : y ≠ x := apart y (by simp) x (by simp)
      have late : b.head? ≠ some y := fun first =>
        apart y (by simp) y (List.mem_cons_of_mem _ (List.mem_of_head? first)) rfl
      rw [if_neg other, if_neg late]
      exact spans.prev (show pre ++ y :: c ++ x :: b = pre ++ y :: (c ++ x :: b) by simp)
    · have other : y ≠ x := fun same => outside (by simp [same])
      have split : a ++ x :: (c ++ y :: post) = (a ++ x :: c) ++ y :: post := by simp
      rw [if_neg other, spans.prev split]
      simp only [head?_eq_iff distinctB]
      cases c with
      | nil => simp
      | cons z c => simp

end Update

end Links
