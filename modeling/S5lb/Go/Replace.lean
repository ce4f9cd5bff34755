import Mathlib.Data.List.Infix

/-!
# Texts with holes

`strings.ReplaceAll`, and what a few replacements one after another make of a text with markers in it.
-/

namespace Go

section Replace

variable {α : Type} [DecidableEq α]

/-- The occurrences of `old` from left to right, none overlapping another, become `new`; so many more
letters belong to the last one found. -/
def replaceFrom (old new : List α) : Nat → List α → List α
  | _, [] => []
  | 0, a :: s =>
      if old <+: a :: s then new ++ replaceFrom old new (old.length - 1) s
      else a :: replaceFrom old new 0 s
  | skip + 1, _ :: s => replaceFrom old new skip s

variable {old : List α} (new : List α)

theorem replaceFrom_skip (skipped s : List α) :
    replaceFrom old new skipped.length (skipped ++ s) = replaceFrom old new 0 s := by
  induction skipped with
  | nil => rfl
  | cons a skipped ih => exact ih

theorem replaceFrom_found (solid : old ≠ []) (s : List α) :
    replaceFrom old new 0 (old ++ s) = new ++ replaceFrom old new 0 s := by
  cases old with
  | nil => exact absurd rfl solid
  | cons a rest =>
      rw [List.cons_append, replaceFrom, if_pos ⟨s, rfl⟩, List.length_cons, Nat.add_sub_cancel,
        replaceFrom_skip]

theorem replaceFrom_absent {t s : List α} (absent : ∀ u, u ≠ [] → u <:+ t → ¬old <+: u ++ s) :
    replaceFrom old new 0 (t ++ s) = t ++ replaceFrom old new 0 s := by
  induction t with
  | nil => rfl
  | cons a t ih =>
      have here : ¬old <+: a :: (t ++ s) := absent (a :: t) (List.cons_ne_nil a t) List.suffix_rfl
      rw [List.cons_append, replaceFrom, if_neg here,
        ih fun u solid suffix => absent u solid (suffix.trans (List.suffix_cons a t))]
      rfl

end Replace

/-- Markers that begin with a doubled letter, such that none begins inside another. -/
structure Markers (κ α : Type) where
  mark : κ → List α
  opening : α
  opens : ∀ k, [opening, opening] <+: mark k
  apart : ∀ i j, i ≠ j → ∀ u ∈ (mark j).tails, u ≠ [] → ¬mark i <+: u ∧ ¬u <+: mark i

namespace Markers

variable {κ α : Type} (m : Markers κ α)

/-- No marker begins in such a text, whatever follows it. -/
def IsPlain (t : List α) : Prop := ¬[m.opening, m.opening] <:+: t ∧ t.getLast? ≠ some m.opening

instance [DecidableEq α] (t : List α) : Decidable (m.IsPlain t) := inferInstanceAs (Decidable (_ ∧ _))

def Plain : Type := { t : List α // m.IsPlain t }

inductive Chunk
  | text (t : m.Plain)
  | hole (k : κ)

variable {m}

namespace Chunk

def render : m.Chunk → List α
  | text t => t.1
  | hole k => m.mark k

def fill [DecidableEq κ] (k : κ) (v : m.Plain) : m.Chunk → m.Chunk
  | text t => text t
  | hole j => if j = k then text v else hole j

def value (values : κ → m.Plain) : m.Chunk → List α
  | text t => t.1
  | hole k => (values k).1

end Chunk

theorem isPlain_of_notMem {t : List α} (absent : m.opening ∉ t) : m.IsPlain t :=
  ⟨fun inside => absent (inside.subset List.mem_cons_self), fun last => absent (List.mem_of_getLast? last)⟩

theorem IsPlain.suffix {t u : List α} (plain : m.IsPlain t) (suffix : u <:+ t) (solid : u ≠ []) :
    m.IsPlain u := by
  refine ⟨fun inside => plain.1 (inside.trans suffix.isInfix), fun last => plain.2 ?_⟩
  obtain ⟨before, rfl⟩ := suffix
  rw [List.getLast?_append_of_ne_nil before solid, last]

theorem not_prefix_plain {k : κ} {u s : List α} (solid : u ≠ []) (plain : m.IsPlain u) :
    ¬m.mark k <+: u ++ s := by
  intro begins
  have opens : [m.opening, m.opening] <+: u ++ s := (m.opens k).trans begins
  cases u with
  | nil => exact solid rfl
  | cons a u =>
      obtain ⟨rfl, second⟩ := List.cons_prefix_cons.1 opens
      cases u with
      | nil => exact plain.2 rfl
      | cons b u =>
          obtain ⟨rfl, -⟩ := List.cons_prefix_cons.1 second
          exact plain.1 (List.prefix_append [m.opening, m.opening] u).isInfix

theorem not_prefix_apart {i j : κ} {u s : List α} (other : i ≠ j) (solid : u ≠ [])
    (suffix : u <:+ m.mark j) : ¬m.mark i <+: u ++ s := by
  intro begins
  obtain ⟨shorter, longer⟩ := m.apart i j other u (List.mem_tails _ _ |>.2 suffix) solid
  rcases List.prefix_or_prefix_of_prefix begins (List.prefix_append u s) with whole | part
  · exact shorter whole
  · exact longer part

theorem replaceFrom_render [DecidableEq κ] [DecidableEq α] (k : κ) (v : m.Plain) (chunks : List m.Chunk) :
    replaceFrom (m.mark k) v.1 0 (chunks.flatMap Chunk.render) =
      (chunks.map (Chunk.fill k v)).flatMap Chunk.render := by
  induction chunks with
  | nil => rfl
  | cons chunk chunks ih =>
      rw [List.map_cons, List.flatMap_cons, List.flatMap_cons, ← ih]
      cases chunk with
      | text t =>
          exact replaceFrom_absent _ fun u solid suffix => not_prefix_plain solid (t.2.suffix suffix solid)
      | hole j =>
          by_cases same : j = k
          · subst same
            rw [Chunk.fill, if_pos rfl]
            refine replaceFrom_found _ (fun empty => ?_) _
            have opens := m.opens j
            rw [empty] at opens
            cases List.prefix_nil.1 opens
          · rw [Chunk.fill, if_neg same]
            exact replaceFrom_absent _ fun u solid suffix => not_prefix_apart (Ne.symm same) solid suffix

end Markers

end Go
