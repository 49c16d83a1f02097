import Mathlib.Data.List.Infix
import Mathlib.Data.List.Nodup
import Mathlib.Data.List.FinRange

namespace RealRlhf

/-!
# Facts about lists the models share

A `mapM` in `Option` that always succeeds, the order of two entries of a `flatMap` and of a
prefix, and maps over `finRange`: the payload lookups of the master, the post logs of the
handshake and the packed batches of the PPO functions rest on them.
-/

section

variable {α β : Type}

/-- `mapM` in `Option` of a function that succeeds everywhere on the list. -/
theorem mapM_eq_some_map
    {f : α → Option β}
    {g : α → β}
    {l : List α}
    (agree : ∀ a ∈ l, f a = some (g a)) :
    l.mapM f = some (l.map g) := by
  induction l with
  | nil => rfl
  | cons a rest inductionHypothesis =>
      rw [List.mapM_cons, agree a (List.mem_cons_self _ _),
        inductionHypothesis fun b member => agree b (List.mem_cons_of_mem _ member)]
      rfl

/-- Two entries of a `flatMap` from different blocks, in this order, come from blocks in this order. -/
theorem pair_sublist_of_flatMap
    {f : α → List β}
    {tag : β → α}
    (tagged : ∀ a, ∀ x ∈ f a, tag x = a) :
    ∀ {l : List α} {x y : β}, [x, y].Sublist (l.flatMap f) → tag x ≠ tag y → [tag x, tag y].Sublist l
  | [], _, _, order, _ => absurd order.length_le (by simp)
  | a :: l, x, y, order, distinct => by
      rw [List.flatMap_cons] at order
      obtain ⟨p₁, p₂, split, left, right⟩ := List.sublist_append_iff.mp order
      rcases p₁ with _ | ⟨u, _ | ⟨v, _ | ⟨_, _⟩⟩⟩
      · rw [List.nil_append] at split
        subst split
        exact (pair_sublist_of_flatMap tagged right distinct).cons a
      · obtain ⟨rfl, rfl⟩ : x = u ∧ [y] = p₂ := by simpa using split
        obtain ⟨b, mem, inBlock⟩ := List.mem_flatMap.mp (List.singleton_sublist.mp right)
        rw [tagged a x (List.singleton_sublist.mp left), tagged b y inBlock]
        exact (List.singleton_sublist.mpr mem).cons₂ a
      · obtain ⟨rfl, rfl, rfl⟩ : x = u ∧ y = v ∧ p₂ = [] := by simpa using split
        exact absurd ((tagged a x (left.subset (by simp))).trans (tagged a y (left.subset (by simp))).symm) distinct
      · simp at split

/-- Entries of two blocks of a `flatMap`, the blocks in this order, come in this order. -/
theorem pair_sublist_flatMap
    {f : α → List β}
    {l : List α}
    {a b : α}
    {x y : β}
    (order : [a, b].Sublist l)
    (inFirst : x ∈ f a)
    (inSecond : y ∈ f b) :
    [x, y].Sublist (l.flatMap f) := by
  obtain ⟨l₁, l₂, rfl, first, second⟩ := List.append_sublist_iff.mp (show ([a] ++ [b]).Sublist l from order)
  rw [List.flatMap_append]
  exact (List.singleton_sublist.mpr (List.mem_flatMap.mpr ⟨a, List.singleton_sublist.mp first, inFirst⟩)).append
    (List.singleton_sublist.mpr (List.mem_flatMap.mpr ⟨b, List.singleton_sublist.mp second, inSecond⟩))

/-- In a list without duplicates, an entry before one that lies in a prefix lies in the prefix before it. -/
theorem pair_sublist_of_isPrefix
    {l L : List β}
    {x y : β}
    (isPrefix : l <+: L)
    (nodup : L.Nodup)
    (order : [x, y].Sublist L)
    (inPrefix : y ∈ l) :
    [x, y].Sublist l := by
  obtain ⟨t, rfl⟩ := isPrefix
  obtain ⟨p₁, p₂, split, left, right⟩ := List.sublist_append_iff.mp order
  have notAfter : y ∉ t := List.disjoint_of_nodup_append nodup inPrefix
  rcases p₁ with _ | ⟨u, _ | ⟨v, _ | ⟨_, _⟩⟩⟩
  · rw [List.nil_append] at split
    exact absurd (right.subset (by simp [← split])) notAfter
  · obtain ⟨-, rfl⟩ : x = u ∧ [y] = p₂ := by simpa using split
    exact absurd (right.subset (by simp)) notAfter
  · obtain ⟨rfl, rfl, -⟩ : x = u ∧ y = v ∧ p₂ = [] := by simpa using split
    exact left
  · simp at split

/-- A map over `finRange` is a map over `range` of the same function, extended past the end. -/
theorem map_finRange_eq_map_range
    {bs : Nat}
    (f : Fin bs → β)
    (d : β) :
    (List.finRange bs).map f = (List.range bs).map fun j => if h : j < bs then f ⟨j, h⟩ else d := by
  rw [← List.map_coe_finRange, List.map_map]
  exact List.map_congr_left fun i _ => by simp

end

end RealRlhf
