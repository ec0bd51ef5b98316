/-
**A store and the log of its writes.**

An `Extent` is a write: values from some index on. `latest` reads a store
through a log of writes, the newest first: the most recent value written at an
index, or the initial one. `latest_inside` and `latest_outside` are what a
reader of the log relies on; `latest_slice` is the same for a whole range.
-/

import Mathlib.Data.List.GetD

namespace Log

/-- Values from `start` on. -/
structure Extent (α : Type) where
  start : Nat
  values : List α
deriving DecidableEq, Repr

variable {α : Type}

/-- The extent covers the index. -/
def Extent.Covers (extent : Extent α) (index : Nat) : Prop :=
  extent.start ≤ index ∧ index < extent.start + extent.values.length

instance Extent.decidableCovers (extent : Extent α) (index : Nat) :
    Decidable (extent.Covers index) :=
  inferInstanceAs (Decidable (_ ∧ _))

/-- The most recent value written at an index, the newest write first, or the initial value. -/
def latest (initial : Nat → α) : List (Extent α) → Nat → α
  | [], index => initial index
  | extent :: older, index =>
    if extent.Covers index then extent.values.getD (index - extent.start)
      (latest initial older index)
    else latest initial older index

theorem latest_covered {initial : Nat → α} {extent : Extent α}
    {older : List (Extent α)} {index : Nat}
    (covers : extent.Covers index) :
    some (latest initial (extent :: older) index) = extent.values[index - extent.start]? := by
  have inside : index - extent.start < extent.values.length := by
    obtain ⟨start, bound⟩ := covers
    omega
  rw [latest, if_pos covers, List.getD_eq_getElem _ _ inside, List.getElem?_eq_getElem inside]

theorem latest_uncovered {initial : Nat → α} {extent : Extent α}
    {older : List (Extent α)} {index : Nat}
    (outside : ¬ extent.Covers index) : latest initial (extent :: older) index =
      latest initial older index := by
  rw [latest, if_neg outside]

/-- **Indices nobody wrote keep their value.** -/
theorem latest_outside {initial : Nat → α} {log : List (Extent α)} {index : Nat}
    (outside : ∀ extent ∈ log, ¬ extent.Covers index) :
    latest initial log index = initial index := by
  induction log with
  | nil => rfl
  | cons extent older ih =>
    rw [latest_uncovered (outside extent List.mem_cons_self)]
    exact ih fun extent' member => outside extent' (List.mem_cons_of_mem _ member)

/-- **A write is visible where no newer one covers it.** -/
theorem latest_inside {initial : Nat → α} {newer older : List (Extent α)}
    {extent : Extent α} {index : Nat}
    (covers : extent.Covers index) (untouched : ∀ extent' ∈ newer, ¬ extent'.Covers index) :
    some (latest initial (newer ++ extent :: older) index) =
      extent.values[index - extent.start]? := by
  induction newer with
  | nil => exact latest_covered covers
  | cons first rest ih =>
    rw [List.cons_append, latest_uncovered (untouched first List.mem_cons_self)]
    exact ih fun extent' member => untouched extent' (List.mem_cons_of_mem _ member)

/-- A range of a write that no newer one covers reads back as the part of the write. -/
theorem latest_slice {initial : Nat → α} {newer older : List (Extent α)} {extent : Extent α}
    {start count : Nat}
    (within : extent.start ≤ start) (bound : start + count ≤ extent.start + extent.values.length)
    (untouched : ∀ extent' ∈ newer, ∀ index, start ≤ index → index < start + count →
      ¬ extent'.Covers index) :
    (List.range count).map (fun index => latest initial (newer ++ extent :: older)
      (start + index)) =
      (extent.values.drop (start - extent.start)).take count := by
  refine List.ext_getElem? fun index => ?_
  by_cases inside : index < count
  · have found : some (latest initial (newer ++ extent :: older) (start + index)) =
        extent.values[start + index - extent.start]? :=
      latest_inside ⟨by omega, by omega⟩ fun extent' member =>
        untouched extent' member (start + index) (by omega) (by omega)
    have shift : start + index - extent.start = start - extent.start + index := by omega
    rw [List.getElem?_map, List.getElem?_range inside, Option.map_some, found, shift,
      List.getElem?_take_of_lt inside, List.getElem?_drop]
  · rw [List.getElem?_eq_none (by simp; omega), List.getElem?_eq_none (by simp; omega)]

end Log
