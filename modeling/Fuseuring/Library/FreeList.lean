/-
**Lists whose items hold the links.**

`Links next head items`: from `head` on, the links go through `items` in this order and end
there. The links alone say which items these are (`Links.unique`), and that none comes twice
(`Links.nodup`). What is written outside of the list leaves it as it is (`Links.congr`).
-/

import Mathlib.Logic.Function.Basic
import Mathlib.Data.List.Nodup

namespace Fuseuring

/-- **What a list of links goes through.** -/
inductive Links {α : Type} (next : α → Option α) : Option α → List α → Prop
  | nil : Links next none []
  | cons (item : α) {rest : List α} (links : Links next (next item) rest) :
      Links next (some item) (item :: rest)

namespace Links

variable {α : Type} {next next' : α → Option α} {head : Option α} {item : α}
  {items items' : List α}

theorem of_none (links : Links next none items) : items = [] := by
  cases links
  rfl

/-- The first item is taken off. -/
theorem pop (links : Links next (some item) items) :
    ∃ rest, items = item :: rest ∧ Links next (next item) rest := by
  cases links with
  | cons _ links => exact ⟨_, rfl, links⟩

theorem unique (links : Links next head items) (links' : Links next head items') :
    items = items' := by
  induction links generalizing items' with
  | nil => exact links'.of_none.symm
  | cons item _ ih =>
    obtain ⟨rest, rfl, follow⟩ := links'.pop
    rw [ih follow]

/-- The links from an item of the list on go through the rest of it. -/
theorem drop {before after : List α} (links : Links next head (before ++ item :: after)) :
    Links next (some item) (item :: after) := by
  induction before generalizing head with
  | nil =>
    cases links with
    | cons _ links => exact .cons item links
  | cons first before ih =>
    cases links with
    | cons _ links => exact ih links

/-- An item that came again would be followed by as many items as before. -/
theorem nodup (links : Links next head items) : items.Nodup := by
  induction links with
  | nil => exact List.nodup_nil
  | @cons item rest links ih =>
    refine List.nodup_cons.mpr ⟨fun again => ?_, ih⟩
    obtain ⟨before, after, rfl⟩ := List.append_of_mem again
    have same : item :: (before ++ item :: after) = item :: after :=
      (Links.cons item links).unique links.drop
    have shorter := congrArg List.length same
    rw [List.length_cons, List.length_append, List.length_cons] at shorter
    omega

/-- Only the links of the items are looked at. -/
theorem congr (links : Links next head items) (same : ∀ item ∈ items, next' item = next item) :
    Links next' head items := by
  induction links with
  | nil => exact .nil
  | cons item _ ih =>
    have kept := ih fun other member => same other (List.mem_cons_of_mem _ member)
    rw [← same item List.mem_cons_self] at kept
    exact .cons item kept

/-- An item is put in front. -/
theorem push [DecidableEq α] (links : Links next head items) (fresh : item ∉ items) :
    Links (Function.update next item head) (some item) (item :: items) := by
  refine .cons item ?_
  rw [Function.update_self]
  refine links.congr fun other member => Function.update_of_ne ?_ _ _
  rintro rfl
  exact fresh member

end Links

end Fuseuring
