/-
**Directory paging (`handle_readdir`).**

A reader takes a directory page by page: it asks from offset 0, consumes a prefix of
the entries it gets and goes on at the cookie of the last one (`Paged`).
`handle_readdir` lists everything from offset 0 and nothing from any other offset,
whatever the size asked for: the listing is complete exactly where the first page is
consumed whole, and it is as long as the reader allows exactly where that is 96 bytes.
-/

import Fuseuring.Directory

namespace Fuseuring

open Bytes

/-! ### What a reply lists -/

/-- The entries of the reply to a request for `offset`. -/
def listing (unique offset : Nat) : Option (List Decoded) :=
  walk (readdirReply unique offset) OutHeader.size

theorem rootEntries_eq (buf : List UInt8) : rootEntries buf = addDirs buf rootListing := rfl

/-- A reply is its header and, from offset 0, the entries of the root. -/
theorem readdirReply_split (unique offset : Nat) :
    ∃ header : List UInt8, header.length = OutHeader.size ∧
      readdirReply unique offset = header ++ if offset = 0 then blocks rootListing else [] := by
  let header : Buffer := OutHeader.unique.store (OutHeader.error.store
    (ofList (List.replicate OutHeader.size 0)) 0 0) 0 unique
  let entries : List UInt8 := if offset = 0 then blocks rootListing else []
  let outBuf : List UInt8 := slice header 0 OutHeader.size ++ entries
  have built : (if offset = 0 then rootEntries (slice header 0 OutHeader.size)
      else slice header 0 OutHeader.size) =
      outBuf := by
    by_cases first : offset = 0
    · simp only [outBuf, entries, if_pos first]
      rw [rootEntries_eq, addDirs_eq]
    · simp only [outBuf, entries, if_neg first, List.append_nil]
  have reply : readdirReply unique offset =
      slice (OutHeader.len.store (ofList outBuf) 0 outBuf.length) 0 outBuf.length := by
    rw [← built]
    rfl
  have length : outBuf.length = OutHeader.size + entries.length := by
    rw [List.length_append, length_slice]
  refine ⟨(readdirReply unique offset).take OutHeader.size, ?_, ?_⟩
  · rw [reply, List.length_take, length_slice]
    omega
  · have behind : (readdirReply unique offset).drop OutHeader.size = entries := by
      refine List.ext_getElem? fun index => ?_
      rw [List.getElem?_drop, reply]
      by_cases inside : index < entries.length
      · have place : OutHeader.size + index < outBuf.length := by omega
        have past : (slice header 0 OutHeader.size).length ≤ OutHeader.size + index := by
          rw [length_slice]
          omega
        have shift : OutHeader.size + index - (slice header 0 OutHeader.size).length = index := by
          rw [length_slice]
          omega
        have len : OutHeader.len.offset + OutHeader.len.width ≤ OutHeader.size := by decide
        rw [slice_getElem _ _ _ _ place, Nat.zero_add, Field.store,
          store_outside (by omega), ofList,
          List.getD_append_right _ _ _ _ past, shift, List.getD_eq_getElem _ _ inside,
          List.getElem?_eq_getElem inside]
      · rw [List.getElem?_eq_none, List.getElem?_eq_none]
        · omega
        · rw [length_slice]
          omega
    show readdirReply unique offset = (readdirReply unique offset).take OutHeader.size ++ entries
    rw [← behind, List.take_append_drop]

/-- **Everything from offset 0, nothing from elsewhere.** -/
theorem listing_eq (unique offset : Nat) :
    listing unique offset = some
      (if offset = 0 then decodedFrom OutHeader.size rootListing else []) := by
  obtain ⟨header, length, reply⟩ := readdirReply_split unique offset
  rw [listing, reply, ← length]
  by_cases first : offset = 0
  · rw [if_pos first, if_pos first]
    exact walk_blocks rootListing header
  · rw [if_neg first, if_neg first]
    exact walk_blocks [] header

theorem length_readdirReply (unique offset : Nat) :
    (readdirReply unique offset).length = OutHeader.size + if offset = 0 then 96 else 0 := by
  obtain ⟨header, length, reply⟩ := readdirReply_split unique offset
  rw [reply, List.length_append, length]
  by_cases first : offset = 0
  · rw [if_pos first, if_pos first]
    rfl
  · rw [if_neg first, if_neg first]
    rfl

/-! ### Reading page by page -/

/-- A request of the reader: its `unique`, the size it asks for, and how many
entries of the reply it consumes. -/
structure Page where
  unique : Nat
  size : Nat
  taken : Nat

/-- **Reading a directory** from an offset on, to a reply without entries, with
what was consumed. -/
inductive Paged : Nat → List Page → List Decoded → Prop
  | last {offset : Nat} {page : Page} : listing page.unique offset = some [] →
    Paged offset [page] []
  | next {offset : Nat} {page : Page} {entries consumed : List Decoded} {cookie : Decoded}
    {rest : List Page} :
      listing page.unique offset = some entries → 1 ≤ page.taken → page.taken ≤ entries.length →
      entries[page.taken - 1]? = some cookie → Paged cookie.off rest consumed →
      Paged offset (page :: rest) (entries.take page.taken ++ consumed)

/-- The entries of the root, each once and in this order. -/
def Complete (consumed : List Decoded) : Prop :=
  consumed.map Decoded.name = [[46], [46, 46], volumeName]

/-- The reply's entries fit the size asked for and are whole. -/
def Bounded (page : Page) (offset : Nat) : Prop :=
  (readdirReply page.unique offset).length - OutHeader.size ≤ page.size ∧
    ∃ entries, listing page.unique offset = some entries

/-- From a cookie on there is nothing. -/
theorem Paged.rest {offset : Nat} {pages : List Page} {consumed : List Decoded}
    (paged : Paged offset pages consumed)
    (later : offset ≠ 0) : consumed = [] := by
  cases paged with
  | last => rfl
  | next found taken few =>
    rw [listing_eq, if_neg later, Option.some.injEq] at found
    subst found
    exact absurd (le_trans taken few) (by decide)

/-- No cookie is 0. -/
theorem cookie_ne_zero {place : Nat} {cookie : Decoded}
    (found : (decodedFrom OutHeader.size rootListing)[place]? = some cookie) : cookie.off ≠ 0 := by
  have all : ∀ entry ∈ decodedFrom OutHeader.size rootListing, entry.off ≠ 0 := by decide
  exact all cookie (List.mem_of_getElem? found)

/-- A chain is complete exactly where its first page is consumed whole. -/
theorem Paged.complete_iff {pages : List Page} {consumed : List Decoded}
    (paged : Paged 0 pages consumed) :
    Complete consumed ↔ ∃ page rest, pages = page :: rest ∧ page.taken = 3 := by
  cases paged with
  | last found =>
    rw [listing_eq, if_pos rfl] at found
    cases found
  | @next _ page entries consumed cookie rest found taken few last behind =>
    rw [listing_eq, if_pos rfl, Option.some.injEq] at found
    subst found
    rw [behind.rest (cookie_ne_zero last), List.append_nil]
    have three : (decodedFrom OutHeader.size rootListing).length = 3 := rfl
    have whole : Complete (decodedFrom OutHeader.size rootListing) := rfl
    rw [three] at few
    constructor
    · intro complete
      have count := congrArg List.length complete
      rw [List.length_map, List.length_take, three] at count
      have names : [[46], [46, 46], volumeName].length = 3 := rfl
      exact ⟨page, rest, rfl, by omega⟩
    · rintro ⟨first, others, split, all⟩
      rw [List.cons.injEq] at split
      rw [← split.1] at all
      rw [List.take_of_length_le (by rw [three, all])]
      exact whole

/-- A reply fits exactly where it lists nothing, or 96 bytes were asked for. -/
theorem bounded_iff (page : Page) (offset : Nat) : Bounded page offset ↔ offset ≠ 0 ∨
    96 ≤ page.size := by
  have whole : ∃ entries, listing page.unique offset = some entries := ⟨_, listing_eq _ _⟩
  rw [Bounded, length_readdirReply, Nat.add_sub_cancel_left]
  constructor
  · rintro ⟨fits, -⟩
    by_cases first : offset = 0
    · rw [if_pos first] at fits
      exact Or.inr fits
    · exact Or.inl first
  · intro fits
    refine ⟨?_, whole⟩
    by_cases first : offset = 0
    · rw [if_pos first]
      exact fits.resolve_left (not_not.mpr first)
    · rw [if_neg first]
      exact Nat.zero_le _

/-- **Paging is complete exactly where the first page is consumed whole, and a
reply fits exactly where it lists nothing or 96 bytes were asked for.** -/
theorem paging_exact {pages : List Page} {consumed : List Decoded}
    (paged : Paged 0 pages consumed) (page : Page)
    (offset : Nat) :
    (Complete consumed ↔ ∃ first rest, pages = first :: rest ∧ first.taken = 3) ∧
      (Bounded page offset ↔ offset ≠ 0 ∨ 96 ≤ page.size) :=
  ⟨paged.complete_iff, bounded_iff page offset⟩

/-- Two pages: all three entries, then none. -/
theorem whole_page_complete :
    Complete ((decodedFrom OutHeader.size rootListing).take 3 ++ []) ∧ Bounded ⟨1, 4096, 3⟩ 0 := by
  have paged : Paged 0 [⟨1, 4096, 3⟩, ⟨2, 4096, 0⟩]
      ((decodedFrom OutHeader.size rootListing).take 3 ++ []) := by
    obtain ⟨cookie, last, off⟩ :
      ∃ cookie, (decodedFrom OutHeader.size rootListing)[2]? = some cookie ∧
        cookie.off = 3 := ⟨_, rfl, rfl⟩
    refine .next (listing_eq 1 0) (by decide) (by decide) last (.last ?_)
    rw [off]
    exact listing_eq 2 3
  have exact := paging_exact paged ⟨1, 4096, 3⟩ 0
  exact ⟨exact.1.mpr ⟨_, _, rfl, rfl⟩, exact.2.mpr (Or.inr (by decide))⟩

/-- **Resuming loses entries**: a reader that consumes one entry and goes on at
its cookie gets no other. -/
theorem resumed_listing_ends_early :
    ¬ ∀ pages consumed, (∀ page ∈ pages, 32 ≤ page.size) → Paged 0 pages consumed →
    Complete consumed := by
  intro complete
  have paged : Paged 0 [⟨1, 4096, 1⟩, ⟨2, 4096, 0⟩]
      ((decodedFrom OutHeader.size rootListing).take 1 ++ []) := by
    obtain ⟨cookie, last, off⟩ :
      ∃ cookie, (decodedFrom OutHeader.size rootListing)[0]? = some cookie ∧
        cookie.off = 1 := ⟨_, rfl, rfl⟩
    refine .next (listing_eq 1 0) (by decide) (by decide) last (.last ?_)
    rw [off]
    exact listing_eq 2 1
  have all := complete _ _ (by decide) paged
  exact absurd (congrArg List.length all) (by decide)

end Fuseuring
