/-
**What is in the ring when it is submitted.**

An entry is `Owed` if it was prepared since it was last taken and its `user_data`
leads to a pending awaiter. `NoStray` asks this of every entry of the ring wherever
`io_uring_submit` is called and wherever a coroutine returns. The orderly runs keep
it. `queue_fuse_read` calls `get_sqe()` again behind a `get_sqe(2)` that gave up:
where the second call is answered, the entry is left in the ring as it is, and the
next submit hands it to the kernel with the `user_data` of an awaiter that is gone.
-/

import Fuseuring.Ring.Step
import Fuseuring.Requests

namespace Fuseuring

open Interaction

/-- The entry is prepared, and its completion resumes a coroutine that waits. -/
def SqeEntry.Owed (s : Sys) (entry : SqeEntry) : Prop :=
  entry.sqe ≠ none ∧ ∃ target awaiter, entry.userData = some target ∧
    s.awaiters target.awaiter = some awaiter ∧
    target.index < awaiter.res.length

/-- **No stray entry**: not where the ring is submitted, and not where a coroutine returns. -/
structure NoStray (s : Sys) : Prop where
  submits : s.submits = true → ∀ entry ∈ s.sq, entry.Owed s
  returns : s.returning = true → ∀ entry ∈ s.sq, entry.Owed s

section Kept

variable {slots entries : Nat} {s : Sys} {ghost : Ghost}

/-- What is awaited is owed. -/
theorem Kept.owed (kept : Kept slots entries s ghost) {entry : SqeEntry}
    (member : entry ∈ ghost.awaited) :
    entry.Owed s := by
  obtain ⟨waiting, -, sqe, target, prepared, tagged, -⟩ :=
    kept.queues.awaited entry (List.mem_append_right _ member)
  have unhandled : target ∈ s.unhandled ghost.awaited := by
    refine List.mem_append_right _
      (List.mem_filterMap.mpr ⟨entry, List.mem_append_right _ member, tagged⟩)
  obtain ⟨awaiter, owner, bound⟩ := kept.queues.sound.live target unhandled
  exact ⟨prepared ▸ Option.some_ne_none _, target, awaiter, tagged, owner, bound⟩

/-- With nothing in hand, the whole ring is owed. -/
theorem Kept.allOwed (kept : Kept slots entries s ghost) (own : ghost.hand.own = []) :
    ∀ entry ∈ s.sq, entry.Owed s := by
  intro entry member
  rw [kept.queues.sq own] at member
  exact kept.owed member

/-- Where the ring is submitted, nothing is in hand: a chain that is begun finds its entries. -/
theorem Kept.own_of_submits (kept : Kept slots entries s ghost) (submits : s.submits = true) :
    ghost.hand.own = [] := by
  cases pc : s.pc with
  | submit =>
    rw [kept.loop (Or.inr (Or.inl pc))]
    rfl
  | running task back thread gaveUp =>
    cases move : thread.move with
    | performs op resume =>
      cases op with
      | getSqe peek =>
        have full : Sys.room s.free peek = none := by simpa [Sys.submits, pc, move] using submits
        have allowed := kept.allowed pc move
        rw [Hand.Allows] at allowed
        by_cases reserved : 0 < ghost.hand.reserved
        · rw [if_pos reserved] at allowed
          have few := room_none full allowed.1.ge
          have sure := kept.queues.reserved
          obtain rfl := allowed.1
          omega
        · rw [if_neg reserved] at allowed
          exact allowed.1
      | _ => simp [Sys.submits, pc, move] at submits
    | _ => simp [Sys.submits, pc, move] at submits
  | _ => simp [Sys.submits, pc] at submits

theorem Kept.own_of_returning (kept : Kept slots entries s ghost) (returning : s.returning = true) :
    ghost.hand.own = [] := by
  cases pc : s.pc with
  | running task back thread gaveUp =>
    have returns : thread.returning = true := by simpa [Sys.returning, pc] using returning
    have idle : ghost.hand.Idle := (kept.running pc).2.returns returns
    exact idle.own
  | _ => simp [Sys.returning, pc] at returning

theorem Kept.noStray (kept : Kept slots entries s ghost) : NoStray s :=
  ⟨fun submits => kept.allOwed (kept.own_of_submits submits),
    fun returns => kept.allOwed (kept.own_of_returning returns)⟩

end Kept

/-- **No stray entry reaches the kernel** in the runs in which no `get_sqe` is
answered with an entry right behind one that gave up. -/
theorem noStray_of_orderly {ring : FuseRing} {slots entries : Nat} {mem : Nat → Mem} {s : Sys}
    (run : Sys.Reaches ring (fun s act => orderly s act = true) (Sys.init slots entries mem) s) :
    NoStray s := by
  obtain ⟨ghost, kept⟩ := kept_of_reaches (fun _ _ allowed => allowed) run
  exact kept.noStray

/-! ### A stray entry -/

/-- A step of the program that does not submit, or whose submit fails. -/
def goOn (count : Nat) : List Act := List.replicate count (.go .failed)

/-- Buffers of zeros. -/
def Mem.zero : Mem := ⟨Bytes.ofList [], Bytes.ofList [], Bytes.ofList [], 0, Bytes.ofList []⟩

theorem noStray_of_orderly_one : ∃ s : Sys, NoStray s ∧ s.submits = true ∧ s.sq.length = 2 := by
  have ran : (Sys.run FuseRing.small (fun s act => orderly s act = true) (goOn 9)
      (Sys.init 1 100 fun _ => Mem.zero)).any (fun s => s.submits && s.sq.length == 2) = true := by
    decide +kernel
  obtain ⟨s, reached, facts⟩ := (Option.any_eq_true _ _).mp ran
  exact ⟨s, noStray_of_orderly (Sys.reaches_of_run _ .start reached), by simpa using facts⟩

/-- A `READ` of no bytes. -/
def emptyRead : List UInt8 := sessionMessage .read 1 3 (rangeBody 0 0 ++ List.replicate 24 0)

/-- 44 slots: the first request is answered, 42 reads queue their chains, and
one short header its continuation, so that one entry is free when the first
coroutine ends and its slot is taken again; the submit fails just then. -/
def strayActs : List Act :=
  goOn 353 ++ .go (.ok 88) :: .post 0 64 [] :: .post 0 64
    (sessionMessage .release 1 3 (List.replicate 24 0)) ::
    goOn 18 ++ .go (.ok 2) :: .post 86 16 [] :: .post 86 16 [] :: .post 0 80 [] :: .post 0 20
      (emptyRead.take 20) ::
    (List.replicate 42 [Act.post 0 80 [], .post 0 80 emptyRead]).flatten ++ goOn 697

theorem sqEntries_44 : sqEntries 44 = 128 := by
  have exponent : Nat.clog 2 (max 100 (44 * 2)) = 7 := by decide
  rw [sqEntries, exponent]
  rfl

/-- **A stray entry reaches the kernel**: `get_sqe(2)` gives up with one entry
free, and `get_sqe()` takes it. -/
theorem stray_submitted : ∃ s, Sys.Reaches FuseRing.small (fun _ _ => True)
      (Sys.init 44 (sqEntries 44) fun _ => Mem.zero) s ∧ ¬ NoStray s ∧ s.submits = true ∧
    ∃ entry ∈ s.sq, entry.sqe = none ∧ ∃ target, entry.userData = some target ∧
      s.awaiters target.awaiter = none := by
  have ran : (Sys.run FuseRing.small (fun _ _ => True) strayActs
      (Sys.init 44 128 fun _ => Mem.zero)).any
      (fun s => s.submits && s.sq.any
        fun entry => entry.sqe.isNone && entry.userData.any fun target =>
        (s.awaiters target.awaiter).isNone) = true := by
    decide +kernel
  obtain ⟨s, reached, facts⟩ := (Option.any_eq_true _ _).mp ran
  simp only [Bool.and_eq_true, List.any_eq_true, Option.isNone_iff_eq_none,
    Option.any_eq_true] at facts
  obtain ⟨submits, entry, member, unprepared, target, tagged, gone⟩ := facts
  rw [sqEntries_44]
  refine ⟨s, Sys.reaches_of_run _ .start reached, fun noStray => ?_, submits, entry, member,
    unprepared, target, tagged,
    gone⟩
  exact (noStray.submits submits entry member).1 unprepared

end Fuseuring
