/-
**Null entries.**

A run may begin with anything in the ring and in the queues. A null entry is
about to be used right behind the `get_sqe()` of the loop that completes a short header, where
the ring is full and the submit does not succeed, and nowhere else.
-/

import Fuseuring.Ring.Steady
import Fuseuring.Ring.Overflow
import Mathlib.Data.List.Induction

namespace Fuseuring

open Interaction

/-! ### Uses of a null entry -/

section Uses

variable {ring : FuseRing} {slots : Nat} {s s' : Sys}

/-- A null entry is used behind a trusted `get_sqe()` that gave up, if at all. -/
theorem UsesNull.missed {ends : Grip → Prop} {thread : Thread coroutines Int}
    (uses : UsesNull thread) :
    ∀ {grip : Grip}, thread.MeetsAt cares ends grip → grip.missed = true := by
  induction uses with
  | prep move =>
    intro grip meets
    have moved := meets.move
    rw [move] at moved
    rcases moved with missed | ⟨-, missed⟩
    · exact missed
    · exact missed
  | complete move member =>
    intro grip meets
    have moved := meets.move
    rw [move] at moved
    rcases moved with ⟨all, -⟩ | ⟨-, all, -⟩
    · exact absurd member all
    · exact absurd member all
  | turn move _ ih =>
    intro grip meets
    have moved := meets.move
    rw [move] at moved
    exact ih moved

theorem Steady.noNull (steady : Steady True slots s) : ¬ s.PreparesNull := by
  rintro ⟨task, back, thread, gaveUp, pc, uses⟩
  obtain ⟨grip, -, meets, quiet⟩ := steady.running pc
  exact Bool.false_ne_true ((quiet trivial).symm.trans (uses.missed meets))

/-- The loop that completes a short header does not test what its `get_sqe()` returns. -/
theorem usesNull_readHeaderLoop {β : Type} (fuseIo : FuseIo) (initRead : Nat)
    (rest : Option Nat → Coro β) (stack : Stack coroutines Int β) :
    ∃ resume, (⟨β, readHeaderLoop fuseIo initRead >>= rest, stack⟩ :
      Thread coroutines Int).move = .performs (.getSqe 1) resume ∧ UsesNull (resume none) := by
  rw [readHeaderLoop]
  exact ⟨_, rfl, .prep rfl⟩

/-- **A submit that fails on a full ring in that loop** is followed by the use of a null entry. -/
theorem preparesNull_of_full {result : SubmitResult} (full : s.HeaderLoopFull)
    (fails : ¬ ∃ count, result = .ok count)
    (step : s.go ring result = some s') : s'.PreparesNull := by
  obtain ⟨task, back, ⟨β, program, stack⟩, gaveUp, pc, here, empty⟩ := full
  obtain ⟨fuseIo, initRead, rest, rfl⟩ : ∃ fuseIo initRead, ∃ rest : Option Nat → Coro β,
      program = readHeaderLoop fuseIo initRead >>= rest := here
  obtain ⟨resume, move, uses⟩ := usesNull_readHeaderLoop fuseIo initRead rest stack
  have full : Sys.room s.free 1 = none := by
    rw [empty]
    rfl
  have few : ¬ 1 > 1 := Nat.lt_irrefl 1
  simp only [Sys.go, pc, move, Sys.perform, Sys.getSqe, if_neg few, full] at step
  cases result with
  | ok count => exact absurd ⟨count, rfl⟩ fails
  | busy =>
    obtain rfl := Option.some.inj step
    exact ⟨task, back, resume none, true, rfl, uses⟩
  | failed =>
    obtain rfl := Option.some.inj step
    exact ⟨task, back, resume none, true, rfl, uses⟩

end Uses

/-! ### The exact condition -/

section Exact

variable {ring : FuseRing} {slots : Nat} {first last s s' : Sys}
  {acts before : List Act} {act : Act}

/-- One step behind a part of a run. -/
theorem run_concat (ran : Sys.run ring (fun _ _ => True) before first = some s) :
    Sys.run ring (fun _ _ => True) (before ++ [act]) first = s.step ring act := by
  rw [Sys.run_append, ran, Option.bind_some, Sys.run, if_pos trivial]
  exact Option.bind_fun_some _

/-- A run can be followed up to each of its steps. -/
theorem run_prefix (ran : Sys.run ring (fun _ _ => True) acts first = some last)
    (part : before <+: acts) :
    ∃ s, Sys.run ring (fun _ _ => True) before first = some s := by
  obtain ⟨after, rfl⟩ := part
  rw [Sys.run_append] at ran
  obtain ⟨s, reached, -⟩ := Option.bind_eq_some_iff.mp ran
  exact ⟨s, reached⟩

/-- What a run keeps whose steps up to here are trustworthy. -/
theorem steady_of_part (fresh : first.Fresh slots)
    (trust : ∀ before act s, before ++ [act] <+: acts →
      Sys.run ring (fun _ _ => True) before first = some s →
      trustworthy s act) :
    ∀ {s}, before <+: acts → Sys.run ring (fun _ _ => True) before first = some s →
      Steady True slots s := by
  induction before using List.reverseRecOn with
  | nil =>
    intro s _ ran
    obtain rfl := Option.some.inj ran
    exact fresh.steady
  | append_singleton before act ih =>
    intro s part ran
    have shorter : before <+: acts := (List.prefix_append before [act]).trans part
    obtain ⟨middle, reached⟩ := run_prefix ran (List.prefix_append before [act])
    rw [run_concat reached] at ran
    exact (ih shorter reached).step (fun _ => trust before act middle part reached) ran

/-- **No null entry is used as long as each `get_sqe()` of the loop that completes a short header
submits a full ring**, and the first one that does not is followed by the use. -/
theorem noNull_iff (fresh : first.Fresh slots)
    (ran : Sys.run ring (fun _ _ => True) acts first = some last) :
    (∀ before s, before <+: acts → Sys.run ring (fun _ _ => True) before first = some s →
      ¬ s.PreparesNull) ↔
      ∀ before act s, before ++ [act] <+: acts →
      Sys.run ring (fun _ _ => True) before first = some s →
        trustworthy s act := by
  constructor
  · intro clean before act s part reached
    cases act with
    | post place res bytes => exact trivial
    | go result =>
      intro full
      by_contra fails
      obtain ⟨s', after⟩ := run_prefix ran part
      have step : s.step ring (.go result) = some s' := by rw [← run_concat reached, after]
      exact clean _ s' part after (preparesNull_of_full full fails step)
  · exact fun trust before s part reached => (steady_of_part fresh trust part reached).noNull

end Exact

/-- 64 slots, and submits that take nothing. -/
theorem noNull_iff_64 : ∃ s, Sys.run FuseRing.small (fun _ _ => True)
    (List.replicate 512 (Act.go (.ok 0)))
    (Sys.init 64 128 fun _ => Mem.zero) = some s ∧ ¬ s.PreparesNull := by
  have ran : (Sys.run FuseRing.small (fun _ _ => True) (List.replicate 512 (Act.go (.ok 0)))
      (Sys.init 64 128 fun _ => Mem.zero)).isSome = true := by
    decide +kernel
  obtain ⟨last, reached⟩ := Option.isSome_iff_exists.mp ran
  refine ⟨last, reached, (noNull_iff (Sys.fresh_init 64 128 _) reached).mpr
    (fun before act s part _ => ?_) _ last
    (List.prefix_refl _) reached⟩
  have member : act ∈ List.replicate 512 (Act.go (.ok 0)) :=
    part.subset (List.mem_append_right before (List.mem_singleton_self act))
  rw [List.eq_of_mem_replicate member]
  exact fun _ => ⟨0, rfl⟩

/-! ### A null entry -/

/-- The running coroutine is at an `io_uring_prep_*` call with a null entry. -/
def Sys.prepsNull (s : Sys) : Bool :=
  match s.pc with
  | .running _ _ thread _ =>
    match thread.move with
    | .performs (.prep none _) _ => true
    | _ => false
  | _ => false

theorem Sys.preparesNull_of_preps {s : Sys} (preps : s.prepsNull = true) : s.PreparesNull := by
  unfold Sys.prepsNull at preps
  split at preps
  · rename_i task back thread gaveUp pc
    split at preps
    · rename_i entry resume move
      exact ⟨task, back, thread, gaveUp, pc, .prep move⟩
    · cases preps
  · cases preps

/-- 64 slots, and a first submit that takes six entries: two reads fill the ring with
their chains, and the third header comes short; the submit of its `get_sqe()` fails. -/
def nullActs : List Act :=
  goOn 513 ++ .go (.ok 6) :: (List.replicate 2 [Act.post 0 80 [], .post 0 80 emptyRead]).flatten ++
    [.post 0 80 [], .post 0 20 (emptyRead.take 20)] ++ goOn 35

/-- **A null entry is prepared** when a header comes short while the ring is
full and its submit fails. -/
theorem null_prepared : ∃ s, Sys.Reaches FuseRing.small (fun _ _ => True)
    (Sys.init 64 (sqEntries 64) fun _ => Mem.zero) s ∧
    s.PreparesNull := by
  have entries : sqEntries 64 = 128 := sqEntries_of_le (by decide)
  have ran : (Sys.run FuseRing.small (fun _ _ => True) nullActs
      (Sys.init 64 128 fun _ => Mem.zero)).any Sys.prepsNull =
      true := by
    decide +kernel
  obtain ⟨s, reached, preps⟩ := (Option.any_eq_true _ _).mp ran
  rw [entries]
  exact ⟨s, Sys.reaches_of_run _ .start reached, Sys.preparesNull_of_preps preps⟩

end Fuseuring
