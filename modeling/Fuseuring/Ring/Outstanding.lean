/-
**What `run` waits for.**

`io_uring_submit_and_wait` sleeps until there is a completion. Where `run` calls it the pool is
empty (`ios_of_submit`), and the coroutine of every slot waits for an entry that is in the ring,
with the kernel, or completed and not handled yet. So the loop never sleeps with nothing to wake it.

* `Sys.Outstanding` — a slot whose coroutine is still to be resumed.
* `Kept.accounted` — a slot is in the pool, with the running coroutine, or outstanding.
* `outstanding_of_orderly` — where the loop waits, the pool is empty and every slot is outstanding.
-/

import Fuseuring.Ring.Moves
import Fuseuring.Ring.Strays

namespace Fuseuring

open Interaction

/-- An entry or a completion that leads to this target. -/
def Sys.Leads (s : Sys) (target : UserData) : Prop :=
  (∃ entry ∈ s.sq ++ s.flight, entry.userData = some target) ∨
    ∃ cqe ∈ s.cq, cqe.userData = some target

/-- **The slot's coroutine waits for something that is on its way.** -/
def Sys.Outstanding (s : Sys) (fuseIo : FuseIo) : Prop :=
  ∃ task target awaiter, (task, fuseIo) ∈ s.vals ∧ s.awaiters target.awaiter = some awaiter ∧
    awaiter.awaiter.task = task ∧ s.Leads target

section Kept

variable {slots entries : Nat} {s : Sys} {ghost : Ghost}

theorem Kept.leads (kept : Kept slots entries s ghost) {target : UserData}
    (unhandled : target ∈ s.unhandled ghost.awaited) : s.Leads target := by
  rcases mem_unhandled.mp unhandled with completed | ⟨entry, member, tagged⟩
  · exact Or.inr completed
  · refine Or.inl ⟨entry, ?_, tagged⟩
    obtain ⟨own, split, -⟩ := kept.queues.queue
    rcases List.mem_append.mp member with flying | waiting
    · exact List.mem_append_right _ flying
    · exact List.mem_append_left _ (split ▸ List.mem_append_left _ waiting)

/-- Every awaiter counts at least one entry that is on its way. -/
theorem Kept.outstanding (kept : Kept slots entries s ghost) {waiting : Waiting}
    (listed : waiting ∈ ghost.roster) : s.Outstanding waiting.fuseIo := by
  obtain ⟨awaiter, owner, resumes⟩ := kept.roster.waits waiting listed
  obtain ⟨counted, positive⟩ := kept.queues.sound.counts _ _ owner
  rw [counted, Fuseuring.outstanding, List.countP_pos_iff] at positive
  obtain ⟨target, unhandled, named⟩ := positive
  have held : (waiting.task, waiting.fuseIo) ∈ s.vals :=
    kept.holders.shared.mem_iff.mpr (List.mem_append_right _ (List.mem_map_of_mem listed))
  rw [beq_iff_eq] at named
  exact ⟨waiting.task, target, awaiter, held, named ▸ owner, resumes.task, kept.leads unhandled⟩

/-- **No slot is lost**: it is in the pool, with the running coroutine, or outstanding. -/
theorem Kept.accounted (kept : Kept slots entries s ghost) {slot : Nat} (within : slot < slots)
    (sane : s.pc ≠ .fault) : ⟨slot⟩ ∈ s.ios ∨
      (∃ task, s.current = some task ∧ (task, ⟨slot⟩) ∈ s.vals) ∨ s.Outstanding ⟨slot⟩ := by
  have everywhere : (⟨slot⟩ : FuseIo) ∈ s.ios ++ s.vals.map Prod.snd :=
    kept.holders.pool.mem_iff.mpr (List.mem_map_of_mem (List.mem_range.mpr within))
  rcases List.mem_append.mp everywhere with pooled | held
  · exact Or.inl pooled
  obtain ⟨⟨task, fuseIo⟩, member, rfl⟩ := List.mem_map.mp held
  rcases List.mem_append.mp (kept.holders.shared.mem_iff.mp member) with inHand | waits
  · obtain ⟨named, slot, same⟩ := List.mem_map.mp inHand
    obtain ⟨rfl, rfl⟩ := Prod.mk.inj same
    exact Or.inr (Or.inl ⟨_, kept.current_of_hand sane (Option.mem_toList.mp slot), member⟩)
  · obtain ⟨waiting, listed, same⟩ := List.mem_map.mp waits
    exact Or.inr (Or.inr ((Prod.mk.inj same).2 ▸ kept.outstanding listed))

end Kept

/-! ### The pool where the loop waits -/

section Submit

variable {ring : FuseRing} {s s' : Sys} {result : SubmitResult}

/-- A `get_sqe` does not lead to the wait. -/
theorem Sys.getSqe_pc {task peek : Nat} {back : Back} {gaveUp : Bool}
    {resume : SqeRef → Thread coroutines Int} (elsewhere : s.pc ≠ .submit)
    (step : s.getSqe result task back gaveUp peek resume = some s') : s'.pc ≠ .submit := by
  obtain ⟨ringSubmit, flagged⟩ := flagged_eq s peek
  unfold Sys.getSqe at step
  rw [flagged] at step
  dsimp only at step
  split at step
  · cases step
    exact Pc.noConfusion
  · cases result with
    | ok count =>
      dsimp only at step
      split at step
      · rw [Option.some.injEq] at step
        subst step
        split
        · exact elsewhere
        · exact Pc.noConfusion
      · cases step
    | busy =>
      rw [Option.some.injEq] at step
      subst step
      split
      · exact elsewhere
      · exact Pc.noConfusion
    | failed =>
      cases step
      exact Pc.noConfusion

theorem Back.pc_ne_submit (back : Back) : back.pc ≠ .submit := by
  cases back <;> exact Pc.noConfusion

/-- No operation of a coroutine leads to the wait. -/
theorem Sys.perform_pc {task : Nat} {back : Back} {gaveUp : Bool} {op : Effect}
    {resume : op.Answer → Thread coroutines Int} (elsewhere : s.pc ≠ .submit)
    (step : s.perform result task back gaveUp op resume = some s') : s'.pc ≠ .submit := by
  cases op with
  | getSqe peek => exact Sys.getSqe_pc elsewhere step
  | getFuseIo =>
    rw [Sys.perform] at step
    split at step <;> cases step <;> exact Pc.noConfusion
  | prep ref entry =>
    cases ref <;> cases step <;> exact Pc.noConfusion
  | complete refs =>
    rw [Sys.perform] at step
    split at step <;> cases step
    · exact Pc.noConfusion
    · exact back.pc_ne_submit
  | _ =>
    cases step
    exact Pc.noConfusion

/-- The loop comes to the wait with an empty pool, and stays there with it. -/
theorem Sys.go_submit (step : s.go ring result = some s') (waits : s'.pc = .submit) :
    s'.ios = [] ∨ s.pc = .submit ∧ s'.ios = s.ios := by
  unfold Sys.go at step
  cases pc : s.pc with
  | refill =>
    rw [pc] at step
    cases pool : s.ios with
    | nil =>
      rw [pool] at step
      cases step
      exact Or.inl rfl
    | cons fuseIo rest =>
      rw [pool] at step
      cases step
      cases waits
  | running task back thread gaveUp =>
    rw [pc] at step
    dsimp only at step
    split at step
    · cases step
      exact absurd waits back.pc_ne_submit
    · cases step
      cases waits
    · exact absurd waits (Sys.perform_pc (by rw [pc]; exact Pc.noConfusion) step)
  | polling task back resume gaveUp =>
    rw [pc] at step
    dsimp only at step
    split at step <;> cases step
    · cases pc.symm.trans waits
    · cases waits
  | submit =>
    rw [pc] at step
    refine Or.inr ⟨rfl, ?_⟩
    cases result with
    | ok count =>
      dsimp only at step
      split at step <;> cases step
      rfl
    | busy =>
      rw [Option.some.injEq] at step
      subst step
      split <;> rfl
    | failed =>
      cases step
      rfl
  | pass =>
    rw [pc] at step
    dsimp only at step
    split at step
    · rw [Option.some.injEq] at step
      subst step
      dsimp only at waits
      split at waits <;> cases waits
    · split at step <;> cases step <;> cases waits
  | exited rc =>
    rw [pc] at step
    cases step
  | fault =>
    rw [pc] at step
    cases step

/-- **Where the loop waits, the pool is empty.** -/
theorem ios_of_submit {permitted : Sys → Act → Prop} {slots entries : Nat} {mem : Nat → Mem}
    (run : Sys.Reaches ring permitted (Sys.init slots entries mem) s) (pc : s.pc = .submit) :
    s.ios = [] := by
  induction run with
  | start => cases pc
  | step act _ _ step ih =>
    cases act with
    | post place res bytes =>
      rw [Sys.step, Sys.post] at step
      split at step
      · cases step
      · cases step
        exact ih pc
    | go result =>
      rcases Sys.go_submit step pc with empty | ⟨before, same⟩
      · exact empty
      · rw [same]
        exact ih before

end Submit

section Runs

variable {slots entries : Nat} {ring : FuseRing} {mem : Nat → Mem} {s : Sys}

/-- **Where the loop waits, no slot is in the pool and each has a completion to come.** -/
theorem outstanding_of_orderly
    (run : Sys.Reaches ring (fun s act => orderly s act = true) (Sys.init slots entries mem) s)
    (pc : s.pc = .submit) : s.ios = [] ∧ ∀ slot < slots, s.Outstanding ⟨slot⟩ := by
  obtain ⟨ghost, kept⟩ := kept_of_reaches (fun _ _ allowed => allowed) run
  have empty := ios_of_submit run pc
  refine ⟨empty, fun slot within => ?_⟩
  rcases kept.accounted within (by rw [pc]; exact Pc.noConfusion) with
    pooled | ⟨task, current, -⟩ | out
  · rw [empty] at pooled
    cases pooled
  · rw [Sys.current, pc] at current
    cases current
  · exact out

/-- The wait, by what the tests of a run can see. -/
theorem pc_submit (submits : s.submits = true) (idle : s.current = none) : s.pc = .submit := by
  cases pc : s.pc with
  | submit => rfl
  | running task back thread gaveUp =>
    rw [Sys.current, pc] at idle
    cases idle
  | _ =>
    rw [Sys.submits, pc] at submits
    cases submits

/-- The second wait, with the header of one request completed. -/
theorem outstanding_of_orderly_two : ∃ s : Sys, s.flight.length = 3 ∧ s.cq.length = 1 ∧
    s.ios = [] ∧ ∀ slot < 2, s.Outstanding ⟨slot⟩ := by
  have ran : (Sys.run FuseRing.small (fun s act => orderly s act = true)
      (goOn 17 ++ .go (.ok 4) :: goOn 2 ++ [.post 1 40 (List.replicate 40 7)])
      (Sys.init 2 100 fun _ => Mem.zero)).any (fun s => (s.submits && s.current.isNone) &&
        (s.flight.length == 3 && s.cq.length == 1)) = true := by
    decide +kernel
  obtain ⟨s, reached, facts⟩ := (Option.any_eq_true _ _).mp ran
  simp only [Bool.and_eq_true, beq_iff_eq, Option.isNone_iff_eq_none] at facts
  exact ⟨s, facts.2.1, facts.2.2, outstanding_of_orderly (Sys.reaches_of_run _ .start reached)
    (pc_submit facts.1.1 facts.1.2)⟩

end Runs

end Fuseuring
