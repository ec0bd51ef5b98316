/-
**The loop that takes the slots (`while(!fuse_ring.ios.empty())` of `run`).**

Each iteration takes a slot and two entries for the chain of its header. Where
the ring has fewer, `get_sqe(2)` submits it until it has them or until a submit
fails; then the coroutine gives its slot back before it ever waits, and the
loop goes on with the same pool. `last_rc` is read behind the loop only.

* `Tally` — what the loop depends on: the sizes of the pool and of both parts
  of the ring, and where the control is.
* `chained`, `refused` — the two ways of an iteration, each from its steps.
* `refill_ends` — the loop ends unless `get_sqe(2)` is refused again and again; it ends
  for all answers exactly where the ring has two entries for each slot of the pool.
-/

import Fuseuring.Ring.Strays

namespace Fuseuring

open Interaction

namespace Sys

/-- One step of the loop; `submit` is behind it. -/
def refillStep (ring : FuseRing) (s : Sys) (result : SubmitResult) : Sys :=
  match s.pc with
  | .submit => s
  | _ => (s.go ring result).getD s

/-- The loop, with the answers of its submits. -/
def refillLoop (ring : FuseRing) (results : Nat → SubmitResult) (s : Sys) : Nat → Sys
  | 0 => s
  | time + 1 => (s.refillLoop ring results time).refillStep ring (results time)

/-- The next step is the `io_uring_submit` of a `get_sqe(peek)` that finds too few entries. -/
def SubmitsFor (s : Sys) (peek : Nat) : Prop :=
  ∃ task back thread gaveUp resume, s.pc = .running task back thread gaveUp ∧
    thread.move = .performs (.getSqe peek) resume ∧ room s.free peek = none

/-- The loop ends, with an empty pool. -/
def RefillEnds (ring : FuseRing) (results : Nat → SubmitResult) (s : Sys) : Prop :=
  ∃ time, (s.refillLoop ring results time).pc = .submit ∧ (s.refillLoop ring results time).ios = []

/-- **What the submits may answer**: one that succeeds takes entries of the
ring, and `EBUSY` comes for finitely many retries in a row. -/
structure Answered (ring : FuseRing) (results : Nat → SubmitResult) (s : Sys) : Prop where
  consumes : ∀ time peek count, (s.refillLoop ring results time).SubmitsFor peek →
    results time = .ok count →
    1 ≤ count ∧ count ≤ (s.refillLoop ring results time).sq.length
  retries : ∀ time, ∃ later, time ≤ later ∧
    ∀ peek, (s.refillLoop ring results later).SubmitsFor peek → results later ≠ .busy

/-- A `get_sqe(2)` of the loop is refused: too few entries, and a submit that fails. -/
def Refused (ring : FuseRing) (results : Nat → SubmitResult) (s : Sys) (time : Nat) : Prop :=
  (s.refillLoop ring results time).SubmitsFor 2 ∧ results time = .failed

end Sys

/-! ### One step -/

/-- What the loop depends on. -/
structure Tally (s : Sys) (pool room pending : Nat) (pc : Pc) : Prop where
  ios : s.ios.length = pool
  free : s.free.length = room
  sq : s.sq.length = pending
  pc : s.pc = pc

section Steps

variable {ring : FuseRing} {result : SubmitResult} {s : Sys}
  {pool room pending task count peek : Nat} {back : Back}
  {thread next : Thread coroutines Int} {gaveUp : Bool}

/-- A coroutine is started. -/
theorem Tally.started (tally : Tally s (pool + 1) room pending .refill) :
    Tally (s.refillStep ring result) (pool + 1) room pending
      (.running s.started .refill (.start (queueReadSetRc ring)) false) := by
  obtain ⟨first, others, ios⟩ := List.exists_cons_of_length_eq_add_one tally.ios
  have step : s.refillStep ring result = { s with
      started := s.started + 1
      pc := .running s.started .refill (.start (queueReadSetRc ring)) false } := by
    simp only [Sys.refillStep, tally.pc, Sys.go, ios, Option.getD_some]
  rw [step]
  exact ⟨tally.ios, tally.free, tally.sq, rfl⟩

/-- The loop ends. -/
theorem Tally.left (tally : Tally s 0 room pending .refill) :
    Tally (s.refillStep ring result) 0 room pending .submit := by
  have ios : s.ios = [] := List.eq_nil_of_length_eq_zero tally.ios
  have step : s.refillStep ring result = { s with pc := .submit } := by
    simp only [Sys.refillStep, tally.pc, Sys.go, ios, Option.getD_some]
  rw [step]
  exact ⟨tally.ios, tally.free, tally.sq, rfl⟩

theorem Tally.turned (tally : Tally s pool room pending (.running task back thread gaveUp))
    (move : thread.move = .turned next) :
    Tally (s.refillStep ring result) pool room pending (.running task back next gaveUp) := by
  have step : s.refillStep ring result = { s with pc := .running task back next gaveUp } := by
    simp only [Sys.refillStep, tally.pc, Sys.go, move, Option.getD_some]
  rw [step]
  exact ⟨tally.ios, tally.free, tally.sq, rfl⟩

theorem Tally.ended {value : Int}
    (tally : Tally s pool room pending (.running task back thread gaveUp))
    (move : thread.move = .ended value) :
    Tally (s.refillStep ring result) pool room pending back.pc := by
  have step : s.refillStep ring result = { s with pc := back.pc } := by
    simp only [Sys.refillStep, tally.pc, Sys.go, move, Option.getD_some]
  rw [step]
  exact ⟨tally.ios, tally.free, tally.sq, rfl⟩

/-- An operation. -/
theorem refillStep_performs {op : Effect} {resume : op.Answer → Thread coroutines Int}
    (pc : s.pc = .running task back thread gaveUp) (move : thread.move = .performs op resume) :
    s.refillStep ring result = (s.perform result task back gaveUp op resume).getD s := by
  simp only [Sys.refillStep, pc, Sys.go, move]

theorem Tally.getFuseIo {resume : FuseIo → Thread coroutines Int}
    (tally : Tally s (pool + 1) room pending (.running task back thread gaveUp))
    (move : thread.move = .performs .getFuseIo resume) :
    ∃ fuseIo, Tally (s.refillStep ring result) pool room pending
      (.running task back (resume fuseIo) gaveUp) := by
  rw [refillStep_performs tally.pc move]
  have some : s.ios ≠ [] := List.ne_nil_of_length_eq_add_one tally.ios
  refine ⟨s.ios.getLast some, ?_⟩
  simp only [Sys.perform, List.getLast?_eq_some_getLast some, Option.getD_some]
  refine ⟨?_, tally.free, tally.sq, rfl⟩
  rw [List.length_dropLast, tally.ios, Nat.add_sub_cancel]

theorem Tally.releaseFuseIo {fuseIo : FuseIo} {resume : Unit → Thread coroutines Int}
    (tally : Tally s pool room pending (.running task back thread gaveUp))
    (move : thread.move = .performs (.releaseFuseIo fuseIo) resume) :
    Tally (s.refillStep ring result) (pool + 1) room pending
      (.running task back (resume ()) gaveUp) := by
  rw [refillStep_performs tally.pc move]
  refine ⟨?_, tally.free, tally.sq, rfl⟩
  show (s.ios ++ [fuseIo]).length = pool + 1
  rw [List.length_append, tally.ios, List.length_singleton]

theorem Tally.prep {index : Nat} {entry : Sqe} {resume : Unit → Thread coroutines Int}
    (tally : Tally s pool room pending (.running task back thread gaveUp))
    (move : thread.move = .performs (.prep (some index) entry) resume) :
    Tally (s.refillStep ring result) pool room pending (.running task back (resume ()) gaveUp) := by
  rw [refillStep_performs tally.pc move]
  exact ⟨tally.ios, (List.length_map _).trans tally.free, (List.length_map _).trans tally.sq, rfl⟩

theorem Tally.setLastRc {rc : Int} {resume : Unit → Thread coroutines Int}
    (tally : Tally s pool room pending (.running task back thread gaveUp))
    (move : thread.move = .performs (.setLastRc rc) resume) :
    Tally (s.refillStep ring result) pool room pending (.running task back (resume ()) gaveUp) := by
  rw [refillStep_performs tally.pc move]
  exact ⟨tally.ios, tally.free, tally.sq, rfl⟩

/-- The coroutine waits. -/
theorem Tally.complete {refs : List SqeRef} {resume : List Int → Thread coroutines Int}
    (tally : Tally s pool room pending (.running task back thread gaveUp))
    (move : thread.move = .performs (.complete refs) resume) (all : none ∉ refs) :
    Tally (s.refillStep ring result) pool room pending back.pc := by
  have sizes : ∀ (refs : List SqeRef) (targets : List UserData) (s : Sys),
      (s.tag refs targets).ios = s.ios ∧
      (s.tag refs targets).free.length = s.free.length ∧
      (s.tag refs targets).sq.length = s.sq.length := by
    intro refs
    induction refs with
    | nil => exact fun targets s => ⟨rfl, rfl, rfl⟩
    | cons ref refs ih =>
      intro targets s
      cases ref with
      | none => exact ⟨rfl, rfl, rfl⟩
      | some index =>
        cases targets with
        | nil => exact ⟨rfl, rfl, rfl⟩
        | cons target targets =>
          obtain ⟨ios, free, sq⟩ :=
            ih targets (s.amend index fun entry => { entry with userData := some target })
          exact ⟨ios, free.trans (List.length_map _), sq.trans (List.length_map _)⟩
  obtain ⟨ios, free, sq⟩ := sizes refs (IoUringAwaiter.userData s.created refs.length) s
  rw [refillStep_performs tally.pc move]
  simp only [Sys.perform, if_neg all, Option.getD_some]
  exact ⟨(congrArg List.length ios).trans tally.ios, free.trans tally.free, sq.trans tally.sq, rfl⟩

/-! ### `get_sqe` -/

theorem room_of_le {free : List SqeEntry} (enough : peek ≤ free.length)
    (positive : 0 < free.length) :
    ∃ entry rest, free = entry :: rest ∧ Sys.room free peek = some (entry, rest) := by
  obtain ⟨entry, rest, rfl⟩ := List.exists_cons_of_length_pos positive
  exact ⟨entry, rest, rfl, if_pos enough⟩

theorem room_of_lt {free : List SqeEntry} (few : free.length < peek) :
    Sys.room free peek = none := by
  cases free with
  | nil => rfl
  | cons entry rest => exact if_neg (Nat.not_le.mpr few)

section GetSqe

variable {resume : SqeRef → Thread coroutines Int}
  (tally : Tally s pool room pending (.running task back thread gaveUp))
  (move : thread.move = .performs (.getSqe peek) resume)

include tally move

/-- An entry is taken. -/
theorem Tally.taken (enough : peek ≤ room) (positive : 0 < room) :
    ∃ index, Tally (s.refillStep ring result) pool (room - 1) (pending + 1)
      (.running task back (resume (some index)) gaveUp) := by
  rw [← tally.free] at enough positive
  obtain ⟨entry, rest, free, found⟩ := room_of_le enough positive
  obtain ⟨ringSubmit, flagged⟩ := flagged_eq s peek
  have length : s.free.length = rest.length + 1 := by rw [free, List.length_cons]
  refine ⟨entry.index, ?_⟩
  rw [refillStep_performs tally.pc move]
  simp only [Sys.perform, Sys.getSqe, flagged, found, Option.getD_some]
  refine ⟨tally.ios, ?_, ?_, rfl⟩
  · show rest.length = room - 1
    rw [← tally.free, length, Nat.add_sub_cancel]
  · show (s.sq ++ [_]).length = pending + 1
    rw [List.length_append, tally.sq, List.length_singleton]

theorem Tally.submitsFor (few : room < peek) : s.SubmitsFor peek :=
  ⟨task, back, thread, gaveUp, resume, tally.pc, move, room_of_lt (tally.free.trans_lt few)⟩

/-- The ring is submitted, and `get_sqe(peek)` tries again. -/
theorem Tally.submitted (few : room < peek) (several : 1 < peek) (within : count ≤ pending) :
    Tally (s.refillStep ring (.ok count)) pool (room + count) (pending - count)
      (.running task back thread gaveUp) := by
  have within' : count ≤ s.sq.length := within.trans_eq tally.sq.symm
  rw [refillStep_performs tally.pc move]
  simp only [Sys.perform, Sys.getSqe, if_pos several, room_of_lt (tally.free.trans_lt few),
    if_pos within',
    Option.getD_some]
  refine ⟨tally.ios, ?_, ?_, tally.pc⟩
  · show (s.free ++ s.sq.take count).length = room + count
    rw [List.length_append, List.length_take_of_le within', tally.free]
  · show (s.sq.drop count).length = pending - count
    rw [List.length_drop, tally.sq]

/-- `EBUSY`, and `get_sqe(peek)` tries again. -/
theorem Tally.retried (few : room < peek) (several : 1 < peek) :
    Tally (s.refillStep ring .busy) pool room pending (.running task back thread gaveUp) := by
  rw [refillStep_performs tally.pc move]
  simp only [Sys.perform, Sys.getSqe, if_pos several, room_of_lt (tally.free.trans_lt few),
    Option.getD_some]
  exact tally

/-- The submit fails, or `get_sqe()` is answered with `EBUSY`. -/
theorem Tally.missed (few : room < peek) (fails : result = .failed ∨ result = .busy ∧ peek ≤ 1) :
    Tally (s.refillStep ring result) pool room pending (.running task back (resume none) true) := by
  obtain ⟨ringSubmit, flagged⟩ := flagged_eq s peek
  rw [refillStep_performs tally.pc move]
  rcases fails with rfl | ⟨rfl, single⟩
  · simp only [Sys.perform, Sys.getSqe, flagged, room_of_lt (tally.free.trans_lt few),
      Option.getD_some]
    exact ⟨tally.ios, tally.free, tally.sq, rfl⟩
  · simp only [Sys.perform, Sys.getSqe, if_neg (Nat.not_lt.mpr single),
      room_of_lt (tally.free.trans_lt few),
      Option.getD_some]
    exact ⟨tally.ios, tally.free, tally.sq, rfl⟩

/-- `get_sqe()` waits for an entry. -/
theorem Tally.polls (few : room < peek) (single : peek ≤ 1) (within : count ≤ pending) :
    Tally (s.refillStep ring (.ok count)) pool (room + count) (pending - count)
      (.polling task back resume gaveUp) := by
  have within' : count ≤ s.sq.length := within.trans_eq tally.sq.symm
  rw [refillStep_performs tally.pc move]
  simp only [Sys.perform, Sys.getSqe, if_neg (Nat.not_lt.mpr single),
    room_of_lt (tally.free.trans_lt few),
    if_pos within', Option.getD_some]
  refine ⟨tally.ios, ?_, ?_, rfl⟩
  · show (s.free ++ s.sq.take count).length = room + count
    rw [List.length_append, List.length_take_of_le within', tally.free]
  · show (s.sq.drop count).length = pending - count
    rw [List.length_drop, tally.sq]

end GetSqe

theorem Tally.polled {resume : SqeRef → Thread coroutines Int}
    (tally : Tally s pool (room + 1) pending (.polling task back resume gaveUp)) :
    ∃ index, Tally (s.refillStep ring result) pool room (pending + 1)
      (.running task back (resume (some index)) gaveUp) := by
  have positive : 0 < s.free.length := Nat.lt_of_lt_of_eq (Nat.succ_pos room) tally.free.symm
  obtain ⟨entry, rest, free, found⟩ := room_of_le positive positive
  have length : s.free.length = rest.length + 1 := by rw [free, List.length_cons]
  have step : s.refillStep ring result =
      { s.take entry rest with pc := .running task back (resume (some entry.index)) gaveUp } := by
    simp only [Sys.refillStep, tally.pc, Sys.go, found, Option.getD_some]
  refine ⟨entry.index, ?_⟩
  rw [step]
  refine ⟨tally.ios, ?_, ?_, rfl⟩
  · show rest.length = room
    exact Nat.succ_injective (length.symm.trans tally.free)
  · show (s.sq ++ [_]).length = pending + 1
    rw [List.length_append, tally.sq, List.length_singleton]

end Steps

/-! ### The coroutine of an iteration -/

/-- `queue_read_set_rc` behind `queue_fuse_read`. -/
def setRc (rc : Int) : Coro Int := do
  if rc ≠ 0 then setLastRc rc
  return rc

/-- A part of `queue_fuse_read`, in the coroutine that the loop started. -/
def reading (fuseIo : FuseIo) (program : Coro Int) : Thread coroutines Int where
  Result := Int
  program := do
    let rc ← program
    releaseFuseIo fuseIo
    return rc
  stack := .push setRc .bottom

/-- What `queue_fuse_read` does with the entries of its header. -/
theorem queueFuseReadBody_chain (ring : FuseRing) (fuseIo : FuseIo) :
    ∃ chain : SqeRef → SqeRef → Coro Int,
    queueFuseReadBody ring fuseIo = (getSqe 2 >>= fun sqe1 => getSqe 1 >>=
      fun sqe2 => chain sqe1 sqe2) ∧
      (∀ sqe2, chain none sqe2 = pure (-1)) ∧
      ∀ index index', ∃ entry entry' rest, chain (some index) (some index') =
        Program.perform (S := coroutines) (.prep (some index) entry) fun _ =>
          Program.perform (S := coroutines) (.prep (some index') entry') fun _ =>
            Program.perform (S := coroutines) (.complete [some index, some index']) rest := by
  refine ⟨_, rfl, fun sqe2 => if_pos (Or.inl rfl), fun index index' => ?_⟩
  have taken : ¬ ((some index : SqeRef) = none ∨ (some index' : SqeRef) = none) := by simp
  exact ⟨_, _, _, if_neg taken⟩

/-- In front of `get_sqe(2)`, with the slot taken. -/
def AtFirst (ring : FuseRing) (s : Sys) (pool room pending : Nat) : Prop :=
  ∃ task fuseIo gaveUp,
    Tally s pool room pending (.running task .refill
      (reading fuseIo (queueFuseReadBody ring fuseIo)) gaveUp)

/-- In front of `get_sqe()`, behind a `get_sqe(2)` that gave up. -/
def AtSecond (s : Sys) (pool room pending : Nat) : Prop :=
  ∃ task fuseIo gaveUp next, (∀ sqe2, next sqe2 = pure (-1)) ∧
    Tally s pool room pending (.running task .refill (reading fuseIo (getSqe 1 >>= next)) gaveUp)

section Iteration

variable {ring : FuseRing} {results : Nat → SubmitResult} {s : Sys}
  {time pool room pending count : Nat}

/-- A slot is taken. -/
theorem Tally.enter (tally : Tally (s.refillLoop ring results time)
    (pool + 1) room pending .refill) :
    AtFirst ring (s.refillLoop ring results (time + 3)) pool room pending := by
  have started : Tally (s.refillLoop ring results (time + 1)) _ _ _ _ := tally.started
  have called : Tally (s.refillLoop ring results (time + 2)) _ _ _ _ := started.turned rfl
  have taken : ∃ fuseIo, Tally (s.refillLoop ring results (time + 3)) _ _ _ _ :=
    called.getFuseIo rfl
  obtain ⟨fuseIo, tally⟩ := taken
  exact ⟨_, fuseIo, _, tally⟩

/-- **The chain of the header is queued**, and the coroutine waits. -/
theorem AtFirst.chained (first : AtFirst ring (s.refillLoop ring results time) pool room pending)
    (enough : 2 ≤ room) :
    Tally (s.refillLoop ring results (time + 5)) pool (room - 2) (pending + 2) .refill := by
  obtain ⟨task, fuseIo, gaveUp, tally⟩ := first
  obtain ⟨chain, body, -, queued⟩ := queueFuseReadBody_chain ring fuseIo
  rw [body] at tally
  have taken : ∃ index, Tally (s.refillLoop ring results (time + 1)) _ _ _
      (.running task .refill (reading fuseIo (getSqe 1 >>= fun sqe2 => chain
        (some index) sqe2)) gaveUp) :=
    tally.taken rfl enough (by omega)
  obtain ⟨index, tally⟩ := taken
  have taken : ∃ index', Tally (s.refillLoop ring results (time + 2)) _ _ _
      (.running task .refill (reading fuseIo (chain (some index) (some index'))) gaveUp) :=
    tally.taken rfl (by omega) (by omega)
  obtain ⟨index', tally⟩ := taken
  obtain ⟨entry, entry', rest, chained⟩ := queued index index'
  rw [chained] at tally
  have prepared : Tally (s.refillLoop ring results (time + 3)) _ _ _ _ := tally.prep rfl
  have prepared' : Tally (s.refillLoop ring results (time + 4)) _ _ _ _ := prepared.prep rfl
  have waits : Tally (s.refillLoop ring results (time + 5)) _ _ _ _ :=
    prepared'.complete rfl (by simp)
  exact waits

/-- `get_sqe(2)` gives up. -/
theorem AtFirst.refused (first : AtFirst ring (s.refillLoop ring results time) pool room pending)
    (few : room < 2)
    (fails : results time = .failed) :
    s.Refused ring results time ∧
    AtSecond (s.refillLoop ring results (time + 1)) pool room pending := by
  obtain ⟨task, fuseIo, gaveUp, tally⟩ := first
  obtain ⟨chain, body, missing, -⟩ := queueFuseReadBody_chain ring fuseIo
  rw [body] at tally
  refine ⟨⟨tally.submitsFor rfl few, fails⟩, task, fuseIo, true,
    fun sqe2 => chain none sqe2, missing, ?_⟩
  exact tally.missed rfl few (Or.inl fails)

theorem AtFirst.submitsFor (first : AtFirst ring (s.refillLoop ring results time) pool room pending)
    (few : room < 2) :
    (s.refillLoop ring results time).SubmitsFor 2 := by
  obtain ⟨task, fuseIo, gaveUp, tally⟩ := first
  exact tally.submitsFor rfl few

/-- `get_sqe(2)` tries again. -/
theorem AtFirst.retried (first : AtFirst ring (s.refillLoop ring results time) pool room pending)
    (few : room < 2)
    (busy : results time = .busy) :
    AtFirst ring (s.refillLoop ring results (time + 1)) pool room pending := by
  obtain ⟨task, fuseIo, gaveUp, tally⟩ := first
  refine ⟨task, fuseIo, gaveUp, ?_⟩
  rw [Sys.refillLoop, busy]
  exact tally.retried rfl few (by decide)

theorem AtFirst.submitted (first : AtFirst ring (s.refillLoop ring results time) pool room pending)
    (few : room < 2)
    (ok : results time = .ok count) (within : count ≤ pending) :
    AtFirst ring (s.refillLoop ring results (time + 1)) pool (room + count) (pending - count) := by
  obtain ⟨task, fuseIo, gaveUp, tally⟩ := first
  refine ⟨task, fuseIo, gaveUp, ?_⟩
  rw [Sys.refillLoop, ok]
  exact tally.submitted rfl few (by decide) within

/-- The coroutine gives its slot back and ends. -/
theorem Tally.leave {task : Nat} {fuseIo : FuseIo} {gaveUp : Bool}
    (tally : Tally (s.refillLoop ring results time) pool room pending
      (.running task .refill (reading fuseIo (pure (-1))) gaveUp)) :
    Tally (s.refillLoop ring results (time + 4)) (pool + 1) room pending .refill := by
  have released : Tally (s.refillLoop ring results (time + 1)) _ _ _ _ := tally.releaseFuseIo rfl
  have returned : Tally (s.refillLoop ring results (time + 2)) _ _ _ _ := released.turned rfl
  have recorded : Tally (s.refillLoop ring results (time + 3)) _ _ _ _ := returned.setLastRc rfl
  have ended : Tally (s.refillLoop ring results (time + 4)) _ _ _ _ := recorded.ended rfl
  exact ended

/-- **The slot is back in the pool**, where `get_sqe()` finds an entry. -/
theorem AtSecond.taken (second : AtSecond (s.refillLoop ring results time) pool room pending)
    (some : 0 < room) :
    Tally (s.refillLoop ring results (time + 5)) (pool + 1) (room - 1) (pending + 1) .refill := by
  obtain ⟨task, fuseIo, gaveUp, next, missing, tally⟩ := second
  have taken : ∃ index : Nat, Tally (s.refillLoop ring results (time + 1)) _ _ _
      (.running task .refill (reading fuseIo (next (Option.some index))) gaveUp) :=
        tally.taken rfl some some
  obtain ⟨index, tally⟩ := taken
  rw [missing] at tally
  exact tally.leave

/-- The same where it does not. -/
theorem AtSecond.missed (second : AtSecond (s.refillLoop ring results time) pool 0 pending)
    (fails : results time = .failed ∨ results time = .busy) :
    Tally (s.refillLoop ring results (time + 5)) (pool + 1) 0 pending .refill := by
  obtain ⟨task, fuseIo, gaveUp, next, missing, tally⟩ := second
  have gone : Tally (s.refillLoop ring results (time + 1)) _ _ _
      (.running task .refill (reading fuseIo (next none)) true) :=
    tally.missed rfl (by decide) (fails.imp_right fun busy => ⟨busy, by decide⟩)
  rw [missing] at gone
  exact gone.leave

/-- The same behind a submit. -/
theorem AtSecond.submitted (second : AtSecond (s.refillLoop ring results time) pool 0 pending)
    (ok : results time = .ok (count + 1)) (within : count + 1 ≤ pending) :
    Tally (s.refillLoop ring results (time + 6)) (pool + 1) count
      (pending - (count + 1) + 1) .refill := by
  obtain ⟨task, fuseIo, gaveUp, next, missing, tally⟩ := second
  have polls : Tally (s.refillLoop ring results (time + 1)) pool (0 + (count + 1))
      (pending - (count + 1))
      (.polling task .refill (fun sqe2 => reading fuseIo (next sqe2)) gaveUp) := by
    rw [Sys.refillLoop, ok]
    exact tally.polls rfl (by decide) (by decide) within
  rw [Nat.zero_add] at polls
  have taken : ∃ index : Nat, Tally (s.refillLoop ring results (time + 2)) _ _ _
      (.running task .refill (reading fuseIo (next (some index))) gaveUp) := polls.polled
  obtain ⟨index, tally⟩ := taken
  rw [missing] at tally
  exact tally.leave

/-! ### One iteration -/

/-- `EBUSY` is over after finitely many retries, by induction on the time until then. -/
theorem AtFirst.wait (answered : s.Answered ring results) (few : room < 2)
    (first : AtFirst ring (s.refillLoop ring results time) pool room pending) :
    ∃ later, time ≤ later ∧ AtFirst ring (s.refillLoop ring results later) pool room pending ∧
      results later ≠ .busy := by
  obtain ⟨later, reached, calm⟩ := answered.retries time
  obtain ⟨rest, rfl⟩ := Nat.exists_eq_add_of_le reached
  clear reached
  induction rest generalizing time with
  | zero => exact ⟨time, le_rfl, first, calm 2 (first.submitsFor few)⟩
  | succ rest ih =>
    by_cases busy : results time = .busy
    rotate_left
    · exact ⟨time, le_rfl, first, busy⟩
    rw [show time + (rest + 1) = time + 1 + rest by omega] at calm
    obtain ⟨later, reached, waiting⟩ := ih (first.retried few busy) calm
    exact ⟨later, by omega, waiting⟩

/-- **`get_sqe(2)`** finds its entries, by induction on the entries that are
missing, or is refused. -/
theorem AtFirst.settle (answered : s.Answered ring results) (size : 2 ≤ room + pending)
    (first : AtFirst ring (s.refillLoop ring results time) pool room pending) :
    (∃ later room' pending', time ≤ later ∧ room' + pending' = room + pending ∧ 2 ≤ room' ∧
        AtFirst ring (s.refillLoop ring results later) pool room' pending') ∨
      ∃ later room' pending', time ≤ later ∧ room' + pending' = room + pending ∧ room' < 2 ∧
        s.Refused ring results later ∧
        AtSecond (s.refillLoop ring results (later + 1)) pool room' pending' := by
  induction missing : 2 - room using Nat.strong_induction_on generalizing time room pending with
  | _ missing ih =>
    by_cases enough : 2 ≤ room
    · exact Or.inl ⟨time, room, pending, le_rfl, rfl, enough, first⟩
    have few : room < 2 := Nat.not_le.mp enough
    obtain ⟨later, reached, waiting, notBusy⟩ := first.wait answered few
    cases answer : results later with
    | busy => exact absurd answer notBusy
    | failed =>
      obtain ⟨refused, second⟩ := waiting.refused few answer
      exact Or.inr ⟨later, room, pending, reached, rfl, few, refused, second⟩
    | ok count =>
      obtain ⟨positive, within⟩ := answered.consumes later 2 count (waiting.submitsFor few) answer
      have within : count ≤ pending := by
        obtain ⟨task, fuseIo, gaveUp, tally⟩ := waiting
        exact within.trans_eq tally.sq
      rcases ih (2 - (room + count)) (by omega) (by omega)
        (waiting.submitted few answer within) rfl with
        ⟨last, room', pending', later', size', rest⟩ | ⟨last, room', pending', later', size', rest⟩
      · exact Or.inl ⟨last, room', pending', by omega, by omega, rest⟩
      · exact Or.inr ⟨last, room', pending', by omega, by omega, rest⟩

/-- **Behind a refusal the pool is as it was**, whatever `get_sqe()` is answered. -/
theorem AtSecond.back (answered : s.Answered ring results) (few : room < 2)
    (second : AtSecond (s.refillLoop ring results time) pool room pending) :
    ∃ later room' pending', time < later ∧ room' + pending' = room + pending ∧
      Tally (s.refillLoop ring results later) (pool + 1) room' pending' .refill := by
  by_cases some : 0 < room
  · exact ⟨time + 5, room - 1, pending + 1, by omega, by omega, second.taken some⟩
  obtain rfl := Nat.eq_zero_of_not_pos some
  have submits : (s.refillLoop ring results time).SubmitsFor 1 ∧
      (s.refillLoop ring results time).sq.length = pending := by
    obtain ⟨task, fuseIo, gaveUp, next, missing, tally⟩ := second
    exact ⟨tally.submitsFor rfl (by decide), tally.sq⟩
  cases answer : results time with
  | busy => exact ⟨time + 5, 0, pending, by omega, rfl, second.missed (Or.inr answer)⟩
  | failed => exact ⟨time + 5, 0, pending, by omega, rfl, second.missed (Or.inl answer)⟩
  | ok count =>
    obtain ⟨positive, within⟩ := answered.consumes time 1 count submits.1 answer
    rw [submits.2] at within
    obtain ⟨left, rfl⟩ := Nat.exists_eq_add_of_le' positive
    exact ⟨time + 6, left, pending - (left + 1) + 1, by omega, by omega,
      second.submitted answer within⟩

/-- **One iteration**: the pool is smaller, or a `get_sqe(2)` was refused. -/
theorem Tally.iteration (answered : s.Answered ring results) (size : 2 ≤ room + pending)
    (tally : Tally (s.refillLoop ring results time) (pool + 1) room pending .refill) :
    ∃ later room' pending', time < later ∧ room' + pending' = room + pending ∧
      (Tally (s.refillLoop ring results later) pool room' pending' .refill ∨
        Tally (s.refillLoop ring results later) (pool + 1) room' pending' .refill ∧
          ∃ refusal, time ≤ refusal ∧ s.Refused ring results refusal) := by
  rcases tally.enter.settle answered size with
    ⟨later, room', pending', reached, size', enough, first⟩ | ⟨later, room', pending', reached,
      size', few, refused, second⟩
  · exact ⟨later + 5, room' - 2, pending' + 2, by omega, by omega, Or.inl (first.chained enough)⟩
  · obtain ⟨last, room'', pending'', reached', size'', back⟩ := second.back answered few
    exact ⟨last, room'', pending'', by omega, by omega, Or.inr ⟨back, later, by omega, refused⟩⟩

/-! ### The loop -/

theorem Tally.ends (tally : Tally (s.refillLoop ring results time) 0 room pending .refill) :
    s.RefillEnds ring results := by
  have left : Tally (s.refillLoop ring results (time + 1)) _ _ _ _ := tally.left
  exact ⟨time + 1, left.pc, List.eq_nil_of_length_eq_zero left.ios⟩

/-- Without refusals from some time on, by induction on the pool. -/
theorem Tally.ends_of_quiet (answered : s.Answered ring results) (size : 2 ≤ room + pending)
    (quiet : ∀ later, time ≤ later → ¬ s.Refused ring results later)
    (tally : Tally (s.refillLoop ring results time) pool room pending .refill) :
    s.RefillEnds ring results := by
  induction pool generalizing time room pending with
  | zero => exact tally.ends
  | succ pool ih =>
    obtain ⟨later, room', pending', reached, size', smaller | ⟨-, refusal, after, refused⟩⟩ :=
      tally.iteration answered size
    · exact ih (by omega) (fun last between => quiet last (by omega)) smaller
    · exact absurd refused (quiet refusal after)

/-- **The loop ends if it is not refused again and again**, by induction on the
time until the last refusal. -/
theorem Tally.ends_of_finite {limit : Nat} (answered : s.Answered ring results)
    (size : 2 ≤ room + pending)
    (quiet : ∀ later, limit ≤ later → ¬ s.Refused ring results later)
    (tally : Tally (s.refillLoop ring results time) pool room pending .refill) :
    s.RefillEnds ring results := by
  induction left : limit - time using Nat.strong_induction_on generalizing time pool
    room pending with
  | _ left ih =>
    by_cases beyond : limit ≤ time
    · exact tally.ends_of_quiet answered size fun later after => quiet later (by omega)
    cases pool with
    | zero => exact tally.ends
    | succ pool =>
      obtain ⟨later, room', pending', reached, size', smaller | ⟨same, -⟩⟩ :=
        tally.iteration answered size
      · exact ih (limit - later) (by omega) (by omega) smaller rfl
      · exact ih (limit - later) (by omega) (by omega) same rfl

/-- With room for all chains no submit is made, by induction on the pool. -/
theorem Tally.ends_of_room (enough : 2 * pool ≤ room)
    (tally : Tally (s.refillLoop ring results time) pool room pending .refill) :
    s.RefillEnds ring results := by
  induction pool generalizing time room pending with
  | zero => exact tally.ends
  | succ pool ih => exact ih (by omega) (tally.enter.chained (by omega))

/-- Where every submit fails, the room stays too small for the pool. -/
theorem Tally.again (fails : ∀ time, results time = .failed) (small : room < 2 * pool)
    (tally : Tally (s.refillLoop ring results time) pool room pending .refill) :
    ∃ later pool' room' pending', time < later ∧ room' < 2 * pool' ∧
      Tally (s.refillLoop ring results later) pool' room' pending' .refill := by
  cases pool with
  | zero => omega
  | succ pool =>
    by_cases enough : 2 ≤ room
    · exact ⟨_, pool, room - 2, pending + 2, by omega, by omega, tally.enter.chained enough⟩
    have few : room < 2 := Nat.not_le.mp enough
    obtain ⟨-, second⟩ := tally.enter.refused few (fails _)
    by_cases some : 0 < room
    · exact ⟨_, pool + 1, room - 1, pending + 1, by omega, by omega, second.taken some⟩
    · obtain rfl := Nat.eq_zero_of_not_pos some
      exact ⟨_, pool + 1, 0, pending, by omega, by omega, second.missed (Or.inl (fails _))⟩

/-- What is behind the loop stays there. -/
theorem refillLoop_left {later : Nat} (left : (s.refillLoop ring results time).pc = .submit)
    (after : time ≤ later) :
    (s.refillLoop ring results later).pc = .submit := by
  induction later, after using Nat.le_induction with
  | base => exact left
  | succ later _ ih =>
    rw [Sys.refillLoop, Sys.refillStep, ih]
    exact ih

/-- **The loop does not end** where the ring has too few entries and every submit fails. -/
theorem Tally.endless (fails : ∀ time, results time = .failed) (small : room < 2 * pool)
    (tally : Tally s pool room pending .refill) : ¬ s.RefillEnds ring results := by
  have on : ∀ time, ∃ later pool' room' pending', time ≤ later ∧ room' < 2 * pool' ∧
      Tally (s.refillLoop ring results later) pool' room' pending' .refill := by
    intro time
    induction time with
    | zero => exact ⟨0, pool, room, pending, le_rfl, small, tally⟩
    | succ time ih =>
      obtain ⟨later, _, _, _, reached, small', tally'⟩ := ih
      obtain ⟨last, pool', room', pending', after, small'', tally''⟩ := tally'.again fails small'
      exact ⟨last, pool', room', pending', by omega, small'', tally''⟩
  rintro ⟨time, left, -⟩
  obtain ⟨later, _, _, _, reached, -, tally'⟩ := on time
  have impossible := (refillLoop_left left reached).symm.trans tally'.pc
  cases impossible

/-- Submits that all fail are possible answers. -/
theorem answered_failed (ring : FuseRing) (s : Sys) : s.Answered ring fun _ => .failed where
  consumes := fun _ _ _ _ impossible => SubmitResult.noConfusion impossible
  retries := fun time => ⟨time, le_rfl, fun _ _ impossible => SubmitResult.noConfusion impossible⟩

end Iteration

/-! ### The exact conditions -/

/-- **The loop ends exactly if its `get_sqe(2)` is not refused again and again, and it ends
for all answers exactly where the ring has two entries for each slot of the pool.** -/
theorem refill_ends (ring : FuseRing) (s : Sys) (start : s.pc = .refill)
    (size : 2 ≤ s.free.length + s.sq.length) :
    (∀ results, s.Answered ring results →
      (s.RefillEnds ring results ↔ ∃ limit, ∀ time, limit ≤ time → ¬ s.Refused ring results time)) ∧
    ((∀ results, s.Answered ring results → s.RefillEnds ring results) ↔
      2 * s.ios.length ≤ s.free.length) := by
  have tally : Tally s s.ios.length s.free.length s.sq.length .refill := ⟨rfl, rfl, rfl, start⟩
  refine ⟨fun results answered => ⟨?_, ?_⟩, ?_, fun enough results _ => ?_⟩
  · rintro ⟨limit, left, -⟩
    refine ⟨limit, fun time after refused => ?_⟩
    obtain ⟨⟨task, back, thread, gaveUp, resume, pc, -⟩, -⟩ := refused
    have impossible := (refillLoop_left left after).symm.trans pc
    cases impossible
  · rintro ⟨limit, quiet⟩
    have begun : Tally (s.refillLoop ring results 0) s.ios.length s.free.length s.sq.length
        .refill := tally
    exact begun.ends_of_finite answered size quiet
  · intro ends
    by_contra small
    exact tally.endless (fun _ => rfl) (Nat.not_le.mp small) (ends _ (answered_failed ring s))
  · have begun : Tally (s.refillLoop ring results 0) s.ios.length s.free.length s.sq.length
        .refill := tally
    exact begun.ends_of_room enough

/-- The first loop over 64 slots, with submits that all fail. -/
theorem refill_ends_64 : (Sys.init 64 128 fun _ => Mem.zero).RefillEnds FuseRing.small
    fun _ => .failed := by
  have size : 2 ≤ (Sys.init 64 128 fun _ => Mem.zero).free.length +
      (Sys.init 64 128 fun _ => Mem.zero).sq.length := by
    simp [Sys.init]
  have enough : 2 * (Sys.init 64 128 fun _ => Mem.zero).ios.length ≤
      (Sys.init 64 128 fun _ => Mem.zero).free.length := by
    simp [Sys.init]
  exact (refill_ends FuseRing.small (Sys.init 64 128 fun _ => Mem.zero) rfl size).2.mpr enough _
    (answered_failed _ _)

/-! ### A loop without end -/

/-- **A loop that does not end**: 44 slots, a ring with one free entry when the
first slot comes back, and submits that fail from then on. -/
theorem refill_endless : ∃ s, Sys.Reaches FuseRing.small (fun _ _ => True)
    (Sys.init 44 (sqEntries 44) fun _ => Mem.zero) s ∧
    s.pc = .refill ∧ ∃ results, s.Answered FuseRing.small results ∧
    ¬ s.RefillEnds FuseRing.small results := by
  have ran : (Sys.run FuseRing.small (fun _ _ => True) (strayActs.take 1148)
      (Sys.init 44 128 fun _ => Mem.zero)).any
      (fun s => (match s.pc with
        | .refill => true
        | _ => false) && decide (s.free.length < 2 * s.ios.length)) = true := by
    decide +kernel
  obtain ⟨s, reached, facts⟩ := (Option.any_eq_true _ _).mp ran
  rw [Bool.and_eq_true, decide_eq_true_iff] at facts
  obtain ⟨there, small⟩ := facts
  have start : s.pc = .refill := by
    split at there
    · assumption
    · cases there
  have tally : Tally s s.ios.length s.free.length s.sq.length .refill := ⟨rfl, rfl, rfl, start⟩
  rw [sqEntries_44]
  exact ⟨s, Sys.reaches_of_run _ .start reached, start, _, answered_failed FuseRing.small s,
    tally.endless (fun _ => rfl) small⟩

end Fuseuring
