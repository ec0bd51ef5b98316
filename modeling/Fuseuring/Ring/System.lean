/-
**The event loop over the ring (`fuse_io_context::run`).**

A `Sys` is everything one thread of the program shares with the kernel: the free
slots, the submission ring, the entries the kernel works on, the completion queue, the
awaiters, and where the control is. `go` is the program's next step, one operation,
call or return of a coroutine or one turn of a loop at a time; it ends where the
program waits for the kernel. `post` is a completion, which may come at any time.

Every answer of `io_uring_submit` is open: it may take any number of the
entries in the ring, in their order, or fail with or without `EBUSY`.
-/

import Fuseuring.QueueFuseRead
import Fuseuring.Library.Thread
import Fuseuring.Ring.Awaiter
import Mathlib.Data.Nat.Log

namespace Fuseuring

open Interaction

/-! ### The state -/

/-- An entry of the submission ring: its place, what was prepared in it since it was
last taken, and its `user_data`, which `get_sqe` leaves as the last use set it. -/
structure SqeEntry where
  index : Nat
  sqe : Option Sqe
  userData : Option UserData
deriving DecidableEq

/-- A coroutine at a `co_await io.complete(..)`: the one that `run` started, and how it goes on. -/
structure Suspended where
  task : Nat
  resume : List Int → Thread coroutines Int

/-- Who resumed the running coroutine: the loop that takes slots, or the pass
over the completions. -/
inductive Back
  | refill
  | pass
deriving DecidableEq, Repr

/-- Where the control is. `polling` is the loop at the end of `get_sqe()`.
`gaveUp` records that a `get_sqe` was answered with `nullptr` since the
coroutine last ran on; the program does not look at it. -/
inductive Pc
  | refill
  | running (task : Nat) (back : Back) (thread : Thread coroutines Int) (gaveUp : Bool)
  | polling (task : Nat) (back : Back) (resume : SqeRef → Thread coroutines Int) (gaveUp : Bool)
  | submit
  | pass
  | exited (rc : Int)
  | fault

/-- Where the control goes when the running coroutine waits or ends. -/
def Back.pc : Back → Pc
  | .refill => .refill
  | .pass => .pass

/-- The state of a thread. `vals` are the slots of the live coroutines, `sq` are the taken
entries of the ring from its head on, `cq` the completions that are not handled, and
`handled` counts those of this pass that `io_uring_cq_advance` has still to release. -/
structure Sys where
  ios : List FuseIo
  vals : List (Nat × FuseIo)
  mem : Nat → Mem
  free : List SqeEntry
  sq : List SqeEntry
  flight : List SqeEntry
  cq : List Cqe
  handled : Nat
  awaiters : Nat → Option (IoUringAwaiter Suspended)
  created : Nat
  started : Nat
  ringSubmit : Bool
  lastRc : Int
  pc : Pc

/-- What `io_uring_submit` returns: how many entries it took, `EBUSY`, or another error. -/
inductive SubmitResult
  | ok (count : Nat)
  | busy
  | failed
deriving DecidableEq, Repr

/-- What happens next: the kernel completes the entry at a place, or the
program goes on, with the answer in case it submits. -/
inductive Act
  | post (place : Nat) (res : Int) (bytes : List UInt8)
  | go (result : SubmitResult)

/-- The ring that `io_uring_queue_init_params(std::max(100, max_fuse_ios*2), ..)` sets up. -/
def sqEntries (maxFuseIos : Nat) : Nat := 2 ^ Nat.clog 2 (max 100 (maxFuseIos * 2))

namespace Sys

/-- `run` before its first step. -/
def init (maxFuseIos entries : Nat) (mem : Nat → Mem) : Sys where
  ios := (List.range maxFuseIos).map FuseIo.mk
  vals := []
  mem := mem
  free := (List.range entries).map fun index => ⟨index, none, none⟩
  sq := []
  flight := []
  cq := []
  handled := 0
  awaiters := fun _ => none
  created := 0
  started := 0
  ringSubmit := false
  lastRc := 0
  pc := .refill

/-! ### The submission ring -/

/-- The next entry, if `peek` are free. -/
def room (free : List SqeEntry) (peek : Nat) : Option (SqeEntry × List SqeEntry) :=
  match free with
  | [] => none
  | entry :: rest => if peek ≤ rest.length + 1 then some (entry, rest) else none

/-- An entry is taken. -/
def take (s : Sys) (entry : SqeEntry) (rest : List SqeEntry) : Sys :=
  { s with free := rest, sq := s.sq ++ [{ entry with sqe := none }] }

/-- `io_uring_submit` takes `count` entries. -/
def consume (s : Sys) (count : Nat) : Sys :=
  { s with
    free := s.free ++ s.sq.take count
    sq := s.sq.drop count
    flight := s.flight ++ s.sq.take count }

/-- A pointer to an entry is written through. -/
def amend (s : Sys) (index : Nat) (change : SqeEntry → SqeEntry) : Sys :=
  { s with
    sq := s.sq.map fun entry => if entry.index = index then change entry else entry
    free := s.free.map fun entry => if entry.index = index then change entry else entry }

/-- The constructor of `IoUringAwaiter` gives each of its entries its `user_data`. -/
def tag (s : Sys) : List SqeRef → List UserData → Sys
  | some index :: refs, target :: targets =>
    (s.amend index fun entry => { entry with userData := some target }).tag
      refs targets
  | _, _ => s

/-! ### The program -/

/-- `get_sqe(peek)`. Only the branch without a count sets `ring_submit`, and
only the branch with a count tries again after `EBUSY`. -/
def getSqe (s : Sys) (result : SubmitResult) (task : Nat) (back : Back) (gaveUp : Bool) (peek : Nat)
    (resume : SqeRef → Thread coroutines Int) : Option Sys :=
  let s := if peek > 1 then s else { s with ringSubmit := true }
  match room s.free peek with
  | some (entry, rest) =>
    some { s.take entry rest with pc := .running task back (resume (some entry.index)) gaveUp }
  | none =>
    match result with
    | .ok count =>
      if count ≤ s.sq.length then
        some (if peek > 1 then s.consume count
          else { s.consume count with pc := .polling task back resume gaveUp })
      else none
    | .busy =>
      some (if peek > 1 then s else { s with pc := .running task back (resume none) true })
    | .failed => some { s with pc := .running task back (resume none) true }

/-- An operation of the running coroutine. A null entry that is used, and a slot
taken from an empty pool, are the ends of the program that `fault` stands for. -/
def perform (s : Sys) (result : SubmitResult) (task : Nat) (back : Back)
    (gaveUp : Bool) (op : Effect)
    (resume : op.Answer → Thread coroutines Int) : Option Sys :=
  match op, resume with
  | .getFuseIo, resume =>
    match s.ios.getLast? with
    | none => some { s with pc := .fault }
    | some fuseIo =>
      some { s with
        ios := s.ios.dropLast
        vals := s.vals ++ [(task, fuseIo)]
        pc := .running task back (resume fuseIo) gaveUp }
  | .releaseFuseIo fuseIo, resume =>
    some { s with
      ios := s.ios ++ [fuseIo]
      vals := s.vals.erase (task, fuseIo)
      pc := .running task back (resume ()) gaveUp }
  | .load fuseIo, resume =>
    some { s with pc := .running task back (resume (s.mem fuseIo.slot)) gaveUp }
  | .store fuseIo mem, resume =>
    some { s with
      mem := Function.update s.mem fuseIo.slot mem
      pc := .running task back (resume ()) gaveUp }
  | .getSqe peek, resume => s.getSqe result task back gaveUp peek resume
  | .prep none _, _ => some { s with pc := .fault }
  | .prep (some index) entry, resume =>
    some { s.amend index fun old => { old with sqe := some entry } with
      pc := .running task back (resume ()) gaveUp }
  | .complete refs, resume =>
    if none ∈ refs then some { s with pc := .fault }
    else some { s.tag refs (IoUringAwaiter.userData s.created refs.length) with
      awaiters := Function.update s.awaiters s.created (some (.make ⟨task, resume⟩ refs.length))
      created := s.created + 1
      pc := back.pc }
  | .setLastRc rc, resume =>
    some { s with lastRc := rc, pc := .running task back (resume ()) gaveUp }

/-- The next step of `run`. -/
def go (ring : FuseRing) (s : Sys) (result : SubmitResult) : Option Sys :=
  match s.pc with
  | .refill =>
    match s.ios with
    | [] => some { s with pc := .submit }
    | _ :: _ =>
      some { s with
        started := s.started + 1
        pc := .running s.started .refill (.start (queueReadSetRc ring)) false }
  | .running task back thread gaveUp =>
    match thread.move with
    | .ended _ => some { s with pc := back.pc }
    | .turned next => some { s with pc := .running task back next gaveUp }
    | .performs op resume => s.perform result task back gaveUp op resume
  | .polling task back resume gaveUp =>
    match room s.free 1 with
    | none => some s
    | some (entry, rest) =>
      some { s.take entry rest with pc := .running task back (resume (some entry.index)) gaveUp }
  | .submit =>
    match result with
    | .ok count =>
      if count ≤ s.sq.length then some
        { s.consume count with ringSubmit := false, pc := .pass } else none
    | .busy => some (if s.ringSubmit then s else { s with pc := .exited 18 })
    | .failed => some { s with pc := .exited 18 }
  | .pass =>
    match s.cq with
    | [] => some { s with handled := 0, pc := if s.lastRc ≠ 0 then .exited 19 else .refill }
    | cqe :: rest =>
      let s := { s with cq := rest, handled := s.handled + 1 }
      match fuseuringHandleCqe s.awaiters cqe with
      | .ignored => some s
      | .dangling => some { s with pc := .fault }
      | .stored awaiters => some { s with awaiters := awaiters }
      | .resumed handle results awaiters =>
        some
          { s with
            awaiters := awaiters
            pc := .running handle.task .pass (handle.resume results) false }
  | .exited _ => none
  | .fault => none

/-! ### The kernel -/

/-- What a completed read leaves in the memory of its slot. -/
def received (mem : Nat → Mem) (sqe : Option Sqe) (bytes : List UInt8) : Nat → Mem :=
  match sqe with
  | some ⟨.read _ buf nbytes, _⟩ => fun slot =>
    if slot = buf.fuseIo.slot then (mem slot).copy buf (bytes.take nbytes) else mem slot
  | _ => mem

/-- The kernel completes the entry at a place. -/
def post (s : Sys) (place : Nat) (res : Int) (bytes : List UInt8) : Option Sys :=
  match s.flight[place]? with
  | none => none
  | some entry =>
    some { s with
      flight := s.flight.eraseIdx place
      cq := s.cq ++ [⟨entry.userData, res⟩]
      mem := received s.mem entry.sqe bytes }

/-- One step. -/
def step (ring : FuseRing) (s : Sys) : Act → Option Sys
  | .post place res bytes => s.post place res bytes
  | .go result => s.go ring result

/-- The next step of the program calls `io_uring_submit`. -/
def submits (s : Sys) : Bool :=
  match s.pc with
  | .submit => true
  | .running _ _ thread _ =>
    match thread.move with
    | .performs (.getSqe peek) _ => (room s.free peek).isNone
    | _ => false
  | _ => false

/-- A coroutine, or one that it awaits, is about to return. -/
def returning (s : Sys) : Bool :=
  match s.pc with
  | .running _ _ thread _ => thread.returning
  | _ => false

/-- **The runs** from a state whose steps are all permitted. -/
inductive Reaches (ring : FuseRing) (permitted : Sys → Act → Prop) (first : Sys) : Sys → Prop
  | start : Reaches ring permitted first first
  | step {s s' : Sys} (act : Act) : Reaches ring permitted first s → permitted s act →
      s.step ring act = some s' → Reaches ring permitted first s'

/-- The steps in a list, one after the other, as far as they are permitted. -/
def run (ring : FuseRing) (permitted : Sys → Act → Prop) [∀ s act, Decidable (permitted s act)] :
    List Act → Sys → Option Sys
  | [], s => some s
  | act :: acts, s =>
    if permitted s act then (s.step ring act).bind (run ring permitted acts) else none

theorem run_append {ring : FuseRing} {permitted : Sys → Act → Prop}
    [∀ s act, Decidable (permitted s act)]
    (before after : List Act) (s : Sys) :
    run ring permitted (before ++ after) s = (run ring permitted before s).bind
      (run ring permitted after) := by
  induction before generalizing s with
  | nil => rfl
  | cons act before ih =>
    rw [List.cons_append, run, run]
    by_cases allowed : permitted s act
    · rw [if_pos allowed, if_pos allowed, Option.bind_assoc]
      exact congrArg _ (funext ih)
    · rw [if_neg allowed, if_neg allowed]
      rfl

theorem reaches_of_run {ring : FuseRing} {permitted : Sys → Act → Prop}
    [∀ s act, Decidable (permitted s act)]
    {first : Sys} (acts : List Act) : ∀ {s s' : Sys}, Reaches ring permitted first s →
      run ring permitted acts s = some s' → Reaches ring permitted first s' := by
  induction acts with
  | nil =>
    intro s s' reached ran
    obtain rfl := Option.some.inj ran
    exact reached
  | cons act acts ih =>
    intro s s' reached ran
    rw [run] at ran
    by_cases allowed : permitted s act
    · rw [if_pos allowed] at ran
      obtain ⟨middle, step, rest⟩ := Option.bind_eq_some_iff.mp ran
      exact ih (reached.step act allowed step) rest
    · rw [if_neg allowed] at ran
      cases ran

end Sys

/-- `get_sqe()` sets `ring_submit`. -/
theorem flagged_eq (s : Sys) (peek : Nat) : ∃ ringSubmit,
    (if peek > 1 then s else { s with ringSubmit := true }) =
      { s with ringSubmit := ringSubmit } := by
  split
  · exact ⟨s.ringSubmit, rfl⟩
  · exact ⟨true, rfl⟩

end Fuseuring
