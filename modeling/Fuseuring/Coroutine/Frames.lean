/-
**Coroutine frames (`io_uring_promise_type`, `io_uring_task` of `fuse_io_context.h`).**

A coroutine starts when it is called, and its caller gets an `io_uring_task` when it first
waits or ends. The frame is destroyed by the task where that finds the coroutine at its
end, by `final_suspend` where the task was dropped before. A coroutine that ends resumes
the one that awaits it from inside its own `final_suspend`, so that activations nest.

A `Machine` is the frames, what happened to them, and where the control is: in `run`, or in a
coroutine, with the activations below it. The bodies are open: a coroutine may call and await
others, wait for the ring and return as it likes, and `run` may start and resume coroutines in
any order. Destroyed frames keep their last contents; that nobody looks at them is to be proved.
-/

import Mathlib.Logic.Function.Basic

namespace Fuseuring

/-! ### The state -/

/-- `e_res_state`. -/
inductive ResState
  | init
  | detached
  | res
deriving DecidableEq, Repr

/-- `io_uring_promise_type<T>`: the handle of the coroutine that awaits this
one, the state and the result. -/
structure Promise (T : Type) where
  awaiter : Option Nat
  resState : ResState
  res : Option T

/-- Where a body is: on the machine stack, at a `co_await` of an `IoUringAwaiter`
or of the task of a coroutine, or at its final suspension point. -/
inductive Point
  | running
  | io
  | task (coroH : Nat)
  | final
deriving DecidableEq, Repr

structure Frame (T : Type) where
  promise : Promise T
  point : Point

/-- What an activation of a coroutine returns to: the caller, which awaits the
task, the `final_suspend` of a coroutine that has ended,
`fuseuring_handle_cqe`, or the loop of `run` that drops the task. -/
inductive Return
  | caller (frame : Nat)
  | finalSuspend (frame : Nat)
  | handleCqe
  | run
deriving DecidableEq, Repr

/-- What happens to a frame. `checked` is a look at its state (`done()`),
`accessed` a read or a write of its promise. -/
inductive FrameEvent (T : Type)
  | called (caller : Option Nat) (frame : Nat)
  | resumed (frame : Nat)
  | checked (frame : Nat)
  | accessed (frame : Nat)
  | finished (frame : Nat) (value : T)
  | asserted (frame : Nat) (hasRes : Bool)
  | delivered (frame awaiter : Nat) (value : Option T)
  | destroyed (frame : Nat)

/-- The frames by their handles, which are not used twice, and the events, the latest one first. -/
structure Frames (T : Type) where
  frame : Nat → Frame T
  created : Nat
  log : List (FrameEvent T)

/-- Where the control is: in `run`, or in a coroutine, with the task whose
result it has just taken and the activations below it. -/
inductive Control
  | run
  | body (frame : Nat) (held : Option Nat) (below : List Return)
deriving DecidableEq, Repr

structure Machine (T : Type) where
  frames : Frames T
  control : Control

variable {T : Type}

namespace Frames

def note (frames : Frames T) (event : FrameEvent T) : Frames T :=
  { frames with log := event :: frames.log }

def setPromise (frames : Frames T) (coroH : Nat) (promise : Promise T) : Frames T :=
  { frames with
    frame := Function.update frames.frame coroH { frames.frame coroH with promise := promise } }

def setPoint (frames : Frames T) (coroH : Nat) (point : Point) : Frames T :=
  { frames with
    frame := Function.update frames.frame coroH { frames.frame coroH with point := point } }

def promise (frames : Frames T) (coroH : Nat) : Promise T := (frames.frame coroH).promise

def point (frames : Frames T) (coroH : Nat) : Point := (frames.frame coroH).point

/-- A frame is allocated, and the body starts: `initial_suspend` never suspends. -/
def create (frames : Frames T) (caller : Option Nat) : Frames T :=
  { frames.note (.called caller frames.created) with
    frame := Function.update frames.frame frames.created ⟨⟨none, .init, none⟩, .running⟩
    created := frames.created + 1 }

/-- `coro_h.destroy()`. -/
def destroy (frames : Frames T) (coroH : Nat) : Frames T := frames.note (.destroyed coroH)

/-- `return_value`. -/
def returnValue (frames : Frames T) (coroH : Nat) (value : T) : Frames T :=
  let frames := (frames.note (.accessed coroH)).note (.finished coroH value)
  if (frames.promise coroH).resState ≠ .detached then
    frames.setPromise coroH { frames.promise coroH with resState := .res, res := some value }
  else frames

/-- `~io_uring_task`. -/
def dropTask (frames : Frames T) (coroH : Nat) : Frames T :=
  let frames := frames.note (.checked coroH)
  if frames.point coroH ≠ .final then
    (frames.note (.accessed coroH)).setPromise coroH
      { frames.promise coroH with resState := .detached }
  else frames.destroy coroH

/-- The task of an expression that ends. -/
def dropHeld (frames : Frames T) : Option Nat → Frames T
  | some coroH => frames.dropTask coroH
  | none => frames

/-- `co_return`: the value is stored, the task of the expression is dropped,
and the body is at its final suspension point. -/
def coReturn (frames : Frames T) (coroH : Nat) (held : Option Nat) (value : T) : Frames T :=
  ((frames.returnValue coroH value).dropHeld held).setPoint coroH .final

/-- `has_res`. -/
def hasRes (frames : Frames T) (coroH : Nat) : Bool := (frames.promise coroH).resState == .res

section Updates

variable {frames : Frames T} {coroH other : Nat} {event : FrameEvent T} {place : Point}
  {new : Promise T}

@[simp] theorem point_note : (frames.note event).point other = frames.point other := rfl
@[simp] theorem promise_note : (frames.note event).promise other = frames.promise other := rfl
@[simp] theorem created_note : (frames.note event).created = frames.created := rfl
@[simp] theorem created_setPoint : (frames.setPoint coroH place).created = frames.created := rfl
@[simp] theorem created_setPromise : (frames.setPromise coroH new).created = frames.created := rfl

@[simp] theorem promise_setPoint : (frames.setPoint coroH place).promise other =
    frames.promise other := by
  by_cases same : other = coroH
  · subst same
    simp [promise, setPoint]
  · simp [promise, setPoint, Function.update_of_ne same]

@[simp] theorem point_setPoint_self : (frames.setPoint coroH place).point coroH = place := by
  simp [point, setPoint]

theorem point_setPoint_of_ne (different : other ≠ coroH) :
    (frames.setPoint coroH place).point other = frames.point other := by
  simp [point, setPoint, Function.update_of_ne different]

@[simp] theorem point_setPromise : (frames.setPromise coroH new).point other =
    frames.point other := by
  by_cases same : other = coroH
  · subst same
    simp [point, setPromise]
  · simp [point, setPromise, Function.update_of_ne same]

@[simp] theorem promise_setPromise_self : (frames.setPromise coroH new).promise coroH = new := by
  simp [promise, setPromise]

theorem promise_setPromise_of_ne (different : other ≠ coroH) :
    (frames.setPromise coroH new).promise other = frames.promise other := by
  simp [promise, setPromise, Function.update_of_ne different]

theorem promise_create {caller : Option Nat} :
    (frames.create caller).promise frames.created = ⟨none, .init, none⟩ :=
  congrArg Frame.promise (Function.update_self _ _ frames.frame)

theorem point_create {caller : Option Nat} :
    (frames.create caller).point frames.created = .running :=
  congrArg Frame.point (Function.update_self _ _ frames.frame)

@[simp] theorem point_returnValue {value : T} :
    (frames.returnValue coroH value).point other = frames.point other := by
  dsimp only [returnValue]
  split
  · rw [point_setPromise, point_note, point_note]
  · rw [point_note, point_note]

@[simp] theorem created_returnValue {value : T} :
    (frames.returnValue coroH value).created = frames.created := by
  dsimp only [returnValue]
  split <;> rfl

@[simp] theorem point_dropTask : (frames.dropTask coroH).point other = frames.point other := by
  dsimp only [dropTask]
  split
  · rw [point_setPromise, point_note, point_note]
  · rw [destroy, point_note, point_note]

@[simp] theorem created_dropTask : (frames.dropTask coroH).created = frames.created := by
  dsimp only [dropTask]
  split <;> rfl

@[simp] theorem point_dropHeld {held : Option Nat} :
    (frames.dropHeld held).point other = frames.point other := by
  cases held with
  | none => rfl
  | some coroH => exact point_dropTask

@[simp] theorem created_dropHeld {held : Option Nat} :
    (frames.dropHeld held).created = frames.created := by
  cases held with
  | none => rfl
  | some coroH => exact created_dropTask

/-- The task of a coroutine at its end is dropped. -/
theorem dropTask_final (final : frames.point coroH = .final) :
    frames.dropTask coroH = (frames.note (.checked coroH)).destroy coroH := by
  have ended : ¬ (frames.note (.checked coroH)).point coroH ≠ .final := by
    rw [point_note, final]
    exact fun differs => differs rfl
  rw [dropTask, if_neg ended]

/-- `return_value` of a coroutine that is not detached. -/
theorem returnValue_init {value : T} (isInit : (frames.promise coroH).resState = .init) :
    frames.returnValue coroH value = ((frames.note (.accessed coroH)).note
      (.finished coroH value)).setPromise coroH
      ⟨(frames.promise coroH).awaiter, .res, some value⟩ := by
  have attached : (((frames.note (.accessed coroH)).note (.finished coroH value)).promise
      coroH).resState ≠ .detached := by
    rw [promise_note, promise_note, isInit]
    exact ResState.noConfusion
  rw [returnValue]
  simp only [if_pos attached]
  rfl

theorem returnValue_detached
    {value : T} (isDetached : (frames.promise coroH).resState = .detached) :
    frames.returnValue coroH value = (frames.note (.accessed coroH)).note
      (.finished coroH value) := by
  have detached : ¬ (((frames.note (.accessed coroH)).note (.finished coroH value)).promise
      coroH).resState ≠ .detached := by
    rw [promise_note, promise_note, isDetached]
    exact fun differs => differs rfl
  rw [returnValue]
  simp only [if_neg detached]

end Updates

end Frames

/-! ### Suspending and ending -/

/-- `await_resume` of a task: the coroutine `awaiter` takes the result and runs on. -/
def awaitResume (frames : Frames T) (awaiter coroH : Nat) (below : List Return) : Machine T :=
  let frames := (frames.note (.accessed coroH)).note (.asserted coroH (frames.hasRes coroH))
  let frames := frames.note (.delivered coroH awaiter (frames.promise coroH).res)
  ⟨frames.setPoint awaiter .running, .body awaiter (some coroH) below⟩

/-- The activation of a coroutine returns. A caller goes on with `co_await` of the task: it takes
the result if there is one, or it is stored as the awaiter and its own activation returns. -/
def giveBack (frames : Frames T) (coroH : Nat) : List Return → Machine T
  | [] => ⟨frames, .run⟩
  | .handleCqe :: _ => ⟨frames, .run⟩
  | .run :: _ => ⟨frames.dropTask coroH, .run⟩
  | .finalSuspend ended :: below => giveBack frames ended below
  | .caller caller :: below =>
    let frames := frames.note (.accessed coroH)
    if frames.hasRes coroH then awaitResume frames caller coroH below
    else
      let frames := (frames.note (.accessed coroH)).setPromise coroH
        { frames.promise coroH with awaiter := some caller }
      giveBack (frames.setPoint caller (.task coroH)) caller below

/-- `awaiter.resume()`: the coroutine goes on where it awaits. -/
def resumeAwaiter (frames : Frames T) (awaiter : Nat) (below : List Return) : Machine T :=
  let frames := frames.note (.resumed awaiter)
  match frames.point awaiter with
  | .task coroH => awaitResume frames awaiter coroH below
  | _ => ⟨frames.setPoint awaiter .running, .body awaiter none below⟩

/-- `await_suspend` of `final_suspend`. -/
def finalSuspend (frames : Frames T) (coroH : Nat) (below : List Return) : Machine T :=
  let frames := frames.note (.accessed coroH)
  if (frames.promise coroH).resState = .detached then
    let frames :=
      match (frames.promise coroH).awaiter with
      | some awaiter => frames.destroy awaiter
      | none => frames
    giveBack (frames.destroy coroH) coroH below
  else
    match (frames.promise coroH).awaiter with
    | some awaiter => resumeAwaiter frames awaiter (.finalSuspend coroH :: below)
    | none => giveBack frames coroH below

/-! ### The steps -/

/-- What happens next: `run` starts a coroutine or a completion resumes one;
the running coroutine calls another one and awaits it, waits for the ring, ends
the expression in which it took a result, or returns. -/
inductive FrameAct (T : Type)
  | start
  | resume (frame : Nat)
  | call
  | wait
  | endExpression
  | finish (value : T)

namespace Machine

/-- Before the first step. -/
def init : Machine T := ⟨⟨fun _ => ⟨⟨none, .init, none⟩, .running⟩, 0, []⟩, .run⟩

/-- One step, if it is possible. A task lives to the end of the expression that
awaits it; in `co_return co_await` this is behind `return_value`. -/
def step (machine : Machine T) : FrameAct T → Option (Machine T)
  | .start =>
    match machine.control with
    | .run => some ⟨machine.frames.create none, .body machine.frames.created none [.run]⟩
    | .body _ _ _ => none
  | .resume frame =>
    match machine.control with
    | .run =>
      if machine.frames.point frame = .io then
        some ⟨(machine.frames.note (.resumed frame)).setPoint frame .running,
          .body frame none [.handleCqe]⟩
      else none
    | .body _ _ _ => none
  | .call =>
    match machine.control with
    | .body frame none below =>
      some ⟨machine.frames.create (some frame),
        .body machine.frames.created none (.caller frame :: below)⟩
    | _ => none
  | .wait =>
    match machine.control with
    | .body frame none below => some (giveBack (machine.frames.setPoint frame .io) frame below)
    | _ => none
  | .endExpression =>
    match machine.control with
    | .body frame (some coroH) below => some ⟨machine.frames.dropTask coroH, .body frame none below⟩
    | _ => none
  | .finish value =>
    match machine.control with
    | .body frame held below =>
      some (finalSuspend (machine.frames.coReturn frame held value) frame below)
    | .run => none

/-- The steps of a list, one after the other. -/
def run : List (FrameAct T) → Machine T → Option (Machine T)
  | [], machine => some machine
  | act :: acts, machine => (machine.step act).bind (run acts)

end Machine

end Fuseuring
