/-
**The start-up (`fuseuring_main`): the `INIT` handshake.**

`fuseuringMain` mounts, reads the kernel's `INIT`, answers a larger major version
with its own and reads a second message, and starts the workers after the final
reply. `HandshakeSound` is the law of the negotiation: the workers start only on a
validated `INIT` that the final reply answers. The second message is read into the
buffer of the first one and neither validated nor answered under its own `unique`.
-/

import Fuseuring.Library.Program
import Fuseuring.Requests

namespace Fuseuring

open Bytes Interaction

/-! ### The interface -/

/-- `FUSE_KERNEL_VERSION`. -/
def fuseKernelVersion : Nat := 7
/-- `FUSE_KERNEL_MINOR_VERSION`. -/
def fuseKernelMinorVersion : Nat := 31

def fuseAsyncRead : Nat := 2 ^ 0
def fuseAtomicOTrunc : Nat := 2 ^ 3
def fuseExportSupport : Nat := 2 ^ 4
def fuseBigWrites : Nat := 2 ^ 5
def fuseSpliceWrite : Nat := 2 ^ 7
def fuseSpliceMove : Nat := 2 ^ 8
def fuseSpliceRead : Nat := 2 ^ 9
def fuseAutoInvalData : Nat := 2 ^ 12
def fuseAsyncDio : Nat := 2 ^ 15
def fuseWritebackCache : Nat := 2 ^ 16
def fuseParallelDirops : Nat := 2 ^ 18
def fuseHandleKillpriv : Nat := 2 ^ 19
def fuseMaxPagesFlag : Nat := 2 ^ 22
/-- `FUSE_IOCTL_DIR`, one of the ioctl flags. -/
def fuseIoctlDir : Nat := 2 ^ 4

/-- `fuse_max_pages`. -/
def fuseMaxPages : Nat := 256

namespace InitIn
def major : Field := ⟨0, 4⟩
def maxReadahead : Field := ⟨8, 4⟩
def flags : Field := ⟨12, 4⟩
def size : Nat := 16
end InitIn

namespace InitOut
def major : Field := ⟨0, 4⟩
def minor : Field := ⟨4, 4⟩
def maxReadahead : Field := ⟨8, 4⟩
def flags : Field := ⟨12, 4⟩
def maxBackground : Field := ⟨16, 2⟩
def congestionThreshold : Field := ⟨18, 2⟩
def maxWrite : Field := ⟨20, 4⟩
def timeGran : Field := ⟨24, 4⟩
def maxPages : Field := ⟨28, 2⟩
def size : Nat := 64
end InitOut

/-- `sizeof(InitInMsg)`. -/
def initInMsgSize : Nat := InHeader.size + InitIn.size

/-- `sizeof(InitOutMsg)`. -/
def initOutMsgSize : Nat := OutHeader.size + InitOut.size

/-- `init_buf.size()`. -/
def initBufSize : Nat := 8192

/-! ### The program -/

/-- A message that a `read` delivers: it is not empty and fits `init_buf`. -/
structure Delivery where
  bytes : List UInt8
  nonempty : 0 < bytes.length
  fits : bytes.length ≤ initBufSize

/-- The system calls of the start-up. -/
inductive StartOp
  | stat
  | openDevice
  | mount
  | read
  | write (reply : List UInt8)
  | queueInit (entries : Int)

/-- Whether a call succeeds, and what a `read` delivers when it does. -/
def StartOp.Answer : StartOp → Type
  | .read => Option Delivery
  | _ => Bool

/-- The start-up calls no coroutines. -/
def startup : Signature := ⟨StartOp, StartOp.Answer, Empty, Empty, Empty.elim⟩

/-- The arguments of a `fuseuring_run`: the entries of a ring that is passed
in, and whether the worker attaches its own to one. -/
structure Worker where
  maxFuseIos : Int
  maxWrite : Nat
  fuseUring : Option Int
  attached : Bool
deriving DecidableEq, Repr

/-- How `fuseuring_main` ends: with an exit code, or with its workers started. -/
inductive Started
  | exit (code : Nat)
  | workers (workers : List Worker)
deriving DecidableEq, Repr

/-- The parameters of `fuseuring_main`, and `getpagesize()`. -/
structure StartArgs where
  maxFuseIos : Int
  maxBackground : Int
  congestionThreshold : Int
  nThreads : Nat
  pagesize : Nat

/-- The size of the rings for a pool: `std::max(100, max_fuse_ios*2)`, with the product in
an `int`, which wraps from 2^30 on. -/
def ringEntries (maxFuseIos : Int) : Int := max 100 (int32 (word32 (maxFuseIos * 2)))

/-- Below 2^30 the product is the double. -/
theorem ringEntries_double {maxFuseIos : Int} (positive : 1 ≤ maxFuseIos)
    (small : maxFuseIos < 2 ^ 30) : ringEntries maxFuseIos = max 100 (2 * maxFuseIos) := by
  rw [ringEntries, int32_word32 (by omega) (by omega), mul_comm]

/-- From 2^30 on the product is negative, and a hundred entries are asked for. -/
theorem ringEntries_wrapped {maxFuseIos : Int} (large : 2 ^ 30 ≤ maxFuseIos)
    (isInt : maxFuseIos < 2 ^ 31) : ringEntries maxFuseIos = 100 := by
  have negative : int32 (word32 (maxFuseIos * 2)) < 0 := by
    unfold int32 word32
    split <;> omega
  rw [ringEntries, max_eq_left (by omega)]

def statMountpoint : Program startup Bool := Program.ask (S := startup) StartOp.stat
def openDevice : Program startup Bool := Program.ask (S := startup) StartOp.openDevice
def mountFuse : Program startup Bool := Program.ask (S := startup) StartOp.mount
def readSession : Program startup (Option Delivery) := Program.ask (S := startup) StartOp.read
/-- Whether the `write` took all of the reply. -/
def writeSession (reply : List UInt8) : Program startup Bool :=
  Program.ask (S := startup) (StartOp.write reply)
def queueInit (entries : Int) : Program startup Bool :=
  Program.ask (S := startup) (StartOp.queueInit entries)

/-- The flags the kernel must offer, in the order of the test. -/
def requiredFlags : List Nat :=
  [fuseAsyncRead, fuseParallelDirops, fuseAutoInvalData, fuseHandleKillpriv,
    fuseAsyncDio, fuseIoctlDir,
    fuseAtomicOTrunc, fuseSpliceRead, fuseSpliceWrite, fuseMaxPagesFlag, fuseWritebackCache,
    fuseExportSupport,
    fuseSpliceMove]

def offersRequired (flags : Nat) : Bool := requiredFlags.all fun flag => flags &&& flag != 0

/-- The flags of the final reply. -/
def initOutFlags : Nat :=
  fuseMaxPagesFlag ||| fuseParallelDirops ||| fuseBigWrites ||| fuseAsyncRead |||
    fuseAutoInvalData |||
    fuseHandleKillpriv ||| fuseAsyncDio ||| fuseIoctlDir ||| fuseAtomicOTrunc ||| fuseSpliceRead |||
      fuseSpliceWrite |||
    fuseMaxPagesFlag ||| fuseWritebackCache ||| fuseExportSupport ||| fuseSpliceMove

/-- `max_write`. -/
def StartArgs.maxWrite (args : StartArgs) : Nat := args.pagesize * fuseMaxPages

/-- `init_out` before a second round: the header and the version, over what `stack` holds. -/
def versionReply (stack : Buffer) (unique : Nat) : Buffer :=
  let initOut := OutHeader.error.store stack 0 0
  let initOut := OutHeader.len.store initOut 0 initOutMsgSize
  let initOut := OutHeader.unique.store initOut 0 unique
  let initOut := InitOut.major.store initOut OutHeader.size fuseKernelVersion
  InitOut.minor.store initOut OutHeader.size fuseKernelMinorVersion

/-- The fields that are set behind the test of the flags. -/
def parameterReply (args : StartArgs) (initOut : Buffer) : Buffer :=
  let initOut := InitOut.flags.store initOut OutHeader.size initOutFlags
  let initOut := InitOut.maxBackground.store initOut OutHeader.size (word32 args.maxBackground)
  let initOut :=
    InitOut.congestionThreshold.store initOut OutHeader.size (word32 args.congestionThreshold)
  let initOut := InitOut.maxPages.store initOut OutHeader.size fuseMaxPages
  let initOut := InitOut.timeGran.store initOut OutHeader.size 1
  InitOut.maxWrite.store initOut OutHeader.size args.maxWrite

/-- The workers: one that is given `max_background` and no ring, or `n_threads`
of which the first one has the ring that is set up here. -/
def startWorkers (args : StartArgs) : Program startup Started := do
  if args.nThreads ≤ 1 then
    return .workers [⟨args.maxBackground, args.maxWrite, none, false⟩]
  else
    let entries := ringEntries args.maxFuseIos
    let ready ← queueInit entries
    if !ready then return .exit 10
    return .workers ((List.range args.nThreads).map fun thread =>
      ⟨args.maxFuseIos, args.maxWrite, if thread = 0 then some entries else none, thread != 0⟩)

/-- `fuseuring_main` from the final reply on. -/
def finishInit (args : StartArgs) (initIn initOut : Buffer) : Program startup Started := do
  let initOut := InitOut.maxReadahead.store initOut OutHeader.size
    (InitIn.maxReadahead.load initIn InHeader.size)
  if !offersRequired (InitIn.flags.load initIn InHeader.size) then return .exit 8
  let wrote ← writeSession (slice (parameterReply args initOut) 0 initOutMsgSize)
  if !wrote then return .exit 9
  startWorkers args

/-- The second round: the reply with the version only, and the next message
read over the first one. -/
def secondRound (args : StartArgs) (initIn initOut : Buffer) : Program startup Started := do
  let wrote ← writeSession (slice initOut 0 initOutMsgSize)
  if !wrote then return .exit 6
  let second ← readSession
  match second with
  | none => return .exit 7
  | some second => finishInit args (write initIn 0 second.bytes) initOut

/-- `fuseuring_main` from the first message on: `initIn` is `init_buf`. -/
def negotiate (args : StartArgs) (stack initIn : Buffer) : Program startup Started := do
  if InHeader.opcode.load initIn 0 ≠ Opcode.init.code then return .exit 5
  if InHeader.len.load initIn 0 ≠ initInMsgSize then return .exit 5
  if InitIn.major.load initIn InHeader.size < fuseKernelVersion then return .exit 5
  let initOut := versionReply stack (InHeader.unique.load initIn 0)
  if InitIn.major.load initIn InHeader.size > fuseKernelVersion then secondRound args initIn initOut
  else finishInit args initIn initOut

/-- `fuseuring_main`. -/
def fuseuringMain (args : StartArgs) (stack : Buffer) : Program startup Started := do
  let found ← statMountpoint
  if !found then return .exit 1
  let opened ← openDevice
  if !opened then return .exit 2
  let mounted ← mountFuse
  if !mounted then return .exit 3
  let first ← readSession
  match first with
  | none => return .exit 4
  -- `init_buf` is a vector of zeros
  | some first => negotiate args stack (write (ofList []) 0 first.bytes)

/-! ### Runs -/

/-- What the kernel does to the start-up: the messages of its reads and the
fate of its writes, by their number. -/
structure StartKernel where
  stat : Bool
  openDevice : Bool
  mount : Bool
  queueInit : Bool
  message : Nat → Option Delivery
  accepts : Nat → Bool

/-- What crosses the session. -/
inductive StartEvent
  | read (message : List UInt8)
  | wrote (reply : List UInt8)
deriving DecidableEq, Repr

structure StartState where
  reads : Nat
  writes : Nat
  events : List StartEvent

def StartKernel.answer (kernel : StartKernel) : (op : StartOp) → StartState → op.Answer × StartState
  | .stat, state => (kernel.stat, state)
  | .openDevice, state => (kernel.openDevice, state)
  | .mount, state => (kernel.mount, state)
  | .queueInit _, state => (kernel.queueInit, state)
  | .read, state =>
      (kernel.message state.reads,
        ⟨state.reads + 1, state.writes,
          state.events ++ ((kernel.message state.reads).map
            fun delivery => StartEvent.read delivery.bytes).toList⟩)
  | .write reply, state =>
      (kernel.accepts state.writes,
        ⟨state.reads, state.writes + 1,
          if kernel.accepts state.writes then state.events ++ [StartEvent.wrote reply]
          else state.events⟩)

def StartKernel.handler (kernel : StartKernel) : Program.Handler startup StartState :=
  ⟨kernel.answer, fun _ state => state⟩

/-- A run of the start-up. -/
def StartKernel.start (kernel : StartKernel) (args : StartArgs) (stack : Buffer) :
    Started × List StartEvent :=
  let ended := Program.run kernel.handler (fuseuringMain args stack) ⟨0, 0, []⟩
  (ended.1, ended.2.events)

/-! ### The law -/

/-- The fields of a message. -/
def uniqueOf (message : List UInt8) : Nat := InHeader.unique.load (ofList message) 0
def lenOf (message : List UInt8) : Nat := InHeader.len.load (ofList message) 0
def majorOf (message : List UInt8) : Nat := InitIn.major.load (ofList message) InHeader.size

/-- The `unique` of a reply. -/
def replyUniqueOf (reply : List UInt8) : Nat := OutHeader.unique.load (ofList reply) 0

/-- An `INIT` of a major version. -/
structure IsInit (message : List UInt8) : Prop where
  opcode : opcodeOf message = Opcode.init.code
  len : lenOf message = initInMsgSize

/-- An `INIT` of the server's own version. -/
structure ValidInit (message : List UInt8) : Prop extends IsInit message where
  major : majorOf message = fuseKernelVersion

def StartEvent.message : StartEvent → Option (List UInt8)
  | .read message => some message
  | .wrote _ => none

def StartEvent.reply : StartEvent → Option (List UInt8)
  | .read _ => none
  | .wrote reply => some reply

def lastRead (events : List StartEvent) : Option (List UInt8) :=
  (events.filterMap StartEvent.message).getLast?

def lastWritten (events : List StartEvent) : Option (List UInt8) :=
  (events.filterMap StartEvent.reply).getLast?

/-- **What a start owes the session.** The workers start on a validated `INIT` under whose
`unique` the last reply went out, and an earlier reply answers the message read before it. -/
structure HandshakeSound (run : Started × List StartEvent) : Prop where
  started : ∀ workers, run.1 = .workers workers → ∃ message reply, lastRead run.2 = some message ∧
    ValidInit message ∧ lastWritten run.2 = some reply ∧ replyUniqueOf reply = uniqueOf message
  earlier : ∀ before reply after later, run.2 = before ++ StartEvent.wrote reply :: after →
    lastWritten after = some later → ∃ message, lastRead before = some message ∧
    replyUniqueOf reply = uniqueOf message

/-- The kernel opens with an `INIT` of a larger version and goes on with a second message. -/
structure Renegotiates (kernel : StartKernel) (first second : Delivery) : Prop where
  opens : kernel.message 0 = some first
  isInit : IsInit first.bytes
  larger : fuseKernelVersion < majorOf first.bytes
  answered : kernel.accepts 0 = true
  follows : kernel.message 1 = some second

/-- `init_buf` after a second message, which may leave the end of the first one. -/
def initBufAfter (first second : Delivery) : Buffer := write (ofList first.bytes) 0 second.bytes

/-- The file system is mounted. -/
structure Mounted (kernel : StartKernel) : Prop where
  stat : kernel.stat = true
  openDevice : kernel.openDevice = true
  mount : kernel.mount = true

/-- Nothing stops the start-up from the test of the flags on: the flags in
`init_buf`, the final reply and the ring. -/
structure Unhindered (kernel : StartKernel) (args : StartArgs) (initIn : Buffer)
    (writes : Nat) : Prop where
  offers : offersRequired (InitIn.flags.load initIn InHeader.size) = true
  answered : kernel.accepts writes = true
  ring : args.nThreads ≤ 1 ∨ kernel.queueInit = true

/-! ### The replies -/

section Replies

variable {args : StartArgs} {stack initOut : Buffer} {unique : Nat}

/-- An assignment behind the header keeps its `unique`. -/
theorem unique_store {field : Field} (value : Nat) :
    OutHeader.unique.load (field.store initOut OutHeader.size value) 0 =
      OutHeader.unique.load initOut 0 := by
  unfold Field.load Field.store
  refine load_store_disjoint (Or.inl ?_)
  have header : 0 + OutHeader.unique.offset + OutHeader.unique.width = OutHeader.size := rfl
  rw [header]
  exact Nat.le_add_right _ _

theorem replyUniqueOf_slice :
    replyUniqueOf (slice initOut 0 initOutMsgSize) = OutHeader.unique.load initOut 0 := by
  unfold replyUniqueOf Field.load
  rw [load_slice (by decide), Nat.zero_add]

theorem versionReply_unique (small : unique < 2 ^ 64) :
    OutHeader.unique.load (versionReply stack unique) 0 = unique := by
  unfold versionReply
  rw [unique_store, unique_store]
  exact load_store_same_of_lt small

theorem parameterReply_unique :
    OutHeader.unique.load (parameterReply args initOut) 0 = OutHeader.unique.load initOut 0 := by
  unfold parameterReply
  simp only [unique_store]

theorem uniqueOf_lt (message : List UInt8) : uniqueOf message < 2 ^ 64 := load_lt _ _ _

end Replies

/-! ### The steps of a start -/

section Steps

variable (kernel : StartKernel) {state : StartState}

@[simp] theorem run_statMountpoint :
    Program.run kernel.handler statMountpoint state = (kernel.stat, state) := rfl

@[simp] theorem run_openDevice : Program.run kernel.handler openDevice state =
    (kernel.openDevice, state) := rfl

@[simp] theorem run_mountFuse : Program.run kernel.handler mountFuse state =
    (kernel.mount, state) := rfl

@[simp] theorem run_queueInit (entries : Int) :
    Program.run kernel.handler (queueInit entries) state = (kernel.queueInit, state) := rfl

@[simp] theorem run_readSession :
    Program.run kernel.handler readSession state = (kernel.message state.reads,
      ⟨state.reads + 1, state.writes,
        state.events ++ ((kernel.message state.reads).map
          fun delivery => StartEvent.read delivery.bytes).toList⟩) := rfl

@[simp] theorem run_writeSession (reply : List UInt8) :
    Program.run kernel.handler (writeSession reply) state = (kernel.accepts state.writes,
      ⟨state.reads, state.writes + 1,
        if kernel.accepts state.writes then state.events ++ [StartEvent.wrote reply]
        else state.events⟩) := rfl

/-- The workers start unless the shared ring is not set up. -/
theorem run_startWorkers (args : StartArgs) (state : StartState) :
    (Program.run kernel.handler (startWorkers args) state).2 = state ∧
      ((args.nThreads ≤ 1 ∨ kernel.queueInit = true) ∧
          (∃ workers, (Program.run kernel.handler (startWorkers args) state).1 = .workers workers) ∨
        ¬ (args.nThreads ≤ 1 ∨ kernel.queueInit = true) ∧
          ∃ code, (Program.run kernel.handler (startWorkers args) state).1 = .exit code) := by
  unfold startWorkers
  by_cases single : args.nThreads ≤ 1
  · rw [if_pos single]
    exact ⟨rfl, Or.inl ⟨Or.inl single, _, rfl⟩⟩
  · rw [if_neg single, Program.run_bind, run_queueInit]
    cases ready : kernel.queueInit with
    | true => exact ⟨rfl, Or.inl ⟨Or.inr rfl, _, rfl⟩⟩
    | false => exact ⟨rfl, Or.inr ⟨by simp [single], _, rfl⟩⟩

/-- **The final reply.** The workers start when nothing hinders it, and at most
the reply is written. -/
theorem run_finishInit (args : StartArgs) (initIn initOut : Buffer) (state : StartState) :
    ∃ final, replyUniqueOf final = OutHeader.unique.load initOut 0 ∧
      ((Unhindered kernel args initIn state.writes ∧
          (∃ workers, (Program.run kernel.handler (finishInit args initIn initOut) state).1 =
            .workers workers) ∧
          (Program.run kernel.handler (finishInit args initIn initOut) state).2.events =
            state.events ++ [StartEvent.wrote final]) ∨
        (¬ Unhindered kernel args initIn state.writes ∧
          (∃ code, (Program.run kernel.handler (finishInit args initIn initOut) state).1
            = .exit code) ∧
          (Program.run kernel.handler (finishInit args initIn initOut) state).2.events <+:
            state.events ++ [StartEvent.wrote final])) := by
  let initOut' := InitOut.maxReadahead.store initOut OutHeader.size
    (InitIn.maxReadahead.load initIn InHeader.size)
  refine ⟨slice (parameterReply args initOut') 0 initOutMsgSize, ?_, ?_⟩
  · rw [replyUniqueOf_slice, parameterReply_unique]
    exact unique_store _
  · unfold finishInit
    cases offers : offersRequired (InitIn.flags.load initIn InHeader.size) with
    | false =>
      refine Or.inr ⟨fun free => ?_, ⟨8, rfl⟩, List.prefix_append _ _⟩
      exact absurd (free.offers.symm.trans offers) (by decide)
    | true =>
      simp only [Bool.not_true, Bool.false_eq_true, if_false, Program.run_bind, run_writeSession]
      by_cases answered : kernel.accepts state.writes = true
      rotate_left
      · have refused := Bool.eq_false_of_not_eq_true answered
        simp only [refused]
        exact Or.inr ⟨fun free => answered free.answered, ⟨9, rfl⟩, List.prefix_append _ _⟩
      · simp only [answered, Bool.not_true, Bool.false_eq_true, if_false, if_true]
        let after : StartState := ⟨state.reads, state.writes + 1,
          state.events ++ [StartEvent.wrote
            (slice (parameterReply args initOut') 0 initOutMsgSize)]⟩
        rcases run_startWorkers kernel args after with ⟨same, ⟨ring, started⟩ | ⟨ring, ended⟩⟩
        · exact Or.inl ⟨⟨offers, answered, ring⟩, started, congrArg StartState.events same⟩
        · refine Or.inr ⟨fun free => ring free.ring, ended, ?_⟩
          show (Program.run kernel.handler (startWorkers args) after).2.events <+: after.events
          exact ⟨[], by rw [same, List.append_nil]⟩

end Steps

/-! ### Whole starts -/

section Starts

variable {kernel : StartKernel} {args : StartArgs} {stack : Buffer}

/-- Replies on the way: the first one carries the `unique` of the first message. -/
theorem earlier_answers {first answer second final : List UInt8} {events : List StartEvent}
    (answers : replyUniqueOf answer = uniqueOf first)
    (front : events <+: [.read first, .wrote answer, .read second, .wrote final])
    {before after : List StartEvent} {reply later : List UInt8}
    (split : events = before ++ StartEvent.wrote reply :: after)
    (more : lastWritten after = some later) :
    ∃ message, lastRead before = some message ∧ replyUniqueOf reply = uniqueOf message := by
  obtain ⟨rest, whole⟩ := front
  rw [split, List.append_assoc, List.cons_append] at whole
  rcases before with _ | ⟨head, _ | ⟨next, _ | ⟨third, before⟩⟩⟩
  · simp at whole
  · simp only [List.cons_append, List.nil_append, List.cons.injEq, StartEvent.wrote.injEq] at whole
    obtain ⟨rfl, rfl, -⟩ := whole
    exact ⟨first, rfl, answers⟩
  · simp at whole
  · simp only [List.cons_append, List.cons.injEq] at whole
    obtain ⟨rfl, rfl, rfl, whole⟩ := whole
    have length := congrArg List.length whole
    simp only [List.length_append, List.length_cons, List.length_nil] at length
    have none : after = [] := List.eq_nil_of_length_eq_zero (by omega)
    rw [none] at more
    cases more

/-- The ways of a start: it ends early, it starts the workers after one round, or after two. -/
inductive Start (kernel : StartKernel) (args : StartArgs) : Started × List StartEvent → Prop
  | ends (code : Nat) {first answer second final : List UInt8} {events : List StartEvent}
      (answers : replyUniqueOf answer = uniqueOf first)
      (front : events <+: [.read first, .wrote answer, .read second, .wrote final])
      (hindered : ∀ first second, Renegotiates kernel first second → Mounted kernel →
        ¬ Unhindered kernel args (initBufAfter first second) 1) : Start kernel args
          (.exit code, events)
  | oneRound (workers : List Worker) {first : Delivery} {answer : List UInt8}
    (opens : kernel.message 0 = some first)
      (valid : ValidInit first.bytes) (answers : replyUniqueOf answer = uniqueOf first.bytes) :
      Start kernel args (.workers workers, [.read first.bytes, .wrote answer])
  | twoRounds (workers : List Worker) {first second : Delivery} {answer final : List UInt8}
      (renegotiates : Renegotiates kernel first second) (mounted : Mounted kernel)
      (unhindered : Unhindered kernel args (initBufAfter first second) 1)
      (answers : replyUniqueOf answer = uniqueOf first.bytes)
        (repeats : replyUniqueOf final = uniqueOf first.bytes) :
      Start kernel args (.workers workers, [.read first.bytes, .wrote answer,
        .read second.bytes, .wrote final])

/-- A second round. -/
theorem start_secondRound {first : Delivery} (mounted : Mounted kernel)
    (opens : kernel.message 0 = some first)
    (isInit : IsInit first.bytes) (larger : fuseKernelVersion < majorOf first.bytes) :
    Start kernel args
      ((Program.run kernel.handler (secondRound args (ofList first.bytes)
        (versionReply stack (uniqueOf first.bytes)))
          ⟨1, 0, [.read first.bytes]⟩).1,
        (Program.run kernel.handler (secondRound args (ofList first.bytes)
          (versionReply stack (uniqueOf first.bytes)))
          ⟨1, 0, [.read first.bytes]⟩).2.events) := by
  let answer := slice (versionReply stack (uniqueOf first.bytes)) 0 initOutMsgSize
  have answers : replyUniqueOf answer = uniqueOf first.bytes := by
    show replyUniqueOf (slice (versionReply stack (uniqueOf first.bytes)) 0 initOutMsgSize) =
      uniqueOf first.bytes
    rw [replyUniqueOf_slice]
    exact versionReply_unique (uniqueOf_lt _)
  unfold secondRound
  rw [Program.run_bind, run_writeSession]
  by_cases answered : kernel.accepts 0 = true
  rotate_left
  · have refused := Bool.eq_false_of_not_eq_true answered
    simp only [refused]
    refine Start.ends 6 answers (List.prefix_append [StartEvent.read first.bytes]
      [.wrote answer, .read [], .wrote []]) ?_
    exact fun first' second renegotiates => absurd renegotiates.answered answered
  simp only [answered, Bool.not_true, Bool.false_eq_true, if_false, if_true, Program.run_bind,
    run_readSession]
  cases follows : kernel.message 1 with
  | none =>
    refine Start.ends 7 answers
      (List.prefix_append [StartEvent.read first.bytes, .wrote answer] [.read [], .wrote []]) ?_
    exact fun first' second renegotiates => absurd
      (renegotiates.follows.symm.trans follows) (by simp)
  | some second =>
    let state : StartState := ⟨2, 1, [.read first.bytes, .wrote answer, .read second.bytes]⟩
    show Start kernel args
      ((Program.run kernel.handler
          (finishInit args (initBufAfter first second)
            (versionReply stack (uniqueOf first.bytes))) state).1,
        (Program.run kernel.handler
          (finishInit args (initBufAfter first second) (versionReply stack (uniqueOf first.bytes)))
            state).2.events)
    rcases run_finishInit kernel args (initBufAfter first second)
      (versionReply stack (uniqueOf first.bytes)) state with
      ⟨final, unique, ⟨unhindered, ⟨workers, started⟩, events⟩ | ⟨hindered, ⟨code, ended⟩, events⟩⟩
    all_goals rw [versionReply_unique (uniqueOf_lt _)] at unique
    · rw [started, events]
      exact Start.twoRounds workers ⟨opens, isInit, larger, answered,
        follows⟩ mounted unhindered answers unique
    · rw [ended]
      refine Start.ends code answers events
        fun first' second' renegotiates _ unhindered => hindered ?_
      obtain rfl := Option.some.inj (renegotiates.opens.symm.trans opens)
      obtain rfl := Option.some.inj (renegotiates.follows.symm.trans follows)
      exact unhindered

/-- A start after its first message. -/
theorem start_negotiate {first : Delivery} (mounted : Mounted kernel)
    (opens : kernel.message 0 = some first) :
    Start kernel args
      ((Program.run kernel.handler (negotiate args stack (ofList first.bytes))
        ⟨1, 0, [.read first.bytes]⟩).1,
        (Program.run kernel.handler (negotiate args stack (ofList first.bytes))
          ⟨1, 0, [.read first.bytes]⟩).2.events) := by
  have same : ∀ first', kernel.message 0 = some first' → first' = first := by
    intro first' opens'
    exact Option.some.inj (opens'.symm.trans opens)
  have alone : [StartEvent.read first.bytes] <+:
      [.read first.bytes, .wrote (slice
        (versionReply stack (uniqueOf first.bytes)) 0 initOutMsgSize), .read [],
        .wrote []] := List.prefix_append [StartEvent.read first.bytes] _
  have answers : replyUniqueOf
      (slice (versionReply stack (uniqueOf first.bytes)) 0 initOutMsgSize) =
      uniqueOf first.bytes := by
    rw [replyUniqueOf_slice]
    exact versionReply_unique (uniqueOf_lt _)
  -- the three tests of the first message
  have checked : negotiate args stack (ofList first.bytes) =
      if opcodeOf first.bytes ≠ Opcode.init.code then .ret (.exit 5)
      else if lenOf first.bytes ≠ initInMsgSize then .ret (.exit 5)
      else if majorOf first.bytes < fuseKernelVersion then .ret (.exit 5)
      else if majorOf first.bytes > fuseKernelVersion then
        secondRound args (ofList first.bytes) (versionReply stack (uniqueOf first.bytes))
      else finishInit args (ofList first.bytes) (versionReply stack (uniqueOf first.bytes)) := rfl
  rw [checked]
  by_cases opcode : opcodeOf first.bytes = Opcode.init.code
  rotate_left
  · rw [if_pos opcode]
    refine Start.ends 5 answers alone fun first' second renegotiates => ?_
    exact absurd (same _ renegotiates.opens ▸ renegotiates.isInit.opcode) opcode
  by_cases len : lenOf first.bytes = initInMsgSize
  rotate_left
  · rw [if_neg (not_not.mpr opcode), if_pos len]
    refine Start.ends 5 answers alone fun first' second renegotiates => ?_
    exact absurd (same _ renegotiates.opens ▸ renegotiates.isInit.len) len
  by_cases smaller : majorOf first.bytes < fuseKernelVersion
  · rw [if_neg (not_not.mpr opcode), if_neg (not_not.mpr len), if_pos smaller]
    refine Start.ends 5 answers alone fun first' second renegotiates => ?_
    exact absurd (same _ renegotiates.opens ▸ renegotiates.larger) (Nat.lt_asymm smaller)
  rw [if_neg (not_not.mpr opcode), if_neg (not_not.mpr len), if_neg smaller]
  by_cases larger : fuseKernelVersion < majorOf first.bytes
  · rw [if_pos larger]
    exact start_secondRound mounted opens ⟨opcode, len⟩ larger
  · rw [if_neg larger]
    rcases run_finishInit kernel args (ofList first.bytes)
      (versionReply stack (uniqueOf first.bytes))
      ⟨1, 0, [.read first.bytes]⟩ with
      ⟨final, unique, ⟨-, ⟨workers, started⟩, events⟩ | ⟨-, ⟨code, ended⟩, events⟩⟩
    all_goals rw [versionReply_unique (uniqueOf_lt _)] at unique
    · rw [started, events]
      exact Start.oneRound workers opens ⟨⟨opcode, len⟩, by omega⟩ unique
    · rw [ended]
      refine Start.ends code unique
        (events.trans (List.prefix_append _ [StartEvent.read [], StartEvent.wrote []])) ?_
      intro first' second renegotiates
      exact absurd (same _ renegotiates.opens ▸ renegotiates.larger) larger

/-- **Every start goes one of the ways.** -/
theorem start_cases (kernel : StartKernel) (args : StartArgs) (stack : Buffer) :
    Start kernel args (kernel.start args stack) := by
  have nothing : ∀ code, ¬ Mounted kernel ∨ kernel.message 0 = none →
      Start kernel args (.exit code, []) := by
    intro code stops
    refine @Start.ends kernel args code []
      (slice (versionReply (ofList []) 0) 0 initOutMsgSize) [] [] [] ?_
      List.nil_prefix fun first second renegotiates mounted => ?_
    · rw [replyUniqueOf_slice]
      exact versionReply_unique (by decide)
    · rcases stops with unmounted | silent
      · exact absurd mounted unmounted
      · exact absurd (renegotiates.opens.symm.trans silent) (by simp)
  unfold StartKernel.start fuseuringMain
  simp only [Program.run_bind, run_statMountpoint]
  by_cases stat : kernel.stat = true
  rotate_left
  · simp only [Bool.eq_false_of_not_eq_true stat]
    exact nothing 1 (Or.inl fun mounted => stat mounted.stat)
  simp only [stat, Bool.not_true, Bool.false_eq_true, if_false, Program.run_bind, run_openDevice]
  by_cases opened : kernel.openDevice = true
  rotate_left
  · simp only [Bool.eq_false_of_not_eq_true opened]
    exact nothing 2 (Or.inl fun mounted => opened mounted.openDevice)
  simp only [opened, Bool.not_true, Bool.false_eq_true, if_false, Program.run_bind, run_mountFuse]
  by_cases mount : kernel.mount = true
  rotate_left
  · simp only [Bool.eq_false_of_not_eq_true mount]
    exact nothing 3 (Or.inl fun mounted => mount mounted.mount)
  simp only [mount, Bool.not_true, Bool.false_eq_true, if_false, Program.run_bind, run_readSession]
  cases opens : kernel.message 0 with
  | none => exact nothing 4 (Or.inr opens)
  | some first =>
    simp only [write_ofList_nil]
    exact start_negotiate ⟨stat, opened, mount⟩ opens

/-- After two rounds a sound start has validated the second message, under the
`unique` of the first one. -/
theorem second_honest {first second : Delivery} (sound : HandshakeSound (kernel.start args stack))
    (renegotiates : Renegotiates kernel first second) (mounted : Mounted kernel)
    (unhindered : Unhindered kernel args (initBufAfter first second) 1) :
    ValidInit second.bytes ∧ uniqueOf second.bytes = uniqueOf first.bytes := by
  have start := start_cases kernel args stack
  generalize kernel.start args stack = run at start sound
  cases start with
  | ends code answers front hindered =>
    exact absurd unhindered (hindered first second renegotiates mounted)
  | @oneRound workers first' answer opens valid answers =>
    obtain rfl := Option.some.inj (renegotiates.opens.symm.trans opens)
    exact absurd renegotiates.larger (valid.major ▸ Nat.lt_irrefl _)
  | @twoRounds workers first' second' answer final renegotiates' _ _ answers repeats =>
    obtain rfl := Option.some.inj (renegotiates'.opens.symm.trans renegotiates.opens)
    obtain rfl := Option.some.inj (renegotiates'.follows.symm.trans renegotiates.follows)
    obtain ⟨message, reply, last, valid, written, unique⟩ := sound.started workers rfl
    obtain rfl : second'.bytes = message := Option.some.inj last
    obtain rfl : final = reply := Option.some.inj written
    exact ⟨valid, unique.symm.trans repeats⟩

/-- **The handshake is sound unless a second `INIT` is taken for the first.** -/
theorem handshake_sound_iff (kernel : StartKernel) (args : StartArgs) (stack : Buffer) :
    HandshakeSound (kernel.start args stack) ↔
      ∀ first second, Renegotiates kernel first second → Mounted kernel →
        Unhindered kernel args (initBufAfter first second) 1 →
          ValidInit second.bytes ∧ uniqueOf second.bytes = uniqueOf first.bytes := by
  constructor
  · intro sound first second renegotiates mounted unhindered
    exact second_honest sound renegotiates mounted unhindered
  · intro honest
    have start := start_cases kernel args stack
    generalize kernel.start args stack = run at start ⊢
    cases start with
    | ends code answers front hindered =>
      refine ⟨fun workers started => ?_,
        fun _ _ _ _ split more => earlier_answers answers front split more⟩
      cases started
    | @oneRound workers first answer opens valid answers =>
      refine ⟨fun workers' _ => ⟨first.bytes, answer, rfl, valid, rfl, answers⟩,
        fun _ _ _ _ split more => ?_⟩
      exact earlier_answers answers
        (List.prefix_append [StartEvent.read first.bytes, StartEvent.wrote answer]
          [.read [], .wrote []]) split more
    | @twoRounds workers first second answer final renegotiates mounted unhindered
        answers repeats =>
      obtain ⟨valid, same⟩ := honest first second renegotiates mounted unhindered
      refine ⟨fun workers' _ => ⟨second.bytes, final, rfl, valid, rfl, repeats.trans same.symm⟩, ?_⟩
      exact fun _ _ _ _ split more => earlier_answers answers List.prefix_rfl split more

end Starts

/-! ### A second message -/

/-- An `INIT` with these flags. -/
def initMessage (unique major flags : Nat) : List UInt8 :=
  sessionMessage .init unique 0
    (slice (InitIn.flags.store (InitIn.major.store (ofList []) 0 major) 0 flags) 0 InitIn.size)

/-- The deliveries of a kernel of version eight that steps down. -/
def initDelivery (unique major : Nat) : Delivery where
  bytes := initMessage unique major (2 ^ 32 - 1)
  nonempty := by simp [initMessage, sessionMessage, InHeader.size]
  fits := by simp [initMessage, sessionMessage, InHeader.size, InitIn.size, initBufSize]

/-- A kernel of version eight that offers every flag. -/
def laterKernel : StartKernel where
  stat := true
  openDevice := true
  mount := true
  queueInit := true
  message number := some (if number = 0 then initDelivery 1 8 else initDelivery 2 7)
  accepts _ := true

/-- **The final reply to the second `INIT` carries the `unique` of the first one.** -/
theorem second_init_unanswered : ¬ HandshakeSound
    (laterKernel.start ⟨16, 16, 16, 1, 4096⟩ (ofList [])) := by
  intro sound
  have renegotiates : Renegotiates laterKernel (initDelivery 1 8) (initDelivery 2 7) :=
    ⟨rfl, ⟨by decide, by decide⟩, by decide, rfl, rfl⟩
  have unhindered : Unhindered laterKernel ⟨16, 16, 16, 1, 4096⟩
      (initBufAfter (initDelivery 1 8) (initDelivery 2 7)) 1 := ⟨by decide, rfl, Or.inl (by decide)⟩
  have honest := second_honest sound renegotiates ⟨rfl, rfl, rfl⟩ unhindered
  exact absurd honest.2 (by decide)

end Fuseuring
