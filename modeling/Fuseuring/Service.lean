/-
**The service stays up.**

A `Service` is what `run` keeps between two requests: the slots, the backing file and `last_rc`.
Each `Turn` starts `queue_read_set_rc` on one of the slots, and `Service.run` returns 19 behind the
first turn that sets `last_rc`. For a kernel without I/O errors that accepts every framed reply to
a request that takes one, no turn fails (`service_stays_up`), unless a request takes no reply at
all, which the server answers nevertheless, or a `READ` starts past the end of the volume.
-/

import Fuseuring.Completion

namespace Fuseuring

open Bytes Interaction

/-! ### The service -/

/-- What `run` keeps between two requests. -/
structure Service where
  pool : Nat → SlotState
  file : File
  lastRc : Int

/-- One of the slots serves a request. -/
structure Turn where
  service : Service
  slot : Nat
  request : Request

namespace Turn

variable (ring : FuseRing) (turn : Turn)

/-- The request with the backing file as it is now. -/
def current : Request := { turn.request with file := turn.service.file }

/-- The world in which `queue_read_set_rc` starts. -/
def world : World :=
  { (turn.service.pool turn.slot).world turn.current with lastRc := turn.service.lastRc }

def served : Int × World := exec turn.request.kernel (queueReadSetRc ring) turn.world

/-- The service as the turn leaves it. -/
def next : Service where
  pool := Function.update turn.service.pool turn.slot
    ((turn.service.pool turn.slot).leftBy (turn.served ring).2)
  file := (turn.served ring).2.file
  lastRc := (turn.served ring).2.lastRc

end Turn

namespace Service

/-- The turns of `run`: a turn that sets `last_rc` is the last one. -/
def turns (ring : FuseRing) : Service → List (Nat × Request) → List Turn
  | _, [] => []
  | service, (slot, request) :: rest =>
    let turn : Turn := ⟨service, slot, request⟩
    turn :: if (turn.next ring).lastRc = 0 then (turn.next ring).turns ring rest else []

/-- What `run` returns in the course of these requests, if it does. -/
def run (ring : FuseRing) : Service → List (Nat × Request) → Option Int
  | _, [] => none
  | service, (slot, request) :: rest =>
    let turn : Turn := ⟨service, slot, request⟩
    if (turn.next ring).lastRc = 0 then (turn.next ring).run ring rest else some 19

/-- **The induction over a run**, with what is recorded of the turns so far. -/
theorem turns_induction {ring : FuseRing} {γ : Type} (record : γ → Turn → γ)
    (holds : γ → Service → Prop)
    (good : Turn → Prop)
    (step : ∀ log turn, holds log turn.service → good turn → (turn.next ring).lastRc = 0 →
      holds (record log turn) (turn.next ring)) :
    ∀ (requests : List (Nat × Request)) (service : Service) (log : γ), holds log service →
      (∀ turn ∈ service.turns ring requests, good turn) →
      ∀ before turn after, service.turns ring requests = before ++ turn :: after →
        holds (before.foldl record log) turn.service := by
  intro requests
  induction requests with
  | nil => exact fun service log _ _ before turn after split => absurd split (by simp [turns])
  | cons first rest ih =>
    obtain ⟨slot, request⟩ := first
    intro service log start all before turn after split
    rw [turns] at split all
    cases before with
    | nil =>
      obtain ⟨rfl, -⟩ := List.cons.inj split
      exact start
    | cons first before =>
      obtain ⟨rfl, tail⟩ := List.cons.inj split
      by_cases again : (Turn.next ring ⟨service, slot, request⟩).lastRc = 0
      · simp only [if_pos again] at tail all
        exact ih _ _ (step log _ start (all _ List.mem_cons_self) again)
          (fun turn member => all turn (List.mem_cons_of_mem _ member)) before turn after tail
      · rw [if_neg again] at tail
        exact absurd tail (by simp)

/-- `run` goes on as long as no turn sets `last_rc`. -/
theorem run_none {ring : FuseRing} :
    ∀ {requests : List (Nat × Request)} {service : Service},
      (∀ turn ∈ service.turns ring requests, (turn.next ring).lastRc = 0) →
      service.run ring requests = none := by
  intro requests
  induction requests with
  | nil => exact fun _ => rfl
  | cons first rest ih =>
    obtain ⟨slot, request⟩ := first
    intro service all
    rw [turns] at all
    have again := all _ List.mem_cons_self
    simp only [run, if_pos again]
    refine ih fun turn member => all turn (List.mem_cons_of_mem _ ?_)
    simpa only [if_pos again] using member

end Service

/-! ### The file does not shrink -/

theorem transfer_size (world : World) (operation : Operation) (bytes : List UInt8) :
    world.file.size ≤ (world.transfer operation bytes).file.size := by
  have sought : ∀ (file : File) (offset : Int) (count : Nat),
      (file.seek offset count).size = file.size := fun file offset count => by
    unfold File.seek
    split <;> rfl
  rcases operation with ⟨fdIn, offIn, fdOut, offOut, nbytes⟩ | _ | _ | _
  · rcases fdIn with _ | _ | _ | _ <;> rcases fdOut with _ | _ | _ | _ <;>
      simp only [World.transfer, sought, File.write, le_rfl] <;> split <;> omega
  all_goals exact le_rfl

theorem perform_size (kernel : Kernel) (sqe : Sqe) (world : World) :
    world.file.size ≤ (world.perform kernel sqe).2.file.size := by
  unfold World.perform
  split
  · exact le_rfl
  next bytes available =>
    by_cases failed : kernel.result world sqe < 0
    · simp only [if_pos failed]
      exact le_rfl
    · simp only [if_neg failed]
      exact transfer_size world sqe.operation _

/-- **No coroutine shortens the file.** -/
theorem exec_size (kernel : Kernel) {α : Type} (program : Coro α) (world : World) :
    world.file.size ≤ (exec kernel program world).2.file.size := by
  refine @exec_relates kernel (fun before after => before.file.size ≤ after.file.size) α
    (fun _ => le_rfl) (fun _ _ _ => Nat.le_trans) ?_ ?_ ?_ (perform_size kernel) program world
  · exact fun _ _ file _ => (congrArg File.size file).ge
  · exact fun _ _ => le_rfl
  · exact fun _ _ _ => le_rfl

section Turns

variable (kernel : Kernel) (ring : FuseRing)

/-- `queue_read_set_rc` keeps a result other than 0. -/
theorem exec_queueReadSetRc (world : World) :
    exec kernel (queueReadSetRc ring) world =
      let done := exec kernel (queueFuseRead ring) (world.record (.called .queueFuseRead))
      (done.1, if done.1 = 0 then done.2 else { done.2 with lastRc := done.1 }) := by
  rw [queueReadSetRc, exec_bind, exec_awaitInt]
  by_cases settled : (exec kernel (queueFuseRead ring)
    (world.record (.called .queueFuseRead))).1 = 0
  · simp [settled]
  · simp only [settled, if_false, ne_eq, not_false_eq_true, if_true]
    rfl

variable {kernel ring} (turn : Turn)

/-- The world in which the turn's `queue_fuse_read` starts. -/
def Turn.entered : World := turn.world.record (.called .queueFuseRead)

/-- The turn's `queue_fuse_read`. -/
def Turn.queued (ring : FuseRing) : Int × World :=
  exec turn.request.kernel (queueFuseRead ring) turn.entered

theorem Turn.entered_idle : turn.entered.Idle := ⟨rfl, rfl⟩

/-- A turn that is settled is its `queue_fuse_read`. -/
theorem Turn.served_settled (settled : (turn.queued ring).1 = 0) :
    turn.served ring = turn.queued ring := by
  rw [Turn.served, exec_queueReadSetRc]
  dsimp only
  rw [Turn.queued, Turn.entered] at settled ⊢
  rw [if_pos settled]

/-- A turn that is not settled leaves its result in `last_rc`. -/
theorem Turn.next_failed (failed : (turn.queued ring).1 ≠ 0) :
    (turn.next ring).lastRc = (turn.queued ring).1 := by
  rw [Turn.next, Turn.served, exec_queueReadSetRc]
  dsimp only
  rw [Turn.queued, Turn.entered] at failed ⊢
  rw [if_neg failed]

/-- Only the turn's own slot changes. -/
theorem Turn.next_empty {turn : Turn} (empty : ∀ slot, (turn.service.pool slot).pipe = [])
    (drained : (turn.served ring).2.pipe = []) (slot : Nat) :
    ((turn.next ring).pool slot).pipe = [] := by
  rw [Turn.next]
  dsimp only
  by_cases own : slot = turn.slot
  · rw [own, Function.update_self]
    exact drained
  · rw [Function.update_of_ne own]
    exact empty slot

end Turns

/-! ### Well-formed requests -/

/-- The requests that take a reply. -/
def Request.TakesReply (request : Request) : Prop :=
  request.opcode ≠ some .forget ∧ request.opcode ≠ some .batchForget

/-- The sizes of the bodies that are one structure. -/
def fixedBody : Opcode → Option Nat
  | .getattr => some GetattrIn.size
  | .setattr => some SetattrIn.size
  | .opendir => some OpenIn.size
  | .open => some OpenIn.size
  | .read => some ReadIn.size
  | .readdir => some ReadIn.size
  | .release => some ReleaseIn.size
  | .releasedir => some ReleaseIn.size
  | _ => none

/-- What a conforming session sends: whole messages, bodies of the declared
size, reads and writes of the volume alone, and offsets that a file can have. -/
structure Conforming (ring : FuseRing) (request : Request) : Prop where
  header : InHeader.size ≤ request.message.length
  fits : request.message.length ≤ ring.maxBufsize
  fixed : ∀ opcode size, request.opcode = some opcode → fixedBody opcode = some size →
    request.message.length = InHeader.size + size
  read : request.opcode = some .read → request.header InHeader.nodeid = 3
  write : request.opcode = some .write → request.header InHeader.nodeid = 3 ∧
    request.header InHeader.len = request.message.length ∧
    request.message.length = InHeader.size + WriteIn.size + request.body WriteIn.count ∧
    request.body WriteIn.offset < 2 ^ 63

/-- No I/O error occurs, and the session takes framed replies to the requests that are pending. -/
structure Faultless (ring : FuseRing) (request : Request) : Prop where
  prompt : request.kernel.Prompt
  serves : request.kernel.Completes Operation.Serves
  accepts : request.TakesReply → ∀ fuseIo reply, reply.length < 2 ^ 31 →
    Framed ring request (ofList reply) reply.length → request.kernel.Accepts fuseIo reply
  rejects : ¬ request.TakesReply → ∀ world sqe, sqe.operation.toFuse = true →
    request.kernel.result world sqe = -ENOENT

/-- A `READ` does not start past the end of the volume, and an `int` holds the length of a
reply with as much as there is behind its start. -/
def ReadsInside (ring : FuseRing) (request : Request) : Prop :=
  request.opcode = some .read → request.body ReadIn.offset ≤ ring.backingFSize ∧
    OutHeader.size + min (request.body ReadIn.count)
      (ring.backingFSize - request.body ReadIn.offset) < 2 ^ 31

section Requests

variable {ring : FuseRing} {request : Request}

/-- `queue_fuse_read` accepts the size of a conforming message. -/
theorem Conforming.acceptable (conforming : Conforming ring request) :
    Acceptable ring request.message := by
  have declared : ∀ opcode size, request.opcode = some opcode → fixedBody opcode = some size →
      request.message.length = InHeader.size + size := conforming.fixed
  have body : InHeader.size + (bodyOf request.message).readRbytes ≤ request.message.length ∧
      ((bodyOf request.message).allowAddBytes = false →
        (bodyOf request.message).readRbytes = request.message.length - InHeader.size) := by
    have header := conforming.header
    have write := conforming.write
    unfold Request.opcode at declared write
    unfold bodyOf expectedBody
    generalize Opcode.ofCode (opcodeOf request.message) = opcode at declared write ⊢
    have sized : ∀ size, request.message.length = InHeader.size + size →
        InHeader.size + size ≤ request.message.length ∧
        size = request.message.length - InHeader.size := by
      intro size length
      omega
    have rest : InHeader.size + (request.message.length - InHeader.size) ≤ request.message.length :=
      (Nat.add_sub_cancel' header).le
    rcases opcode with _ | opcode
    · exact ⟨rest, fun _ => rfl⟩
    · cases opcode with
      | getattr | setattr | opendir | readdir | releasedir | «open» | read | release =>
        have length := sized _ (declared _ _ rfl rfl)
        exact ⟨length.1, fun _ => length.2⟩
      | write =>
        have length := (write rfl).2.2.1
        exact ⟨(Nat.le_add_right _ _).trans length.ge,
          fun strict => absurd strict.symm Bool.false_ne_true⟩
      | _ => exact ⟨rest, fun _ => rfl⟩
  exact ⟨conforming.header, conforming.fits, body.1, fun _ => body.2⟩

/-- No payload of a conforming `WRITE` stays behind. -/
theorem Conforming.absorbed (conforming : Conforming ring request)
    (faultless : Faultless ring request) :
    PayloadAbsorbed request := by
  intro write
  obtain ⟨volume, announced, length, placed⟩ := conforming.write write
  have start : (request.file.start (int64 (request.body WriteIn.offset))).isSome = true := by
    rw [File.start, int64, if_pos placed, if_neg (by omega), if_neg (by omega)]
    rfl
  exact Or.inr ⟨volume, announced.trans length, length.le, start,
    fun fuseIo world found available small =>
    faultless.serves world _ world.pipe ⟨trivial, rfl⟩ available small⟩

/-- **The backing file has what a `READ` inside the volume is clamped to.** -/
theorem ReadsInside.backed (inside : ReadsInside ring request)
    (large : ring.backingFSize ≤ request.file.size) (read : request.opcode = some .read) :
    (request.file.source (int64 (request.body ReadIn.offset))
      (clampedSize ring (request.body ReadIn.offset) (request.body ReadIn.count))).length =
        clampedSize ring (request.body ReadIn.offset) (request.body ReadIn.count) ∧
    OutHeader.size + clampedSize ring (request.body ReadIn.offset)
      (request.body ReadIn.count) < 2 ^ 31 := by
  obtain ⟨start, small⟩ := inside read
  have limit := ring.backingFSize_lt
  have count_lt : request.body ReadIn.count < 2 ^ 32 := load_lt _ _ 4
  have clamped := clampedSize_range (by omega) count_lt (Or.inl start)
  rw [clamped]
  exact ⟨request.file.source_inside (by omega) (by omega), small⟩

/-- A framed reply is accepted. -/
theorem Faultless.taken (faultless : Faultless ring request) (takes : request.TakesReply)
    (fuseIo : FuseIo)
    {reply : List UInt8} (framed : Framed ring request (ofList reply) reply.length)
    (small : reply.length < 2 ^ 31) :
    request.kernel.Accepts fuseIo reply ∧ reply ≠ [] := by
  refine ⟨faultless.accepts takes fuseIo reply small framed, List.ne_nil_of_length_pos ?_⟩
  exact lt_of_lt_of_le (by decide) framed.least

/-- **Whatever the second switch comes to is settled**, for a request that takes a reply. -/
theorem DispatchOutcome.completes {fuseIo : FuseIo} {rbytesBuf : Ptr} {mem : Mem} {rc : Int}
    {events : List Event} {mem' : Mem} {left : List UInt8} {file' : File}
    (conforming : Conforming ring request)
    (faultless : Faultless ring request) (takes : request.TakesReply)
    (inside : ReadsInside ring request) (large : ring.backingFSize ≤ request.file.size)
    (delivered : Delivered fuseIo request.message rbytesBuf mem)
    (outcome : DispatchOutcome request.kernel ring fuseIo request.opcode rbytesBuf mem
      request.payload
      request.file rc events mem' left file') : rc = 0 := by
  have acceptable := conforming.acceptable
  have absorbed := conforming.absorbed faultless
  cases outcome with
  | built plain reply =>
    have other : request.opcode ≠ some .read := fun read =>
      plain.read read (delivered.nodeid.trans (conforming.read read))
    have holds := builtReply_holds ring request fuseIo rbytesBuf mem other
    rw [delivered.unique] at holds
    have small : (scratchBytes fuseIo
        (builtReply ring fuseIo request.opcode rbytesBuf mem)).length < 2 ^ 31 := by
      have most : scratchBufSize < 2 ^ 31 := by decide
      rw [scratchBytes, Mem.bytes, length_slice]
      exact lt_of_le_of_lt (holds.len_le (replySize_le ring other)) most
    obtain ⟨accepts, nonempty⟩ := faultless.taken takes fuseIo holds.framed_bytes small
    rw [plain.payload_empty absorbed acceptable delivered] at reply
    refine reply.completes faultless.prompt.sqe faultless.serves ?_ nonempty small accepts
    exact ⟨trivial, rfl⟩
  | listed readdir reply =>
    have other : request.opcode ≠ some .write := by simp [readdir]
    have framed := readdirReply_framed ring readdir
    have small : (readdirReply (request.header InHeader.unique)
        (request.body ReadIn.offset)).length < 2 ^ 31 := by
      have most : OutHeader.size + EntryOut.size < 2 ^ 31 := by decide
      have inside := replySize_le ring (show request.opcode ≠ some .read by simp [readdir])
      exact lt_of_le_of_lt (framed.total_le.trans (Nat.add_le_add_left inside _)) most
    obtain ⟨accepts, nonempty⟩ := faultless.taken takes fuseIo framed small
    rw [Request.payload, payload_empty acceptable other, delivered.unique,
      (delivered.readIn (Or.inr readdir)).1] at reply
    refine reply.completes faultless.prompt.sqe faultless.serves ?_ nonempty small accepts
    exact ⟨trivial, rfl⟩
  | read read volume outcome =>
    have other : request.opcode ≠ some .write := by simp [read]
    obtain ⟨whole, small⟩ := inside.backed large read
    obtain ⟨offset, count⟩ := readClamped_fields ring rbytesBuf mem
    rw [(delivered.readIn (Or.inl read)).1] at offset
    rw [(delivered.readIn (Or.inl read)).1, (delivered.readIn (Or.inl read)).2] at count
    have size : replySize ring request =
        clampedSize ring (request.body ReadIn.offset) (request.body ReadIn.count) := by
      simp only [replySize, read]
    have headed : Headed fuseIo 0 (OutHeader.size + replySize ring request)
        (request.header InHeader.unique)
        (readHeaded ring fuseIo rbytesBuf mem) := by
      rw [← delivered.clamped_unique ring read, size, ← count]
      exact outHeader_headed (by omega) (requestUnique_lt _ _)
    rw [Request.payload, payload_empty acceptable other, offset, count, ← size] at outcome
    rw [← size] at whole small
    have framed := headed.framed_bytes le_rfl
      (request.file.source (int64 (request.body ReadIn.offset)) (replySize ring request))
        (by rw [whole])
    obtain ⟨accepts, -⟩ :=
      faultless.taken takes fuseIo framed (lt_of_le_of_lt framed.total_le small)
    exact outcome.completes faultless.prompt.sqe faultless.serves headed.len small whole accepts
  | written write volume framed outcome =>
    have size : replySize ring request = WriteOut.size := by simp only [replySize, write]
    obtain ⟨-, -, exact, -⟩ := conforming.write write
    obtain ⟨covered, accepted, -⟩ := absorbed.write fuseIo acceptable write
    have headed := writeFilled_headed fuseIo rbytesBuf mem
    have payload : request.payload.length = request.body WriteIn.count := by
      rw [Request.payload, bodyOf_write write, List.length_drop, exact, Nat.add_sub_cancel_left]
    have short : request.body WriteIn.count < 2 ^ 31 := by
      have fits := conforming.fits
      have limit := ring.maxBufsize_lt
      omega
    rw [(delivered.writeIn write).1, (delivered.writeIn write).2] at outcome
    rw [delivered.unique, ← size] at headed
    have framed' :=
      headed.framed_bytes (Nat.le_add_right OutHeader.size (replySize ring request)) [] rfl
    rw [List.append_nil] at framed'
    have small : OutHeader.size + WriteOut.size < 2 ^ 31 := by decide
    obtain ⟨accepts, -⟩ := faultless.taken takes fuseIo framed'
      (lt_of_le_of_lt framed'.total_le (by rw [size]; exact small))
    refine outcome.completes faultless.prompt.sqe faultless.serves
      (size ▸ headed.len) payload short accepted ?_
    rw [headed.len]
    exact accepts

/-- **A conforming request that takes a reply is settled.** -/
theorem exec_queueFuseRead_settled {world : World} (idle : world.Idle) (empty : world.pipe = [])
    (incoming : world.incoming = request.message) (file : world.file = request.file)
    (conforming : Conforming ring request) (faultless : Faultless ring request)
    (takes : request.TakesReply) (inside : ReadsInside ring request)
    (large : ring.backingFSize ≤ request.file.size) :
    (exec request.kernel (queueFuseRead ring) world).1 = 0 ∧
      (exec request.kernel (queueFuseRead ring) world).2.pipe = [] ∧
      (exec request.kernel (queueFuseRead ring) world).2.lastRc = world.lastRc := by
  have acceptable := conforming.acceptable
  have absorbed := conforming.absorbed faultless
  rcases exec_queueFuseRead_outcome ring request idle empty incoming file with
    ⟨rbytesBuf, mem, quiet, rc, events, mem', left, file', delivered, receives, -, outcome, ran⟩ |
    ⟨after, ran, -, -, failed⟩
  · obtain ⟨-, -, drained⟩ := outcome.synced ring request absorbed acceptable delivered
    have settled := outcome.completes conforming faultless takes inside large delivered
    rw [ran]
    exact ⟨settled, drained settled, rfl⟩
  · exact absurd ⟨faultless.prompt, incoming ▸ acceptable⟩ failed

end Requests

/-! ### Runs -/

/-- The conditions of a turn: a conforming request and no I/O error. -/
structure WellServed (ring : FuseRing) (turn : Turn) : Prop where
  conforming : Conforming ring turn.current
  faultless : Faultless ring turn.current

/-- The turns that do no harm: the request takes a reply, and it reads inside the volume. -/
structure Harmless (ring : FuseRing) (turn : Turn) : Prop where
  takes : turn.current.TakesReply
  inside : ReadsInside ring turn.current

/-- `run` goes on: every `queue_fuse_read` returns 0, `last_rc` stays 0, and no
reply is sent to a request that takes none. -/
def Service.StaysUp (ring : FuseRing) (service : Service)
    (requests : List (Nat × Request)) : Prop :=
  service.run ring requests = none ∧
    ∀ turn ∈ service.turns ring requests,
      (turn.queued ring).1 = 0 ∧ (turn.next ring).lastRc = 0 ∧
        (¬ turn.current.TakesReply → ∀ event ∈ (turn.queued ring).2.trace, event.replies = false)

/-- A service between two requests: no task has failed, every pipe is empty, and the
backing file is at least as long as at the start. -/
structure Service.Ready (ring : FuseRing) (service : Service) : Prop where
  lastRc : service.lastRc = 0
  empty : ∀ slot, (service.pool slot).pipe = []
  large : ring.backingFSize ≤ service.file.size

section Runs

variable {ring : FuseRing} {turn : Turn}

/-- **A harmless turn leaves the service ready.** -/
theorem Turn.ready (ready : turn.service.Ready ring) (served : WellServed ring turn)
    (harmless : Harmless ring turn) :
    (turn.queued ring).1 = 0 ∧ (turn.next ring).Ready ring := by
  obtain ⟨settled, drained, kept⟩ :=
    exec_queueFuseRead_settled turn.entered_idle (ready.empty turn.slot) rfl rfl
    served.conforming served.faultless harmless.takes harmless.inside ready.large
  have same : turn.served ring = turn.queued ring := turn.served_settled settled
  refine ⟨settled, ?_, fun slot => ?_, ?_⟩
  · rw [Turn.next, same]
    exact kept.trans ready.lastRc
  · refine Turn.next_empty ready.empty ?_ slot
    rw [same]
    exact drained
  · exact ready.large.trans (exec_size turn.request.kernel (queueReadSetRc ring) turn.world)

/-- **Harmless requests never shut the service down.** -/
theorem service_stays_up (ring : FuseRing) (service : Service) (requests : List (Nat × Request))
    (ready : service.Ready ring)
    (served : ∀ turn ∈ service.turns ring requests, WellServed ring turn)
    (harmless : ∀ turn ∈ service.turns ring requests, Harmless ring turn) :
    service.StaysUp ring requests := by
  have found : ∀ turn ∈ service.turns ring requests, turn.service.Ready ring := by
    intro turn member
    obtain ⟨before, after, split⟩ := List.append_of_mem member
    exact Service.turns_induction (fun (_ : Unit) _ => ()) (fun _ service => service.Ready ring)
      (fun turn => WellServed ring turn ∧ Harmless ring turn)
      (fun _ _ ready good _ => (Turn.ready ready good.1 good.2).2) requests service () ready
      (fun turn member => ⟨served turn member, harmless turn member⟩) before turn after split
  have all : ∀ turn ∈ service.turns ring requests, (turn.queued ring).1 = 0 ∧
      (turn.next ring).Ready ring :=
    fun turn member => Turn.ready (found turn member) (served turn member) (harmless turn member)
  refine ⟨Service.run_none fun turn member => (all turn member).2.lastRc, fun turn member => ?_⟩
  exact ⟨(all turn member).1, (all turn member).2.lastRc,
    fun none => absurd (harmless turn member).takes none⟩

end Runs

/-! ### A request that takes no reply -/

/-- The kernel that completes every operation, but refuses what is spliced into `fuse_fd`. -/
def Kernel.refusing : Kernel where
  sqe _ _ := true
  result _ sqe := if sqe.operation.toFuse then -ENOENT else 2 ^ 31 - 1
  result_lt _ _ := by split <;> decide
  result_ge _ _ := by split <;> decide

/-- A `FORGET` with its `fuse_forget_in`. -/
def forgetRequest : Request where
  message := sessionMessage .forget 7 3 (List.replicate 8 0)
  file := ⟨4096, ofList [], 0⟩
  kernel := .refusing
  wild := ofList []

def Service.fresh : Service := ⟨fun _ => .fresh, ⟨4096, ofList [], 0⟩, 0⟩

theorem Service.fresh_ready : Service.fresh.Ready .small := ⟨rfl, fun _ => rfl, le_rfl⟩

theorem Kernel.full_completes (kind : Operation → Prop) : Kernel.full.Completes kind := by
  intro world sqe bytes _ _ small
  show (bytes.length : Int) ≤ 2 ^ 31 - 1
  omega

/-- The only turn of a run of one request. -/
theorem Service.turns_one {ring : FuseRing} {service : Service} {slot : Nat}
    {request : Request} {turn : Turn}
    (member : turn ∈ service.turns ring [(slot, request)]) : turn = ⟨service, slot, request⟩ := by
  simpa [Service.turns] using member

theorem readRequest_wellServed : WellServed .small ⟨.fresh, 0, readRequest 3⟩ where
  conforming :=
    { header := by decide +kernel
      fits := by decide +kernel
      fixed := fun opcode size code fixed => by
        have read : (readRequest 3).opcode = some .read := by decide +kernel
        cases read.symm.trans code
        cases fixed
        decide +kernel
      read := fun _ => by decide +kernel
      write := fun write => absurd write (by decide +kernel) }
  faultless :=
    { prompt := Kernel.full_prompt
      serves := Kernel.full_completes _
      accepts := fun _ fuseIo reply small _ world _ => by
        show (reply.length : Int) ≤ 2 ^ 31 - 1
        omega
      rejects := fun none => absurd ⟨by decide +kernel, by decide +kernel⟩ none }

theorem read_stays_up : Service.fresh.StaysUp .small [(0, readRequest 3)] :=
  service_stays_up .small .fresh _ Service.fresh_ready
    (fun _ member => Service.turns_one member ▸ readRequest_wellServed)
    (fun _ member => Service.turns_one member ▸
      ⟨⟨by decide +kernel, by decide +kernel⟩, fun _ => by decide +kernel⟩)

theorem forgetRequest_wellServed : WellServed .small ⟨.fresh, 0, forgetRequest⟩ where
  conforming :=
    { header := by decide +kernel
      fits := by decide +kernel
      fixed := fun opcode size code fixed => by
        have forget : forgetRequest.opcode = some .forget := by decide +kernel
        cases forget.symm.trans code
        cases fixed
      read := fun read => absurd read (by decide +kernel)
      write := fun write => absurd write (by decide +kernel) }
  faultless :=
    { prompt := ⟨fun _ _ => rfl, fun world sqe receives => by
        show (0 : Int) < if sqe.operation.toFuse then -ENOENT else 2 ^ 31 - 1
        rw [receives.inward]
        decide⟩
      serves := fun world sqe bytes served _ small => by
        show (bytes.length : Int) ≤ if sqe.operation.toFuse then -ENOENT else 2 ^ 31 - 1
        rw [served.2]
        exact Int.le_sub_one_of_lt (Int.ofNat_lt.mpr small)
      accepts := fun takes => absurd takes.1 (by decide +kernel)
      rejects := fun _ world sqe out => if_pos out }

/-- A `FORGET` takes no reply and gets one: the session refuses it, and `run` returns 19. -/
theorem forget_shuts_down :
    ¬ ∀ (ring : FuseRing) (service : Service) (requests : List (Nat × Request)),
      service.Ready ring → (∀ turn ∈ service.turns ring requests, WellServed ring turn) →
      service.StaysUp ring requests := by
  intro claim
  have stays := claim .small .fresh [(0, forgetRequest)] Service.fresh_ready
    fun _ member => Service.turns_one member ▸ forgetRequest_wellServed
  exact absurd stays.1 (by decide +kernel)

end Fuseuring
