/-
**Requests on a slot.**

A request comes with its message, the backing file as other slots left it, the kernel that
answers it, and whatever an unassigned pointer leads to. `serve` runs `queue_fuse_read` on it,
and `slotRun` serves one request after the other: `run` takes the slot again after a request that
returned 0, and after one that failed before it queued anything. Any other failure ends `run`.
-/

import Fuseuring.Receive

namespace Fuseuring

open Bytes Interaction

/-- A slot between two requests. -/
structure SlotState where
  fuseIo : FuseIo
  mem : Mem
  pipe : List UInt8

/-- A request and the circumstances it is served in. -/
structure Request where
  message : List UInt8
  file : File
  kernel : Kernel
  /-- What an `rbytes_buf` that is never assigned leads to. -/
  wild : Buffer

/-- The request's header field. -/
def Request.header (request : Request) (field : Field) : Nat :=
  field.load (ofList request.message) 0

/-- The request's body field. -/
def Request.body (request : Request) (field : Field) : Nat :=
  field.load (ofList request.message) InHeader.size

/-- The request's opcode. -/
def Request.opcode (request : Request) : Option Opcode := Opcode.ofCode (opcodeOf request.message)

/-- A message of the session: the header's fields and the body. -/
def sessionMessage (opcode : Opcode) (unique nodeid : Nat) (body : List UInt8) : List UInt8 :=
  let framed :=
    InHeader.opcode.store (InHeader.len.store (ofList []) 0 (InHeader.size + body.length)) 0
    opcode.code
  let header := InHeader.nodeid.store (InHeader.unique.store framed 0 unique) 0 nodeid
  slice header 0 InHeader.size ++ body

/-- The body of a `READ`, and the front of the body of a `WRITE`. -/
def rangeBody (offset count : Nat) : List UInt8 :=
  slice (ReadIn.count.store (ReadIn.offset.store (ofList []) 0 offset) 0 count) 0 ReadIn.size

/-- The kernel that completes every operation as far as there are bytes. -/
def Kernel.full : Kernel :=
  ⟨fun _ _ => true, fun _ _ => 2 ^ 31 - 1, fun _ _ => by decide, fun _ _ => by decide⟩

theorem Kernel.full_prompt : Kernel.full.Prompt :=
  ⟨fun _ _ => rfl, fun _ _ _ => show (0 : Int) < 2 ^ 31 - 1 by decide⟩

/-- A slot in which a handler finds a message: the header and the body in
`header_buf`, or the body in `scratch_buf`. -/
def handlerSlot (message : List UInt8) : World where
  fuseIo := ⟨0⟩
  mem := ⟨ofList message, ofList (message.drop InHeader.size), ofList [], 0, ofList []⟩
  pipe := []
  file := ⟨4096, ofList [], 0⟩
  incoming := []
  entries := []
  reserved := 0
  trace := []
  lastRc := 0
  fault := false

namespace SlotState

/-- The world in which the slot serves a request. -/
def world (slot : SlotState) (request : Request) : World where
  fuseIo := slot.fuseIo
  mem := { slot.mem with wild := request.wild }
  pipe := slot.pipe
  file := request.file
  incoming := request.message
  entries := []
  reserved := 0
  trace := []
  lastRc := 0
  fault := false

theorem world_idle (slot : SlotState) (request : Request) : (slot.world request).Idle := ⟨rfl, rfl⟩

/-- The slot as a request leaves it. -/
def leftBy (slot : SlotState) (after : World) : SlotState := ⟨slot.fuseIo, after.mem, after.pipe⟩

/-- A slot before its first request. -/
def fresh : SlotState := ⟨⟨0⟩, ⟨ofList [], ofList [], ofList [], 0, ofList []⟩, []⟩

end SlotState

/-- A backing file of 4096 bytes. -/
def FuseRing.small : FuseRing := ⟨2 ^ 20, 4096, 4096, by decide, by decide⟩

/-- Serve one request. -/
def serve (ring : FuseRing) (slot : SlotState) (request : Request) : Int × World :=
  exec request.kernel (queueFuseRead ring) (slot.world request)

/-- The slot is taken again: the request returned 0, or it failed before it
took or queued an entry. -/
def reusable (served : Int × World) : Bool :=
  served.1 == 0 || (served.2.trace.isEmpty && served.2.entries.isEmpty)

/-- The requests served one after the other, as long as the slot is taken again. -/
def slotRun (ring : FuseRing) : SlotState → List Request → List (SlotState × Request)
  | _, [] => []
  | slot, request :: rest =>
    let served := serve ring slot request
    (slot, request) :: if reusable served then slotRun ring (slot.leftBy served.2) rest else []

/-- **The induction over a slot's requests**: what a request leaves behind it
is what the next one finds. -/
theorem slotRun_induction {ring : FuseRing} (before : SlotState → Prop) (good : Request → Prop)
    (step : ∀ slot request, before slot → good request → reusable (serve ring slot request) = true →
      before (slot.leftBy (serve ring slot request).2)) :
    ∀ (requests : List Request) (slot : SlotState), before slot →
      (∀ request ∈ requests, good request) →
      ∀ served ∈ slotRun ring slot requests, before served.1 ∧ good served.2 := by
  intro requests
  induction requests with
  | nil => exact fun _ _ _ served member => absurd member List.not_mem_nil
  | cons request rest ih =>
    intro slot start all served member
    rw [slotRun] at member
    rcases List.mem_cons.mp member with rfl | member
    · exact ⟨start, all request List.mem_cons_self⟩
    · by_cases again : reusable (serve ring slot request) = true
      · rw [if_pos again] at member
        exact ih _ (step slot request start (all request List.mem_cons_self) again)
          (fun request' member' => all request' (List.mem_cons_of_mem _ member')) served member
      · rw [if_neg again] at member
        exact absurd member List.not_mem_nil

/-! ### What a handler finds -/

theorem bodyOf_write {message : List UInt8}
    (write : Opcode.ofCode (opcodeOf message) = some .write) :
    bodyOf message = ⟨WriteIn.size, false, true⟩ := by
  simp only [bodyOf, expectedBody, write]

theorem bodyOf_strict {message : List UInt8}
    (other : Opcode.ofCode (opcodeOf message) ≠ some .write) :
    (bodyOf message).allowAddBytes = false := by
  simp only [bodyOf, expectedBody]
  split
  any_goals rfl
  next write => exact absurd write other

/-- Nothing but a `WRITE` has a payload. -/
theorem payload_empty {ring : FuseRing} {message : List UInt8}
    (acceptable : Acceptable ring message)
    (other : Opcode.ofCode (opcodeOf message) ≠ some .write) :
    message.drop (InHeader.size + (bodyOf message).readRbytes) = [] := by
  refine List.drop_eq_nil_of_le ?_
  by_cases nonempty : 0 < (bodyOf message).readRbytes
  · have exact := acceptable.exact nonempty (bodyOf_strict other)
    omega
  · have bare : message.length ≤ InHeader.size :=
      expectedBody_empty (Nat.eq_zero_of_not_pos nonempty)
    omega

theorem requestUnique_lt (mem : Mem) (fuseIo : FuseIo) : requestUnique mem fuseIo < 2 ^ 64 :=
  load_lt _ _ 8

section Delivery

variable {request : Request} {fuseIo : FuseIo} {rbytesBuf : Ptr} {mem : Mem}

/-- What a handler finds behind the header and the body of the message. -/
def Request.payload (request : Request) : List UInt8 :=
  request.message.drop (InHeader.size + (bodyOf request.message).readRbytes)

theorem Delivered.nodeid (delivered : Delivered fuseIo request.message rbytesBuf mem) :
    requestNodeid mem fuseIo = request.header InHeader.nodeid :=
  load_header fuseIo delivered.header (by decide)

theorem Delivered.unique (delivered : Delivered fuseIo request.message rbytesBuf mem) :
    requestUnique mem fuseIo = request.header InHeader.unique :=
  load_header fuseIo delivered.header (by decide)

theorem Delivered.announced (delivered : Delivered fuseIo request.message rbytesBuf mem) :
    mem.load fuseIo.headerBuf InHeader.len = request.header InHeader.len :=
  load_header fuseIo delivered.header (by decide)

/-- The fields of a `WRITE`. -/
theorem Delivered.writeIn (delivered : Delivered fuseIo request.message rbytesBuf mem)
    (write : request.opcode = some .write) :
    mem.load rbytesBuf WriteIn.offset = request.body WriteIn.offset ∧
      mem.load rbytesBuf WriteIn.count = request.body WriteIn.count := by
  have size : (bodyOf request.message).readRbytes = WriteIn.size := by rw [bodyOf_write write]
  refine ⟨delivered.load ?_, delivered.load ?_⟩
  · rw [size]
    decide
  · rw [size]
    decide

/-- The fields of a `READ` and of a `READDIR`. -/
theorem Delivered.readIn (delivered : Delivered fuseIo request.message rbytesBuf mem)
    (reads : request.opcode = some .read ∨ request.opcode = some .readdir) :
    mem.load rbytesBuf ReadIn.offset = request.body ReadIn.offset ∧
      mem.load rbytesBuf ReadIn.count = request.body ReadIn.count := by
  have size : (bodyOf request.message).readRbytes = ReadIn.size := by
    rw [Request.opcode] at reads
    rcases reads with read | readdir
    · simp only [bodyOf, expectedBody, read]
    · simp only [bodyOf, expectedBody, readdir]
  refine ⟨delivered.load ?_, delivered.load ?_⟩
  · rw [size]
    decide
  · rw [size]
    decide

/-- A field of the body is none of the request's header. -/
theorem Delivered.apart (delivered : Delivered fuseIo request.message rbytesBuf mem)
    (nonempty : 0 < (bodyOf request.message).readRbytes) (field field' : Field)
    (inside : field'.offset + field'.width ≤ InHeader.size) :
    Mem.Apart rbytesBuf field fuseIo.headerBuf field' := by
  have start : (fuseIo.headerBuf.add InHeader.size).offset = InHeader.size := Nat.zero_add _
  have zero : fuseIo.headerBuf.offset = 0 := rfl
  rcases delivered.place nonempty with rfl | rfl
  · right
    right
    omega
  · exact Or.inl (bodyTarget_region fuseIo _ _).symm

/-- The clamp leaves the request's number alone. -/
theorem Delivered.clamped_unique (ring : FuseRing)
    (delivered : Delivered fuseIo request.message rbytesBuf mem)
    (read : request.opcode = some .read) :
    requestUnique (readClamped ring rbytesBuf mem) fuseIo = request.header InHeader.unique := by
  have nonempty : 0 < (bodyOf request.message).readRbytes := by
    rw [Request.opcode] at read
    simp only [bodyOf, expectedBody, read]
    decide
  rw [requestUnique, readClamped, Mem.load_store_apart _ (delivered.apart nonempty _ _ (by decide))]
  exact delivered.unique

/-- **What serving a request comes to**: its message is refused, or the second switch has one of its
outcomes in a slot that holds the message. -/
theorem exec_queueFuseRead_outcome (ring : FuseRing) (request : Request) {world : World}
    (idle : world.Idle)
    (empty : world.pipe = []) (incoming : world.incoming = request.message)
    (file : world.file = request.file) :
    (∃ rbytesBuf mem quiet rc events mem' left file',
      Delivered world.fuseIo request.message rbytesBuf mem ∧ (∀ event ∈ quiet, event.Receives) ∧
      Acceptable ring request.message ∧
      DispatchOutcome request.kernel ring world.fuseIo request.opcode rbytesBuf mem request.payload
        request.file rc events mem' left file' ∧
      exec request.kernel (queueFuseRead ring) world =
        (rc, ((world.received mem request.payload quiet).setMem mem').leave left file' events)) ∨
    ∃ after, exec request.kernel (queueFuseRead ring) world = (-1, after) ∧
      ReceiveFailed request.kernel ring world after := by
  rcases exec_queueFuseRead_cases request.kernel ring idle empty with
    ⟨rbytesBuf, mem, quiet, delivered, receives, acceptable, ran⟩ | failed
  · obtain ⟨rc, events, mem', left, file', outcome, ran'⟩ :=
      exec_dispatch_outcome request.kernel ring
      world.fuseIo rbytesBuf (idle.received mem
        (world.incoming.drop (InHeader.size + (bodyOf world.incoming).readRbytes)) quiet)
      (opcodeOf world.incoming)
    have served := ran.trans ran'
    simp only [World.received, World.leave_mem, World.setMem_mem, World.leave_pipe,
      World.leave_file] at outcome
    rw [incoming] at served delivered acceptable outcome
    rw [file] at outcome
    exact Or.inl ⟨rbytesBuf, mem, quiet, rc, events, mem', left, file', delivered,
      receives, acceptable,
      outcome, served⟩
  · exact Or.inr failed

end Delivery

end Fuseuring
