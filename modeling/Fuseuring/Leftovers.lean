/-
**Replies and what a slot held before.**

A slot's buffers are never cleared. `Replayed` compares two runs of one request, in one
schedule of reads, on two slots that differ in what their buffers hold and in what a stray
`rbytes_buf` leads to: the bytes that go into the pipe as reply are the same. `replayed_iff`:
they are for exactly the requests of `Assigned`, whose reply has every byte assigned from the
request. The padding of `fuse_open_out` and the `dummy` of `fuse_attr_out` are not, `handle_read`
assigns no length to the refusal of another node, and a `LOOKUP` without a name is answered by
what is behind a pointer that was never assigned.
-/

import Fuseuring.Attributes
import Fuseuring.Completion
import Fuseuring.Fragmentation

namespace Fuseuring

open Bytes Interaction

/-! ### What is written -/

/-- The operations that put a reply into the pipe. -/
def Operation.writesReply : Operation → Bool
  | .splice .backing _ (.pipe1 _) _ _ => true
  | .writeFixed (.pipe1 _) _ _ => true
  | .write (.pipe1 _) _ => true
  | _ => false

/-- The bytes an event puts into the pipe as reply. -/
def Event.written : Event → List UInt8
  | .ran operation _ bytes _ => if operation.writesReply then bytes else []
  | _ => []

/-- The bytes that went into the pipe as reply. -/
def written (events : List Event) : List UInt8 := events.flatMap Event.written

theorem written_append (first second : List Event) : written
    (first ++ second) = written first ++ written second :=
  List.flatMap_append

/-- Receiving writes no reply. -/
theorem written_receives {events : List Event} (receives : ∀ event ∈ events, event.Receives) :
    written events = [] := by
  refine List.flatMap_eq_nil_iff.mpr fun event member => ?_
  cases receives event member with
  | called => rfl
  | queued mem reads => rfl
  | ran pipe bytes res reads =>
    refine if_neg fun writes => ?_
    unfold Operation.writesReply at writes
    split at writes <;> first | exact reads | exact Bool.false_ne_true writes

/-- The reply to a request, in reads of these sizes, where an `rbytes_buf` that was never
assigned leads to `wild`. What else the kernel answers is any function of what has been
observed, padding included. -/
def Request.written (ring : FuseRing) (slot : SlotState) (request : Request) (wild : Buffer)
    (reads : Nat → Nat) (others : List Observed → Operation → Int) : List UInt8 :=
  Fuseuring.written
    (serve ring slot { request with kernel := .ofReads none reads others, wild := wild }).2.trace

/-- The reply does not depend on what the slot's buffers held before, nor on what an earlier
request left where a stray pointer leads. -/
def Replayed (ring : FuseRing) (request : Request) : Prop :=
  ∀ (fuseIo : FuseIo) (mem mem' : Mem) (wild wild' : Buffer) (reads : Nat → Nat)
    (others : List Observed → Operation → Int),
    request.written ring ⟨fuseIo, mem, []⟩ wild reads others =
      request.written ring ⟨fuseIo, mem', []⟩ wild' reads others

/-- The node that a `GETATTR` asks about. -/
def Request.getattrNode (request : Request) : Nat :=
  if request.body GetattrIn.getattrFlags &&& fuseGetattrFh > 0 then request.body GetattrIn.fh
  else request.header InHeader.nodeid

/-- Every byte of the reply is assigned from the request: it has no padding, it has a length,
and a name to look up is in the message. -/
structure Assigned (request : Request) : Prop where
  opened : request.opcode ≠ some .open
  opendir : request.opcode ≠ some .opendir
  getattr : request.opcode = some .getattr → request.getattrNode ≠ 1 ∧ request.getattrNode ≠ 3
  read : request.opcode = some .read → request.header InHeader.nodeid = 3
  named : ¬ NamelessLookup request.message

/-! ### Worlds with the same pipe -/

/-- Two worlds that differ in memory only. -/
structure Tandem (first second : World) : Prop where
  pipe : first.pipe = second.pipe
  file : first.file = second.file
  observed : observe none first.trace = observe none second.trace
  written : written first.trace = written second.trace

section Tandem

variable {first second : World} {reads : Nat → Nat} {others : List Observed → Operation → Int}

theorem Tandem.record (tandem : Tandem first second) {event event' : Event}
    (same : event.observed none = event'.observed none) (same' : event.written = event'.written) :
    Tandem (first.record event) (second.record event') := by
  refine ⟨tandem.pipe, tandem.file, ?_, ?_⟩
  · have last : observe none [event] = observe none [event'] := by simp only [observe,
      List.filterMap_cons, same]
    rw [World.record_trace, World.record_trace, observe_append, observe_append,
      tandem.observed, last]
  · have last : Fuseuring.written [event] = Fuseuring.written [event'] := by
      simp only [Fuseuring.written, List.flatMap_cons, same']
    rw [World.record_trace, World.record_trace, written_append, written_append,
      tandem.written, last]

/-- Without padding an entry takes what is in memory. -/
theorem unpadded_none (mem : Mem) (fd : Fd) (buf : Ptr) (count : Nat) (flag : Link) :
    Sqe.unpadded none mem ⟨.writeFixed fd buf count, flag⟩ = mem.bytes buf count := by
  have nowhere : ∀ index, isPadding none index = false := fun _ => rfl
  simp only [Sqe.unpadded, Mem.bytes]
  refine slice_congr fun index _ => ?_
  rw [nowhere, if_neg Bool.false_ne_true, Nat.zero_add]

/-- The same bytes are there for an operation. -/
theorem Tandem.available (tandem : Tandem first second) {sqe : Sqe}
    (other : ¬ sqe.operation.Receives)
    (same : sqe.unpadded none first.mem = sqe.unpadded none second.mem) :
    first.available sqe.operation = second.available sqe.operation := by
  rcases sqe with ⟨⟨fdIn, offIn, fdOut, offOut, nbytes⟩ | ⟨fd, buf, nbytes⟩ | ⟨fd, buf,
    nbytes⟩ | ⟨fd, buf⟩, flag⟩
  · rcases fdIn with _ | _ | _ | _ <;> rcases fdOut with _ | _ | _ | _ <;>
      simp [World.available, Operation.Receives, tandem.pipe, tandem.file] at other ⊢
  · rcases fd with _ | _ | _ | _ <;> first | rfl | exact absurd trivial other
  · rw [unpadded_none, unpadded_none] at same
    rcases fd with _ | _ | _ | _ <;> simp [World.available, same]
  · rcases fd with _ | _ | _ | _ <;> rfl

/-- The same bytes move. -/
theorem Tandem.transfer (tandem : Tandem first second) (operation : Operation)
    (bytes : List UInt8) :
    Tandem (first.transfer operation bytes) (second.transfer operation bytes) := by
  refine ⟨?_, ?_, ?_, ?_⟩
  · unfold World.transfer
    split <;> simp only [tandem.pipe]
  · unfold World.transfer
    split <;> simp only [tandem.file]
  · rw [World.transfer_trace, World.transfer_trace, tandem.observed]
  · rw [World.transfer_trace, World.transfer_trace, tandem.written]

/-- Only a read writes memory. -/
theorem perform_mem (kernel : Kernel) (world : World) {sqe : Sqe}
    (other : ¬ sqe.operation.Receives) :
    (world.perform kernel sqe).2.mem = world.mem := by
  unfold World.perform
  cases found : world.available sqe.operation with
  | none => rfl
  | some bytes =>
    by_cases failed : kernel.result world sqe < 0
    · simp only [if_pos failed]
      rfl
    · simp only [if_neg failed]
      unfold World.transfer
      split
      all_goals try rfl
      next fd buf nbytes operation =>
        rw [operation] at found other
        rcases fd with _ | _ | _ | _
        · cases found
        · cases found
        · exact absurd trivial other
        · cases found

/-- **One operation.** -/
theorem Tandem.perform (tandem : Tandem first second) {sqe : Sqe} (other : ¬ sqe.operation.Receives)
    (same : sqe.unpadded none first.mem = sqe.unpadded none second.mem) :
    (first.perform (.ofReads none reads others) sqe).1 =
      (second.perform (.ofReads none reads others) sqe).1 ∧
      Tandem (first.perform (.ofReads none reads others) sqe).2
        (second.perform (.ofReads none reads others) sqe).2 := by
  have result : (Kernel.ofReads none reads others).result first sqe =
      (Kernel.ofReads none reads others).result second sqe := by
    show ite _ _ _ = ite _ _ _
    rw [if_neg other, if_neg other, tandem.observed]
  unfold World.perform
  rw [tandem.available other same, result]
  cases second.available sqe.operation with
  | none => exact ⟨rfl, tandem.record rfl rfl⟩
  | some bytes =>
    by_cases failed : (Kernel.ofReads none reads others).result second sqe < 0
    · simp only [if_pos failed]
      exact ⟨trivial, tandem.record rfl rfl⟩
    · simp only [if_neg failed]
      exact ⟨trivial, (tandem.transfer _ _).record rfl rfl⟩

/-- **A chain.** -/
theorem Tandem.runChain {chain : List Sqe} (others' : ∀ sqe ∈ chain, ¬ sqe.operation.Receives)
    {first second : World}
    (tandem : Tandem first second) (same : ∀ sqe ∈ chain, sqe.unpadded none first.mem =
      sqe.unpadded none second.mem) :
    (World.runChain (.ofReads none reads others) chain first).1 =
        (World.runChain (.ofReads none reads others) chain second).1 ∧
      Tandem (World.runChain (.ofReads none reads others) chain first).2
        (World.runChain (.ofReads none reads others) chain second).2 := by
  let relates : World → World → Prop := fun first second =>
    Tandem first second ∧ ∀ sqe ∈ chain, sqe.unpadded none first.mem = sqe.unpadded none second.mem
  have ran := @World.runChain_lockstep (.ofReads none reads others)
    (.ofReads none reads others) relates chain ?_ first second
    ⟨tandem, same⟩
  · exact ⟨ran.1, ran.2.1⟩
  · intro sqe member before before' related
    have other := others' sqe member
    obtain ⟨result, after⟩ :=
      @Tandem.perform before before' reads others related.1 sqe other (related.2 sqe member)
    refine ⟨result, after, ?_⟩
    rw [perform_mem (.ofReads none reads others) before other,
      perform_mem (.ofReads none reads others) before' other]
    exact related.2

/-- **One kernel runs worlds with the same pipe in lockstep.** -/
theorem tandem_lockstep (reads : Nat → Nat) (others : List Observed → Operation → Int) :
    Lockstep none (.ofReads none reads others) (.ofReads none reads others) Tandem where
  sqe _ _ := rfl
  called tandem function := tandem.record rfl rfl
  setMem tandem mem mem' := ⟨tandem.pipe, tandem.file, tandem.observed, tandem.written⟩
  submit := by
    intro first second tandem chain others' same
    have entries : chain.map (fun sqe => (sqe, sqe.unpadded none first.mem)) =
        chain.map (fun sqe => (sqe, sqe.unpadded none second.mem)) :=
      List.map_congr_left fun sqe member => by rw [same sqe member]
    refine Tandem.runChain others' (tandem.record ?_ rfl) same
    rw [Event.observed, Event.observed, entries]

end Tandem

/-! ### Replies with every byte assigned -/

section Replies

variable {ring : FuseRing} {request : Request} {fuseIo : FuseIo} {wild wild' : Buffer}
  {rbytesBuf rbytesBuf' : Ptr}
  {first second : Mem}

/-- The node that `handle_getattr` finds. -/
theorem Received.getattrNode (received : Received fuseIo request.message wild rbytesBuf first)
    (getattr : request.opcode = some .getattr) :
    getattrNodeid first fuseIo rbytesBuf = request.getattrNode := by
  have body : (bodyOf request.message).readRbytes = GetattrIn.size := by
    rw [Request.opcode] at getattr
    simp only [bodyOf, expectedBody, getattr]
  have field : ∀ field : Field, field.offset + field.width ≤ GetattrIn.size →
      first.load rbytesBuf field = request.body field :=
    fun field inside => received.load (by rw [body]; exact inside)
  rw [getattrNodeid, Request.getattrNode, field _ (by decide), field _ (by decide), received.nodeid]

/-- An error of `send_attr` is a header. -/
theorem attrReply_refused (unique : Nat) {nodeid : Nat} (root : nodeid ≠ 1)
    (volume : nodeid ≠ 3) (mem : Mem) :
    (attrReply ring fuseIo unique nodeid mem).load fuseIo.scratchBuf OutHeader.len =
      OutHeader.size := by
  unfold attrReply
  dsimp only
  rw [if_neg root, if_neg volume, Mem.load_store_same]
  rfl

/-- The body of a `SETATTR` is in `scratch_buf` behind the place of the padding. -/
theorem Received.setattr_agree (received : Received fuseIo request.message wild rbytesBuf first)
    (received' : Received fuseIo request.message wild' rbytesBuf' second)
    (setattr : request.opcode = some .setattr)
    (place : rbytesBuf = fuseIo.scratchBuf) (place' : rbytesBuf' = fuseIo.scratchBuf) :
    Agree first second (· < SetattrIn.size) := by
  have body : (bodyOf request.message).readRbytes = SetattrIn.size := by
    rw [Request.opcode] at setattr
    simp only [bodyOf, expectedBody, setattr]
  intro index inside
  have found := received.body index (body ▸ inside)
  have found' := received'.body index (body ▸ inside)
  have start : fuseIo.scratchBuf.offset + index = index := Nat.zero_add index
  rw [place, start] at found
  rw [place', start] at found'
  exact found.trans found'.symm

/-- **The same reply is built whatever the buffers held.** -/
theorem Assigned.built_same (assigned : Assigned request)
    (header : InHeader.size ≤ request.message.length)
    (received : Received fuseIo request.message wild rbytesBuf first)
    (received' : Received fuseIo request.message wild' rbytesBuf' second)
    (placed : request.opcode = some .setattr → rbytesBuf = fuseIo.scratchBuf ∧
      rbytesBuf' = fuseIo.scratchBuf)
    (plain : Plain fuseIo request.opcode rbytesBuf first) :
    SameReply none fuseIo (builtReply ring fuseIo request.opcode rbytesBuf first)
      (builtReply ring fuseIo request.opcode rbytesBuf' second) := by
  have unique : requestUnique first fuseIo = requestUnique second fuseIo :=
    received.unique.trans received'.unique.symm
  have node : requestNodeid first fuseIo = requestNodeid second fuseIo :=
    received.nodeid.trans received'.nodeid.symm
  have bare : ∀ error, SameReply none fuseIo (bareReply fuseIo error first)
      (bareReply fuseIo error second) := by
    intro error
    refine .of_agree le_rfl ?_ (bareReply_headed _).len.le
    exact (bareReply_agree received received' error).mono fun index inside => inside.1
  have getattr := fun getattr => received.getattrNode getattr
  have getattr' := fun getattr => received'.getattrNode getattr
  have setattr := (received.attrNodeid received').2
  have filled := fun setattr => received.setattr_agree received' setattr (placed setattr).1
    (placed setattr).2
  have lookup := fun lookup => lookupReply_agree ring received received' lookup fun none =>
    absurd ⟨lookup, le_antisymm (expectedBody_empty none) header⟩ assigned.named
  have read := fun read => plain.read read (received.nodeid.trans (assigned.read read))
  have readdir := plain.readdir
  obtain ⟨opened, opendir, refused, -, -⟩ := assigned
  generalize request.opcode = opcode at *
  unfold builtReply
  rcases opcode with _ | opcode
  · exact bare _
  · cases opcode with
    | getattr =>
      obtain ⟨root, volume⟩ := refused rfl
      dsimp only
      rw [getattr rfl, getattr' rfl, unique]
      refine .of_agree le_rfl ?_ (attrReply_refused _ root volume second).le
      refine (attrReply_agree _ _).mono fun index inside => ?_
      have small : index < 16 := inside.1
      exact ⟨small.trans (by decide), Or.inl (by omega)⟩
    | setattr =>
      dsimp only
      rw [setattr rfl, unique]
      refine .of_agree (Nat.le_add_right OutHeader.size AttrOut.size) ?_
        (attrReply_holds ring (requestUnique_lt second fuseIo) _).total_le
      refine ((filled rfl).attrReply _ _).mono fun index inside => ⟨inside.1, ?_⟩
      rw [SetattrIn.size]
      omega
    | opendir => exact absurd rfl opendir
    | «open» => exact absurd rfl opened
    | lookup =>
      refine .of_agree (Nat.le_add_right OutHeader.size EntryOut.size) ?_
        (lookupReply_holds ring rbytesBuf').total_le
      exact (lookup rfl).mono fun index inside => inside.1
    | read => exact (read rfl).elim
    | readdir => exact absurd rfl readdir
    | write =>
      dsimp only
      rw [node]
      exact bare _
    | _ => exact bare _

end Replies

/-! ### Whole requests -/

section Whole

variable {ring : FuseRing} {request : Request} {wild : Buffer} {reads : Nat → Nat}
  {others : List Observed → Operation → Int}

/-- The body of a `SETATTR` does not fit `header_buf`. -/
theorem setattr_place {fuseIo : FuseIo} {message : List UInt8} {rbytesBuf : Ptr} {mem : Mem}
    (setattr : Opcode.ofCode (opcodeOf message) = some .setattr)
    (delivered : Delivered fuseIo message rbytesBuf mem)
    (room : rbytesBuf.Holds mem.size
      ((bodyOf message).readRbytes + if (bodyOf message).addZero then 1 else 0)) : rbytesBuf =
        fuseIo.scratchBuf := by
  have body : bodyOf message = ⟨SetattrIn.size, false, false⟩ := by simp only [bodyOf,
    expectedBody, setattr]
  have place := delivered.place (by rw [body]; decide)
  rw [body] at room place
  rcases place with rfl | target
  · have inside : (fuseIo.headerBuf.add InHeader.size).offset + (SetattrIn.size + 0) ≤
        headerBufSize := room
    have start : (fuseIo.headerBuf.add InHeader.size).offset = InHeader.size := Nat.zero_add _
    rw [start] at inside
    exact absurd inside (by decide)
  · exact target

/-- A message that the size check accepts comes to the second switch, in whatever reads. -/
theorem written_received (fuseIo : FuseIo) (mem : Mem)
    (acceptable : Acceptable ring request.message) :
    ∃ rbytesBuf mem' quiet, Received fuseIo request.message wild rbytesBuf mem' ∧
      (request.opcode = some .setattr → rbytesBuf = fuseIo.scratchBuf) ∧
      (∀ event ∈ quiet, event.Receives) ∧
      request.written ring ⟨fuseIo, mem, []⟩ wild reads others =
        written (exec (.ofReads none reads others)
          (dispatch ring fuseIo (opcodeOf request.message) rbytesBuf)
          (((SlotState.mk fuseIo mem []).world { request with wild := wild }).received mem'
            (request.message.drop (InHeader.size + (bodyOf request.message).readRbytes))
            quiet)).2.trace := by
  let slot : SlotState := ⟨fuseIo, mem, []⟩
  let request' : Request := { request with wild := wild }
  rcases exec_queueFuseReadWith_placed (.ofReads none reads others) ring
    (slot.world_idle request') rfl with
    ⟨count, rbytesBuf, mem', quiet, delivered, placed, room, receives, -, ran⟩ | ⟨after,
      -, -, -, failed⟩
  · refine ⟨rbytesBuf, mem', quiet, ⟨delivered, placed.bare⟩, fun setattr => ?_, receives, ?_⟩
    · have nonempty : 0 < (bodyOf request.message).readRbytes := by
        rw [Request.opcode] at setattr
        simp only [bodyOf, expectedBody, setattr]
        decide
      exact setattr_place setattr delivered (room nonempty)
    · have served : exec (.ofReads none reads others) (queueFuseRead ring)
          (slot.world request') = _ :=
        (exec_queueFuseRead _ ring).trans (ran (dispatch ring fuseIo))
      rw [Request.written, serve]
      exact congrArg (fun served : Int × World => Fuseuring.written served.2.trace) served
  · exact absurd ⟨Kernel.ofReads_prompt _ _ _, acceptable⟩ failed

/-- A message that is refused is not answered. -/
theorem written_refused (fuseIo : FuseIo) (mem : Mem)
    (refused : ¬ Acceptable ring request.message) :
    request.written ring ⟨fuseIo, mem, []⟩ wild reads others = [] := by
  let slot : SlotState := ⟨fuseIo, mem, []⟩
  let request' : Request := { request with kernel := .ofReads none reads others, wild := wild }
  rcases exec_queueFuseRead_placed (.ofReads none reads others) ring
    (slot.world_idle request') rfl with
    ⟨_, _, _, _, -, -, -, acceptable, -⟩ | ⟨after, ran, stopped, -, -⟩
  · exact absurd acceptable refused
  · obtain ⟨events, added, receives⟩ := stopped
    have served : serve ring slot request' = _ := ran
    have nothing : after.trace = events := added
    rw [Request.written, served, nothing]
    exact written_receives receives

/-- **Requests whose reply has every byte assigned are replayed.** -/
theorem Assigned.replayed (assigned : Assigned request)
    (acceptable : Acceptable ring request.message) :
    Replayed ring request := by
  intro fuseIo mem mem' wild wild' reads others
  obtain ⟨rbytesBuf, start, quiet, received, place, receives, ran⟩ :=
    @written_received ring request wild reads others fuseIo mem acceptable
  obtain ⟨rbytesBuf', start', quiet', received', place', receives', ran'⟩ :=
    @written_received ring request wild' reads others fuseIo mem' acceptable
  have tandem : Tandem
      (((SlotState.mk fuseIo mem []).world { request with wild := wild }).received start
        (request.message.drop (InHeader.size + (bodyOf request.message).readRbytes)) quiet)
      (((SlotState.mk fuseIo mem' []).world { request with wild := wild' }).received start'
        (request.message.drop (InHeader.size + (bodyOf request.message).readRbytes)) quiet') := by
    refine ⟨rfl, rfl, ?_, ?_⟩
    · show observe none ([] ++ quiet) = observe none ([] ++ quiet')
      rw [List.nil_append, List.nil_append, observe_receives _ receives,
        observe_receives _ receives']
    · show written ([] ++ quiet) = written ([] ++ quiet')
      rw [List.nil_append, List.nil_append, written_receives receives, written_receives receives']
  have same := fun plain => @Assigned.built_same ring request fuseIo wild wild' rbytesBuf
    rbytesBuf' start start' assigned acceptable.header received received'
    (fun setattr => ⟨place setattr, place' setattr⟩) plain
  rw [ran, ran']
  exact ((tandem_lockstep reads others).dispatch ring tandem
    (((SlotState.mk fuseIo mem []).world_idle { request with wild := wild }).received _ _ _)
    (((SlotState.mk fuseIo mem' []).world_idle { request with wild := wild' }).received _ _ _)
    received received' same).written

end Whole

/-! ### Replies with bytes that nobody assigned -/

/-- The answers that move all there is. -/
def allMoved : List Observed → Operation → Int := fun _ _ => 2 ^ 31 - 1

/-- The kernel that reads a header and a body of forty bytes at once and moves all there is. -/
def Kernel.replayed : Kernel := .ofReads none (fun _ => 79) allMoved

theorem Kernel.replayed_serves : Kernel.replayed.Completes Operation.Serves := by
  intro world sqe bytes serves _ small
  have other : ¬ sqe.operation.Receives := by
    intro receives
    have plain := serves.1
    unfold Operation.Receives at receives
    split at receives
    · next operation => rw [operation] at plain; exact plain
    · next operation => rw [operation] at plain; exact plain
    · exact receives
  have result : Kernel.replayed.result world sqe = 2 ^ 31 - 1 := if_neg other
  omega

section Written

variable {kernel : Kernel} {fuseIo : FuseIo} {mem : Mem}

/-- **A reply that nothing cuts is written whole.** -/
theorem ReplyOutcome.written {pipe left : List UInt8} {rc : Int} {events : List Event}
    (entries : ∀ world, kernel.sqe world 2 = true) (serves : kernel.Completes Operation.Serves)
    (small : mem.load fuseIo.scratchBuf OutHeader.len < 2 ^ 31)
    (outcome : ReplyOutcome kernel fuseIo mem (scratchReply fuseIo mem)
      (scratchBytes fuseIo mem) pipe rc events left) :
    written events = scratchBytes fuseIo mem := by
  have whole : ∀ pipe res rest, (∀ event ∈ rest, event.written = []) →
      Fuseuring.written (.queued (replyChain fuseIo (scratchReply fuseIo mem)) mem ::
        .ran (scratchReply fuseIo mem) pipe (scratchBytes fuseIo mem) res :: rest) =
          scratchBytes fuseIo mem := by
    intro pipe res rest none
    show [] ++ (scratchBytes fuseIo mem ++ rest.flatMap Event.written) = _
    rw [List.flatMap_eq_nil_iff.mpr none, List.append_nil, List.nil_append]
  cases outcome with
  | unqueued missing =>
    obtain ⟨world, missing⟩ := missing
    exact absurd (entries world) missing
  | cut bytes res moved short =>
    have length : (scratchBytes fuseIo mem).length < 2 ^ 31 := by rwa
      [scratchBytes, Mem.bytes, length_slice]
    obtain ⟨-, rfl⟩ :=
      moved.completes serves ⟨trivial, rfl⟩ length (Or.inr fun world => Option.some_ne_none _)
    exact absurd short (lt_irrefl _)
  | lost bytes res moved short =>
    exact whole _ _ _ fun event member => List.mem_singleton.mp member ▸ rfl
  | delivered => exact whole _ _ _ fun event member => List.mem_singleton.mp member ▸ rfl

/-- The reply of a request that is answered from `scratch_buf` alone. -/
theorem written_dispatch {world : World} {ring : FuseRing} {rbytesBuf : Ptr} {opcode : Nat}
    (idle : world.Idle)
    (plain : Plain fuseIo (Opcode.ofCode opcode) rbytesBuf world.mem)
    (small : (builtReply ring fuseIo (Opcode.ofCode opcode) rbytesBuf world.mem).load
      fuseIo.scratchBuf OutHeader.len <
      2 ^ 31) :
    written (exec .replayed (dispatch ring fuseIo opcode rbytesBuf) world).2.trace =
      written world.trace ++ scratchBytes fuseIo
        (builtReply ring fuseIo (Opcode.ofCode opcode) rbytesBuf world.mem) := by
  let built := builtReply ring fuseIo (Opcode.ofCode opcode) rbytesBuf world.mem
  obtain ⟨rc, events, pipe, outcome, sent⟩ := exec_sendReply_outcome .replayed fuseIo
    (((idle.setMem built).leave world.pipe world.file (callsOf (Opcode.ofCode opcode))).record
      (.called .sendReply))
  have calls : written (callsOf (Opcode.ofCode opcode)) = [] := by
    refine List.flatMap_eq_nil_iff.mpr fun event member => ?_
    obtain ⟨function, rfl⟩ := callsOf_called _ event member
    rfl
  have reply := ReplyOutcome.written (fun _ => rfl) Kernel.replayed_serves small outcome
  rw [exec_dispatch_plain _ ring fuseIo rbytesBuf idle opcode plain, sent]
  simp only [World.leave_trace, World.record_trace, World.setMem_trace, written_append, calls,
    List.append_nil]
  rw [reply]
  show written world.trace ++ [] ++ _ = _
  rw [List.append_nil]

end Written

section Converse

variable {ring : FuseRing} {request : Request}

/-- A slot whose `scratch_buf` is full of a byte. -/
def Mem.filled (byte : UInt8) : Mem := ⟨ofList [], fun _ => byte, ofList [], 0, ofList []⟩

/-- **What a short request is answered over an earlier content of `scratch_buf`.** -/
theorem written_filled (acceptable : Acceptable ring request.message) {size : Nat}
    (body : bodyOf request.message = ⟨size, false, false⟩) (nonempty : 0 < size)
    (short : size ≤ WriteIn.size)
    (plain : ∀ buf mem, Received ⟨0⟩ request.message request.wild buf mem →
      Plain ⟨0⟩ request.opcode buf mem)
    (byte : UInt8)
    (small : ∀ buf mem, Received ⟨0⟩ request.message request.wild buf mem →
      mem.scratchBuf = (fun _ => byte) →
      (builtReply ring ⟨0⟩ request.opcode buf mem).load
        (FuseIo.scratchBuf ⟨0⟩) OutHeader.len < 2 ^ 31) :
    ∃ rbytesBuf mem, Received ⟨0⟩ request.message request.wild rbytesBuf mem ∧
      mem.scratchBuf = (fun _ => byte) ∧
      request.written ring ⟨⟨0⟩, .filled byte, []⟩ request.wild (fun _ => 79) allMoved =
        scratchBytes ⟨0⟩ (builtReply ring ⟨0⟩ request.opcode rbytesBuf mem) := by
  let slot : SlotState := ⟨⟨0⟩, .filled byte, []⟩
  have each : ∀ before buf count, Kernel.replayed.result before (readSqe slot.fuseIo buf count) =
      (80 : Nat) := by
    intro before buf count
    rw [Kernel.replayed, Kernel.ofReads_result _ _ _ _ (readSqe_receives slot.fuseIo buf count)]
    omega
  have length : request.message.length = InHeader.size + size := acceptable.length_eq body nonempty
  obtain ⟨rbytesBuf, mem, quiet, delivered, placed, receives, ran⟩ := exec_queueFuseRead_limit
    (slot.world_idle request) rfl (Kernel.ofReads_prompt _ _ _) acceptable 80 (by decide) each
  have received : Received ⟨0⟩ request.message request.wild rbytesBuf mem :=
    ⟨delivered, placed.bare⟩
  have at' : PlacedAt ⟨0⟩ request.message
      (min 80 (min (InHeader.size + WriteIn.size) request.message.length))
      (slot.world request).mem rbytesBuf mem := placed
  have count : min 80 (min (InHeader.size + WriteIn.size) request.message.length) =
      InHeader.size + size := by
    rw [WriteIn.size] at short
    rw [length, InHeader.size, WriteIn.size]
    omega
  rw [count] at at'
  obtain ⟨-, kept⟩ := at'.header (by rw [body]; exact nonempty) (by rw [body]) (by rw [body])
  refine ⟨rbytesBuf, mem, received, kept, ?_⟩
  let world := (slot.world request).received mem
    (request.message.drop (InHeader.size + (bodyOf request.message).readRbytes)) quiet
  have idle : world.Idle := (slot.world_idle request).received _ _ _
  have front : written world.trace = [] := written_receives receives
  have answered := @written_dispatch ⟨0⟩ world ring rbytesBuf (opcodeOf request.message) idle
    (plain rbytesBuf mem received) (small rbytesBuf mem received kept)
  rw [front, List.nil_append] at answered
  have served : serve ring slot { request with kernel := .ofReads none (fun _ => 79) allMoved } =
      exec .replayed (dispatch ring ⟨0⟩ (opcodeOf request.message) rbytesBuf) world := ran
  rw [Request.written, served]
  exact answered

/-- A reply that shows what was in `scratch_buf` is not replayed. -/
theorem Replayed.same (replayed : Replayed ring request)
    (acceptable : Acceptable ring request.message) {size : Nat}
    (body : bodyOf request.message = ⟨size, false, false⟩) (nonempty : 0 < size)
    (short : size ≤ WriteIn.size)
    (plain : ∀ buf mem, Received ⟨0⟩ request.message request.wild buf mem →
      Plain ⟨0⟩ request.opcode buf mem)
    (small : ∀ byte buf mem, byte.toNat ≤ 1 → Received ⟨0⟩ request.message request.wild buf mem →
      mem.scratchBuf = (fun _ => byte) → (builtReply ring ⟨0⟩ request.opcode buf mem).load
        (FuseIo.scratchBuf ⟨0⟩) OutHeader.len < 2 ^ 31) :
    ∃ rbytesBuf mem rbytesBuf' mem', Received ⟨0⟩ request.message request.wild rbytesBuf mem ∧
      Received ⟨0⟩ request.message request.wild rbytesBuf' mem' ∧
      mem.scratchBuf = (fun _ => 0) ∧ mem'.scratchBuf = (fun _ => 1) ∧
      scratchBytes ⟨0⟩ (builtReply ring ⟨0⟩ request.opcode rbytesBuf mem) =
        scratchBytes ⟨0⟩ (builtReply ring ⟨0⟩ request.opcode rbytesBuf' mem') := by
  obtain ⟨rbytesBuf, mem, received, kept, ran⟩ :=
    written_filled acceptable body nonempty short plain 0
    fun buf mem => small 0 buf mem (by decide)
  obtain ⟨rbytesBuf', mem', received', kept', ran'⟩ :=
    written_filled acceptable body nonempty short plain 1
    fun buf mem => small 1 buf mem (by decide)
  have same := replayed ⟨0⟩ (.filled 0) (.filled 1) request.wild request.wild (fun _ => 79) allMoved
  rw [ran, ran'] at same
  exact ⟨rbytesBuf, mem, rbytesBuf', mem', received, received', kept, kept', same⟩

section Untouched

variable {mem : Mem} {pointer : Ptr} {index : Nat}

/-- An assignment elsewhere keeps a byte of `scratch_buf`. -/
theorem scratch_store {field : Field} (value : Nat)
    (outside : index < pointer.offset + field.offset ∨
    pointer.offset + field.offset + field.width ≤ index) :
    (mem.store pointer field value).scratchBuf index = mem.scratchBuf index := by
  unfold Mem.store
  cases region : pointer.region with
  | scratch =>
    show Field.store field mem.scratchBuf pointer.offset value index = _
    exact store_outside outside
  | header | free | wild => rfl

theorem scratch_copy {bytes : List UInt8} (outside : index < pointer.offset ∨
    pointer.offset + bytes.length ≤ index) :
    (mem.copy pointer bytes).scratchBuf index = mem.scratchBuf index := by
  unfold Mem.copy
  cases region : pointer.region with
  | scratch =>
    show write mem.scratchBuf pointer.offset bytes index = _
    exact write_outside outside
  | header | free | wild => rfl

theorem scratch_outHeader {fuseIo : FuseIo} (error : Int) (len unique : Nat)
    (behind : OutHeader.size ≤ index) :
    (outHeader mem fuseIo error len unique).scratchBuf index = mem.scratchBuf index := by
  have start : fuseIo.scratchBuf.offset = 0 := rfl
  rw [OutHeader.size] at behind
  have above : ∀ field : Field, field.offset + field.width ≤ 16 →
      fuseIo.scratchBuf.offset + field.offset + field.width ≤ index := by
    intro field inside
    omega
  rw [outHeader, scratch_store _ (Or.inr (above _ (by decide))),
    scratch_store _ (Or.inr (above _ (by decide))),
    scratch_store _ (Or.inr (above _ (by decide)))]

/-- `fuse_open_out` leaves its padding. -/
theorem scratch_openReply (fuseIo : FuseIo) (rbytesBuf : Ptr) (fh extraFlags : Nat) :
    (openReply fuseIo rbytesBuf fh extraFlags mem).scratchBuf 28 = mem.scratchBuf 28 := by
  have start : (fuseIo.scratchBuf.add OutHeader.size).offset = 16 := rfl
  rw [openReply, scratch_store _ (Or.inr (by rw [start]; decide)),
    scratch_store _ (Or.inr (by rw [start]; decide)),
    scratch_outHeader _ _ _ (by decide)]

theorem scratch_fillAttr (ring : FuseRing) (base : Ptr) (volume : Bool)
    (below : index < base.offset) :
    (fillAttr ring mem base volume).scratchBuf index = mem.scratchBuf index := by
  have front : ∀ field : Field, index < base.offset + field.offset := fun field => by omega
  unfold fillAttr
  cases volume with
  | true =>
    simp only [if_true, scratch_store _ (Or.inl (front _)), scratch_copy (Or.inl below)]
  | false =>
    simp only [Bool.false_eq_true, if_false, scratch_store _ (Or.inl (front _)),
      scratch_copy (Or.inl below)]

/-- `fuse_attr_out` leaves its `dummy`. -/
theorem scratch_attrReply (ring : FuseRing) (fuseIo : FuseIo) (unique : Nat) {nodeid : Nat}
    (known : nodeid = 1 ∨ nodeid = 3) :
    (attrReply ring fuseIo unique nodeid mem).scratchBuf 28 = mem.scratchBuf 28 := by
  have start : (fuseIo.scratchBuf.add OutHeader.size).offset = 16 := rfl
  have attr : 28 < ((fuseIo.scratchBuf.add OutHeader.size).add AttrOut.attr).offset :=
    show 28 < 32 by decide
  unfold attrReply
  dsimp only
  rcases known with rfl | rfl
  · rw [if_pos rfl, scratch_fillAttr _ _ _ attr, scratch_store _ (Or.inr (by rw [start]; decide)),
      scratch_store _ (Or.inr (by rw [start]; decide)), scratch_outHeader _ _ _ (by decide)]
  · rw [if_neg (by decide), if_pos rfl, scratch_fillAttr _ _ _ attr,
      scratch_store _ (Or.inr (by rw [start]; decide)),
      scratch_store _ (Or.inr (by rw [start]; decide)), scratch_outHeader _ _ _ (by decide)]

end Untouched

/-- A byte of the reply. -/
theorem scratchBytes_getElem {fuseIo : FuseIo} {mem : Mem} {index : Nat}
    (inside : index < mem.load fuseIo.scratchBuf OutHeader.len) :
    (scratchBytes fuseIo mem)[index]? = some (mem.scratchBuf index) := by
  have found :=
    slice_getElem (mem.buffer fuseIo.scratchBuf.region) fuseIo.scratchBuf.offset _ index inside
  have start : fuseIo.scratchBuf.offset + index = index := Nat.zero_add index
  rw [start] at found
  exact found

/-- **A reply that leaves a byte of itself is not replayed.** -/
theorem Replayed.no_padding (replayed : Replayed ring request)
    (acceptable : Acceptable ring request.message)
    {size len : Nat} (body : bodyOf request.message = ⟨size, false, false⟩) (nonempty : 0 < size)
    (short : size ≤ WriteIn.size) (room : 28 < len) (small : len < 2 ^ 31)
    (plain : ∀ buf mem, Received ⟨0⟩ request.message request.wild buf mem →
      Plain ⟨0⟩ request.opcode buf mem)
    (total : ∀ buf mem, Received ⟨0⟩ request.message request.wild buf mem →
      (builtReply ring ⟨0⟩ request.opcode buf mem).load (FuseIo.scratchBuf ⟨0⟩) OutHeader.len = len)
    (keeps : ∀ buf mem, Received ⟨0⟩ request.message request.wild buf mem →
      (builtReply ring ⟨0⟩ request.opcode buf mem).scratchBuf 28 = mem.scratchBuf 28) : False := by
  obtain ⟨buf, mem, buf', mem', received, received', zero, one, same⟩ :=
    replayed.same acceptable body nonempty short
    plain fun _ buf mem _ received _ => (total buf mem received).trans_lt small
  have found := congrArg (fun bytes : List UInt8 => bytes[28]?) same
  beta_reduce at found
  rw [scratchBytes_getElem (room.trans_eq (total buf mem received).symm),
    scratchBytes_getElem (room.trans_eq (total buf' mem' received').symm), keeps buf mem received,
    keeps buf' mem' received', zero, one] at found
  exact absurd found (by decide)

/-- The length of a reply of `send_attr` that is no error. -/
theorem attrReply_total (ring : FuseRing) (fuseIo : FuseIo) {unique nodeid : Nat}
    (small : unique < 2 ^ 64)
    (known : nodeid = 1 ∨ nodeid = 3) (mem : Mem) :
    (attrReply ring fuseIo unique nodeid mem).load fuseIo.scratchBuf OutHeader.len = AttrOut.size +
      OutHeader.size := by
  have headed : Headed fuseIo 0 (AttrOut.size + OutHeader.size) unique
      (outHeader mem fuseIo 0 (AttrOut.size + OutHeader.size) unique) :=
        outHeader_headed (by decide) small
  have valid := (headed.assign AttrOut.attrValid 3600).assign AttrOut.attrValidNsec 0
  unfold attrReply
  dsimp only
  rcases known with rfl | rfl
  · rw [if_pos rfl]
    exact (fillAttr_headed ring valid (attr_behind _) false).len
  · rw [if_neg (by decide), if_pos rfl]
    exact (fillAttr_headed ring valid (attr_behind _) true).len

/-- The length of a reply of `handle_open` or `handle_opendir`. -/
theorem openReply_total (fuseIo : FuseIo) (rbytesBuf : Ptr) (fh extraFlags : Nat) (mem : Mem) :
    (openReply fuseIo rbytesBuf fh extraFlags mem).load fuseIo.scratchBuf OutHeader.len =
      OpenOut.size + OutHeader.size := by
  have headed : Headed fuseIo 0 (OpenOut.size + OutHeader.size) (requestUnique mem fuseIo)
      (outHeader mem fuseIo 0 (OpenOut.size + OutHeader.size) (requestUnique mem fuseIo)) :=
    outHeader_headed (by decide) (requestUnique_lt mem fuseIo)
  exact ((headed.assign OpenOut.fh fh).assign OpenOut.openFlags _).len

/-- The refusal of `handle_read` has the length that was there. -/
theorem readRefusal_total (fuseIo : FuseIo) (mem : Mem) :
    (readRefusal fuseIo mem).load fuseIo.scratchBuf OutHeader.len =
      mem.load fuseIo.scratchBuf OutHeader.len := by
  rw [readRefusal, Mem.load_store_apart _ (Mem.apart_same (by decide)),
    Mem.load_store_apart _ (Mem.apart_same (by decide)),
    Mem.load_store_apart _ (Mem.apart_same (by decide))]

/-- An `OPEN` or `OPENDIR` is not replayed. -/
theorem Replayed.not_open (replayed : Replayed ring request)
    (acceptable : Acceptable ring request.message)
    {fh extra : Nat} (built : ∀ buf mem, builtReply ring ⟨0⟩ request.opcode buf mem = openReply
      ⟨0⟩ buf fh extra mem) :
    ¬ (request.opcode = some .open ∨ request.opcode = some .opendir) := by
  intro opens
  refine replayed.no_padding acceptable (openBody rfl opens) (by decide) (by decide)
    (show 28 < OpenOut.size + OutHeader.size by decide) (by decide) (fun buf mem _ => ?_)
      (fun buf mem _ => ?_) ?_
  · rcases opens with opens | opens <;> rw [opens] <;> exact ⟨by decide, by simp, by simp⟩
  · rw [built]
    exact openReply_total _ _ _ _ _
  · intro buf mem _
    rw [built]
    exact scratch_openReply _ _ _ _

/-- The node that a `LOOKUP` without a name answers with is up to a stray pointer. -/
theorem nameless_shows (lookup : request.opcode = some .lookup)
    (acceptable : Acceptable ring request.message)
    (bare : (bodyOf request.message).readRbytes = 0) (wild : Buffer) :
    load (ofList (request.written ring ⟨⟨0⟩, .filled 0, []⟩ wild (fun _ => 79) allMoved))
      OutHeader.size 8 = if slice wild 0 7 == volumeName ++ [0] then 3 else 1 := by
  obtain ⟨rbytesBuf, mem, quiet, received, -, receives, ran⟩ :=
    @written_received ring request wild (fun _ => 79) allMoved ⟨0⟩ (.filled 0) acceptable
  let slot : SlotState := ⟨⟨0⟩, .filled 0, []⟩
  let world := (slot.world { request with wild := wild }).received mem
    (request.message.drop (InHeader.size + (bodyOf request.message).readRbytes)) quiet
  have idle : world.Idle := (slot.world_idle { request with wild := wild }).received _ _ _
  have plain : Plain ⟨0⟩ request.opcode rbytesBuf mem := by
    rw [lookup]
    exact ⟨by decide, by simp, by simp⟩
  have built : builtReply ring ⟨0⟩ request.opcode rbytesBuf mem =
      lookupReply ring ⟨0⟩ rbytesBuf mem := by
    rw [lookup]
    rfl
  have total := (@lookupReply_headed ⟨0⟩ mem ring rbytesBuf).len
  have small : (builtReply ring ⟨0⟩ request.opcode rbytesBuf mem).load
      (FuseIo.scratchBuf ⟨0⟩) OutHeader.len < 2 ^ 31 := by
    rw [built, total]
    decide
  have front : written world.trace = [] := written_receives receives
  have answered := @written_dispatch ⟨0⟩ world ring rbytesBuf (opcodeOf request.message)
    idle plain small
  have reply : request.written ring ⟨⟨0⟩, .filled 0, []⟩ wild (fun _ => 79) allMoved =
      scratchBytes ⟨0⟩ (lookupReply ring ⟨0⟩ rbytesBuf mem) := by
    rw [ran, ← built]
    rw [front, List.nil_append] at answered
    exact answered
  obtain ⟨place, stray⟩ := received.bare bare
  obtain ⟨-, nodeid, -⟩ := @lookupReply_found ring ⟨0⟩ mem rbytesBuf
  have name : isVolume mem rbytesBuf = (slice wild 0 7 == volumeName ++ [0]) := by
    rw [place, isVolume, ← stray]
    rfl
  rw [reply, scratchBytes, total, Mem.bytes, load_slice (by decide), ← name]
  exact nodeid

/-- **A `LOOKUP` without a name is not replayed.** -/
theorem Replayed.named (replayed : Replayed ring request)
    (acceptable : Acceptable ring request.message) : ¬ NamelessLookup request.message := by
  rintro ⟨lookup, whole⟩
  have bare : (bodyOf request.message).readRbytes = 0 := by
    simp only [bodyOf, expectedBody, lookup, whole, Nat.sub_self]
  have same := replayed ⟨0⟩ (.filled 0) (.filled 0) (ofList (volumeName ++ [0])) (ofList [])
    (fun _ => 79) allMoved
  have node := nameless_shows lookup acceptable bare (ofList (volumeName ++ [0]))
  rw [same, nameless_shows lookup acceptable bare (ofList [])] at node
  exact absurd node (by decide)

/-- **Only requests whose reply has every byte assigned are replayed.** -/
theorem Replayed.assigned (replayed : Replayed ring request)
    (acceptable : Acceptable ring request.message) :
    Assigned request := by
  refine ⟨fun opens => ?_, fun opens => ?_, fun getattr => ?_, fun read => ?_,
    replayed.named acceptable⟩
  · exact replayed.not_open acceptable (fun buf mem => by rw [opens]; rfl) (Or.inl opens)
  · exact replayed.not_open acceptable (fun buf mem => by rw [opens]; rfl) (Or.inr opens)
  · have body : bodyOf request.message = ⟨GetattrIn.size, false, false⟩ := by
      rw [Request.opcode] at getattr
      simp only [bodyOf, expectedBody, getattr]
    have built : ∀ buf mem, Received ⟨0⟩ request.message request.wild buf mem →
        builtReply ring ⟨0⟩ request.opcode buf mem =
          attrReply ring ⟨0⟩ (requestUnique mem ⟨0⟩) request.getattrNode mem := by
      intro buf mem received
      rw [← received.getattrNode getattr, getattr]
      rfl
    by_contra other
    have known : request.getattrNode = 1 ∨ request.getattrNode = 3 := by
      by_contra neither
      exact other (not_or.mp neither)
    refine replayed.no_padding acceptable body (by decide) (by decide)
      (show 28 < AttrOut.size + OutHeader.size by decide) (by decide) (fun buf mem _ => ?_)
        (fun buf mem received => ?_)
      fun buf mem received => ?_
    · rw [getattr]
      exact ⟨by decide, by simp, by simp⟩
    · rw [built buf mem received]
      exact attrReply_total ring _ (requestUnique_lt _ _) known mem
    · rw [built buf mem received]
      exact scratch_attrReply ring _ _ known
  · by_contra other
    have body : bodyOf request.message = ⟨ReadIn.size, false, false⟩ := by
      rw [Request.opcode] at read
      simp only [bodyOf, expectedBody, read]
    have built : ∀ buf mem, builtReply ring ⟨0⟩ request.opcode buf mem = readRefusal ⟨0⟩ mem := by
      intro buf mem
      rw [read]
      rfl
    have word : ∀ byte mem, mem.scratchBuf = (fun _ => byte) →
        (readRefusal ⟨0⟩ mem).load (FuseIo.scratchBuf ⟨0⟩) OutHeader.len = load
          (fun _ => byte) 0 4 := by
      intro byte mem kept
      rw [readRefusal_total]
      exact congrArg (fun buffer => load buffer 0 4) kept
    have plain : ∀ buf mem, Received ⟨0⟩ request.message request.wild buf mem →
        Plain ⟨0⟩ request.opcode buf mem := by
      intro buf mem received
      rw [read]
      exact ⟨by decide, fun _ volume => other (received.nodeid.symm.trans volume), by simp⟩
    obtain ⟨buf, mem, buf', mem', received, received', zero, one, same⟩ :=
      replayed.same acceptable body (by decide)
      (by decide) plain fun byte buf mem low received kept => by
        rw [built, word byte mem kept]
        simp only [load]
        omega
    have length := congrArg List.length same
    rw [scratchBytes, scratchBytes, Mem.bytes, Mem.bytes, length_slice, length_slice, built, built,
      word 0 mem zero,
      word 1 mem' one] at length
    exact absurd length (by decide)

end Converse

/-- **A reply carries nothing of what the slot held before**, for exactly the
messages that are refused and the requests whose reply has every byte assigned. -/
theorem replayed_iff (ring : FuseRing) (request : Request) :
    Replayed ring request ↔ (Acceptable ring request.message → Assigned request) := by
  constructor
  · exact fun replayed acceptable => replayed.assigned acceptable
  · intro assigned
    by_cases acceptable : Acceptable ring request.message
    · exact (assigned acceptable).replayed acceptable
    · intro fuseIo mem mem' wild wild' reads others
      rw [written_refused fuseIo mem acceptable, written_refused fuseIo mem' acceptable]

/-- **The reply to an `OPEN` shows a word that an earlier request left.** -/
theorem open_shows_leftover : ¬ Replayed .small openRequest := fun replayed =>
  (replayed.assigned openRequest_acceptable).opened (by decide +kernel)

end Fuseuring
