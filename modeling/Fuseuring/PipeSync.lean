/-
**The pipe stays in step with the requests.**

`Synchronised` is what the pipe owes a request: whenever a splice into `fuse_fd` runs,
the pipe holds the bytes written for this request's reply and nothing else, the bytes
read are the front of this request's message, and after a result of 0 the pipe is empty.
The one request that breaks it is a `WRITE` whose payload is not taken whole by the
splice to the backing file: the handler replies through the pipe without draining it.
`slotRun_synchronised` is the invariant over a slot's requests for all other requests and
all completion results; `wrong_node_write_answers_with_payload` is a run that breaks it.
-/

import Fuseuring.Fifo
import Fuseuring.OneReply

namespace Fuseuring

open Bytes Interaction

/-! ### What the pipe owes a request -/

/-- The pipe is in step with a request. -/
structure Synchronised (request : Request) (served : Int × World) : Prop where
  replies : ∀ before operation pipe bytes res after,
    served.2.trace = before ++ .ran operation pipe bytes res :: after → operation.toFuse = true →
      pipe = writtenBy before ∧ bytes <+: pipe
  parsed : parsedBy served.2.trace <+: request.message
  drained : served.1 = 0 → served.2.pipe = []

/-- A splice into `fuse_fd` finds this reply in the pipe. -/
def Event.Finds (reply : List UInt8) : Event → Prop
  | .ran operation pipe bytes _ => operation.toFuse = true → pipe = reply ∧ bytes <+: pipe
  | _ => True

/-- A splice into `fuse_fd` finds what was written before it, from `reply` on. -/
def SyncedFrom : List UInt8 → List Event → Prop
  | _, [] => True
  | reply, event :: rest =>
    event.Finds reply ∧
      SyncedFrom (reply ++ event.moved fun operation => operation.puts && !operation.arrives) rest

theorem SyncedFrom.replies {events : List Event} :
    ∀ {reply : List UInt8}, SyncedFrom reply events →
      ∀ before operation pipe bytes res after, events = before ++
        .ran operation pipe bytes res :: after →
        operation.toFuse = true → pipe = reply ++ writtenBy before ∧ bytes <+: pipe := by
  induction events with
  | nil => exact fun _ before _ _ _ _ _ split => absurd split (by simp)
  | cons event rest ih =>
    intro reply synced before operation pipe bytes res after split out
    cases before with
    | nil =>
      obtain ⟨rfl, rfl⟩ := List.cons.inj split
      obtain ⟨same, part⟩ := synced.1 out
      exact ⟨same.trans (List.append_nil reply).symm, part⟩
    | cons first before =>
      obtain ⟨rfl, rfl⟩ := List.cons.inj split
      obtain ⟨same, part⟩ := ih synced.2 before operation pipe bytes res after rfl out
      refine ⟨?_, part⟩
      rw [same, List.append_assoc]
      rfl

theorem SyncedFrom.of_replies {events : List Event} :
    ∀ {reply : List UInt8}, (∀ before operation pipe bytes res after,
      events = before ++ .ran operation pipe bytes res :: after → operation.toFuse = true →
        pipe = reply ++ writtenBy before ∧ bytes <+: pipe) → SyncedFrom reply events := by
  induction events with
  | nil => exact fun _ => trivial
  | cons event rest ih =>
    intro reply found
    refine ⟨?_, ih fun before operation pipe bytes res after split out => ?_⟩
    · cases event with
      | ran operation pipe bytes res =>
        intro out
        obtain ⟨same, part⟩ := found [] operation pipe bytes res rest rfl out
        exact ⟨same.trans (List.append_nil reply), part⟩
      | _ => trivial
    · obtain ⟨same, part⟩ :=
        found (event :: before) operation pipe bytes res after (by rw [split]; rfl) out
      refine ⟨?_, part⟩
      rw [same, List.append_assoc]
      rfl

theorem Synchronised.synced {request : Request} {served : Int × World}
    (synchronised : Synchronised request served) :
    SyncedFrom [] served.2.trace :=
  .of_replies synchronised.replies

instance decidableFinds (reply : List UInt8) (event : Event) : Decidable (event.Finds reply) :=
  match event with
  | .ran operation pipe bytes _ =>
    inferInstanceAs (Decidable (operation.toFuse = true → pipe = reply ∧ bytes <+: pipe))
  | .called _ => isTrue trivial
  | .queued _ _ => isTrue trivial

instance decidableSyncedFrom : (reply : List UInt8) → (events : List Event) →
    Decidable (SyncedFrom reply events)
  | _, [] => isTrue trivial
  | reply, event :: rest =>
    have := decidableSyncedFrom
      (reply ++ event.moved fun operation => operation.puts && !operation.arrives) rest
    inferInstanceAs (Decidable (event.Finds reply ∧ SyncedFrom _ rest))

/-- Events that neither write nor reply may stand in front. -/
theorem SyncedFrom.append {quiet events : List Event} {reply : List UInt8}
    (none : ∀ event ∈ quiet, event.replies = false)
    (still : writtenBy quiet = []) (synced : SyncedFrom reply events) :
    SyncedFrom reply (quiet ++ events) := by
  induction quiet with
  | nil => exact synced
  | cons event rest ih =>
    rw [writtenBy, movedBy_cons, List.append_eq_nil_iff] at still
    refine ⟨?_, ?_⟩
    · cases event with
      | ran operation pipe bytes res =>
        intro out
        have quiet := none _ List.mem_cons_self
        exact absurd (quiet.symm.trans out) Bool.false_ne_true
      | _ => trivial
    · rw [still.1, List.append_nil]
      exact ih (fun event' member => none event' (List.mem_cons_of_mem _ member)) still.2

/-! ### Outcomes on a pipe that holds no payload -/

section Outcomes

variable {kernel : Kernel} {fuseIo : FuseIo} {mem : Mem}

section Kinds

variable (fuseIo : FuseIo) (offset count : Nat)

@[simp] theorem replySplice_kinds : (replySplice fuseIo count).toFuse = true ∧
    (replySplice fuseIo count).parses = false := ⟨rfl, rfl⟩

@[simp] theorem headerWrite_kinds : (headerWrite fuseIo).toFuse = false ∧
    (headerWrite fuseIo).puts = true ∧ (headerWrite fuseIo).arrives = false := ⟨rfl, rfl, rfl⟩

@[simp] theorem dataSplice_kinds : (dataSplice fuseIo offset count).toFuse = false ∧
    (dataSplice fuseIo offset count).puts = true ∧
    (dataSplice fuseIo offset count).arrives = false :=
  ⟨rfl, rfl, rfl⟩

@[simp] theorem payloadSplice_kinds : (payloadSplice fuseIo offset count).toFuse = false ∧
    (payloadSplice fuseIo offset count).puts = false ∧
    (payloadSplice fuseIo offset count).parses = false :=
  ⟨rfl, rfl, rfl⟩

@[simp] theorem successWrite_kinds : (successWrite fuseIo count).toFuse = false ∧
    (successWrite fuseIo count).puts = true ∧ (successWrite fuseIo count).arrives = false :=
  ⟨rfl, rfl, rfl⟩

end Kinds

/-- A reply through an empty pipe. -/
theorem ReplyOutcome.synced {write : Operation} {reply left : List UInt8} {rc : Int}
    {events : List Event}
    (inward : write.toFuse = false) (writes : (write.puts && !write.arrives) = true)
    (outcome : ReplyOutcome kernel fuseIo mem write reply [] rc events left) :
    SyncedFrom [] events ∧ parsedBy events = [] ∧ (rc = 0 → left = []) := by
  have parses : write.parses = false := by
    rcases write with _ | _ | _ | _
    · rfl
    · cases writes
    all_goals rfl
  cases outcome with
  | unqueued => exact ⟨trivial, rfl, fun failed => absurd failed (by decide)⟩
  | cut bytes res moved short =>
    refine ⟨?_, ?_, fun failed => absurd failed (by decide)⟩
    · simp [SyncedFrom, Event.Finds, Event.moved, inward]
    · simp [parsedBy, Event.moved, parses]
  | lost bytes res moved short =>
    have part := moved.part
    rw [List.nil_append, List.take_length] at part
    refine ⟨?_, ?_, fun failed => absurd failed (by decide)⟩
    · simp [SyncedFrom, Event.Finds, Event.moved, inward, writes, part]
    · simp [parsedBy, Event.moved, parses]
  | delivered =>
    refine ⟨?_, ?_, fun _ => by simp⟩
    · simp [SyncedFrom, Event.Finds, Event.moved, inward, writes]
    · simp [parsedBy, Event.moved, parses]

/-- A read through an empty pipe, with the length of the header and the data. -/
theorem ReadOutcome.synced {readOffset readSize len : Nat} {left : List UInt8}
    {file file' : File} {rc : Int}
    {events : List Event} (exact : readSize < 2 ^ 31 → len = OutHeader.size + readSize)
    (outcome : ReadOutcome kernel fuseIo mem readOffset readSize len [] file rc events left file') :
    SyncedFrom [] events ∧ parsedBy events = [] ∧ (rc = 0 → left = []) := by
  have size : (mem.bytes fuseIo.scratchBuf OutHeader.size).length =
      OutHeader.size := by simp [Mem.bytes]
  cases outcome with
  | unqueued => exact ⟨trivial, rfl, fun failed => absurd failed (by decide)⟩
  | cutHeader bytes res moved short =>
    refine ⟨?_, rfl, fun failed => absurd failed (by decide)⟩
    simp [SyncedFrom, Event.Finds, Event.moved]
  | cutData data res moved short =>
    refine ⟨?_, rfl, fun failed => absurd failed (by decide)⟩
    simp [SyncedFrom, Event.Finds, Event.moved]
  | sent data bytes res whole full fits moved =>
    have count : ([] ++ mem.bytes fuseIo.scratchBuf OutHeader.size ++ data).length = len := by
      rw [List.nil_append, List.length_append, size, full, exact fits]
    have part := moved.part
    rw [← count, List.take_length] at part
    refine ⟨?_, rfl, fun settled => ?_⟩
    · simpa [SyncedFrom, Event.Finds, Event.moved] using part
    · have sent : ¬ res < len := by
        intro short
        rw [if_pos short] at settled
        exact absurd settled (by decide)
      obtain ⟨rfl, -⟩ := moved.whole (by rw [List.length_take, count]; omega)
      rw [← count, List.take_length, List.drop_length]

/-- A payload that the file accepts whole leaves the pipe empty, however short the splice. -/
theorem payload_drained {writeOffset writeSize : Nat} {pipe payload : List UInt8}
    {file : File} {res : Int}
    (accepted : file.accepts (int64 writeOffset) writeSize pipe = pipe)
    (absorbed : pipe = [] ∨ ∀ world : World, world.pipe = pipe →
      world.available (payloadSplice fuseIo writeOffset writeSize) = some pipe →
      (pipe.length : Int) ≤ kernel.result world ⟨payloadSplice fuseIo writeOffset writeSize, .link⟩)
    (moved : World.Moved kernel ⟨payloadSplice fuseIo writeOffset writeSize, .link⟩ pipe
      (file.accepts (int64 writeOffset) writeSize pipe) payload res) : pipe.drop
        payload.length = [] := by
  refine List.drop_eq_nil_of_le ?_
  by_cases empty : pipe = []
  · rw [empty]
    exact Nat.zero_le _
  · refine moved.reached (fun world found offered => ?_) (congrArg List.length accepted).symm.le
    rw [accepted] at offered
    exact absorbed.resolve_left empty world found offered

/-- A write whose payload the file takes whole. -/
theorem WriteOutcome.synced {writeOffset writeSize len : Nat} {pipe left : List UInt8}
    {file file' : File}
    {rc : Int} {events : List Event} {mem' : Mem} (covered : pipe.length ≤ writeSize)
    (accepted : file.accepts (int64 writeOffset) writeSize pipe = pipe)
    (absorbed : pipe = [] ∨ ∀ world : World, world.pipe = pipe →
      world.available (payloadSplice fuseIo writeOffset writeSize) = some pipe →
      (pipe.length : Int) ≤ kernel.result world ⟨payloadSplice fuseIo writeOffset writeSize, .link⟩)
    (outcome : WriteOutcome kernel fuseIo mem writeOffset writeSize len pipe file rc events
      mem' left file') :
    SyncedFrom [] events ∧ parsedBy events = [] ∧ (rc = 0 → left = []) := by
  have drained : pipe.drop writeSize = [] := List.drop_eq_nil_of_le covered
  cases outcome with
  | unqueued => exact ⟨trivial, rfl, fun failed => absurd failed (by decide)⟩
  | fallback payload res moved short reply =>
    rw [payload_drained accepted absorbed moved] at reply
    obtain ⟨synced, parsed, empty⟩ := reply.synced rfl rfl
    refine ⟨?_, ?_, empty⟩
    · simpa [SyncedFrom, Event.Finds, Event.moved] using synced
    · simpa [parsedBy, Event.moved] using parsed
  | cutReply payload whole full bytes res moved short =>
    refine ⟨?_, rfl, fun failed => absurd failed (by decide)⟩
    simp [SyncedFrom, Event.Finds, Event.moved]
  | sent payload whole full bytes res moved =>
    have size : (mem.bytes fuseIo.scratchBuf len).length = len := by simp [Mem.bytes]
    rw [drained, List.nil_append] at moved
    have part := moved.part
    rw [List.take_of_length_le size.le] at part
    refine ⟨?_, rfl, fun settled => ?_⟩
    · simpa [SyncedFrom, Event.Finds, Event.moved, drained] using part
    · have sent : res = len := by
        by_contra other
        rw [if_neg other] at settled
        exact absurd settled (by decide)
      obtain ⟨rfl, -⟩ := moved.whole (by rw [List.length_take, size, sent, Nat.min_self])
      rw [drained, List.nil_append, List.take_of_length_le size.le, List.drop_length]

end Outcomes

/-! ### Receiving -/

theorem Event.Receives.moves {event : Event} (receives : event.Receives) :
    event.moved (fun operation => operation.puts && !operation.arrives) = [] ∧
      event.moved (fun operation => !operation.puts) = event.moved Operation.parses ∧
      event.moved Operation.puts = event.moved Operation.arrives := by
  cases receives with
  | called => exact ⟨rfl, rfl, rfl⟩
  | queued => exact ⟨rfl, rfl, rfl⟩
  | @ran operation pipe bytes res receives =>
    unfold Operation.Receives at receives
    split at receives
    · exact ⟨rfl, rfl, rfl⟩
    · exact ⟨rfl, rfl, rfl⟩
    · exact receives.elim

/-- While a message is received, nothing is written, and only the session puts
bytes into the pipe. -/
theorem receives_moves {events : List Event} (receives : ∀ event ∈ events, event.Receives) :
    writtenBy events = [] ∧ takenBy events = parsedBy events ∧ putBy events = arrivedBy events := by
  induction events with
  | nil => exact ⟨rfl, rfl, rfl⟩
  | cons event rest ih =>
    obtain ⟨written, taken, put⟩ := (receives event List.mem_cons_self).moves
    obtain ⟨written', taken', put'⟩ :=
      ih fun event' member => receives event' (List.mem_cons_of_mem _ member)
    refine ⟨?_, ?_, ?_⟩
    · rw [writtenBy, movedBy_cons, written]
      exact written'
    · rw [takenBy, parsedBy, movedBy_cons, movedBy_cons, taken]
      exact congrArg _ taken'
    · rw [putBy, arrivedBy, movedBy_cons, movedBy_cons, put]
      exact congrArg _ put'

/-- **What is read is the front of the message.** The law of the queue over the
whole request, less the law over what follows the receiving. -/
theorem parsed_of_ledgers {start before after : World} {quiet : List Event}
    (empty : start.pipe = [])
    (whole : Ledger start after) (rest : Ledger before after)
    (split : before.trace = start.trace ++ quiet)
    (receives : ∀ event ∈ quiet, event.Receives) : parsedBy quiet <+: start.incoming := by
  obtain ⟨events, added, queue, arrival⟩ := whole
  obtain ⟨events', added', queue', -⟩ := rest
  have joined : events = quiet ++ events' := by
    rw [added', split, List.append_assoc] at added
    exact (List.append_cancel_left added).symm
  obtain ⟨-, taken, put⟩ := receives_moves receives
  subst joined
  have front : parsedBy quiet ++ before.pipe = arrivedBy quiet := by
    rw [empty, List.nil_append, takenBy, putBy, movedBy_append, movedBy_append,
      List.append_assoc] at queue
    have joined : (takenBy quiet ++ before.pipe) ++ putBy events' = putBy quiet ++
        putBy events' := by
      rw [List.append_assoc, ← queue']
      exact queue
    rw [← taken, ← put]
    exact List.append_cancel_right joined
  rw [← arrival, arrivedBy, movedBy_append, List.append_assoc]
  have first : parsedBy quiet <+: arrivedBy quiet := front ▸ List.prefix_append _ _
  exact first.trans (List.prefix_append _ _)

/-! ### Requests -/

/-- The payload of a `WRITE` is taken whole by the splice to the backing file:
the request is for the volume and announces its own length, its size covers the
payload, and the splice completes with at least the payload's length. -/
structure Absorbed (request : Request) : Prop where
  volume : request.header InHeader.nodeid = 3
  framed : request.header InHeader.len = InHeader.size + WriteIn.size + request.body WriteIn.count
  covered : request.message.length ≤ InHeader.size + WriteIn.size + request.body WriteIn.count
  placed : (request.file.start (int64 (request.body WriteIn.offset))).isSome = true
  completes : ∀ fuseIo world, world.pipe = request.message.drop (InHeader.size + WriteIn.size) →
    world.available (payloadSplice fuseIo (request.body WriteIn.offset)
      (request.body WriteIn.count)) =
      some world.pipe → world.pipe.length < 2 ^ 31 →
    (world.pipe.length : Int) ≤ request.kernel.result world
      ⟨payloadSplice fuseIo (request.body WriteIn.offset) (request.body WriteIn.count), .link⟩

/-- No payload stays behind: the request is no `WRITE`, has no payload, or has it taken whole. -/
def PayloadAbsorbed (request : Request) : Prop :=
  request.opcode = some .write →
    request.message.length ≤ InHeader.size + WriteIn.size ∨ Absorbed request

section Requests

variable (ring : FuseRing) (slot : SlotState) (request : Request)

theorem callsOf_still (code : Option Opcode) (kind : Operation → Bool) :
    movedBy kind (callsOf code) = [] := by
  unfold callsOf
  split <;> rfl

/-- The length in the header of a read. -/
theorem readHeaded_len {fuseIo : FuseIo} {rbytesBuf : Ptr} {mem : Mem}
    (small : (readClamped ring rbytesBuf mem).load rbytesBuf ReadIn.count < 2 ^ 31) :
    (readHeaded ring fuseIo rbytesBuf mem).load fuseIo.scratchBuf OutHeader.len =
      OutHeader.size + (readClamped ring rbytesBuf mem).load rbytesBuf ReadIn.count := by
  have total : OutHeader.size +
      (readClamped ring rbytesBuf mem).load rbytesBuf ReadIn.count < 2 ^ 32 := by
    rw [OutHeader.size]
    omega
  exact (outHeader_headed total (requestUnique_lt _ _)).len

/-- A file takes nothing of an empty pipe, and the whole of a pipe that the size covers. -/
theorem File.accepts_whole {file : File} {offset : Int} {count : Nat} {pipe : List UInt8}
    (covered : pipe.length ≤ count) (placed : pipe = [] ∨ (file.start offset).isSome = true) :
    file.accepts offset count pipe = pipe := by
  unfold File.accepts
  rcases placed with rfl | placed
  · split
    · rfl
    · cases file.start offset <;> simp
  · obtain ⟨start, found⟩ := Option.isSome_iff_exists.mp placed
    split
    next zero => exact (List.eq_nil_of_length_eq_zero (by omega)).symm
    next => rw [found, Option.map_some, Option.getD_some, List.take_of_length_le covered]

section Delivery

variable {ring : FuseRing} {request : Request} {fuseIo : FuseIo} {rbytesBuf : Ptr} {mem : Mem}

/-- A request that is answered from `scratch_buf` alone has no payload to leave behind. -/
theorem Plain.payload_empty (plain : Plain fuseIo request.opcode rbytesBuf mem)
    (absorbed : PayloadAbsorbed request)
    (acceptable : Acceptable ring request.message)
    (delivered : Delivered fuseIo request.message rbytesBuf mem) :
    request.payload = [] := by
  by_cases write : request.opcode = some .write
  · have short := (absorbed write).resolve_right fun absorbed => by
      rcases plain.write write with other | unframed
      · exact other (delivered.nodeid.trans absorbed.volume)
      · refine unframed ?_
        rw [WriteFramed, delivered.announced, (delivered.writeIn write).2]
        exact absorbed.framed
    rw [Request.payload, bodyOf_write write]
    exact List.drop_eq_nil_of_le short
  · exact Fuseuring.payload_empty acceptable write

/-- The payload of a `WRITE` is covered by its size, accepted by the file and taken whole. -/
theorem PayloadAbsorbed.write (absorbed : PayloadAbsorbed request) (fuseIo : FuseIo)
    (acceptable : Acceptable ring request.message) (write : request.opcode = some .write) :
    request.payload.length ≤ request.body WriteIn.count ∧
      request.file.accepts (int64 (request.body WriteIn.offset))
      (request.body WriteIn.count) request.payload =
        request.payload ∧
      (request.payload = [] ∨ ∀ world : World, world.pipe = request.payload →
        world.available (payloadSplice fuseIo (request.body WriteIn.offset)
          (request.body WriteIn.count)) =
          some request.payload →
        (request.payload.length : Int) ≤ request.kernel.result world
          ⟨payloadSplice fuseIo (request.body WriteIn.offset)
            (request.body WriteIn.count), .link⟩) := by
  have payload : request.payload = request.message.drop (InHeader.size + WriteIn.size) := by
    rw [Request.payload, bodyOf_write write]
  by_cases short : request.message.length ≤ InHeader.size + WriteIn.size
  · have empty : request.payload = [] := payload.trans (List.drop_eq_nil_of_le short)
    rw [empty]
    exact ⟨Nat.zero_le _, File.accepts_whole (Nat.zero_le _) (Or.inl rfl), Or.inl rfl⟩
  · have absorbed := (absorbed write).resolve_left short
    have covered : request.payload.length ≤ request.body WriteIn.count := by
      rw [payload, List.length_drop]
      have bound := absorbed.covered
      omega
    refine ⟨covered, File.accepts_whole covered (Or.inr absorbed.placed),
      Or.inr fun world found available => ?_⟩
    have small : world.pipe.length < 2 ^ 31 := by
      rw [found, payload, List.length_drop]
      have fits := acceptable.fits
      have limit := ring.maxBufsize_lt
      omega
    have completes :=
      absorbed.completes fuseIo world (found.trans payload) (by rw [available, found]) small
    rwa [found] at completes

end Delivery

/-- **The second switch keeps the pipe in step.** -/
theorem DispatchOutcome.synced {fuseIo : FuseIo} {rbytesBuf : Ptr} {mem : Mem} {rc : Int}
    {events : List Event}
    {mem' : Mem} {left : List UInt8} {file' : File} (absorbed : PayloadAbsorbed request)
    (acceptable : Acceptable ring request.message)
    (delivered : Delivered fuseIo request.message rbytesBuf mem)
    (outcome : DispatchOutcome request.kernel ring fuseIo request.opcode rbytesBuf mem
      request.payload
      request.file rc events mem' left file') :
    SyncedFrom [] events ∧ parsedBy events = [] ∧ (rc = 0 → left = []) := by
  have called : ∀ (quiet : List Event) {events : List Event} {rc : Int},
      (∀ event ∈ quiet, event.replies = false) →
      (∀ kind, movedBy kind quiet = []) → SyncedFrom [] events ∧ parsedBy events = [] ∧
      (rc = 0 → left = []) →
      SyncedFrom [] (quiet ++ events) ∧ parsedBy (quiet ++ events) = [] ∧ (rc = 0 → left = []) := by
    rintro quiet events rc none still ⟨synced, parsed, drained⟩
    refine ⟨synced.append none (still _), ?_, drained⟩
    rw [parsedBy, movedBy_append, still]
    exact parsed
  cases outcome with
  | built plain reply =>
    rw [plain.payload_empty absorbed acceptable delivered] at reply
    rw [← List.singleton_append, ← List.append_assoc]
    refine called _ (fun event member => ?_) (fun kind => ?_) (reply.synced rfl rfl)
    · rcases List.mem_append.mp member with first | last
      · exact callsOf_quiet _ event first
      · rw [List.mem_singleton.mp last]
        rfl
    · rw [movedBy_append, callsOf_still]
      rfl
  | listed readdir reply =>
    have other : request.opcode ≠ some .write := by simp [readdir]
    rw [Request.payload, payload_empty acceptable other] at reply
    exact called [.called .handleReaddir, .called .sendReplyBuf] (by simp [Event.replies])
      (fun _ => rfl) (reply.synced rfl rfl)
  | read read volume outcome =>
    have other : request.opcode ≠ some .write := by simp [read]
    rw [Request.payload, payload_empty acceptable other] at outcome
    exact called [.called .handleRead] (by simp [Event.replies]) (fun _ => rfl)
      (outcome.synced (readHeaded_len ring))
  | written write volume framed outcome =>
    obtain ⟨covered, accepted, taken⟩ := absorbed.write fuseIo acceptable write
    rw [(delivered.writeIn write).1, (delivered.writeIn write).2] at outcome
    exact called [.called .handleWrite] (by simp [Event.replies]) (fun _ => rfl)
      (outcome.synced covered accepted taken)

/-- **A request keeps the pipe in step**, and leaves it empty for the next one. -/
theorem serve_synchronised (empty : slot.pipe = []) (absorbed : PayloadAbsorbed request) :
    Synchronised request (serve ring slot request) := by
  have whole := exec_ledger request.kernel (queueFuseRead ring) (slot.world request)
  rcases exec_queueFuseRead_cases request.kernel ring (slot.world_idle request) empty with
    ⟨rbytesBuf, mem, quiet, delivered, receives, acceptable, ran⟩ | ⟨after, ran, refused, -⟩
  · have rest :=
      exec_ledger request.kernel (dispatch ring slot.fuseIo (opcodeOf request.message) rbytesBuf)
      ((slot.world request).received mem
        (request.message.drop (InHeader.size + (bodyOf request.message).readRbytes)) quiet)
    obtain ⟨rc, events, mem', left, file', outcome, ran'⟩ :=
      exec_dispatch_outcome request.kernel ring
      slot.fuseIo rbytesBuf ((slot.world_idle request).received mem
        (request.message.drop (InHeader.size + (bodyOf request.message).readRbytes)) quiet)
      (opcodeOf request.message)
    obtain ⟨synced, parsed, drained⟩ := outcome.synced ring request absorbed acceptable delivered
    have served : serve ring slot request =
        (rc, (((slot.world request).received mem (request.message.drop
          (InHeader.size + (bodyOf request.message).readRbytes)) quiet).setMem mem').leave left
            file' events) :=
      ran.trans ran'
    have front := parsed_of_ledgers empty whole (ran ▸ rest) rfl receives
    have trace : (serve ring slot request).2.trace = quiet ++ events := by
      rw [served]
      rfl
    refine ⟨fun before operation pipe bytes res after split out => ?_, ?_, fun settled => ?_⟩
    · rw [trace] at split
      exact (synced.append (fun event member => (receives event member).quiet.1)
        (receives_moves receives).1).replies before operation pipe bytes res after split out
    · rw [trace, parsedBy, movedBy_append, show movedBy _ events = [] from parsed, List.append_nil]
      exact front
    · rw [served] at settled ⊢
      exact drained settled
  · obtain ⟨quiet, added, receives⟩ := refused
    have front := parsed_of_ledgers empty whole (.refl _) (by rw [ran, added]) receives
    have trace : (serve ring slot request).2.trace = quiet := by
      rw [serve, ran]
      exact added
    refine ⟨fun before operation pipe bytes res after split out => ?_, ?_, fun settled => ?_⟩
    · have silent :=
        (receives (.ran operation pipe bytes res) (by rw [← trace, split]; simp)).quiet.1
      exact absurd (silent.symm.trans out) Bool.false_ne_true
    · rw [trace]
      exact front
    · rw [serve, ran] at settled
      exact absurd (show (-1 : Int) = 0 from settled) (by decide)

/-- The slot's pipe is empty again whenever the slot is taken again. -/
theorem serve_reusable_empty (empty : slot.pipe = []) (absorbed : PayloadAbsorbed request)
    (again : reusable (serve ring slot request) = true) :
    (slot.leftBy (serve ring slot request).2).pipe = [] := by
  rcases Bool.or_eq_true_iff.mp again with settled | unstarted
  · exact (serve_synchronised ring slot request empty absorbed).drained (eq_of_beq settled)
  · obtain ⟨events, added, queue, -⟩ :=
      exec_ledger request.kernel (queueFuseRead ring) (slot.world request)
    have none : events = [] :=
      added.symm.trans (List.isEmpty_iff.mp (Bool.and_eq_true_iff.mp unstarted).1)
    rw [none] at queue
    exact queue.trans ((List.append_nil _).trans empty)

end Requests

/-- Every request of a run finds the pipe empty and keeps it in step. -/
def RunSynchronised (ring : FuseRing) (slot : SlotState) (requests : List Request) : Prop :=
  ∀ served ∈ slotRun ring slot requests,
    served.1.pipe = [] ∧ Synchronised served.2 (serve ring served.1 served.2)

/-- **The pipe stays in step over whole runs**: any requests, each with any
completion results, in which no payload stays behind. -/
theorem slotRun_synchronised (ring : FuseRing) (slot : SlotState) (requests : List Request)
    (empty : slot.pipe = []) (absorbed : ∀ request ∈ requests, PayloadAbsorbed request) :
    RunSynchronised ring slot requests := by
  intro served member
  obtain ⟨before, good⟩ := slotRun_induction (fun slot => slot.pipe = []) PayloadAbsorbed
    (fun slot request => serve_reusable_empty ring slot request) requests slot empty
      absorbed served member
  exact ⟨before, serve_synchronised ring served.1 served.2 before good⟩

/-! ### A payload that stays behind -/

/-- A `WRITE` of one byte. -/
def writeRequest (nodeid : Nat) : Request where
  message := sessionMessage .write 7 nodeid (rangeBody 0 1 ++ [65])
  file := ⟨4096, ofList [], 0⟩
  kernel := .full
  wild := ofList []

theorem writeRequest_volume_absorbed : Absorbed (writeRequest 3) where
  volume := by decide +kernel
  framed := by decide +kernel
  covered := by decide +kernel
  placed := by decide +kernel
  completes fuseIo world found _ _ := by
    have length : ((writeRequest 3).message.drop (InHeader.size + WriteIn.size)).length =
        1 := by decide +kernel
    rw [found, length]
    exact (show (1 : Int) ≤ 2 ^ 31 - 1 by decide)

theorem two_writes_synchronised : RunSynchronised .small .fresh [writeRequest 3, writeRequest 3] :=
  slotRun_synchronised .small .fresh [writeRequest 3, writeRequest 3] rfl fun request member => by
    have same : request = writeRequest 3 := by simpa using member
    exact fun _ => Or.inr (same ▸ writeRequest_volume_absorbed)

/-- A `WRITE` to another node is refused with its payload still in the pipe:
the splice into `fuse_fd` finds the payload in front of the reply. -/
theorem wrong_node_write_answers_with_payload :
    ¬ ∀ (ring : FuseRing) (slot : SlotState) (requests : List Request), slot.pipe = [] →
      RunSynchronised ring slot requests := by
  intro claim
  have first : (SlotState.fresh, writeRequest 1) ∈ slotRun .small .fresh [writeRequest 1] := by
    rw [slotRun]
    exact List.mem_cons_self
  exact absurd (claim .small .fresh [writeRequest 1] rfl _ first).2.synced (by decide +kernel)

end Fuseuring
