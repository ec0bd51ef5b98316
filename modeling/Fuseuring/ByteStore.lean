/-
**The volume is a byte store.**

The log of a run is what its `WRITE` replies acknowledged, the newest first. As
long as no write reaches past `backing_f_size`, the backing file shows the most
recent value of the log at every byte, a `READ` returns just that, and every
acknowledged write is visible (`volume_refines_store`). A write past the end is
acknowledged as well, but no `READ` can reach it: `write_past_the_end_is_lost`.
-/

import Fuseuring.Service
import Fuseuring.Library.Log

namespace Fuseuring

open Bytes Interaction Log

/-! ### The file -/

/-- A splice between the pipe and the backing file. -/
def Operation.OnFile : Operation → Prop
  | .splice .backing _ _ _ _ => True
  | .splice _ _ .backing _ _ => True
  | _ => False

/-- The event is no splice between the pipe and the backing file. -/
def Event.OffFile : Event → Prop
  | .ran operation _ _ _ => ¬ operation.OnFile
  | _ => True

/-- The file changes by splices to or from it alone. -/
def FileKept (world after : World) : Prop :=
  ∃ events, after.trace = world.trace ++ events ∧
    ((∀ event ∈ events, event.OffFile) → after.file = world.file)

namespace FileKept

theorem refl (world : World) : FileKept world world := ⟨[], by simp, fun _ => rfl⟩

theorem trans (first second third : World) (left : FileKept first second)
    (right : FileKept second third) :
    FileKept first third := by
  obtain ⟨events, added, kept⟩ := left
  obtain ⟨events', added', kept'⟩ := right
  refine ⟨events ++ events', by rw [added', added, List.append_assoc], fun off => ?_⟩
  rw [kept' fun event member => off event (List.mem_append_right _ member),
    kept fun event member => off event (List.mem_append_left _ member)]

theorem of_eq {world after : World} (trace : after.trace = world.trace)
    (file : after.file = world.file) :
    FileKept world after := ⟨[], by simp [trace], fun _ => file⟩

theorem record (world : World) (event : Event) : FileKept world (world.record event) :=
  ⟨[event], rfl, fun _ => rfl⟩

end FileKept

section Kept

variable (kernel : Kernel)

theorem transfer_file (world : World) {operation : Operation} (off : ¬ operation.OnFile)
    (bytes : List UInt8) :
    (world.transfer operation bytes).file = world.file := by
  rcases operation with ⟨fdIn, offIn, fdOut, offOut, nbytes⟩ | _ | _ | _
  · rcases fdIn with _ | _ | _ | _ <;> rcases fdOut with _ | _ | _ | _ <;>
      first | rfl | exact absurd trivial off
  all_goals rfl

theorem perform_file (world : World) (sqe : Sqe) : FileKept world (world.perform kernel sqe).2 := by
  unfold World.perform
  split
  · exact .record _ _
  next bytes available =>
    by_cases failed : kernel.result world sqe < 0
    · simp only [if_pos failed]
      exact .record _ _
    · simp only [if_neg failed]
      refine ⟨[_], by rw [World.record_trace, World.transfer_trace], fun off => ?_⟩
      exact transfer_file world (off _ (List.mem_singleton_self _)) _

/-- **Every coroutine leaves the file to its splices.** -/
theorem exec_file {α : Type} (program : Coro α) (world : World) :
    FileKept world (exec kernel program world).2 := by
  refine exec_relates FileKept.refl FileKept.trans ?_ ?_ ?_ ?_ program world
  · exact fun trace _ file _ => .of_eq trace file
  · exact fun state _ => .record state _
  · exact fun state _ _ => .record state _
  · exact fun sqe state => perform_file kernel state sqe

theorem Event.Receives.offFile {event : Event} (receives : event.Receives) : event.OffFile := by
  cases receives with
  | called => trivial
  | queued => trivial
  | ran pipe bytes res receives =>
    unfold Operation.Receives at receives
    split at receives
    · exact id
    · exact id
    · exact receives.elim

end Kept

/-! ### The content of the volume -/

/-- The backing file has the size it had at the start, and this content. -/
structure Shows (ring : FuseRing) (content : Buffer) (file : File) : Prop where
  size : file.size = ring.backingFSize
  bytes : ∀ index < ring.backingFSize, file.byte index = content index

section Content

variable {ring : FuseRing} {content : Buffer} {file : File}

theorem Shows.seek (shows : Shows ring content file) (offset : Int) (count : Nat) :
    Shows ring content (file.seek offset count) := by
  unfold File.seek
  split <;> exact ⟨shows.size, shows.bytes⟩

/-- A range of the content. -/
def rangeOf (ring : FuseRing) (content : Buffer) (offset count : Nat) : List UInt8 :=
  slice content offset (min count (ring.backingFSize - offset))

/-- **What a splice from the file can move is the range's content.** -/
theorem Shows.source (shows : Shows ring content file) {offset : Nat} (small : offset < 2 ^ 64 - 1)
    (count : Nat) :
    file.source (int64 offset) count = rangeOf ring content offset count := by
  have limit := ring.backingFSize_lt
  unfold File.source rangeOf
  by_cases none : count = 0
  · rw [if_pos none, none, Nat.zero_min]
    rfl
  rw [if_neg none, File.start, int64]
  by_cases positive : offset < 2 ^ 63
  · rw [if_pos positive, if_neg (by omega), if_neg (by omega), Option.map_some,
      Option.getD_some, File.read,
      Int.toNat_natCast, shows.size]
    refine slice_congr fun index inside => shows.bytes _ ?_
    omega
  · have past : ring.backingFSize - offset = 0 := by omega
    rw [if_neg positive, if_neg (by omega), if_pos (by omega), past, Nat.min_zero]
    rfl

/-- **A write in range is the newest extent of the log.** -/
theorem Shows.absorb {initial : Buffer} {log : List (Extent UInt8)}
    (shows : Shows ring (latest initial log) file)
    {offset : Nat} {payload : List UInt8} (inside : payload = [] ∨
      offset + payload.length ≤ ring.backingFSize) :
    Shows ring (latest initial (⟨offset, payload⟩ :: log))
    (file.absorb (int64 offset) payload) := by
  have limit := ring.backingFSize_lt
  refine Shows.seek ?_ _ _
  by_cases empty : payload = []
  · subst empty
    rw [File.write_nil]
    refine ⟨shows.size, fun index bound => ?_⟩
    rw [latest_uncovered (fun covers => absurd covers.2
      (not_lt.mpr (Nat.add_zero offset ▸ covers.1)))]
    exact shows.bytes index bound
  have inside := inside.resolve_left empty
  have nonempty : 0 < payload.length := List.length_pos_iff.mpr empty
  have start : (file.start (int64 offset)).getD 0 = offset := by
    have positive : offset < 2 ^ 63 := by omega
    rw [File.start, int64, if_pos positive, if_neg (by omega), if_neg (by omega), Option.getD_some,
      Int.toNat_natCast]
  rw [start]
  refine ⟨?_, fun index bound => ?_⟩
  · simp only [File.write, if_neg empty, shows.size]
    omega
  · simp only [File.write, if_neg empty, Bytes.write, shows.size]
    by_cases covers : offset ≤ index ∧ index < offset + payload.length
    · have within : index - offset < payload.length := by omega
      have covered : Extent.Covers ⟨offset, payload⟩ index := covers
      rw [if_pos covers, latest, if_pos covered, List.getD_eq_getElem _ _ within,
        List.getD_eq_getElem _ _ within]
    · have uncovered : ¬ Extent.Covers ⟨offset, payload⟩ index := covers
      rw [if_neg covers, if_pos bound, latest_uncovered uncovered]
      exact shows.bytes index bound

end Content

/-! ### Replies of the volume -/

/-- A complete reply without an error reaches the session. -/
def Event.Succeeds : Event → Prop
  | .ran operation _ bytes _ => operation.toFuse = true ∧ OutHeader.size ≤ bytes.length ∧
      OutHeader.len.load (ofList bytes) 0 = bytes.length ∧ OutHeader.error.load (ofList bytes) 0 = 0
  | _ => False

instance Event.decidableSucceeds (event : Event) : Decidable event.Succeeds :=
  match event with
  | .ran operation _ bytes _ => inferInstanceAs (Decidable (operation.toFuse = true ∧
      OutHeader.size ≤ bytes.length ∧ OutHeader.len.load (ofList bytes) 0 = bytes.length ∧
      OutHeader.error.load (ofList bytes) 0 = 0))
  | .called _ => isFalse id
  | .queued _ _ => isFalse id

/-- What stands behind the header of a reply. -/
def Event.data : Event → List UInt8
  | .ran _ _ bytes _ => bytes.drop OutHeader.size
  | _ => []

/-- The size that a `fuse_write_out` states. -/
def Event.writeSize (event : Event) : Nat := WriteOut.count.load (ofList event.data) 0

/-- The write that a reply acknowledges: of the payload, the size it states. -/
def Request.stores (request : Request) (event : Event) : Extent UInt8 :=
  ⟨request.body WriteIn.offset, request.payload.take event.writeSize⟩

/-- The writes that the replies to a request acknowledge. -/
def Request.acknowledged (request : Request) (events : List Event) : List (Extent UInt8) :=
  if request.opcode = some .write then
    (events.filter fun event => decide event.Succeeds).map request.stores
  else []

/-- The data that the replies to a request return. -/
def Request.Returns (request : Request) (events : List Event) (data : List UInt8) : Prop :=
  request.opcode = some .read ∧ ∃ event ∈ events, event.Succeeds ∧ event.data = data

/-! ### What a write leaves -/

theorem FileKept.silent {world after : World} (kept : FileKept world after) (quiet : List Event)
    (added : after.trace = world.trace ++ quiet) (off : ∀ event ∈ quiet, event.OffFile) :
    after.file = world.file := by
  obtain ⟨events, added', same⟩ := kept
  have events_eq : events = quiet := List.append_cancel_left (added'.symm.trans added)
  exact same (events_eq ▸ off)

/-- An event that is no splice into `fuse_fd` acknowledges nothing. -/
theorem Event.not_succeeds {event : Event} (quiet : event.replies = false) : ¬ event.Succeeds := by
  cases event with
  | ran operation pipe bytes res =>
    rintro ⟨out, -⟩
    exact Bool.false_ne_true (quiet.symm.trans out)
  | _ => exact id

section Acknowledged

variable {request : Request}

theorem Request.acknowledged_append (first second : List Event) :
    request.acknowledged (first ++ second) = request.acknowledged first ++
      request.acknowledged second := by
  unfold Request.acknowledged
  split
  · rw [List.filter_append, List.map_append]
  · rfl

/-- Events that are no replies acknowledge nothing. -/
theorem Request.acknowledged_quiet {events : List Event}
    (quiet : ∀ event ∈ events, event.replies = false) :
    request.acknowledged events = [] := by
  unfold Request.acknowledged
  split
  · have none : events.filter (fun event => decide event.Succeeds) = [] :=
      List.filter_eq_nil_iff.mpr fun event member =>
        mt of_decide_eq_true (Event.not_succeeds (quiet event member))
    rw [none]
    rfl
  · rfl

/-- A reply with error 0 and this size acknowledges the payload's front. -/
theorem Request.acknowledged_reply (write : request.opcode = some .write)
    {event : Event} {count : Nat}
    (succeeds : event.Succeeds) (size : event.writeSize = count) :
    request.acknowledged [event] = [⟨request.body WriteIn.offset, request.payload.take count⟩] := by
  have found : [event].filter (fun event => decide event.Succeeds) = [event] :=
    List.filter_eq_self.mpr fun event' member => decide_eq_true
      (List.mem_singleton.mp member ▸ succeeds)
  rw [Request.acknowledged, if_pos write, found, List.map_singleton, Request.stores, size]

/-- An empty payload is acknowledged by extents without values. -/
theorem Request.acknowledged_empty (empty : request.payload = []) (events : List Event) :
    ∀ extent ∈ request.acknowledged events, extent.values = [] := by
  unfold Request.acknowledged
  split
  · intro extent member
    obtain ⟨event, -, rfl⟩ := List.mem_map.mp member
    rw [Request.stores, empty]
    exact List.take_nil
  · exact fun extent member => absurd member List.not_mem_nil

end Acknowledged

/-- Extents without values do not show. -/
theorem latest_valueless {initial : Buffer} {log : List (Extent UInt8)}
    {empty : List (Extent UInt8)}
    (valueless : ∀ extent ∈ empty, extent.values = []) :
    latest initial (empty ++ log) = latest initial log := by
  funext index
  induction empty with
  | nil => rfl
  | cons extent rest ih =>
    have none : ¬ extent.Covers index := by
      rintro ⟨start, bound⟩
      rw [valueless extent List.mem_cons_self] at bound
      exact absurd bound (not_lt.mpr start)
    rw [List.cons_append, latest_uncovered none]
    exact ih fun extent' member => valueless extent' (List.mem_cons_of_mem _ member)

section Written

variable {kernel : Kernel} {fuseIo : FuseIo} {mem : Mem} {unique : Nat}

/-- **A whole success reply**, of which `count` bytes come from `scratch_buf`. -/
theorem Headed.succeeds {len : Nat} (headed : Headed fuseIo 0 len unique mem)
    {operation : Operation}
    (out : operation.toFuse = true) {count : Nat} (enough : OutHeader.size ≤ count)
    (rest : List UInt8)
    (whole : count + rest.length = len) (pipe : List UInt8) (res : Int) :
    Event.Succeeds (.ran operation pipe (mem.bytes fuseIo.scratchBuf count ++ rest) res) := by
  have length : (mem.bytes fuseIo.scratchBuf count ++ rest).length = len := by
    rw [List.length_append, Mem.bytes, length_slice, whole]
  obtain ⟨-, stated, error⟩ := headed.load (headerBytes_same fuseIo mem rest enough)
  refine ⟨out, ?_, ?_, ?_⟩
  · rw [length, ← whole]
    exact enough.trans (Nat.le_add_right _ _)
  · rw [length, stated]
  · exact error.trans (by decide)

/-- The success reply of `handle_write`. -/
theorem Headed.succeeds_write (headed : Headed fuseIo 0 (OutHeader.size + WriteOut.size) unique mem)
    {operation : Operation} (out : operation.toFuse = true) (pipe : List UInt8) (res : Int) :
    Event.Succeeds (.ran operation pipe (mem.bytes fuseIo.scratchBuf
      (OutHeader.size + WriteOut.size)) res) := by
  have succeeds :=
    headed.succeeds out (Nat.le_add_right OutHeader.size WriteOut.size) [] rfl pipe res
  rwa [List.append_nil] at succeeds

/-- The size in that reply. -/
theorem Mem.writeSize_count (operation : Operation) (pipe : List UInt8) (res : Int) :
    (Event.ran operation pipe
      (mem.bytes fuseIo.scratchBuf (OutHeader.size + WriteOut.size)) res).writeSize =
      mem.load (fuseIo.scratchBuf.add OutHeader.size) WriteOut.count := by
  rw [Event.writeSize, Event.data, Field.load, load_ofList_drop]
  exact load_slice (by decide)

/-- Of the fronts of a reply, only the reply is complete. -/
theorem Event.Succeeds.whole {operation : Operation} {pipe bytes reply : List UInt8} {res : Int}
    (succeeds : Event.Succeeds (.ran operation pipe bytes res)) (part : bytes <+: reply)
    (stated : OutHeader.len.load (ofList reply) 0 = reply.length) : bytes = reply := by
  obtain ⟨-, enough, length, -⟩ := succeeds
  refine part.eq_of_length ?_
  rw [← length, ← stated, List.prefix_iff_eq_take.mp part]
  exact load_ofList_take (le_trans (by decide) enough)

/-- A success reply of `handle_write` that is sent whole states the size in `scratch_buf`. -/
theorem Headed.writeSize (headed : Headed fuseIo 0 (OutHeader.size + WriteOut.size) unique mem)
    {operation : Operation} {pipe bytes : List UInt8} {res : Int}
    (part : bytes <+: mem.bytes fuseIo.scratchBuf (OutHeader.size + WriteOut.size))
    (succeeds : Event.Succeeds (.ran operation pipe bytes res)) :
    (Event.ran operation pipe bytes res).writeSize =
      mem.load (fuseIo.scratchBuf.add OutHeader.size) WriteOut.count := by
  have enough : OutHeader.size ≤ OutHeader.size + WriteOut.size := Nat.le_add_right _ _
  have same := headerBytes_same fuseIo mem [] enough
  rw [List.append_nil] at same
  have stated := (headed.load same).2.1
  have bytes_eq := succeeds.whole part (stated.trans (length_slice _ _ _).symm)
  rw [bytes_eq, Mem.writeSize_count]

/-- Of the events of a reply, only the splice into the session can succeed. -/
theorem ReplyOutcome.succeeded {write : Operation} {reply left : List UInt8} {rc : Int}
    {events : List Event} (inner : write.toFuse = false)
    (outcome : ReplyOutcome kernel fuseIo mem write reply [] rc events left) :
    ∀ event ∈ events, event.Succeeds → ∃ bytes res, bytes <+: reply ∧
      event = .ran (replySplice fuseIo reply.length) reply bytes res := by
  have silent : ∀ {pipe bytes : List UInt8} {res : Int},
      ¬ Event.Succeeds (.ran write pipe bytes res) := Event.not_succeeds inner
  intro event member succeeds
  cases outcome with
  | unqueued => exact absurd member List.not_mem_nil
  | cut =>
    simp only [List.mem_cons, List.not_mem_nil, or_false] at member
    rcases member with rfl | rfl
    · exact succeeds.elim
    · exact absurd succeeds silent
  | lost bytes res moved short =>
    simp only [List.mem_cons, List.not_mem_nil, or_false] at member
    rcases member with rfl | rfl | rfl
    · exact succeeds.elim
    · exact absurd succeeds silent
    · have part := moved.part
      rw [List.nil_append, List.take_length] at part
      exact ⟨bytes, res, part, rfl⟩
  | delivered =>
    simp only [List.mem_cons, List.not_mem_nil, or_false] at member
    rcases member with rfl | rfl | rfl
    · exact succeeds.elim
    · exact absurd succeeds silent
    · exact ⟨_, _, (List.take_length (l := reply)).symm ▸ List.prefix_rfl, rfl⟩

/-- A reply that takes the whole way. -/
theorem ReplyOutcome.whole {write : Operation} {reply left : List UInt8} {rc : Int}
    {events : List Event}
    (entries : ∀ world, kernel.sqe world 2 = true) (completes : kernel.Completes Operation.Plain)
    (plain : write.Plain) (nonempty : reply ≠ []) (small : reply.length < 2 ^ 31)
    (outcome : ReplyOutcome kernel fuseIo mem write reply [] rc events left) :
    events = [.queued (replyChain fuseIo write) mem, .ran write [] reply reply.length,
      .ran (replySplice fuseIo reply.length) reply reply reply.length] := by
  cases outcome with
  | unqueued missing =>
    obtain ⟨world, missing⟩ := missing
    exact absurd (entries world) missing
  | cut bytes res moved short =>
    obtain ⟨-, rfl⟩ := moved.completes completes plain small (Or.inl nonempty)
    exact absurd short (lt_irrefl _)
  | lost bytes res moved short =>
    rw [List.nil_append, List.take_length] at moved
    obtain ⟨-, rfl⟩ := moved.completes completes trivial small (Or.inl nonempty)
    exact absurd rfl short
  | delivered => rw [List.nil_append, List.take_length]

end Written

/-! ### What a write stores -/

@[simp] theorem File.absorb_nil (file : File) (offset : Int) : file.absorb offset [] = file := by
  simp [File.absorb]

section Stored

variable {ring : FuseRing} {request : Request} {kernel : Kernel} {fuseIo : FuseIo}
  {mem mem' : Mem} {unique : Nat}

/-- In front of the reply nothing is acknowledged. -/
theorem Request.acknowledged_last (write : request.opcode = some .write) (quiet : List Event)
    {event : Event}
    {count : Nat} (silent : ∀ event ∈ quiet, event.replies = false) (succeeds : event.Succeeds)
    (size : event.writeSize = count) :
    request.acknowledged (quiet ++ [event]) =
      [⟨request.body WriteIn.offset, request.payload.take count⟩] := by
  rw [Request.acknowledged_append, Request.acknowledged_quiet silent, List.nil_append,
    Request.acknowledged_reply write succeeds size]

/-- A payload that the file takes whole is what remains of the pipe's front. -/
theorem WriteOutcome.stored_empty {writeSize len : Nat} {left : List UInt8}
    {file file' : File} {rc : Int}
    {events : List Event} {offset : Nat}
    (outcome : WriteOutcome kernel fuseIo mem offset writeSize len
      [] file rc events mem' left file') :
    file' = file := by
  have none : ∀ {payload : List UInt8}, payload <+: file.accepts (int64 offset) writeSize [] →
      payload = [] := by
    intro payload part
    have bound := part.trans (file.accepts_prefix (int64 offset) writeSize [])
    rw [List.take_nil] at bound
    exact List.prefix_nil.mp bound
  cases outcome with
  | unqueued => rfl
  | fallback payload res moved =>
    have nothing : payload = [] := none moved.part
    rw [nothing, File.absorb_nil]
  | cutReply payload whole =>
    have nothing : payload = [] := none (whole ▸ List.prefix_rfl)
    rw [nothing, File.absorb_nil]
  | sent payload whole =>
    have nothing : payload = [] := none (whole ▸ List.prefix_rfl)
    rw [nothing, File.absorb_nil]

/-- The size in the reply after a short splice. -/
theorem writeShort_count {moved : Nat} (small : moved < 2 ^ 31) :
    (writeShort fuseIo moved mem).load (fuseIo.scratchBuf.add OutHeader.size) WriteOut.count =
      moved := by
  have word : word32 moved = moved := by
    unfold word32
    omega
  rw [writeShort, word, Mem.load_store_same]
  exact Nat.mod_eq_of_lt (small.trans (by decide))

/-- A fallback reply that succeeds states how many bytes the splice moved. -/
theorem writeFallback_writeSize {moved : Nat} {res : Int} (small : moved < 2 ^ 31)
    (low : -2 ^ 31 ≤ res) (result : res = moved ∨ res < 0)
    (headed : Headed fuseIo 0 (OutHeader.size + WriteOut.size) unique mem)
    {operation : Operation} {pipe bytes : List UInt8} {sent : Int}
    (part : bytes <+: scratchBytes fuseIo (writeFallback fuseIo res mem))
    (succeeds : Event.Succeeds (.ran operation pipe bytes sent)) :
    (Event.ran operation pipe bytes sent).writeSize = moved := by
  rcases result with rfl | negative
  · have headed' : Headed fuseIo 0 (OutHeader.size + WriteOut.size) unique
        (writeShort fuseIo moved mem) := headed.assign WriteOut.count _
    rw [writeFallback, if_neg (by omega), scratchBytes, headed'.len] at part
    exact (headed'.writeSize part succeeds).trans (writeShort_count small)
  · exfalso
    have headed' : Headed fuseIo res OutHeader.size unique (writeFailed fuseIo res mem) :=
      headed.restate res (by decide)
    rw [writeFallback, if_pos negative, scratchBytes, headed'.len] at part
    have same := headerBytes_same fuseIo (writeFailed fuseIo res mem) [] le_rfl
    rw [List.append_nil] at same
    obtain ⟨-, stated, error⟩ := headed'.load same
    have whole := succeeds.whole part (stated.trans (length_slice _ _ _).symm)
    have zero : word32 res = 0 := error.symm.trans (whole ▸ succeeds.2.2.2)
    unfold word32 at zero
    omega

/-- **A write is acknowledged with the size of what the file took**, whatever else the
kernel does. -/
theorem WriteOutcome.sized {writeSize len : Nat} {left : List UInt8}
    {file file' : File} {rc : Int} {events : List Event}
    (headed : Headed fuseIo 0 (OutHeader.size + WriteOut.size) unique mem)
    (filled : mem.load (fuseIo.scratchBuf.add OutHeader.size) WriteOut.count = writeSize)
    (exact : len = OutHeader.size + WriteOut.size) (covered : request.payload.length ≤ writeSize)
    (accepted : file.accepts (int64 (request.body WriteIn.offset)) writeSize request.payload =
      request.payload)
    (moves : kernel.Completes Operation.OnFile) (small : request.payload.length < 2 ^ 31)
    (outcome : WriteOutcome kernel fuseIo mem
      (request.body WriteIn.offset) writeSize len request.payload file
      rc events mem' left file') :
    ∀ event ∈ events, event.Succeeds → event.writeSize = request.payload.length := by
  have drained : request.payload.drop writeSize = [] := List.drop_eq_nil_of_le covered
  intro event member succeeds
  cases outcome with
  | unqueued => exact absurd member List.not_mem_nil
  | fallback payload res moved short reply =>
    rw [accepted] at moved
    have whole : payload = request.payload := by
      by_cases empty : request.payload = []
      · rw [empty]
        exact List.prefix_nil.mp (empty ▸ moved.part)
      · exact (moved.completes moves trivial small (Or.inl empty)).1
    rw [whole] at moved reply
    rw [List.drop_length] at reply
    simp only [List.mem_cons] at member
    rcases member with rfl | rfl | rfl | member
    · exact succeeds.elim
    · exact absurd succeeds (Event.not_succeeds rfl)
    · exact succeeds.elim
    · obtain ⟨bytes, sent, part, rfl⟩ := reply.succeeded rfl event member succeeds
      exact writeFallback_writeSize small moved.low (moved.result.imp_right And.left) headed part
        succeeds
  | cutReply payload whole full bytes res moved short =>
    simp only [List.mem_cons, List.not_mem_nil, or_false] at member
    rcases member with rfl | rfl | rfl
    · exact succeeds.elim
    · exact absurd succeeds (Event.not_succeeds rfl)
    · exact absurd succeeds (Event.not_succeeds rfl)
  | sent payload whole full bytes res moved =>
    rw [accepted] at whole
    have length : (mem.bytes fuseIo.scratchBuf len).length = len := length_slice _ _ _
    have part := moved.part
    rw [drained, List.nil_append, List.take_of_length_le length.le, exact] at part
    simp only [List.mem_cons, List.not_mem_nil, or_false] at member
    rcases member with rfl | rfl | rfl | rfl
    · exact succeeds.elim
    · exact absurd succeeds (Event.not_succeeds rfl)
    · exact absurd succeeds (Event.not_succeeds rfl)
    · rw [headed.writeSize part succeeds, filled, ← full, whole]

/-- **A write that the kernel completes is stored and acknowledged whole**, or it is not queued. -/
theorem WriteOutcome.acknowledged {writeSize len : Nat} {left : List UInt8}
    {file file' : File} {rc : Int}
    {events : List Event} (write : request.opcode = some .write)
    (headed : Headed fuseIo 0 (OutHeader.size + WriteOut.size) unique mem)
    (filled : mem.load (fuseIo.scratchBuf.add OutHeader.size) WriteOut.count = writeSize)
    (exact : len = OutHeader.size + WriteOut.size) (covered : request.payload.length ≤ writeSize)
    (small : request.payload.length < 2 ^ 31)
    (accepted : file.accepts (int64 (request.body WriteIn.offset)) writeSize request.payload =
      request.payload)
    (entries : ∀ world, kernel.sqe world 2 = true) (completes : kernel.Completes Operation.Plain)
    (offers : request.payload ≠ [] ∨ writeSize = 0)
    (outcome : WriteOutcome kernel fuseIo mem
      (request.body WriteIn.offset) writeSize len request.payload file
      rc events mem' left file') :
    (events = [] ∧ file' = file ∧ ∃ world, kernel.sqe world 3 ≠ true) ∨
      (request.acknowledged events = [⟨request.body WriteIn.offset, request.payload⟩] ∧
        file' = file.absorb (int64 (request.body WriteIn.offset)) request.payload) := by
  have drained : request.payload.drop writeSize = [] := List.drop_eq_nil_of_le covered
  have length : (mem.bytes fuseIo.scratchBuf len).length = len := length_slice _ _ _
  have nonempty : mem.bytes fuseIo.scratchBuf len ≠ [] :=
    List.ne_nil_of_length_pos (by rw [length, exact]; decide)
  have fits : (mem.bytes fuseIo.scratchBuf len).length < 2 ^ 31 := by
    rw [length, exact]
    decide
  cases outcome with
  | unqueued missing => exact Or.inl ⟨rfl, rfl, missing⟩
  | fallback payload res moved short reply =>
    have offers : request.payload ≠ [] ∨ ∀ world : World,
        world.available (payloadSplice fuseIo (request.body WriteIn.offset) writeSize) ≠ none :=
      offers.imp_right fun none world => by simp [World.available, payloadSplice, none]
    rw [accepted] at moved
    obtain ⟨rfl, rfl⟩ := moved.completes completes trivial small offers
    have fallback : writeFallback fuseIo request.payload.length mem =
        writeShort fuseIo request.payload.length mem := if_neg (by omega)
    have headed' : Headed fuseIo 0 (OutHeader.size + WriteOut.size) unique
        (writeShort fuseIo request.payload.length mem) := headed.assign WriteOut.count _
    have bytes : scratchBytes fuseIo (writeShort fuseIo request.payload.length mem) =
        (writeShort fuseIo request.payload.length mem).bytes fuseIo.scratchBuf
          (OutHeader.size + WriteOut.size) := by
      rw [scratchBytes, headed'.len]
    have length' : ((writeShort fuseIo request.payload.length mem).bytes fuseIo.scratchBuf
        (OutHeader.size + WriteOut.size)).length = OutHeader.size +
          WriteOut.size := length_slice _ _ _
    have plain : (scratchReply fuseIo (writeShort fuseIo request.payload.length mem)).Plain :=
      trivial
    rw [fallback, List.drop_length, bytes] at reply
    rw [reply.whole entries completes plain (List.ne_nil_of_length_pos (by rw [length']; decide))
      (by rw [length']; decide)]
    refine Or.inr ⟨?_, rfl⟩
    refine (Request.acknowledged_last write [_, _, _, _, _] ?_
      (headed'.succeeds_write (replySplice_kinds _ _).1 _ _) (Mem.writeSize_count _ _ _)).trans ?_
    · simp [Event.replies, show ∀ mem, (scratchReply fuseIo mem).toFuse = false from fun _ => rfl]
    · rw [writeShort_count small, List.take_length]
  | cutReply payload whole full bytes res moved short =>
    obtain ⟨-, rfl⟩ := moved.completes completes trivial fits (Or.inl nonempty)
    rw [length] at short
    exact absurd short (lt_irrefl _)
  | sent payload whole full bytes res moved =>
    rw [accepted] at whole
    rw [drained, List.nil_append] at moved ⊢
    rw [List.take_of_length_le length.le] at moved
    obtain ⟨rfl, -⟩ := moved.completes completes trivial fits (Or.inl nonempty)
    rw [whole]
    refine Or.inr ⟨?_, rfl⟩
    rw [exact]
    refine (Request.acknowledged_last write [_, _, _] ?_
      (headed.succeeds_write (replySplice_kinds _ _).1 _ _) (Mem.writeSize_count _ _ _)).trans ?_
    · simp [Event.replies]
    · rw [filled, List.take_of_length_le covered]

end Stored

/-! ### What a read returns -/

section Returned

variable {ring : FuseRing} {content : Buffer} {kernel : Kernel} {fuseIo : FuseIo}
  {mem : Mem} {unique : Nat}

/-- The header in front of the data states the length of both. -/
theorem Headed.stated {len : Nat} (headed : Headed fuseIo 0 len unique mem) {data : List UInt8}
    (whole : OutHeader.size + data.length = len) :
    OutHeader.len.load (ofList (mem.bytes fuseIo.scratchBuf OutHeader.size ++ data)) 0 =
      (mem.bytes fuseIo.scratchBuf OutHeader.size ++ data).length := by
  obtain ⟨-, stated, -⟩ := headed.load (headerBytes_same fuseIo mem data le_rfl)
  rw [stated, List.length_append, Mem.bytes, length_slice, whole]

/-- **A read of the volume changes no byte, and returns the content of its range.** -/
theorem ReadOutcome.returned {offset count readSize len : Nat} {left : List UInt8}
    {file file' : File} {rc : Int}
    {events : List Event} (shows : Shows ring content file) (small : offset < 2 ^ 64 - 1)
    (count_lt : count < 2 ^ 32) (clamped : readSize = clampedSize ring offset count)
    (headed : readSize < 2 ^ 31 → Headed fuseIo 0 (OutHeader.size + readSize) unique mem)
    (exact : readSize < 2 ^ 31 → len = OutHeader.size + readSize)
    (outcome : ReadOutcome kernel fuseIo mem offset readSize len [] file rc events left file') :
    Shows ring content file' ∧
      ∀ event ∈ events, event.Succeeds → event.data = rangeOf ring content offset count := by
  have silent : ∀ {events : List Event}, (∀ event ∈ events, event.replies = false) →
      ∀ event ∈ events, event.Succeeds → event.data = rangeOf ring content offset count :=
    fun quiet event member succeeds => absurd succeeds (Event.not_succeeds (quiet event member))
  cases outcome with
  | unqueued => exact ⟨shows, silent (by simp)⟩
  | cutHeader => exact ⟨shows, silent (by simp [Event.replies])⟩
  | cutData data => exact ⟨shows.seek _ _, silent (by simp [Event.replies])⟩
  | sent data bytes res whole full fits moved =>
    refine ⟨shows.seek _ _, fun event member succeeds => ?_⟩
    have size : (mem.bytes fuseIo.scratchBuf OutHeader.size).length = OutHeader.size :=
      length_slice _ _ _
    have total : (mem.bytes fuseIo.scratchBuf OutHeader.size ++ data).length = len := by
      rw [List.length_append, size, full, exact fits]
    rw [List.nil_append, ← total, List.take_length] at moved
    have last : event = .ran (replySplice fuseIo len)
        (mem.bytes fuseIo.scratchBuf OutHeader.size ++ data)
        bytes res := by
      simp only [List.mem_cons, List.not_mem_nil, or_false] at member
      rcases member with rfl | rfl | rfl | rfl
      · exact succeeds.elim
      · exact absurd succeeds (Event.not_succeeds (headerWrite_kinds fuseIo).1)
      · exact absurd succeeds (Event.not_succeeds (dataSplice_kinds fuseIo offset readSize).1)
      · rfl
    subst last
    have complete := succeeds.whole moved.part ((headed fits).stated (by rw [full]))
    have source := whole.trans (shows.source small readSize)
    have inside : readSize ≤ ring.backingFSize - offset := by
      have length := congrArg List.length source
      rw [rangeOf, length_slice, full] at length
      omega
    have range : readSize = min count (ring.backingFSize - offset) :=
      clamped.trans (clampedSize_range (by omega) count_lt (Or.inr (clamped ▸ inside)))
    rw [Event.data, complete, List.drop_left' size, source, rangeOf, rangeOf, ← range,
      Nat.min_eq_left inside]

/-- **A read that the kernel completes is answered.** -/
theorem ReadOutcome.answers {offset readSize len : Nat} {left : List UInt8}
    {file file' : File} {rc : Int}
    {events : List Event} (entries : ∀ world peek, kernel.sqe world peek = true)
    (completes : kernel.Completes Operation.Plain)
    (headed : Headed fuseIo 0 (OutHeader.size + readSize) unique mem)
    (exact : len = OutHeader.size + readSize)
    (small : OutHeader.size + readSize < 2 ^ 31)
    (backed : (file.source (int64 offset) readSize).length = readSize)
    (outcome : ReadOutcome kernel fuseIo mem offset readSize len [] file rc events left file') :
    ∃ event ∈ events, event.Succeeds := by
  have size : (mem.bytes fuseIo.scratchBuf OutHeader.size).length = OutHeader.size :=
    length_slice _ _ _
  have total : (mem.bytes fuseIo.scratchBuf OutHeader.size ++ file.source
      (int64 offset) readSize).length = len := by
    rw [List.length_append, size, backed, exact]
  have serves : kernel.Completes Operation.Serves :=
    fun world sqe bytes kind => completes world sqe bytes kind.1
  have accepts : kernel.Accepts fuseIo
      (mem.bytes fuseIo.scratchBuf OutHeader.size ++ file.source (int64 offset) readSize) := by
    intro world found
    have plain : (replySplice fuseIo (mem.bytes fuseIo.scratchBuf OutHeader.size ++
        file.source (int64 offset) readSize).length).Plain := trivial
    refine completes world _ _ plain ?_ (by rw [total, exact]; exact small)
    rw [replySplice, World.available, found, List.take_length]
  have settled := outcome.completes entries serves exact small backed accepts
  cases outcome with
  | unqueued => exact absurd settled (by decide)
  | cutHeader => exact absurd settled (by decide)
  | cutData => exact absurd settled (by decide)
  | sent data bytes res whole full fits moved =>
    subst whole
    have full : ¬ res < len := fun short => absurd ((if_pos short).symm.trans settled) (by decide)
    rw [List.nil_append, ← total, List.take_length] at moved
    obtain ⟨rfl, -⟩ := moved.whole (by omega)
    refine ⟨_, List.mem_cons_of_mem _ (List.mem_cons_of_mem _
      (List.mem_cons_of_mem _ List.mem_cons_self)), ?_⟩
    exact headed.succeeds (replySplice_kinds _ _).1 le_rfl _ (by rw [backed]) _ _

end Returned

/-! ### Requests to the volume -/

/-- What a reply is sent by. -/
def Operation.Answers (operation : Operation) : Prop := operation.Plain ∧ ¬ operation.OnFile

/-- The requests of the volume: a `READ` or a `WRITE` of node 3 whose splices
to or from the file move all the bytes there are. -/
structure VolumeRequest (request : Request) : Prop where
  kind : request.opcode = some .read ∨ request.opcode = some .write
  volume : request.header InHeader.nodeid = 3
  framed : request.opcode = some .write →
    request.header InHeader.len = InHeader.size + WriteIn.size + request.body WriteIn.count ∧
      request.message.length ≤ request.header InHeader.len
  moves : request.kernel.Completes Operation.OnFile

/-- The requests that the code treats as a store does. A `WRITE` with a payload
does not reach past `backing_f_size`, and its reply is not lost; a `READ` is inside
the volume. -/
structure InRange (ring : FuseRing) (request : Request) : Prop where
  write : request.opcode = some .write → request.payload = [] ∨
    request.body WriteIn.offset + request.payload.length ≤ ring.backingFSize ∧
      (∀ world, request.kernel.sqe world 2 = true) ∧ request.kernel.Completes Operation.Answers
  read : ReadsInside ring request

/-- A `READ` returns the content of its range, and a `WRITE` that brings its
payload has it acknowledged. -/
structure Request.Answered (ring : FuseRing) (content : Buffer) (request : Request)
    (events : List Event) : Prop where
  read : request.opcode = some .read → request.Returns events
    (rangeOf ring content (request.body ReadIn.offset) (request.body ReadIn.count))
  write : request.opcode = some .write → request.payload.length = request.body WriteIn.count →
    request.acknowledged events = [⟨request.body WriteIn.offset, request.payload⟩]

section Requests

variable {ring : FuseRing} {request : Request}

/-- The kernel completes what a reply is sent by, and the splices of the file. -/
theorem Kernel.completes_plain {kernel : Kernel} (moves : kernel.Completes Operation.OnFile)
    (answers : kernel.Completes Operation.Answers) : kernel.Completes Operation.Plain := by
  intro world sqe bytes plain
  by_cases file : sqe.operation.OnFile
  · exact moves world sqe bytes file
  · exact answers world sqe bytes ⟨plain, file⟩

/-- No payload in range stays behind. -/
theorem VolumeRequest.absorbed (volume : VolumeRequest request) (inRange : InRange ring request) :
    PayloadAbsorbed request := by
  intro write
  obtain ⟨announced, covered⟩ := volume.framed write
  have limit := ring.backingFSize_lt
  by_cases short : request.message.length ≤ InHeader.size + WriteIn.size
  · exact Or.inl short
  have payload : request.payload.length = request.message.length - (InHeader.size +
      WriteIn.size) := by
    rw [Request.payload, bodyOf_write write, List.length_drop]
  have nonempty : request.payload ≠ [] := List.ne_nil_of_length_pos (by omega)
  obtain ⟨inside, -⟩ := (inRange.write write).resolve_left nonempty
  have placed : (request.file.start (int64 (request.body WriteIn.offset))).isSome = true := by
    have positive : request.body WriteIn.offset < 2 ^ 63 := by omega
    rw [File.start, int64, if_pos positive, if_neg (by omega), if_neg (by omega)]
    rfl
  exact Or.inr ⟨volume.volume, announced, announced ▸ covered, placed,
    fun fuseIo world _ available small =>
    volume.moves world _ world.pipe trivial available small⟩

/-- **The second switch treats the file as a store**, and answers if the kernel completes. -/
theorem DispatchOutcome.stored {fuseIo : FuseIo} {rbytesBuf : Ptr} {mem : Mem} {rc : Int}
    {events : List Event}
    {mem' : Mem} {left : List UInt8} {file' : File} {initial : Buffer} {log : List (Extent UInt8)}
    (volume : VolumeRequest request) (inRange : InRange ring request)
    (shows : Shows ring (latest initial log) request.file)
    (acceptable : Acceptable ring request.message)
    (delivered : Delivered fuseIo request.message rbytesBuf mem)
    (outcome : DispatchOutcome request.kernel ring fuseIo request.opcode rbytesBuf mem
      request.payload
      request.file rc events mem' left file') :
    Shows ring (latest initial (request.acknowledged events ++ log)) file' ∧
      (request.opcode = some .read → ∀ event ∈ events, event.Succeeds → event.data =
        rangeOf ring (latest initial log) (request.body ReadIn.offset)
        (request.body ReadIn.count)) ∧
      (request.opcode = some .write → ∀ event ∈ events, event.Succeeds →
        (request.stores event).values.length = event.writeSize) ∧
      (request.kernel.Prompt → request.kernel.Completes Operation.Answers →
        request.Answered ring (latest initial log) events) := by
  have node := delivered.nodeid.trans volume.volume
  cases outcome with
  | built plain reply =>
    exfalso
    rcases volume.kind with read | write
    · exact plain.read read node
    · refine (plain.write write).resolve_left (not_not.mpr node) ?_
      rw [WriteFramed, delivered.announced, (delivered.writeIn write).2]
      exact (volume.framed write).1
  | listed readdir reply =>
    exfalso
    rcases volume.kind with read | write
    · exact absurd (read.symm.trans readdir) (by decide)
    · exact absurd (write.symm.trans readdir) (by decide)
  | read read node outcome =>
    have other : request.opcode ≠ some .write := by simp [read]
    obtain ⟨inside, short⟩ := inRange.read read
    have size_lt : ring.backingFSize < 2 ^ 63 := ring.backingFSize_lt
    have count_lt : request.body ReadIn.count < 2 ^ 32 := load_lt _ _ 4
    obtain ⟨offset, count⟩ := readClamped_fields ring rbytesBuf mem
    rw [(delivered.readIn (Or.inl read)).1] at offset
    rw [(delivered.readIn (Or.inl read)).1, (delivered.readIn (Or.inl read)).2] at count
    have clamped := clampedSize_range (by omega) count_lt (Or.inl inside)
    have headed : Headed fuseIo 0
        (OutHeader.size + clampedSize ring (request.body ReadIn.offset) (request.body ReadIn.count))
        (requestUnique (readClamped ring rbytesBuf mem) fuseIo)
          (readHeaded ring fuseIo rbytesBuf mem) := by
      rw [← count]
      refine outHeader_headed ?_ (requestUnique_lt _ _)
      rw [count, clamped]
      omega
    rw [Request.payload, payload_empty acceptable other, offset, count] at outcome
    have small : request.body ReadIn.offset < 2 ^ 64 - 1 := by omega
    obtain ⟨kept, returned⟩ :=
      outcome.returned shows small count_lt rfl (fun _ => headed) fun _ => headed.len
    have returned' : ∀ event ∈ Event.called .handleRead :: _, event.Succeeds → event.data =
        rangeOf ring (latest initial log) (request.body ReadIn.offset)
          (request.body ReadIn.count) :=
      fun event member succeeds => by
        rcases List.mem_cons.mp member with rfl | member
        · exact succeeds.elim
        · exact returned event member succeeds
    refine ⟨?_, fun _ => returned', fun write => absurd write other, fun prompt answers =>
      ⟨fun _ => ⟨read, ?_⟩, fun write => absurd write other⟩⟩
    · rw [Request.acknowledged, if_neg other]
      exact kept
    · have backed : (request.file.source (int64 (request.body ReadIn.offset))
          (clampedSize ring (request.body ReadIn.offset) (request.body ReadIn.count))).length =
          clampedSize ring (request.body ReadIn.offset) (request.body ReadIn.count) := by
        rw [shows.source small, rangeOf, length_slice, clamped]
        omega
      obtain ⟨event, member, succeeds⟩ :=
        outcome.answers prompt.sqe (Kernel.completes_plain volume.moves answers)
        headed headed.len (by rw [clamped]; exact short) backed
      exact ⟨event, List.mem_cons_of_mem _ member, succeeds, returned event member succeeds⟩
  | written write node framed outcome =>
    have other : request.opcode ≠ some .read := by simp [write]
    obtain ⟨covered, accepted, -⟩ := (volume.absorbed inRange).write fuseIo acceptable write
    have headed := writeFilled_headed fuseIo rbytesBuf mem
    have small : request.payload.length < 2 ^ 31 := by
      have fits := acceptable.fits
      have limit := ring.maxBufsize_lt
      rw [Request.payload, List.length_drop]
      omega
    have filled : (writeFilled fuseIo rbytesBuf mem).load
        (fuseIo.scratchBuf.add OutHeader.size) WriteOut.count =
        request.body WriteIn.count := by
      rw [writeFilled, writeReply, Mem.load_store_apart _ (Mem.apart_same (by decide)),
        Mem.load_store_same,
        (delivered.writeIn write).2]
      exact Nat.mod_eq_of_lt (load_lt _ _ 4)
    rw [(delivered.writeIn write).1, (delivered.writeIn write).2] at outcome
    have silent : ∀ event ∈ [Event.called .handleWrite], event.replies =
        false := by simp [Event.replies]
    have acknowledged : ∀ events, request.acknowledged (.called .handleWrite :: events) =
        request.acknowledged events := by
      intro events
      rw [← List.singleton_append, Request.acknowledged_append, Request.acknowledged_quiet silent,
        List.nil_append]
    have whole := fun entries completes offers =>
      outcome.acknowledged write headed filled headed.len covered small
      accepted entries completes offers
    have sized := outcome.sized headed filled headed.len covered accepted volume.moves small
    refine ⟨?_, fun read => absurd read other, fun _ event member succeeds => ?_,
      fun prompt answers => ⟨fun read => absurd read other, fun _ full => ?_⟩⟩
    · rw [acknowledged]
      by_cases empty : request.payload = []
      · rw [latest_valueless (Request.acknowledged_empty empty _)]
        rw [empty] at outcome
        rw [outcome.stored_empty]
        exact shows
      · obtain ⟨inside, entries, answers⟩ := (inRange.write write).resolve_left empty
        rcases whole entries (Kernel.completes_plain volume.moves answers) (Or.inl empty) with
          ⟨none, same, -⟩ | ⟨found, same⟩
        · rw [none, same, Request.acknowledged_quiet (by simp)]
          exact shows
        · rw [found, same]
          exact shows.absorb (Or.inr inside)
    · rcases List.mem_cons.mp member with rfl | member
      · exact succeeds.elim
      · rw [Request.stores, sized event member succeeds, List.take_length]
    · have offers : request.payload ≠ [] ∨ request.body WriteIn.count = 0 := by
        by_cases empty : request.payload = []
        · rw [empty] at full
          exact Or.inr full.symm
        · exact Or.inl empty
      rw [acknowledged]
      rcases whole (fun world => prompt.sqe world 2)
        (Kernel.completes_plain volume.moves answers) offers with
        ⟨-, -, world, missing⟩ | ⟨found, -⟩
      · exact absurd (prompt.sqe world 3) missing
      · exact found

end Requests

/-! ### Runs -/

/-- What stays of the log, the newest write first, behind a turn. -/
def Turn.logged (ring : FuseRing) (log : List (Extent UInt8)) (turn : Turn) : List (Extent UInt8) :=
  turn.current.acknowledged (turn.queued ring).2.trace ++ log

/-- **The abstract store.** The file shows the log before and behind the turn; a `READ`
returns the range's content, and so what the newest write to the range was; a write enters
the log with as many bytes as its reply says; no byte changes that no write in the log
covers; and the request is answered by a kernel that completes. -/
structure Refines (ring : FuseRing) (initial : Buffer) (log : List (Extent UInt8))
    (turn : Turn) : Prop where
  found : Shows ring (latest initial log) turn.service.file
  left : Shows ring (latest initial (turn.logged ring log)) (turn.next ring).file
  returned : ∀ data, turn.current.Returns (turn.queued ring).2.trace data →
    data = rangeOf ring (latest initial log) (turn.current.body ReadIn.offset)
      (turn.current.body ReadIn.count)
  visible : ∀ data newer extent older, turn.current.Returns (turn.queued ring).2.trace data →
    log = newer ++ extent :: older → extent.start ≤ turn.current.body ReadIn.offset →
    turn.current.body ReadIn.offset + turn.current.body ReadIn.count ≤ extent.start +
      extent.values.length →
    (∀ extent' ∈ newer, ∀ index, turn.current.body ReadIn.offset ≤ index →
      index < turn.current.body ReadIn.offset + turn.current.body ReadIn.count →
      ¬ extent'.Covers index) →
    data = (extent.values.drop (turn.current.body ReadIn.offset - extent.start)).take
      (turn.current.body ReadIn.count)
  sized : turn.current.opcode = some .write →
    ∀ event ∈ (turn.queued ring).2.trace, event.Succeeds →
      (turn.current.stores event).values.length = event.writeSize
  unchanged : ∀ index < ring.backingFSize, (∀ extent ∈ turn.logged ring log,
    ¬ extent.Covers index) →
    (turn.next ring).file.byte index = initial index
  answered : turn.request.kernel.Prompt → turn.request.kernel.Completes Operation.Answers →
    Acceptable ring turn.current.message →
    turn.current.Answered ring (latest initial log) (turn.queued ring).2.trace

section Runs

variable {ring : FuseRing} {turn : Turn} {initial : Buffer} {log : List (Extent UInt8)}

/-- The log is inside the file. -/
def Inside (ring : FuseRing) (log : List (Extent UInt8)) : Prop :=
  ∀ extent ∈ log, extent.values = [] ∨ extent.start + extent.values.length ≤ ring.backingFSize

/-- What a request in range acknowledges is inside the file. -/
theorem InRange.inside {request : Request} (inRange : InRange ring request) (events : List Event) :
    Inside ring (request.acknowledged events) := by
  intro extent member
  unfold Request.acknowledged at member
  split at member
  next write =>
    obtain ⟨event, -, rfl⟩ := List.mem_map.mp member
    rcases inRange.write write with empty | ⟨inside, -⟩
    · left
      rw [Request.stores, empty]
      exact List.take_nil
    · right
      have part := List.length_take_le' event.writeSize request.payload
      exact (Nat.add_le_add_left part _).trans inside
  next => exact absurd member List.not_mem_nil

/-- The turn leaves the file of its `queue_fuse_read`. -/
theorem Turn.next_file (turn : Turn) : (turn.next ring).file = (turn.queued ring).2.file := by
  rw [Turn.next, Turn.served, exec_queueReadSetRc]
  dsimp only
  split <;> rfl

/-- Only replies return data. -/
theorem Request.Returns.behind {request : Request} {quiet events : List Event} {data : List UInt8}
    (silent : ∀ event ∈ quiet, event.replies = false)
    (returns : request.Returns (quiet ++ events) data) :
    request.Returns events data := by
  obtain ⟨read, event, member, succeeds, same⟩ := returns
  rcases List.mem_append.mp member with first | last
  · exact absurd succeeds (Event.not_succeeds (silent event first))
  · exact ⟨read, event, last, succeeds, same⟩

/-- An answer stays one behind events that are no replies. -/
theorem Request.Answered.behind {content : Buffer} {request : Request} {quiet events : List Event}
    (silent : ∀ event ∈ quiet, event.replies = false)
    (answered : request.Answered ring content events) :
    request.Answered ring content (quiet ++ events) := by
  refine ⟨fun read => ?_, fun write full => ?_⟩
  · obtain ⟨read, event, member, succeeds⟩ := answered.read read
    exact ⟨read, event, List.mem_append_right _ member, succeeds⟩
  · rw [Request.acknowledged_append, Request.acknowledged_quiet silent, List.nil_append]
    exact answered.write write full

/-- What serving a request to the volume comes to: the file, what is returned,
the answer, and the pipe. -/
structure Stored (ring : FuseRing) (initial : Buffer) (log : List (Extent UInt8))
    (request : Request)
    (served : Int × World) : Prop where
  shows : Shows ring (latest initial (request.acknowledged served.2.trace ++ log)) served.2.file
  returned : ∀ data, request.Returns served.2.trace data →
    data = rangeOf ring (latest initial log) (request.body ReadIn.offset)
      (request.body ReadIn.count)
  sized : request.opcode = some .write → ∀ event ∈ served.2.trace, event.Succeeds →
    (request.stores event).values.length = event.writeSize
  answered : request.kernel.Prompt → request.kernel.Completes Operation.Answers →
    Acceptable ring request.message → request.Answered ring (latest initial log) served.2.trace
  drained : served.1 = 0 → served.2.pipe = []

/-- **A request to the volume is served as a store does.** -/
theorem Turn.stored (volume : VolumeRequest turn.current) (inRange : InRange ring turn.current)
    (shows : Shows ring (latest initial log) turn.service.file)
    (empty : (turn.service.pool turn.slot).pipe = []) :
    Stored ring initial log turn.current (turn.queued ring) := by
  have kept : FileKept turn.entered (turn.queued ring).2 :=
    exec_file turn.request.kernel (queueFuseRead ring) turn.entered
  rcases exec_queueFuseRead_outcome ring turn.current turn.entered_idle empty rfl rfl with
    ⟨rbytesBuf, mem, quiet, rc, events, mem', left, file', delivered, receives, acceptable,
      outcome, ran⟩ |
    ⟨after, ran, ⟨quiet, added, receives⟩, -, failed⟩
  all_goals
    have silent : ∀ event ∈ Event.called .queueFuseRead :: quiet, event.replies = false := by
      intro event member
      rcases List.mem_cons.mp member with rfl | member
      · rfl
      · exact (receives event member).quiet.1
  · have queued : turn.queued ring = (rc,
        ((turn.entered.received mem turn.current.payload quiet).setMem mem').leave
        left file' events) := ran
    have trace : (turn.queued ring).2.trace = (Event.called .queueFuseRead :: quiet) ++ events := by
      rw [queued]
      rfl
    obtain ⟨shows, returned, sized, answered⟩ :=
      outcome.stored volume inRange shows acceptable delivered
    obtain ⟨-, -, drained⟩ :=
      outcome.synced ring turn.current (volume.absorbed inRange) acceptable delivered
    refine ⟨?_, fun data returns => ?_, fun write event member succeeds => ?_,
      fun prompt answers _ => ?_, ?_⟩
    · rw [trace, Request.acknowledged_append, Request.acknowledged_quiet silent,
        List.nil_append, queued]
      exact shows
    · rw [trace] at returns
      obtain ⟨read, event, member, succeeds, same⟩ := returns.behind silent
      exact same.symm.trans (returned read event member succeeds)
    · rw [trace] at member
      rcases List.mem_append.mp member with first | last
      · exact absurd succeeds (Event.not_succeeds (silent event first))
      · exact sized write event last succeeds
    · rw [trace]
      exact (answered prompt answers).behind silent
    · rw [queued]
      exact drained
  · have queued : turn.queued ring = (-1, after) := ran
    have trace : (turn.queued ring).2.trace = Event.called .queueFuseRead :: quiet := by
      rw [queued, added]
      rfl
    have file : (turn.queued ring).2.file = turn.service.file := by
      refine kept.silent quiet ?_ fun event member => (receives event member).offFile
      rw [trace]
      rfl
    refine ⟨?_, fun data returns => ?_, fun _ event member succeeds => ?_,
      fun prompt _ acceptable => ?_, fun settled => ?_⟩
    · rw [trace, Request.acknowledged_quiet silent, List.nil_append, file]
      exact shows
    · rw [trace, ← List.append_nil (_ :: quiet)] at returns
      obtain ⟨-, event, member, -⟩ := returns.behind silent
      exact absurd member List.not_mem_nil
    · rw [trace] at member
      exact absurd succeeds (Event.not_succeeds (silent event member))
    · exact absurd ⟨prompt, acceptable⟩ failed
    · rw [queued] at settled
      exact absurd (show (-1 : Int) = 0 from settled) (by decide)

/-- **A turn refines the store.** -/
theorem Stored.refines (inside : Inside ring log)
    (shows : Shows ring (latest initial log) turn.service.file)
    (stored : Stored ring initial log turn.current (turn.queued ring)) :
    Refines ring initial log turn := by
  have left : Shows ring (latest initial (turn.logged ring log)) (turn.next ring).file := by
    rw [Turn.next_file]
    exact stored.shows
  refine ⟨shows, left, stored.returned, ?_, stored.sized, fun index bound uncovered => ?_,
    stored.answered⟩
  · intro data newer extent older returns split within bound untouched
    have fits : turn.current.body ReadIn.count ≤
        ring.backingFSize - turn.current.body ReadIn.offset := by
      rcases inside extent (split ▸ List.mem_append_right _ List.mem_cons_self) with empty | inside
      · rw [empty] at bound
        have none : ([] : List UInt8).length = 0 := rfl
        omega
      · omega
    rw [stored.returned data returns, rangeOf, Nat.min_eq_left fits, split]
    exact latest_slice within bound untouched
  · rw [left.bytes index bound, latest_outside uncovered]

/-- Every turn of the run refines the store, the log being what the turns before it acknowledged. -/
def Service.RefinesStore (ring : FuseRing) (service : Service)
    (requests : List (Nat × Request)) : Prop :=
  ∀ before turn after, service.turns ring requests = before ++ turn :: after →
    Refines ring service.file.byte (before.foldl (Turn.logged ring) []) turn

/-- **The volume refines a byte store**, over every run of reads and writes in range. -/
theorem volume_refines_store (ring : FuseRing) (service : Service) (requests : List (Nat × Request))
    (empty : ∀ slot, (service.pool slot).pipe = []) (size : service.file.size = ring.backingFSize)
    (volume : ∀ turn ∈ service.turns ring requests, VolumeRequest turn.current)
    (inRange : ∀ turn ∈ service.turns ring requests, InRange ring turn.current) :
    service.RefinesStore ring requests := by
  intro before turn after split
  have member : turn ∈ service.turns ring requests :=
    split ▸ List.mem_append_right _ List.mem_cons_self
  have found := Service.turns_induction (Turn.logged ring) (fun log service' =>
      (∀ slot, (service'.pool slot).pipe = []) ∧ Inside ring log ∧
        Shows ring (latest service.file.byte log) service'.file)
    (fun turn => VolumeRequest turn.current ∧ InRange ring turn.current)
    (fun log turn holds good again => by
      obtain ⟨empty, inside, shows⟩ := holds
      have stored := Turn.stored good.1 good.2 shows (empty turn.slot)
      have settled : (turn.queued ring).1 = 0 := by
        by_contra failed
        exact failed ((turn.next_failed failed).symm.trans again)
      refine ⟨fun slot => Turn.next_empty empty ?_ slot, fun extent member => ?_,
        (stored.refines inside shows).left⟩
      · rw [turn.served_settled settled]
        exact stored.drained settled
      · rcases List.mem_append.mp member with new | old
        · exact good.2.inside _ extent new
        · exact inside extent old)
    requests service [] ⟨empty, fun extent member => absurd member List.not_mem_nil, size,
      fun _ _ => rfl⟩
    (fun turn member => ⟨volume turn member, inRange turn member⟩) before turn after split
  obtain ⟨empty', inside, shows⟩ := found
  exact (Turn.stored (volume turn member) (inRange turn member) shows
    (empty' turn.slot)).refines inside shows

end Runs

/-! ### A write past the end -/

/-- A request of one byte of the volume. -/
def byteRequest (opcode : Opcode) (offset : Nat) (payload : List UInt8) : Request where
  message := sessionMessage opcode 7 3 (rangeBody offset 1 ++ payload)
  file := ⟨4096, ofList [], 0⟩
  kernel := .full
  wild := ofList []

/-- A turn serves one of the requests. -/
theorem Service.turns_request {ring : FuseRing} {requests : List (Nat × Request)} {turn : Turn} :
    ∀ {service : Service}, turn ∈ service.turns ring requests →
    (turn.slot, turn.request) ∈ requests := by
  induction requests with
  | nil => exact fun member => absurd member List.not_mem_nil
  | cons first rest ih =>
    obtain ⟨slot, request⟩ := first
    intro service member
    rw [turns] at member
    rcases List.mem_cons.mp member with rfl | member
    · exact List.mem_cons_self
    · by_cases again : (Turn.next ring ⟨service, slot, request⟩).lastRc = 0
      · exact List.mem_cons_of_mem _ (ih ((if_pos again) ▸ member))
      · exact absurd ((if_neg again) ▸ member) List.not_mem_nil

/-- A byte written and read back. -/
def byteRequests (offset : Nat) : List (Nat × Request) :=
  [(0, byteRequest .write offset [65]), (0, byteRequest .read offset [])]

theorem byteRequests_volume {offset : Nat} (place : offset = 0 ∨ offset = 4096) :
    ∀ request ∈ byteRequests offset, VolumeRequest request.2 := by
  intro request member
  simp only [byteRequests, List.mem_cons, List.not_mem_nil, or_false] at member
  rcases place with rfl | rfl <;> rcases member with rfl | rfl <;>
    exact ⟨by decide +kernel, by decide +kernel, by decide +kernel, Kernel.full_completes _⟩

theorem byteRequests_inRange : ∀ request ∈ byteRequests 0, InRange .small request.2 := by
  intro request member
  simp only [byteRequests, List.mem_cons, List.not_mem_nil, or_false] at member
  rcases member with rfl | rfl
  · exact ⟨fun _ => Or.inr ⟨by decide +kernel, fun _ => rfl, Kernel.full_completes _⟩,
      fun read => absurd read (by decide +kernel)⟩
  · exact ⟨fun write => absurd write (by decide +kernel), fun _ => by decide +kernel⟩

theorem VolumeRequest.current {turn : Turn} (volume : VolumeRequest turn.request) :
    VolumeRequest turn.current :=
  ⟨volume.kind, volume.volume, volume.framed, volume.moves⟩

theorem InRange.current {ring : FuseRing} {turn : Turn} (inRange : InRange ring turn.request) :
    InRange ring turn.current := ⟨inRange.write, inRange.read⟩

theorem first_byte_refines_store : Service.fresh.RefinesStore .small (byteRequests 0) :=
  volume_refines_store .small .fresh (byteRequests 0) (fun _ => rfl) rfl
    (fun _ member => (byteRequests_volume (Or.inl rfl) _ (Service.turns_request member)).current)
    (fun _ member => (byteRequests_inRange _ (Service.turns_request member)).current)

/-- A byte past the end is acknowledged and lost: the `READ` of it returns nothing. -/
theorem write_past_the_end_is_lost :
    ¬ ∀ (ring : FuseRing) (service : Service) (requests : List (Nat × Request)),
      (∀ slot, (service.pool slot).pipe = []) → service.file.size = ring.backingFSize →
      (∀ turn ∈ service.turns ring requests, VolumeRequest turn.current) →
      service.RefinesStore ring requests := by
  intro claim
  let wrote : Turn := ⟨.fresh, 0, byteRequest .write 4096 [65]⟩
  let read : Turn := ⟨wrote.next .small, 0, byteRequest .read 4096 []⟩
  have again : (wrote.next .small).lastRc = 0 := by decide +kernel
  have split : Service.fresh.turns .small (byteRequests 4096) =
      [wrote] ++ read :: if (read.next .small).lastRc = 0 then [] else [] := by
    rw [byteRequests, Service.turns]
    simp only [Service.turns]
    rw [if_pos again]
    rfl
  have log : [wrote].foldl (Turn.logged .small) [] = [⟨4096, [65]⟩] := by decide +kernel
  have refines := claim .small .fresh (byteRequests 4096) (fun _ => rfl) rfl
    (fun turn member => (byteRequests_volume (Or.inr rfl) _ (Service.turns_request member)).current)
      [wrote] read _ split
  rw [log] at refines
  have returns : read.current.Returns (read.queued .small).2.trace [] :=
    ⟨by decide +kernel, by decide +kernel⟩
  have lost := refines.visible [] [] ⟨4096, [65]⟩ [] returns rfl (by decide +kernel)
    (by decide +kernel) (by simp)
  exact absurd lost (by decide +kernel)

end Fuseuring
