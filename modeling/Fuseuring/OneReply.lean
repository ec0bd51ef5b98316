/-
**Never two replies to one request.**

Once a splice into `fuse_fd` has run, no other one runs and no reply function
is entered (`Settled`). Every outcome of a reply, of a read and of a write has
this shape; receiving a message never touches the session's side of the slot.
Nothing is assumed of the slot: its buffers and its pipe may hold anything.
-/

import Fuseuring.Requests

namespace Fuseuring

open Bytes Interaction

/-! ### Replies in a trace -/

/-- An operation that goes out to the session. -/
def Operation.toFuse : Operation → Bool
  | .splice _ _ (.fuse _) _ _ => true
  | _ => false

/-- A splice into `fuse_fd` runs. -/
def Event.replies : Event → Bool
  | .ran operation _ _ _ => operation.toFuse
  | _ => false

/-- A splice into `fuse_fd` delivers bytes. -/
def Event.delivers : Event → Bool
  | .ran operation _ bytes _ => operation.toFuse && !bytes.isEmpty
  | _ => false

/-- A reply function is entered. -/
def Event.sends : Event → Bool
  | .called .sendReply => true
  | .called .sendReplyBuf => true
  | _ => false

/-- Behind a splice into `fuse_fd` there is neither another one nor a reply function. -/
def Settled (events : List Event) : Prop :=
  events.Pairwise fun first second => first.replies = true → second.replies = false ∧
    second.sends = false

/-! ### Outcomes -/

section Outcomes

variable {kernel : Kernel} {fuseIo : FuseIo} {mem : Mem}

theorem Operation.Receives.inward {operation : Operation} (receives : operation.Receives) :
    operation.toFuse = false := by
  unfold Operation.Receives at receives
  split at receives <;> first | rfl | exact receives.elim

theorem Event.Receives.quiet {event : Event} (receives : event.Receives) :
    event.replies = false ∧ event.delivers = false := by
  cases receives with
  | called => exact ⟨rfl, rfl⟩
  | queued => exact ⟨rfl, rfl⟩
  | ran pipe bytes res receives => simp [Event.replies, Event.delivers, receives.inward]

/-- An event that is no splice into `fuse_fd` may stand in front. -/
theorem Settled.cons {event : Event} {events : List Event} (quiet : event.replies = false)
    (settled : Settled events) : Settled (event :: events) :=
  List.pairwise_cons.mpr ⟨fun _ _ replies => absurd
    (quiet.symm.trans replies) Bool.false_ne_true, settled⟩

theorem Settled.append {quiet events : List Event} (none : ∀ event ∈ quiet, event.replies = false)
    (settled : Settled events) : Settled (quiet ++ events) := by
  induction quiet with
  | nil => exact settled
  | cons event rest ih =>
    exact .cons (none event List.mem_cons_self)
      (ih fun event' member => none event' (List.mem_cons_of_mem _ member))

theorem settled_nil : Settled [] := List.Pairwise.nil

theorem settled_singleton (event : Event) : Settled [event] := List.pairwise_singleton _ _

/-- A reply runs one splice into `fuse_fd`, and that last. -/
theorem ReplyOutcome.settled {write : Operation} {reply pipe left : List UInt8} {rc : Int}
    {events : List Event} (inward : write.toFuse = false)
    (outcome : ReplyOutcome kernel fuseIo mem write reply pipe rc events left) :
    Settled events := by
  cases outcome with
  | unqueued => exact settled_nil
  | cut => exact .cons rfl (settled_singleton _)
  | lost | delivered => exact .cons rfl (.cons inward (settled_singleton _))

/-- A read of the volume runs one splice into `fuse_fd`, and that last. -/
theorem ReadOutcome.settled {readOffset readSize len : Nat} {pipe left : List UInt8}
    {file file' : File}
    {rc : Int} {events : List Event}
    (outcome : ReadOutcome kernel fuseIo mem readOffset readSize len pipe file rc
      events left file') :
    Settled events := by
  cases outcome with
  | unqueued => exact settled_nil
  | cutHeader => exact .cons rfl (settled_singleton _)
  | cutData => exact .cons rfl (.cons rfl (settled_singleton _))
  | sent => exact .cons rfl (.cons rfl (.cons rfl (settled_singleton _)))

/-- A write to the volume goes on to its fallback only where its chain was cut
before the success reply. -/
theorem WriteOutcome.settled {writeOffset writeSize len : Nat} {pipe left : List UInt8}
    {file file' : File}
    {rc : Int} {events : List Event} {mem' : Mem}
    (outcome : WriteOutcome kernel fuseIo mem writeOffset writeSize len pipe file rc events
      mem' left file') :
    Settled events := by
  cases outcome with
  | unqueued => exact settled_nil
  | fallback payload res moved short reply =>
    exact .cons rfl (.cons rfl (.cons rfl (reply.settled rfl)))
  | cutReply => exact .cons rfl (.cons rfl (settled_singleton _))
  | sent => exact .cons rfl (.cons rfl (.cons rfl (settled_singleton _)))

theorem callsOf_quiet (request : Option Opcode) :
    ∀ event ∈ callsOf request, event.replies = false := by
  intro event member
  obtain ⟨function, rfl⟩ := callsOf_called request event member
  rfl

/-- Whatever the second switch comes to. -/
theorem DispatchOutcome.settled {ring : FuseRing} {request : Option Opcode} {rbytesBuf : Ptr}
    {pipe left : List UInt8} {file file' : File} {rc : Int} {events : List Event} {mem' : Mem}
    (outcome : DispatchOutcome kernel ring fuseIo request rbytesBuf mem pipe file rc events
      mem' left file') :
    Settled events := by
  cases outcome with
  | built plain reply => exact .append (callsOf_quiet request) (.cons rfl (reply.settled rfl))
  | listed readdir reply => exact .cons rfl (.cons rfl (reply.settled rfl))
  | read read volume outcome => exact .cons rfl outcome.settled
  | written write volume framed outcome => exact .cons rfl outcome.settled

end Outcomes

/-! ### Requests -/

section Requests

variable (ring : FuseRing) (slot : SlotState) (request : Request)

/-- **A request is settled by its splice into `fuse_fd`**, whatever the slot holds. -/
theorem serve_settled : Settled (serve ring slot request).2.trace := by
  obtain ⟨before, ⟨quiet, added, receives⟩, served⟩ :=
    exec_queueFuseRead_shape request.kernel ring (slot.world_idle request)
  have silent : ∀ event ∈ quiet, event.replies = false :=
    fun event member => (receives event member).quiet.1
  have added' : before.trace = quiet := added
  rcases served with refused | ⟨opcode, rbytesBuf, idle, dispatched⟩
  · have trace : (serve ring slot request).2.trace = quiet ++ [] := by
      rw [serve, refused, List.append_nil, added']
    rw [trace]
    exact .append silent settled_nil
  · obtain ⟨rc, events, mem, pipe, file, outcome, ran⟩ :=
      exec_dispatch_outcome request.kernel ring slot.fuseIo rbytesBuf idle opcode
    have trace : (serve ring slot request).2.trace = quiet ++ events := by
      rw [serve, dispatched]
      change (exec request.kernel (dispatch ring slot.fuseIo opcode rbytesBuf) before).2.trace = _
      rw [ran, World.leave_trace, World.setMem_trace, added']
    rw [trace]
    exact .append silent outcome.settled

/-- At most one event of a settled trace delivers. -/
theorem Settled.delivers_le_one {events : List Event} (settled : Settled events) :
    (events.filter Event.delivers).length ≤ 1 := by
  have apart : (events.filter Event.delivers).Pairwise fun _ _ => False := by
    refine (List.Pairwise.filter _ settled).imp_of_mem fun first second order => ?_
    have replies : ∀ {event : Event}, event ∈ events.filter Event.delivers →
        event.replies = true := by
      intro event member
      have delivers := (List.mem_filter.mp member).2
      cases event with
      | ran operation pipe bytes res => exact (Bool.and_eq_true_iff.mp delivers).1
      | _ => cases delivers
    exact absurd (order (replies first)).1 (by rw [replies second]; decide)
  match events.filter Event.delivers, apart with
  | [], _ => exact Nat.zero_le _
  | [_], _ => exact le_rfl
  | first :: second :: _, apart =>
    exact ((List.pairwise_cons.mp apart).1 second List.mem_cons_self).elim

/-- **Never two replies to one request.** At most one splice into `fuse_fd`
delivers bytes, and a reply function, in particular for the fallback reply of
`handle_write`, is entered only where no splice into `fuse_fd` has run. -/
theorem serve_one_reply :
    ((serve ring slot request).2.trace.filter Event.delivers).length ≤ 1 ∧
      ∀ before after event, (serve ring slot request).2.trace = before ++ event :: after →
        event.sends = true → ∀ earlier ∈ before, earlier.replies = false := by
  have settled := serve_settled ring slot request
  refine ⟨settled.delivers_le_one, fun before after event split sends earlier member => ?_⟩
  rw [split] at settled
  by_contra replied
  have order := (List.pairwise_append.mp settled).2.2 earlier member event List.mem_cons_self
  have silent := (order (by simpa using replied)).2
  exact absurd (silent.symm.trans sends) Bool.false_ne_true

end Requests

end Fuseuring
