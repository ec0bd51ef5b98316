/-
**The pipe is a queue.**

`Ledger` is the law of the queue over any stretch of a trace: what was taken out,
followed by what is left, is what was there, followed by what was put in; and what
arrived from the session, followed by what is still to come, is what was to come. Every
coroutine keeps it (`exec_ledger`), whatever it does and whatever the kernel answers.
-/

import Fuseuring.Requests

namespace Fuseuring

open Bytes Interaction

/-! ### What an event moves -/

/-- The operation puts bytes into the pipe. -/
def Operation.puts : Operation → Bool
  | .splice (.fuse _) _ _ _ _ => true
  | .splice .backing _ _ _ _ => true
  | .writeFixed _ _ _ => true
  | .write _ _ => true
  | _ => false

/-- The operation takes a message from the session. -/
def Operation.arrives : Operation → Bool
  | .splice (.fuse _) _ _ _ _ => true
  | _ => false

/-- The operation brings bytes of the pipe to memory. -/
def Operation.parses : Operation → Bool
  | .read _ _ _ => true
  | _ => false

/-- The bytes moved by the operations of a kind. -/
def Event.moved (kind : Operation → Bool) : Event → List UInt8
  | .ran operation _ bytes _ => if kind operation then bytes else []
  | _ => []

/-- The bytes moved by the operations of a kind, in order. -/
def movedBy (kind : Operation → Bool) (events : List Event) : List UInt8 :=
  events.flatMap (Event.moved kind)

/-- The bytes put into the pipe, from the session or by the server. -/
def putBy (events : List Event) : List UInt8 := movedBy Operation.puts events

/-- The bytes taken out of the pipe. -/
def takenBy (events : List Event) : List UInt8 := movedBy (fun operation => !operation.puts) events

/-- The bytes the session delivered. -/
def arrivedBy (events : List Event) : List UInt8 := movedBy Operation.arrives events

/-- The bytes read from the pipe to memory. -/
def parsedBy (events : List Event) : List UInt8 := movedBy Operation.parses events

/-- The bytes the server itself put into the pipe. -/
def writtenBy (events : List Event) : List UInt8 :=
  movedBy (fun operation => operation.puts && !operation.arrives) events

@[simp] theorem movedBy_nil (kind : Operation → Bool) : movedBy kind [] = [] := rfl

@[simp] theorem movedBy_append (kind : Operation → Bool) (events events' : List Event) :
    movedBy kind (events ++ events') = movedBy kind events ++ movedBy kind events' := by
  simp [movedBy]

@[simp] theorem movedBy_cons (kind : Operation → Bool) (event : Event) (events : List Event) :
    movedBy kind (event :: events) = event.moved kind ++ movedBy kind events := rfl

/-! ### The law of the queue -/

/-- The law of the queue between two worlds. -/
def Ledger (world after : World) : Prop :=
  ∃ events, after.trace = world.trace ++ events ∧
    takenBy events ++ after.pipe = world.pipe ++ putBy events ∧
    arrivedBy events ++ after.incoming = world.incoming

namespace Ledger

theorem refl (world : World) : Ledger world world :=
  ⟨[], by simp, by simp [takenBy, putBy], by simp [arrivedBy]⟩

theorem trans (first second third : World) (left : Ledger first second)
    (right : Ledger second third) :
    Ledger first third := by
  obtain ⟨events, added, queue, arrival⟩ := left
  obtain ⟨events', added', queue', arrival'⟩ := right
  refine ⟨events ++ events', ?_, ?_, ?_⟩
  · rw [added', added, List.append_assoc]
  · simp only [takenBy, putBy, movedBy_append, List.append_assoc] at queue queue' ⊢
    rw [queue', ← List.append_assoc, queue, List.append_assoc]
  · simp only [arrivedBy, movedBy_append, List.append_assoc] at arrival arrival' ⊢
    rw [arrival', arrival]

/-- A world that differs in neither pipe, trace nor message. -/
theorem of_eq {world after : World} (trace : after.trace = world.trace)
    (pipe : after.pipe = world.pipe)
    (incoming : after.incoming = world.incoming) : Ledger world after :=
  ⟨[], by simp [trace], by simp [takenBy, putBy, pipe], by simp [arrivedBy, incoming]⟩

/-- An event that moves nothing. -/
theorem record (world : World) {event : Event} (still : ∀ kind, event.moved kind = []) :
    Ledger world (world.record event) :=
  ⟨[event], rfl, by simp [takenBy, putBy, still], by simp [arrivedBy, still]⟩

end Ledger

section Queue

variable (kernel : Kernel)

theorem transfer_pipe (world : World) (operation : Operation) (bytes : List UInt8) :
    (world.transfer operation bytes).pipe =
      if operation.puts then world.pipe ++ bytes else world.pipe.drop bytes.length := by
  rcases operation with ⟨fdIn, offIn, fdOut, offOut, nbytes⟩ | _ | _ | _
  · rcases fdIn with _ | _ | _ | _ <;> rcases fdOut with _ | _ | _ | _ <;> rfl
  all_goals rfl

theorem transfer_incoming (world : World) (operation : Operation) (bytes : List UInt8) :
    (world.transfer operation bytes).incoming = if operation.arrives then []
    else world.incoming := by
  rcases operation with ⟨fdIn, offIn, fdOut, offOut, nbytes⟩ | _ | _ | _
  · rcases fdIn with _ | _ | _ | _ <;> rcases fdOut with _ | _ | _ | _ <;> rfl
  all_goals rfl

/-- What can be taken out of the pipe is its front. -/
theorem available_takes {world : World} {operation : Operation} {bytes : List UInt8}
    (available : world.available operation = some bytes) (takes : operation.puts = false) :
    bytes <+: world.pipe := by
  have front : ∀ count, world.pipe.take count <+: world.pipe := fun count => List.take_prefix _ _
  rcases operation with ⟨fdIn, offIn, fdOut, offOut, nbytes⟩ | ⟨fd, buf, nbytes⟩ | _ | _
  · rcases fdIn with _ | _ | _ | _
    · cases takes
    · cases takes
    · rcases fdOut with _ | _ | _ | _
      · simp only [World.available] at available
        split at available
        · exact Option.some.inj available ▸ List.nil_prefix
        · obtain ⟨start, -, rfl⟩ := Option.map_eq_some_iff.mp available
          exact front _
      · exact Option.some.inj available ▸ front _
      · cases available
      · cases available
    · rcases fdOut with _ | _ | _ | _ <;> cases available
  · rcases fd with _ | _ | _ | _
    · cases available
    · cases available
    · exact Option.some.inj available ▸ front _
    · cases available
  · cases takes
  · cases takes

/-- What arrives is the whole message. -/
theorem available_arrives {world : World} {operation : Operation} {bytes : List UInt8}
    (available : world.available operation = some bytes)
    (arrives : operation.arrives = true) (res : Int) :
    World.portion operation bytes res = world.incoming := by
  rcases operation with ⟨fdIn, offIn, fdOut, offOut, nbytes⟩ | _ | _ | _
  · rcases fdIn with _ | _ | _ | _
    · cases arrives
    · rcases fdOut with _ | _ | _ | _
      · cases available
      · cases available
      · cases available
      · simp only [World.available] at available
        split at available
        · exact (Option.some.inj available).symm
        · cases available
    · cases arrives
    · cases arrives
  all_goals cases arrives

/-- One operation keeps the law. -/
theorem perform_ledger (world : World) (sqe : Sqe) : Ledger world (world.perform kernel sqe).2 := by
  have still : ∀ res kind, Event.moved kind (.ran sqe.operation world.pipe [] res) = [] := by
    intro res kind
    simp [Event.moved]
  unfold World.perform
  split
  · exact .record world (still _)
  next bytes available =>
    by_cases failed : kernel.result world sqe < 0
    · simp only [if_pos failed]
      exact .record world (still _)
    · simp only [if_neg failed]
      generalize moved : World.portion sqe.operation bytes (kernel.result world sqe) = part
      refine ⟨[.ran sqe.operation world.pipe part part.length], ?_, ?_, ?_⟩
      · simp [World.transfer_trace]
      · rw [World.record_pipe, transfer_pipe]
        cases puts : sqe.operation.puts with
        | true => simp [takenBy, putBy, Event.moved, puts]
        | false =>
          have other : ¬ sqe.operation.fromFuse := by
            intro arrives
            unfold Operation.fromFuse at arrives
            split at arrives
            · rename_i operation
              rw [operation] at puts
              cases puts
            · exact arrives
          have front : part <+: world.pipe := by
            rw [← moved, World.portion_prefix other]
            exact (List.take_prefix _ _).trans (available_takes available puts)
          obtain ⟨rest, split⟩ := front
          simp [takenBy, putBy, Event.moved, puts, ← split]
      · rw [World.record_incoming, transfer_incoming]
        cases arrives : sqe.operation.arrives with
        | true =>
          simp [arrivedBy, Event.moved, arrives, ← moved, available_arrives available arrives]
        | false => simp [arrivedBy, Event.moved, arrives]

/-- **Every coroutine keeps the law of the queue.** -/
theorem exec_ledger {α : Type} (program : Coro α) (world : World) :
    Ledger world (exec kernel program world).2 := by
  refine exec_relates Ledger.refl Ledger.trans ?_ ?_ ?_ ?_ program world
  · exact fun trace pipe _ incoming => .of_eq trace pipe incoming
  · exact fun state _ => .record state fun _ => rfl
  · exact fun state _ _ => .record state fun _ => rfl
  · exact fun sqe state => perform_ledger kernel state sqe

end Queue

end Fuseuring
