/-
**Reading from the pipe.**

A read takes bytes from the front of the pipe to the place behind those it took before,
so that a loop of short reads is one transfer (`World.taken_taken`). `readLoop_cases`
is the induction both loops of the receiving half share: a loop takes all it was asked
for or gives up, and a prompt kernel with enough bytes in the pipe never makes it give
up. `exec_readRbytesLoop` and `exec_readHeaderLoop` are the two loops.
-/

import Fuseuring.Dispatch

namespace Fuseuring

open Bytes Interaction

/-! ### Reading from the pipe -/

/-- The operations that bring a message in. -/
def Operation.Receives : Operation → Prop
  | .splice (.fuse _) _ (.pipe1 _) _ _ => True
  | .read (.pipe0 _) _ _ => True
  | _ => False

/-- The events of bringing a message in. -/
inductive Event.Receives : Event → Prop
  | called : Receives (.called .readRbytes)
  | queued {chain : List Sqe} (mem : Mem) (reads : ∀ sqe ∈ chain, sqe.operation.Receives) :
      Receives (.queued chain mem)
  | ran {operation : Operation} (pipe bytes : List UInt8) (res : Int)
    (receives : operation.Receives) :
      Receives (.ran operation pipe bytes res)

/-- Entries are to be had, and what brings a message in makes progress. -/
structure Kernel.Prompt (kernel : Kernel) : Prop where
  sqe : ∀ world peek, kernel.sqe world peek = true
  result : ∀ world sqe, sqe.operation.Receives → 0 < kernel.result world sqe

namespace World

/-- Only receiving events were added to the trace. -/
def Refused (world after : World) : Prop :=
  ∃ events, after.trace = world.trace ++ events ∧ ∀ event ∈ events, event.Receives

theorem Refused.refl (world : World) : world.Refused world :=
  ⟨[], by simp, by simp⟩

theorem Refused.trans {first second third : World} (left : first.Refused second)
    (right : second.Refused third) : first.Refused third := by
  obtain ⟨events, added, receives⟩ := left
  obtain ⟨events', added', receives'⟩ := right
  refine ⟨events ++ events', ?_, ?_⟩
  · rw [added', added, List.append_assoc]
  · intro event present
    rcases List.mem_append.mp present with before | behind
    · exact receives event before
    · exact receives' event behind

/-- `count` bytes of the pipe are read to `buf`. -/
def taken (world : World) (buf : Ptr) (count : Nat) (events : List Event) : World :=
  (world.setMem (world.mem.copy buf (world.pipe.take count))).leave
    (world.pipe.drop count) world.file events

/-- Two reads to adjacent places are one. -/
theorem taken_taken (world : World) (buf : Ptr) {count : Nat} (enough : count ≤ world.pipe.length)
    (count' : Nat) (events events' : List Event) :
    (world.taken buf count events).taken (buf.add count) count' events' =
      world.taken buf (count + count') (events ++ events') := by
  have length : (world.pipe.take count).length = count := by simp [enough]
  have mem : (world.mem.copy buf (world.pipe.take count)).copy (buf.add count)
      ((world.pipe.drop count).take count') = world.mem.copy buf
        (world.pipe.take (count + count')) := by
    have joined :=
      Mem.copy_copy world.mem buf (world.pipe.take count) ((world.pipe.drop count).take count')
    rwa [length, ← List.take_add] at joined
  simp only [taken, leave_mem, setMem_mem, leave_pipe, leave_file, mem, List.drop_drop]
  simp [leave, setMem]

theorem Idle.taken {world : World} (idle : world.Idle) (buf : Ptr) (count : Nat)
    (events : List Event) :
    (world.taken buf count events).Idle := (idle.setMem _).leave _ _ _

theorem record_taken (world : World) (event : Event) (buf : Ptr) (count : Nat)
    (events : List Event) :
    (world.record event).taken buf count events = world.taken buf count (event :: events) := by
  simp [taken, leave, record, setMem]

theorem taken_refused (world : World) (buf : Ptr) (count : Nat) {events : List Event}
    (receives : ∀ event ∈ events, event.Receives) : world.Refused (world.taken buf count events) :=
  ⟨events, rfl, receives⟩

end World

/-- A read of the pipe, alone in its chain. -/
def readSqe (fuseIo : FuseIo) (buf : Ptr) (count : Nat) : Sqe :=
  ⟨.read (.pipe0 fuseIo) buf count, .none⟩

theorem readSqe_receives (fuseIo : FuseIo) (buf : Ptr) (count : Nat) :
    (readSqe fuseIo buf count).operation.Receives := trivial

/-- The events of reading `total` bytes to `target`: every read ends within
them, and brings something. -/
inductive Event.ReadsInto (fuseIo : FuseIo) (target : Ptr) (total : Nat) : Event → Prop
  | queued {start count : Nat} (mem : Mem) (inside : start + count ≤ total) :
      ReadsInto fuseIo target total (.queued [readSqe fuseIo (target.add start) count] mem)
  | ran {start count : Nat} (pipe bytes : List UInt8) {res : Int} (inside : start + count ≤ total)
    (some : 0 < res) :
      ReadsInto fuseIo target total
        (.ran (readSqe fuseIo (target.add start) count).operation pipe bytes res)

theorem Event.ReadsInto.receives {fuseIo : FuseIo} {target : Ptr} {total : Nat} {event : Event}
    (reads : event.ReadsInto fuseIo target total) : event.Receives := by
  cases reads with
  | queued mem inside =>
    exact .queued mem fun sqe present => List.mem_singleton.mp present ▸ readSqe_receives _ _ _
  | ran pipe bytes inside some => exact .ran pipe bytes _ (readSqe_receives _ _ _)

/-- Reads into a part are reads into the whole. -/
theorem Event.ReadsInto.within {fuseIo : FuseIo} {target : Ptr} {start count total : Nat}
    {event : Event}
    (reads : event.ReadsInto fuseIo (target.add start) count) (inside : start + count ≤ total) :
    event.ReadsInto fuseIo target total := by
  have shift : ∀ behind, (target.add start).add behind = target.add (start + behind) :=
    fun behind =>
    congrArg (Ptr.mk target.fuseIo target.region) (Nat.add_assoc _ _ _)
  cases reads with
  | queued mem inside' =>
    rw [shift]
    exact .queued mem (by omega)
  | ran pipe bytes inside' some =>
    rw [shift]
    exact .ran pipe bytes (by omega) some

section Reading

variable (kernel : Kernel) {world : World} (fuseIo : FuseIo) (target : Ptr)

/-- A read fails, or takes the front of the pipe up to what the kernel returns. -/
theorem perform_read (world : World) (buf : Ptr) (count : Nat) :
    world.perform kernel (readSqe fuseIo buf count) =
      if kernel.result world (readSqe fuseIo buf count) < 0 then
        (kernel.result world (readSqe fuseIo buf count), world.taken buf 0
          [.ran (readSqe fuseIo buf count).operation world.pipe []
            (kernel.result world (readSqe fuseIo buf count))])
      else
        let moved :=
          (world.pipe.take count).take (kernel.result world (readSqe fuseIo buf count)).toNat
        (moved.length, world.taken buf moved.length
          [.ran (readSqe fuseIo buf count).operation world.pipe moved moved.length]) := by
  have available : world.available (readSqe fuseIo buf count).operation = some
      (world.pipe.take count) := rfl
  rw [World.perform, available]
  dsimp only
  split
  · simp [World.taken, World.leave, World.record, World.setMem]
  · have front : (world.pipe.take count).take (kernel.result world (readSqe fuseIo buf count)).toNat
        <+: world.pipe := (List.take_prefix _ _).trans (List.take_prefix _ _)
    have same := List.prefix_iff_eq_take.mp front
    simp only [World.taken, ← same]
    rfl

/-- **One read.** It takes as many bytes as it returns, and some if the kernel
is prompt and there are any. -/
theorem perform_read_cases (world : World) (buf : Ptr) (count : Nat) :
    ∃ amount res event, world.perform kernel (readSqe fuseIo buf count) =
        (res, world.taken buf amount [event]) ∧
      event.Receives ∧ (0 < res → event.ReadsInto fuseIo buf count) ∧ amount ≤ count ∧
        amount ≤ world.pipe.length ∧
      ((0 < res ∧ res = amount) ∨ (res ≤ 0 ∧ ¬ (kernel.Prompt ∧ 0 < count ∧
        0 < world.pipe.length))) := by
  let asked := kernel.result world (readSqe fuseIo buf count)
  have ran : ∀ pipe bytes res, Event.Receives
      (.ran (readSqe fuseIo buf count).operation pipe bytes res) :=
    fun pipe bytes res => .ran pipe bytes res (readSqe_receives fuseIo buf count)
  have into : ∀ pipe bytes res, 0 < res →
      Event.ReadsInto fuseIo buf count (.ran (readSqe fuseIo buf count).operation pipe bytes res) :=
    fun pipe bytes res some => @Event.ReadsInto.ran fuseIo buf count 0 count pipe bytes res
      (Nat.zero_add _).le some
  rw [perform_read]
  by_cases failed : asked < 0
  · rw [if_pos failed]
    refine ⟨0, asked, _, rfl, ran _ _ _, into _ _ _, Nat.zero_le _, Nat.zero_le _,
      Or.inr ⟨failed.le, ?_⟩⟩
    rintro ⟨prompt, -, -⟩
    have positive : 0 < asked := prompt.result world _ (readSqe_receives _ _ _)
    omega
  · rw [if_neg failed]
    let moved := (world.pipe.take count).take asked.toNat
    have length : moved.length = min asked.toNat (min count world.pipe.length) := by simp [moved]
    refine ⟨moved.length, moved.length, _, rfl, ran _ _ _, into _ _ _, by omega, by omega, ?_⟩
    by_cases progress : 0 < moved.length
    · exact Or.inl ⟨by omega, rfl⟩
    · refine Or.inr ⟨by omega, ?_⟩
      rintro ⟨prompt, wanted, present⟩
      have positive : 0 < asked := prompt.result _ _ (readSqe_receives _ _ _)
      omega

/-- One read that is queued alone. -/
theorem submit_read (world : World) (buf : Ptr) (count : Nat) :
    ∃ amount res events, world.submit kernel [readSqe fuseIo buf count] =
        ([res], world.taken buf amount events) ∧
      (∀ event ∈ events, event.Receives) ∧
        (0 < res → ∀ event ∈ events, event.ReadsInto fuseIo buf count) ∧
      amount ≤ count ∧ amount ≤ world.pipe.length ∧
      ((0 < res ∧ res = amount) ∨ (res ≤ 0 ∧ ¬ (kernel.Prompt ∧ 0 < count ∧
        0 < world.pipe.length))) := by
  have queued : Event.Receives (.queued [readSqe fuseIo buf count] world.mem) :=
    .queued _ fun sqe present => List.mem_singleton.mp present ▸ readSqe_receives fuseIo buf count
  have chain : Event.ReadsInto fuseIo buf count (.queued [readSqe fuseIo buf count] world.mem) :=
    @Event.ReadsInto.queued fuseIo buf count 0 count _ (Nat.zero_add _).le
  obtain ⟨amount, res, event, ran, receives, into, bounds⟩ := perform_read_cases kernel fuseIo
    (world.record (.queued [readSqe fuseIo buf count] world.mem)) buf count
  refine ⟨amount, res, [.queued [readSqe fuseIo buf count] world.mem, event], ?_, ?_,
    fun some => ?_, bounds⟩
  · rw [World.submit, World.runChain, ran, World.record_taken]
    simp [World.runChain, readSqe]
  · simp [queued, receives]
  · simp [chain, into some]

/-- What one round of a read loop does: it gives up for want of an entry, or reads `count` bytes and
then gives up, goes on or is done. -/
def ReadRound {β : Type} (loop : Nat → Coro β) (giveUp : β) (finish : Nat → β)
    (total readDone count : Nat)
    (world : World) : Prop :=
  (kernel.sqe world 1 ≠ true ∧ ∃ after, exec kernel (loop readDone) world = (giveUp, after) ∧
    world.Refused after ∧ after.Idle) ∨
  ∀ res after, world.submit kernel [readSqe fuseIo (target.add readDone) count] = ([res], after) →
    exec kernel (loop readDone) world =
      if res ≤ 0 then (giveUp, after)
      else if readDone + res.toNat < total then exec kernel (loop (readDone + res.toNat)) after
      else (finish (readDone + res.toNat), after)

/-- **A loop of reads only receives.** -/
theorem readLoop_refused {β : Type} (loop : Nat → Coro β) (giveUp : β)
    (finish : Nat → β) (total : Nat)
    (round : ∀ (world : World) (readDone : Nat), world.Idle →
      ∃ count, ReadRound kernel fuseIo target loop giveUp finish total readDone count world) :
    ∀ (world : World) (readDone : Nat), world.Idle →
      world.Refused (exec kernel (loop readDone) world).2 ∧
      (exec kernel (loop readDone) world).2.Idle := by
  intro world readDone idle
  induction gap : total - readDone using Nat.strong_induction_on generalizing world readDone with
  | _ gap ih =>
  subst gap
  rcases round world readDone idle with ⟨count, ⟨-, after, ran, refused, idle'⟩ | reads⟩
  · rw [ran]
    exact ⟨refused, idle'⟩
  obtain ⟨amount, res, events, ran, receives, -⟩ :=
    submit_read kernel fuseIo world (target.add readDone) count
  have taken : world.Refused (world.taken (target.add readDone) amount events) :=
    World.taken_refused world _ _ receives
  have idle' := idle.taken (target.add readDone) amount events
  rw [reads res _ ran]
  by_cases stuck : res ≤ 0
  · rw [if_pos stuck]
    exact ⟨taken, idle'⟩
  rw [if_neg stuck]
  by_cases more : readDone + res.toNat < total
  · rw [if_pos more]
    obtain ⟨refused, last⟩ :=
      ih (total - (readDone + res.toNat)) (by omega) _ (readDone + res.toNat) idle' rfl
    exact ⟨taken.trans refused, last⟩
  · rw [if_neg more]
    exact ⟨taken, idle'⟩

/-- **A loop of reads takes all it is asked for, or gives up.** -/
theorem readLoop_cases {β : Type} (loop : Nat → Coro β) (giveUp : β)
    (finish : Nat → β) (total : Nat)
    (round : ∀ (world : World) (readDone : Nat), world.Idle → readDone < total →
      ReadRound kernel fuseIo target loop giveUp finish total readDone (total - readDone) world) :
    ∀ (world : World) (readDone : Nat), world.Idle → readDone < total →
      (∃ events, exec kernel (loop readDone) world =
          (finish total, world.taken (target.add readDone) (total - readDone) events) ∧
        (∀ event ∈ events, event.ReadsInto fuseIo target total) ∧
          total - readDone ≤ world.pipe.length) ∨
      ∃ after, exec kernel (loop readDone) world = (giveUp, after) ∧ world.Refused after ∧
        ¬ (kernel.Prompt ∧ total - readDone ≤ world.pipe.length) := by
  intro world readDone idle unfinished
  induction gap : total - readDone using Nat.strong_induction_on generalizing world readDone with
  | _ gap ih =>
  subst gap
  rcases round world readDone idle unfinished with ⟨missing, after, ran, refused, -⟩ | reads
  · exact Or.inr ⟨after, ran, refused, fun prompt => missing (prompt.1.sqe world 1)⟩
  obtain ⟨amount, res, events, ran, receives, into, wanted, present, progress⟩ :=
    submit_read kernel fuseIo world (target.add readDone) (total - readDone)
  rw [reads res _ ran]
  rcases progress with ⟨positive, rfl⟩ | ⟨stuck, unprompt⟩
  · have reads : ∀ event ∈ events, event.ReadsInto fuseIo target total :=
      fun event member => (into positive event member).within (Nat.add_sub_cancel' unfinished.le).le
    rw [if_neg (not_le.mpr positive), Int.toNat_natCast]
    by_cases more : readDone + amount < total
    · rw [if_pos more]
      have pipe : (world.taken (target.add readDone) amount events).pipe = world.pipe.drop amount :=
        rfl
      have rest : total - (readDone + amount) = total - readDone - amount := by omega
      have next : (target.add readDone).add amount = target.add (readDone + amount) := by
        simp [Ptr.add, Nat.add_assoc]
      rcases ih (total - (readDone + amount)) (by omega) _ (readDone + amount)
        (idle.taken (target.add readDone) amount events) more rfl with
        ⟨events', ran', receives', enough⟩ | ⟨after, ran', refused, unprompt⟩
      · rw [pipe, List.length_drop] at enough
        refine Or.inl ⟨events ++ events', ?_, ?_, by omega⟩
        · rw [ran', ← next, World.taken_taken _ _ present, rest, Nat.add_sub_cancel' wanted]
        · intro event member
          exact (List.mem_append.mp member).elim (reads event) (receives' event)
      · refine Or.inr ⟨after, ran', (World.taken_refused world _ _ receives).trans refused, ?_⟩
        rintro ⟨prompt, enough⟩
        refine unprompt ⟨prompt, ?_⟩
        rw [pipe, List.length_drop]
        omega
    · rw [if_neg more]
      have whole : amount = total - readDone := by omega
      subst whole
      refine Or.inl ⟨events, ?_, reads, present⟩
      rw [Nat.add_sub_cancel' unfinished.le]
  · rw [if_pos stuck]
    refine Or.inr ⟨_, rfl, World.taken_refused world _ _ receives, ?_⟩
    rintro ⟨prompt, enough⟩
    exact unprompt ⟨prompt, by omega, by omega⟩

/-- What is left of a body, where nothing wraps. -/
theorem readLeft_eq {rbytes readDone : Nat} (small : rbytes < 2 ^ 32) (within : readDone ≤ rbytes) :
    readLeft rbytes readDone = rbytes - readDone := by
  unfold readLeft
  omega

/-- A round of `read_rbytes`. -/
theorem readRbytesLoop_round (rbytes readDone : Nat) {world : World} (idle : world.Idle) :
    ReadRound kernel fuseIo target (readRbytesLoop fuseIo target rbytes) false (fun _ => true)
      rbytes readDone (readLeft rbytes readDone) world := by
  unfold ReadRound
  rw [readRbytesLoop, exec_submitOne kernel idle]
  by_cases entry : kernel.sqe world 1 = true
  · right
    intro res after ran
    rw [readSqe] at ran
    rw [if_pos entry, ran]
    simp only [List.getD_cons_zero]
    split_ifs <;> rfl
  · exact Or.inl ⟨entry, world, if_neg entry, .refl world, idle⟩

/-- A round of the header loop, whose entry is used without a test. -/
theorem readHeaderLoop_round (initRead : Nat) {world : World} (idle : world.Idle) :
    ReadRound kernel fuseIo fuseIo.headerBuf
      (readHeaderLoop fuseIo) none some InHeader.size initRead
      (InHeader.size - initRead) world := by
  unfold ReadRound
  rw [readHeaderLoop, exec_submitUntested kernel idle]
  by_cases entry : kernel.sqe world 1 = true
  · right
    intro res after ran
    rw [readSqe] at ran
    rw [if_pos entry, ran]
    simp only [List.getD_cons_zero]
    split_ifs <;> rfl
  · left
    rw [if_neg entry, dif_pos (by decide)]
    refine ⟨entry, _, rfl, ⟨[.queued [] world.mem], rfl, ?_⟩, ⟨idle.entries, idle.reserved⟩⟩
    intro event member
    rw [List.mem_singleton.mp member]
    exact .queued _ (by simp)

/-- **The loop of `read_rbytes`.** -/
theorem exec_readRbytesLoop {world : World} (idle : world.Idle) {rbytes readDone : Nat}
    (small : rbytes < 2 ^ 32) (unfinished : readDone < rbytes) :
    (∃ events, exec kernel (readRbytesLoop fuseIo target rbytes readDone) world =
        (true, world.taken (target.add readDone) (rbytes - readDone) events) ∧
      (∀ event ∈ events, event.ReadsInto fuseIo target rbytes) ∧
        rbytes - readDone ≤ world.pipe.length) ∨
    ∃ after, exec kernel (readRbytesLoop fuseIo target rbytes readDone) world = (false, after) ∧
      world.Refused after ∧ ¬ (kernel.Prompt ∧ rbytes - readDone ≤ world.pipe.length) := by
  refine readLoop_cases kernel fuseIo target _ false (fun _ => true) rbytes
    (fun world readDone idle unfinished => ?_) world readDone idle unfinished
  rw [← readLeft_eq small unfinished.le]
  exact readRbytesLoop_round kernel fuseIo target rbytes readDone idle

/-- **The loop of `queue_fuse_read`.** -/
theorem exec_readHeaderLoop {world : World} (idle : world.Idle) {initRead : Nat}
    (unfinished : initRead < InHeader.size) :
    (∃ events, exec kernel (readHeaderLoop fuseIo initRead) world =
        (some InHeader.size, world.taken (fuseIo.headerBuf.add initRead)
          (InHeader.size - initRead) events) ∧
      (∀ event ∈ events, event.ReadsInto fuseIo fuseIo.headerBuf InHeader.size) ∧
      InHeader.size - initRead ≤ world.pipe.length) ∨
    ∃ after, exec kernel (readHeaderLoop fuseIo initRead) world = (none, after) ∧
      world.Refused after ∧ ¬ (kernel.Prompt ∧ InHeader.size - initRead ≤ world.pipe.length) :=
  readLoop_cases kernel fuseIo fuseIo.headerBuf (readHeaderLoop fuseIo) none some InHeader.size
    (fun _ initRead idle _ => readHeaderLoop_round kernel fuseIo initRead idle) world initRead
      idle unfinished

end Reading

end Fuseuring
