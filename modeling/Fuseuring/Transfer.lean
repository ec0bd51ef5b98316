/-
**What one operation and one chain do.**

`perform_cases` is the only fact about an operation that the rest of the development uses: it moves
a prefix of what there is and returns its length, or it fails and moves nothing. An idle world
holds no entry between two awaits; `exec_submitOne`, `exec_submitPair` and `exec_submitTriple`
reduce taking, preparing and awaiting one to three entries to the run of their chain.
-/

import Fuseuring.Slot
import Fuseuring.Memory

namespace Fuseuring

open Bytes Interaction

/-! ### The file -/

@[simp] theorem File.write_nil (file : File) (start : Nat) : file.write start [] = file := by
  simp [File.write]

@[simp] theorem File.seek_zero (file : File) (offset : Int) : file.seek offset 0 = file := by
  simp [File.seek]

/-! ### One operation -/

/-- The operation takes a message from the session. -/
def Operation.fromFuse : Operation → Prop
  | .splice (.fuse _) _ _ _ _ => True
  | _ => False

namespace World

@[simp] theorem transfer_nil {world : World} {operation : Operation}
    (other : ¬ operation.fromFuse) :
    world.transfer operation [] = world := by
  rcases operation with ⟨fdIn, offIn, fdOut, offOut, nbytes⟩ | _ | _ | _
  · rcases fdIn with _ | _ | _ | _
    · simp [transfer]
    · exact absurd trivial other
    all_goals rcases fdOut with _ | _ | _ | _ <;> simp [transfer]
  all_goals simp [transfer]

theorem portion_prefix {operation : Operation} (other : ¬ operation.fromFuse)
    (bytes : List UInt8) (res : Int) :
    portion operation bytes res = bytes.take res.toNat := by
  rcases operation with ⟨fdIn, offIn, fdOut, offOut, nbytes⟩ | _ | _ | _
  · rcases fdIn with _ | _ | _ | _
    · rfl
    · exact absurd trivial other
    all_goals rfl
  all_goals rfl

/-- What an operation moved of the bytes there were, and what it returned: the
count, or an error and nothing. It ran in some world with this pipe, where it found
no bytes or these ones, and moved no less of them than the kernel granted. -/
structure Moved (kernel : Kernel) (sqe : Sqe) (pipe available bytes : List UInt8)
    (res : Int) : Prop where
  part : bytes <+: available
  fits : bytes.length < 2 ^ 31
  low : -2 ^ 31 ≤ res
  result : res = bytes.length ∨ (res < 0 ∧ bytes = [])
  granted : ∃ world : World, world.pipe = pipe ∧
    ((world.available sqe.operation = none ∧ available = []) ∨
      (world.available sqe.operation = some available ∧ (0 ≤ kernel.result world sqe → 0 ≤ res) ∧
        min available.length (kernel.result world sqe).toNat ≤ bytes.length))

/-- A transfer moves no less than the kernel grants it wherever it may run. -/
theorem Moved.reached {kernel : Kernel} {sqe : Sqe} {pipe available bytes : List UInt8} {res : Int}
    (moved : Moved kernel sqe pipe available bytes res) {count : Nat}
    (least : ∀ world : World, world.pipe = pipe → world.available sqe.operation = some available →
      (count : Int) ≤ kernel.result world sqe) (bound : count ≤ available.length) : count ≤
        bytes.length := by
  obtain ⟨world, found, ⟨-, rfl⟩ | ⟨offered, -, granted⟩⟩ := moved.granted
  · exact bound.trans (Nat.zero_le _)
  · have reached := least world found offered
    omega

/-- A transfer that is not short is whole. -/
theorem Moved.whole {kernel : Kernel} {sqe : Sqe} {pipe available bytes : List UInt8} {res : Int}
    (moved : Moved kernel sqe pipe available bytes res) (full : available.length ≤ res) :
    bytes = available ∧ res = available.length := by
  have bound := moved.part.length_le
  rcases moved.result with rfl | ⟨negative, rfl⟩
  · have same : bytes.length = available.length := by omega
    exact ⟨moved.part.eq_of_length same, by rw [same]⟩
  · omega

/-- **An operation moves a prefix of what there is, or fails.** -/
theorem perform_cases (kernel : Kernel) (world : World) (sqe : Sqe)
    (other : ¬ sqe.operation.fromFuse) :
    ∃ bytes res, world.perform kernel sqe =
        (res, (world.transfer sqe.operation bytes).record
          (.ran sqe.operation world.pipe bytes res)) ∧
      Moved kernel sqe world.pipe ((world.available sqe.operation).getD []) bytes res := by
  unfold perform
  cases found : world.available sqe.operation with
  | none =>
    refine ⟨[], -EINVAL, ?_, List.nil_prefix, by decide, by decide, Or.inr ⟨by decide, rfl⟩,
      world, rfl, Or.inl ⟨found, rfl⟩⟩
    rw [transfer_nil other]
  | some bytes =>
    by_cases failed : kernel.result world sqe < 0
    · refine ⟨[], kernel.result world sqe, ?_, List.nil_prefix, by decide,
        kernel.result_ge world sqe,
        Or.inr ⟨failed, rfl⟩, world, rfl, Or.inr ⟨found, id, ?_⟩⟩
      · simp only [if_pos failed, transfer_nil other]
      · exact (Nat.min_le_right _ _).trans (Int.toNat_of_nonpos failed.le).le
    · have limit := kernel.result_lt world sqe
      have length : (bytes.take (kernel.result world sqe).toNat).length =
          min (kernel.result world sqe).toNat bytes.length := List.length_take
      refine ⟨bytes.take (kernel.result world sqe).toNat, _, ?_,
        List.take_prefix _ _, by omega, by omega,
        Or.inl rfl, world, rfl, Or.inr ⟨found, fun _ => Int.natCast_nonneg _, ?_⟩⟩
      · simp only [if_neg failed, portion_prefix other]
      · rw [length, Option.getD_some, Nat.min_comm]

theorem transfer_trace (world : World) (operation : Operation) (bytes : List UInt8) :
    (world.transfer operation bytes).trace = world.trace := by
  unfold transfer
  split <;> rfl

/-- Whatever becomes of an operation, it is in the trace. -/
theorem perform_trace (kernel : Kernel) (world : World) (sqe : Sqe) :
    ∃ bytes res, (world.perform kernel sqe).2.trace =
      world.trace ++ [.ran sqe.operation world.pipe bytes res] := by
  unfold perform
  split
  · exact ⟨_, _, rfl⟩
  · by_cases failed : kernel.result world sqe < 0
    · simp only [if_pos failed]
      exact ⟨_, _, rfl⟩
    · simp only [if_neg failed, record, transfer_trace]
      exact ⟨_, _, rfl⟩

section Fields

variable (world : World) (event : Event)

@[simp] theorem record_mem : (world.record event).mem = world.mem := rfl
@[simp] theorem record_pipe : (world.record event).pipe = world.pipe := rfl
@[simp] theorem record_file : (world.record event).file = world.file := rfl
@[simp] theorem record_incoming : (world.record event).incoming = world.incoming := rfl
@[simp] theorem record_fuseIo : (world.record event).fuseIo = world.fuseIo := rfl
@[simp] theorem record_lastRc : (world.record event).lastRc = world.lastRc := rfl
@[simp] theorem record_entries : (world.record event).entries = world.entries := rfl
@[simp] theorem record_reserved : (world.record event).reserved = world.reserved := rfl
@[simp] theorem record_trace : (world.record event).trace = world.trace ++ [event] := rfl

variable (mem : Mem)

@[simp] theorem setMem_mem : (world.setMem mem).mem = mem := rfl
@[simp] theorem setMem_pipe : (world.setMem mem).pipe = world.pipe := rfl
@[simp] theorem setMem_file : (world.setMem mem).file = world.file := rfl
@[simp] theorem setMem_incoming : (world.setMem mem).incoming = world.incoming := rfl
@[simp] theorem setMem_fuseIo : (world.setMem mem).fuseIo = world.fuseIo := rfl
@[simp] theorem setMem_lastRc : (world.setMem mem).lastRc = world.lastRc := rfl
@[simp] theorem setMem_trace : (world.setMem mem).trace = world.trace := rfl

end Fields

/-! ### Chains -/

/-- No entry is held between two awaits. -/
structure Idle (world : World) : Prop where
  entries : world.entries = []
  reserved : world.reserved = 0

/-- A chain is queued and runs. -/
def submit (kernel : Kernel) (world : World) (chain : List Sqe) : List Int × World :=
  runChain kernel chain (world.record (.queued chain world.mem))

theorem Idle.record {world : World} (idle : world.Idle) (event : Event) :
    (world.record event).Idle :=
  ⟨idle.entries, idle.reserved⟩

theorem Idle.setMem {world : World} (idle : world.Idle) (mem : Mem) : (world.setMem mem).Idle :=
  ⟨idle.entries, idle.reserved⟩

theorem transfer_idle {world : World} (idle : world.Idle) (operation : Operation)
    (bytes : List UInt8) :
    (world.transfer operation bytes).Idle := by
  refine ⟨?_, ?_⟩
  · rw [← idle.entries]
    unfold transfer
    split <;> rfl
  · rw [← idle.reserved]
    unfold transfer
    split <;> rfl

theorem perform_idle {world : World} (idle : world.Idle) (kernel : Kernel) (sqe : Sqe) :
    (world.perform kernel sqe).2.Idle := by
  unfold perform
  split
  · exact idle.record _
  · by_cases failed : kernel.result world sqe < 0
    · simp only [if_pos failed]
      exact idle.record _
    · simp only [if_neg failed]
      exact (transfer_idle idle _ _).record _

/-- **What each operation keeps is kept by a chain**, cut or not, by induction on it. -/
theorem runChain_relates {kernel : Kernel} {relates : World → World → Prop}
    (refl : ∀ world, relates world world)
    (trans : ∀ first second third, relates first second → relates second third →
      relates first third) (chain : List Sqe)
    (steps : ∀ sqe ∈ chain, ∀ world : World, relates world (world.perform kernel sqe).2) :
    ∀ world, relates world (runChain kernel chain world).2 := by
  induction chain with
  | nil => exact refl
  | cons sqe rest ih =>
    intro world
    have stepped := steps sqe List.mem_cons_self world
    have behind := ih fun sqe' member => steps sqe' (List.mem_cons_of_mem _ member)
    rw [runChain]
    by_cases cut : sqe.link = .link ∧ (world.perform kernel sqe).1 < sqe.operation.nbytes
    · simp only [if_pos cut]
      exact stepped
    · simp only [if_neg cut]
      exact trans _ _ _ stepped (behind _)

/-- **Two worlds that every operation keeps related**: their chains have the
same results, and are cut at the same entry. -/
theorem runChain_lockstep {kernel kernel' : Kernel} {relates : World → World → Prop}
    (chain : List Sqe)
    (steps : ∀ sqe ∈ chain, ∀ {first second : World}, relates first second →
      (first.perform kernel sqe).1 = (second.perform kernel' sqe).1 ∧
        relates (first.perform kernel sqe).2 (second.perform kernel' sqe).2) :
    ∀ {first second : World}, relates first second →
      (runChain kernel chain first).1 = (runChain kernel' chain second).1 ∧
        relates (runChain kernel chain first).2 (runChain kernel' chain second).2 := by
  induction chain with
  | nil =>
    intro first second related
    rw [runChain, runChain]
    exact ⟨rfl, related⟩
  | cons sqe rest ih =>
    intro first second related
    obtain ⟨result, after⟩ := steps sqe List.mem_cons_self related
    obtain ⟨results, final⟩ :=
      ih (fun sqe' member => steps sqe' (List.mem_cons_of_mem _ member)) after
    simp only [runChain]
    rw [result, results]
    by_cases cut : sqe.link = .link ∧ (second.perform kernel' sqe).1 < sqe.operation.nbytes
    · rw [if_pos cut, if_pos cut]
      exact ⟨rfl, after⟩
    · rw [if_neg cut, if_neg cut]
      exact ⟨rfl, final⟩

theorem runChain_idle (kernel : Kernel) (chain : List Sqe) {world : World} (idle : world.Idle) :
    (runChain kernel chain world).2.Idle := by
  refine @runChain_relates kernel (fun before after => before.Idle → after.Idle) ?_
    ?_ chain ?_ world idle
  · exact fun _ idle => idle
  · exact fun _ _ _ first second idle => second (first idle)
  · exact fun sqe _ _ idle => perform_idle idle kernel sqe

theorem Idle.submit {world : World} (idle : world.Idle) (kernel : Kernel) (chain : List Sqe) :
    (world.submit kernel chain).2.Idle :=
  runChain_idle kernel chain (idle.record _)

end World

/-- **What each operation keeps is kept by a coroutine**, if it does not look at the memory
and at the entries. -/
theorem exec_relates {kernel : Kernel} {relates : World → World → Prop} {α : Type}
    (refl : ∀ world, relates world world)
    (trans : ∀ first second third, relates first second → relates second third →
      relates first third)
    (same : ∀ {world after : World}, after.trace = world.trace → after.pipe = world.pipe →
      after.file = world.file → after.incoming = world.incoming → relates world after)
    (called : ∀ world function, relates world (world.record (.called function)))
    (queued : ∀ world chain mem, relates world (world.record (.queued chain mem)))
    (steps : ∀ (sqe : Sqe) (world : World), relates world (world.perform kernel sqe).2)
    (program : Coro α) (world : World) : relates world (exec kernel program world).2 := by
  refine Program.run_relates kernel.handler refl trans (fun op state => ?_)
    (fun function state => called state function) program world
  cases op with
  | complete sqes =>
    have taken : relates state { state with entries := [] } := same rfl rfl rfl rfl
    have chained := World.runChain_relates refl trans (state.chainOf sqes) fun sqe _ => steps sqe
    exact trans _ _ _ taken (trans _ _ _ (queued _ _ _) (chained _))
  | getSqe peek =>
    show relates state (state.getSqe kernel peek).2
    unfold World.getSqe
    split_ifs <;> exact same rfl rfl rfl rfl
  | prep sqe entry =>
    show relates state (state.prep sqe entry)
    cases sqe <;> exact same rfl rfl rfl rfl
  | _ => exact same rfl rfl rfl rfl

/-! ### Taking, preparing and awaiting -/

section Submit

variable (kernel : Kernel) {world : World} {α : Type}

/-- One entry, taken, prepared and awaited. -/
theorem exec_submitOne (idle : world.Idle) (operation : Operation) (missing : Coro α)
    (next : Int → Coro α) :
    exec kernel (do
      let sqe ← getSqe 1
      if sqe = none then missing
      else
        prep sqe operation .none
        let rc ← completeOne sqe
        next rc) world =
    if kernel.sqe world 1 then
      exec kernel (next ((world.submit kernel [⟨operation, .none⟩]).1.getD 0 (-1)))
        (world.submit kernel [⟨operation, .none⟩]).2
    else exec kernel missing world := by
  rcases world with ⟨_, _, _, _, _, entries, reserved, _, _, _⟩
  obtain ⟨rfl, rfl⟩ := idle
  rw [exec_getSqe_fresh _ rfl]
  split
  · simp [World.prep, World.complete, World.chainOf, World.submit, World.record]
  · simp

/-- One entry, used without a test: a null entry is prepared and nothing runs. -/
theorem exec_submitUntested (idle : world.Idle) (operation : Operation) (next : Int → Coro α) :
    exec kernel (do
      let sqe ← getSqe 1
      prep sqe operation .none
      let rc ← completeOne sqe
      next rc) world =
    if kernel.sqe world 1 then
      exec kernel (next ((world.submit kernel [⟨operation, .none⟩]).1.getD 0 (-1)))
        (world.submit kernel [⟨operation, .none⟩]).2
    else exec kernel (next (-1)) (World.record { world with fault := true }
      (.queued [] world.mem)) := by
  rcases world with ⟨_, _, _, _, _, entries, reserved, _, _, _⟩
  obtain ⟨rfl, rfl⟩ := idle
  rw [exec_getSqe_fresh _ rfl]
  split
  · simp [World.prep, World.complete, World.chainOf, World.submit, World.record]
  · simp [World.prep, World.complete, World.chainOf, World.runChain, World.record]

/-- Two entries of a hard-linked chain, taken before either is tested. -/
theorem exec_submitPair (idle : world.Idle) (first second : Operation) (missing : Coro α)
    (next : Int × Int → Coro α) :
    exec kernel (do
      let sqe1 ← getSqe 2
      let sqe2 ← getSqe 1
      if sqe1 = none ∨ sqe2 = none then missing
      else
        prep sqe1 first .hardlink
        prep sqe2 second .none
        let rcs ← completePair sqe1 sqe2
        next rcs) world =
    if kernel.sqe world 2 then
      exec kernel (next ((world.submit kernel [⟨first, .hardlink⟩, ⟨second, .none⟩]).1.getD 0 (-1),
          (world.submit kernel [⟨first, .hardlink⟩, ⟨second, .none⟩]).1.getD 1 (-1)))
        (world.submit kernel [⟨first, .hardlink⟩, ⟨second, .none⟩]).2
    else exec kernel missing
      (if kernel.sqe world 1 then { world with entries := [none], reserved := 0 } else world) := by
  rcases world with ⟨_, _, _, _, _, entries, reserved, _, _, _⟩
  obtain ⟨rfl, rfl⟩ := idle
  rw [exec_getSqe_fresh _ rfl]
  split
  · simp [exec_getSqe_reserved, World.prep, World.complete, World.chainOf,
      World.submit, World.record]
  · rw [exec_getSqe_fresh _ rfl]
    split <;> simp

/-- Three entries of a chain, of which the first made sure. -/
theorem exec_submitTriple (idle : world.Idle) (first second third : Operation) (missing : Coro α)
    (next : List Int → Coro α) :
    exec kernel (do
      let sqe1 ← getSqe 3
      if sqe1 = none then missing
      else
        prep sqe1 first .link
        let sqe2 ← getSqe 1
        if sqe2 = none then missing
        else
          prep sqe2 second .link
          let sqe3 ← getSqe 1
          if sqe3 = none then missing
          else
            prep sqe3 third .none
            let rcs ← complete [sqe1, sqe2, sqe3]
            next rcs) world =
    if kernel.sqe world 3 then
      exec kernel (next (world.submit kernel [⟨first, .link⟩, ⟨second, .link⟩, ⟨third, .none⟩]).1)
        (world.submit kernel [⟨first, .link⟩, ⟨second, .link⟩, ⟨third, .none⟩]).2
    else exec kernel missing world := by
  rcases world with ⟨_, _, _, _, _, entries, reserved, _, _, _⟩
  obtain ⟨rfl, rfl⟩ := idle
  rw [exec_getSqe_fresh _ rfl]
  split
  · simp [exec_getSqe_reserved, World.prep, World.complete, World.chainOf,
      World.submit, World.record]
  · simp

end Submit

end Fuseuring
