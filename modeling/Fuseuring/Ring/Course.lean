/-
**The course of one request.**

While a coroutine serves a request, other slots change the backing file, and the kernel's answers
are not known before they are given. A `Course` is what is known of the request so far: its message
once it was read, the file as it was when the request used it, the results up to now, and
the world of the slot. `Course.Fits` are the requests that agree with it.

* `World.perform_like` — an operation sees its own slot, and the message and the file
  only if it uses them.
* `chainOn` — what is left of a chain, some of whose entries are completed.
* `Course.ran` — an operation runs; `Course.perform_ran` is what any request that fits makes of it.
-/

import Fuseuring.Ring.Chains
import Fuseuring.Ring.InStep
import Fuseuring.Requests

namespace Fuseuring

open Interaction

/-! ### What an operation sees -/

namespace World

/-- Another slot's operation does not matter to this one. -/
theorem available_like {world view : World} {operation : Operation} (mem : world.mem = view.mem)
    (pipe : world.pipe = view.pipe)
    (incoming : operation.arrives = true → world.incoming = view.incoming)
    (file : operation.files = true → world.file = view.file) :
    world.available operation = view.available operation := by
  unfold available
  split
  · rw [incoming rfl]
  · rw [pipe]
  · rw [file rfl]
  · rw [pipe, file]
    unfold Operation.files
    split <;> rfl
  · rw [pipe]
  · rw [mem]
  · rfl
  · rfl

/-- The world behind an operation, as a view of the slot shows it. -/
def behind (world ran : World) (operation : Operation) : World :=
  { world with
    mem := ran.mem
    pipe := ran.pipe
    incoming := if operation.arrives then ran.incoming else world.incoming
    file := if operation.files then ran.file else world.file
    trace := world.trace ++ ran.trace }

variable {world view : World} {operation : Operation}

theorem transfer_like (mem : world.mem = view.mem) (pipe : world.pipe = view.pipe)
    (silent : view.trace = []) (file : operation.files = true → world.file = view.file)
    (bytes : List UInt8) :
    world.transfer operation bytes = world.behind (view.transfer operation bytes) operation := by
  have same : (if operation.files then view.file else world.file) = world.file := by
    split
    case isTrue uses => exact (file uses).symm
    case isFalse => rfl
  cases operation with
  | splice fdIn offIn fdOut offOut nbytes =>
    cases fdIn <;> cases fdOut <;>
      simp [transfer, behind, Operation.arrives, Operation.files, ← mem, ← pipe, silent] <;>
      simp [file rfl]
  | _ => simp [transfer, behind, Operation.arrives, Operation.files, ← mem, ← pipe, silent]

theorem behind_record (world ran : World) (operation : Operation) (event : Event) :
    world.behind (ran.record event) operation = (world.behind ran operation).record event := by
  simp [behind, record]

/-- Where nothing has run, the view shows the world itself. -/
theorem behind_self (mem : world.mem = view.mem) (pipe : world.pipe = view.pipe)
    (silent : view.trace = [])
    (incoming : operation.arrives = true → world.incoming = view.incoming)
    (file : operation.files = true → world.file = view.file) :
    world.behind view operation = world := by
  have given : (if operation.arrives then view.incoming else world.incoming) = world.incoming := by
    split
    case isTrue arrives => exact (incoming arrives).symm
    case isFalse => rfl
  have same : (if operation.files then view.file else world.file) = world.file := by
    split
    case isTrue uses => exact (file uses).symm
    case isFalse => rfl
  rw [behind, given, same, ← mem, ← pipe, silent, List.append_nil]

/-- **An operation sees its own slot**, and the message and the file only if it uses them. -/
theorem perform_like {kernel other : Kernel} {sqe : Sqe} (mem : world.mem = view.mem)
    (pipe : world.pipe = view.pipe) (silent : view.trace = [])
    (incoming : sqe.operation.arrives = true → world.incoming = view.incoming)
    (file : sqe.operation.files = true → world.file = view.file)
    (same : other.result world sqe = kernel.result view sqe) :
    world.perform other sqe =
      ((view.perform kernel sqe).1, world.behind (view.perform kernel sqe).2 sqe.operation) := by
  unfold perform
  rw [available_like mem pipe incoming file, same, pipe]
  split
  · rw [behind_record, behind_self mem pipe silent incoming file]
  · dsimp only
    split
    · rw [behind_record, behind_self mem pipe silent incoming file]
    · rw [behind_record, transfer_like mem pipe silent file]

end World

/-! ### A chain that is under way -/

/-- The operation breaks its chain. -/
def Sqe.cuts (sqe : Sqe) (res : Int) : Bool :=
  decide (sqe.link = .link ∧ res < sqe.operation.nbytes)

/-- **What is left of a chain**: the completed entries have their results, and the others run, or
are cancelled behind one that broke the chain. -/
def chainOn (kernel : Kernel) : Bool → List AwaitedEntry → World → List Int × World
  | _, [], world => ([], world)
  | broken, ⟨sqe, some res⟩ :: rest, world =>
    let left := chainOn kernel (broken || sqe.cuts res) rest world
    (res :: left.1, left.2)
  | true, ⟨_, none⟩ :: rest, world =>
    let left := chainOn kernel true rest world
    (-ECANCELED :: left.1, left.2)
  | false, ⟨sqe, none⟩ :: rest, world =>
    let ran := world.perform kernel sqe
    let left := chainOn kernel (sqe.cuts ran.1) rest ran.2
    (ran.1 :: left.1, left.2)

/-- The entries of a chain none of which is completed. -/
def pendingEntries (chain : List Sqe) : List AwaitedEntry := chain.map fun sqe => ⟨sqe, none⟩

section Chain

variable {kernel : Kernel} {world : World}

theorem chainOn_broken (chain : List Sqe) :
    chainOn kernel true (pendingEntries chain) world =
      (chain.map fun _ => -ECANCELED, world) := by
  induction chain with
  | nil => rfl
  | cons sqe rest ih =>
    rw [pendingEntries, List.map_cons, chainOn]
    rw [pendingEntries] at ih
    rw [ih]
    rfl

/-- A chain that is not begun. -/
theorem chainOn_pending (chain : List Sqe) :
    ∀ world, chainOn kernel false (pendingEntries chain) world = world.runChain kernel chain := by
  induction chain with
  | nil => exact fun _ => rfl
  | cons sqe rest ih =>
    intro world
    rw [pendingEntries, List.map_cons, chainOn, World.runChain]
    dsimp only
    by_cases breaks : sqe.link = .link ∧ (world.perform kernel sqe).1 < sqe.operation.nbytes
    · have cuts : sqe.cuts (world.perform kernel sqe).1 = true := decide_eq_true breaks
      rw [if_pos breaks, cuts]
      have left : chainOn kernel true (pendingEntries rest) (world.perform kernel sqe).2 =
          (rest.map fun _ => -ECANCELED, (world.perform kernel sqe).2) := chainOn_broken rest
      rw [pendingEntries] at left
      rw [left]
    · have whole : sqe.cuts (world.perform kernel sqe).1 = false := decide_eq_false breaks
      rw [if_neg breaks, whole]
      have left := ih (world.perform kernel sqe).2
      rw [pendingEntries] at left
      rw [left]

/-- A chain that is completed. -/
theorem chainOn_done {entries : List AwaitedEntry} :
    ∀ {results : List Int} (broken : Bool), entries.map AwaitedEntry.res = results.map some →
      chainOn kernel broken entries world = (results, world) := by
  induction entries with
  | nil =>
    intro results broken same
    rw [List.map_nil] at same
    rw [List.map_eq_nil_iff.mp same.symm, chainOn]
  | cons entry rest ih =>
    intro results broken same
    obtain ⟨sqe, answer⟩ := entry
    cases results with
    | nil => cases same
    | cons res results =>
      obtain ⟨rfl, others⟩ := List.cons.inj same
      rw [chainOn, ih _ others]

/-- The chain is broken by one of its completed entries. -/
def brokenBy (entries : List AwaitedEntry) : Bool :=
  entries.any fun entry => entry.res.any entry.sqe.cuts

/-- **The next entry is completed**: it ran, or it was cancelled. -/
theorem chainOn_next {done rest : List AwaitedEntry} {sqe : Sqe} {res : Int} {after : World}
    (completed : ∀ entry ∈ done, entry.res ≠ none) :
    ∀ broken, ((broken || brokenBy done) = true → res = -ECANCELED ∧ after = world) →
      ((broken || brokenBy done) = false → world.perform kernel sqe = (res, after)) →
      chainOn kernel broken (done ++ ⟨sqe, none⟩ :: rest) world =
        chainOn kernel broken (done ++ ⟨sqe, some res⟩ :: rest) after := by
  induction done with
  | nil =>
    intro broken cancelled ran
    rw [brokenBy, List.any_nil, Bool.or_false] at cancelled ran
    cases broken with
    | true =>
      obtain ⟨rfl, rfl⟩ := cancelled rfl
      rfl
    | false =>
      have same := ran rfl
      simp [chainOn, same]
  | cons entry done ih =>
    intro broken cancelled ran
    obtain ⟨first, answer⟩ := entry
    obtain ⟨given, rfl⟩ := Option.ne_none_iff_exists'.mp (completed _ List.mem_cons_self)
    have split : (broken || brokenBy (⟨first, some given⟩ :: done)) =
        ((broken || first.cuts given) || brokenBy done) := by
      rw [brokenBy, List.any_cons, ← brokenBy, Option.any_some, Bool.or_assoc]
    rw [split] at cancelled ran
    rw [List.cons_append, List.cons_append, chainOn, chainOn,
      ih (fun other member => completed other (List.mem_cons_of_mem _ member)) _ cancelled ran]

end Chain

/-! ### What is known of a request -/

/-- The kernel refuses no entry, and gives the results of another one up to an event. -/
structure Kernel.Follows (other kernel : Kernel) (count : Nat) : Prop where
  grants : ∀ world peek, other.sqe world peek = true
  results : ∀ world sqe, world.trace.length < count →
    other.result world sqe = kernel.result world sqe

/-- The kernel that gives at one event the results that another one gives for a view. -/
def Kernel.answering (kernel : Kernel) (count : Nat) (answer : Kernel) (view : World) : Kernel where
  sqe := kernel.sqe
  result world sqe :=
    if world.trace.length = count then answer.result view sqe else kernel.result world sqe
  result_lt := by
    intro world sqe
    split
    · exact answer.result_lt view sqe
    · exact kernel.result_lt world sqe
  result_ge := by
    intro world sqe
    split
    · exact answer.result_ge view sqe
    · exact kernel.result_ge world sqe

/-- **A request under way**: what it found, the message once it is read, the backing file once it
is used, the results so far, and the world of its slot now. -/
structure Course where
  first : SlotState
  request : Request
  arrived : Bool
  filed : Bool
  now : World

namespace Course

/-- The requests that agree with what is known. -/
structure Fits (course : Course) (other : Request) : Prop where
  wild : other.wild = course.request.wild
  message : course.arrived = true → other.message = course.request.message
  file : course.filed = true → other.file = course.request.file
  kernel : other.kernel.Follows course.request.kernel course.now.trace.length

/-- The world of the slot, if this is the request. -/
def world (course : Course) (other : Request) : World :=
  { course.now with
    incoming := if course.arrived then course.now.incoming else other.message
    file := if course.filed then course.now.file else other.file }

/-- **Whatever fits goes on in the same way**: serving it comes to the rest from the world now. -/
def Leads (ring : FuseRing) (course : Course) (rest : Kernel → World → Int × World) : Prop :=
  ∀ other, course.Fits other →
    exec other.kernel (queueFuseReadBody ring course.first.fuseIo) (course.first.world other) =
      rest other.kernel (course.world other)

/-- How many more messages may be read, and how often the file may still be used. -/
structure Affords (course : Course) (messages uses : Nat) : Prop where
  messages : messages ≤ if course.arrived then 0 else 1
  uses : uses ≤ if course.filed then 0 else 1

/-- The program changes the world. -/
def step (course : Course) (change : World → World) : Course :=
  { course with now := change course.now }

/-- **An operation runs**, on a view of the slot with a message and the file as it is then. -/
def ran (course : Course) (kernel : Kernel) (view : World) (sqe : Sqe) : Course where
  first := course.first
  request :=
    { message := if sqe.operation.arrives then view.incoming else course.request.message
      file := if sqe.operation.files then view.file else course.request.file
      kernel := course.request.kernel.answering course.now.trace.length kernel view
      wild := course.request.wild }
  arrived := course.arrived || sqe.operation.arrives
  filed := course.filed || sqe.operation.files
  now := course.now.behind (view.perform kernel sqe).2 sqe.operation

section Steps

variable {ring : FuseRing} {course : Course} {other : Request} {view : World} {kernel : Kernel}
  {sqe : Sqe} {rest rest' : Kernel → World → Int × World}

theorem Leads.step (leads : course.Leads ring rest) (change : World → World)
    (longer : course.now.trace.length ≤ (change course.now).trace.length)
    (same : ∀ other, course.Fits other →
      rest other.kernel (course.world other) =
        rest' other.kernel ((course.step change).world other)) :
    (course.step change).Leads ring rest' := by
  intro other fits
  have earlier : course.Fits other := by
    refine ⟨fits.wild, fits.message, fits.file, fits.kernel.grants, fun world sqe before => ?_⟩
    exact fits.kernel.results world sqe (before.trans_le longer)
  exact (leads other earlier).trans (same other earlier)

/-- The operation is the one event that is new. -/
theorem ran_trace (silent : view.trace = []) :
    (course.ran kernel view sqe).now.trace.length = course.now.trace.length + 1 := by
  obtain ⟨bytes, res, trace⟩ := World.perform_trace kernel view sqe
  rw [ran, World.behind, trace, silent]
  simp

/-- What fits behind an operation, fitted before it. -/
theorem Fits.before (fits : (course.ran kernel view sqe).Fits other) (silent : view.trace = [])
    (once : sqe.operation.arrives = true → course.arrived = false)
    (only : sqe.operation.files = true → course.filed = false) : course.Fits other := by
  refine ⟨fits.wild, fun arrived => ?_, fun filed => ?_, fits.kernel.grants,
    fun world sqe' earlier => ?_⟩
  · have quiet : sqe.operation.arrives = false := by
      cases arrives : sqe.operation.arrives with
      | false => rfl
      | true => exact absurd (arrived.symm.trans (once arrives)) Bool.noConfusion
    have message := fits.message
    simp only [ran, quiet, arrived, Bool.or_false, Bool.false_eq_true, if_false] at message
    exact message trivial
  · have away : sqe.operation.files = false := by
      cases files : sqe.operation.files with
      | false => rfl
      | true => exact absurd (filed.symm.trans (only files)) Bool.noConfusion
    have file := fits.file
    simp only [ran, away, filed, Bool.or_false, Bool.false_eq_true, if_false] at file
    exact file trivial
  · rw [fits.kernel.results world sqe' (by rw [ran_trace silent]; omega)]
    exact if_neg (Nat.ne_of_lt earlier)

/-- **What any request that fits makes of the operation.** -/
theorem perform_ran (fits : (course.ran kernel view sqe).Fits other)
    (mem : course.now.mem = view.mem) (pipe : course.now.pipe = view.pipe)
    (silent : view.trace = []) (once : sqe.operation.arrives = true → course.arrived = false)
    (only : sqe.operation.files = true → course.filed = false) :
    (course.world other).perform other.kernel sqe =
      ((view.perform kernel sqe).1, (course.ran kernel view sqe).world other) := by
  have incoming : sqe.operation.arrives = true → (course.world other).incoming = view.incoming := by
    intro arrives
    have message := fits.message
    simp only [ran, arrives, Bool.or_true, if_true] at message
    simp only [world, once arrives, Bool.false_eq_true, if_false]
    exact message trivial
  have file : sqe.operation.files = true → (course.world other).file = view.file := by
    intro files
    have file := fits.file
    simp only [ran, files, Bool.or_true, if_true] at file
    simp only [world, only files, Bool.false_eq_true, if_false]
    exact file trivial
  have result : other.kernel.result (course.world other) sqe = kernel.result view sqe := by
    rw [fits.kernel.results _ _ (by rw [ran_trace silent]; exact Nat.lt_succ_self _)]
    exact if_pos rfl
  have mem' : (course.world other).mem = view.mem := mem
  have pipe' : (course.world other).pipe = view.pipe := pipe
  rw [World.perform_like mem' pipe' silent incoming file result]
  refine congrArg (Prod.mk _) ?_
  cases arrives : sqe.operation.arrives <;> cases files : sqe.operation.files <;>
    simp [World.behind, world, ran, arrives, files]

theorem Affords.ran {messages uses : Nat}
    (affords : course.Affords (sqe.operation.arrives.toNat + messages)
      (sqe.operation.files.toNat + uses)) :
    (course.ran kernel view sqe).Affords messages uses ∧
      (sqe.operation.arrives = true → course.arrived = false) ∧
      (sqe.operation.files = true → course.filed = false) := by
  obtain ⟨left, right⟩ := affords
  refine ⟨⟨?_, ?_⟩, fun arrives => ?_, fun files => ?_⟩
  · cases arrives : sqe.operation.arrives <;> cases arrived : course.arrived <;>
      simp_all [Course.ran]
  · cases files : sqe.operation.files <;> cases filed : course.filed <;> simp_all [Course.ran]
  · cases arrived : course.arrived <;> simp_all
  · cases filed : course.filed <;> simp_all

end Steps

end Course

end Fuseuring
