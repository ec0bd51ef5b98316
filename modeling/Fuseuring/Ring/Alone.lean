/-
**What is proved of one coroutine holds of all of them.**

`alone conduct` is the contract of a coroutine by itself: it may take any slot with any memory, and
the chains it awaits and the memory it stores must be as its `Conduct` asks. Of a chain's
results it knows nothing; the memory may have what any of the chain's reads brought.

* `Solo.Safe` — a coroutine that keeps the contract; `Solo.Safe.step` is one step.
* `safe_of_reaches` — over the runs of a crew, and `Mirrors.belongs` what this says of an
  entry that is awaited.
-/

import Fuseuring.Ring.Isolation

namespace Fuseuring

open Interaction

/-! ### The contract -/

/-- The memory when some of the awaited operations have been completed. -/
inductive Receives (sqes : List Sqe) (before : Mem) : Mem → Prop
  | nothing : Receives sqes before before
  | completed {mem : Mem} {sqe : Sqe} (bytes : List UInt8) : Receives sqes before mem →
      sqe ∈ sqes → Receives sqes before (mem.receive sqe.operation bytes)

/-- The operation brings bytes into memory. -/
def Operation.reads : Operation → Bool
  | .read _ _ _ => true
  | _ => false

theorem Mem.receive_of_not_reads {mem : Mem} {operation : Operation} (bytes : List UInt8)
    (quiet : operation.reads = false) : mem.receive operation bytes = mem := by
  cases operation with
  | read fd buf nbytes => cases quiet
  | _ => rfl

/-- A chain without a read leaves the memory alone. -/
theorem Receives.still {sqes : List Sqe} {before mem : Mem} (receives : Receives sqes before mem)
    (quiet : ∀ sqe ∈ sqes, sqe.operation.reads = false) : mem = before := by
  induction receives with
  | nothing => rfl
  | completed bytes _ member ih => rw [Mem.receive_of_not_reads bytes (quiet _ member), ih]

/-- **What is asked of a coroutine**: of a chain that it awaits, for its slot and the memory as it
is then, and of what it makes of the memory. -/
structure Conduct where
  chain : FuseIo → Mem → List Sqe → Prop
  store : FuseIo → Mem → Mem → Prop

/-- What a coroutine may do. -/
def Hold.Allows (conduct : Conduct) :
    (op : Effect) → Hold → (op.Answer → Hold → Prop) → Prop
  | .getFuseIo, hold, post => ∀ fuseIo mem, post fuseIo { hold with slot := some (fuseIo, mem) }
  | .releaseFuseIo _, hold, post => post () { hold with slot := none }
  | .load fuseIo, hold, post => ∀ mem after, hold.Answers (.load fuseIo) mem after → post mem after
  | .store fuseIo mem, hold, post => ∀ old, hold.slot = some (fuseIo, old) →
      conduct.store fuseIo old mem ∧ post () { hold with slot := some (fuseIo, mem) }
  | .getSqe peek, hold, post => post none hold ∧
      ∀ sqe after, hold.Answers (.getSqe peek) sqe after → post sqe after
  | .prep sqe entry, hold, post =>
      ∀ after, hold.Answers (.prep sqe entry) () after → post () after
  | .setLastRc _, hold, post => post () hold
  | .complete _, hold, post => ∃ fuseIo mem, hold.slot = some (fuseIo, mem) ∧
      ∀ sqes : List Sqe, hold.own.map Prod.snd = sqes.map some → conduct.chain fuseIo mem sqes ∧
        ∀ results mem', Receives sqes mem mem' → post results ⟨some (fuseIo, mem'), []⟩

/-- **The contract of a coroutine alone.** -/
def alone (conduct : Conduct) : Contract coroutines Hold where
  allows := Hold.Allows conduct
  returns := fun _ => True
  mono := by
    intro op hold post post' weaker allowed
    cases op with
    | getFuseIo => exact fun fuseIo mem => weaker _ _ (allowed fuseIo mem)
    | releaseFuseIo fuseIo => exact weaker _ _ allowed
    | load fuseIo => exact fun mem after answers => weaker _ _ (allowed mem after answers)
    | store fuseIo mem => exact fun old held => And.imp_right (weaker _ _) (allowed old held)
    | getSqe peek =>
      exact ⟨weaker _ _ allowed.1,
        fun sqe after answers => weaker _ _ (allowed.2 sqe after answers)⟩
    | prep sqe entry => exact fun after answers => weaker _ _ (allowed after answers)
    | setLastRc rc => exact weaker _ _ allowed
    | complete refs =>
      obtain ⟨fuseIo, mem, slot, chains⟩ := allowed
      refine ⟨fuseIo, mem, slot, fun sqes own => ⟨(chains sqes own).1, ?_⟩⟩
      exact fun results mem' receives => weaker _ _ ((chains sqes own).2 results mem' receives)

/-! ### One coroutine -/

section Safe

variable {conduct : Conduct}

/-- A thread that keeps the contract up to its end. -/
def Keeps (conduct : Conduct) (thread : Thread coroutines Int)
    (hold : Hold) : Prop :=
  thread.Meets (alone conduct) (fun _ => True) hold

/-- A coroutine that waits for a chain of its conduct and goes on with any results. -/
structure Attends (conduct : Conduct) (sqes : List Sqe)
    (resume : List Int → Thread coroutines Int) (fuseIo : FuseIo) (before mem : Mem) : Prop where
  chain : conduct.chain fuseIo before sqes
  receives : Receives sqes before mem
  goesOn : ∀ results mem', Receives sqes before mem' →
    Keeps conduct (resume results) ⟨some (fuseIo, mem'), []⟩

/-- **A coroutine that keeps the contract.** -/
inductive Solo.Safe (conduct : Conduct) : Solo → Prop
  | running {hold : Hold} {thread : Thread coroutines Int} : Keeps conduct thread hold →
      Safe conduct ⟨hold, .running thread⟩
  | waiting {entries : List AwaitedEntry} {resume : List Int → Thread coroutines Int}
      {fuseIo : FuseIo} {before mem : Mem} :
      Attends conduct (entries.map AwaitedEntry.sqe) resume fuseIo before mem →
      Safe conduct ⟨⟨some (fuseIo, mem), []⟩, .waiting entries resume⟩
  | ended {hold : Hold} : Safe conduct ⟨hold, .ended⟩

theorem Solo.Safe.keeps {solo : Solo} (safe : solo.Safe conduct) {hold : Hold}
    {thread : Thread coroutines Int} (runs : solo = ⟨hold, .running thread⟩) :
    Keeps conduct thread hold := by
  cases safe with
  | running keeps =>
    cases runs
    exact keeps
  | waiting waits => cases runs
  | ended => cases runs

theorem Keeps.turned {thread next : Thread coroutines Int} {hold : Hold}
    (keeps : Keeps conduct thread hold) (move : thread.move = .turned next) :
    Keeps conduct next hold := by
  have turns := Thread.Meets.move keeps
  rw [move] at turns
  exact turns

theorem Keeps.performs {thread : Thread coroutines Int} {hold : Hold}
    (keeps : Keeps conduct thread hold) {op : Effect} {resume : op.Answer → Thread coroutines Int}
    (move : thread.move = .performs op resume) :
    Hold.Allows conduct op hold fun answer after => Keeps conduct (resume answer) after := by
  have performs := Thread.Meets.move keeps
  rw [move] at performs
  exact performs

/-- A completed entry is still the one that was prepared. -/
theorem map_sqe_set {entries : List AwaitedEntry} {index : Nat} {sqe : Sqe} (res : Int)
    (here : entries[index]? = some ⟨sqe, none⟩) :
    (entries.set index ⟨sqe, some res⟩).map AwaitedEntry.sqe = entries.map AwaitedEntry.sqe := by
  have bound := (List.getElem?_eq_some_iff.mp here).1
  refine List.ext_getElem? fun position => ?_
  rw [List.getElem?_map, List.getElem?_map, List.getElem?_set]
  by_cases same : index = position
  · subst same
    rw [if_pos rfl, if_pos bound, here]
    rfl
  · rw [if_neg same]

/-- **One step of a coroutine that keeps the contract.** -/
theorem Solo.Safe.step {cause : Cause} {solo next : Solo} (safe : solo.Safe conduct)
    (step : Solo.Step cause solo next) : next.Safe conduct := by
  cases step with
  | turned move =>
    cases safe with
    | running keeps => exact .running (keeps.turned move)
  | ended move => exact .ended
  | faults move => exact .ended
  | refused move =>
    cases safe with
    | running keeps => exact .running (keeps.performs move).1
  | @performs hold after thread op resume answer move answers =>
    cases safe with
    | running keeps =>
      have allowed := keeps.performs move
      cases op with
      | load fuseIo => exact .running (allowed _ _ answers)
      | store fuseIo mem =>
        cases answers with
        | store _ held => exact .running (allowed _ held).2
      | getSqe peek => exact .running (allowed.2 _ _ answers)
      | prep sqe entry => exact .running (allowed _ answers)
      | setLastRc rc =>
        cases answers
        exact .running allowed
      | _ => cases answers
  | @awaits slot own thread resume move =>
    have keeps : Keeps conduct thread ⟨slot, own.map fun entry => (entry.1, some entry.2)⟩ :=
      safe.keeps rfl
    obtain ⟨fuseIo, mem, held, chains⟩ := keeps.performs move
    obtain rfl : slot = some (fuseIo, mem) := held
    have prepared : (own.map fun entry => (entry.1, some entry.2)).map Prod.snd =
        (own.map Prod.snd).map some := by
      rw [List.map_map, List.map_map]
      rfl
    obtain ⟨fine, goesOn⟩ := chains _ prepared
    have sqes : (own.map fun entry => (⟨entry.2, none⟩ : AwaitedEntry)).map AwaitedEntry.sqe =
        own.map Prod.snd := by
      rw [List.map_map]
      rfl
    have waits : Attends conduct (own.map Prod.snd) resume fuseIo mem mem :=
      ⟨fine, .nothing, goesOn⟩
    exact .waiting (sqes.symm ▸ waits)
  | completed res bytes here =>
    cases safe with
    | waiting waits =>
      have member := List.mem_map_of_mem (f := AwaitedEntry.sqe) (List.mem_of_getElem? here)
      have same := map_sqe_set res here
      refine .waiting ⟨same.symm ▸ waits.chain, ?_, same.symm ▸ waits.goesOn⟩
      rw [same]
      exact .completed bytes waits.receives member
  | resumed results =>
    cases safe with
    | waiting waits => exact .running (waits.goesOn _ _ waits.receives)

theorem Solo.Safe.attends {solo : Solo} (safe : solo.Safe conduct) {slot : Option (FuseIo × Mem)}
    {entries : List AwaitedEntry} {resume : List Int → Thread coroutines Int}
    (waits : solo = ⟨⟨slot, []⟩, .waiting entries resume⟩) :
    ∃ fuseIo before mem, slot = some (fuseIo, mem) ∧
      Attends conduct (entries.map AwaitedEntry.sqe) resume fuseIo before mem := by
  cases safe with
  | running keeps => cases waits
  | waiting holds =>
    cases waits
    exact ⟨_, _, _, rfl, holds⟩
  | ended => cases waits

/-! ### All coroutines -/

/-- The specification that a contract asks for. -/
def Proved (conduct : Conduct) (ring : FuseRing) : Prop :=
  Program.wp (alone conduct) (queueReadSetRc ring) .nothing fun _ _ => True

/-- **A proof about one coroutine is a proof about every coroutine of a crew.** -/
theorem safe_of_reaches {ring : FuseRing} {first crew : Crew} (proved : Proved conduct ring)
    (initial : ∀ task, first.solos task = none) (run : Crew.Reaches ring first crew) :
    ∀ task solo, crew.solos task = some solo → solo.Safe conduct := by
  refine run.all ?_ ?_ (fun _ _ _ safe => safe.step) ?_ ?_
  · intro task solo found
    rw [initial task] at found
    cases found
  · exact .running (Thread.meets_start (Program.wp_mono _ (fun _ _ _ => ⟨trivial, trivial⟩) proved))
  · intro own thread resume fuseIo mem safe move
    exact .running ((safe.keeps rfl).performs move fuseIo mem)
  · intro own thread resume fuseIo mem safe move
    exact .running ((safe.keeps rfl).performs move)

/-! ### The entries of the event loop -/

section Entries

variable {slots entries : Nat} {s : Sys} {ghost : Ghost} {crew : Crew} {entry : SqeEntry}

/-- **An awaited entry belongs to a chain** of the coroutine that holds its slot and waits. -/
structure Belongs (conduct : Conduct) (s : Sys) (crew : Crew) (entry : SqeEntry) (task : Nat)
    (fuseIo : FuseIo) (before : Mem) (pending : List AwaitedEntry) : Prop where
  holds : (task, fuseIo) ∈ s.vals
  waits : ∃ resume, crew.solos task =
    some ⟨⟨some (fuseIo, s.mem fuseIo.slot), []⟩, .waiting pending resume⟩
  listed : ∃ sqe id index, entry.sqe = some sqe ∧ entry.userData = some ⟨id, index⟩ ∧
    pending[index]? = some ⟨sqe, none⟩ ∧ ∀ named ∈ sqe.operation.fuseIos, named = fuseIo
  chain : conduct.chain fuseIo before (pending.map AwaitedEntry.sqe)
  receives : Receives (pending.map AwaitedEntry.sqe) before (s.mem fuseIo.slot)

theorem Mirrors.belongs (mirrors : Mirrors s ghost.awaited crew)
    (kept : Kept slots entries s ghost)
    (safe : ∀ task solo, crew.solos task = some solo → solo.Safe conduct)
    (member : entry ∈ s.flight ++ ghost.awaited) :
    ∃ task fuseIo before pending, Belongs conduct s crew entry task fuseIo before pending := by
  obtain ⟨waiting, listed, sqe, ⟨id, index⟩, prepared, tagged, rfl, names⟩ :=
    kept.queues.awaited entry member
  obtain ⟨awaiter, owner, resumes⟩ := kept.roster.waits waiting listed
  have held : (waiting.task, waiting.fuseIo) ∈ s.vals :=
    kept.holders.shared.mem_iff.mpr (List.mem_append_right _ (List.mem_map_of_mem listed))
  obtain ⟨solo, there⟩ := Option.ne_none_iff_exists'.mp
    (mt (mirrors.unborn waiting.task).mp (Nat.not_le.mpr (kept.holders.born _ held)))
  have depicts := mirrors.depicts _ solo there
  obtain ⟨slot, pending, same, progress⟩ := depicts.waiting waiting.id awaiter owner resumes.task
  obtain ⟨fuseIo, before, mem, rfl, attends⟩ := (safe _ solo there).attends same
  obtain ⟨mine, rfl⟩ := (depicts.slot fuseIo mem).mp (by rw [same])
  obtain rfl := (Prod.mk.inj (List.inj_on_of_nodup_map kept.holders.tasks held mine rfl)).2
  obtain ⟨sqe', prepared', here⟩ := progress.pending entry member index tagged
  rw [prepared, Option.some.injEq] at prepared'
  subst prepared'
  exact ⟨waiting.task, waiting.fuseIo, before, pending, mine, ⟨_, same ▸ there⟩,
    ⟨sqe, waiting.id, index, prepared, tagged, here, names⟩, attends.chain, attends.receives⟩

end Entries

end Safe

end Fuseuring
