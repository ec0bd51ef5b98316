/-
**A coroutine on its slot serves its request as if it had the slot's own world.**

`Solo.Serves` ties a coroutine that holds a slot to the course of its request: it is in step with
the body of `queue_fuse_read` on the slot's own world, and whatever fits the course leads to where
it is.

* `Solo.Serves.turned`, `performs`, `awaits` and `resumed` — the moves of the coroutine.
* `Solo.Serves.step` — a step of the program, in which no operation runs.
-/

import Fuseuring.Ring.Course
import Fuseuring.Ring.Refill
import Mathlib.Data.List.Induction

namespace Fuseuring

open Interaction

/-! ### The slot's own answers -/

section Answers

variable {world : World}

/-- `get_sqe` where no entry is refused. -/
def World.granted (peek : Nat) (world : World) : World :=
  (world.alloc (if peek = 1 ∧ 0 < world.reserved then world.reserved - 1 else peek - 1)).2

theorem World.getSqe_granted {kernel : Kernel} (grants : ∀ world peek, kernel.sqe world peek = true)
    (world : World) (peek : Nat) :
    world.getSqe kernel peek = (some world.entries.length, world.granted peek) := by
  unfold World.getSqe World.granted
  by_cases sure : peek = 1 ∧ 0 < world.reserved
  · rw [if_pos sure, if_pos sure]
    rfl
  · rw [if_neg sure, if_neg sure, grants, if_pos rfl]
    rfl

theorem filterMap_range (sqes : List Sqe) :
    (List.range sqes.length).filterMap (fun index => sqes[index]?) = sqes := by
  induction sqes using List.reverseRecOn with
  | nil => rfl
  | append_singleton sqes sqe ih =>
    rw [List.length_append, List.length_singleton, List.range_succ, List.filterMap_append]
    have front : (List.range sqes.length).filterMap (fun index => (sqes ++ [sqe])[index]?) =
        (List.range sqes.length).filterMap (fun index => sqes[index]?) := by
      refine List.filterMap_congr fun index member => ?_
      exact List.getElem?_append_left (List.mem_range.mp member)
    rw [front, ih]
    simp

/-- All entries, each by its place. -/
theorem World.chainOf_range {sqes : List Sqe} (prepared : world.entries = sqes.map some) :
    world.chainOf ((List.range sqes.length).map some) = sqes := by
  rw [World.chainOf, List.filterMap_map, prepared]
  refine Eq.trans (List.filterMap_congr fun index _ => ?_) (filterMap_range sqes)
  show ((sqes.map some)[index]?).join = sqes[index]?
  rw [List.getElem?_map]
  cases sqes[index]? <;> rfl

/-- The chain is queued. -/
def World.queue (chain : List Sqe) (world : World) : World :=
  { world with entries := [] }.record (.queued chain world.mem)

end Answers

/-! ### The relation -/

/-- What `queue_fuse_read` does behind its body. -/
def givesBack (fuseIo : FuseIo) (rc : Int) : Coro Int := do
  releaseFuseIo fuseIo
  return rc

/-- The coroutine is in step with the body of `queue_fuse_read` in the slot's own world. -/
def Aligned (fuseIo : FuseIo) (thread thread' : Thread coroutines Int) (dues : Dues) : Prop :=
  Thread.Twins InStep (fun _ after => after.Idle) (givesBack fuseIo) (.push setRc .bottom) thread
    thread' dues

/-- The world now is what the slot shows. -/
structure Course.Shows (course : Course) (fuseIo : FuseIo) (mem : Mem) (pipe : List UInt8)
    (own : List (Nat × Option Sqe)) : Prop where
  slot : course.first.fuseIo = fuseIo
  mem : course.now.mem = mem
  pipe : course.now.pipe = pipe
  entries : course.now.entries = own.map Prod.snd
  nodup : (own.map Prod.fst).Nodup

/-- The rest of a chain, and what the coroutine makes of its results. -/
def finishes (entries : List AwaitedEntry) (resume : List Int → Thread coroutines Int)
    (kernel : Kernel) (world : World) : Int × World :=
  let left := chainOn kernel false entries world
  (resume left.1).run kernel.handler left.2

/-- How many of the entries ask for a message, and how many for the backing file. -/
def arrivals (sqes : List Sqe) : Nat := sqes.countP fun sqe => sqe.operation.arrives

def filings (sqes : List Sqe) : Nat := sqes.countP fun sqe => sqe.operation.files

/-- **A coroutine that holds a slot serves a request.** -/
inductive Solo.Serves (ring : FuseRing) (pipe : List UInt8) : Solo → Course → Prop
  | running {fuseIo : FuseIo} {mem : Mem} {thread thread' : Thread coroutines Int} {dues : Dues}
      {course : Course} : Aligned fuseIo thread thread' dues →
      course.Shows fuseIo mem pipe dues.own → course.Affords dues.messages dues.uses →
      course.Leads ring (fun kernel world => thread'.run kernel.handler world) →
      Serves ring pipe ⟨⟨some (fuseIo, mem), dues.own⟩, .running thread⟩ course
  | waiting {fuseIo : FuseIo} {mem : Mem} {done : List AwaitedEntry} {rest : List Sqe}
      {resume resume' : List Int → Thread coroutines Int} {messages uses : Nat} {course : Course} :
      (∀ entry ∈ done, entry.res ≠ none) →
      (∀ results, Aligned fuseIo (resume results) (resume' results) (.idle messages uses)) →
      course.Shows fuseIo mem pipe [] →
      course.Affords (arrivals rest + messages) (filings rest + uses) →
      course.Leads ring (finishes (done ++ pendingEntries rest) resume') →
      Serves ring pipe ⟨⟨some (fuseIo, mem), []⟩, .waiting (done ++ pendingEntries rest) resume⟩
        course

/-- An operation ran. -/
def Event.runs : Event → Bool
  | .ran _ _ _ _ => true
  | _ => false

/-- The operations of the request that have run. -/
def Course.events (course : Course) : List Event := course.now.trace.filter Event.runs

/-- The program goes on, and no operation runs. -/
structure Course.Quiet (course next : Course) : Prop where
  first : next.first = course.first
  request : next.request = course.request
  arrived : next.arrived = course.arrived
  filed : next.filed = course.filed
  file : next.now.file = course.now.file
  events : next.events = course.events

theorem Course.Quiet.refl (course : Course) : course.Quiet course := ⟨rfl, rfl, rfl, rfl, rfl, rfl⟩

section Steps

variable {ring : FuseRing} {pipe : List UInt8} {course : Course} {fuseIo : FuseIo} {mem : Mem}
  {thread thread' : Thread coroutines Int} {dues : Dues}

/-- A call or a return. -/
theorem Solo.Serves.turned {next : Thread coroutines Int}
    (aligned : Aligned fuseIo thread thread' dues)
    (shows : course.Shows fuseIo mem pipe dues.own)
    (affords : course.Affords dues.messages dues.uses)
    (leads : course.Leads ring (fun kernel world => thread'.run kernel.handler world))
    (move : thread.move = .turned next) :
    ∃ course', course.Quiet course' ∧
      Solo.Serves ring pipe ⟨⟨some (fuseIo, mem), dues.own⟩, .running next⟩ course' := by
  rcases Thread.Twins.move aligned with ⟨value, rfl, -, -⟩ | ⟨next₁, next', moved, moved', twins⟩ |
    ⟨op, op', resume, resume', middle, moved, -⟩
  · cases move
  · obtain rfl : next₁ = next := by
      rw [moved] at move
      exact Move.turned.inj move
    obtain ⟨entered, runs⟩ := Thread.run_turned (σ := World) moved'
    cases entered with
    | none =>
      refine ⟨course, .refl course, .running twins shows affords fun other fits => ?_⟩
      exact (leads other fits).trans (runs _ _)
    | some label =>
      refine ⟨course.step fun world => world.record (.called label), ⟨rfl, rfl, rfl, rfl, rfl, ?_⟩,
        .running twins ⟨shows.slot, shows.mem, shows.pipe, shows.entries, shows.nodup⟩
          ⟨affords.messages, affords.uses⟩ ?_⟩
      · simp [Course.events, Course.step, World.record, Event.runs]
      · refine leads.step _ (by simp [World.record]) fun other fits => ?_
        exact runs _ _
  · rw [moved] at move
    cases move

/-- The prepared entry of an index is that of its place. -/
theorem map_prepare {own : List (Nat × Option Sqe)} {index place : Nat} {sqe : Sqe}
    (nodup : (own.map Prod.fst).Nodup) (here : own[place]?.map Prod.fst = some index) :
    (own.map fun entry => if entry.1 = index then (index, some sqe) else entry) =
      own.set place (index, some sqe) := by
  obtain ⟨entry, found, rfl⟩ := Option.map_eq_some_iff.mp here
  obtain ⟨bound, inside⟩ := List.getElem?_eq_some_iff.mp found
  refine List.ext_getElem? fun position => ?_
  rw [List.getElem?_map, List.getElem?_set]
  by_cases same : place = position
  · subst same
    rw [if_pos rfl, if_pos bound, found, Option.map_some, if_pos rfl]
  · rw [if_neg same]
    cases other : own[position]? with
    | none => rfl
    | some entry' =>
      obtain ⟨bound', inside'⟩ := List.getElem?_eq_some_iff.mp other
      have different : entry'.1 ≠ entry.1 := by
        intro equal
        have left : place < (own.map Prod.fst).length := by rwa [List.length_map]
        have right : position < (own.map Prod.fst).length := by rwa [List.length_map]
        have names : (own.map Prod.fst)[place] = (own.map Prod.fst)[position] := by
          rw [List.getElem_map, List.getElem_map, inside, inside', equal]
        exact same ((@List.Nodup.getElem_inj_iff _ _ nodup place left position right).mp names)
      rw [Option.map_some, if_neg different]

/-- The slot behind a `get_sqe`. -/
theorem Course.Shows.taken {own : List (Nat × Option Sqe)} {index : Nat}
    (shows : course.Shows fuseIo mem pipe own) (peek : Nat) (fresh : index ∉ own.map Prod.fst) :
    (course.step (World.granted peek)).Shows fuseIo mem pipe (own ++ [(index, none)]) := by
  refine ⟨shows.slot, shows.mem, shows.pipe, ?_, ?_⟩
  · show course.now.entries ++ [none] = (own ++ [(index, none)]).map Prod.snd
    rw [shows.entries, List.map_append]
    rfl
  · rw [List.map_append, List.map_singleton, ← List.concat_eq_append]
    exact shows.nodup.concat fresh

/-- The slot behind an entry that is prepared. -/
theorem Course.Shows.prepared {own : List (Nat × Option Sqe)} {index place : Nat} (sqe : Sqe)
    (shows : course.Shows fuseIo mem pipe own) (here : own[place]?.map Prod.fst = some index) :
    (course.step fun world => world.prep (some place) sqe).Shows fuseIo mem pipe
      (own.set place (index, some sqe)) := by
  refine ⟨shows.slot, shows.mem, shows.pipe, ?_, ?_⟩
  · show course.now.entries.set place (some sqe) = (own.set place (index, some sqe)).map Prod.snd
    rw [shows.entries, List.map_set]
  · have still : (own.map fun entry => if entry.1 = index then (index, some sqe) else entry).map
        Prod.fst = own.map Prod.fst := by
      rw [List.map_map]
      refine List.map_congr_left fun other _ => ?_
      by_cases named : other.1 = index <;> simp [named]
    rw [← map_prepare shows.nodup here, still]
    exact shows.nodup

/-- The slot's own answer to an operation. -/
theorem Course.Leads.performs {op' : Effect} {resume' : op'.Answer → Thread coroutines Int}
    (leads : course.Leads ring (fun kernel world => thread'.run kernel.handler world))
    (moved : thread'.move = .performs op' resume') (change : World → World)
    (longer : course.now.trace.length ≤ (change course.now).trace.length) (answer : op'.Answer)
    (answered : ∀ other, course.Fits other → other.kernel.handler.answer op' (course.world other) =
      (answer, (course.step change).world other)) :
    (course.step change).Leads ring
      (fun kernel world => (resume' answer).run kernel.handler world) := by
  refine leads.step change longer fun other fits => ?_
  rw [Thread.run_performs moved, answered other fits]

/-- **An operation that is answered at once.** -/
theorem Solo.Serves.performs {op : Effect} {resume : op.Answer → Thread coroutines Int}
    {answer : op.Answer} {after : Hold} (aligned : Aligned fuseIo thread thread' dues)
    (shows : course.Shows fuseIo mem pipe dues.own)
    (affords : course.Affords dues.messages dues.uses)
    (leads : course.Leads ring (fun kernel world => thread'.run kernel.handler world))
    (move : thread.move = .performs op resume)
    (answers : Hold.Answers op ⟨some (fuseIo, mem), dues.own⟩ answer after) :
    ∃ course', course.Quiet course' ∧
      Solo.Serves ring pipe ⟨after, .running (resume answer)⟩ course' := by
  rcases Thread.Twins.move aligned with ⟨value, rfl, -, -⟩ | ⟨next, next', moved, -⟩ |
    ⟨op₁, op', resume₁, resume', middle, moved, moved', paired, twins⟩
  · cases move
    cases answers
  · rw [moved] at move
    cases move
  cases moved.symm.trans move
  cases answers with
  | load held =>
    cases held
    cases paired with
    | load goesOn =>
      refine ⟨course.step id, .refl course, .running (twins _ _ _ (goesOn mem)) shows affords ?_⟩
      refine leads.performs moved' id le_rfl mem fun other fits => ?_
      exact congrArg (fun mem => (mem, course.world other)) shows.mem
  | @store _ _ _ stored held =>
    cases held
    cases paired with
    | store goesOn =>
      refine ⟨course.step fun world => world.setMem stored, ⟨rfl, rfl, rfl, rfl, rfl, rfl⟩,
        .running (twins _ _ _ goesOn) ⟨shows.slot, rfl, shows.pipe, shows.entries, shows.nodup⟩
          ⟨affords.messages, affords.uses⟩ ?_⟩
      exact leads.performs moved' _ le_rfl () fun other fits => rfl
  | taken peek index fresh =>
    cases paired with
    | taken goesOn =>
      have place : course.now.entries.length = dues.own.length := by
        rw [shows.entries, List.length_map]
      refine ⟨course.step (World.granted peek), ⟨rfl, rfl, rfl, rfl, rfl, rfl⟩,
        .running (twins _ _ _ (goesOn index fresh)) (shows.taken peek fresh)
          ⟨affords.messages, affords.uses⟩ ?_⟩
      refine leads.performs moved' _ le_rfl (some dues.own.length) fun other fits => ?_
      refine (World.getSqe_granted fits.kernel.grants (course.world other) peek).trans ?_
      exact congrArg (fun count => (some count, (course.world other).granted peek)) place
  | @prepared _ index sqe member =>
    cases paired with
    | @prepared _ place _ _ _ here goesOn =>
      have same : (⟨some (fuseIo, mem), dues.own⟩ : Hold).prepare index sqe =
          ⟨some (fuseIo, mem), (dues.prepare place index sqe).own⟩ :=
        congrArg (Hold.mk (some (fuseIo, mem))) (map_prepare shows.nodup here)
      rw [same]
      refine ⟨course.step fun world => world.prep (some place) sqe,
        ⟨rfl, rfl, rfl, rfl, rfl, rfl⟩, .running (twins _ _ _ goesOn) (shows.prepared sqe here)
          ⟨affords.messages, affords.uses⟩ ?_⟩
      exact leads.performs moved' _ le_rfl () fun other fits => rfl
  | setLastRc rc => cases paired

/-- **The chain is queued.** -/
theorem Solo.Serves.awaits {own : List (Nat × Sqe)} {resume : List Int → Thread coroutines Int}
    (aligned : Aligned fuseIo thread thread' dues) (shows : course.Shows fuseIo mem pipe dues.own)
    (affords : course.Affords dues.messages dues.uses)
    (leads : course.Leads ring (fun kernel world => thread'.run kernel.handler world))
    (owned : dues.own = own.map fun entry => (entry.1, some entry.2))
    (move : thread.move = .performs (.complete (own.map fun entry => some entry.1)) resume) :
    ∃ course', course.Quiet course' ∧ Solo.Serves ring pipe ⟨⟨some (fuseIo, mem), []⟩,
      .waiting (own.map fun entry => ⟨entry.2, none⟩) resume⟩ course' := by
  rcases Thread.Twins.move aligned with ⟨value, rfl, -, -⟩ | ⟨next, next', moved, -⟩ |
    ⟨op₁, op', resume₁, resume', middle, moved, moved', paired, twins⟩
  · cases move
  · rw [moved] at move
    cases move
  cases moved.symm.trans move
  cases paired with
  | @awaits own' _ _ messages uses _ named asked goesOn =>
    have pairs : Function.Injective fun entry : Nat × Sqe => (entry.1, some entry.2) := by
      rintro ⟨index, sqe⟩ ⟨index', sqe'⟩ same
      simpa using same
    obtain rfl : own' = own := by
      refine List.map_injective_iff.mpr pairs (Eq.trans ?_ owned)
      rw [asked]
      rfl
    have entries : course.now.entries = (own'.map Prod.snd).map some := by
      rw [shows.entries, owned, List.map_map, List.map_map]
      rfl
    have none : own'.map (fun entry => (⟨entry.2, none⟩ : AwaitedEntry)) =
        [] ++ pendingEntries (own'.map Prod.snd) := by
      rw [List.nil_append, pendingEntries, List.map_map]
      rfl
    rw [none]
    refine ⟨course.step (World.queue (own'.map Prod.snd)), ⟨rfl, rfl, rfl, rfl, rfl, ?_⟩,
      .waiting (by simp) (fun results => twins _ _ _ (goesOn results))
        ⟨shows.slot, shows.mem, shows.pipe, rfl, List.nodup_nil⟩ ?_ ?_⟩
    · simp [Course.events, Course.step, World.queue, World.record, Event.runs]
    · rw [asked] at affords
      exact ⟨affords.messages, affords.uses⟩
    · refine leads.step _ (by simp [World.queue, World.record]) fun other fits => ?_
      have chain : (course.world other).chainOf ((List.range own'.length).map some) =
          own'.map Prod.snd := by
        have prepared : (course.world other).entries = (own'.map Prod.snd).map some := entries
        have counted := World.chainOf_range prepared
        rwa [List.length_map] at counted
      rw [Thread.run_performs moved', finishes, List.nil_append, chainOn_pending]
      show (resume' ((course.world other).complete _ _).1).run _
        ((course.world other).complete _ _).2 = _
      rw [World.complete, chain]
      rfl

/-- **All results are there.** -/
theorem Solo.Serves.resumed {done : List AwaitedEntry} {rest : List Sqe} {results : List Int}
    {resume resume' : List Int → Thread coroutines Int} {messages uses : Nat}
    (aligned : ∀ results, Aligned fuseIo (resume results) (resume' results) (.idle messages uses))
    (shows : course.Shows fuseIo mem pipe [])
    (affords : course.Affords (arrivals rest + messages) (filings rest + uses))
    (leads : course.Leads ring (finishes (done ++ pendingEntries rest) resume'))
    (answered : (done ++ pendingEntries rest).map AwaitedEntry.res = results.map some) :
    ∃ course', course.Quiet course' ∧
      Solo.Serves ring pipe ⟨⟨some (fuseIo, mem), []⟩, .running (resume results)⟩ course' := by
  have still : course.Affords messages uses :=
    ⟨(Nat.le_add_left _ _).trans affords.messages, (Nat.le_add_left _ _).trans affords.uses⟩
  refine ⟨course, .refl course, .running (aligned results) shows still fun other fits => ?_⟩
  rw [leads other fits, finishes, chainOn_done false answered]

/-- **A step of the program**: the request goes on, and no operation runs. -/
theorem Solo.Serves.step {solo next : Solo} (serves : solo.Serves ring pipe course)
    (step : Solo.Step .program solo next) :
    ∃ course', course.Quiet course' ∧ next.Serves ring pipe course' := by
  cases serves with
  | @running _ mem thread thread' dues _ aligned shows affords leads =>
    generalize held : (⟨some _, dues.own⟩ : Hold) = hold at step
    cases step with
    | turned move =>
      subst held
      exact Solo.Serves.turned aligned shows affords leads move
    | ended move =>
      rcases Thread.Twins.move aligned with ⟨value, rfl, -, -⟩ | ⟨_, _, moved, -⟩ |
        ⟨_, _, _, _, _, moved, -⟩
      · cases move
      · cases moved.symm.trans move
      · cases moved.symm.trans move
    | performs move answers =>
      subst held
      exact Solo.Serves.performs aligned shows affords leads move answers
    | faults move =>
      rcases Thread.Twins.move aligned with ⟨value, rfl, -, -⟩ | ⟨_, _, moved, -⟩ |
        ⟨_, _, _, _, _, moved, -, paired, -⟩
      · cases move
      · cases moved.symm.trans move
      · cases moved.symm.trans move
        cases paired
    | awaits move =>
      obtain ⟨rfl, owned⟩ := Hold.mk.inj held
      exact Solo.Serves.awaits aligned shows affords leads owned move
  | waiting completed aligned shows affords leads =>
    generalize same : (_ ++ pendingEntries _ : List AwaitedEntry) = entries at step
    generalize held : (⟨some _, []⟩ : Hold) = hold at step
    cases step with
    | resumed answered =>
      subst same held
      exact Solo.Serves.resumed aligned shows affords leads answered

end Steps

end Fuseuring
