/-
**One coroutine alone, and a crew of them.**

A `Solo` is all that one coroutine can see: its slot with the slot's memory, the entries it has
taken, and where it is. Its steps depend on nothing else but the answers it is given and
the completions of its own entries. A `Crew` is any number of them beside each other and
the slots of the pool: the memory of a slot is handed over with the slot, from whoever
held it last.

The crew is what the event loop is meant to be. It names no ring, no queue and no awaiter.

* `Solo.Step`, `Crew.Step` — one step of one coroutine, or the hand-over of a slot.
* `Crew.Reaches.all` — what each coroutine keeps alone, all of them keep.
-/

import Fuseuring.Ring.Discipline

namespace Fuseuring

open Interaction

/-! ### One coroutine -/

/-- What a completed operation leaves in the memory of its slot. -/
def Mem.receive (mem : Mem) (operation : Operation) (bytes : List UInt8) : Mem :=
  match operation with
  | .read _ buf nbytes => mem.copy buf (bytes.take nbytes)
  | _ => mem

/-- What a coroutine holds: its slot with the memory, and the entries it has taken and not awaited,
with what was prepared in them. -/
structure Hold where
  slot : Option (FuseIo × Mem)
  own : List (Nat × Option Sqe)

namespace Hold

/-- A coroutine before its first operation, and behind its last one. -/
def nothing : Hold := ⟨none, []⟩

def prepare (hold : Hold) (index : Nat) (sqe : Sqe) : Hold :=
  { hold with
    own := hold.own.map fun entry => if entry.1 = index then (index, some sqe) else entry }

/-- An awaited operation is completed. -/
def receive (hold : Hold) (operation : Operation) (bytes : List UInt8) : Hold :=
  { hold with slot := hold.slot.map fun held => (held.1, held.2.receive operation bytes) }

/-- The operations that are answered at once: the memory of the slot as it was left, any entry that
is not taken. -/
inductive Answers : (op : Effect) → Hold → op.Answer → Hold → Prop
  | load {hold : Hold} {fuseIo : FuseIo} {mem : Mem} : hold.slot = some (fuseIo, mem) →
      Answers (.load fuseIo) hold mem hold
  | store {hold : Hold} {fuseIo : FuseIo} {old : Mem} (mem : Mem) :
      hold.slot = some (fuseIo, old) →
      Answers (.store fuseIo mem) hold () { hold with slot := some (fuseIo, mem) }
  | taken {hold : Hold} (peek index : Nat) : index ∉ hold.own.map Prod.fst →
      Answers (.getSqe peek) hold (some index)
        { hold with own := hold.own ++ [(index, none)] }
  | prepared {hold : Hold} {index : Nat} (sqe : Sqe) : index ∈ hold.own.map Prod.fst →
      Answers (.prep (some index) sqe) hold () (hold.prepare index sqe)
  | setLastRc {hold : Hold} (rc : Int) : Answers (.setLastRc rc) hold () hold

end Hold

/-- An entry that is awaited: what was prepared in it, and its result once it is completed. -/
structure AwaitedEntry where
  sqe : Sqe
  res : Option Int

/-- Where a coroutine is. Behind a null entry that is used there is nothing to come either. -/
inductive SoloPc
  | running (thread : Thread coroutines Int)
  | waiting (entries : List AwaitedEntry) (resume : List Int → Thread coroutines Int)
  | ended

/-- **One coroutine alone.** -/
structure Solo where
  hold : Hold
  pc : SoloPc

/-- What moves a coroutine: itself, a `get_sqe` that gives up, or an entry that is completed. -/
inductive Cause
  | program
  | refusal
  | completion (index : Nat) (res : Int) (bytes : List UInt8)

namespace Solo

/-- `queue_read_set_rc` before its first step. -/
def start (ring : FuseRing) : Solo := ⟨.nothing, .running (.start (queueReadSetRc ring))⟩

/-- **One step of a coroutine**, on what it holds. -/
inductive Step : Cause → Solo → Solo → Prop
  | turned {hold : Hold} {thread next : Thread coroutines Int} : thread.move = .turned next →
      Step .program ⟨hold, .running thread⟩ ⟨hold, .running next⟩
  | ended {hold : Hold} {thread : Thread coroutines Int} {value : Int} :
      thread.move = .ended value → Step .program ⟨hold, .running thread⟩ ⟨hold, .ended⟩
  | performs {hold after : Hold} {thread : Thread coroutines Int} {op : Effect}
      {resume : op.Answer → Thread coroutines Int} {answer : op.Answer} :
      thread.move = .performs op resume → hold.Answers op answer after →
      Step .program ⟨hold, .running thread⟩ ⟨after, .running (resume answer)⟩
  | refused {hold : Hold} {thread : Thread coroutines Int} {peek : Nat}
      {resume : SqeRef → Thread coroutines Int} : thread.move = .performs (.getSqe peek) resume →
      Step .refusal ⟨hold, .running thread⟩ ⟨hold, .running (resume none)⟩
  | faults {hold : Hold} {thread : Thread coroutines Int} {sqe : Sqe}
      {resume : Unit → Thread coroutines Int} : thread.move = .performs (.prep none sqe) resume →
      Step .program ⟨hold, .running thread⟩ ⟨hold, .ended⟩
  | awaits {slot : Option (FuseIo × Mem)} {own : List (Nat × Sqe)}
      {thread : Thread coroutines Int} {resume : List Int → Thread coroutines Int} :
      thread.move = .performs (.complete (own.map fun entry => some entry.1)) resume →
      Step .program ⟨⟨slot, own.map fun entry => (entry.1, some entry.2)⟩, .running thread⟩
        ⟨⟨slot, []⟩, .waiting (own.map fun entry => ⟨entry.2, none⟩) resume⟩
  | completed {hold : Hold} {entries : List AwaitedEntry} {index : Nat} {sqe : Sqe}
      {resume : List Int → Thread coroutines Int} (res : Int) (bytes : List UInt8) :
      entries[index]? = some ⟨sqe, none⟩ →
      Step (.completion index res bytes) ⟨hold, .waiting entries resume⟩
        ⟨hold.receive sqe.operation bytes, .waiting (entries.set index ⟨sqe, some res⟩) resume⟩
  | resumed {hold : Hold} {entries : List AwaitedEntry} {results : List Int}
      {resume : List Int → Thread coroutines Int} :
      entries.map AwaitedEntry.res = results.map some →
      Step .program ⟨hold, .waiting entries resume⟩ ⟨hold, .running (resume results)⟩

end Solo

/-! ### The crew -/

/-- **The coroutines beside each other**, by their tasks, and the pool of slots. -/
structure Crew where
  pool : List (FuseIo × Mem)
  solos : Nat → Option Solo

namespace Crew

/-- Before the first coroutine starts. -/
def init (slots : Nat) (mem : Nat → Mem) : Crew where
  pool := (List.range slots).map fun slot => (⟨slot⟩, mem slot)
  solos := fun _ => none

def set (crew : Crew) (task : Nat) (solo : Solo) : Crew :=
  { crew with solos := Function.update crew.solos task (some solo) }

/-- **One step** of a coroutine: it starts, goes on by itself, takes a slot from the pool with the
memory it was left with, or gives its slot back. -/
inductive Step (ring : FuseRing) (task : Nat) : Cause → Crew → Crew → Prop
  | starts {crew : Crew} : crew.solos task = none →
      Step ring task .program crew (crew.set task (.start ring))
  | goesOn {crew : Crew} {cause : Cause} {solo next : Solo} : crew.solos task = some solo →
      Solo.Step cause solo next → Step ring task cause crew (crew.set task next)
  | takes {crew : Crew} {own : List (Nat × Option Sqe)}
      {thread : Thread coroutines Int} {resume : FuseIo → Thread coroutines Int}
      {rest : List (FuseIo × Mem)} {fuseIo : FuseIo} {mem : Mem} :
      crew.solos task = some ⟨⟨none, own⟩, .running thread⟩ →
      thread.move = .performs .getFuseIo resume → crew.pool = rest ++ [(fuseIo, mem)] →
      Step ring task .program crew (Crew.set { crew with pool := rest } task
        ⟨⟨some (fuseIo, mem), own⟩, .running (resume fuseIo)⟩)
  | gives {crew : Crew} {own : List (Nat × Option Sqe)}
      {thread : Thread coroutines Int} {resume : Unit → Thread coroutines Int}
      {fuseIo : FuseIo} {mem : Mem} :
      crew.solos task = some ⟨⟨some (fuseIo, mem), own⟩, .running thread⟩ →
      thread.move = .performs (.releaseFuseIo fuseIo) resume →
      Step ring task .program crew (Crew.set { crew with pool := crew.pool ++ [(fuseIo, mem)] } task
        ⟨⟨none, own⟩, .running (resume ())⟩)

/-- **The runs of a crew.** -/
inductive Reaches (ring : FuseRing) (first : Crew) : Crew → Prop
  | start : Reaches ring first first
  | step {crew next : Crew} {task : Nat} {cause : Cause} : Reaches ring first crew →
      Step ring task cause crew next → Reaches ring first next

section Set

variable {crew : Crew} {task other : Nat} {solo : Solo}

@[simp] theorem pool_set : (crew.set task solo).pool = crew.pool := rfl

@[simp] theorem solos_set_self : (crew.set task solo).solos task = some solo :=
  Function.update_self _ _ _

theorem solos_set_of_ne (different : other ≠ task) :
    (crew.set task solo).solos other = crew.solos other :=
  Function.update_of_ne different _ _

/-- What holds of all but one, and of the one behind its step. -/
theorem all_set {good : Solo → Prop}
    (all : ∀ other found, crew.solos other = some found → good found) (new : good solo) :
    ∀ other found, (crew.set task solo).solos other = some found → good found := by
  intro other found member
  by_cases same : other = task
  · rw [same, solos_set_self, Option.some.injEq] at member
    rw [← member]
    exact new
  · rw [solos_set_of_ne same] at member
    exact all other found member

end Set

/-- **What each coroutine keeps alone, all of them keep**: an invariant of the steps of one
coroutine that also outlasts taking and giving back a slot, whatever memory comes with it. -/
theorem Reaches.all {ring : FuseRing} {good : Solo → Prop} {first crew : Crew}
    (initial : ∀ task solo, first.solos task = some solo → good solo)
    (starts : good (.start ring))
    (goesOn : ∀ cause solo next, good solo → Solo.Step cause solo next → good next)
    (takes : ∀ own (thread : Thread coroutines Int) (resume : FuseIo → Thread coroutines Int)
      fuseIo mem, good ⟨⟨none, own⟩, .running thread⟩ →
      thread.move = .performs .getFuseIo resume →
      good ⟨⟨some (fuseIo, mem), own⟩, .running (resume fuseIo)⟩)
    (gives : ∀ own (thread : Thread coroutines Int) (resume : Unit → Thread coroutines Int)
      fuseIo mem, good ⟨⟨some (fuseIo, mem), own⟩, .running thread⟩ →
      thread.move = .performs (.releaseFuseIo fuseIo) resume →
      good ⟨⟨none, own⟩, .running (resume ())⟩)
    (run : Reaches ring first crew) : ∀ task solo, crew.solos task = some solo → good solo := by
  induction run with
  | start => exact initial
  | step _ step ih =>
    cases step with
    | starts _ => exact all_set ih starts
    | goesOn found step => exact all_set ih (goesOn _ _ _ (ih _ _ found) step)
    | takes found move _ => exact all_set ih (takes _ _ _ _ _ (ih _ _ found) move)
    | gives found move => exact all_set ih (gives _ _ _ _ _ (ih _ _ found) move)

end Crew

end Fuseuring
