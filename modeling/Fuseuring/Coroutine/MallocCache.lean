/-
**Where the frames are (`malloc_cache`, `operator new` and `operator delete` of the promise).**

A frame of at most `malloc_cache_item_size` bytes gets a block of that size, from the list of
those that were given back or else from the heap; a larger one gets a block of its own. The list
is linked through the blocks themselves, over what the coroutine has left in them.

* `housed_of_run` — in every run the frames that are there have blocks of their own that are
  large enough, none of them is in the list, and what `delete` is called on was allocated. The
  one fault is the form of `delete` for large frames.
* `peak_of_run` — the list and the small frames together are as many as there ever were small
  frames at once, and `clear_malloc_cache` leaves only the blocks of the frames that are there.

Memory is the blocks of one thread's frames. The heap puts a new block where none of them is;
what a coroutine writes into its own frame is not known.
-/

import Fuseuring.Coroutine.Lifecycle
import Fuseuring.Library.FreeList

namespace Fuseuring

/-! ### The cache -/

/-- `malloc_cache_item_size`. -/
def mallocCacheItemSize : Nat := 500

/-- What the language does not define: a block that is not allocated is used,
or one of `new[]` is given to `delete`. -/
inductive Fault
  | unallocated (block : Nat)
  | scalarDelete (block : Nat)
deriving DecidableEq, Repr

/-- The sizes of the blocks that are allocated, the `MallocItem` at the start of
each, and `malloc_cache_head`. -/
structure MallocCache where
  heap : Nat → Option Nat
  next : Nat → Option Nat
  mallocCacheHead : Option Nat
  faults : List Fault

namespace MallocCache

/-- A block is read or written. -/
def touch (cache : MallocCache) (block : Nat) : MallocCache :=
  if (cache.heap block).isSome then cache
  else { cache with faults := .unallocated block :: cache.faults }

/-- `new char[size]`, which the heap puts at `place`. -/
def newChars (cache : MallocCache) (place size : Nat) : MallocCache :=
  { cache with heap := Function.update cache.heap place (some size) }

/-- `delete[]`. -/
def deleteChars (cache : MallocCache) (block : Nat) : MallocCache :=
  let cache := cache.touch block
  { cache with heap := Function.update cache.heap block none }

/-- `delete` of what is a `char[]`. -/
def deleteScalar (cache : MallocCache) (block : Nat) : MallocCache :=
  let cache := cache.deleteChars block
  { cache with faults := .scalarDelete block :: cache.faults }

/-- `clear_malloc_cache`: the turns of its loop. -/
def clearMallocCache : Nat → MallocCache → Option MallocCache
  | 0, _ => none
  | turns + 1, cache =>
    match cache.mallocCacheHead with
    | none => some cache
    | some head =>
      let next := cache.next head
      clearMallocCache turns { (cache.touch head).deleteChars head with mallocCacheHead := next }

/-- `malloc_cache`. -/
def mallocCache (cache : MallocCache) (place : Nat) : Nat × MallocCache :=
  match cache.mallocCacheHead with
  | some ret => (ret, { cache.touch ret with mallocCacheHead := cache.next ret })
  | none => (place, cache.newChars place mallocCacheItemSize)

/-- `malloc_cache_free`. -/
def mallocCacheFree (cache : MallocCache) (data : Nat) : MallocCache :=
  { cache.touch data with
    next := Function.update cache.next data cache.mallocCacheHead
    mallocCacheHead := some data }

/-- `operator new`. -/
def operatorNew (cache : MallocCache) (count place : Nat) : Nat × MallocCache :=
  if count ≤ mallocCacheItemSize then cache.mallocCache place
  else (place, cache.newChars place count)

/-- `operator delete`. `::delete (sz, p)` deletes the second of the two. -/
def operatorDelete (cache : MallocCache) (ptr sz : Nat) : MallocCache :=
  if sz ≤ mallocCacheItemSize then cache.mallocCacheFree ptr else cache.deleteScalar ptr

theorem touch_of_some {cache : MallocCache} {block bytes : Nat}
    (allocated : cache.heap block = some bytes) : cache.touch block = cache := by
  rw [touch, allocated, Option.isSome_some, if_pos rfl]

end MallocCache

/-! ### The frames in it -/

variable {T : Type}

/-- The blocks and where the frames are. -/
structure FrameMemory where
  cache : MallocCache
  block : Nat → Nat

namespace FrameMemory

/-- A thread that has not called a coroutine. -/
def init : FrameMemory := ⟨⟨fun _ => none, fun _ => none, none, []⟩, fun _ => 0⟩

/-- What an event does: a call allocates, a destruction deletes, everything else
is done in the block of the frame. -/
def take (size : Nat → Nat) (place : Nat) (memory : FrameMemory) : FrameEvent T → FrameMemory
  | .called _ frame =>
    let allocated := memory.cache.operatorNew (size frame) place
    ⟨allocated.2, Function.update memory.block frame allocated.1⟩
  | .destroyed frame =>
    { memory with cache := memory.cache.operatorDelete (memory.block frame) (size frame) }
  | event => { memory with cache := memory.cache.touch (memory.block event.about) }

/-- The links after the coroutines have written into their frames. -/
def written (memory : FrameMemory) (next : Nat → Option Nat) : FrameMemory :=
  { memory with cache := { memory.cache with next := next } }

end FrameMemory

/-- The frames that are there. -/
def living : List (FrameEvent T) → List Nat
  | [] => []
  | .called _ frame :: log => frame :: living log
  | .destroyed frame :: log => (living log).erase frame
  | _ :: log => living log

/-- How many of the frames that are there use the cache, and the most there were at once. -/
def smallLiving (size : Nat → Nat) (log : List (FrameEvent T)) : Nat :=
  (living log).countP fun frame => size frame ≤ mallocCacheItemSize

def peak (size : Nat → Nat) : List (FrameEvent T) → Nat
  | [] => 0
  | event :: log => max (peak size log) (smallLiving size (event :: log))

/-- The destruction of a frame that is too large for the cache. -/
def FrameEvent.deletesLarge (size : Nat → Nat) : FrameEvent T → Bool
  | .destroyed frame => mallocCacheItemSize < size frame
  | _ => false

/-- **The memory behind a log.** Between two events any coroutine that is there may write
into its frame. -/
inductive Replays (size : Nat → Nat) : List (FrameEvent T) → FrameMemory → Prop
  | init : Replays size [] FrameMemory.init
  | event {log : List (FrameEvent T)} {memory : FrameMemory} (event : FrameEvent T) {place : Nat}
      (replays : Replays size log memory) (free : memory.cache.heap place = none) :
      Replays size (event :: log) (memory.take size place event)
  | written {log : List (FrameEvent T)} {memory : FrameMemory} {next : Nat → Option Nat}
      (replays : Replays size log memory)
      (own : ∀ block, (∀ frame ∈ living log, memory.block frame ≠ block) →
        next block = memory.cache.next block) :
      Replays size log (memory.written next)

/-! ### Which frames are there -/

section Living

variable [DecidableEq T]

/-- Every event is in order. -/
def InOrder (log : List (FrameEvent T)) : Prop := ∀ frame, ∃ life, lifeOf log frame = some life

/-- Called and not destroyed. -/
def Life.There : Life T → Prop
  | .unborn => False
  | .destroyed _ _ => False
  | _ => True

theorem InOrder.of_cons {event : FrameEvent T} {log : List (FrameEvent T)}
    (ordered : InOrder (event :: log)) : InOrder log := by
  intro frame
  obtain ⟨life, accepted⟩ := ordered frame
  exact lifeOf_suffix (show lifeOf ([event] ++ log) frame = some life from accepted)

/-- The life of the frame of the next event. -/
theorem InOrder.next {event : FrameEvent T} {log : List (FrameEvent T)}
    (ordered : InOrder (event :: log)) :
    ∃ before after, lifeOf log event.about = some before ∧ before.take event = some after := by
  obtain ⟨life, accepted⟩ := ordered event.about
  rw [lifeOf_cons_self] at accepted
  obtain ⟨before, found, took⟩ := Option.bind_eq_some_iff.mp accepted
  exact ⟨before, life, found, took⟩

/-- A frame is there from its call to its destruction. -/
theorem take_there {event : FrameEvent T} {before after : Life T}
    (took : before.take event = some after) :
    (before.There ↔ event.caller event.about = none) ∧
      (after.There ↔ event.destroys event.about = false) := by
  cases event <;> cases before <;>
    simp only [Life.take, Option.some.injEq, reduceCtorEq, Option.ite_none_right_eq_some] at took
  all_goals
    first
      | subst took
      | obtain ⟨-, rfl⟩ := took
    simp [Life.There, FrameEvent.caller, FrameEvent.destroys, FrameEvent.about]

/-- The frames that are there, each once, are those whose life says so. -/
theorem living_there {log : List (FrameEvent T)} (ordered : InOrder log) :
    (living log).Nodup ∧ ∀ frame life, lifeOf log frame = some life →
      (frame ∈ living log ↔ life.There) := by
  induction log with
  | nil =>
    refine ⟨List.nodup_nil, fun frame life accepted => ?_⟩
    obtain rfl := Option.some.inj accepted
    exact ⟨fun impossible => absurd impossible List.not_mem_nil, False.elim⟩
  | cons event log ih =>
    obtain ⟨nodup, there⟩ := ih ordered.of_cons
    obtain ⟨before, after, found, took⟩ := ordered.next
    have own : lifeOf (event :: log) event.about = some after := by
      rw [lifeOf_cons_self, found]
      exact took
    obtain ⟨was, is⟩ := take_there took
    have unlike : ∀ frame life, event.about ≠ frame → lifeOf (event :: log) frame = some life →
        (frame ∈ living log ↔ life.There) := by
      intro frame life other accepted
      exact there frame life ((lifeOf_cons_of_ne other log).symm.trans accepted)
    have same : ∀ frame life, event.about = frame → lifeOf (event :: log) frame = some life →
        life = after := by
      rintro frame life rfl accepted
      exact Option.some.inj (accepted.symm.trans own)
    have quiet : living (event :: log) = living log → event.caller event.about = none →
        event.destroys event.about = false → (living (event :: log)).Nodup ∧ ∀ frame life,
        lifeOf (event :: log) frame = some life → (frame ∈ living (event :: log) ↔ life.There) := by
      intro kept uncalled undestroyed
      rw [kept]
      refine ⟨nodup, fun frame life accepted => ?_⟩
      by_cases other : event.about = frame
      · rw [same frame life other accepted, ← other, there event.about before found]
        exact iff_of_true (was.mpr uncalled) (is.mpr undestroyed)
      · exact unlike frame life other accepted
    cases event with
    | called caller target =>
      have new : target ∉ living log := by
        rw [there target before found, was]
        simp [FrameEvent.caller, FrameEvent.about]
      refine ⟨List.nodup_cons.mpr ⟨new, nodup⟩, fun frame life accepted => ?_⟩
      by_cases other : target = frame
      · rw [same frame life other accepted, is, ← other]
        exact ⟨fun _ => rfl, fun _ => List.mem_cons_self⟩
      · rw [← unlike frame life other accepted, living, List.mem_cons, or_iff_right (Ne.symm other)]
    | destroyed target =>
      refine ⟨nodup.erase target, fun frame life accepted => ?_⟩
      rw [living, nodup.mem_erase_iff]
      by_cases other : target = frame
      · rw [same frame life other accepted, is]
        simp [FrameEvent.destroys, FrameEvent.about, other]
      · rw [← unlike frame life other accepted, and_iff_right (Ne.symm other)]
    | _ => exact quiet rfl rfl rfl

end Living

/-! ### What is where -/

/-- The bytes of the block of a frame. -/
def room (size : Nat → Nat) (frame : Nat) : Nat := max mallocCacheItemSize (size frame)

/-- **Each block is that of one frame, or one item of the list.** -/
structure Housing (size : Nat → Nat) (frames : List Nat) (memory : FrameMemory)
    (items : List Nat) : Prop where
  listed : Links memory.cache.next memory.cache.mallocCacheHead items
  spare : ∀ item ∈ items, memory.cache.heap item = some mallocCacheItemSize
  housed : ∀ frame ∈ frames, memory.cache.heap (memory.block frame) = some (room size frame)
  apart : ∀ frame ∈ frames, ∀ other ∈ frames, memory.block frame = memory.block other →
    frame = other
  unlisted : ∀ frame ∈ frames, memory.block frame ∉ items
  known : ∀ block, memory.cache.heap block ≠ none →
    block ∈ items ∨ ∃ frame ∈ frames, memory.block frame = block

namespace Housing

variable {size : Nat → Nat} {frames : List Nat} {memory : FrameMemory} {items rest : List Nat}
  {frame item spot bytes : Nat} {next : Nat → Option Nat} {faults : List Fault}

theorem init : Housing size [] FrameMemory.init [] where
  listed := .nil
  spare := fun _ member => absurd member List.not_mem_nil
  housed := fun _ member => absurd member List.not_mem_nil
  apart := fun _ member => absurd member List.not_mem_nil
  unlisted := fun _ member => absurd member List.not_mem_nil
  known := fun _ allocated => absurd rfl allocated

/-- A new frame gets a block that no other one has. -/
theorem join (housing : Housing size frames memory items) (fresh : frame ∉ frames)
    {cache : MallocCache} (listed : Links cache.next cache.mallocCacheHead rest)
    (fewer : ∀ item ∈ rest, item ∈ items) (off : spot ∉ rest)
    (covered : ∀ item ∈ items, item = spot ∨ item ∈ rest)
    (unused : ∀ other ∈ frames, memory.block other ≠ spot)
    (given : cache.heap spot = some (room size frame))
    (kept : ∀ block, block ≠ spot → cache.heap block = memory.cache.heap block) :
    Housing size (frame :: frames) ⟨cache, Function.update memory.block frame spot⟩ rest := by
  have own : Function.update memory.block frame spot frame = spot := Function.update_self _ _ _
  have moved : ∀ other ∈ frames, Function.update memory.block frame spot other =
      memory.block other := by
    intro other member
    exact Function.update_of_ne (ne_of_mem_of_not_mem member fresh) _ _
  have taken : ∀ other ∈ frames, Function.update memory.block frame spot other ≠
      Function.update memory.block frame spot frame := by
    intro other member
    rw [moved other member, own]
    exact unused other member
  refine ⟨listed, fun item member => ?_, ?_, ?_, ?_, fun block allocated => ?_⟩ <;> dsimp only
  · rw [kept item (ne_of_mem_of_not_mem member off), housing.spare item (fewer item member)]
  · refine List.forall_mem_cons.mpr ⟨?_, fun other member => ?_⟩
    · rw [own, given]
    · rw [moved other member, kept _ (unused other member), housing.housed other member]
  · refine List.forall_mem_cons.mpr ⟨?_, fun other member => ?_⟩
    · refine List.forall_mem_cons.mpr ⟨fun _ => rfl, fun other member same => ?_⟩
      exact absurd same.symm (taken other member)
    · refine List.forall_mem_cons.mpr ⟨fun same => absurd same (taken other member), ?_⟩
      intro third among same
      rw [moved other member, moved third among] at same
      exact housing.apart other member third among same
  · refine List.forall_mem_cons.mpr ⟨?_, fun other member within => ?_⟩
    · rw [own]
      exact off
    · rw [moved other member] at within
      exact housing.unlisted other member (fewer _ within)
  · by_cases here : block = spot
    · exact Or.inr ⟨frame, List.mem_cons_self, own.trans here.symm⟩
    · rw [kept block here] at allocated
      rcases housing.known block allocated with within | ⟨other, member, same⟩
      · exact Or.inl ((covered block within).resolve_left here)
      · exact Or.inr ⟨other, List.mem_cons_of_mem _ member, (moved other member).trans same⟩

/-- The heap has a new block for a frame. -/
theorem allocate (housing : Housing size frames memory items) (fresh : frame ∉ frames)
    (free : memory.cache.heap spot = none) (enough : bytes = room size frame) :
    Housing size (frame :: frames) ⟨memory.cache.newChars spot bytes,
      Function.update memory.block frame spot⟩ items := by
  subst enough
  have elsewhere : ∀ block bytes, memory.cache.heap block = some bytes → block ≠ spot := by
    rintro block bytes allocated rfl
    cases free.symm.trans allocated
  refine housing.join fresh housing.listed (fun _ member => member) (fun member => ?_)
    (fun _ member => Or.inr member) (fun other member => ?_) (Function.update_self _ _ _)
    fun block different => Function.update_of_ne different _ _
  · exact elsewhere spot _ (housing.spare spot member) rfl
  · exact elsewhere _ _ (housing.housed other member)

/-- The first item of the list becomes a frame. -/
theorem reuse (housing : Housing size frames memory items) (fresh : frame ∉ frames)
    (small : size frame ≤ mallocCacheItemSize)
    (head : memory.cache.mallocCacheHead = some item) :
    ∃ rest, items = item :: rest ∧ Housing size (frame :: frames)
      ⟨{ memory.cache with mallocCacheHead := memory.cache.next item },
        Function.update memory.block frame item⟩ rest := by
  have listed := housing.listed
  rw [head] at listed
  have nodup := listed.nodup
  obtain ⟨rest, rfl, follow⟩ := listed.pop
  refine ⟨rest, rfl, housing.join fresh follow (fun _ => List.mem_cons_of_mem _)
    (List.nodup_cons.mp nodup).1 (fun _ => List.mem_cons.mp) (fun other member same => ?_) ?_
    fun _ _ => rfl⟩
  · exact housing.unlisted other member (same ▸ List.mem_cons_self)
  · rw [room, Nat.max_eq_left small]
    exact housing.spare item List.mem_cons_self

/-- The block of a frame that goes is put in front of the list. -/
theorem putBack (housing : Housing size frames memory items) (nodup : frames.Nodup)
    (member : frame ∈ frames) (small : size frame ≤ mallocCacheItemSize) :
    Housing size (frames.erase frame) ⟨memory.cache.mallocCacheFree (memory.block frame),
      memory.block⟩ (memory.block frame :: items) := by
  have touched := MallocCache.touch_of_some (housing.housed frame member)
  rw [MallocCache.mallocCacheFree, touched]
  have stays : ∀ other ∈ frames.erase frame, other ≠ frame ∧ other ∈ frames := by
    intro other left
    exact nodup.mem_erase_iff.mp left
  refine ⟨housing.listed.push (housing.unlisted frame member), ?_, ?_, ?_, ?_, ?_⟩
  · refine List.forall_mem_cons.mpr ⟨?_, housing.spare⟩
    exact (housing.housed frame member).trans (congrArg some (Nat.max_eq_left small))
  · exact fun other left => housing.housed other (stays other left).2
  · exact fun other left third listed => housing.apart other (stays other left).2 third
      (stays third listed).2
  · intro other left listed
    rcases List.mem_cons.mp listed with same | listed
    · exact (stays other left).1 (housing.apart other (stays other left).2 frame member same)
    · exact housing.unlisted other (stays other left).2 listed
  · intro block allocated
    rcases housing.known block allocated with listed | ⟨other, left, same⟩
    · exact Or.inl (List.mem_cons_of_mem _ listed)
    · by_cases gone : other = frame
      · rw [← same, gone]
        exact Or.inl List.mem_cons_self
      · exact Or.inr ⟨other, nodup.mem_erase_iff.mpr ⟨gone, left⟩, same⟩

/-- The block of a frame that goes is deleted. -/
theorem release (housing : Housing size frames memory items) (nodup : frames.Nodup)
    (member : frame ∈ frames) :
    Housing size (frames.erase frame) ⟨⟨Function.update memory.cache.heap (memory.block frame) none,
      memory.cache.next, memory.cache.mallocCacheHead, faults⟩, memory.block⟩ items := by
  have stays : ∀ other ∈ frames.erase frame, other ∈ frames ∧
      memory.block other ≠ memory.block frame := by
    intro other left
    obtain ⟨different, among⟩ := nodup.mem_erase_iff.mp left
    exact ⟨among, fun same => different (housing.apart other among frame member same)⟩
  refine ⟨housing.listed, fun item listed => ?_, fun other left => ?_, ?_, ?_, ?_⟩ <;> dsimp only
  · rw [Function.update_of_ne, housing.spare item listed]
    rintro rfl
    exact housing.unlisted frame member listed
  · rw [Function.update_of_ne (stays other left).2, housing.housed other (stays other left).1]
  · exact fun other left third listed => housing.apart other (stays other left).1 third
      (stays third listed).1
  · exact fun other left => housing.unlisted other (stays other left).1
  · intro block allocated
    have different : block ≠ memory.block frame := by
      rintro rfl
      exact allocated (Function.update_self _ _ _)
    rw [Function.update_of_ne different] at allocated
    refine (housing.known block allocated).imp_right ?_
    rintro ⟨other, left, same⟩
    refine ⟨other, nodup.mem_erase_iff.mpr ⟨?_, left⟩, same⟩
    rintro rfl
    exact different same.symm

/-- The frames write into their blocks. -/
theorem write (housing : Housing size frames memory items)
    (own : ∀ block, (∀ frame ∈ frames, memory.block frame ≠ block) →
      next block = memory.cache.next block) :
    Housing size frames (memory.written next) items where
  listed := housing.listed.congr fun item member =>
    own item fun frame among same => housing.unlisted frame among (same ▸ member)
  spare := housing.spare
  housed := housing.housed
  apart := housing.apart
  unlisted := housing.unlisted
  known := housing.known

end Housing

/-! ### One event -/

/-- **What a log leaves in the memory.** -/
structure Tidy (size : Nat → Nat) (log : List (FrameEvent T)) (memory : FrameMemory)
    (items : List Nat) : Prop extends Housing size (living log) memory items where
  counted : smallLiving size log + items.length = peak size log
  faults : memory.cache.faults.length = log.countP (FrameEvent.deletesLarge size)
  scalar : ∀ fault ∈ memory.cache.faults, ∃ block, fault = .scalarDelete block

theorem smallLiving_called (size : Nat → Nat) (caller : Option Nat) (frame : Nat)
    (log : List (FrameEvent T)) : smallLiving size (.called caller frame :: log) =
      smallLiving size log + if size frame ≤ mallocCacheItemSize then 1 else 0 := by
  rw [smallLiving, living, List.countP_cons, smallLiving]
  simp only [decide_eq_true_eq]

theorem smallLiving_destroyed (size : Nat → Nat) {frame : Nat} {log : List (FrameEvent T)}
    (there : frame ∈ living log) :
    smallLiving size (.destroyed frame :: log) +
      (if size frame ≤ mallocCacheItemSize then 1 else 0) = smallLiving size log := by
  have parts := (List.perm_cons_erase there).countP_eq
    fun frame => decide (size frame ≤ mallocCacheItemSize)
  rw [List.countP_cons] at parts
  simp only [decide_eq_true_eq] at parts
  exact parts.symm

namespace Tidy

variable {size : Nat → Nat} {log : List (FrameEvent T)} {memory : FrameMemory}
  {items : List Nat} {caller : Option Nat} {frame place : Nat}

theorem init : Tidy size ([] : List (FrameEvent T)) FrameMemory.init [] where
  toHousing := .init
  counted := rfl
  faults := rfl
  scalar := fun _ member => absurd member List.not_mem_nil

/-- A coroutine is called. -/
theorem called (tidy : Tidy size log memory items) (fresh : frame ∉ living log)
    (free : memory.cache.heap place = none) :
    ∃ items, Tidy size (.called caller frame :: log)
      (memory.take size place (.called caller frame : FrameEvent T)) items := by
  have counted := tidy.counted
  have more := smallLiving_called size caller frame log
  rw [FrameMemory.take]
  by_cases small : size frame ≤ mallocCacheItemSize
  · rw [if_pos small] at more
    rw [MallocCache.operatorNew, if_pos small, MallocCache.mallocCache]
    cases head : memory.cache.mallocCacheHead with
    | none =>
      have housing := tidy.toHousing.allocate fresh free (Nat.max_eq_left small).symm
      have listed := tidy.listed
      rw [head] at listed
      obtain rfl := listed.of_none
      refine ⟨[], housing, ?_, tidy.faults, tidy.scalar⟩
      rw [peak, more, ← counted]
      exact (Nat.max_eq_right (Nat.le_succ _)).symm
    | some item =>
      obtain ⟨rest, rfl, housing⟩ := tidy.toHousing.reuse fresh small head
      have touched := MallocCache.touch_of_some (tidy.spare item List.mem_cons_self)
      dsimp only
      rw [touched]
      refine ⟨rest, housing, ?_, tidy.faults, tidy.scalar⟩
      rw [List.length_cons] at counted
      rw [peak, more, ← counted]
      omega
  · rw [if_neg small] at more
    rw [MallocCache.operatorNew, if_neg small]
    have enough : size frame = room size frame := (Nat.max_eq_right (by omega)).symm
    refine ⟨items, tidy.toHousing.allocate fresh free enough, ?_, tidy.faults, tidy.scalar⟩
    rw [peak, more, ← counted]
    omega

/-- A frame is destroyed. -/
theorem destroyed (tidy : Tidy size log memory items) (nodup : (living log).Nodup)
    (there : frame ∈ living log) :
    ∃ items, Tidy size (.destroyed frame :: log)
      (memory.take size place (.destroyed frame : FrameEvent T)) items := by
  have counted := tidy.counted
  have fewer := smallLiving_destroyed size there
  have touched := MallocCache.touch_of_some (tidy.housed frame there)
  rw [FrameMemory.take]
  by_cases small : size frame ≤ mallocCacheItemSize
  · have housing := tidy.toHousing.putBack nodup there small
    rw [if_pos small] at fewer
    rw [MallocCache.operatorDelete, if_pos small]
    refine ⟨memory.block frame :: items, housing, ?_, ?_, ?_⟩
    · rw [peak, ← counted, List.length_cons]
      omega
    · rw [List.countP_cons, FrameEvent.deletesLarge, if_neg (by simpa using small)]
      dsimp only
      rw [MallocCache.mallocCacheFree, touched]
      exact tidy.faults
    · dsimp only
      rw [MallocCache.mallocCacheFree, touched]
      exact tidy.scalar
  · rw [if_neg small] at fewer
    rw [MallocCache.operatorDelete, if_neg small, MallocCache.deleteScalar,
      MallocCache.deleteChars, touched]
    refine ⟨items, tidy.toHousing.release nodup there, ?_, ?_, ?_⟩
    · rw [peak, ← counted]
      omega
    · rw [List.countP_cons, FrameEvent.deletesLarge, if_pos (by simpa using small)]
      exact congrArg (· + 1) tidy.faults
    · exact List.forall_mem_cons.mpr ⟨⟨_, rfl⟩, tidy.scalar⟩

/-- **One event.** -/
theorem event [DecidableEq T] (tidy : Tidy size log memory items) {event : FrameEvent T}
    (ordered : InOrder (event :: log)) (free : memory.cache.heap place = none) :
    ∃ items, Tidy size (event :: log) (memory.take size place event) items := by
  obtain ⟨nodup, there⟩ := living_there ordered.of_cons
  obtain ⟨before, after, found, took⟩ := ordered.next
  obtain ⟨was, -⟩ := take_there took
  rw [← there event.about before found] at was
  have quiet : living (event :: log) = living log → event.caller event.about = none →
      event.deletesLarge size = false →
      ∃ items, Tidy size (event :: log)
        { memory with cache := memory.cache.touch (memory.block event.about) } items := by
    intro kept uncalled undestroyed
    have same : smallLiving size (event :: log) = smallLiving size log := by
      rw [smallLiving, kept, smallLiving]
    rw [MallocCache.touch_of_some (tidy.housed event.about (was.mpr uncalled))]
    refine ⟨items, kept.symm ▸ tidy.toHousing, ?_, ?_, tidy.scalar⟩
    · rw [peak, same, ← tidy.counted]
      exact (Nat.max_eq_left (Nat.le_add_right _ _)).symm
    · rw [List.countP_cons, undestroyed]
      exact tidy.faults
  cases event with
  | called caller frame =>
    have fresh : frame ∉ living log := by
      intro member
      have uncalled := was.mp member
      rw [FrameEvent.about, FrameEvent.caller, if_pos rfl] at uncalled
      cases uncalled
    exact tidy.called fresh free
  | destroyed frame => exact tidy.destroyed nodup (was.mpr rfl)
  | _ => exact quiet rfl rfl rfl

end Tidy

/-- **Every log that is in order**, by induction on how its memory comes about. -/
theorem tidy_of_replays [DecidableEq T] {size : Nat → Nat} {log : List (FrameEvent T)}
    {memory : FrameMemory} (replays : Replays size log memory) (ordered : InOrder log) :
    ∃ items, Tidy size log memory items := by
  induction replays with
  | init => exact ⟨[], .init⟩
  | event event _ free ih =>
    obtain ⟨items, tidy⟩ := ih ordered.of_cons
    exact tidy.event ordered free
  | written _ own ih =>
    obtain ⟨items, tidy⟩ := ih ordered
    exact ⟨items, tidy.toHousing.write own, tidy.counted, tidy.faults, tidy.scalar⟩

/-! ### The end of the thread -/

/-- **`clear_malloc_cache` ends**, having deleted what is in the list, by induction on it. -/
theorem clearMallocCache_of_links (cache : MallocCache) {items : List Nat} {turns : Nat}
    (listed : Links cache.next cache.mallocCacheHead items)
    (spare : ∀ item ∈ items, cache.heap item = some mallocCacheItemSize)
    (enough : items.length < turns) :
    ∃ after, cache.clearMallocCache turns = some after ∧ after.mallocCacheHead = none ∧
      after.faults = cache.faults ∧
      ∀ block, after.heap block = if block ∈ items then none else cache.heap block := by
  induction items generalizing cache turns with
  | nil =>
    obtain ⟨turns, rfl⟩ := Nat.exists_eq_succ_of_ne_zero (Nat.ne_of_gt enough)
    cases head : cache.mallocCacheHead with
    | some item =>
      rw [head] at listed
      obtain ⟨rest, impossible, -⟩ := listed.pop
      cases impossible
    | none =>
      refine ⟨cache, ?_, head, rfl, fun block => (if_neg List.not_mem_nil).symm⟩
      rw [MallocCache.clearMallocCache, head]
  | cons item items ih =>
    obtain ⟨turns, rfl⟩ := Nat.exists_eq_succ_of_ne_zero (Nat.ne_of_gt (Nat.zero_lt_of_lt enough))
    obtain ⟨off, -⟩ := List.nodup_cons.mp listed.nodup
    have there := spare item List.mem_cons_self
    have touched := MallocCache.touch_of_some there
    have head : cache.mallocCacheHead = some item := by
      generalize cache.mallocCacheHead = start at listed
      cases listed
      rfl
    rw [head] at listed
    obtain ⟨rest, same, follow⟩ := listed.pop
    obtain ⟨-, rfl⟩ := List.cons.inj same
    have left : ∀ other ∈ items, Function.update cache.heap item none other =
        some mallocCacheItemSize := by
      intro other member
      rw [Function.update_of_ne (ne_of_mem_of_not_mem member off)]
      exact spare other (List.mem_cons_of_mem _ member)
    obtain ⟨after, cleared, empty, faults, heap⟩ := ih
      ⟨Function.update cache.heap item none, cache.next, cache.next item, cache.faults⟩
      follow left (Nat.lt_of_succ_lt_succ enough)
    refine ⟨after, ?_, empty, faults, fun block => ?_⟩
    · rw [MallocCache.clearMallocCache, head]
      dsimp only
      rw [touched, MallocCache.deleteChars, touched]
      exact cleared
    · rw [heap block]
      dsimp only
      by_cases here : block = item
      · rw [here, if_pos List.mem_cons_self, if_neg off]
        exact Function.update_self _ _ _
      · rw [Function.update_of_ne here]
        by_cases member : block ∈ items
        · rw [if_pos member, if_pos (List.mem_cons_of_mem _ member)]
        · rw [if_neg member,
            if_neg fun listed => member ((List.mem_cons.mp listed).resolve_left here)]

/-! ### Every run -/

theorem Machine.Orderly.inOrder [DecidableEq T] {machine : Machine T} (orderly : machine.Orderly) :
    InOrder machine.frames.log := by
  intro frame
  obtain ⟨life, accepted, -⟩ := orderly.life frame
  exact ⟨life, accepted⟩

/-- What is there, by the events. -/
theorem mem_living [DecidableEq T] {log : List (FrameEvent T)} (ordered : InOrder log)
    (frame : Nat) : frame ∈ living log ↔
      (∃ caller, .called caller frame ∈ log) ∧ destructionsOf log frame = 0 := by
  obtain ⟨life, accepted⟩ := ordered frame
  have census := census_of_lifeOf accepted
  rw [(living_there ordered).2 frame life accepted, census.destructions]
  simp only [census.called]
  cases life <;> simp [Life.There, Life.caller, Life.destructions]

/-- **Frames do not overlap**, with each other or with what was given back, and what is
deleted is there. -/
theorem housed_of_run (size : Nat → Nat) {acts : List (FrameAct T)} {machine : Machine T}
    {memory : FrameMemory} (ran : Machine.run acts Machine.init = some machine)
    (replays : Replays size machine.frames.log memory) :
    (∃ items, Housing size (living machine.frames.log) memory items) ∧
      (∀ frame, frame ∈ living machine.frames.log ↔
        (∃ caller, .called caller frame ∈ machine.frames.log) ∧
        destructionsOf machine.frames.log frame = 0) ∧
      (∀ fault ∈ memory.cache.faults, ∃ block, fault = .scalarDelete block) ∧
      (memory.cache.faults = [] ↔ ∀ frame, .destroyed frame ∈ machine.frames.log →
        size frame ≤ mallocCacheItemSize) := by
  classical
  have ordered := (Machine.run_orderly Machine.init_orderly ran).inOrder
  obtain ⟨items, tidy⟩ := tidy_of_replays replays ordered
  refine ⟨⟨items, tidy.toHousing⟩, mem_living ordered, tidy.scalar, ?_⟩
  rw [← List.length_eq_zero_iff, tidy.faults, List.countP_eq_zero]
  refine ⟨fun none frame member => ?_, fun small event member => ?_⟩
  · have cached := none _ member
    rw [FrameEvent.deletesLarge, decide_eq_true_eq] at cached
    exact Nat.not_lt.mp cached
  · cases event with
    | destroyed frame =>
      rw [FrameEvent.deletesLarge, decide_eq_true_eq]
      exact Nat.not_lt.mpr (small frame member)
    | _ => exact Bool.false_ne_true

/-- **The cache is as large as it has to be**: what is in it and the small frames are
as many as there ever were at once. When it is cleared nothing else is left than the frames
that are there. -/
theorem peak_of_run (size : Nat → Nat) {acts : List (FrameAct T)} {machine : Machine T}
    {memory : FrameMemory} (ran : Machine.run acts Machine.init = some machine)
    (replays : Replays size machine.frames.log memory) :
    ∃ items, Links memory.cache.next memory.cache.mallocCacheHead items ∧
      smallLiving size machine.frames.log + items.length = peak size machine.frames.log ∧
      ∀ turns, items.length < turns → ∃ after, memory.cache.clearMallocCache turns = some after ∧
        after.mallocCacheHead = none ∧ after.faults = memory.cache.faults ∧
        ∀ block, after.heap block ≠ none ↔
          ∃ frame ∈ living machine.frames.log, memory.block frame = block := by
  classical
  have ordered := (Machine.run_orderly Machine.init_orderly ran).inOrder
  obtain ⟨items, tidy⟩ := tidy_of_replays replays ordered
  refine ⟨items, tidy.listed, tidy.counted, fun turns enough => ?_⟩
  obtain ⟨after, cleared, empty, faults, heap⟩ :=
    clearMallocCache_of_links memory.cache tidy.listed tidy.spare enough
  refine ⟨after, cleared, empty, faults, fun block => ?_⟩
  rw [heap block]
  refine ⟨fun left => ?_, ?_⟩
  · obtain ⟨unlisted, allocated⟩ := ite_ne_left_iff.mp left
    exact (tidy.known block (Ne.symm allocated)).resolve_left unlisted
  · rintro ⟨frame, there, rfl⟩
    rw [if_neg (tidy.unlisted frame there), tidy.housed frame there]
    exact Option.some_ne_none _

/-! ### A heap that uses no place twice -/

section Replay

variable {cache : MallocCache} {block place bytes other : Nat}

theorem heap_touch (cache : MallocCache) (block : Nat) : (cache.touch block).heap = cache.heap := by
  rw [MallocCache.touch]
  split
  · rfl
  · rfl

theorem heap_operatorNew (different : block ≠ place) :
    (cache.operatorNew bytes place).2.heap block = cache.heap block := by
  rw [MallocCache.operatorNew]
  split
  · rw [MallocCache.mallocCache]
    split
    · exact congrFun (heap_touch cache _) block
    · exact Function.update_of_ne different _ _
  · exact Function.update_of_ne different _ _

theorem heap_operatorDelete (free : cache.heap block = none) :
    (cache.operatorDelete other bytes).heap block = none := by
  rw [MallocCache.operatorDelete]
  split
  · exact (congrFun (heap_touch cache other) block).trans free
  · show Function.update (cache.touch other).heap other none block = none
    rw [heap_touch]
    by_cases here : block = other
    · rw [here, Function.update_self]
    · rw [Function.update_of_ne here, free]

/-- A new block is only where the heap puts it. -/
theorem heap_take {size : Nat → Nat} {memory : FrameMemory} {event : FrameEvent T}
    (different : block ≠ place) (free : memory.cache.heap block = none) :
    (memory.take size place event).cache.heap block = none := by
  cases event with
  | called _ frame => exact (heap_operatorNew different).trans free
  | destroyed frame => exact heap_operatorDelete free
  | _ => exact (congrFun (heap_touch memory.cache _) block).trans free

end Replay

/-- The memory behind a log where each new block is put behind all earlier ones. -/
def replay (size : Nat → Nat) : List (FrameEvent T) → FrameMemory
  | [] => FrameMemory.init
  | event :: log => (replay size log).take size log.length event

theorem replay_free (size : Nat → Nat) {log : List (FrameEvent T)} {block : Nat}
    (behind : log.length ≤ block) : (replay size log).cache.heap block = none := by
  induction log with
  | nil => rfl
  | cons event log ih =>
    have later : log.length < block := behind
    exact heap_take (Nat.ne_of_gt later) (ih (Nat.le_of_lt later))

theorem replays_replay (size : Nat → Nat) (log : List (FrameEvent T)) :
    Replays size log (replay size log) := by
  induction log with
  | nil => exact .init
  | cons event log ih => exact .event event ih (replay_free size (Nat.le_refl _))

/-- Two coroutines one in the other, and a third one behind them in the block of the first. -/
def threeCalls : List (FrameAct Nat) :=
  [.start, .call, .wait, .resume 1, .finish 5, .endExpression, .finish 6, .start]

theorem housed_of_run_three : ∃ machine : Machine Nat,
    Machine.run threeCalls Machine.init = some machine ∧
      (replay (fun _ => 300) machine.frames.log).block 2 =
        (replay (fun _ => 300) machine.frames.log).block 0 ∧
      ∃ items, Housing (fun _ => 300) (living machine.frames.log)
        (replay (fun _ => 300) machine.frames.log) items :=
  ⟨_, rfl, rfl, (@housed_of_run Nat (fun _ => 300) threeCalls _ _ rfl
    (replays_replay (fun _ => 300) _)).1⟩

theorem peak_of_run_three : ∃ machine : Machine Nat,
    Machine.run threeCalls Machine.init = some machine ∧
      peak (fun _ => 300) machine.frames.log = 2 ∧
      ∃ items, Links (replay (fun _ => 300) machine.frames.log).cache.next
          (replay (fun _ => 300) machine.frames.log).cache.mallocCacheHead items ∧
        smallLiving (fun _ => 300) machine.frames.log + items.length = 2 := by
  obtain ⟨items, listed, counted, -⟩ := @peak_of_run Nat (fun _ => 300) threeCalls _ _ rfl
    (replays_replay (fun _ => 300) _)
  exact ⟨_, rfl, rfl, items, listed, counted⟩

end Fuseuring
