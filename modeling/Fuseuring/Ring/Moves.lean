/-
**The steps of a coroutine, and the crew.**

An operation of the running coroutine is a step of its `Solo`, or none where the ring is full and
entries are submitted first. The others stay as they are: `Kept.apart` says that
none of them is the running one, `Kept.held_apart` that no slot is held twice.

With nothing in hand, the entries of the ring are all awaited: `Change.awaited_drop` and its
siblings follow the awaited ones through a step.
-/

import Fuseuring.Ring.Mirrors

namespace Fuseuring

open Interaction

/-! ### What the invariant says of the running coroutine -/

section Current

variable {slots entries : Nat} {s : Sys} {ghost : Ghost} {task : Nat} {crew : Crew}

theorem Kept.runs (kept : Kept slots entries s ghost) (current : s.current = some task) :
    ∃ back gaveUp, Runs s ghost task back gaveUp := by
  cases pc : s.pc with
  | running task' back thread gaveUp =>
    rw [Sys.current, pc, Option.some.injEq] at current
    subst current
    exact ⟨back, gaveUp, (kept.running pc).1⟩
  | polling task' back resume gaveUp =>
    rw [Sys.current, pc, Option.some.injEq] at current
    subst current
    have control := kept.control
    simp only [Sys.Control, pc] at control
    exact ⟨back, gaveUp, control.1⟩
  | _ =>
    rw [Sys.current, pc] at current
    cases current

/-- The slots of the running coroutine are those in hand. -/
theorem Kept.slot_iff (kept : Kept slots entries s ghost) (current : s.current = some task)
    (fuseIo : FuseIo) : (task, fuseIo) ∈ s.vals ↔ ghost.hand.fuseIo = some fuseIo := by
  obtain ⟨back, gaveUp, runs⟩ := kept.runs current
  have mine : ∀ named, ghost.hand.fuseIo = some named → (task, named) ∈ s.vals := by
    intro named slot
    refine kept.holders.shared.mem_iff.mpr ?_
    rw [Ghost.held, slot, ← runs.same]
    exact List.mem_append_left _ List.mem_cons_self
  refine ⟨fun member => ?_, mine fuseIo⟩
  cases slot : ghost.hand.fuseIo with
  | none => exact absurd (List.mem_map_of_mem member) (runs.outside slot)
  | some named =>
    have same := List.inj_on_of_nodup_map kept.holders.tasks (mine named slot) member rfl
    rw [(Prod.mk.inj same).2]

/-- **The running coroutine does not wait.** -/
theorem Kept.apart (kept : Kept slots entries s ghost) (current : s.current = some task) :
    ∀ id awaiter, s.awaiters id = some awaiter → awaiter.awaiter.task ≠ task := by
  intro id awaiter pending same
  obtain ⟨waiting, member, rfl⟩ := kept.roster.listed id awaiter pending
  obtain ⟨found, pending', resumes⟩ := kept.roster.waits waiting member
  rw [pending, Option.some.injEq] at pending'
  subst pending'
  have waits : waiting.held ∈ ghost.roster.map Waiting.held := List.mem_map_of_mem member
  have held : (task, waiting.fuseIo) ∈ s.vals := by
    rw [← same, resumes.task]
    exact kept.holders.shared.mem_iff.mpr (List.mem_append_right _ waits)
  have slot := (kept.slot_iff current waiting.fuseIo).mp held
  exact kept.waiting_of_hand slot member rfl

/-- A coroutine that waits has been started. -/
theorem Kept.waiting_born (kept : Kept slots entries s ghost) {id : Nat}
    {awaiter : IoUringAwaiter Suspended} (pending : s.awaiters id = some awaiter) :
    awaiter.awaiter.task < s.started := by
  obtain ⟨waiting, member, rfl⟩ := kept.roster.listed id awaiter pending
  obtain ⟨found, pending', resumes⟩ := kept.roster.waits waiting member
  rw [pending, Option.some.injEq] at pending'
  subst pending'
  rw [resumes.task]
  exact kept.holders.born waiting.held (kept.holders.shared.mem_iff.mpr
    (List.mem_append_right _ (List.mem_map_of_mem member)))

/-- No coroutine waits twice. -/
theorem Kept.pending_unique (kept : Kept slots entries s ghost) {id id' : Nat}
    {awaiter awaiter' : IoUringAwaiter Suspended} (pending : s.awaiters id = some awaiter)
    (pending' : s.awaiters id' = some awaiter')
    (same : awaiter'.awaiter.task = awaiter.awaiter.task) : id' = id := by
  obtain ⟨waiting, member, rfl⟩ := kept.roster.listed id awaiter pending
  obtain ⟨waiting', member', rfl⟩ := kept.roster.listed id' awaiter' pending'
  obtain ⟨found, found_eq, resumes⟩ := kept.roster.waits waiting member
  obtain ⟨found', found_eq', resumes'⟩ := kept.roster.waits waiting' member'
  rw [pending, Option.some.injEq] at found_eq
  rw [pending', Option.some.injEq] at found_eq'
  subst found_eq found_eq'
  rw [kept.waiting_unique member' member
    (Or.inr (resumes'.task.symm.trans (same.trans resumes.task)))]

theorem Kept.own_unique (kept : Kept slots entries s ghost) {own : List SqeEntry}
    (split : s.sq = ghost.awaited ++ own) : own.map SqeEntry.content = ghost.hand.own := by
  obtain ⟨own', split', contents⟩ := kept.queues.queue
  rw [List.append_cancel_left (split.symm.trans split')]
  exact contents

/-- **Where the crew has the running coroutine**: at the same thread, with the same in hand. -/
theorem Kept.mirrored (kept : Kept slots entries s ghost) (mirrors : Mirrors s ghost.awaited crew)
    (current : s.current = some task) :
    ∃ hold thread own, crew.solos task = some ⟨hold, .running thread⟩ ∧ s.pc.At task thread ∧
      s.sq = ghost.awaited ++ own ∧ own.map SqeEntry.content = ghost.hand.own ∧
      hold.own = ghost.hand.own ∧
      (∀ fuseIo mem, hold.slot = some (fuseIo, mem) ↔
        (task, fuseIo) ∈ s.vals ∧ mem = s.mem fuseIo.slot) := by
  obtain ⟨back, gaveUp, runs⟩ := kept.runs current
  have born : crew.solos task ≠ none := by
    rw [Ne, mirrors.unborn]
    exact Nat.not_le.mpr runs.born
  obtain ⟨solo, found⟩ := Option.ne_none_iff_exists'.mp born
  have depicts := mirrors.depicts task solo found
  obtain ⟨hold, thread, own, rfl, place, split, contents⟩ := depicts.current current
  have mine := kept.own_unique split
  exact ⟨hold, thread, own, found, place, split, mine, contents.symm.trans mine, depicts.slot⟩

/-- The slot of the running coroutine and its memory. -/
theorem Kept.slot_of (kept : Kept slots entries s ghost) (current : s.current = some task)
    {hold : Hold} (slot : ∀ fuseIo mem, hold.slot = some (fuseIo, mem) ↔
      (task, fuseIo) ∈ s.vals ∧ mem = s.mem fuseIo.slot)
    {fuseIo : FuseIo} (named : ghost.hand.fuseIo = some fuseIo) :
    hold.slot = some (fuseIo, s.mem fuseIo.slot) :=
  (slot fuseIo _).mpr ⟨(kept.slot_iff current fuseIo).mpr named, rfl⟩

/-- The slots of two coroutines are different. -/
theorem Kept.held_apart (kept : Kept slots entries s ghost) {other : Nat}
    {fuseIo fuseIo' : FuseIo} (mine : (task, fuseIo) ∈ s.vals) (theirs : (other, fuseIo') ∈ s.vals)
    (different : other ≠ task) : fuseIo'.slot ≠ fuseIo.slot := by
  intro same
  have nodup := (List.nodup_append.mp kept.holders.nodup).2.1
  have equal : fuseIo' = fuseIo := by
    cases fuseIo
    cases fuseIo'
    exact congrArg FuseIo.mk same
  have pair := List.inj_on_of_nodup_map nodup theirs mine equal
  exact different (Prod.mk.inj pair).1

/-- A slot that is held is none of the pool. -/
theorem Kept.pool_apart (kept : Kept slots entries s ghost) {fuseIo fuseIo' : FuseIo}
    (mine : (task, fuseIo) ∈ s.vals) (pooled : fuseIo' ∈ s.ios) : fuseIo'.slot ≠ fuseIo.slot := by
  intro same
  have equal : fuseIo' = fuseIo := by
    cases fuseIo
    cases fuseIo'
    exact congrArg FuseIo.mk same
  exact (List.nodup_append.mp kept.holders.nodup).2.2 fuseIo' pooled fuseIo
    (List.mem_map_of_mem mine) equal

end Current

/-! ### The awaited entries through a step -/

section Awaited

variable {slots entries : Nat} {s s' : Sys} {ghost ghost' : Ghost} {act : Act}

/-- Where no coroutine comes to wait, the awaited entries leave the ring from its head. -/
theorem Change.awaited_drop (change : Change entries act s ghost s' ghost')
    (kept : Kept slots entries s ghost) (kept' : Kept slots entries s' ghost')
    (moving : s'.pc.phase ≠ .stopped) (awaiters : s'.awaiters = s.awaiters) {count : Nat}
    (within : count ≤ s.sq.length) (flight : s'.flight = s.flight ++ s.sq.take count) :
    ghost'.awaited = ghost.awaited.drop count := by
  have counted : s'.flight.length = s.flight.length + count := by
    rw [flight, List.length_append, List.length_take_of_le within]
  have stays : s'.flight = s.flight → ghost.awaited.drop count = ghost.awaited := by
    intro same
    have zero : count = 0 := by
      rw [same] at counted
      omega
    rw [zero, List.drop_zero]
  cases change with
  | quiet _ same _ _ awaited => rw [awaited, stays same.flight]
  | taken _ same _ _ awaited => rw [awaited, stays same.flight]
  | submitted _ _ _ _ count' _ within' _ flight' _ awaited =>
    rw [flight', List.length_append, List.length_take_of_le within'] at counted
    rw [awaited, Nat.add_left_cancel counted]
  | entered _ _ _ _ _ count' _ within' _ flight' _ awaited =>
    rw [flight', List.length_append, List.length_take_of_le within'] at counted
    rw [awaited, Nat.add_left_cancel counted]
  | parked _ _ _ waiting roster =>
    obtain ⟨awaiter, pending, -⟩ := kept'.roster.waits waiting (roster ▸ List.mem_cons_self)
    rw [awaiters] at pending
    obtain ⟨old, member, same⟩ := kept.roster.listed waiting.id awaiter pending
    have ids := kept'.roster.ids
    rw [roster, List.map_cons, List.nodup_cons] at ids
    exact absurd (List.mem_map.mpr ⟨old, member, same⟩) ids.1
  | stored _ _ _ _ flight' _ _ same => rw [same, stays flight']
  | resumed _ _ _ _ flight' _ _ _ _ awaited => rw [awaited, stays flight']
  | passed _ _ _ _ _ _ flight' _ _ same => rw [same, stays flight']
  | posted _ _ _ shorter => omega
  | stopped phase => exact absurd phase moving

/-- Where the queues stay as they are, so do the awaited entries. -/
theorem Change.awaited_same (change : Change entries act s ghost s' ghost')
    (kept : Kept slots entries s ghost) (kept' : Kept slots entries s' ghost')
    (moving : s'.pc.phase ≠ .stopped) (awaiters : s'.awaiters = s.awaiters)
    (flight : s'.flight = s.flight) : ghost'.awaited = ghost.awaited := by
  have dropped := change.awaited_drop kept kept' moving awaiters (Nat.zero_le _) (by simp [flight])
  rwa [List.drop_zero] at dropped

/-- Behind a `co_await` the whole ring is awaited. -/
theorem Change.awaited_parked (change : Change entries act s ghost s' ghost')
    (kept : Kept slots entries s ghost) (kept' : Kept slots entries s' ghost')
    (moving : s'.pc.phase ≠ .stopped) {awaiter : IoUringAwaiter Suspended}
    (new : s'.awaiters s.created = some awaiter) : ghost'.awaited = s'.sq := by
  have more : ∃ waiting ∈ ghost'.roster, waiting ∉ ghost.roster := by
    obtain ⟨waiting, member, named⟩ := kept'.roster.listed s.created awaiter new
    refine ⟨waiting, member, fun old => ?_⟩
    obtain ⟨found, pending, -⟩ := kept.roster.waits waiting old
    rw [named] at pending
    exact absurd (kept.queues.sound.fresh _ _ pending) (Nat.lt_irrefl _)
  obtain ⟨waiting, member, unlisted⟩ := more
  cases change with
  | quiet _ _ _ roster => exact absurd (roster ▸ member) unlisted
  | taken _ _ _ roster => exact absurd (roster ▸ member) unlisted
  | submitted _ _ _ _ _ _ _ _ _ roster => exact absurd (roster ▸ member) unlisted
  | entered _ _ _ _ _ _ _ _ _ _ roster => exact absurd (roster ▸ member) unlisted
  | parked _ _ _ _ _ awaited => exact awaited
  | stored _ _ _ _ _ _ _ same => exact absurd (same ▸ member) unlisted
  | resumed _ _ _ _ _ _ _ _ perm =>
    exact absurd (perm.mem_iff.mpr (List.mem_cons_of_mem _ member)) unlisted
  | passed _ _ _ _ _ _ _ _ _ same => exact absurd (same ▸ member) unlisted
  | posted _ _ _ _ _ same => exact absurd (same ▸ member) unlisted
  | stopped phase => exact absurd phase moving

/-- A pass leaves the ring alone. -/
theorem Change.awaited_handled (change : Change entries act s ghost s' ghost')
    (handled : s'.handled = s.handled + 1) : ghost'.awaited = ghost.awaited := by
  cases change with
  | quiet _ _ _ _ awaited => exact awaited
  | taken _ _ _ _ awaited => exact awaited
  | submitted _ _ same => omega
  | entered _ _ same => omega
  | parked _ same =>
    have := same.handled
    omega
  | stored _ _ _ _ _ _ _ same => rw [same]
  | resumed _ _ _ _ _ _ _ _ _ awaited => exact awaited
  | passed _ _ _ _ _ _ _ _ _ same => rw [same]
  | posted _ _ _ _ _ same => rw [same]
  | stopped _ same =>
    have := same.handled
    omega

end Awaited

/-! ### The steps of a coroutine -/

section Running

variable {slots entries : Nat} {s s' : Sys} {ghost : Ghost} {crew : Crew} {ring : FuseRing}
  {task : Nat} {back : Back} {thread : Thread coroutines Int} {gaveUp : Bool}
  {result : SubmitResult}

/-- **The awaited entries of the ring** leave it from its head, and a coroutine that comes
to wait adds those it has in hand. With the kernel are those that left it and are not completed. -/
inductive AwaitedStep (s : Sys) (crew : Crew) (awaited : List SqeEntry) :
    List SqeEntry → List SqeEntry → Prop
  | left (count : Nat) :
      AwaitedStep s crew awaited (s.flight ++ awaited.take count) (awaited.drop count)
  | posted (place : Nat) : AwaitedStep s crew awaited (s.flight.eraseIdx place) awaited
  | parked {task : Nat} {slot : Option (FuseIo × Mem)} {pairs : List (Nat × Sqe)}
      {thread : Thread coroutines Int} {resume : List Int → Thread coroutines Int}
      {own : List SqeEntry} :
      crew.solos task =
        some ⟨⟨slot, pairs.map fun entry => (entry.1, some entry.2)⟩, .running thread⟩ →
      thread.move = .performs (.complete (pairs.map fun entry => some entry.1)) resume →
      own.map SqeEntry.content = pairs.map (fun entry => (entry.1, some entry.2)) →
      AwaitedStep s crew awaited s.flight
        (awaited ++ tagged own (IoUringAwaiter.userData s.created pairs.length))

theorem AwaitedStep.same {awaited awaited' flight : List SqeEntry} (flying : flight = s.flight)
    (same : awaited' = awaited) : AwaitedStep s crew awaited flight awaited' := by
  have none : AwaitedStep s crew awaited (s.flight ++ awaited.take 0) (awaited.drop 0) := .left 0
  rw [List.take_zero, List.append_nil, List.drop_zero] at none
  exact flying ▸ same ▸ none

/-- **How a step moves the crew.** No `get_sqe` gives up where `io_uring_submit` succeeds, and a
completion is that of an entry which one of the coroutines awaits. -/
inductive Moved (ring : FuseRing) (s : Sys) (crew : Crew) : Act → Crew → Prop
  | stays (result : SubmitResult) : Moved ring s crew (.go result) crew
  | goesOn {result : SubmitResult} {task : Nat} {crew' : Crew} :
      crew.Step ring task .program crew' → Moved ring s crew (.go result) crew'
  | refused {result : SubmitResult} {task : Nat} {crew' : Crew} :
      succeeds s (.go result) = false → crew.Step ring task .refusal crew' →
      Moved ring s crew (.go result) crew'
  | posted {place : Nat} {res : Int} {bytes : List UInt8} {entry : SqeEntry} {id index : Nat}
      {awaiter : IoUringAwaiter Suspended} {crew' : Crew} : s.flight[place]? = some entry →
      entry.userData = some ⟨id, index⟩ → s.awaiters id = some awaiter →
      crew.Step ring awaiter.awaiter.task (.completion index res bytes) crew' →
      Moved ring s crew (.post place res bytes) crew'

theorem Moved.reaches {first : Crew} {act : Act} {crew' : Crew}
    (moved : Moved ring s crew act crew') (reached : Crew.Reaches ring first crew) :
    Crew.Reaches ring first crew' := by
  cases moved with
  | stays result => exact reached
  | goesOn step => exact reached.step step
  | refused _ step => exact reached.step step
  | posted _ _ _ step => exact reached.step step

/-- **The state behind a step still mirrors a crew**: the same one, or the next. -/
def Mirrored (slots entries : Nat) (ring : FuseRing) (act : Act) (s : Sys) (ghost : Ghost)
    (s' : Sys) (crew : Crew) : Prop :=
  ∃ ghost' crew', Kept slots entries s' ghost' ∧ Mirrors s' ghost'.awaited crew' ∧
    Moved ring s crew act crew' ∧ AwaitedStep s crew ghost.awaited s'.flight ghost'.awaited

theorem current_of_pc (pc : s.pc = .running task back thread gaveUp) : s.current = some task := by
  rw [Sys.current, pc]

/-- What holds of the running coroutine and of all others beside it. -/
theorem Mirrors.running (mirrors : Mirrors s ghost.awaited crew) (kept : Kept slots entries s ghost)
    {ghost' : Ghost} (kept' : Kept slots entries s' ghost') (current : s.current = some task)
    (current' : s'.current = some task) (awaited : ghost'.awaited = ghost.awaited)
    {hold : Hold} {pool : List (FuseIo × Mem)} {own : List SqeEntry}
    (pooled : pool = s'.ios.map fun fuseIo => (fuseIo, s'.mem fuseIo.slot))
    (started : s'.started = s.started) (flight : s'.flight = s.flight) (cq : s'.cq = s.cq)
    (awaiters : s'.awaiters = s.awaiters)
    (slot : ∀ fuseIo mem, hold.slot = some (fuseIo, mem) ↔
      (task, fuseIo) ∈ s'.vals ∧ mem = s'.mem fuseIo.slot)
    (place : s'.pc.At task thread) (split : s'.sq = ghost.awaited ++ own)
    (contents : own.map SqeEntry.content = hold.own)
    (vals : ∀ other fuseIo, other ≠ task → ((other, fuseIo) ∈ s'.vals ↔ (other, fuseIo) ∈ s.vals))
    (mem : ∀ other fuseIo, other ≠ task → (other, fuseIo) ∈ s.vals →
      s'.mem fuseIo.slot = s.mem fuseIo.slot) :
    Mirrors s' ghost'.awaited
      (Crew.set { crew with pool := pool } task ⟨hold, .running thread⟩) := by
  obtain ⟨back, gaveUp, runs⟩ := kept.runs current
  rw [awaited]
  refine mirrors.set pooled (started ▸ runs.born) (fun _ _ => by rw [started]) ?_ ?_
  · exact depicts_running slot place current' split contents (kept'.apart current')
  · intro other found different depicts
    refine depicts.beside (fun fuseIo => vals other fuseIo different)
      (fun fuseIo => mem other fuseIo different) ?_ ?_ flight cq awaiters
    · rw [current]
      exact fun same => different (Option.some.inj same).symm
    · rw [current']
      exact fun same => different (Option.some.inj same).symm

/-- **The running coroutine goes on**, on what it holds. -/
theorem Kept.advance (kept : Kept slots entries s ghost) (mirrors : Mirrors s ghost.awaited crew)
    {ghost' : Ghost} (kept' : Kept slots entries s' ghost') (current : s.current = some task)
    (current' : s'.current = some task) (awaited : ghost'.awaited = ghost.awaited)
    {hold after : Hold} {next : Thread coroutines Int} {cause : Cause}
    (moves : ∀ crew', crew.Step ring task cause crew' → Moved ring s crew (.go result) crew')
    (found : crew.solos task = some ⟨hold, .running thread⟩)
    (step : Solo.Step cause ⟨hold, .running thread⟩ ⟨after, .running next⟩)
    (started : s'.started = s.started) (flight : s'.flight = s.flight) (cq : s'.cq = s.cq)
    (awaiters : s'.awaiters = s.awaiters) (ios : s'.ios = s.ios) (vals : s'.vals = s.vals)
    (slot : ∀ fuseIo mem, after.slot = some (fuseIo, mem) ↔
      (task, fuseIo) ∈ s.vals ∧ mem = s'.mem fuseIo.slot)
    (place : s'.pc.At task next) {own : List SqeEntry} (split : s'.sq = ghost.awaited ++ own)
    (contents : own.map SqeEntry.content = after.own)
    (mem : ∀ fuseIo, (task, fuseIo) ∉ s.vals → fuseIo ∈ s.ios ∨ fuseIo ∈ s.vals.map Prod.snd →
      s'.mem fuseIo.slot = s.mem fuseIo.slot) :
    Mirrored slots entries ring (.go result) s ghost s' crew := by
  have unique : ∀ other fuseIo, other ≠ task → (other, fuseIo) ∈ s.vals →
      (task, fuseIo) ∉ s.vals := by
    intro other fuseIo different theirs mine
    exact kept.held_apart mine theirs different rfl
  have pooled : crew.pool = s'.ios.map fun fuseIo => (fuseIo, s'.mem fuseIo.slot) := by
    rw [mirrors.pool, ios]
    refine List.map_congr_left fun fuseIo pool => ?_
    have free : (task, fuseIo) ∉ s.vals := fun mine => kept.pool_apart mine pool rfl
    rw [mem fuseIo free (Or.inl pool)]
  refine ⟨ghost', crew.set task ⟨after, .running next⟩, kept', ?_, moves _ (.goesOn found step),
    .same flight awaited⟩
  refine mirrors.running kept kept' current current' awaited pooled started flight cq awaiters
    (by rw [vals]; exact slot) place split contents (fun _ _ _ => by rw [vals]) ?_
  intro other fuseIo different theirs
  exact mem fuseIo (unique other fuseIo different theirs)
    (Or.inr (List.mem_map_of_mem theirs))

/-- No coroutine moves, and only entries leave the ring. -/
theorem Mirrors.submitted (mirrors : Mirrors s ghost.awaited crew)
    (kept : Kept slots entries s ghost) {ghost' : Ghost} {count : Nat}
    (awaited : ghost'.awaited = ghost.awaited.drop count) (own : ghost.hand.own = [])
    (ios : s'.ios = s.ios) (mem : s'.mem = s.mem) (started : s'.started = s.started)
    (vals : s'.vals = s.vals) (cq : s'.cq = s.cq) (awaiters : s'.awaiters = s.awaiters)
    (flight : s'.flight = s.flight ++ s.sq.take count) (sq : s'.sq = s.sq.drop count)
    (current : s'.current = s.current)
    (place : ∀ task thread, s.pc.At task thread → s'.pc.At task thread) :
    Mirrors s' ghost'.awaited crew := by
  have all : s.sq = ghost.awaited := kept.queues.sq own
  have perm : (s'.flight ++ ghost'.awaited).Perm (s.flight ++ ghost.awaited) := by
    rw [flight, awaited, all, List.append_assoc, List.take_append_drop]
  refine mirrors.stay ios mem started fun task solo depicts => ⟨?_, ?_, ?_, ?_⟩
  · rw [vals, mem]
    exact depicts.slot
  · intro runs
    rw [current] at runs
    obtain ⟨hold, thread, held, same, at', split, contents⟩ := depicts.current runs
    have none : held = [] := by
      have mine := contents ▸ kept.own_unique split
      rw [own] at mine
      exact List.map_eq_nil_iff.mp (contents.trans mine)
    refine ⟨hold, thread, [], same, place task thread at', ?_, ?_⟩
    · rw [sq, awaited, all, List.append_nil]
    · rw [← contents, none]
  · intro id awaiter pending mine
    rw [awaiters] at pending
    obtain ⟨slot, entries, same, progress⟩ := depicts.waiting id awaiter pending mine
    exact ⟨slot, entries, same, progress.perm perm cq⟩
  · rw [current, awaiters]
    exact depicts.ended

/-! ### The operations -/

/-- The crew has the running coroutine at the same thread. -/
theorem Kept.mirrored_running (kept : Kept slots entries s ghost)
    (mirrors : Mirrors s ghost.awaited crew) (pc : s.pc = .running task back thread gaveUp) :
    ∃ hold own, crew.solos task = some ⟨hold, .running thread⟩ ∧ s.sq = ghost.awaited ++ own ∧
      own.map SqeEntry.content = ghost.hand.own ∧ hold.own = ghost.hand.own ∧
      (∀ fuseIo mem, hold.slot = some (fuseIo, mem) ↔
        (task, fuseIo) ∈ s.vals ∧ mem = s.mem fuseIo.slot) := by
  obtain ⟨hold, thread', own, found, place, split, contents, owned, slot⟩ :=
    kept.mirrored mirrors (current_of_pc pc)
  rw [pc] at place
  obtain rfl : thread = thread' := place.2
  exact ⟨hold, own, found, split, contents, owned, slot⟩

/-- **An operation that is answered at once** and touches no queue. -/
theorem Kept.answered (kept : Kept slots entries s ghost) (mirrors : Mirrors s ghost.awaited crew)
    (pc : s.pc = .running task back thread gaveUp) {next : Thread coroutines Int} {ghost' : Ghost}
    {ringSubmit gaveUp' : Bool} {lastRc : Int} {cause : Cause}
    (moves : ∀ crew', crew.Step ring task cause crew' → Moved ring s crew (.go result) crew')
    (kept' : Kept slots entries { s with
      ringSubmit := ringSubmit, lastRc := lastRc, pc := .running task back next gaveUp' } ghost')
    (awaited : ghost'.awaited = ghost.awaited)
    (step : ∀ hold, (∀ fuseIo, ghost.hand.fuseIo = some fuseIo →
        hold.slot = some (fuseIo, s.mem fuseIo.slot)) →
      Solo.Step cause ⟨hold, .running thread⟩ ⟨hold, .running next⟩) :
    Mirrored slots entries ring (.go result) s ghost { s with
      ringSubmit := ringSubmit, lastRc := lastRc, pc := .running task back next gaveUp' } crew := by
  obtain ⟨hold, own, found, split, contents, owned, slot⟩ := kept.mirrored_running mirrors pc
  have current := current_of_pc pc
  exact kept.advance mirrors kept' current rfl awaited moves found
    (step hold fun fuseIo named => kept.slot_of current slot named) rfl rfl rfl rfl rfl rfl slot
    ⟨rfl, rfl⟩ split (contents.trans owned.symm) fun _ _ _ => rfl

/-- The memory of the slot is written. -/
theorem Kept.mirrors_store (kept : Kept slots entries s ghost)
    (mirrors : Mirrors s ghost.awaited crew) (pc : s.pc = .running task back thread gaveUp)
    {fuseIo : FuseIo} {mem : Mem} {resume : Unit → Thread coroutines Int}
    (move : thread.move = .performs (.store fuseIo mem) resume)
    (step : s.perform result task back gaveUp (.store fuseIo mem) resume = some s') :
    Mirrored slots entries ring (.go result) s ghost s' crew := by
  obtain ⟨hold, own, found, split, contents, owned, slot⟩ := kept.mirrored_running mirrors pc
  have current := current_of_pc pc
  have allowed := kept.allowed pc move
  have mine := (kept.slot_iff current fuseIo).mpr allowed.1
  have held := kept.slot_of current slot allowed.1
  simp only [Sys.perform, Option.some.injEq] at step
  subst step
  have kept' : Kept slots entries { s with
      mem := Function.update s.mem fuseIo.slot mem
      pc := .running task back (resume ()) gaveUp } ghost :=
    kept.goOn (kept.running pc).1 allowed.2
  have written := Function.update_self fuseIo.slot mem s.mem
  refine kept.advance mirrors kept' current rfl rfl (fun _ => .goesOn) found
    (.performs move (.store mem held)) rfl rfl rfl rfl rfl rfl ?_ ⟨rfl, rfl⟩ split
    (contents.trans owned.symm) ?_
  · intro fuseIo' mem'
    simp only [Option.some.injEq, Prod.mk.injEq]
    constructor
    · rintro ⟨rfl, rfl⟩
      exact ⟨mine, written.symm⟩
    · rintro ⟨mine', rfl⟩
      have same := List.inj_on_of_nodup_map kept.holders.tasks mine mine' rfl
      obtain rfl := (Prod.mk.inj same).2
      exact ⟨rfl, written.symm⟩
  · intro fuseIo' absent known
    refine Function.update_of_ne (fun same => absent ?_) _ _
    have equal : fuseIo' = fuseIo := by
      cases fuseIo
      cases fuseIo'
      exact congrArg FuseIo.mk same
    exact equal ▸ mine

/-- A slot is taken from the pool, with its memory. -/
theorem Kept.mirrors_getFuseIo (kept : Kept slots entries s ghost)
    (mirrors : Mirrors s ghost.awaited crew) (pc : s.pc = .running task back thread gaveUp)
    {resume : FuseIo → Thread coroutines Int} (move : thread.move = .performs .getFuseIo resume)
    (step : s.perform result task back gaveUp .getFuseIo resume = some s') :
    Mirrored slots entries ring (.go result) s ghost s' crew := by
  obtain ⟨hold, own, found, split, contents, owned, slot⟩ := kept.mirrored_running mirrors pc
  have current := current_of_pc pc
  have allowed := kept.allowed pc move
  obtain ⟨ghost', kept', change⟩ := kept.getFuseIo pc move step
  obtain ⟨fuseIo, last⟩ := Option.ne_none_iff_exists'.mp
    (mt List.getLast?_eq_none_iff.mp ((kept.running pc).1.pool allowed.1))
  simp only [Sys.perform, last, Option.some.injEq] at step
  subst step
  have front : s.ios = s.ios.dropLast ++ [fuseIo] := by
    obtain ⟨front, same⟩ := List.getLast?_eq_some_iff.mp last
    rw [same, List.dropLast_concat]
  have awaited := change.awaited_same kept kept' (by cases back <;> exact Phase.noConfusion) rfl rfl
  have none : ∀ fuseIo', (task, fuseIo') ∉ s.vals := by
    intro fuseIo' mine
    have named := (kept.slot_iff current fuseIo').mp mine
    rw [allowed.2.1] at named
    cases named
  obtain ⟨held, own'⟩ := hold
  have empty : held = Option.none := by
    cases held with
    | none => rfl
    | some pair => exact absurd ((slot pair.1 pair.2).mp rfl).1 (none _)
  rw [empty] at found
  have pool : crew.pool = (s.ios.dropLast.map fun fuseIo => (fuseIo, s.mem fuseIo.slot)) ++
      [(fuseIo, s.mem fuseIo.slot)] := by
    rw [mirrors.pool]
    conv_lhs => rw [front, List.map_append, List.map_singleton]
  refine ⟨ghost', _, kept', ?_, (.goesOn (.takes found move pool)), .same rfl awaited⟩
  refine mirrors.running kept kept' current rfl awaited rfl rfl rfl rfl rfl ?_ ⟨rfl, rfl⟩ split
    (contents.trans owned.symm) ?_ fun _ _ _ _ => rfl
  · intro fuseIo' mem'
    simp only [Option.some.injEq, Prod.mk.injEq, List.mem_append, List.mem_singleton, true_and]
    constructor
    · rintro ⟨rfl, rfl⟩
      exact ⟨Or.inr rfl, rfl⟩
    · rintro ⟨mine | rfl, rfl⟩
      · exact absurd mine (none _)
      · exact ⟨rfl, rfl⟩
  · intro other fuseIo' different
    simp only [List.mem_append, List.mem_singleton, Prod.mk.injEq, different, false_and, or_false]

/-- The slot goes back to the pool, with its memory. -/
theorem Kept.mirrors_releaseFuseIo (kept : Kept slots entries s ghost)
    (mirrors : Mirrors s ghost.awaited crew) (pc : s.pc = .running task back thread gaveUp)
    {fuseIo : FuseIo} {resume : Unit → Thread coroutines Int}
    (move : thread.move = .performs (.releaseFuseIo fuseIo) resume)
    (step : s.perform result task back gaveUp (.releaseFuseIo fuseIo) resume = some s') :
    Mirrored slots entries ring (.go result) s ghost s' crew := by
  obtain ⟨hold, own, found, split, contents, owned, slot⟩ := kept.mirrored_running mirrors pc
  have current := current_of_pc pc
  have allowed := kept.allowed pc move
  have held := kept.slot_of current slot allowed.1.slot
  obtain ⟨ghost', kept', change⟩ := kept.releaseFuseIo pc move step
  simp only [Sys.perform, Option.some.injEq] at step
  subst step
  have awaited := change.awaited_same kept kept' (by cases back <;> exact Phase.noConfusion) rfl rfl
  have nodup : s.vals.Nodup := List.Nodup.of_map _ kept.holders.tasks
  obtain ⟨slot', own'⟩ := hold
  obtain rfl : slot' = _ := held
  refine ⟨ghost', _, kept', ?_, (.goesOn (.gives found move)), .same rfl awaited⟩
  refine mirrors.running kept kept' current rfl awaited ?_ rfl rfl rfl rfl ?_ ⟨rfl, rfl⟩ split
    (contents.trans owned.symm) ?_ fun _ _ _ _ => rfl
  · rw [mirrors.pool, List.map_append, List.map_singleton]
  · intro fuseIo' mem'
    refine iff_of_false (Option.some_ne_none _).symm ?_
    rintro ⟨mine, -⟩
    obtain ⟨different, before⟩ := (List.Nodup.mem_erase_iff nodup).mp mine
    have named := (kept.slot_iff current fuseIo').mp before
    rw [allowed.1.slot, Option.some.injEq] at named
    exact different (congrArg (Prod.mk task) named.symm)
  · intro other fuseIo' different
    exact List.mem_erase_of_ne fun same => different (Prod.mk.inj same).1

/-- An entry is prepared. One that is null ends the program. -/
theorem Kept.mirrors_prep (kept : Kept slots entries s ghost)
    (mirrors : Mirrors s ghost.awaited crew) (pc : s.pc = .running task back thread gaveUp)
    {ref : SqeRef} {sqe : Sqe} {resume : Unit → Thread coroutines Int}
    (move : thread.move = .performs (.prep ref sqe) resume)
    (step : s.perform result task back gaveUp (.prep ref sqe) resume = some s') :
    Mirrored slots entries ring (.go result) s ghost s' crew := by
  obtain ⟨hold, own, found, split, contents, owned, slot⟩ := kept.mirrored_running mirrors pc
  have current := current_of_pc pc
  have allowed := kept.allowed pc move
  cases ref with
  | none =>
    simp only [Sys.perform, Option.some.injEq] at step
    subst step
    refine ⟨ghost, crew.set task ⟨hold, .ended⟩, ⟨kept.holders, kept.roster,
      kept.queues.frame rfl rfl rfl rfl rfl rfl, trivial⟩, ?_,
      (.goesOn (.goesOn found (.faults move))), .same rfl rfl⟩
    refine mirrors.set mirrors.pool (kept.running pc).1.born (fun _ _ => Iff.rfl) ?_ ?_
    · refine ⟨slot, fun runs => (by cases runs), ?_, fun _ _ => rfl⟩
      exact fun id awaiter pending mine => absurd mine (kept.apart current id awaiter pending)
    · intro other solo different depicts
      refine depicts.beside (fun _ => Iff.rfl) (fun _ _ => rfl) ?_ ?_ rfl rfl rfl
      · rw [current]
        exact fun same => different (Option.some.inj same).symm
      · exact fun runs => (by cases runs)
  | some index =>
    obtain ⟨inHand, names, -⟩ := allowed
    obtain ⟨ghost', kept', change⟩ := kept.prep pc move step
    obtain ⟨own', split', contents'⟩ := (kept.queues.prep inHand names).queue
    simp only [Sys.perform, Option.some.injEq] at step
    subst step
    have awaited := change.awaited_same kept kept' (by cases back <;> exact Phase.noConfusion)
      rfl rfl
    refine kept.advance mirrors kept' current rfl awaited (fun _ => .goesOn) found
      (.performs move (.prepared sqe (owned ▸ inHand))) rfl rfl rfl rfl rfl rfl slot ⟨rfl, rfl⟩
      split' ?_ fun _ _ _ => rfl
    rw [contents', Hold.prepare, owned]
    rfl

/-- An entry is taken. -/
theorem Kept.mirrors_taken (kept : Kept slots entries s ghost)
    (mirrors : Mirrors s ghost.awaited crew) {peek : Nat} (current : s.current = some task)
    {resume : SqeRef → Thread coroutines Int} {hold : Hold}
    (found : crew.solos task = some ⟨hold, .running thread⟩)
    (move : thread.move = .performs (.getSqe peek) resume) {own : List SqeEntry}
    (split : s.sq = ghost.awaited ++ own) (contents : own.map SqeEntry.content = ghost.hand.own)
    (owned : hold.own = ghost.hand.own)
    (slot : ∀ fuseIo mem, hold.slot = some (fuseIo, mem) ↔
      (task, fuseIo) ∈ s.vals ∧ mem = s.mem fuseIo.slot)
    {entry : SqeEntry} {rest : List SqeEntry} (free : s.free = entry :: rest) {ringSubmit : Bool}
    {ghost' : Ghost}
    (kept' : Kept slots entries { s.take entry rest with
      ringSubmit := ringSubmit
      pc := .running task back (resume (some entry.index)) gaveUp } ghost')
    (awaited : ghost'.awaited = ghost.awaited) :
    Mirrored slots entries ring (.go result) s ghost { s.take entry rest with
      ringSubmit := ringSubmit
      pc := .running task back (resume (some entry.index)) gaveUp } crew := by
  have fresh : entry.index ∉ hold.own.map Prod.fst := owned ▸ kept.queues.fresh free
  have longer : (s.take entry rest).sq =
      ghost.awaited ++ (own ++ [{ entry with sqe := none }]) := by
    rw [Sys.take, split, List.append_assoc]
  refine kept.advance mirrors kept' current rfl awaited (fun _ => .goesOn) found
    (.performs move (.taken peek entry.index fresh)) rfl rfl rfl rfl rfl rfl slot ⟨rfl, rfl⟩
    longer ?_ fun _ _ _ => rfl
  rw [List.map_append, contents, owned]
  rfl

/-- `get_sqe`. -/
theorem Kept.mirrors_getSqe (kept : Kept slots entries s ghost)
    (mirrors : Mirrors s ghost.awaited crew) (pc : s.pc = .running task back thread gaveUp)
    {peek : Nat} {resume : SqeRef → Thread coroutines Int}
    (move : thread.move = .performs (.getSqe peek) resume)
    (orderly : orderly s (.go result) = true)
    (step : s.perform result task back gaveUp (.getSqe peek) resume = some s') :
    Mirrored slots entries ring (.go result) s ghost s' crew := by
  obtain ⟨hold, own, found, split, contents, owned, slot⟩ := kept.mirrored_running mirrors pc
  have current := current_of_pc pc
  obtain ⟨ghost', kept', change⟩ := kept.getSqe pc move orderly step
  obtain ⟨ringSubmit, flagged⟩ := flagged_eq s peek
  simp only [Sys.perform, Sys.getSqe, flagged] at step
  have phase : ∀ {next : Thread coroutines Int} {gaveUp' : Bool},
      (Pc.running task back next gaveUp').phase ≠ .stopped := by
    cases back <;> exact Phase.noConfusion
  cases room : Sys.room s.free peek with
  | some pair =>
    obtain ⟨entry, rest⟩ := pair
    obtain ⟨free, -⟩ := room_some room
    simp only [room, Option.some.injEq] at step
    subst step
    have awaited := change.awaited_same kept kept' phase rfl rfl
    exact kept.mirrors_taken mirrors current found move split contents owned slot free kept' awaited
  | none =>
    have submits : s.submits = true := by simp [Sys.submits, pc, move, room]
    have empty := kept.own_of_submits submits
    simp only [room] at step
    have refused : succeeds s (.go result) = false → s' = { s with
        ringSubmit := ringSubmit, pc := .running task back (resume none) true } →
        Mirrored slots entries ring (.go result) s ghost s' crew := by
      rintro fails rfl
      have awaited := change.awaited_same kept kept' phase rfl rfl
      exact kept.answered mirrors pc (fun _ => .refused fails) kept' awaited
        fun _ _ => .refused move
    have submitted : ∀ count pc', count ≤ s.sq.length → s' =
        { s with
          ringSubmit := ringSubmit
          free := s.free ++ s.sq.take count
          sq := s.sq.drop count
          flight := s.flight ++ s.sq.take count
          pc := pc' } → pc'.phase ≠ .stopped → s'.current = s.current →
        (∀ task thread, s.pc.At task thread → pc'.At task thread) →
        Mirrored slots entries ring (.go result) s ghost s' crew := by
      rintro count pc' within rfl moving runs place
      have awaited := change.awaited_drop kept kept' moving rfl within rfl
      refine ⟨ghost', crew, kept', mirrors.submitted kept awaited empty rfl rfl rfl rfl rfl rfl rfl
        rfl runs place, .stays result, ?_⟩
      rw [awaited, kept.queues.sq empty]
      exact .left count
    cases result with
    | ok count =>
      dsimp only at step
      by_cases within : count ≤ s.sq.length
      · rw [if_pos within, Option.some.injEq] at step
        by_cases many : peek > 1
        · rw [if_pos many] at step
          refine submitted count s.pc within step.symm (by rw [pc]; exact phase) ?_
            fun _ _ place => place
          rw [← step]
          rfl
        · rw [if_neg many] at step
          refine submitted count (.polling task back resume gaveUp) within step.symm
            (by cases back <;> exact Phase.noConfusion) ?_ ?_
          · rw [← step, current]
            rfl
          · intro task' thread' place
            rw [pc] at place
            obtain ⟨same, rfl⟩ := place
            exact ⟨same, peek, move⟩
      · rw [if_neg within] at step
        cases step
    | busy =>
      dsimp only at step
      by_cases many : peek > 1
      · rw [if_pos many, Option.some.injEq] at step
        refine submitted 0 s.pc (Nat.zero_le _) ?_ (by rw [pc]; exact phase) ?_
          fun _ _ place => place
        · rw [← step, List.take_zero, List.append_nil, List.append_nil, List.drop_zero]
        · rw [← step]
          rfl
      · rw [if_neg many, Option.some.injEq] at step
        refine refused ?_ step.symm
        simp [succeeds, submits, Sys.retries, pc, move, many]
    | failed =>
      refine refused ?_ (Option.some.inj step).symm
      rw [succeeds, submits]
      rfl

/-- Prepared entries, with what was prepared. -/
theorem exists_prepared {own : List (Nat × Option Sqe)} (prepared : ∀ entry ∈ own, entry.2 ≠ none) :
    ∃ pairs : List (Nat × Sqe), own = pairs.map fun entry => (entry.1, some entry.2) := by
  induction own with
  | nil => exact ⟨[], rfl⟩
  | cons entry own ih =>
    obtain ⟨pairs, rest⟩ := ih fun other member => prepared other (List.mem_cons_of_mem _ member)
    obtain ⟨sqe, done⟩ := Option.ne_none_iff_exists'.mp (prepared entry List.mem_cons_self)
    refine ⟨(entry.1, sqe) :: pairs, ?_⟩
    rw [List.map_cons, ← rest, ← done]

/-- **The entries of a new awaiter** are all open. -/
theorem progress_new {own : List SqeEntry} {pairs : List (Nat × Sqe)} {handle : Suspended}
    {awaited : List SqeEntry}
    (contents : own.map SqeEntry.content = pairs.map fun entry => (entry.1, some entry.2))
    (unborn : ∀ index, ⟨s.created, index⟩ ∉ s.unhandled awaited)
    (flight : s'.flight = s.flight) (cq : s'.cq = s.cq) :
    Progress s' (awaited ++ tagged own (IoUringAwaiter.userData s.created pairs.length)) s.created
      (.make handle pairs.length) (pairs.map fun entry => ⟨entry.2, none⟩) := by
  have lengths : own.length = pairs.length := by
    have same := congrArg List.length contents
    rwa [List.length_map, List.length_map] at same
  have targets : (IoUringAwaiter.userData s.created pairs.length).length = own.length := by
    rw [IoUringAwaiter.userData, List.length_map, List.length_range, lengths]
  refine ⟨?_, ?_, ?_, ?_⟩
  · rw [List.length_map, IoUringAwaiter.make, List.length_replicate]
  · intro entry member index mine
    rw [flight, ← List.append_assoc] at member
    rcases List.mem_append.mp member with before | new
    · exact absurd (mem_unhandled.mpr (Or.inr ⟨entry, before, mine⟩)) (unborn index)
    · obtain ⟨pair, inside, rfl⟩ := List.mem_map.mp new
      obtain ⟨position, bound, here⟩ := List.mem_iff_getElem.mp inside
      rw [List.length_zip, targets, Nat.min_self] at bound
      rw [List.getElem_zip] at here
      have target : pair.2 = ⟨s.created, position⟩ := by
        rw [← here]
        simp [IoUringAwaiter.userData]
      have named : position = index := by
        simp only [Option.some.injEq] at mine
        rw [target, UserData.mk.injEq] at mine
        exact mine.2
      subst named
      have content := congrArg (fun list => list[position]?) contents
      simp only [List.getElem?_map, List.getElem?_eq_getElem bound,
        List.getElem?_eq_getElem (lengths ▸ bound), Option.map_some, Option.some.injEq] at content
      refine ⟨(pairs.get ⟨position, lengths ▸ bound⟩).2, ?_, ?_⟩
      · rw [← here]
        exact congrArg Prod.snd content
      · rw [List.getElem?_map, List.getElem?_eq_getElem (lengths ▸ bound)]
        rfl
  · intro cqe member index mine
    exact absurd (mem_unhandled.mpr (Or.inl ⟨cqe, cq ▸ member, mine⟩)) (unborn index)
  · intro index res found handled
    have bound := (List.getElem?_eq_some_iff.mp found).1
    rw [IoUringAwaiter.make, List.length_replicate] at bound
    refine absurd (List.mem_append_right _ ?_) handled
    rw [← List.append_assoc, List.filterMap_append, tagged_userData targets.symm]
    exact List.mem_append_right _ (mem_userData.mpr ⟨rfl, bound⟩)

/-- **A coroutine comes to wait.** -/
theorem Kept.mirrors_complete (kept : Kept slots entries s ghost)
    (mirrors : Mirrors s ghost.awaited crew) (pc : s.pc = .running task back thread gaveUp)
    {refs : List SqeRef} {resume : List Int → Thread coroutines Int}
    (move : thread.move = .performs (.complete refs) resume)
    (step : s.perform result task back gaveUp (.complete refs) resume = some s') :
    Mirrored slots entries ring (.go result) s ghost s' crew := by
  obtain ⟨⟨slot, held⟩, own, found, split, contents, owned, slots'⟩ :=
    kept.mirrored_running mirrors pc
  have current := current_of_pc pc
  have apart := kept.apart current
  obtain ⟨all, -, -, prepared, -, -⟩ := kept.allowed pc move
  obtain ⟨pairs, paired⟩ := exists_prepared prepared
  obtain rfl : held = pairs.map fun entry => (entry.1, some entry.2) := owned.trans paired
  have refs' : refs = pairs.map fun entry => some entry.1 := by
    rw [all, paired, List.map_map]
    rfl
  have count : refs.length = pairs.length := by rw [refs', List.length_map]
  obtain ⟨ghost', kept', change⟩ := kept.complete pc move step
  obtain ⟨own', split', contents', lengths, tag⟩ := kept.queues.tag all
  obtain rfl : own = own' := List.append_cancel_left (split.symm.trans split')
  have real : none ∉ refs := by
    rw [refs']
    simp
  simp only [Sys.perform, if_neg real, Option.some.injEq, tag] at step
  have moving : s'.pc.phase ≠ .stopped := by
    rw [← step]
    cases back <;> exact Phase.noConfusion
  have new : s'.awaiters s.created = some (.make ⟨task, resume⟩ refs.length) := by
    rw [← step]
    exact Function.update_self _ _ s.awaiters
  have awaited := change.awaited_parked kept kept' moving new
  subst step
  have unborn : ∀ index, ⟨s.created, index⟩ ∉ s.unhandled ghost.awaited := by
    intro index open'
    obtain ⟨awaiter, pending, -⟩ := kept.queues.sound.live _ open'
    exact absurd (kept.queues.sound.fresh _ _ pending) (Nat.lt_irrefl _)
  have idle : back.pc.phase ≠ .stopped ∧ ∀ other, ({ s with pc := back.pc } : Sys).current ≠
      some other := by
    cases back <;> exact ⟨Phase.noConfusion, fun other runs => (by cases runs)⟩
  rw [refs'] at move
  refine ⟨ghost',
    crew.set task ⟨⟨slot, []⟩, .waiting (pairs.map fun entry => ⟨entry.2, none⟩) resume⟩,
    kept', ?_, (.goesOn (.goesOn found (.awaits move))), ?_⟩
  rotate_left
  · rw [awaited, count]
    exact .parked found move (contents.trans paired)
  rw [awaited]
  refine mirrors.set mirrors.pool (kept.running pc).1.born (fun _ _ => Iff.rfl) ?_ ?_
  · refine ⟨slots', fun runs => absurd runs (idle.2 task), ?_,
      fun _ none => absurd rfl (none _ _ new)⟩
    intro id awaiter pending mine
    by_cases same : id = s.created
    · subst same
      rw [new, Option.some.injEq] at pending
      subst pending
      refine ⟨slot, _, rfl, ?_⟩
      rw [count]
      exact progress_new (contents.trans paired) unborn rfl rfl
    · dsimp only at pending
      rw [Function.update_of_ne same] at pending
      exact absurd mine (apart id awaiter pending)
  · intro other solo different depicts
    refine depicts.frame (fun _ => Iff.rfl) (fun _ _ => rfl)
      (fun runs => absurd runs (idle.2 other)) (fun _ => ?_) ?_ ?_
    · rw [current]
      exact fun same => different (Option.some.inj same).symm
    · intro id awaiter pending mine
      have older : id ≠ s.created := by
        rintro rfl
        rw [new, Option.some.injEq] at pending
        subst pending
        exact different mine.symm
      dsimp only at pending
      rw [Function.update_of_ne older] at pending
      refine ⟨awaiter, pending, rfl, fun entries progress => progress.frame ?_ ?_ ?_⟩
      · intro entry member index mine'
        dsimp only at member
        rw [← List.append_assoc] at member
        rcases List.mem_append.mp member with before | new
        · exact before
        · obtain ⟨pair, inside, rfl⟩ := List.mem_map.mp new
          have target := (mem_userData.mp (List.of_mem_zip inside).2).1
          rw [Option.some.inj mine'] at target
          exact absurd target older
      · exact fun cqe member _ _ => member
      · intro index open'
        rw [mem_unhandled] at open' ⊢
        refine open'.imp_right ?_
        rintro ⟨entry, member, mine'⟩
        refine ⟨entry, ?_, mine'⟩
        dsimp only
        rw [← List.append_assoc]
        exact List.mem_append_left _ member
    · intro id old pending mine
      have older : id ≠ s.created :=
        fun same => absurd (kept.queues.sound.fresh _ _ pending) (same ▸ Nat.lt_irrefl _)
      refine ⟨old, ?_, mine⟩
      dsimp only
      rw [Function.update_of_ne older]
      exact pending

end Running

end Fuseuring
