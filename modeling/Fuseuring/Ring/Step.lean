/-
**One step of the event loop.**

`Kept` is the invariant of the event loop; `Kept.step` says that every orderly
step keeps it, and `Change` what the step does to the counts that the ghost
names. `kept_of_reaches` is the invariant of the runs.

A step is orderly unless a coroutine whose `get_sqe` gave up is handed an entry by its next one.
-/

import Fuseuring.Ring.Kept

namespace Fuseuring

open Interaction

/-! ### The invariant -/

/-- A coroutine that has the control. -/
structure Runs (s : Sys) (ghost : Ghost) (task : Nat) (back : Back) (gaveUp : Bool) : Prop where
  same : ghost.task = task
  born : task < s.started
  outside : ghost.hand.fuseIo = none → task ∉ s.vals.map Prod.fst
  given : ghost.hand.gaveUp = gaveUp
  pool : ghost.hand.stage = .entering → s.ios ≠ []
  begins : ghost.hand.stage = .entering ∨ ghost.hand.stage = .fresh → back = .refill

/-- What holds where the control is. -/
def Sys.Control (s : Sys) (ghost : Ghost) : Prop :=
  match s.pc with
  | .running task back thread gaveUp =>
    Runs s ghost task back gaveUp ∧ thread.Meets discipline Hand.Ended ghost.hand
  | .polling task back resume gaveUp => Runs s ghost task back gaveUp ∧ ghost.hand.Idle ∧
      ∃ stage, ghost.hand.stage.take 1 = some stage ∧
      ∀ index, (resume (some index)).Meets discipline Hand.Ended
        { ghost.hand with own := [(index, none)], reserved := 0, stage := stage }
  | .refill | .submit | .pass | .exited _ => ghost.hand = .empty
  | .fault => True

/-- **The invariant of the event loop.** -/
structure Kept (slots entries : Nat) (s : Sys) (ghost : Ghost) : Prop where
  holders : Holders slots s.ios s.vals s.started ghost.held
  roster : Roster s.awaiters ghost.roster
  queues : Queues entries s ghost
  control : s.Control ghost

/-- A coroutine whose `get_sqe` gave up is not handed an entry by its next one:
the ring is still full, and the submit fails again. -/
def orderly (s : Sys) (act : Act) : Bool :=
  match s.pc, act with
  | .running _ _ thread true, .go result =>
    match thread.move with
    | .performs (.getSqe peek) _ =>
      (Sys.room s.free peek).isNone && (result == .busy || result == .failed)
    | _ => true
  | _, _ => true

theorem orderly_again {s : Sys} {task peek : Nat} {back : Back} {thread : Thread coroutines Int}
    {result : SubmitResult}
    {resume : SqeRef → Thread coroutines Int} (orderly : orderly s (.go result) = true)
    (pc : s.pc = .running task back thread true)
    (move : thread.move = .performs (.getSqe peek) resume) :
    Sys.room s.free peek = none ∧ (result = .busy ∨ result = .failed) := by
  simpa [Fuseuring.orderly, pc, move] using orderly

/-! ### What a step changes -/

/-- The loop that takes slots and submits, the pass over the completions, and the end. -/
inductive Phase
  | refill
  | pass
  | stopped
deriving DecidableEq

def Back.phase : Back → Phase
  | .refill => .refill
  | .pass => .pass

def Pc.phase : Pc → Phase
  | .refill => .refill
  | .running _ back _ _ => back.phase
  | .polling _ back _ _ => back.phase
  | .submit => .refill
  | .pass => .pass
  | .exited _ => .stopped
  | .fault => .stopped

@[simp] theorem Back.phase_pc (back : Back) : back.pc.phase = back.phase := by cases back <;> rfl

/-- The queues and the count of the pass are as they were. -/
structure Sys.SameQueues (s s' : Sys) : Prop where
  handled : s'.handled = s.handled
  cq : s'.cq = s.cq
  flight : s'.flight = s.flight

/-- **What a step does to what the ghost names.** -/
inductive Change (entries : Nat) (act : Act) (s : Sys) (ghost : Ghost) (s' : Sys)
    (ghost' : Ghost) : Prop
  /-- Nothing is counted differently, or the coroutine is at its end. -/
  | quiet (phase : s'.pc.phase = s.pc.phase) (same : s.SameQueues s')
    (sq : s'.sq.length = s.sq.length)
      (roster : ghost'.roster = ghost.roster) (awaited : ghost'.awaited = ghost.awaited)
      (hand : ghost.hand.own = [] ∧ ghost'.hand = .empty ∨
        ghost'.hand.own.length = ghost.hand.own.length ∧
        ghost'.hand.reserved = ghost.hand.reserved ∧
          (ghost'.hand.stage = ghost.hand.stage ∨ ghost'.hand.stage = .served ∨
            s.pc.phase = .refill ∧ ghost'.hand.stage = .fresh))
  /-- An entry is taken. -/
  | taken (phase : s'.pc.phase = s.pc.phase) (same : s.SameQueues s')
    (sq : s'.sq.length = s.sq.length + 1)
      (roster : ghost'.roster = ghost.roster) (awaited : ghost'.awaited = ghost.awaited)
      (own : ghost'.hand.own.length = ghost.hand.own.length + 1)
      (hand : ghost.hand.Idle ∧ (∃ peek, ghost.hand.stage.take peek = some ghost'.hand.stage ∧
          ghost'.hand.reserved = peek - 1) ∨
        ghost.hand.reserved = ghost'.hand.reserved + 1 ∧ ghost'.hand.stage = ghost.hand.stage)
  /-- A `get_sqe` submits. -/
  | submitted (submits : s.submits = true) (phase : s'.pc.phase = s.pc.phase)
    (handled : s'.handled = s.handled) (cq : s'.cq = s.cq) (count : Nat)
      (asked : act = .go (.ok count)) (within : count ≤ s.sq.length) (sq : s'.sq = s.sq.drop count)
      (flight : s'.flight = s.flight ++ s.sq.take count) (roster : ghost'.roster = ghost.roster)
        (awaited : ghost'.awaited = ghost.awaited.drop count)
      (hand : ghost'.hand = ghost.hand) (idle : ghost.hand.Idle)
      (full : ∃ peek stage, ghost.hand.stage.take peek = some stage ∧ entries < s.sq.length + peek)
  /-- A coroutine waits. -/
  | parked (phase : s'.pc.phase = s.pc.phase) (same : s.SameQueues s')
    (sq : s'.sq.length = s.sq.length)
      (waiting : Waiting) (roster : ghost'.roster = waiting :: ghost.roster)
        (awaited : ghost'.awaited = s'.sq)
      (count : waiting.count = ghost.hand.own.length) (reserved : ghost.hand.reserved = 0)
      (stage : waiting.stage = ghost.hand.stage)
        (older : ∀ entry ∈ ghost.awaited, entry ∈ ghost'.awaited)
      (newer : ∀ entry ∈ ghost'.awaited, entry ∈ ghost.awaited ∨
        ∃ target, entry.userData = some target ∧ target.awaiter = waiting.id)
      (some : ∃ entry ∈ ghost'.awaited, ∃ target, entry.userData = some target ∧
        target.awaiter = waiting.id)
      (hand : ghost'.hand = .empty)
  /-- `run` submits. -/
  | entered (before : s.pc.phase = .refill) (phase : s'.pc.phase = .pass)
    (handled : s'.handled = s.handled)
      (cq : s'.cq = s.cq) (submits : s.submits = true) (count : Nat) (asked : act = .go (.ok count))
      (within : count ≤ s.sq.length) (sq : s'.sq = s.sq.drop count)
      (flight : s'.flight = s.flight ++ s.sq.take count) (roster : ghost'.roster = ghost.roster)
      (awaited : ghost'.awaited = ghost.awaited.drop count) (idle : ghost.hand = .empty)
        (hand : ghost'.hand = .empty)
  /-- A completion is handled. -/
  | stored (before : s.pc.phase = .pass) (phase : s'.pc.phase = .pass)
    (handled : s'.handled = s.handled + 1)
      (cq : s.cq.length = s'.cq.length + 1) (flight : s'.flight = s.flight) (sq : s'.sq = s.sq)
        (idle : ghost.hand = .empty)
      (same : ghost' = ghost)
  /-- A completion resumes a coroutine, none of whose entries is left in the ring. -/
  | resumed (before : s.pc.phase = .pass) (phase : s'.pc.phase = .pass)
    (handled : s'.handled = s.handled + 1)
      (cq : s.cq.length = s'.cq.length + 1) (flight : s'.flight = s.flight) (sq : s'.sq = s.sq)
        (idle : ghost.hand = .empty)
      (waiting : Waiting) (roster : ghost.roster.Perm (waiting :: ghost'.roster))
        (awaited : ghost'.awaited = ghost.awaited)
      (gone : ∀ entry ∈ ghost.awaited, ∀ target, entry.userData = some target →
        target.awaiter ≠ waiting.id)
      (hand : ghost'.hand = .holding waiting.fuseIo waiting.stage)
  /-- The pass is over. -/
  | passed (before : s.pc.phase = .pass) (phase : s'.pc.phase ≠ .pass) (sane : s'.pc ≠ .fault)
    (empty : s.cq = [])
      (handled : s'.handled = 0)
      (cq : s'.cq = s.cq) (flight : s'.flight = s.flight) (sq : s'.sq = s.sq)
        (idle : ghost.hand = .empty)
      (same : ghost' = ghost)
  /-- The kernel completes an entry. -/
  | posted (phase : s'.pc.phase = s.pc.phase) (handled : s'.handled = s.handled)
    (cq : s'.cq.length = s.cq.length + 1)
      (flight : s.flight.length = s'.flight.length + 1) (sq : s'.sq = s.sq) (same : ghost' = ghost)
  /-- The program ends, by a fault only behind a `get_sqe` that gave up. -/
  | stopped (phase : s'.pc.phase = .stopped) (same : s.SameQueues s')
      (cause : s'.pc = .fault → ∃ task back thread, s.pc = .running task back thread true)

/-! ### The operations -/

section Operations

variable {slots entries : Nat} {s s' : Sys} {ghost : Ghost} {task : Nat} {back : Back}
  {thread : Thread coroutines Int}
  {gaveUp : Bool} {result : SubmitResult}

/-- What is known of a coroutine that has the control. -/
theorem Kept.running (kept : Kept slots entries s ghost)
    (pc : s.pc = .running task back thread gaveUp) :
    Runs s ghost task back gaveUp ∧ thread.Meets discipline Hand.Ended ghost.hand := by
  have control := kept.control
  rwa [Sys.Control, pc] at control

/-- The operation of a coroutine that has the control is allowed. -/
theorem Kept.allowed (kept : Kept slots entries s ghost)
    (pc : s.pc = .running task back thread gaveUp) {op : Effect}
    {resume : op.Answer → Thread coroutines Int} (move : thread.move = .performs op resume) :
    Hand.Allows op ghost.hand fun answer after =>
      (resume answer).Meets discipline Hand.Ended after := by
  have meets := (kept.running pc).2.move
  rw [move] at meets
  exact meets

/-- The running coroutine goes on with the same in hand. -/
theorem Kept.goOn (kept : Kept slots entries s ghost) (runs : Runs s ghost task back gaveUp)
    {next : Thread coroutines Int}
    (meets : next.Meets discipline Hand.Ended ghost.hand) {mem : Nat → Mem} {lastRc : Int} :
    Kept slots entries { s with mem := mem, lastRc := lastRc, pc := .running task back next gaveUp }
    ghost :=
  ⟨kept.holders, kept.roster, kept.queues.frame rfl rfl rfl rfl rfl rfl,
    ⟨⟨runs.same, runs.born, runs.outside, runs.given, runs.pool, runs.begins⟩, meets⟩⟩

theorem Change.quietly {act : Act} (phase : s'.pc.phase = s.pc.phase) (same : s.SameQueues s')
    (sq : s'.sq.length = s.sq.length) : Change entries act s ghost s' ghost :=
  .quiet phase same sq rfl rfl (Or.inr ⟨rfl, rfl, Or.inl rfl⟩)

/-- `get_fuse_io`: the pool is not empty. -/
theorem Kept.getFuseIo (kept : Kept slots entries s ghost)
    (pc : s.pc = .running task back thread gaveUp)
    {resume : FuseIo → Thread coroutines Int} (move : thread.move = .performs .getFuseIo resume)
    (step : s.perform result task back gaveUp .getFuseIo resume = some s') :
    ∃ ghost', Kept slots entries s' ghost' ∧ Change entries (.go result) s ghost s' ghost' := by
  obtain ⟨runs, -⟩ := kept.running pc
  have allowed := kept.allowed pc move
  obtain ⟨stage, slot, idle, next⟩ := allowed
  obtain ⟨fuseIo, last⟩ := Option.ne_none_iff_exists'.mp
    (mt List.getLast?_eq_none_iff.mp (runs.pool stage))
  simp only [Sys.perform, last, Option.some.injEq] at step
  subst step
  obtain rfl := runs.same
  refine ⟨{ ghost with hand := { ghost.hand with fuseIo := some fuseIo, stage := .fresh } },
    ⟨?_, kept.roster, ?_, ?_⟩, ?_⟩
  · have entered := kept.holders.enter last (runs.outside slot) runs.born
    rw [Ghost.held, slot] at entered
    exact entered
  · exact (kept.queues.idle idle ghost.task
      { ghost.hand with fuseIo := some fuseIo, stage := .fresh }
      ⟨idle.own, idle.reserved⟩).frame rfl rfl rfl rfl rfl rfl
  · refine ⟨⟨rfl, runs.born, ?_, runs.given, ?_, fun _ => runs.begins (Or.inl stage)⟩, next fuseIo⟩
    · exact fun impossible => absurd impossible (Option.some_ne_none _)
    · exact fun impossible => absurd impossible (show Stage.fresh ≠ .entering by decide)
  · refine .quiet (by rw [pc]; rfl) ⟨rfl, rfl, rfl⟩ rfl rfl rfl
      (Or.inr ⟨rfl, rfl, Or.inr (Or.inr ⟨?_, rfl⟩)⟩)
    rw [pc, runs.begins (Or.inl stage)]
    rfl

/-- `release_fuse_io`. -/
theorem Kept.releaseFuseIo (kept : Kept slots entries s ghost)
    (pc : s.pc = .running task back thread gaveUp)
    {fuseIo : FuseIo} {resume : Unit → Thread coroutines Int}
    (move : thread.move = .performs (.releaseFuseIo fuseIo) resume)
    (step : s.perform result task back gaveUp (.releaseFuseIo fuseIo) resume = some s') :
    ∃ ghost', Kept slots entries s' ghost' ∧ Change entries (.go result) s ghost s' ghost' := by
  obtain ⟨runs, -⟩ := kept.running pc
  have allowed := kept.allowed pc move
  obtain ⟨holds, next⟩ := allowed
  simp only [Sys.perform, Option.some.injEq] at step
  subst step
  obtain rfl := runs.same
  have holders := kept.holders
  rw [Ghost.held, holds.slot] at holders
  obtain ⟨left, outside⟩ := holders.leave
  refine ⟨{ ghost with hand := { ghost.hand with fuseIo := none, stage := .served } },
    ⟨left, kept.roster, ?_, ?_⟩, ?_⟩
  · exact (kept.queues.idle holds.toIdle ghost.task
      { ghost.hand with fuseIo := none, stage := .served }
      ⟨holds.own, holds.reserved⟩).frame rfl rfl rfl rfl rfl rfl
  · refine ⟨⟨rfl, runs.born, fun _ => outside, runs.given, ?_, ?_⟩, next⟩
    · exact fun impossible => absurd impossible (show Stage.served ≠ .entering by decide)
    · exact fun impossible => absurd impossible
        (show ¬ (Stage.served = .entering ∨ Stage.served = .fresh) by decide)
  · exact .quiet (by rw [pc]; rfl) ⟨rfl, rfl, rfl⟩ rfl rfl rfl
      (Or.inr ⟨rfl, rfl, Or.inr (Or.inl rfl)⟩)

/-- An `io_uring_prep_*` call: a null entry that is used ends the program. -/
theorem Kept.prep (kept : Kept slots entries s ghost)
    (pc : s.pc = .running task back thread gaveUp) {ref : SqeRef}
    {entry : Sqe} {resume : Unit → Thread coroutines Int}
    (move : thread.move = .performs (.prep ref entry) resume)
    (step : s.perform result task back gaveUp (.prep ref entry) resume = some s') :
    ∃ ghost', Kept slots entries s' ghost' ∧ Change entries (.go result) s ghost s' ghost' := by
  obtain ⟨runs, -⟩ := kept.running pc
  have allowed := kept.allowed pc move
  cases ref with
  | none =>
    simp only [Sys.perform, Option.some.injEq] at step
    subst step
    have gaveUp : gaveUp = true := runs.given.symm.trans allowed
    refine ⟨ghost, ⟨kept.holders, kept.roster, kept.queues.frame rfl rfl rfl rfl rfl rfl, trivial⟩,
      ?_⟩
    exact .stopped rfl ⟨rfl, rfl, rfl⟩ fun _ => ⟨task, back, thread, by rw [pc, gaveUp]⟩
  | some index =>
    obtain ⟨inHand, names, next⟩ := allowed
    simp only [Sys.perform, Option.some.injEq] at step
    subst step
    refine ⟨{ ghost with hand := ghost.hand.prepare index entry },
      ⟨kept.holders, kept.roster, ?_, ?_⟩, ?_⟩
    · exact (kept.queues.prep inHand names).frame rfl rfl rfl rfl rfl rfl
    · exact ⟨⟨runs.same, runs.born, runs.outside, runs.given, runs.pool, runs.begins⟩, next⟩
    · refine .quiet (by rw [pc]; rfl) ⟨rfl, rfl, rfl⟩ (List.length_map _) rfl rfl
        (Or.inr ⟨?_, rfl, Or.inl rfl⟩)
      exact List.length_map _

/-- `co_await io.complete(..)`. -/
theorem Kept.complete (kept : Kept slots entries s ghost)
    (pc : s.pc = .running task back thread gaveUp)
    {refs : List SqeRef} {resume : List Int → Thread coroutines Int}
    (move : thread.move = .performs (.complete refs) resume)
    (step : s.perform result task back gaveUp (.complete refs) resume = some s') :
    ∃ ghost', Kept slots entries s' ghost' ∧ Change entries (.go result) s ghost s' ghost' := by
  obtain ⟨runs, -⟩ := kept.running pc
  have allowed := kept.allowed pc move
  obtain ⟨all, nonempty, holding, prepared, reserved, next⟩ := allowed
  obtain ⟨fuseIo, slot⟩ := Option.ne_none_iff_exists'.mp holding
  obtain rfl := runs.same
  have real : none ∉ refs := by
    rw [all]
    simp
  have count : refs.length = ghost.hand.own.length := by rw [all, List.length_map]
  obtain ⟨own, split, contents, lengths, tag⟩ := kept.queues.tag all
  have idle : Hand.empty.Idle := ⟨rfl, rfl⟩
  have queues := kept.queues.park all nonempty prepared slot idle ⟨ghost.task, resume⟩
  have new : s.park refs ⟨ghost.task, resume⟩ = { s with
      sq := ghost.awaited ++ tagged own (IoUringAwaiter.userData s.created refs.length)
      awaiters :=
        Function.update s.awaiters s.created (some (.make ⟨ghost.task, resume⟩ refs.length))
      created := s.created + 1 } := by
    rw [Sys.park, tag]
  simp only [Sys.perform, if_neg real, Option.some.injEq] at step
  have parked : s' = { s.park refs ⟨ghost.task, resume⟩ with pc := back.pc } := step.symm
  rw [new] at queues parked
  have place : back.pc.phase = s.pc.phase := by rw [Back.phase_pc, pc, Pc.phase]
  have control : s'.Control ⟨⟨s.created, ghost.task, fuseIo, refs.length,
      ghost.hand.stage⟩ :: ghost.roster,
      ghost.awaited ++ tagged own (IoUringAwaiter.userData s.created refs.length),
      ghost.task, .empty⟩ := by
    rw [parked]
    cases back <;> rfl
  have unborn : s.awaiters s.created = none := by
    by_contra taken
    obtain ⟨awaiter, owner⟩ := Option.ne_none_iff_exists'.mp taken
    exact absurd (kept.queues.sound.fresh _ _ owner) (Nat.lt_irrefl _)
  have held : Hand.holding fuseIo ghost.hand.stage =
      ⟨ghost.hand.fuseIo, [], ghost.hand.reserved, false, ghost.hand.stage⟩ := by
    rw [Hand.holding, slot, reserved]
  have resumes : Waiting.Resumes ⟨s.created, ghost.task, fuseIo, refs.length, ghost.hand.stage⟩
      (.make ⟨ghost.task, resume⟩ refs.length) := by
    refine ⟨rfl, List.length_replicate, fun results => ?_⟩
    rw [held]
    exact next results
  refine ⟨_, ⟨?_, ?_, ?_, control⟩, ?_⟩
  · rw [parked]
    have holders := kept.holders
    rw [Ghost.held, slot] at holders
    exact holders
  · rw [parked]
    refine kept.roster.park unborn resumes ?_
    have positive := List.length_pos_iff.mpr nonempty
    refine ⟨count ▸ positive, ?_⟩
    have follows := kept.queues.chain.resolve_left (by omega)
    rw [reserved, Nat.add_zero, ← count] at follows
    exact follows
  · rw [parked]
    exact queues.frame rfl rfl rfl rfl rfl rfl
  · have longer : (tagged own (IoUringAwaiter.userData s.created refs.length)).length =
        own.length := by
      rw [tagged, List.length_map, List.length_zip, ← lengths, Nat.min_self]
    have targets := tagged_userData lengths
    rw [parked]
    refine .parked place ⟨rfl, rfl, rfl⟩ ?_ _ rfl rfl count reserved rfl ?_ ?_ ?_ rfl
    · show (ghost.awaited ++ tagged own _).length = s.sq.length
      rw [split, List.length_append, List.length_append, longer]
    · exact fun entry member => List.mem_append_left _ member
    · intro entry member
      refine (List.mem_append.mp member).imp_right fun new => ?_
      obtain ⟨pair, inside, rfl⟩ := List.mem_map.mp new
      exact ⟨pair.2, rfl, (mem_userData.mp (List.of_mem_zip inside).2).1⟩
    · have some : ⟨s.created, 0⟩ ∈ IoUringAwaiter.userData s.created refs.length := by
        refine mem_userData.mpr ⟨rfl, ?_⟩
        rw [count]
        exact List.length_pos_iff.mpr nonempty
      rw [← targets] at some
      obtain ⟨entry, member, own'⟩ := List.mem_filterMap.mp some
      exact ⟨entry, List.mem_append_right _ member, _, own', rfl⟩

theorem room_some {free rest : List SqeEntry} {peek : Nat} {entry : SqeEntry}
    (found : Sys.room free peek = some (entry, rest)) : free = entry :: rest ∧
    peek ≤ rest.length + 1 := by
  cases free with
  | nil => cases found
  | cons first others =>
    simp only [Sys.room, Option.ite_none_right_eq_some, Option.some.injEq, Prod.mk.injEq] at found
    obtain ⟨enough, rfl, rfl⟩ := found
    exact ⟨rfl, enough⟩

/-- An entry that was made sure of. -/
theorem room_reserved {free : List SqeEntry} {reserved : Nat} (positive : 0 < reserved)
    (kept : reserved ≤ free.length) :
    ∃ entry rest, free = entry :: rest ∧ Sys.room free 1 = some (entry, rest) := by
  cases free with
  | nil => exact absurd positive (Nat.not_lt.mpr kept)
  | cons entry rest =>
    refine ⟨entry, rest, rfl, ?_⟩
    rw [Sys.room, if_pos (Nat.le_add_left 1 _)]

theorem room_none {free : List SqeEntry} {peek : Nat} (found : Sys.room free peek = none)
    (positive : 1 ≤ peek) :
    free.length < peek := by
  cases free with
  | nil => exact positive
  | cons first others =>
    simp only [Sys.room, ite_eq_right_iff, reduceCtorEq, imp_false, not_le] at found
    exact found

/-- Without a count only a full ring has no room. -/
theorem room_none_single {free : List SqeEntry} {peek : Nat} (single : peek ≤ 1)
    (full : Sys.room free peek = none) : free = [] := by
  cases free with
  | nil => rfl
  | cons entry rest =>
    rw [Sys.room, if_pos (by omega)] at full
    cases full

/-- The first entry of a chain is taken. -/
theorem Kept.takeFirst (kept : Kept slots entries s ghost) (runs : Runs s ghost task back gaveUp)
    (idle : ghost.hand.Idle) {entry : SqeEntry} {rest : List SqeEntry} {peek : Nat} {stage : Stage}
    (free : s.free = entry :: rest) (enough : peek ≤ rest.length + 1)
    (may : ghost.hand.stage.take peek = some stage)
    {next : Thread coroutines Int} (meets : next.Meets discipline Hand.Ended
      { ghost.hand with own := [(entry.index, none)], reserved := peek - 1, stage := stage })
        (ringSubmit : Bool) :
    Kept slots entries
      { s.take entry rest with ringSubmit := ringSubmit, pc := .running task back next gaveUp }
      { ghost with
        hand :=
          { ghost.hand with
            own := [(entry.index, none)], reserved := peek - 1, stage := stage } } := by
  obtain ⟨positive, follows⟩ := Stage.take_follows may
  have chain : ghost.hand.own.length + 1 + (peek - 1) = peek := by
    rw [idle.own, List.length_nil]
    omega
  have taken := kept.queues.take free (show peek - 1 ≤ rest.length by omega) (chain.symm ▸ follows)
  rw [idle.own, List.nil_append] at taken
  exact ⟨kept.holders, kept.roster, taken.frame rfl rfl rfl rfl rfl rfl,
    ⟨⟨runs.same, runs.born, runs.outside,
    runs.given, fun impossible => absurd impossible follows.entered,
    fun impossible => absurd impossible (not_or.mpr ⟨follows.entered, follows.begun⟩)⟩, meets⟩⟩

/-- A further entry of a chain is taken. -/
theorem Kept.takeNext (kept : Kept slots entries s ghost) (runs : Runs s ghost task back gaveUp)
    {entry : SqeEntry} {rest : List SqeEntry} (free : s.free = entry :: rest)
    (reserved : 0 < ghost.hand.reserved)
    {next : Thread coroutines Int} (meets : next.Meets discipline Hand.Ended
      { ghost.hand with
        own := ghost.hand.own ++ [(entry.index, none)]
        reserved := ghost.hand.reserved - 1 })
    (ringSubmit : Bool) :
    Kept slots entries
      { s.take entry rest with ringSubmit := ringSubmit, pc := .running task back next gaveUp }
      { ghost with
        hand :=
          { ghost.hand with
            own := ghost.hand.own ++ [(entry.index, none)]
            reserved := ghost.hand.reserved - 1 } } := by
  have kept' := kept.queues.reserved
  rw [free, List.length_cons] at kept'
  have chain : ghost.hand.own.length + 1 + (ghost.hand.reserved - 1) = ghost.hand.own.length +
      ghost.hand.reserved := by
    omega
  have follows := kept.queues.chain.resolve_left (by omega)
  have taken := kept.queues.take free (show ghost.hand.reserved - 1 ≤ rest.length by omega)
    (chain.symm ▸ follows)
  exact ⟨kept.holders, kept.roster, taken.frame rfl rfl rfl rfl rfl rfl,
    ⟨⟨runs.same, runs.born, runs.outside, runs.given, runs.pool, runs.begins⟩, meets⟩⟩

/-- A `get_sqe` that gives up. -/
theorem Kept.giveUp (kept : Kept slots entries s ghost) (runs : Runs s ghost task back gaveUp)
    (idle : ghost.hand.Idle)
    {next : Thread coroutines Int} (meets : next.Meets discipline Hand.Ended
      { ghost.hand with gaveUp := true })
    (ringSubmit : Bool) : Kept slots entries
      { s with ringSubmit := ringSubmit, pc := .running task back next true }
      { ghost with hand := { ghost.hand with gaveUp := true } } :=
  ⟨kept.holders, kept.roster,
    (kept.queues.idle idle ghost.task { ghost.hand with gaveUp := true }
      ⟨idle.own, idle.reserved⟩).frame
      rfl rfl rfl rfl rfl rfl, ⟨⟨runs.same, runs.born, runs.outside, rfl, runs.pool,
        runs.begins⟩, meets⟩⟩

/-- `get_sqe`. -/
theorem Kept.getSqe (kept : Kept slots entries s ghost)
    (pc : s.pc = .running task back thread gaveUp) {peek : Nat}
    {resume : SqeRef → Thread coroutines Int} (move : thread.move = .performs (.getSqe peek) resume)
    (orderly : orderly s (.go result) = true)
    (step : s.perform result task back gaveUp (.getSqe peek) resume = some s') :
    ∃ ghost', Kept slots entries s' ghost' ∧ Change entries (.go result) s ghost s' ghost' := by
  obtain ⟨runs, -⟩ := kept.running pc
  have allowed := kept.allowed pc move
  obtain ⟨ringSubmit, flagged⟩ := flagged_eq s peek
  simp only [Sys.perform, Sys.getSqe, flagged] at step
  by_cases reserved : 0 < ghost.hand.reserved
  · -- the entries were made sure of by the first `get_sqe` of the chain
    rw [Hand.Allows, if_pos reserved] at allowed
    obtain ⟨rfl, next⟩ := allowed
    obtain ⟨entry, rest, free, found⟩ := room_reserved reserved kept.queues.reserved
    simp only [found, Option.some.injEq] at step
    subst step
    refine ⟨_, kept.takeNext runs free reserved (next _ (kept.queues.fresh free)) ringSubmit, ?_⟩
    refine .taken (by rw [pc]; rfl) ⟨rfl, rfl, rfl⟩ ?_ rfl rfl ?_ (Or.inr ⟨?_, rfl⟩)
    · exact List.length_append
    · exact List.length_append
    · exact (Nat.sub_add_cancel reserved).symm
  rw [Hand.Allows, if_neg reserved] at allowed
  obtain ⟨own, slot, missing, may⟩ := allowed
  have idle : ghost.hand.Idle := ⟨own, Nat.eq_zero_of_not_pos reserved⟩
  cases found : Sys.room s.free peek with
  | some pair =>
    obtain ⟨entry, rest⟩ := pair
    obtain ⟨free, enough⟩ := room_some found
    simp only [found, Option.some.injEq] at step
    subst step
    have fresh : gaveUp = false := by
      by_contra again
      rw [Bool.not_eq_false] at again
      rw [again] at pc
      rw [(orderly_again orderly pc move).1] at found
      cases found
    obtain ⟨stage, may, next⟩ := may (runs.given.trans fresh)
    refine ⟨_, kept.takeFirst runs idle free enough may (next _) ringSubmit, ?_⟩
    refine .taken (by rw [pc]; rfl) ⟨rfl, rfl, rfl⟩ ?_ rfl rfl ?_ (Or.inl ⟨idle, peek, may, rfl⟩)
    · exact List.length_append
    · rw [own]
      rfl
  | none =>
    simp only [found] at step
    have gives : ∀ s', s' =
        { s with ringSubmit := ringSubmit, pc := .running task back (resume none) true } →
        ∃ ghost', Kept slots entries s' ghost' ∧ Change entries (.go result) s ghost s' ghost' := by
      rintro s' rfl
      refine ⟨_, kept.giveUp runs idle missing ringSubmit, ?_⟩
      exact .quiet (by rw [pc]; rfl) ⟨rfl, rfl, rfl⟩ rfl rfl rfl (Or.inr ⟨rfl, rfl, Or.inl rfl⟩)
    cases result with
    | ok count =>
      have fresh : gaveUp = false := by
        by_contra again
        rw [Bool.not_eq_false] at again
        rw [again] at pc
        rcases (orderly_again orderly pc move).2 with impossible | impossible <;> cases impossible
      obtain ⟨stage, may, next⟩ := may (runs.given.trans fresh)
      obtain ⟨one, -⟩ := Stage.take_follows may
      have full : entries < s.sq.length + peek := by
        have none := room_none found one
        have size := kept.queues.size
        omega
      have submits : s.submits = true := by simp [Sys.submits, pc, move, found]
      have queues := kept.queues.consume own count
      dsimp only at step
      by_cases within : count ≤ s.sq.length
      · rw [if_pos within, Option.some.injEq] at step
        subst step
        by_cases many : peek > 1
        · simp only [if_pos many]
          refine ⟨{ ghost with awaited := ghost.awaited.drop count }, ⟨kept.holders, kept.roster,
            queues.frame rfl rfl rfl rfl rfl rfl, ?_⟩, ?_⟩
          · have control : Runs s ghost task back gaveUp ∧
                thread.Meets discipline Hand.Ended ghost.hand := kept.running pc
            simp only [Sys.Control, Sys.consume, pc]
            exact ⟨⟨runs.same, runs.born, runs.outside, runs.given, runs.pool,
              runs.begins⟩, control.2⟩
          · exact .submitted submits rfl rfl rfl count rfl within rfl rfl rfl rfl rfl idle
              ⟨peek, stage, may, full⟩
        · simp only [if_neg many]
          obtain rfl : peek = 1 := by omega
          refine ⟨{ ghost with awaited := ghost.awaited.drop count }, ⟨kept.holders, kept.roster,
            queues.frame rfl rfl rfl rfl rfl rfl, ?_⟩, ?_⟩
          · exact ⟨⟨runs.same, runs.born, runs.outside, runs.given, runs.pool, runs.begins⟩, idle,
              stage, may, next⟩
          · exact .submitted submits (by rw [pc]; rfl) rfl rfl count rfl within rfl rfl
              rfl rfl rfl idle
              ⟨1, stage, may, full⟩
      · rw [if_neg within] at step
        cases step
    | busy =>
      dsimp only at step
      by_cases many : peek > 1
      · rw [if_pos many, Option.some.injEq] at step
        subst step
        refine ⟨ghost, ⟨kept.holders, kept.roster, kept.queues.frame rfl rfl rfl rfl rfl rfl, ?_⟩,
          Change.quietly rfl ⟨rfl, rfl, rfl⟩ rfl⟩
        simp only [Sys.Control, pc]
        exact ⟨⟨runs.same, runs.born, runs.outside, runs.given, runs.pool, runs.begins⟩,
          (kept.running pc).2⟩
      · rw [if_neg many, Option.some.injEq] at step
        exact gives s' step.symm
    | failed => exact gives s' (Option.some.inj step).symm

/-- An operation of the running coroutine. -/
theorem Kept.perform (kept : Kept slots entries s ghost)
    (pc : s.pc = .running task back thread gaveUp)
    (orderly : orderly s (.go result) = true) {op : Effect} {resume : op.Answer →
      Thread coroutines Int}
    (move : thread.move = .performs op resume)
    (step : s.perform result task back gaveUp op resume = some s') :
    ∃ ghost', Kept slots entries s' ghost' ∧ Change entries (.go result) s ghost s' ghost' := by
  cases op with
  | getFuseIo => exact kept.getFuseIo pc move step
  | releaseFuseIo fuseIo => exact kept.releaseFuseIo pc move step
  | getSqe peek => exact kept.getSqe pc move orderly step
  | prep ref entry => exact kept.prep pc move step
  | complete refs => exact kept.complete pc move step
  | load fuseIo =>
    have allowed := kept.allowed pc move
    simp only [Sys.perform, Option.some.injEq] at step
    subst step
    exact ⟨ghost, kept.goOn (kept.running pc).1 (allowed.2 _),
      Change.quietly (by rw [pc]; rfl) ⟨rfl, rfl, rfl⟩ rfl⟩
  | store fuseIo mem =>
    have allowed := kept.allowed pc move
    simp only [Sys.perform, Option.some.injEq] at step
    subst step
    exact ⟨ghost, kept.goOn (kept.running pc).1 allowed.2,
      Change.quietly (by rw [pc]; rfl) ⟨rfl, rfl, rfl⟩ rfl⟩
  | setLastRc rc =>
    have allowed := kept.allowed pc move
    simp only [Sys.perform, Option.some.injEq] at step
    subst step
    exact ⟨ghost, kept.goOn (kept.running pc).1 allowed.2,
      Change.quietly (by rw [pc]; rfl) ⟨rfl, rfl, rfl⟩ rfl⟩

end Operations

/-! ### The loops -/

section Loops

variable {slots entries : Nat} {s s' : Sys} {ghost : Ghost} {result : SubmitResult}
  {ring : FuseRing}

/-- In the loops nothing is in hand. -/
theorem Kept.loop (kept : Kept slots entries s ghost) (pc : s.pc = .refill ∨ s.pc = .submit ∨
    s.pc = .pass) :
    ghost.hand = .empty := by
  have control := kept.control
  rcases pc with pc | pc | pc <;> simpa [Sys.Control, pc] using control

/-- Nor is anything when `run` has returned. -/
theorem Kept.exited (kept : Kept slots entries s ghost) {rc : Int} (pc : s.pc = .exited rc) :
    ghost.hand = .empty := by
  have control := kept.control
  simpa [Sys.Control, pc] using control

theorem Hand.idle_empty : Hand.empty.Idle := ⟨rfl, rfl⟩

/-- A slot is free: `queue_read_set_rc` is started. -/
theorem Kept.refill (kept : Kept slots entries s ghost) (pc : s.pc = .refill)
    (step : s.go ring result = some s') :
    ∃ ghost', Kept slots entries s' ghost' ∧ Change entries (.go result) s ghost s' ghost' := by
  have empty := kept.loop (Or.inl pc)
  simp only [Sys.go, pc] at step
  cases ios : s.ios with
  | nil =>
    simp only [ios, Option.some.injEq] at step
    subst step
    rw [← ios]
    exact ⟨ghost, ⟨kept.holders, kept.roster, kept.queues.frame rfl rfl rfl rfl rfl rfl, empty⟩,
      Change.quietly (by rw [pc]; rfl) ⟨rfl, rfl, rfl⟩ rfl⟩
  | cons first others =>
    simp only [ios, Option.some.injEq] at step
    subst step
    rw [← ios]
    refine ⟨{ ghost with task := s.started, hand := .empty }, ⟨?_, kept.roster, ?_, ?_⟩, ?_⟩
    · have holders := kept.holders.start
      rw [Ghost.held, empty] at holders
      exact holders
    · exact (kept.queues.idle (empty ▸ Hand.idle_empty) s.started .empty Hand.idle_empty).frame rfl
        rfl rfl rfl rfl rfl
    · refine ⟨⟨rfl, Nat.lt_succ_self _, fun _ member => ?_, rfl, fun _ => ?_, fun _ => rfl⟩,
        Thread.meets_start (wp_queueReadSetRc ring)⟩
      · obtain ⟨holder, inside, same⟩ := List.mem_map.mp member
        exact absurd (kept.holders.born holder inside) (same ▸ Nat.lt_irrefl _)
      · show s.ios ≠ []
        rw [ios]
        exact List.cons_ne_nil _ _
    · refine .quiet (by rw [pc]; rfl) ⟨rfl, rfl, rfl⟩ rfl rfl rfl (Or.inl ⟨?_, rfl⟩)
      rw [empty]
      rfl

/-- The running coroutine calls, returns, performs an operation or is at its end. -/
theorem Kept.run (kept : Kept slots entries s ghost) {task : Nat} {back : Back}
    {thread : Thread coroutines Int}
    {gaveUp : Bool} (pc : s.pc = .running task back thread gaveUp)
    (orderly : orderly s (.go result) = true)
    (step : s.go ring result = some s') :
    ∃ ghost', Kept slots entries s' ghost' ∧ Change entries (.go result) s ghost s' ghost' := by
  obtain ⟨runs, meets⟩ := kept.running pc
  simp only [Sys.go, pc] at step
  cases move : thread.move with
  | ended value =>
    simp only [move, Option.some.injEq] at step
    subst step
    obtain ⟨idle, ended⟩ : ghost.hand.Idle ∧ ghost.hand.Ended := by
      have ends := meets.move
      rw [move] at ends
      exact ends
    refine ⟨{ ghost with hand := .empty }, ⟨?_, kept.roster, ?_, ?_⟩, ?_⟩
    · have holders := kept.holders
      rw [Ghost.held, ended] at holders
      exact holders
    · exact (kept.queues.idle idle ghost.task .empty Hand.idle_empty).frame rfl rfl rfl rfl rfl rfl
    · cases back <;> rfl
    · exact .quiet (by rw [Back.phase_pc, pc, Pc.phase]) ⟨rfl, rfl, rfl⟩ rfl rfl rfl
        (Or.inl ⟨idle.own, rfl⟩)
  | turned next =>
    simp only [move, Option.some.injEq] at step
    subst step
    have turned : next.Meets discipline Hand.Ended ghost.hand := by
      have turns := meets.move
      rw [move] at turns
      exact turns
    exact ⟨ghost, kept.goOn runs turned, Change.quietly (by rw [pc]; rfl) ⟨rfl, rfl, rfl⟩ rfl⟩
  | performs op resume =>
    simp only [move] at step
    exact kept.perform pc orderly move step

/-- The loop at the end of `get_sqe()`. -/
theorem Kept.poll (kept : Kept slots entries s ghost) {task : Nat} {back : Back}
    {resume : SqeRef → Thread coroutines Int} {gaveUp : Bool}
    (pc : s.pc = .polling task back resume gaveUp)
    (step : s.go ring result = some s') :
    ∃ ghost', Kept slots entries s' ghost' ∧ Change entries (.go result) s ghost s' ghost' := by
  have control := kept.control
  simp only [Sys.Control, pc] at control
  obtain ⟨runs, idle, stage, may, next⟩ := control
  simp only [Sys.go, pc] at step
  cases found : Sys.room s.free 1 with
  | none =>
    simp only [found, Option.some.injEq] at step
    subst step
    exact ⟨ghost, kept, Change.quietly rfl ⟨rfl, rfl, rfl⟩ rfl⟩
  | some pair =>
    obtain ⟨entry, rest⟩ := pair
    obtain ⟨free, enough⟩ := room_some found
    simp only [found, Option.some.injEq] at step
    subst step
    refine ⟨_, kept.takeFirst runs idle free enough may (next _) s.ringSubmit, ?_⟩
    refine .taken (by rw [pc]; rfl) ⟨rfl, rfl, rfl⟩ ?_ rfl rfl ?_ (Or.inl ⟨idle, 1, may, rfl⟩)
    · exact List.length_append
    · rw [idle.own]
      rfl

/-- `fuseuring_submit`. -/
theorem Kept.submit (kept : Kept slots entries s ghost) (pc : s.pc = .submit)
    (step : s.go ring result = some s') :
    ∃ ghost', Kept slots entries s' ghost' ∧ Change entries (.go result) s ghost s' ghost' := by
  have empty := kept.loop (Or.inr (Or.inl pc))
  have exits : ∀ rc, s' = { s with pc := .exited rc } →
      ∃ ghost', Kept slots entries s' ghost' ∧ Change entries (.go result) s ghost s' ghost' := by
    rintro rc rfl
    exact ⟨ghost, ⟨kept.holders, kept.roster, kept.queues.frame rfl rfl rfl rfl rfl rfl, empty⟩,
      .stopped rfl ⟨rfl, rfl, rfl⟩ fun impossible => Pc.noConfusion impossible⟩
  simp only [Sys.go, pc] at step
  cases result with
  | ok count =>
    dsimp only at step
    by_cases within : count ≤ s.sq.length
    · rw [if_pos within, Option.some.injEq] at step
      subst step
      have own : ghost.hand.own = [] := by rw [empty]; rfl
      refine ⟨{ ghost with awaited := ghost.awaited.drop count }, ⟨kept.holders, kept.roster,
        (kept.queues.consume own count).frame rfl rfl rfl rfl rfl rfl, empty⟩, ?_⟩
      have submits : s.submits = true := by rw [Sys.submits, pc]
      exact .entered (by rw [pc]; rfl) rfl rfl rfl submits count rfl within rfl rfl rfl
        rfl empty empty
    · rw [if_neg within] at step
      cases step
  | busy =>
    dsimp only at step
    rw [Option.some.injEq] at step
    by_cases flagged : s.ringSubmit = true
    · rw [if_pos flagged] at step
      subst step
      exact ⟨ghost, kept, Change.quietly rfl ⟨rfl, rfl, rfl⟩ rfl⟩
    · rw [if_neg flagged] at step
      exact exits 18 step.symm
  | failed => exact exits 18 (Option.some.inj step).symm

/-- `io_uring_for_each_cqe` and `io_uring_cq_advance`. -/
theorem Kept.pass (kept : Kept slots entries s ghost) (pc : s.pc = .pass)
    (step : s.go ring result = some s') :
    ∃ ghost', Kept slots entries s' ghost' ∧ Change entries (.go result) s ghost s' ghost' := by
  have empty := kept.loop (Or.inr (Or.inr pc))
  simp only [Sys.go, pc] at step
  cases next : s.cq with
  | nil =>
    simp only [next, Option.some.injEq] at step
    subst step
    rw [← next]
    by_cases failed : s.lastRc ≠ 0
    · simp only [if_pos failed]
      exact ⟨ghost, ⟨kept.holders, kept.roster, kept.queues.frame rfl rfl rfl rfl rfl rfl, empty⟩,
        .passed (by rw [pc]; rfl) Phase.noConfusion Pc.noConfusion next rfl rfl rfl rfl empty rfl⟩
    · simp only [if_neg failed]
      exact ⟨ghost, ⟨kept.holders, kept.roster, kept.queues.frame rfl rfl rfl rfl rfl rfl, empty⟩,
        .passed (by rw [pc]; rfl) Phase.noConfusion Pc.noConfusion next rfl rfl rfl rfl empty rfl⟩
  | cons cqe rest =>
    obtain ⟨target, awaiter, owner, outcome⟩ := kept.queues.handled next
    have shorter : s.cq.length = rest.length + 1 := by rw [next, List.length_cons]
    rcases outcome with ⟨handled, queues⟩ | ⟨handled, gone, queues⟩
    · simp only [next, handled, Option.some.injEq] at step
      subst step
      exact ⟨ghost, ⟨kept.holders, kept.roster.stored owner _ _,
        queues.frame rfl rfl rfl rfl rfl rfl, empty⟩,
        .stored (by rw [pc]; rfl) rfl rfl shorter rfl rfl empty rfl⟩
    · simp only [next, handled, Option.some.injEq] at step
      subst step
      obtain ⟨waiting, member, named⟩ := kept.roster.listed _ _ owner
      obtain ⟨awaiter', owner', resumes⟩ := kept.roster.waits waiting member
      rw [named, owner, Option.some.injEq] at owner'
      subst owner'
      obtain ⟨front, back, split⟩ := List.append_of_mem member
      have perm : ghost.roster.Perm (waiting :: (front ++ back)) := by
        rw [split]
        exact List.perm_middle
      have idle : ghost.hand.Idle := empty ▸ Hand.idle_empty
      have holds := Hand.holds_holding waiting.fuseIo waiting.stage
      have covers : ∀ other ∈ ghost.roster, other.id ≠ target.awaiter → other ∈ front ++ back := by
        intro other inside different
        rcases List.mem_cons.mp (perm.mem_iff.mp inside) with rfl | rest
        · exact absurd named different
        · exact rest
      have vals : waiting.held ∈ s.vals := by
        refine kept.holders.shared.mem_iff.mpr (List.mem_append_right _ ?_)
        exact List.mem_map_of_mem member
      have task := resumes.task
      refine ⟨⟨front ++ back, ghost.awaited, waiting.task, .holding waiting.fuseIo waiting.stage⟩,
        ⟨?_, ?_, ?_, ?_⟩, ?_⟩
      · have holders := kept.holders
        rw [Ghost.held, empty] at holders
        exact holders.perm (perm.map Waiting.held)
      · have roster := kept.roster
        rw [split] at roster
        have resumed := roster.resumed
        rwa [named] at resumed
      · exact ((queues (front ++ back) covers).idle idle waiting.task
          (.holding waiting.fuseIo waiting.stage)
          holds.toIdle).frame rfl rfl rfl rfl rfl rfl
      · have follows := (kept.roster.sizes waiting member).2
        refine ⟨⟨task.symm, ?_, ?_, rfl, ?_, ?_⟩, resumes.meets _⟩
        · rw [task]
          exact kept.holders.born _ vals
        · exact fun impossible => absurd impossible (Option.some_ne_none _)
        · exact fun impossible => absurd impossible follows.entered
        · exact fun impossible => absurd impossible (not_or.mpr ⟨follows.entered, follows.begun⟩)
      · exact .resumed (by rw [pc]; rfl) rfl rfl shorter rfl rfl empty waiting perm rfl
          (named ▸ gone) rfl

/-- **Every orderly step of the program keeps the invariant.** -/
theorem Kept.go (kept : Kept slots entries s ghost) (orderly : orderly s (.go result) = true)
    (step : s.go ring result = some s') :
    ∃ ghost', Kept slots entries s' ghost' ∧ Change entries (.go result) s ghost s' ghost' := by
  cases pc : s.pc with
  | refill => exact kept.refill pc step
  | running task back thread gaveUp => exact kept.run pc orderly step
  | polling task back resume gaveUp => exact kept.poll pc step
  | submit => exact kept.submit pc step
  | pass => exact kept.pass pc step
  | exited rc =>
    simp only [Sys.go, pc] at step
    cases step
  | fault =>
    simp only [Sys.go, pc] at step
    cases step

/-- A completion keeps the invariant. -/
theorem Kept.post (kept : Kept slots entries s ghost) {place : Nat} {res : Int} {bytes : List UInt8}
    (step : s.post place res bytes = some s') :
    Kept slots entries s' ghost ∧ Change entries (.post place res bytes) s ghost s' ghost := by
  cases found : s.flight[place]? with
  | none =>
    simp only [Sys.post, found] at step
    cases step
  | some entry =>
    simp only [Sys.post, found, Option.some.injEq] at step
    subst step
    obtain ⟨bound, -⟩ := List.getElem?_eq_some_iff.mp found
    refine ⟨⟨kept.holders, kept.roster,
      (kept.queues.post res found).frame rfl rfl rfl rfl rfl rfl, ?_⟩, ?_⟩
    · have control := kept.control
      cases pc : s.pc with
      | running task back thread gaveUp =>
        obtain ⟨runs, meets⟩ := kept.running pc
        simp only [Sys.Control]
        exact ⟨⟨runs.same, runs.born, runs.outside, runs.given, runs.pool, runs.begins⟩, meets⟩
      | polling task back resume gaveUp =>
        simp only [Sys.Control, pc] at control ⊢
        obtain ⟨runs, rest⟩ := control
        exact ⟨⟨runs.same, runs.born, runs.outside, runs.given, runs.pool, runs.begins⟩, rest⟩
      | refill => exact kept.loop (Or.inl pc)
      | submit => exact kept.loop (Or.inr (Or.inl pc))
      | pass => exact kept.loop (Or.inr (Or.inr pc))
      | exited rc => exact kept.exited pc
      | fault => trivial
    · refine .posted rfl rfl ?_ ?_ rfl rfl
      · exact List.length_append
      · show s.flight.length = (s.flight.eraseIdx place).length + 1
        rw [List.length_eraseIdx_of_lt bound]
        omega

/-- **Every orderly step keeps the invariant.** -/
theorem Kept.step (kept : Kept slots entries s ghost) {act : Act} (orderly : orderly s act = true)
    (step : s.step ring act = some s') :
    ∃ ghost', Kept slots entries s' ghost' ∧ Change entries act s ghost s' ghost' := by
  cases act with
  | post place res bytes => exact ⟨ghost, kept.post step⟩
  | go result => exact kept.go orderly step

/-- Before the first step. -/
def Ghost.start : Ghost := ⟨[], [], 0, .empty⟩

theorem kept_init (slots entries : Nat) (mem : Nat → Mem) :
    Kept slots entries (Sys.init slots entries mem) Ghost.start where
  holders := by
    refine ⟨?_, List.Perm.refl _, List.nodup_nil, fun _ member => absurd member List.not_mem_nil⟩
    rw [Sys.init, List.map_nil, List.append_nil]
  roster := ⟨List.nodup_nil, fun _ member => absurd member List.not_mem_nil, by simp [Sys.init],
    fun _ member => absurd member List.not_mem_nil⟩
  queues := by
    refine ⟨⟨[], rfl, rfl⟩, fun _ member => absurd member List.not_mem_nil,
      fun _ member => absurd member List.not_mem_nil,
      fun _ member => absurd member List.not_mem_nil, sound_idle, ?_, ?_,
      Nat.zero_le _, Or.inl rfl⟩
    · rw [Sys.init, List.nil_append, List.map_map]
      refine List.Nodup.map ?_ List.nodup_range
      intro first second same
      exact same
    · rw [Sys.init, List.length_map, List.length_range, List.length_nil, Nat.zero_add]
  control := rfl

/-- **The invariant of the orderly runs.** -/
theorem kept_of_reaches {permitted : Sys → Act → Prop} {mem : Nat → Mem}
    (orderly : ∀ s act, permitted s act → orderly s act = true)
    (run : Sys.Reaches ring permitted (Sys.init slots entries mem) s) :
    ∃ ghost, Kept slots entries s ghost := by
  induction run with
  | start => exact ⟨_, kept_init slots entries mem⟩
  | step act _ allowed step ih =>
    obtain ⟨ghost, kept⟩ := ih
    obtain ⟨ghost', kept', -⟩ := kept.step (orderly _ _ allowed) step
    exact ⟨ghost', kept'⟩

end Loops

end Fuseuring
