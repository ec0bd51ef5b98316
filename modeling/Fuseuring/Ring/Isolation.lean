/-
**The event loop runs its coroutines as if each were alone.**

* `Kept.mirrors_go`, `Kept.mirrors_post` — every orderly step of the loop, and every completion,
  is a step of the crew, or none.
* `mirrors_of_reaches` — every run of the loop is a run of the crew. Whatever the order of
  completions and coroutines, none sees anything of another but the memory of a slot that
  was given back.
-/

import Fuseuring.Ring.Moves

namespace Fuseuring

open Interaction

section Steps

variable {slots entries : Nat} {s s' : Sys} {ghost : Ghost} {crew : Crew} {ring : FuseRing}
  {result : SubmitResult}

/-! ### The running coroutine -/

/-- An operation of the running coroutine. -/
theorem Kept.mirrors_perform (kept : Kept slots entries s ghost)
    (mirrors : Mirrors s ghost.awaited crew) {task : Nat} {back : Back}
    {thread : Thread coroutines Int} {gaveUp : Bool}
    (pc : s.pc = .running task back thread gaveUp) (orderly : orderly s (.go result) = true)
    {op : Effect} {resume : op.Answer → Thread coroutines Int}
    (move : thread.move = .performs op resume)
    (step : s.perform result task back gaveUp op resume = some s') :
    Mirrored slots entries ring (.go result) s ghost s' crew := by
  cases op with
  | getFuseIo => exact kept.mirrors_getFuseIo mirrors pc move step
  | releaseFuseIo fuseIo => exact kept.mirrors_releaseFuseIo mirrors pc move step
  | store fuseIo mem => exact kept.mirrors_store mirrors pc move step
  | getSqe peek => exact kept.mirrors_getSqe mirrors pc move orderly step
  | prep ref sqe => exact kept.mirrors_prep mirrors pc move step
  | complete refs => exact kept.mirrors_complete mirrors pc move step
  | load fuseIo =>
    have allowed := kept.allowed pc move
    simp only [Sys.perform, Option.some.injEq] at step
    subst step
    exact kept.answered mirrors pc (fun _ => .goesOn) (kept.goOn (kept.running pc).1 (allowed.2 _))
      rfl fun hold held => .performs move (.load (held fuseIo allowed.1))
  | setLastRc rc =>
    have allowed := kept.allowed pc move
    simp only [Sys.perform, Option.some.injEq] at step
    subst step
    exact kept.answered mirrors pc (fun _ => .goesOn) (kept.goOn (kept.running pc).1 allowed.2) rfl
      fun hold _ => .performs move (.setLastRc rc)

/-- The running coroutine calls, returns, performs an operation or is at its end. -/
theorem Kept.mirrors_run (kept : Kept slots entries s ghost)
    (mirrors : Mirrors s ghost.awaited crew) {task : Nat} {back : Back}
    {thread : Thread coroutines Int} {gaveUp : Bool}
    (pc : s.pc = .running task back thread gaveUp) (orderly : orderly s (.go result) = true)
    (step : s.go ring result = some s') :
    Mirrored slots entries ring (.go result) s ghost s' crew := by
  obtain ⟨ghost', kept', change⟩ := kept.run pc orderly step
  obtain ⟨runs, meets⟩ := kept.running pc
  simp only [Sys.go, pc] at step
  cases move : thread.move with
  | ended value =>
    simp only [move, Option.some.injEq] at step
    subst step
    obtain ⟨hold, own, found, -, -, -, slot⟩ := kept.mirrored_running mirrors pc
    have current := current_of_pc pc
    have idle : back.pc.phase ≠ .stopped ∧ ∀ other, ({ s with pc := back.pc } : Sys).current ≠
        some other := by
      cases back <;> exact ⟨Phase.noConfusion, fun other impossible => (by cases impossible)⟩
    have awaited := change.awaited_same kept kept' idle.1 rfl rfl
    refine ⟨ghost', crew.set task ⟨hold, .ended⟩, kept', ?_, .goesOn (.goesOn found (.ended move)),
      .same rfl awaited⟩
    rw [awaited]
    refine mirrors.set mirrors.pool runs.born (fun _ _ => Iff.rfl) ?_ ?_
    · refine ⟨slot, fun impossible => absurd impossible (idle.2 task), ?_, fun _ _ => rfl⟩
      exact fun id awaiter pending mine => absurd mine (kept.apart current id awaiter pending)
    · intro other solo different depicts
      refine depicts.beside (fun _ => Iff.rfl) (fun _ _ => rfl) ?_ (idle.2 other) rfl rfl rfl
      rw [current]
      exact fun same => different (Option.some.inj same).symm
  | turned next =>
    simp only [move, Option.some.injEq] at step
    subst step
    have turned : next.Meets discipline Hand.Ended ghost.hand := by
      have turns := meets.move
      rw [move] at turns
      exact turns
    exact kept.answered mirrors pc (fun _ => .goesOn) (kept.goOn runs turned) rfl
      fun _ _ => .turned move
  | performs op resume =>
    simp only [move] at step
    exact kept.mirrors_perform mirrors pc orderly move step

/-- The loop at the end of `get_sqe()`. -/
theorem Kept.mirrors_poll (kept : Kept slots entries s ghost)
    (mirrors : Mirrors s ghost.awaited crew) {task : Nat} {back : Back}
    {resume : SqeRef → Thread coroutines Int} {gaveUp : Bool}
    (pc : s.pc = .polling task back resume gaveUp) (step : s.go ring result = some s') :
    Mirrored slots entries ring (.go result) s ghost s' crew := by
  obtain ⟨ghost', kept', change⟩ := kept.poll pc step
  have current : s.current = some task := by rw [Sys.current, pc]
  obtain ⟨hold, thread, own, found, place, split, contents, owned, slot⟩ :=
    kept.mirrored mirrors current
  rw [pc] at place
  obtain ⟨-, peek, move⟩ := place
  simp only [Sys.go, pc] at step
  cases room : Sys.room s.free 1 with
  | none =>
    simp only [room, Option.some.injEq] at step
    subst step
    exact ⟨ghost, crew, kept, mirrors, .stays result, .same rfl rfl⟩
  | some pair =>
    obtain ⟨entry, rest⟩ := pair
    obtain ⟨free, -⟩ := room_some room
    simp only [room, Option.some.injEq] at step
    subst step
    have awaited := change.awaited_same kept kept'
      (by cases back <;> exact Phase.noConfusion) rfl rfl
    exact kept.mirrors_taken mirrors current found move split contents owned slot free kept' awaited

/-! ### The loops -/

/-- **In the loops no coroutine moves**, and only entries leave the ring. -/
theorem Kept.loops (kept : Kept slots entries s ghost) (mirrors : Mirrors s ghost.awaited crew)
    (empty : ghost.hand = .empty) (idle : ∀ task, s.current ≠ some task) {count handled : Nat}
    {pc : Pc} {ringSubmit : Bool}
    (loop : pc = .submit ∨ pc = .refill ∨ pc = .pass ∨ ∃ rc, pc = .exited rc) :
    Mirrored slots entries ring (.go result) s ghost { s with
      free := s.free ++ s.sq.take count
      sq := s.sq.drop count
      flight := s.flight ++ s.sq.take count
      handled := handled
      ringSubmit := ringSubmit
      pc := pc } crew := by
  have own : ghost.hand.own = [] := by
    rw [empty]
    rfl
  have control : ∀ ghost' : Ghost, ghost'.hand = .empty →
      Sys.Control { s with pc := pc } ghost' := by
    intro ghost' none
    rcases loop with rfl | rfl | rfl | ⟨rc, rfl⟩ <;> exact none
  have halted : ∀ task, ({ s with pc := pc } : Sys).current ≠ some task := by
    intro task runs
    rcases loop with rfl | rfl | rfl | ⟨rc, rfl⟩ <;> cases runs
  have kept' : Kept slots entries { s with
      free := s.free ++ s.sq.take count
      sq := s.sq.drop count
      flight := s.flight ++ s.sq.take count
      handled := handled
      ringSubmit := ringSubmit
      pc := pc } { ghost with awaited := ghost.awaited.drop count } := by
    refine ⟨kept.holders, kept.roster,
      (kept.queues.consume own count).frame rfl rfl rfl rfl rfl rfl, ?_⟩
    have goes := control { ghost with awaited := ghost.awaited.drop count } empty
    rcases loop with rfl | rfl | rfl | ⟨rc, rfl⟩ <;> exact goes
  refine ⟨_, crew, kept', ?_, .stays result, kept.queues.sq own ▸ .left count⟩
  refine mirrors.submitted kept rfl own rfl rfl rfl rfl rfl rfl rfl rfl ?_ ?_
  · cases still : s.current with
    | none =>
      refine Option.eq_none_iff_forall_ne_some.mpr ?_
      exact halted
    | some task => exact absurd still (idle task)
  · intro task thread place
    refine absurd ?_ (idle task)
    cases at' : s.pc with
    | running task' back thread' gaveUp =>
      rw [at'] at place
      rw [Sys.current, at', place.1]
    | polling task' back resume gaveUp =>
      rw [at'] at place
      rw [Sys.current, at', place.1]
    | _ =>
      rw [at'] at place
      exact absurd place id

/-- Where nothing is submitted. -/
theorem Kept.loops_same (kept : Kept slots entries s ghost) (mirrors : Mirrors s ghost.awaited crew)
    (empty : ghost.hand = .empty) (idle : ∀ task, s.current ≠ some task) {handled : Nat} {pc : Pc}
    (loop : pc = .submit ∨ pc = .refill ∨ pc = .pass ∨ ∃ rc, pc = .exited rc) :
    Mirrored slots entries ring (.go result) s ghost
      { s with handled := handled, pc := pc } crew := by
  have none : { s with handled := handled, pc := pc } = { s with
      free := s.free ++ s.sq.take 0
      sq := s.sq.drop 0
      flight := s.flight ++ s.sq.take 0
      handled := handled
      pc := pc } := by
    rw [List.take_zero, List.append_nil, List.append_nil, List.drop_zero]
  rw [none]
  exact kept.loops mirrors empty idle loop

/-- A coroutine is started. -/
theorem Kept.mirrors_refill (kept : Kept slots entries s ghost)
    (mirrors : Mirrors s ghost.awaited crew) (pc : s.pc = .refill)
    (step : s.go ring result = some s') :
    Mirrored slots entries ring (.go result) s ghost s' crew := by
  have empty := kept.loop (Or.inl pc)
  have idle : ∀ task, s.current ≠ some task := by
    intro task runs
    rw [Sys.current, pc] at runs
    cases runs
  obtain ⟨ghost', kept', change⟩ := kept.refill pc step
  simp only [Sys.go, pc] at step
  cases ios : s.ios with
  | nil =>
    simp only [ios, Option.some.injEq] at step
    subst step
    rw [← ios]
    exact kept.loops_same mirrors empty idle (Or.inl rfl)
  | cons first others =>
    simp only [ios, Option.some.injEq] at step
    subst step
    rw [← ios] at kept' change ⊢
    have awaited := change.awaited_same kept kept' Phase.noConfusion rfl rfl
    have unborn := (mirrors.unborn s.started).mpr (Nat.le_refl _)
    have current : ({ s with
        started := s.started + 1
        pc := .running s.started .refill (.start (queueReadSetRc ring)) false } : Sys).current =
        some s.started := rfl
    have outside : ∀ fuseIo, (s.started, fuseIo) ∉ s.vals :=
      fun fuseIo member => absurd (kept.holders.born _ member) (Nat.lt_irrefl _)
    refine ⟨ghost', crew.set s.started (.start ring), kept', ?_, .goesOn (.starts unborn),
      .same rfl awaited⟩
    rw [awaited]
    refine mirrors.set mirrors.pool (Nat.lt_succ_self _) ?_ ?_ ?_
    · intro other different
      show s.started ≤ other ↔ s.started + 1 ≤ other
      omega
    · have whole : s.sq = ghost.awaited ++ [] := by
        rw [List.append_nil]
        exact kept.queues.sq (by rw [empty]; rfl)
      refine depicts_running ?_ ⟨rfl, rfl⟩ current whole rfl (kept'.apart current)
      intro fuseIo mem
      exact iff_of_false (Option.some_ne_none _).symm fun held => outside fuseIo held.1
    · intro other solo different depicts
      refine depicts.beside (fun _ => Iff.rfl) (fun _ _ => rfl) (idle other) ?_ rfl rfl rfl
      rw [current]
      exact fun same => different (Option.some.inj same).symm

/-- `fuseuring_submit`. -/
theorem Kept.mirrors_submit (kept : Kept slots entries s ghost)
    (mirrors : Mirrors s ghost.awaited crew) (pc : s.pc = .submit)
    (step : s.go ring result = some s') :
    Mirrored slots entries ring (.go result) s ghost s' crew := by
  have empty := kept.loop (Or.inr (Or.inl pc))
  have idle : ∀ task, s.current ≠ some task := by
    intro task runs
    rw [Sys.current, pc] at runs
    cases runs
  have exits : s' = { s with pc := .exited 18 } →
      Mirrored slots entries ring (.go result) s ghost s' crew := by
    rintro rfl
    exact kept.loops_same mirrors empty idle (Or.inr (Or.inr (Or.inr ⟨18, rfl⟩)))
  simp only [Sys.go, pc] at step
  cases result with
  | ok count =>
    dsimp only at step
    by_cases within : count ≤ s.sq.length
    · rw [if_pos within, Option.some.injEq] at step
      subst step
      exact kept.loops mirrors empty idle (Or.inr (Or.inr (Or.inl rfl)))
    · rw [if_neg within] at step
      cases step
  | busy =>
    dsimp only at step
    rw [Option.some.injEq] at step
    by_cases flagged : s.ringSubmit = true
    · rw [if_pos flagged] at step
      subst step
      exact ⟨ghost, crew, kept, mirrors, .stays _, .same rfl rfl⟩
    · rw [if_neg flagged] at step
      exact exits step.symm
  | failed => exact exits (Option.some.inj step).symm

/-! ### The completions -/

/-- **A completion is handled**: its result is stored, or its coroutine goes on with all results. -/
theorem Kept.mirrors_pass (kept : Kept slots entries s ghost)
    (mirrors : Mirrors s ghost.awaited crew) (pc : s.pc = .pass)
    (step : s.go ring result = some s') :
    Mirrored slots entries ring (.go result) s ghost s' crew := by
  have empty := kept.loop (Or.inr (Or.inr pc))
  have idle : ∀ task, s.current ≠ some task := by
    intro task runs
    rw [Sys.current, pc] at runs
    cases runs
  obtain ⟨ghost', kept', change⟩ := kept.pass pc step
  simp only [Sys.go, pc] at step
  cases next : s.cq with
  | nil =>
    simp only [next, Option.some.injEq] at step
    subst step
    rw [← next]
    by_cases failed : s.lastRc ≠ 0
    · rw [if_pos failed]
      exact kept.loops_same mirrors empty idle (Or.inr (Or.inr (Or.inr ⟨19, rfl⟩)))
    · rw [if_neg failed]
      exact kept.loops_same mirrors empty idle (Or.inr (Or.inl rfl))
  | cons cqe rest =>
    obtain ⟨userData, res⟩ := cqe
    obtain ⟨⟨id, index⟩, rfl⟩ := Option.ne_none_iff_exists'.mp
      (kept.queues.owned ⟨userData, res⟩ (next ▸ List.mem_cons_self))
    have sound := kept.queues.sound
    rw [Sys.unhandled, next] at sound
    obtain ⟨awaiter, owner, -, -, outcome⟩ := sound.handled res
    by_cases last : outstanding (rest.filterMap Cqe.userData ++
        (s.flight ++ ghost.awaited).filterMap SqeEntry.userData) id = 0
    · have outcome := outcome.trans (if_pos last)
      simp only [next, outcome, Option.some.injEq] at step
      subst step
      have awaited := change.awaited_handled rfl
      have born := kept.waiting_born owner
      obtain ⟨solo, found⟩ := Option.ne_none_iff_exists'.mp
        (mt (mirrors.unborn awaiter.awaiter.task).mp (Nat.not_le.mpr born))
      have depicts := mirrors.depicts _ solo found
      obtain ⟨slot, open', rfl, progress⟩ := depicts.waiting id awaiter owner rfl
      have stored :
          Progress { s with cq := rest } ghost.awaited id (awaiter.store index res) open' :=
        progress.store next rfl rfl rfl
      have results := stored.results fun index left => outstanding_eq_zero.mp last _ left rfl
      refine ⟨ghost', _, kept', ?_, .goesOn (.goesOn found (.resumed results)), .same rfl awaited⟩
      rw [awaited]
      have whole : s.sq = ghost.awaited ++ [] := by
        rw [List.append_nil]
        exact kept.queues.sq (by rw [empty]; rfl)
      refine mirrors.set mirrors.pool born (fun _ _ => Iff.rfl) ?_ ?_
      · exact depicts_running depicts.slot ⟨rfl, rfl⟩ rfl whole rfl (kept'.apart rfl)
      · intro other found' different depicts'
        refine depicts'.frame (fun _ => Iff.rfl) (fun _ _ => rfl)
          (fun runs => absurd (Option.some.inj runs).symm different) (fun _ => idle other) ?_ ?_
        · intro id' awaiter' pending mine
          dsimp only at pending
          have apart : id' ≠ id := by
            rintro rfl
            rw [Function.update_self] at pending
            cases pending
          rw [Function.update_of_ne apart] at pending
          exact ⟨awaiter', pending, rfl,
            fun entries progress => progress.rest next rfl apart rfl rfl⟩
        · intro id' old pending mine
          have apart : id' ≠ id := by
            rintro rfl
            rw [owner, Option.some.injEq] at pending
            exact different (pending ▸ mine).symm
          exact ⟨old, (Function.update_of_ne apart _ _).trans pending, mine⟩
    · have outcome := outcome.trans (if_neg last)
      simp only [next, outcome, Option.some.injEq] at step
      subst step
      have awaited := change.awaited_handled rfl
      refine ⟨ghost', crew, kept', ?_, .stays result, .same rfl awaited⟩
      rw [awaited]
      refine mirrors.stay rfl rfl rfl fun task solo depicts => depicts.frame (fun _ => Iff.rfl)
        (fun _ _ => rfl) (fun runs => (by cases runs)) (fun _ => idle task) ?_ ?_
      · intro id' awaiter' pending mine
        dsimp only at pending
        by_cases same : id' = id
        · subst same
          rw [Function.update_self, Option.some.injEq] at pending
          subst pending
          exact ⟨awaiter, owner, rfl, fun entries progress => progress.store next rfl rfl rfl⟩
        · rw [Function.update_of_ne same] at pending
          exact ⟨awaiter', pending, rfl,
            fun entries progress => progress.rest next rfl same rfl rfl⟩
      · intro id' old pending mine
        by_cases same : id' = id
        · subst same
          rw [owner, Option.some.injEq] at pending
          subst pending
          exact ⟨_, Function.update_self _ _ s.awaiters, mine⟩
        · exact ⟨old, (Function.update_of_ne same _ _).trans pending, mine⟩

/-- What a completed entry leaves in the memory of a slot, if it uses no other slot. -/
theorem received_eq {mem : Nat → Mem} {sqe : Sqe} {bytes : List UInt8} {fuseIo : FuseIo}
    (names : ∀ named ∈ sqe.operation.fuseIos, named = fuseIo) (slot : Nat) :
    Sys.received mem (some sqe) bytes slot =
      if slot = fuseIo.slot then (mem slot).receive sqe.operation bytes else mem slot := by
  obtain ⟨operation, flag⟩ := sqe
  cases operation with
  | read fd buf nbytes =>
    rw [← names buf.fuseIo List.mem_cons_self]
    rfl
  | _ => exact (ite_self _).symm

/-- **The kernel completes an entry** of a coroutine that waits. -/
theorem Kept.mirrors_post (kept : Kept slots entries s ghost)
    (mirrors : Mirrors s ghost.awaited crew) {place : Nat} {res : Int} {bytes : List UInt8}
    (step : s.post place res bytes = some s') :
    Mirrored slots entries ring (.post place res bytes) s ghost s' crew := by
  obtain ⟨kept', -⟩ := kept.post step
  cases found : s.flight[place]? with
  | none =>
    simp only [Sys.post, found] at step
    cases step
  | some entry =>
    simp only [Sys.post, found, Option.some.injEq] at step
    subst step
    have flying : entry ∈ s.flight := List.mem_of_getElem? found
    obtain ⟨waiting, member, sqe, ⟨id, index⟩, prepared, tagged, rfl, names⟩ :=
      kept.queues.awaited entry (List.mem_append_left _ flying)
    obtain ⟨awaiter, owner, resumes⟩ := kept.roster.waits waiting member
    have held : (waiting.task, waiting.fuseIo) ∈ s.vals :=
      kept.holders.shared.mem_iff.mpr (List.mem_append_right _ (List.mem_map_of_mem member))
    have born := kept.holders.born _ held
    obtain ⟨solo, there⟩ := Option.ne_none_iff_exists'.mp
      (mt (mirrors.unborn waiting.task).mp (Nat.not_le.mpr born))
    have depicts := mirrors.depicts _ solo there
    obtain ⟨slot, open', rfl, progress⟩ := depicts.waiting waiting.id awaiter owner resumes.task
    obtain ⟨sqe', prepared', here⟩ :=
      progress.pending entry (List.mem_append_left _ flying) index tagged
    rw [prepared, Option.some.injEq] at prepared'
    subst prepared'
    have mem : ∀ slot, Sys.received s.mem (some sqe) bytes slot =
        if slot = waiting.fuseIo.slot then (s.mem slot).receive sqe.operation bytes
        else s.mem slot := received_eq names
    rw [← prepared] at mem
    have away : ∀ other fuseIo, other ≠ waiting.task → (other, fuseIo) ∈ s.vals →
        Sys.received s.mem entry.sqe bytes fuseIo.slot = s.mem fuseIo.slot := by
      intro other fuseIo different theirs
      rw [mem, if_neg (kept.held_apart held theirs different)]
    have waits : s.current ≠ some waiting.task :=
      fun runs => kept.apart runs waiting.id awaiter owner resumes.task
    have moves : crew.Step ring waiting.task (.completion index res bytes) _ :=
      .goesOn there (.completed res bytes here)
    rw [← resumes.task] at moves
    refine ⟨ghost, _, kept', ?_, .posted found tagged owner moves, .posted place⟩
    rw [resumes.task]
    refine mirrors.set ?_ born (fun _ _ => Iff.rfl) ?_ ?_
    · rw [mirrors.pool]
      refine List.map_congr_left fun fuseIo pooled => ?_
      dsimp only
      rw [mem, if_neg (kept.pool_apart held pooled)]
    · refine ⟨?_, fun runs => absurd runs waits, ?_, ?_⟩
      · intro fuseIo memory
        dsimp only
        rw [Hold.receive, (depicts.slot waiting.fuseIo _).mpr ⟨held, rfl⟩, mem, Option.map_some,
          Option.some.injEq, Prod.mk.injEq]
        constructor
        · rintro ⟨rfl, rfl⟩
          exact ⟨held, (if_pos rfl).symm⟩
        · rintro ⟨mine, rfl⟩
          have same := List.inj_on_of_nodup_map kept.holders.tasks held mine rfl
          obtain rfl := (Prod.mk.inj same).2
          exact ⟨rfl, (if_pos rfl).symm⟩
      · intro id' awaiter' pending mine
        obtain rfl := kept.pending_unique owner pending (mine.trans resumes.task.symm)
        rw [owner, Option.some.injEq] at pending
        subst pending
        exact ⟨_, _, rfl, progress.post kept.queues.sound.nodup found tagged here rfl rfl⟩
      · exact fun _ none => absurd resumes.task (none waiting.id awaiter owner)
    · intro other found' different depicts'
      refine depicts'.frame (fun _ => Iff.rfl) (fun fuseIo => away other fuseIo different)
        (fun _ => ⟨rfl, rfl, rfl⟩) id ?_ fun id' old pending mine => ⟨old, pending, mine⟩
      intro id' awaiter' pending mine
      have apart : id' ≠ waiting.id := by
        rintro rfl
        have pending' : s.awaiters waiting.id = some awaiter' := pending
        rw [owner, Option.some.injEq] at pending'
        subst pending'
        exact different (mine.symm.trans resumes.task)
      refine ⟨awaiter', pending, rfl, fun entries progress => progress.frame ?_ ?_ ?_⟩
      · intro other' inside _ _
        rcases List.mem_append.mp inside with flying' | waits'
        · exact List.mem_append_left _ (List.mem_of_mem_eraseIdx flying')
        · exact List.mem_append_right _ waits'
      · intro cqe inside position theirs
        rcases List.mem_append.mp inside with before | last
        · exact before
        · obtain rfl := List.mem_singleton.mp last
          rw [tagged, Option.some.injEq, UserData.mk.injEq] at theirs
          exact absurd theirs.1.symm apart
      · exact fun index => unhandled_post found rfl rfl _

/-- Every orderly step of the program. -/
theorem Kept.mirrors_go (kept : Kept slots entries s ghost) (mirrors : Mirrors s ghost.awaited crew)
    (orderly : orderly s (.go result) = true) (step : s.go ring result = some s') :
    Mirrored slots entries ring (.go result) s ghost s' crew := by
  cases pc : s.pc with
  | refill => exact kept.mirrors_refill mirrors pc step
  | running task back thread gaveUp => exact kept.mirrors_run mirrors pc orderly step
  | polling task back resume gaveUp => exact kept.mirrors_poll mirrors pc step
  | submit => exact kept.mirrors_submit mirrors pc step
  | pass => exact kept.mirrors_pass mirrors pc step
  | exited rc =>
    simp only [Sys.go, pc] at step
    cases step
  | fault =>
    simp only [Sys.go, pc] at step
    cases step

/-- **Every orderly step is a step of the crew**, or none. -/
theorem Kept.mirrors_step (kept : Kept slots entries s ghost)
    (mirrors : Mirrors s ghost.awaited crew) {act : Act} (orderly : orderly s act = true)
    (step : s.step ring act = some s') : Mirrored slots entries ring act s ghost s' crew := by
  cases act with
  | post place res bytes => exact kept.mirrors_post mirrors step
  | go result => exact kept.mirrors_go mirrors orderly step

end Steps

/-! ### The runs -/

theorem mirrors_init (slots entries : Nat) (mem : Nat → Mem) :
    Mirrors (Sys.init slots entries mem) [] (Crew.init slots mem) where
  pool := by
    rw [Crew.init, Sys.init, List.map_map]
    rfl
  unborn := fun task => iff_of_true rfl (Nat.zero_le _)
  depicts := fun task solo impossible => (by cases impossible)

section Runs

variable {slots entries : Nat} {ring : FuseRing} {mem : Nat → Mem} {s : Sys}

/-- The invariant of the loop and the crew, along a run. -/
theorem kept_mirrors_of_reaches {permitted : Sys → Act → Prop}
    (orderly : ∀ s act, permitted s act → orderly s act = true)
    (run : Sys.Reaches ring permitted (Sys.init slots entries mem) s) :
    ∃ ghost crew, Kept slots entries s ghost ∧ Mirrors s ghost.awaited crew ∧
      Crew.Reaches ring (Crew.init slots mem) crew := by
  induction run with
  | start => exact ⟨_, _, kept_init slots entries mem, mirrors_init slots entries mem, .start⟩
  | step act _ allowed step ih =>
    obtain ⟨ghost, crew, kept, mirrors, reached⟩ := ih
    obtain ⟨ghost', crew', kept', mirrors', moved, -⟩ :=
      kept.mirrors_step mirrors (orderly _ _ allowed) step
    exact ⟨ghost', crew', kept', mirrors', moved.reaches reached⟩

/-- **Isolation.** Every orderly run of the event loop is, coroutine by coroutine, a run of a crew
in which each sees only its own slot, its own entries and their results. -/
theorem isolated_of_orderly
    (run : Sys.Reaches ring (fun s act => orderly s act = true) (Sys.init slots entries mem) s) :
    ∃ awaited crew, awaited <+: s.sq ∧ Mirrors s awaited crew ∧
      Crew.Reaches ring (Crew.init slots mem) crew := by
  obtain ⟨ghost, crew, kept, mirrors, reached⟩ :=
    kept_mirrors_of_reaches (fun _ _ holds => holds) run
  obtain ⟨own, split, -⟩ := kept.queues.queue
  exact ⟨ghost.awaited, crew, ⟨own, split.symm⟩, mirrors, reached⟩

end Runs

/-- Two coroutines wait for their requests, and the header of one is there. -/
theorem isolated_of_orderly_two : ∃ (s : Sys) (awaited : List SqeEntry) (crew : Crew),
    s.flight.length = 3 ∧ s.cq.length = 1 ∧ s.started = 2 ∧ Mirrors s awaited crew ∧
      Crew.Reaches FuseRing.small (Crew.init 2 fun _ => Mem.zero) crew := by
  have ran : (Sys.run FuseRing.small (fun s act => orderly s act = true)
      (goOn 17 ++ [.go (.ok 4), .post 1 40 (List.replicate 40 7)])
      (Sys.init 2 100 fun _ => Mem.zero)).any
      (fun s => s.flight.length == 3 && s.cq.length == 1 && s.started == 2) = true := by
    decide +kernel
  obtain ⟨s, reached, facts⟩ := (Option.any_eq_true _ _).mp ran
  simp only [Bool.and_eq_true, beq_iff_eq] at facts
  obtain ⟨⟨flight, cq⟩, started⟩ := facts
  obtain ⟨awaited, crew, -, mirrors, run⟩ :=
    isolated_of_orderly (Sys.reaches_of_run _ .start reached)
  exact ⟨s, awaited, crew, flight, cq, started, mirrors, run⟩

end Fuseuring
