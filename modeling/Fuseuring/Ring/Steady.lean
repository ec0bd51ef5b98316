/-
**What every run keeps, whatever the ring and the kernel do.**

`Steady` is an invariant of all runs of the event loop, also those in which a `get_sqe`
gives up, a completion is stray or the ring held anything before the first step: the slots
are shared out between the pool and the coroutines, and each coroutine goes on under `care`.
In the runs whose steps are `trustworthy` no coroutine is about to use a null entry.
-/

import Fuseuring.Ring.Care
import Fuseuring.Ring.Step

namespace Fuseuring

open Interaction

/-! ### Null entries -/

/-- The next operation of the thread prepares a null entry, or awaits one. -/
inductive UsesNull : Thread coroutines Int → Prop
  | prep {thread : Thread coroutines Int} {entry : Sqe} {resume : Unit → Thread coroutines Int} :
      thread.move = .performs (.prep none entry) resume → UsesNull thread
  | complete {thread : Thread coroutines Int} {refs : List SqeRef}
    {resume : List Int → Thread coroutines Int} :
      thread.move = .performs (.complete refs) resume → none ∈ refs → UsesNull thread
  | turn {thread next : Thread coroutines Int} : thread.move = .turned next → UsesNull next →
    UsesNull thread

/-- The running coroutine is about to give a null entry to an `io_uring_prep_*`
call or to `complete`. -/
def Sys.PreparesNull (s : Sys) : Prop :=
  ∃ task back thread gaveUp, s.pc = .running task back thread gaveUp ∧ UsesNull thread

/-- The running coroutine is at the `get_sqe()` of the loop that completes a short header, and the
ring is full. -/
def Sys.HeaderLoopFull (s : Sys) : Prop :=
  ∃ task back thread gaveUp, s.pc = .running task back thread gaveUp ∧
    headerLoop.here thread.program ∧ s.free = []

/-- A submit on a full ring in the loop that completes a short header succeeds. -/
def trustworthy (s : Sys) : Act → Prop
  | .post _ _ _ => True
  | .go result => s.HeaderLoopFull → ∃ count, result = .ok count

/-! ### The invariant -/

/-- The slots are shared out between the pool and the coroutines, each of which has one at most. -/
structure Pool (slots : Nat) (ios : List FuseIo) (vals : List (Nat × FuseIo))
    (started : Nat) : Prop where
  shared : (ios ++ vals.map Prod.snd).Perm ((List.range slots).map FuseIo.mk)
  tasks : (vals.map Prod.fst).Nodup
  born : ∀ holder ∈ vals, holder.1 < started

/-- Each awaiter is that of a coroutine of its own, which has a slot. -/
structure Waits (awaiters : Nat → Option (IoUringAwaiter Suspended)) (created : Nat)
    (vals : List (Nat × FuseIo)) :
    Prop where
  unborn : ∀ id, created ≤ id → awaiters id = none
  holds : ∀ id awaiter, awaiters id = some awaiter →
    ∃ fuseIo, (awaiter.awaiter.task, fuseIo) ∈ vals ∧
    ∀ results, (awaiter.awaiter.resume results).MeetsAt cares Grip.Ended (.on fuseIo)
  apart : ∀ id id' awaiter awaiter', awaiters id = some awaiter → awaiters id' = some awaiter' →
    awaiter.awaiter.task = awaiter'.awaiter.task → id = id'

/-- What the running coroutine relies on is so. -/
structure Relies (s : Sys) (task : Nat) (grip : Grip) : Prop where
  reserved : grip.reserved ≤ s.free.length
  slot : ∀ fuseIo, grip.fuseIo = some fuseIo → (task, fuseIo) ∈ s.vals
  none : grip.fuseIo = Option.none → task ∉ s.vals.map Prod.fst
  born : task < s.started
  alone : ∀ id awaiter, s.awaiters id = some awaiter → awaiter.awaiter.task ≠ task

/-- What holds where the control is. -/
def Sys.Attends (trusted : Prop) (s : Sys) : Prop :=
  match s.pc with
  | .running task _ thread _ =>
    ∃ grip, Relies s task grip ∧ thread.MeetsAt cares Grip.Ended grip ∧
      (trusted → grip.missed = false)
  | .polling task _ resume _ => ∃ grip, Relies s task grip ∧
      ∀ index, (resume (some index)).MeetsAt cares Grip.Ended
        { grip with reserved := 0, missed := false }
  | _ => True

/-- **The invariant.** -/
structure Steady (trusted : Prop) (slots : Nat) (s : Sys) : Prop where
  pool : Pool slots s.ios s.vals s.started
  waits : Waits s.awaiters s.created s.vals
  attends : s.Attends trusted

/-! ### The pool -/

section Pool

variable {slots started task : Nat} {ios : List FuseIo} {vals : List (Nat × FuseIo)}
  {fuseIo : FuseIo}

theorem Pool.start (pool : Pool slots ios vals started) : Pool slots ios vals (started + 1) :=
  { pool with born := fun holder member => Nat.lt_succ_of_lt (pool.born holder member) }

/-- A slot is taken by a coroutine that has none. -/
theorem Pool.enter (pool : Pool slots ios vals started) (last : ios.getLast? = some fuseIo)
    (other : task ∉ vals.map Prod.fst) (born : task < started) :
    Pool slots ios.dropLast (vals ++ [(task, fuseIo)]) started := by
  have holders : Holders slots ios vals started vals :=
    ⟨pool.shared, .refl _, pool.tasks, pool.born⟩
  obtain ⟨shared, -, tasks, born'⟩ := holders.enter last other born
  exact ⟨shared, tasks, born'⟩

/-- A slot is given back by the coroutine that has it. -/
theorem Pool.leave (pool : Pool slots ios vals started) (member : (task, fuseIo) ∈ vals) :
    Pool slots (ios ++ [fuseIo]) (vals.erase (task, fuseIo)) started ∧
      task ∉ (vals.erase (task, fuseIo)).map Prod.fst := by
  have holders : Holders slots ios vals started ((task, fuseIo) :: vals.erase (task, fuseIo)) :=
    ⟨pool.shared, List.perm_cons_erase member, pool.tasks, pool.born⟩
  obtain ⟨⟨shared, -, tasks, born⟩, outside⟩ := holders.leave
  exact ⟨⟨shared, tasks, born⟩, outside⟩

/-- **Not more coroutines have slots than there are.** -/
theorem Pool.length_le (pool : Pool slots ios vals started) : vals.length ≤ slots := by
  have lengths := pool.shared.length_eq
  rw [List.length_append, List.length_map, List.length_map, List.length_range] at lengths
  omega

end Pool

/-! ### The awaiters -/

section Waits

variable {awaiters : Nat → Option (IoUringAwaiter Suspended)} {created : Nat}
  {vals vals' : List (Nat × FuseIo)}

/-- Coroutines that wait keep their slots. -/
theorem Waits.mono (waits : Waits awaiters created vals)
    (more : ∀ id awaiter fuseIo, awaiters id = some awaiter →
      (awaiter.awaiter.task, fuseIo) ∈ vals →
      (awaiter.awaiter.task, fuseIo) ∈ vals') : Waits awaiters created vals' := by
  refine ⟨waits.unborn, fun id awaiter found => ?_, waits.apart⟩
  obtain ⟨fuseIo, member, meets⟩ := waits.holds id awaiter found
  exact ⟨fuseIo, more id awaiter fuseIo found member, meets⟩

/-- A coroutine waits. -/
theorem Waits.park (waits : Waits awaiters created vals) {handle : Suspended}
    {fuseIo : FuseIo} (count : Nat)
    (member : (handle.task, fuseIo) ∈ vals)
    (meets : ∀ results, (handle.resume results).MeetsAt cares Grip.Ended (.on fuseIo))
    (alone : ∀ id awaiter, awaiters id = some awaiter → awaiter.awaiter.task ≠ handle.task) :
    Waits (Function.update awaiters created (some (.make handle count))) (created + 1) vals := by
  refine ⟨fun id later => ?_, fun id awaiter found => ?_,
    fun id id' awaiter awaiter' found found' same => ?_⟩
  · rw [Function.update_of_ne (by omega)]
    exact waits.unborn id (by omega)
  · by_cases new : id = created
    · subst new
      rw [Function.update_self, Option.some.injEq] at found
      subst found
      exact ⟨fuseIo, member, meets⟩
    · rw [Function.update_of_ne new] at found
      exact waits.holds id awaiter found
  · by_cases new : id = created <;> by_cases new' : id' = created
    · rw [new, new']
    · rw [new, Function.update_self, Option.some.injEq] at found
      rw [Function.update_of_ne new'] at found'
      subst found
      exact absurd same.symm (alone id' awaiter' found')
    · rw [Function.update_of_ne new] at found
      rw [new', Function.update_self, Option.some.injEq] at found'
      subst found'
      exact absurd same (alone id awaiter found)
    · rw [Function.update_of_ne new] at found
      rw [Function.update_of_ne new'] at found'
      exact waits.apart id id' awaiter awaiter' found found' same

/-- An awaiter goes on with the same coroutine, or is gone. -/
theorem Waits.replace (waits : Waits awaiters created vals) {id : Nat}
    {awaiter : IoUringAwaiter Suspended}
    (found : awaiters id = some awaiter) {changed : Option (IoUringAwaiter Suspended)}
    (same : ∀ new, changed = some new → new.awaiter = awaiter.awaiter) :
    Waits (Function.update awaiters id changed) created vals := by
  have old : ∀ other new, Function.update awaiters id changed other = some new →
      ∃ before, awaiters other = some before ∧ new.awaiter = before.awaiter := by
    intro other new found'
    by_cases here : other = id
    · subst here
      rw [Function.update_self] at found'
      exact ⟨awaiter, found, same new found'⟩
    · rw [Function.update_of_ne here] at found'
      exact ⟨new, found', rfl⟩
  refine ⟨fun other later => ?_, fun other new found' => ?_,
    fun other other' new new' found' found'' tasks => ?_⟩
  · have here : other ≠ id := by
      rintro rfl
      rw [waits.unborn other later] at found
      cases found
    rw [Function.update_of_ne here]
    exact waits.unborn other later
  · obtain ⟨before, owner, handle⟩ := old other new found'
    rw [handle]
    exact waits.holds other before owner
  · obtain ⟨before, owner, handle⟩ := old other new found'
    obtain ⟨before', owner', handle'⟩ := old other' new' found''
    rw [handle, handle'] at tasks
    exact waits.apart other other' before before' owner owner' tasks

/-- **What a completion may do**, also a stray one. -/
theorem handled_cases (awaiters : Nat → Option (IoUringAwaiter Suspended)) (cqe : Cqe) :
    fuseuringHandleCqe awaiters cqe = .ignored ∨ fuseuringHandleCqe awaiters cqe = .dangling ∨
      ∃ id awaiter, awaiters id = some awaiter ∧
        ((∃ new : IoUringAwaiter Suspended, new.awaiter = awaiter.awaiter ∧
            fuseuringHandleCqe awaiters cqe = .stored (Function.update awaiters id (some new))) ∨
          ∃ results, fuseuringHandleCqe awaiters cqe =
            .resumed awaiter.awaiter results (Function.update awaiters id none)) := by
  unfold fuseuringHandleCqe
  cases cqe.userData with
  | none => exact .inl rfl
  | some target =>
    dsimp only
    cases owner : awaiters target.awaiter with
    | none => exact .inr (.inl rfl)
    | some awaiter =>
      dsimp only
      split_ifs with outside last
      · exact .inr (.inl rfl)
      · exact .inr (.inr ⟨target.awaiter, awaiter, owner, .inr ⟨_, rfl⟩⟩)
      · exact .inr (.inr ⟨target.awaiter, awaiter, owner,
          .inl ⟨awaiter.store target.index cqe.res, rfl, rfl⟩⟩)

end Waits

/-! ### The steps of a coroutine -/

section Steps

variable {trusted : Prop} {trusting : Bool} {slots : Nat} {ring : FuseRing} {s s' : Sys}
  {task : Nat} {back : Back} {gaveUp : Bool}
  {thread : Thread coroutines Int} {grip : Grip} {result : SubmitResult}

/-- What is relied on does not change with the rest of the state. -/
theorem Relies.frame (relies : Relies s task grip) {grip' : Grip}
    (reserved : grip'.reserved ≤ s'.free.length)
    (fuseIo : grip'.fuseIo = grip.fuseIo) (vals : s'.vals = s.vals)
    (started : s'.started = s.started)
    (awaiters : s'.awaiters = s.awaiters) : Relies s' task grip' := by
  refine ⟨reserved, ?_, ?_, ?_, ?_⟩
  · rw [fuseIo, vals]
    exact relies.slot
  · rw [fuseIo, vals]
    exact relies.none
  · rw [started]
    exact relies.born
  · rw [awaiters]
    exact relies.alone

/-- Where the control is away from the coroutines. -/
theorem Back.attends (back : Back) {s : Sys} (pc : s.pc = back.pc) : s.Attends trusted := by
  unfold Sys.Attends
  rw [pc]
  cases back <;> trivial

theorem attends_fault {s : Sys} (pc : s.pc = .fault) : s.Attends trusted := by
  unfold Sys.Attends
  rw [pc]
  trivial

/-- A coroutine goes on behind an operation that was answered. -/
theorem attends_running {s : Sys} (pc : s.pc = .running task back thread gaveUp)
    (relies : Relies s task grip)
    (meets : thread.MeetsAt cares Grip.Ended grip) (hit : grip.missed = false) :
    s.Attends trusted := by
  unfold Sys.Attends
  rw [pc]
  exact ⟨grip, relies, meets, fun _ => hit⟩

/-- What the running coroutine keeps. -/
theorem Steady.running (steady : Steady trusted slots s)
    (pc : s.pc = .running task back thread gaveUp) :
    ∃ grip, Relies s task grip ∧ thread.MeetsAt cares Grip.Ended grip ∧
      (trusted → grip.missed = false) := by
  have attends := steady.attends
  rwa [Sys.Attends, pc] at attends

/-- `get_fuse_io` and `release_fuse_io`. -/
theorem Steady.getFuseIo (steady : Steady trusted slots s) (relies : Relies s task grip)
    {resume : FuseIo → Thread coroutines Int}
    (allowed : Grip.Allows trusting .getFuseIo grip fun fuseIo after => (resume fuseIo).MeetsAt
      cares Grip.Ended after)
    (step : s.perform result task back gaveUp .getFuseIo resume = some s') :
    Steady trusted slots s' := by
  obtain ⟨none, rest⟩ := allowed
  simp only [Sys.perform] at step
  cases last : s.ios.getLast? with
  | none =>
    simp only [last, Option.some.injEq] at step
    subst step
    exact ⟨steady.pool, steady.waits, attends_fault rfl⟩
  | some fuseIo =>
    simp only [last, Option.some.injEq] at step
    subst step
    refine ⟨steady.pool.enter last (relies.none none) relies.born, ?_, ?_⟩
    · exact steady.waits.mono fun _ _ _ _ member => List.mem_append_left _ member
    · refine attends_running rfl ⟨Nat.zero_le _, ?_, ?_, relies.born, relies.alone⟩
        (rest fuseIo) rfl
      · intro other same
        rw [← Option.some.inj same]
        exact List.mem_append_right _ (List.mem_singleton_self _)
      · exact fun impossible => absurd impossible (Option.some_ne_none _)

theorem Steady.releaseFuseIo (steady : Steady trusted slots s) (relies : Relies s task grip)
    {fuseIo : FuseIo}
    {resume : Unit → Thread coroutines Int}
    (allowed : Grip.Allows trusting (.releaseFuseIo fuseIo) grip
      fun answer after => (resume answer).MeetsAt cares Grip.Ended after)
    (step : s.perform result task back gaveUp (.releaseFuseIo fuseIo) resume = some s') :
      Steady trusted slots s' := by
  obtain ⟨slot, rest⟩ := allowed
  simp only [Sys.perform, Option.some.injEq] at step
  subst step
  obtain ⟨pool, outside⟩ := steady.pool.leave (relies.slot fuseIo slot)
  refine ⟨pool, ?_, ?_⟩
  · refine steady.waits.mono fun id awaiter other found member => ?_
    refine (List.mem_erase_of_ne fun same => ?_).mpr member
    exact relies.alone id awaiter found (congrArg Prod.fst same)
  · exact attends_running rfl ⟨Nat.zero_le _,
      fun _ impossible => absurd impossible.symm (Option.some_ne_none _),
      fun _ => outside, relies.born, relies.alone⟩ rest rfl

/-- An operation that changes neither the slots nor the ring. -/
theorem Steady.goOn (steady : Steady trusted slots s) (relies : Relies s task grip)
    {next : Thread coroutines Int}
    (meets : next.MeetsAt cares Grip.Ended grip.next)
    (pc : s'.pc = .running task back next gaveUp)
    (ios : s'.ios = s.ios) (vals : s'.vals = s.vals) (started : s'.started = s.started)
    (awaiters : s'.awaiters = s.awaiters) (created : s'.created = s.created)
    (free : s'.free.length = s.free.length) : Steady trusted slots s' := by
  refine ⟨?_, ?_, ?_⟩
  · rw [ios, vals, started]
    exact steady.pool
  · rw [awaiters, created, vals]
    exact steady.waits
  · have kept : Relies s' task grip.next :=
      relies.frame (free ▸ relies.reserved) rfl vals started awaiters
    exact attends_running pc kept meets rfl

/-- `co_await io.complete(..)`. -/
theorem Steady.complete (steady : Steady trusted slots s) (relies : Relies s task grip)
    {refs : List SqeRef}
    {resume : List Int → Thread coroutines Int}
    (allowed : Grip.Allows trusting (.complete refs) grip
      fun results after => (resume results).MeetsAt cares Grip.Ended after)
    (step : s.perform result task back gaveUp (.complete refs) resume = some s') :
      Steady trusted slots s' := by
  obtain ⟨all, fuseIo, slot, rest⟩ := allowed
  simp only [Sys.perform, if_neg all, Option.some.injEq] at step
  have frame : ∀ (refs : List SqeRef) (targets : List UserData) (s : Sys),
      (s.tag refs targets).ios = s.ios ∧
      (s.tag refs targets).vals = s.vals ∧ (s.tag refs targets).started = s.started := by
    intro refs
    induction refs with
    | nil => exact fun targets s => ⟨rfl, rfl, rfl⟩
    | cons ref refs ih =>
      intro targets s
      cases ref with
      | none => exact ⟨rfl, rfl, rfl⟩
      | some index =>
        cases targets with
        | nil => exact ⟨rfl, rfl, rfl⟩
        | cons target targets => exact ih targets _
  obtain ⟨ios, vals, started⟩ := frame refs (IoUringAwaiter.userData s.created refs.length) s
  subst step
  refine ⟨?_, ?_, back.attends rfl⟩
  · show Pool slots (s.tag refs _).ios (s.tag refs _).vals (s.tag refs _).started
    rw [ios, vals, started]
    exact steady.pool
  · show Waits _ (s.created + 1) (s.tag refs _).vals
    rw [vals]
    exact steady.waits.park refs.length (relies.slot fuseIo slot) rest relies.alone

/-- `get_sqe`. -/
theorem Steady.getSqe (steady : Steady trusted slots s)
    (pc : s.pc = .running task back thread gaveUp)
    (relies : Relies s task grip) (meets : thread.MeetsAt cares Grip.Ended grip)
    (quiet : trusted → grip.missed = false) {peek : Nat}
    {resume : SqeRef → Thread coroutines Int}
    (allowed : Grip.Allows trusting (.getSqe peek) grip fun answer after => (resume answer).MeetsAt
      cares Grip.Ended after)
    (here : trusting = true → headerLoop.here thread.program)
    (trust : trusted → s.HeaderLoopFull → ∃ count, result = .ok count)
    (step : s.perform result task back gaveUp (.getSqe peek) resume = some s') :
    Steady trusted slots s' := by
  obtain ⟨ringSubmit, flagged⟩ := flagged_eq s peek
  simp only [Sys.perform, Sys.getSqe, flagged] at step
  by_cases reserved : 0 < grip.reserved
  · -- the entry was made sure of by the first `get_sqe` of the chain
    rw [Grip.Allows, if_pos reserved] at allowed
    obtain ⟨rfl, next⟩ := allowed
    obtain ⟨entry, rest, free, found⟩ := room_reserved reserved relies.reserved
    simp only [found, Option.some.injEq] at step
    subst step
    refine ⟨steady.pool, steady.waits, attends_running rfl ?_ (next _) rfl⟩
    refine relies.frame ?_ rfl rfl rfl rfl
    have kept := relies.reserved
    rw [free, List.length_cons] at kept
    show grip.reserved - 1 ≤ rest.length
    omega
  rw [Grip.Allows, if_neg reserved] at allowed
  obtain ⟨missing, taken⟩ := allowed
  have unreserved : grip.reserved = 0 := Nat.eq_zero_of_not_pos reserved
  cases found : Sys.room s.free peek with
  | some pair =>
    obtain ⟨entry, rest⟩ := pair
    obtain ⟨free, enough⟩ := room_some found
    simp only [found, Option.some.injEq] at step
    subst step
    refine ⟨steady.pool, steady.waits, attends_running rfl ?_ (taken _) rfl⟩
    refine relies.frame ?_ rfl rfl rfl rfl
    show peek - 1 ≤ rest.length
    omega
  | none =>
    simp only [found] at step
    have again : ∀ s', s'.pc = .running task back thread gaveUp → Relies s' task grip →
        s'.Attends trusted := by
      intro s' pc' relies'
      unfold Sys.Attends
      rw [pc']
      exact ⟨grip, relies', meets, quiet⟩
    have gives : (result = .busy ∨ result = .failed) → ∀ s',
        s' = { s with ringSubmit := ringSubmit, pc := .running task back (resume none) true } →
        Steady trusted slots s' := by
      rintro fails s' rfl
      refine ⟨steady.pool, steady.waits,
        { grip with missed := trusting && decide (peek ≤ 1) },
        relies.frame (by rw [unreserved]; exact Nat.zero_le _) rfl rfl rfl rfl, missing,
        fun trusts => Bool.eq_false_iff.mpr fun missed => ?_⟩
      -- only the header loop is trusted, and its submit on a full ring succeeds
      obtain ⟨trusting, single⟩ := Bool.and_eq_true_iff.mp missed
      obtain ⟨count, ok⟩ := trust trusts ⟨task, back, thread, gaveUp, pc, here trusting,
        room_none_single (of_decide_eq_true single) found⟩
      rcases fails with busy | failed
      · rw [busy] at ok
        cases ok
      · rw [failed] at ok
        cases ok
    cases result with
    | ok count =>
      dsimp only at step
      by_cases within : count ≤ s.sq.length
      · rw [if_pos within, Option.some.injEq] at step
        subst step
        have kept : ∀ s', s'.free = s.free ++ s.sq.take count → s'.vals = s.vals →
            s'.started = s.started →
            s'.awaiters = s.awaiters → Relies s' task grip := by
          intro s' free vals started awaiters
          refine relies.frame ?_ rfl vals started awaiters
          rw [unreserved]
          exact Nat.zero_le _
        by_cases many : peek > 1
        · simp only [if_pos many]
          exact ⟨steady.pool, steady.waits, again _ pc (kept _ rfl rfl rfl rfl)⟩
        · simp only [if_neg many]
          have single : peek - 1 = 0 := by omega
          rw [single] at taken
          exact ⟨steady.pool, steady.waits, grip, kept _ rfl rfl rfl rfl, taken⟩
      · rw [if_neg within] at step
        cases step
    | busy =>
      dsimp only at step
      by_cases many : peek > 1
      · rw [if_pos many, Option.some.injEq] at step
        subst step
        exact ⟨steady.pool, steady.waits, again _ pc (relies.frame relies.reserved rfl rfl rfl rfl)⟩
      · rw [if_neg many, Option.some.injEq] at step
        exact gives (.inl rfl) s' step.symm
    | failed => exact gives (.inr rfl) s' (Option.some.inj step).symm

/-- **One operation of the running coroutine.** -/
theorem Steady.perform (steady : Steady trusted slots s)
    (pc : s.pc = .running task back thread gaveUp) {op : Effect}
    {resume : op.Answer → Thread coroutines Int} (move : thread.move = .performs op resume)
    (trust : trusted → s.HeaderLoopFull → ∃ count, result = .ok count)
    (step : s.perform result task back gaveUp op resume = some s') : Steady trusted slots s' := by
  obtain ⟨grip, relies, meets, quiet⟩ := steady.running pc
  obtain ⟨trusting, here, allowed⟩ : ∃ trusting, (trusting = true → headerLoop.here
      thread.program) ∧ Grip.Allows trusting op grip fun answer after => (resume answer).MeetsAt
      cares Grip.Ended after := by
    have moved := meets.move
    rw [move] at moved
    rcases moved with allowed | ⟨here, allowed⟩
    · exact ⟨false, fun impossible => absurd impossible Bool.false_ne_true, allowed⟩
    · exact ⟨true, fun _ => here, allowed⟩
  cases op with
  | getFuseIo => exact steady.getFuseIo relies allowed step
  | releaseFuseIo fuseIo => exact steady.releaseFuseIo relies allowed step
  | load fuseIo =>
    simp only [Sys.perform, Option.some.injEq] at step
    subst step
    exact steady.goOn relies (allowed _) rfl rfl rfl rfl rfl rfl rfl
  | store fuseIo mem =>
    simp only [Sys.perform, Option.some.injEq] at step
    subst step
    exact steady.goOn relies allowed rfl rfl rfl rfl rfl rfl rfl
  | getSqe peek => exact steady.getSqe pc relies meets quiet allowed here trust step
  | prep ref entry =>
    cases ref with
    | none =>
      simp only [Sys.perform, Option.some.injEq] at step
      subst step
      exact ⟨steady.pool, steady.waits, attends_fault rfl⟩
    | some index =>
      simp only [Sys.perform, Option.some.injEq] at step
      subst step
      exact steady.goOn relies allowed rfl rfl rfl rfl rfl rfl (List.length_map _)
  | complete refs => exact steady.complete relies allowed step
  | setLastRc rc =>
    simp only [Sys.perform, Option.some.injEq] at step
    subst step
    exact steady.goOn relies allowed rfl rfl rfl rfl rfl rfl rfl

/-! ### The steps of the loop -/

/-- A state in which only the ring, the queues and the memory may differ, with
the control away from the coroutines. -/
theorem Steady.loop (steady : Steady trusted slots s) (ios : s'.ios = s.ios)
    (vals : s'.vals = s.vals)
    (started : s'.started = s.started) (awaiters : s'.awaiters = s.awaiters)
    (created : s'.created = s.created)
    (attends : s'.Attends trusted) : Steady trusted slots s' := by
  refine ⟨?_, ?_, attends⟩
  · rw [ios, vals, started]
    exact steady.pool
  · rw [awaiters, created, vals]
    exact steady.waits

/-- A coroutine is started. -/
theorem Steady.refill (steady : Steady trusted slots s) (pc : s.pc = .refill)
    (step : s.go ring result = some s') :
    Steady trusted slots s' := by
  simp only [Sys.go, pc] at step
  cases ios : s.ios with
  | nil =>
    simp only [ios, Option.some.injEq] at step
    subst step
    exact steady.loop ios.symm rfl rfl rfl rfl trivial
  | cons first others =>
    simp only [ios, Option.some.injEq] at step
    subst step
    have unborn : s.started ∉ s.vals.map Prod.fst := by
      intro member
      obtain ⟨holder, inside, same⟩ := List.mem_map.mp member
      exact absurd (steady.pool.born holder inside) (by omega)
    have pool := steady.pool.start
    rw [ios] at pool
    refine ⟨pool, steady.waits, attends_running rfl ⟨Nat.zero_le _, ?_, fun _ => unborn,
      Nat.lt_succ_self _, ?_⟩
      (Thread.meetsAt_start (Program.wpAt_mono _ (fun _ _ ended => ⟨trivial, ended⟩)
        (care_queueReadSetRc ring))) rfl⟩
    · exact fun _ impossible => absurd impossible.symm (Option.some_ne_none _)
    · rintro id awaiter found same
      obtain ⟨fuseIo, member, -⟩ := steady.waits.holds id awaiter found
      rw [same] at member
      exact unborn (List.mem_map_of_mem member)

/-- A completion is handled. -/
theorem Steady.pass (steady : Steady trusted slots s) (pc : s.pc = .pass)
    (step : s.go ring result = some s') :
    Steady trusted slots s' := by
  simp only [Sys.go, pc] at step
  cases next : s.cq with
  | nil =>
    simp only [next, Option.some.injEq] at step
    subst step
    refine steady.loop rfl rfl rfl rfl rfl ?_
    unfold Sys.Attends
    by_cases failed : s.lastRc ≠ 0
    · simp only [if_pos failed]
    · simp only [if_neg failed]
  | cons cqe rest =>
    simp only [next] at step
    rcases handled_cases s.awaiters cqe with handled | handled | ⟨id, awaiter, found,
      ⟨new, same, handled⟩ | ⟨results, handled⟩⟩
    · simp only [handled, Option.some.injEq] at step
      subst step
      exact steady.loop rfl rfl rfl rfl rfl (Back.pass.attends rfl)
    · simp only [handled, Option.some.injEq] at step
      subst step
      exact steady.loop rfl rfl rfl rfl rfl (attends_fault rfl)
    · simp only [handled, Option.some.injEq] at step
      subst step
      refine ⟨steady.pool, steady.waits.replace found fun changed eq => ?_, Back.pass.attends rfl⟩
      rw [← Option.some.inj eq]
      exact same
    · simp only [handled, Option.some.injEq] at step
      subst step
      obtain ⟨fuseIo, member, meets⟩ := steady.waits.holds id awaiter found
      refine ⟨steady.pool, steady.waits.replace found fun changed eq => (by cases eq),
        attends_running rfl ⟨Nat.zero_le _, ?_, ?_, steady.pool.born _ member, ?_⟩
          (meets results) rfl⟩
      · intro other same
        rw [← Option.some.inj same]
        exact member
      · exact fun impossible => absurd impossible (Option.some_ne_none _)
      · intro other waiting owner same
        have owner : Function.update s.awaiters id none other = some waiting := owner
        have here : other ≠ id := by
          rintro rfl
          rw [Function.update_self] at owner
          cases owner
        rw [Function.update_of_ne here] at owner
        exact here (steady.waits.apart other id waiting awaiter owner found same)

/-- **Every step keeps the invariant.** -/
theorem Steady.step (steady : Steady trusted slots s) {act : Act}
    (trust : trusted → trustworthy s act)
    (step : s.step ring act = some s') : Steady trusted slots s' := by
  cases act with
  | post place res bytes =>
    simp only [Sys.step, Sys.post] at step
    cases found : s.flight[place]? with
    | none =>
      rw [found] at step
      cases step
    | some entry =>
      simp only [found, Option.some.injEq] at step
      subst step
      refine ⟨steady.pool, steady.waits, ?_⟩
      have attends := steady.attends
      unfold Sys.Attends at attends ⊢
      dsimp only
      split at attends
      · obtain ⟨grip, relies, rest⟩ := attends
        exact ⟨grip, relies.frame relies.reserved rfl rfl rfl rfl, rest⟩
      · obtain ⟨grip, relies, rest⟩ := attends
        exact ⟨grip, relies.frame relies.reserved rfl rfl rfl rfl, rest⟩
      · trivial
  | go result =>
    have step : s.go ring result = some s' := step
    cases pc : s.pc with
    | refill => exact steady.refill pc step
    | running task back thread gaveUp =>
      simp only [Sys.go, pc] at step
      cases move : thread.move with
      | ended value =>
        simp only [move, Option.some.injEq] at step
        subst step
        exact steady.loop rfl rfl rfl rfl rfl (back.attends rfl)
      | performs op resume =>
        simp only [move] at step
        exact steady.perform pc move (fun trusts => trust trusts) step
      | turned next =>
        simp only [move, Option.some.injEq] at step
        subst step
        obtain ⟨grip, relies, meets, quiet⟩ := steady.running pc
        have moved := meets.move
        rw [move] at moved
        exact ⟨steady.pool, steady.waits, grip,
          relies.frame relies.reserved rfl rfl rfl rfl, moved, quiet⟩
    | polling task back resume gaveUp =>
      simp only [Sys.go, pc] at step
      cases found : Sys.room s.free 1 with
      | none =>
        simp only [found, Option.some.injEq] at step
        subst step
        exact steady
      | some pair =>
        obtain ⟨entry, rest⟩ := pair
        simp only [found, Option.some.injEq] at step
        subst step
        have attends := steady.attends
        rw [Sys.Attends, pc] at attends
        obtain ⟨grip, relies, meets⟩ := attends
        refine ⟨steady.pool, steady.waits, attends_running rfl ?_ (meets entry.index) rfl⟩
        exact relies.frame (Nat.zero_le _) rfl rfl rfl rfl
    | submit =>
      simp only [Sys.go, pc] at step
      cases result with
      | ok count =>
        dsimp only at step
        by_cases within : count ≤ s.sq.length
        · rw [if_pos within, Option.some.injEq] at step
          subst step
          exact steady.loop rfl rfl rfl rfl rfl trivial
        · rw [if_neg within] at step
          cases step
      | busy =>
        dsimp only at step
        rw [Option.some.injEq] at step
        by_cases flagged : s.ringSubmit = true
        · rw [if_pos flagged] at step
          subst step
          exact steady
        · rw [if_neg flagged] at step
          subst step
          exact steady.loop rfl rfl rfl rfl rfl trivial
      | failed =>
        dsimp only at step
        rw [Option.some.injEq] at step
        subst step
        exact steady.loop rfl rfl rfl rfl rfl trivial
    | pass => exact steady.pass pc step
    | exited rc =>
      simp only [Sys.go, pc] at step
      cases step
    | fault =>
      simp only [Sys.go, pc] at step
      cases step

end Steps

/-! ### Runs -/

/-- `run` before its first step, with any ring and any queues. -/
structure Sys.Fresh (slots : Nat) (s : Sys) : Prop where
  ios : s.ios.Perm ((List.range slots).map FuseIo.mk)
  vals : s.vals = []
  awaiters : ∀ id, s.awaiters id = none
  pc : s.pc = .refill

theorem Sys.fresh_init (slots entries : Nat) (mem : Nat → Mem) :
    (Sys.init slots entries mem).Fresh slots :=
  ⟨.refl _, rfl, fun _ => rfl, rfl⟩

section Runs

variable {trusted : Prop} {ring : FuseRing} {slots : Nat} {first s : Sys}
  {permitted : Sys → Act → Prop}

theorem Sys.Fresh.steady (fresh : s.Fresh slots) : Steady trusted slots s := by
  refine ⟨⟨?_, ?_, ?_⟩, ⟨fun id _ => fresh.awaiters id, ?_, ?_⟩, Back.refill.attends fresh.pc⟩
  · rw [fresh.vals, List.map_nil, List.append_nil]
    exact fresh.ios
  · rw [fresh.vals]
    exact List.nodup_nil
  · rw [fresh.vals]
    exact fun holder member => absurd member List.not_mem_nil
  · intro id awaiter found
    rw [fresh.awaiters id] at found
    cases found
  · intro id _ awaiter _ found
    rw [fresh.awaiters id] at found
    cases found

/-- **What every run keeps.** -/
theorem steady_of_reaches (fresh : first.Fresh slots) (trust : ∀ s act, permitted s act → trusted →
    trustworthy s act)
    (run : Sys.Reaches ring permitted first s) : Steady trusted slots s := by
  induction run with
  | start => exact fresh.steady
  | step act _ allowed step ih => exact ih.step (trust _ act allowed) step

end Runs

end Fuseuring
