/-
**Who owns a slot.**

`naming` are the entries, in the ring or with the kernel, that use the pipe, the
session or a buffer of a slot. `Exclusive` says that the slots are shared out
between the pool and the live coroutines, and that these entries belong together: to
the one pending awaiter of the coroutine that holds the slot, or to the chain that
it is taking, none of which has been submitted. No entry names a slot of the pool.

The runs are those in which `io_uring_submit` succeeds, or is tried again.
-/

import Fuseuring.Ring.Strays

namespace Fuseuring

open Interaction

/-- The operation in the entry uses the slot. -/
def SqeEntry.names (fuseIo : FuseIo) (entry : SqeEntry) : Bool :=
  entry.sqe.any fun sqe => decide (fuseIo ∈ sqe.operation.fuseIos)

namespace Sys

/-- The entries that name a slot. -/
def naming (s : Sys) (fuseIo : FuseIo) : List SqeEntry :=
  (s.sq ++ s.flight).filter (SqeEntry.names fuseIo)

/-- The coroutine that has the control. -/
def current (s : Sys) : Option Nat :=
  match s.pc with
  | .running task _ _ _ => some task
  | .polling task _ _ _ => some task
  | _ => none

/-- The next step of the program calls `get_fuse_io`. -/
def takes (s : Sys) : Bool :=
  match s.pc with
  | .running _ _ thread _ =>
    match thread.move with
    | .performs .getFuseIo _ => true
    | _ => false
  | _ => false

/-- Entries that are awaited together: by one awaiter, the only one that is
pending for the coroutine. -/
def AwaitedTogether (s : Sys) (task : Nat) (group : List SqeEntry) : Prop :=
  ∃ id awaiter, s.awaiters id = some awaiter ∧ awaiter.awaiter.task = task ∧
    (∀ id' awaiter', s.awaiters id' = some awaiter' → awaiter'.awaiter.task = task → id' = id) ∧
    ∀ entry ∈ group, ∃ target, entry.userData = some target ∧ target.awaiter = id

/-- Entries that the running coroutine has taken for its next await: none is submitted before. -/
def InHand (s : Sys) (task : Nat) (group : List SqeEntry) : Prop :=
  s.current = some task ∧ s.submits = false ∧ ∀ entry ∈ group, entry ∉ s.flight

/-- An `EBUSY` of the next step's submit is not its end. -/
def retries (s : Sys) : Bool :=
  match s.pc with
  | .submit => s.ringSubmit
  | .running _ _ thread _ =>
    match thread.move with
    | .performs (.getSqe peek) _ => decide (1 < peek)
    | _ => false
  | _ => false

end Sys

/-- `io_uring_submit` does not fail in this step. -/
def succeeds (s : Sys) : Act → Bool
  | .post _ _ _ => true
  | .go (.ok _) => true
  | .go .busy => !s.submits || s.retries
  | .go .failed => !s.submits

/-- **Exclusive slots.** Pool and coroutines share the slots out, each slot has one owner, which
runs or waits, and the entries that name a slot are few and belong to its owner's one await. -/
structure Exclusive (slots : Nat) (s : Sys) : Prop where
  pool : (s.ios ++ s.vals.map Prod.snd).Perm ((List.range slots).map FuseIo.mk)
  distinct : (s.ios ++ s.vals.map Prod.snd).Nodup
  owner : ∀ fuseIo ∈ s.vals.map Prod.snd, ∃! task, (task, fuseIo) ∈ s.vals
  live : ∀ holder ∈ s.vals, s.current = some holder.1 ∨
    ∃ id awaiter, s.awaiters id = some awaiter ∧ awaiter.awaiter.task = holder.1
  supply : s.takes = true → s.ios ≠ []
  sane : s.pc ≠ .fault
  few : ∀ fuseIo, (s.naming fuseIo).length ≤ 3
  together : ∀ fuseIo, s.naming fuseIo ≠ [] → ∃ task, (task, fuseIo) ∈ s.vals ∧
    (s.AwaitedTogether task (s.naming fuseIo) ∨ s.InHand task (s.naming fuseIo))
  free : ∀ fuseIo ∈ s.ios, s.naming fuseIo = []

/-! ### What the invariant says of a slot -/

section Slots

variable {slots entries : Nat} {s : Sys} {ghost : Ghost} {fuseIo : FuseIo} {entry : SqeEntry}

theorem SqeEntry.names_iff : entry.names fuseIo = true ↔ ∃ sqe, entry.sqe = some sqe ∧
    fuseIo ∈ sqe.operation.fuseIos := by
  rw [SqeEntry.names, Option.any_eq_true]
  exact exists_congr fun sqe => and_congr_right fun _ => decide_eq_true_iff

/-- The slots of the ghost are those of the live coroutines, each held once. -/
theorem Kept.held (kept : Kept slots entries s ghost) :
    (ghost.held.map Prod.snd).Nodup ∧ (ghost.held.map Prod.fst).Nodup := by
  have nodup := kept.holders.nodup
  rw [List.nodup_append] at nodup
  exact ⟨(kept.holders.shared.map Prod.snd).nodup_iff.mp nodup.2.1,
    (kept.holders.shared.map Prod.fst).nodup_iff.mp kept.holders.tasks⟩

/-- The slot in hand is no waiting coroutine's. -/
theorem Kept.waiting_of_hand (kept : Kept slots entries s ghost)
    (slot : ghost.hand.fuseIo = some fuseIo)
    {waiting : Waiting} (member : waiting ∈ ghost.roster) : waiting.fuseIo ≠ fuseIo := by
  have nodup := kept.held.1
  rw [Ghost.held, slot, List.map_append, List.nodup_append] at nodup
  intro same
  refine nodup.2.2 fuseIo (by simp) waiting.fuseIo ?_ same.symm
  rw [List.map_map]
  exact List.mem_map.mpr ⟨waiting, member, rfl⟩

/-- Waiting coroutines have different slots and are different tasks. -/
theorem Kept.waiting_unique (kept : Kept slots entries s ghost) {waiting other : Waiting}
    (member : waiting ∈ ghost.roster) (member' : other ∈ ghost.roster)
    (same : waiting.fuseIo = other.fuseIo ∨ waiting.task = other.task) : waiting = other := by
  obtain ⟨slots, tasks⟩ := kept.held
  rw [Ghost.held, List.map_append, List.map_map, List.nodup_append] at slots tasks
  rcases same with same | same
  · have nodup := slots.2.1
    rw [List.map_map] at nodup
    exact List.inj_on_of_nodup_map nodup member member' same
  · have nodup := tasks.2.1
    rw [List.map_map] at nodup
    exact List.inj_on_of_nodup_map nodup member member' same

/-- Where a slot is in hand, a coroutine has the control, and its task is the ghost's. -/
theorem Kept.current_of_hand (kept : Kept slots entries s ghost) (sane : s.pc ≠ .fault)
    (slot : ghost.hand.fuseIo = some fuseIo) : s.current = some ghost.task := by
  have holding : ghost.hand ≠ .empty := by
    intro empty
    rw [empty] at slot
    cases slot
  cases pc : s.pc with
  | running task back thread gaveUp =>
    rw [Sys.current, pc]
    exact congrArg some (kept.running pc).1.same.symm
  | polling task back resume gaveUp =>
    have control := kept.control
    simp only [Sys.Control, pc] at control
    rw [Sys.current, pc]
    exact congrArg some control.1.same.symm
  | refill => exact absurd (kept.loop (Or.inl pc)) holding
  | submit => exact absurd (kept.loop (Or.inr (Or.inl pc))) holding
  | pass => exact absurd (kept.loop (Or.inr (Or.inr pc))) holding
  | exited rc => exact absurd (kept.exited pc) holding
  | fault => exact absurd pc sane

/-- An awaited entry names the slot of the coroutine that waits for it only. -/
theorem Kept.waiting_of_names (kept : Kept slots entries s ghost)
    (member : entry ∈ s.flight ++ ghost.awaited)
    (names : entry.names fuseIo = true) : ∃ waiting ∈ ghost.roster, waiting.fuseIo = fuseIo ∧
      ∃ target, entry.userData = some target ∧ target.awaiter = waiting.id := by
  obtain ⟨waiting, inside, sqe, target, prepared, tagged, owner, named⟩ :=
    kept.queues.awaited entry member
  obtain ⟨sqe', prepared', uses⟩ := SqeEntry.names_iff.mp names
  rw [prepared, Option.some.injEq] at prepared'
  subst prepared'
  exact ⟨waiting, inside, (named fuseIo uses).symm, target, tagged, owner⟩

/-- An entry in hand names the slot in hand only. -/
theorem Kept.hand_of_names (kept : Kept slots entries s ghost)
    (member : entry.content ∈ ghost.hand.own)
    (names : entry.names fuseIo = true) : ghost.hand.fuseIo = some fuseIo := by
  obtain ⟨sqe, prepared, uses⟩ := SqeEntry.names_iff.mp names
  exact kept.queues.named entry.content member sqe prepared fuseIo uses

/-- **The entries that name the slot in hand** are in hand. -/
theorem Kept.naming_hand (kept : Kept slots entries s ghost)
    (slot : ghost.hand.fuseIo = some fuseIo) :
    ∃ own : List SqeEntry, own.map SqeEntry.content = ghost.hand.own ∧
      s.naming fuseIo = own.filter (SqeEntry.names fuseIo) ∧
      s.flight.filter (SqeEntry.names fuseIo) = [] := by
  obtain ⟨own, split, contents⟩ := kept.queues.queue
  have others : ∀ entry ∈ s.flight ++ ghost.awaited, ¬ entry.names fuseIo = true := by
    intro entry member names
    obtain ⟨waiting, inside, same, -⟩ := kept.waiting_of_names member names
    exact kept.waiting_of_hand slot inside same
  have flight :=
    List.filter_eq_nil_iff.mpr fun entry member => others entry (List.mem_append_left _ member)
  have awaited := List.filter_eq_nil_iff.mpr fun entry member => others entry
    (List.mem_append_right _ member)
  refine ⟨own, contents, ?_, flight⟩
  rw [Sys.naming, split, List.filter_append, List.filter_append, awaited, flight, List.nil_append,
    List.append_nil]

/-- **The entries that name another slot** are awaited. -/
theorem Kept.naming_waiting (kept : Kept slots entries s ghost)
    (slot : ghost.hand.fuseIo ≠ some fuseIo) :
    s.naming fuseIo = (ghost.awaited ++ s.flight).filter (SqeEntry.names fuseIo) := by
  obtain ⟨own, split, contents⟩ := kept.queues.queue
  have hand : own.filter (SqeEntry.names fuseIo) = [] := by
    refine List.filter_eq_nil_iff.mpr fun entry member names => slot (kept.hand_of_names ?_ names)
    rw [← contents]
    exact List.mem_map_of_mem member
  rw [Sys.naming, split, List.filter_append, List.filter_append, hand, List.append_nil,
    List.filter_append]

/-- An awaiter has at most three unhandled entries. -/
theorem Kept.group_length (kept : Kept slots entries s ghost) {waiting : Waiting}
    (member : waiting ∈ ghost.roster)
    {group : List SqeEntry} (part : group.Sublist (ghost.awaited ++ s.flight))
    (mine : ∀ entry ∈ group, ∃ target, entry.userData = some target ∧ target.awaiter = waiting.id) :
    group.length ≤ 3 := by
  have sound := kept.queues.sound
  have nodup : (group.filterMap SqeEntry.userData).Nodup := by
    have whole := (List.nodup_append.mp sound.nodup).2.1
    have turned : (s.flight ++ ghost.awaited).Perm (ghost.awaited ++ s.flight) :=
      List.perm_append_comm
    exact ((turned.filterMap _).nodup_iff.mp whole).sublist (part.filterMap _)
  have count : (group.filterMap SqeEntry.userData).length = group.length := by
    rw [List.filterMap_length_eq_length]
    intro entry inside
    obtain ⟨target, tagged, -⟩ := mine entry inside
    rw [tagged]
    rfl
  have bounded : group.filterMap SqeEntry.userData ⊆
      IoUringAwaiter.userData waiting.id waiting.count := by
    intro target inside
    obtain ⟨entry, inGroup, tagged⟩ := List.mem_filterMap.mp inside
    obtain ⟨target', tagged', owner⟩ := mine entry inGroup
    rw [tagged, Option.some.injEq] at tagged'
    subst tagged'
    refine mem_userData.mpr ⟨owner, ?_⟩
    have listed : entry ∈ s.flight ++ ghost.awaited :=
      List.perm_append_comm.mem_iff.mp (part.subset inGroup)
    obtain ⟨awaiter, pending, bound⟩ :=
      sound.live target (List.mem_append_right _ (List.mem_filterMap.mpr ⟨entry, listed, tagged⟩))
    obtain ⟨awaiter', pending', resumes⟩ := kept.roster.waits waiting member
    rw [owner, pending', Option.some.injEq] at pending
    subst pending
    exact resumes.count ▸ bound
  have length := nodup.length_le_of_subset bounded
  rw [count, IoUringAwaiter.userData, List.length_map, List.length_range] at length
  exact length.trans (kept.roster.sizes waiting member).2.three

/-- A waiting coroutine has one pending awaiter. -/
theorem Kept.awaitedTogether (kept : Kept slots entries s ghost) {waiting : Waiting}
    (member : waiting ∈ ghost.roster)
    {group : List SqeEntry}
    (mine : ∀ entry ∈ group, ∃ target, entry.userData = some target ∧ target.awaiter = waiting.id) :
    s.AwaitedTogether waiting.task group := by
  obtain ⟨awaiter, pending, resumes⟩ := kept.roster.waits waiting member
  refine ⟨waiting.id, awaiter, pending, resumes.task, ?_, mine⟩
  intro id' awaiter' pending' task
  obtain ⟨other, inside, rfl⟩ := kept.roster.listed id' awaiter' pending'
  obtain ⟨found, pending'', resumes'⟩ := kept.roster.waits other inside
  rw [pending', Option.some.injEq] at pending''
  subst pending''
  rw [kept.waiting_unique inside member (Or.inr (resumes'.task.symm.trans task))]

/-- **The entries that name a slot**: at most three, of the coroutine that holds it. -/
theorem Kept.naming (kept : Kept slots entries s ghost) (sane : s.pc ≠ .fault)
    (some : s.naming fuseIo ≠ []) :
    (s.naming fuseIo).length ≤ 3 ∧ ∃ task, (task, fuseIo) ∈ s.vals ∧
      (s.AwaitedTogether task (s.naming fuseIo) ∨ s.InHand task (s.naming fuseIo)) := by
  by_cases slot : ghost.hand.fuseIo = Option.some fuseIo
  · obtain ⟨own, contents, naming, flight⟩ := kept.naming_hand slot
    have nonempty : ghost.hand.own ≠ [] := by
      intro empty
      rw [empty, List.map_eq_nil_iff] at contents
      rw [naming, contents, List.filter_nil] at some
      exact some rfl
    have holder : (ghost.task, fuseIo) ∈ ghost.held := by
      rw [Ghost.held, slot]
      exact List.mem_append_left _ List.mem_cons_self
    refine ⟨?_, ghost.task, kept.holders.shared.mem_iff.mpr holder,
      Or.inr ⟨kept.current_of_hand sane slot, ?_, ?_⟩⟩
    · have few : own.length ≤ 3 := by
        have length := congrArg List.length contents
        rw [List.length_map] at length
        rcases kept.queues.chain with none | follows
        · omega
        · exact length.le.trans ((Nat.le_add_right _ _).trans follows.three)
      rw [naming]
      exact (List.length_filter_le _ _).trans few
    · exact Bool.eq_false_iff.mpr fun submits => nonempty (kept.own_of_submits submits)
    · intro entry member flying
      have names := (List.mem_filter.mp member).2
      exact List.filter_eq_nil_iff.mp flight entry flying names
  · have naming := kept.naming_waiting slot
    obtain ⟨entry, member⟩ := List.exists_mem_of_ne_nil _ some
    rw [naming] at member ⊢
    have owned : ∀ entry ∈ (ghost.awaited ++ s.flight).filter (SqeEntry.names fuseIo),
        ∃ waiting ∈ ghost.roster, waiting.fuseIo = fuseIo ∧
          ∃ target, entry.userData = Option.some target ∧ target.awaiter = waiting.id := by
      intro entry inside
      obtain ⟨listed, names⟩ := List.mem_filter.mp inside
      exact kept.waiting_of_names (List.perm_append_comm.mem_iff.mp listed) names
    obtain ⟨waiting, inside, same, -⟩ := owned entry member
    have mine : ∀ entry ∈ (ghost.awaited ++ s.flight).filter (SqeEntry.names fuseIo),
        ∃ target, entry.userData = Option.some target ∧ target.awaiter = waiting.id := by
      intro other found
      obtain ⟨waiting', inside', same', owner⟩ := owned other found
      rwa [kept.waiting_unique inside' inside (Or.inl (same'.trans same.symm))] at owner
    have holder : (waiting.task, fuseIo) ∈ ghost.held := by
      rw [← same]
      exact List.mem_append_right _ (List.mem_map.mpr ⟨waiting, inside, rfl⟩)
    exact ⟨kept.group_length inside List.filter_sublist mine, waiting.task,
      kept.holders.shared.mem_iff.mpr holder,
      Or.inl (kept.awaitedTogether inside mine)⟩

/-- `get_fuse_io` is called on a pool that is not empty. -/
theorem Kept.supply (kept : Kept slots entries s ghost) (takes : s.takes = true) : s.ios ≠ [] := by
  cases pc : s.pc with
  | running task back thread gaveUp =>
    cases move : thread.move with
    | performs op resume =>
      cases op with
      | getFuseIo =>
        have allowed := kept.allowed pc move
        exact (kept.running pc).1.pool allowed.1
      | _ => simp [Sys.takes, pc, move] at takes
    | _ => simp [Sys.takes, pc, move] at takes
  | _ => simp [Sys.takes, pc] at takes

/-- A coroutine that holds a slot runs or waits. -/
theorem Kept.live (kept : Kept slots entries s ghost) (sane : s.pc ≠ .fault) {holder : Nat × FuseIo}
    (member : holder ∈ s.vals) : s.current = some holder.1 ∨
      ∃ id awaiter, s.awaiters id = some awaiter ∧ awaiter.awaiter.task = holder.1 := by
  rcases List.mem_append.mp (kept.holders.shared.mem_iff.mp member) with hand | waits
  · obtain ⟨fuseIo, slot, rfl⟩ := List.mem_map.mp hand
    exact Or.inl (kept.current_of_hand sane (Option.mem_toList.mp slot))
  · obtain ⟨waiting, inside, rfl⟩ := List.mem_map.mp waits
    obtain ⟨awaiter, pending, resumes⟩ := kept.roster.waits waiting inside
    exact Or.inr ⟨waiting.id, awaiter, pending, resumes.task⟩

/-- **The invariant keeps the slots exclusive.** -/
theorem Kept.exclusive (kept : Kept slots entries s ghost) (sane : s.pc ≠ .fault) :
    Exclusive slots s where
  pool := kept.holders.pool
  distinct := kept.holders.nodup
  owner := by
    intro fuseIo member
    obtain ⟨⟨task, slot⟩, inside, rfl⟩ := List.mem_map.mp member
    refine ⟨task, inside, fun other found => ?_⟩
    have nodup := (List.nodup_append.mp kept.holders.nodup).2.1
    have same : (other, slot) = (task, slot) := List.inj_on_of_nodup_map nodup found inside rfl
    exact congrArg Prod.fst same
  live := fun holder member => kept.live sane member
  supply := kept.supply
  sane := sane
  few := by
    intro fuseIo
    by_cases empty : s.naming fuseIo = []
    · rw [empty]
      exact Nat.zero_le _
    · exact (kept.naming sane empty).1
  together := fun fuseIo some => (kept.naming sane some).2
  free := by
    intro fuseIo pooled
    by_contra some
    obtain ⟨-, task, held, -⟩ := kept.naming sane some
    exact (List.nodup_append.mp kept.holders.nodup).2.2 fuseIo pooled fuseIo
      (List.mem_map_of_mem held) rfl

end Slots

/-! ### The runs in which submits succeed -/

section Runs

variable {slots entries : Nat} {s s' : Sys} {ghost : Ghost} {ring : FuseRing} {act : Act}

/-- The running coroutine was not answered with `nullptr`. -/
def Pc.gaveUp : Pc → Bool
  | .running _ _ _ gaveUp => gaveUp
  | .polling _ _ _ gaveUp => gaveUp
  | _ => false

theorem orderly_of_calm (calm : s.pc.gaveUp = false) : orderly s act = true := by
  unfold orderly
  split
  case h_1 pc =>
    rw [pc] at calm
    cases calm
  case h_2 => rfl

/-- `get_sqe` gives up only where a submit fails. -/
theorem getSqe_calm {result : SubmitResult} {task peek : Nat} {back : Back}
    {thread : Thread coroutines Int}
    {resume : SqeRef → Thread coroutines Int} (pc : s.pc = .running task back thread false)
    (move : thread.move = .performs (.getSqe peek) resume) (fine : succeeds s (.go result) = true)
    (step : s.getSqe result task back false peek resume = some s') : s'.pc.gaveUp = false := by
  obtain ⟨ringSubmit, flagged⟩ := flagged_eq s peek
  simp only [Sys.getSqe, flagged] at step
  cases found : Sys.room s.free peek with
  | some pair =>
    simp only [found, Option.some.injEq] at step
    subst step
    rfl
  | none =>
    have submits : s.submits = true := by simp [Sys.submits, pc, move, found]
    simp only [found] at step
    cases result with
    | ok count =>
      dsimp only at step
      by_cases within : count ≤ s.sq.length
      · rw [if_pos within, Option.some.injEq] at step
        subst step
        by_cases many : peek > 1
        · rw [if_pos many, Sys.consume, pc]
          rfl
        · rw [if_neg many]
          rfl
      · rw [if_neg within] at step
        cases step
    | busy =>
      have many : peek > 1 := by simpa [succeeds, submits, Sys.retries, pc, move] using fine
      dsimp only at step
      rw [if_pos many, Option.some.injEq] at step
      subst step
      show s.pc.gaveUp = false
      rw [pc]
      rfl
    | failed =>
      rw [succeeds, submits] at fine
      cases fine

/-- Every other operation leaves it as it is. -/
theorem perform_calm {result : SubmitResult} {task : Nat} {back : Back}
    {thread : Thread coroutines Int} {op : Effect}
    {resume : op.Answer → Thread coroutines Int} (pc : s.pc = .running task back thread false)
    (move : thread.move = .performs op resume) (fine : succeeds s (.go result) = true)
    (step : s.perform result task back false op resume = some s') : s'.pc.gaveUp = false := by
  cases op with
  | getFuseIo =>
    cases last : s.ios.getLast? with
    | none =>
      simp only [Sys.perform, last, Option.some.injEq] at step
      subst step
      rfl
    | some fuseIo =>
      simp only [Sys.perform, last, Option.some.injEq] at step
      subst step
      rfl
  | getSqe peek => exact getSqe_calm pc move fine step
  | prep ref entry =>
    cases ref with
    | none =>
      obtain rfl := Option.some.inj step
      rfl
    | some index =>
      obtain rfl := Option.some.inj step
      rfl
  | complete refs =>
    by_cases missing : none ∈ refs
    · simp only [Sys.perform, if_pos missing, Option.some.injEq] at step
      subst step
      rfl
    · simp only [Sys.perform, if_neg missing, Option.some.injEq] at step
      subst step
      cases back <;> rfl
  | _ =>
    obtain rfl := Option.some.inj step
    rfl

/-- **No coroutine is answered with `nullptr`** where submits succeed. -/
theorem calm_step (calm : s.pc.gaveUp = false) (fine : succeeds s act = true)
    (step : s.step ring act = some s') :
    s'.pc.gaveUp = false := by
  cases act with
  | post place res bytes =>
    cases found : s.flight[place]? with
    | none =>
      simp only [Sys.step, Sys.post, found] at step
      cases step
    | some entry =>
      simp only [Sys.step, Sys.post, found, Option.some.injEq] at step
      subst step
      exact calm
  | go result =>
    cases pc : s.pc with
    | refill =>
      cases ios : s.ios with
      | nil =>
        simp only [Sys.step, Sys.go, pc, ios, Option.some.injEq] at step
        subst step
        rfl
      | cons first others =>
        simp only [Sys.step, Sys.go, pc, ios, Option.some.injEq] at step
        subst step
        rfl
    | running task back thread gaveUp =>
      obtain rfl : gaveUp = false := by rwa [pc] at calm
      simp only [Sys.step, Sys.go, pc] at step
      cases move : thread.move with
      | ended value =>
        simp only [move, Option.some.injEq] at step
        subst step
        cases back <;> rfl
      | turned next =>
        simp only [move, Option.some.injEq] at step
        subst step
        rfl
      | performs op resume =>
        simp only [move] at step
        exact perform_calm pc move fine step
    | polling task back resume gaveUp =>
      obtain rfl : gaveUp = false := by rwa [pc] at calm
      simp only [Sys.step, Sys.go, pc] at step
      cases found : Sys.room s.free 1 with
      | none =>
        simp only [found, Option.some.injEq] at step
        subst step
        rw [pc]
        rfl
      | some pair =>
        simp only [found, Option.some.injEq] at step
        subst step
        rfl
    | submit =>
      simp only [Sys.step, Sys.go, pc] at step
      cases result with
      | ok count =>
        dsimp only at step
        split at step <;> cases step
        rfl
      | busy =>
        dsimp only at step
        split at step <;> cases step
        · exact calm
        · rfl
      | failed =>
        cases step
        rfl
    | pass =>
      simp only [Sys.step, Sys.go, pc] at step
      cases next : s.cq with
      | nil =>
        simp only [next, Option.some.injEq] at step
        subst step
        dsimp only
        split <;> rfl
      | cons cqe rest =>
        simp only [next] at step
        split at step <;> cases step
        all_goals rfl
    | exited rc =>
      simp only [Sys.step, Sys.go, pc] at step
      cases step
    | fault =>
      simp only [Sys.step, Sys.go, pc] at step
      cases step

/-- **The program does not fault** where no coroutine gave up. -/
theorem Change.sane {ghost' : Ghost} (change : Change entries act s ghost s' ghost')
    (calm : s.pc.gaveUp = false)
    (sane : s.pc ≠ .fault) (step : s.step ring act = some s') : s'.pc ≠ .fault := by
  cases act with
  | post place res bytes =>
    cases found : s.flight[place]? with
    | none =>
      simp only [Sys.step, Sys.post, found] at step
      cases step
    | some entry =>
      simp only [Sys.step, Sys.post, found, Option.some.injEq] at step
      subst step
      exact sane
  | go result =>
    have goes : s.pc.phase ≠ .stopped := by
      intro stopped
      cases pc : s.pc with
      | running task back thread gaveUp =>
        rw [pc] at stopped
        cases back <;> cases stopped
      | polling task back resume gaveUp =>
        rw [pc] at stopped
        cases back <;> cases stopped
      | exited rc =>
        simp only [Sys.step, Sys.go, pc] at step
        cases step
      | fault => exact sane pc
      | _ =>
        rw [pc] at stopped
        cases stopped
    intro fault
    have stopped : s'.pc.phase = .stopped := by
      rw [fault]
      rfl
    cases change with
    | quiet phase => exact goes (phase.symm.trans stopped)
    | taken phase => exact goes (phase.symm.trans stopped)
    | submitted _ phase => exact goes (phase.symm.trans stopped)
    | parked phase => exact goes (phase.symm.trans stopped)
    | entered _ phase => exact Phase.noConfusion (phase.symm.trans stopped)
    | stored _ phase => exact Phase.noConfusion (phase.symm.trans stopped)
    | resumed _ phase => exact Phase.noConfusion (phase.symm.trans stopped)
    | passed _ _ fine => exact fine fault
    | posted phase => exact goes (phase.symm.trans stopped)
    | stopped _ _ cause =>
      obtain ⟨task, back, thread, pc⟩ := cause fault
      rw [pc] at calm
      cases calm

/-- **What holds in the runs in which submits succeed.** -/
theorem kept_of_succeeds {mem : Nat → Mem}
    (run : Sys.Reaches ring (fun s act => succeeds s act = true) (Sys.init slots entries mem) s) :
    ∃ ghost, Kept slots entries s ghost ∧ s.pc.gaveUp = false ∧ s.pc ≠ .fault := by
  induction run with
  | start => exact ⟨_, kept_init slots entries mem, rfl, Pc.noConfusion⟩
  | step act _ fine step ih =>
    obtain ⟨ghost, kept, calm, sane⟩ := ih
    obtain ⟨ghost', kept', change⟩ := kept.step (orderly_of_calm calm) step
    exact ⟨ghost', kept', calm_step calm fine step, change.sane calm sane step⟩

end Runs

/-- **Exclusive slots and a pool that is conserved**, in every run in which no submit fails. -/
theorem exclusive_of_succeeds {ring : FuseRing} {slots entries : Nat} {mem : Nat → Mem} {s : Sys}
    (run : Sys.Reaches ring (fun s act => succeeds s act = true) (Sys.init slots entries mem) s) :
    Exclusive slots s := by
  obtain ⟨ghost, kept, -, sane⟩ := kept_of_succeeds run
  exact kept.exclusive sane

theorem exclusive_of_succeeds_one : ∃ s : Sys, Exclusive 1 s ∧ s.ios = [] ∧ s.flight.length = 2 ∧
    (s.naming ⟨0⟩).length = 2 := by
  have ran : (Sys.run FuseRing.small (fun s act => succeeds s act = true) (goOn 9 ++ [.go (.ok 2)])
      (Sys.init 1 100 fun _ => Mem.zero)).any
      (fun s => s.ios.isEmpty && s.flight.length == 2 && (s.naming ⟨0⟩).length == 2) = true := by
    decide +kernel
  obtain ⟨s, reached, facts⟩ := (Option.any_eq_true _ _).mp ran
  simp only [Bool.and_eq_true, List.isEmpty_iff, beq_iff_eq] at facts
  obtain ⟨⟨pool, flight⟩, naming⟩ := facts
  exact ⟨s, exclusive_of_succeeds (Sys.reaches_of_run _ .start reached), pool, flight, naming⟩

end Fuseuring
