/-
**How many completions are not released.**

`run` releases the completions of a pass at its end only, while the coroutines that it
resumes fill the ring and submit it from `get_sqe`. A request takes its entries in chains:
two for its header, or one for the rest of it, then three, then two for an error, so that
a slot has at most five of them in one pass unless the ring is submitted in the pass.

* `First` — before that: what is unreleased, what is in the ring and what may
  still be taken is bounded by five entries a slot.
* `Second` — behind it: the completions fit into the queue, and the rest that
  may be taken does not fill the ring again.

With `5 * slots ≤ 2 * entries + 2` the completion queue is large enough for
both; a run with 64 slots overflows it.
-/

import Fuseuring.Ring.Exclusive
import Mathlib.Algebra.Group.Action.Defs
import Mathlib.Algebra.Order.BigOperators.Group.List

namespace Fuseuring

open Interaction

/-- More completions are posted and not released than the queue has entries. -/
def Sys.Overflows (entries : Nat) (s : Sys) : Prop := 2 * entries < s.handled + s.cq.length

/-- A submit that succeeds takes the whole ring. -/
def wholly (s : Sys) : Act → Bool
  | .go (.ok count) => !s.submits || count == s.sq.length
  | _ => true

/-! ### What may still be taken -/

/-- How many entries the running coroutine may still take before it is resumed again. -/
def Hand.pot (hand : Hand) : Nat :=
  if hand.own.length + hand.reserved = 0 then hand.stage.pot else hand.reserved

/-- Behind the first chain of a request, a chain is short or what may follow it is. -/
structure Hand.Late (hand : Hand) : Prop where
  begun : hand.stage ≠ .fresh
  chain : 0 < hand.own.length + hand.reserved →
    hand.own.length + hand.reserved + 2 * hand.stage.pot ≤ 7

theorem Stage.pot_le (stage : Stage) : stage.pot ≤ 3 := by cases stage <;> decide

theorem Stage.take_pot {stage stage' : Stage} {peek : Nat} (taken : stage.take peek = some stage')
    (begun : stage ≠ .fresh) : 1 ≤ peek ∧ peek ≤ stage.pot ∧ 2 ≤ stage.pot ∧
    peek + 2 * stage'.pot ≤ 7 := by
  unfold Stage.take at taken
  split at taken
  case h_1 => exact absurd rfl begun
  case h_6 => cases taken
  all_goals
    obtain rfl := Option.some.inj taken
    exact ⟨by decide, by decide, by decide, by decide⟩

section Hands

variable {hand hand' : Hand}

theorem Hand.pot_idle (idle : hand.Idle) : hand.pot = hand.stage.pot := by
  rw [Hand.pot, idle.own, idle.reserved]
  rfl

theorem Hand.late_holding {fuseIo : FuseIo} {stage : Stage} (begun : stage ≠ .fresh) :
    (Hand.holding fuseIo stage).Late :=
  ⟨begun, fun impossible => absurd impossible (Nat.lt_irrefl 0)⟩

theorem Hand.late_empty : Hand.empty.Late :=
  ⟨fun impossible => Stage.noConfusion impossible,
    fun impossible => absurd impossible (Nat.lt_irrefl 0)⟩

/-- A running coroutine that takes and awaits nothing. -/
theorem Hand.Late.quiet (late : hand.Late)
    (same : hand.own = [] ∧ hand' = .empty ∨ hand'.own.length = hand.own.length ∧
      hand'.reserved = hand.reserved ∧
      (hand'.stage = hand.stage ∨ hand'.stage = .served)) :
    hand'.Late ∧ hand'.pot ≤ hand.pot ∧ hand'.own.length = hand.own.length := by
  rcases same with ⟨own, rfl⟩ | ⟨own, reserved, stage | stage⟩
  · exact ⟨Hand.late_empty, Nat.zero_le _, by rw [own]; rfl⟩
  · refine ⟨⟨stage ▸ late.begun, fun some => ?_⟩, ?_, own⟩
    · rw [own, reserved] at some ⊢
      rw [stage]
      exact late.chain some
    · rw [Hand.pot, Hand.pot, own, reserved, stage]
  · refine ⟨⟨fun impossible => ?_, fun some => ?_⟩, ?_, own⟩
    · rw [stage] at impossible
      cases impossible
    · rw [own, reserved] at some ⊢
      have chain := late.chain some
      rw [stage, Stage.pot]
      omega
    · rw [Hand.pot, Hand.pot, own, reserved, stage, Stage.pot]
      split <;> omega

/-- An entry is taken from what may be taken. -/
theorem Hand.Late.taken (late : hand.Late) (own : hand'.own.length = hand.own.length + 1)
    (chain : hand.Idle ∧ (∃ peek, hand.stage.take peek = some hand'.stage ∧
      hand'.reserved = peek - 1) ∨
      hand.reserved = hand'.reserved + 1 ∧ hand'.stage = hand.stage) :
    hand'.Late ∧ hand'.pot + 1 ≤ hand.pot := by
  have taking : hand'.pot = hand'.reserved := by rw [Hand.pot, own, if_neg (by omega)]
  rcases chain with ⟨idle, peek, may, reserved⟩ | ⟨reserved, stage⟩
  · obtain ⟨positive, enough, -, short⟩ := Stage.take_pot may late.begun
    have none : hand.own.length = 0 := by rw [idle.own, List.length_nil]
    refine ⟨⟨(Stage.take_follows may).2.begun, fun _ => ?_⟩, ?_⟩
    · omega
    · rw [taking, Hand.pot_idle idle]
      omega
  · refine ⟨⟨stage ▸ late.begun, fun _ => ?_⟩, ?_⟩
    · have before := late.chain (by omega)
      rw [stage]
      omega
    · rw [taking, Hand.pot, if_neg (by omega)]
      omega

end Hands

/-! ### Sums over the coroutines that wait -/

/-- An entry that the coroutine waits for is still in the ring. -/
def Ghost.queued (ghost : Ghost) (waiting : Waiting) : Bool :=
  ghost.awaited.any fun entry => entry.userData.any fun target => target.awaiter == waiting.id

/-- A sum over the coroutines that wait, by whether they have entries in the ring. -/
def Ghost.total (ghost : Ghost) (queued released : Stage → Nat) : Nat :=
  (ghost.roster.map fun waiting => if ghost.queued waiting then queued waiting.stage
    else released waiting.stage).sum

section Sums

variable {slots entries : Nat} {s s' : Sys} {ghost ghost' : Ghost} {waiting : Waiting}
  {queued released : Stage → Nat}

theorem Ghost.queued_iff : ghost.queued waiting = true ↔
    ∃ entry ∈ ghost.awaited, ∃ target, entry.userData = some target ∧
    target.awaiter = waiting.id := by
  simp [Ghost.queued, Option.any_eq_true]

theorem Ghost.total_same (roster : ghost'.roster = ghost.roster)
    (awaited : ghost'.awaited = ghost.awaited) :
    ghost'.total queued released = ghost.total queued released := by
  rw [Ghost.total, Ghost.total, roster]
  refine congrArg List.sum (List.map_congr_left fun waiting _ => ?_)
  rw [Ghost.queued, Ghost.queued, awaited]

/-- With an empty ring. -/
theorem Ghost.total_released (awaited : ghost.awaited = []) :
    ghost.total queued released = (ghost.roster.map fun waiting => released waiting.stage).sum := by
  rw [Ghost.total]
  refine congrArg List.sum (List.map_congr_left fun waiting _ => ?_)
  rw [Ghost.queued, awaited, List.any_nil, if_neg Bool.false_ne_true]

/-- A coroutine waits for entries in the ring. -/
theorem Ghost.total_parked (ids : (ghost'.roster.map Waiting.id).Nodup)
    (roster : ghost'.roster = waiting :: ghost.roster)
    (older : ∀ entry ∈ ghost.awaited, entry ∈ ghost'.awaited)
    (newer : ∀ entry ∈ ghost'.awaited, entry ∈ ghost.awaited ∨
      ∃ target, entry.userData = some target ∧ target.awaiter = waiting.id)
    (some : ∃ entry ∈ ghost'.awaited, ∃ target, entry.userData = some target ∧
      target.awaiter = waiting.id) :
    ghost'.total queued released = queued waiting.stage + ghost.total queued released := by
  have new : ghost'.queued waiting = true := Ghost.queued_iff.mpr some
  have same : ∀ other ∈ ghost.roster, ghost'.queued other = ghost.queued other := by
    intro other member
    rw [roster, List.map_cons, List.nodup_cons] at ids
    have different : waiting.id ≠ other.id :=
      fun same => ids.1 (List.mem_map.mpr ⟨other, member, same.symm⟩)
    rw [Bool.eq_iff_iff, Ghost.queued_iff, Ghost.queued_iff]
    constructor
    · rintro ⟨entry, inside, target, tagged, owner⟩
      rcases newer entry inside with before | ⟨target', tagged', owner'⟩
      · exact ⟨entry, before, target, tagged, owner⟩
      · rw [tagged, Option.some.injEq] at tagged'
        exact absurd (owner'.symm.trans (tagged' ▸ owner)) different
    · rintro ⟨entry, inside, rest⟩
      exact ⟨entry, older entry inside, rest⟩
  rw [Ghost.total, roster, List.map_cons, List.sum_cons, if_pos new, Ghost.total]
  refine congrArg (queued waiting.stage + ·) (congrArg List.sum
    (List.map_congr_left fun other member => ?_))
  rw [same other member]

/-- A coroutine is resumed, none of whose entries is in the ring. -/
theorem Ghost.total_resumed (roster : ghost.roster.Perm (waiting :: ghost'.roster))
    (awaited : ghost'.awaited = ghost.awaited)
    (gone : ∀ entry ∈ ghost.awaited, ∀ target, entry.userData = some target →
      target.awaiter ≠ waiting.id) :
    ghost.total queued released = released waiting.stage + ghost'.total queued released := by
  have free : ¬ ghost.queued waiting = true := by
    rw [Ghost.queued_iff]
    rintro ⟨entry, member, target, tagged, owner⟩
    exact gone entry member target tagged owner
  have sums := (roster.map fun waiting =>
    if ghost.queued waiting then queued waiting.stage else released waiting.stage).sum_eq
  rw [List.map_cons, List.sum_cons, if_neg free] at sums
  rw [Ghost.total, sums, Ghost.total]
  refine congrArg (released waiting.stage + ·)
    (congrArg List.sum (List.map_congr_left fun other _ => ?_))
  rw [Ghost.queued, Ghost.queued, awaited]

/-- What the coroutines may take when all their entries are submitted, against
the entries that they have in the ring now. -/
theorem Ghost.total_le (ghost : Ghost) :
    2 * (ghost.roster.map fun waiting => waiting.stage.pot).sum + ghost.total
      (fun stage => 7 - 2 * stage.pot) (fun _ => 0) ≤
      7 * ghost.roster.length := by
  rw [Ghost.total]
  induction ghost.roster with
  | nil => exact Nat.le_refl _
  | cons waiting roster ih =>
    have small := waiting.stage.pot_le
    rw [List.map_cons, List.map_cons, List.sum_cons, List.sum_cons, List.length_cons]
    split_ifs <;> omega

/-- No more coroutines wait than there are slots. -/
theorem Kept.roster_length (kept : Kept slots entries s ghost) : ghost.roster.length ≤ slots := by
  have pool := kept.holders.pool.length_eq
  have shared := kept.holders.shared.length_eq
  rw [List.length_append, List.length_map, List.length_map, List.length_range] at pool
  rw [Ghost.held, List.length_append, List.length_map, List.length_map] at shared
  omega

/-- **The unhandled entries are counted by the awaiters.** -/
theorem Kept.unhandled_length (kept : Kept slots entries s ghost) :
    s.cq.length + s.flight.length + ghost.awaited.length ≤
      (ghost.roster.map Waiting.count).sum := by
  have sound := kept.queues.sound
  have posted : (s.cq.filterMap Cqe.userData).length = s.cq.length := by
    rw [List.filterMap_length_eq_length]
    exact fun cqe member => Option.isSome_iff_ne_none.mpr (kept.queues.owned cqe member)
  have waited : ((s.flight ++ ghost.awaited).filterMap SqeEntry.userData).length =
      (s.flight ++ ghost.awaited).length := by
    rw [List.filterMap_length_eq_length]
    intro entry member
    obtain ⟨waiting, -, sqe, target, -, tagged, -⟩ := kept.queues.awaited entry member
    rw [tagged]
    rfl
  have bounded : s.unhandled ghost.awaited ⊆
      ghost.roster.flatMap fun waiting => IoUringAwaiter.userData waiting.id waiting.count := by
    intro target member
    obtain ⟨awaiter, pending, bound⟩ := sound.live target member
    obtain ⟨waiting, inside, same⟩ := kept.roster.listed _ awaiter pending
    obtain ⟨awaiter', pending', resumes⟩ := kept.roster.waits waiting inside
    rw [same, pending, Option.some.injEq] at pending'
    subst pending'
    exact List.mem_flatMap.mpr ⟨waiting, inside,
      mem_userData.mpr ⟨same.symm, resumes.count ▸ bound⟩⟩
  have length := sound.nodup.length_le_of_subset bounded
  rw [Sys.unhandled, List.length_append, posted, waited, List.length_append,
    List.length_flatMap] at length
  simp only [IoUringAwaiter.userData, List.length_map, List.length_range] at length
  exact (Nat.add_assoc _ _ _).le.trans length

end Sums

/-! ### The budget of a pass -/

/-- What the ring may still be asked for: the coroutines whose entries are all
submitted, and the running one. -/
def Ghost.ahead (ghost : Ghost) : Nat := ghost.total (fun _ => 0) Stage.pot + ghost.hand.pot

/-- What the coroutines that have entries in the ring can have there. -/
def Ghost.stock (ghost : Ghost) : Nat := ghost.total (fun stage => 7 - 2 * stage.pot) fun _ => 0

/-- The completions that are unreleased or to come. -/
def Sys.level (s : Sys) : Nat := s.handled + s.cq.length + s.flight.length

/-- Before the ring is submitted in the pass. -/
structure First (slots : Nat) (s : Sys) (ghost : Ghost) : Prop where
  level : s.level ≤ 3 * slots
  chains : s.level + s.sq.length + ghost.ahead ≤ 5 * slots
  ring : s.sq.length ≤ ghost.hand.own.length + ghost.stock

/-- Behind it. -/
structure Second (slots entries : Nat) (s : Sys) (ghost : Ghost) : Prop where
  level : s.level ≤ 2 * entries
  rest : 2 * (s.sq.length + ghost.ahead) + entries ≤ 7 * slots + 8

/-- **The budget**: nothing is unreleased outside a pass. -/
def Budget (slots entries : Nat) (s : Sys) (ghost : Ghost) : Prop :=
  match s.pc.phase with
  | .refill => s.handled = 0
  | .pass => ghost.hand.Late ∧ (First slots s ghost ∨ Second slots entries s ghost)
  | .stopped => s.level ≤ 2 * entries

section Budget

variable {slots entries : Nat} {s s' : Sys} {ghost ghost' : Ghost} {act : Act}

/-- What a coroutine does between two of its awaits moves neither bound: the
ring grows by what is taken from ahead. -/
theorem Budget.of_le (budget : ghost.hand.Late ∧
    (First slots s ghost ∨ Second slots entries s ghost))
    (late : ghost'.hand.Late) (level : s'.level = s.level)
    (ahead : s'.sq.length + ghost'.ahead ≤ s.sq.length + ghost.ahead)
    (ring : s'.sq.length + (ghost.hand.own.length + ghost.stock) ≤
      s.sq.length + (ghost'.hand.own.length + ghost'.stock)) :
    ghost'.hand.Late ∧ (First slots s' ghost' ∨ Second slots entries s' ghost') := by
  refine ⟨late, budget.2.imp (fun first => ⟨?_, ?_, ?_⟩) fun second => ⟨?_, ?_⟩⟩
  · rw [level]
    exact first.level
  · have chains := first.chains
    omega
  · have room := first.ring
    omega
  · rw [level]
    exact second.level
  · have rest := second.rest
    omega

theorem Sys.SameQueues.level (same : s.SameQueues s') : s'.level = s.level := by
  rw [Sys.level, Sys.level, same.handled, same.cq, same.flight]

/-- What the coroutines wait for, and what they may take next. -/
theorem Kept.counts_le (kept : Kept slots entries s ghost) :
    (ghost.roster.map Waiting.count).sum ≤ 3 * slots ∧
      (ghost.roster.map Waiting.count).sum + (ghost.roster.map
        fun waiting => waiting.stage.pot).sum ≤ 5 * slots := by
  have few := kept.roster_length
  have three : (ghost.roster.map Waiting.count).sum ≤
      (ghost.roster.map Waiting.count).length • 3 := by
    refine List.sum_le_card_nsmul _ _ fun count member => ?_
    obtain ⟨waiting, inside, rfl⟩ := List.mem_map.mp member
    exact (kept.roster.sizes waiting inside).2.three
  have five : (ghost.roster.map fun waiting => waiting.count + waiting.stage.pot).sum ≤
      (ghost.roster.map fun waiting => waiting.count + waiting.stage.pot).length • 5 := by
    refine List.sum_le_card_nsmul _ _ fun count member => ?_
    obtain ⟨waiting, inside, rfl⟩ := List.mem_map.mp member
    exact (kept.roster.sizes waiting inside).2.five
  rw [List.length_map, smul_eq_mul] at three five
  rw [List.sum_map_add] at five
  exact ⟨by omega, by omega⟩

/-- **The budget bounds what is unreleased**, where the pool is small enough for the ring. -/
theorem Budget.level (budget : Budget slots entries s ghost) (kept : Kept slots entries s ghost)
    (room : 5 * slots ≤ 2 * entries + 2) : s.level ≤ 2 * entries := by
  have unhandled := kept.unhandled_length
  have three := kept.counts_le.1
  rw [Budget] at budget
  split at budget
  · rw [Sys.level]
    omega
  · rcases budget.2 with first | second
    · have level := first.level
      omega
    · exact second.level
  · exact budget

/-- The budget at the start of a pass: the ring is empty. -/
theorem First.entered (kept : Kept slots entries s ghost) (handled : s.handled = 0) (sq : s.sq = [])
    (empty : ghost.hand = .empty) : First slots s ghost := by
  have own : ghost.hand.own = [] := by rw [empty]; rfl
  have awaited : ghost.awaited = [] := by rw [← kept.queues.sq own, sq]
  have unhandled := kept.unhandled_length
  obtain ⟨three, five⟩ := kept.counts_le
  have pot : ghost.hand.pot = 0 := by rw [empty]; rfl
  rw [awaited, List.length_nil] at unhandled
  refine ⟨?_, ?_, ?_⟩
  · rw [Sys.level]
    omega
  · rw [Sys.level, Ghost.ahead, Ghost.total_released awaited, pot, sq, List.length_nil]
    omega
  · rw [sq]
    exact Nat.zero_le _

/-- **The ring is submitted in the pass**, for the first time. -/
theorem First.submitted (first : First slots s ghost) (kept : Kept slots entries s ghost)
    (room : 5 * slots ≤ 2 * entries + 2) (late : ghost.hand.Late) (idle : ghost.hand.Idle)
    (full : ∃ peek stage, ghost.hand.stage.take peek = some stage ∧ entries < s.sq.length + peek)
    (level : s'.level = s.level + s.sq.length) (sq : s'.sq = [])
    (roster : ghost'.roster = ghost.roster)
    (awaited : ghost'.awaited = []) (hand : ghost'.hand = ghost.hand) :
    Second slots entries s' ghost' := by
  obtain ⟨peek, stage, may, full⟩ := full
  obtain ⟨-, enough, two, -⟩ := Stage.take_pot may late.begun
  have three := ghost.hand.stage.pot_le
  have pot := Hand.pot_idle idle
  have few := kept.roster_length
  have chains := first.chains
  have ring := first.ring
  have whole := ghost.total_le
  have own : ghost.hand.own.length = 0 := by rw [idle.own, List.length_nil]
  rw [Ghost.stock] at ring
  refine ⟨?_, ?_⟩
  · rw [Ghost.ahead] at chains
    omega
  · rw [Ghost.ahead, Ghost.total_released awaited, roster, hand, pot, sq, List.length_nil]
    omega

/-- It is not submitted again. -/
theorem Second.not_full (second : Second slots entries s ghost) (room : 5 * slots ≤ 2 * entries + 2)
    (size : 100 ≤ entries) (late : ghost.hand.Late) (idle : ghost.hand.Idle) :
    ¬ ∃ peek stage, ghost.hand.stage.take peek = some stage ∧ entries < s.sq.length + peek := by
  rintro ⟨peek, stage, may, full⟩
  obtain ⟨-, enough, -, -⟩ := Stage.take_pot may late.begun
  have pot := Hand.pot_idle idle
  have rest := second.rest
  rw [Ghost.ahead] at rest
  omega

/-- Nothing is submitted behind the end. -/
theorem Sys.phase_of_submits (submits : s.submits = true) : s.pc.phase ≠ .stopped := by
  intro stopped
  cases pc : s.pc with
  | running task back thread gaveUp =>
    rw [pc] at stopped
    cases back <;> cases stopped
  | submit =>
    rw [pc] at stopped
    cases stopped
  | _ => simp [Sys.submits, pc] at submits

/-- A change in the midst of a phase. -/
theorem Budget.midst (budget : Budget slots entries s ghost) (bound : s.level ≤ 2 * entries)
    (phase : s'.pc.phase = s.pc.phase) (handled : s'.handled = s.handled)
    (level : s'.level = s.level)
    (pass : s.pc.phase = .pass → ghost.hand.Late → ghost'.hand.Late ∧
      s'.sq.length + ghost'.ahead ≤ s.sq.length + ghost.ahead ∧
      s'.sq.length + (ghost.hand.own.length + ghost.stock) ≤ s.sq.length +
        (ghost'.hand.own.length + ghost'.stock)) :
    Budget slots entries s' ghost' := by
  rw [Budget, phase]
  rw [Budget] at budget
  cases now : s.pc.phase with
  | refill =>
    rw [now] at budget
    exact handled.trans budget
  | pass =>
    rw [now] at budget
    obtain ⟨late, ahead, ring⟩ := pass now budget.1
    exact Budget.of_le budget late level ahead ring
  | stopped => exact level.trans_le bound

/-- **One step keeps the budget.** -/
theorem Budget.step (budget : Budget slots entries s ghost) (kept : Kept slots entries s ghost)
    (kept' : Kept slots entries s' ghost') (change : Change entries act s ghost s' ghost')
    (room : 5 * slots ≤ 2 * entries + 2) (size : 100 ≤ entries) (whole : wholly s act = true) :
    Budget slots entries s' ghost' := by
  have level := budget.level kept room
  cases change with
  | quiet phase same sq roster awaited hand =>
    have total : ∀ queued released, ghost'.total queued released = ghost.total queued released :=
      fun _ _ => Ghost.total_same roster awaited
    refine budget.midst level phase same.handled same.level fun now begun => ?_
    obtain ⟨late, pot, own⟩ :=
      begun.quiet (hand.imp_right fun rest => ⟨rest.1, rest.2.1, rest.2.2.imp_right
      fun other => other.resolve_right fun early => Phase.noConfusion (now.symm.trans early.1)⟩)
    refine ⟨late, ?_, ?_⟩
    · rw [Ghost.ahead, Ghost.ahead, total]
      omega
    · rw [Ghost.stock, Ghost.stock, total]
      omega
  | taken phase same sq roster awaited own hand =>
    have total : ∀ queued released, ghost'.total queued released = ghost.total queued released :=
      fun _ _ => Ghost.total_same roster awaited
    refine budget.midst level phase same.handled same.level fun _ begun => ?_
    obtain ⟨late, pot⟩ := begun.taken own hand
    refine ⟨late, ?_, ?_⟩
    · rw [Ghost.ahead, Ghost.ahead, total]
      omega
    · rw [Ghost.stock, Ghost.stock, total]
      omega
  | submitted submits phase handled cq count asked within sq flight roster awaited hand idle full =>
    obtain rfl : count = s.sq.length := by
      rw [asked, wholly, submits] at whole
      simpa using whole
    rw [Budget, phase]
    rw [Budget] at budget
    rw [List.take_length] at flight
    rw [List.drop_length] at sq
    have level' : s'.level = s.level + s.sq.length := by
      rw [Sys.level, Sys.level, handled, cq, flight, List.length_append]
      omega
    cases now : s.pc.phase with
    | refill =>
      rw [now] at budget
      exact handled.trans budget
    | pass =>
      rw [now] at budget
      rcases budget.2 with first | second
      · have drained : ghost'.awaited = [] := by
          rw [awaited, ← kept.queues.sq idle.own, List.drop_length]
        exact ⟨hand ▸ budget.1, Or.inr
          (first.submitted kept room budget.1 idle full level' sq roster drained hand)⟩
      · exact absurd full (second.not_full room size budget.1 idle)
    | stopped => exact absurd now (Sys.phase_of_submits submits)
  | parked phase same sq waiting roster awaited count reserved stage older newer some hand =>
    have total : ∀ queued released, ghost'.total queued released = queued waiting.stage +
        ghost.total queued released :=
      fun _ _ => Ghost.total_parked kept'.roster.ids roster older newer some
    have positive := (kept'.roster.sizes waiting (roster ▸ List.mem_cons_self)).1
    refine budget.midst level phase same.handled same.level fun _ begun => ?_
    have chain := begun.chain (by omega)
    refine ⟨hand ▸ Hand.late_empty, ?_, ?_⟩
    · rw [Ghost.ahead, Ghost.ahead, total, hand]
      show s'.sq.length + (0 + ghost.total _ _ + 0) ≤ _
      omega
    · rw [Ghost.stock, Ghost.stock, total, hand, stage]
      show s'.sq.length + _ ≤ _ + (0 + _)
      omega
  | entered before phase handled cq submits count asked within sq flight roster awaited idle hand =>
    obtain rfl : count = s.sq.length := by
      rw [asked, wholly, submits] at whole
      simpa using whole
    rw [List.drop_length] at sq
    rw [Budget, before] at budget
    rw [Budget, phase]
    exact ⟨hand ▸ Hand.late_empty, Or.inl (.entered kept' (handled.trans budget) sq hand)⟩
  | stored before phase handled cq flight sq idle same =>
    subst same
    have level' : s'.level = s.level := by
      rw [Sys.level, Sys.level, handled, flight]
      omega
    rw [Budget, before] at budget
    rw [Budget, phase]
    refine Budget.of_le budget budget.1 level' ?_ ?_
    · rw [sq]
    · rw [sq]
  | resumed before phase handled cq flight sq idle waiting roster awaited gone hand =>
    have level' : s'.level = s.level := by
      rw [Sys.level, Sys.level, handled, flight]
      omega
    have total : ∀ queued released, ghost.total queued released = released waiting.stage +
        ghost'.total queued released :=
      fun _ _ => Ghost.total_resumed roster awaited gone
    have member : waiting ∈ ghost.roster := roster.mem_iff.mpr List.mem_cons_self
    have begun := (kept.roster.sizes waiting member).2.begun
    rw [Budget, before] at budget
    rw [Budget, phase]
    refine Budget.of_le budget (hand ▸ Hand.late_holding begun) level' ?_ ?_
    · rw [Ghost.ahead, Ghost.ahead, total, sq, idle, hand]
      show _ + (_ + waiting.stage.pot) ≤ _ + (_ + 0)
      omega
    · rw [Ghost.stock, Ghost.stock, total, sq, idle, hand]
      show _ + (0 + (0 + _)) ≤ _ + (0 + _)
      omega
  | passed before phase sane empty handled cq flight sq idle same =>
    rw [Budget]
    split
    case h_1 => exact handled
    case h_2 now => exact absurd now phase
    case h_3 =>
      rw [Sys.level] at level
      rw [Sys.level, handled, cq, flight, empty, List.length_nil]
      omega
  | posted phase handled cq flight sq same =>
    subst same
    have level' : s'.level = s.level := by
      rw [Sys.level, Sys.level, handled]
      omega
    refine budget.midst level phase handled level' fun _ begun => ⟨begun, ?_, ?_⟩
    · rw [sq]
    · rw [sq]
  | stopped phase same cause =>
    rw [Budget, phase]
    exact same.level.trans_le level

end Budget

/-! ### Runs -/

theorem le_sqEntries (slots : Nat) : 100 ≤ sqEntries slots := by
  have power : max 100 (slots * 2) ≤ sqEntries slots := Nat.le_pow_clog Nat.one_lt_two _
  exact (le_max_left _ _).trans power

/-- **What the runs keep**, where the pool is small enough for the ring. -/
theorem budget_of_reaches {ring : FuseRing} {slots entries : Nat} {mem : Nat → Mem} {s : Sys}
    (room : 5 * slots ≤ 2 * entries + 2) (size : 100 ≤ entries)
    (run : Sys.Reaches ring (fun s act => orderly s act = true ∧ wholly s act = true)
      (Sys.init slots entries mem) s) :
    ∃ ghost, Kept slots entries s ghost ∧ Budget slots entries s ghost := by
  induction run with
  | start => exact ⟨_, kept_init slots entries mem, rfl⟩
  | step act _ allowed step ih =>
    obtain ⟨ghost, kept, budget⟩ := ih
    obtain ⟨ghost', kept', change⟩ := kept.step allowed.1 step
    exact ⟨ghost', kept', budget.step kept kept' change room size allowed.2⟩

/-- **The completion queue does not overflow** where five entries a slot fit into it. -/
theorem no_overflow_of_room {ring : FuseRing} {slots : Nat} {mem : Nat → Mem} {s : Sys}
    (room : 5 * slots ≤ 2 * sqEntries slots + 2)
    (run : Sys.Reaches ring (fun s act => orderly s act = true ∧ wholly s act = true)
      (Sys.init slots (sqEntries slots) mem) s) : ¬ s.Overflows (sqEntries slots) := by
  obtain ⟨ghost, kept, budget⟩ := budget_of_reaches room (le_sqEntries slots) run
  have level := budget.level kept room
  rw [Sys.level] at level
  rw [Sys.Overflows]
  omega

theorem sqEntries_of_le {slots : Nat} (few : slots ≤ 64) : sqEntries slots = 128 := by
  have exponent : Nat.clog 2 (max 100 (slots * 2)) = 7 := by
    refine le_antisymm (Nat.clog_le_of_le_pow ?_)
      ((Nat.lt_clog_iff_pow_lt Nat.one_lt_two).mpr (lt_max_of_lt_left (by decide)))
    exact max_le (by decide) (by omega)
  rw [sqEntries, exponent]
  rfl

theorem no_overflow_of_room_one : ∃ s : Sys, ¬ s.Overflows (sqEntries 1) ∧ s.cq.length = 1 := by
  have entries : sqEntries 1 = 128 := sqEntries_of_le (by decide)
  have ran : (Sys.run FuseRing.small (fun s act => orderly s act = true ∧ wholly s act = true)
      (goOn 9 ++ [.go (.ok 2), .post 0 0 []]) (Sys.init 1 128 fun _ => Mem.zero)).any
      (fun s => s.cq.length == 1) = true := by
    decide +kernel
  obtain ⟨s, reached, facts⟩ := (Option.any_eq_true _ _).mp ran
  rw [← entries] at reached
  refine ⟨s, no_overflow_of_room ?_ (Sys.reaches_of_run _ .start reached), by simpa using facts⟩
  rw [entries]
  decide

/-! ### An overflow -/

/-- 64 slots: three reads queue their chains and are submitted; then the headers of
all others and the completions of the three chains come in, and in the pass over them
42 reads fill the ring with their chains, so that the next `get_sqe` submits it. -/
def overflowActs : List Act :=
  goOn 513 ++ .go (.ok 128) :: (List.replicate 3 [Act.post 0 80 [],
    .post 0 80 emptyRead]).flatten ++
    goOn 50 ++ .go (.ok 9) :: (List.replicate 43 [Act.post 0 80 [],
      .post 0 80 emptyRead]).flatten ++
    List.replicate 45 (.post 0 80 []) ++ goOn 681 ++ .go (.ok 126) :: List.replicate 126
      (.post 0 80 [])

/-- **The completion queue overflows**: 257 completions are posted and not
released, and the queue has 256 entries. -/
theorem overflow_reached : ∃ s, Sys.Reaches FuseRing.small
    (fun s act => orderly s act = true ∧ wholly s act = true)
    (Sys.init 64 (sqEntries 64) fun _ => Mem.zero) s ∧ s.Overflows (sqEntries 64) := by
  have entries : sqEntries 64 = 128 := sqEntries_of_le (by decide)
  have ran : (Sys.run FuseRing.small (fun s act => orderly s act = true ∧
      wholly s act = true) overflowActs
      (Sys.init 64 128 fun _ => Mem.zero)).any
        (fun s => decide (2 * 128 < s.handled + s.cq.length)) = true := by
    decide +kernel
  obtain ⟨s, reached, facts⟩ := (Option.any_eq_true _ _).mp ran
  rw [decide_eq_true_iff] at facts
  rw [entries]
  exact ⟨s, Sys.reaches_of_run _ .start reached, facts⟩

end Fuseuring
