/-
**What the kernel has in hand.**

Each coroutine is proper by itself, and the event loop keeps the coroutines apart. For every
orderly run this says of the entries of the ring and of those the kernel works on

* `carries_of_orderly` — a reply carries the number of the request in the slot's `header_buf`;
* `still_of_orderly` — as long as the kernel has a reply, its slot's memory does not change;
* `wholeChains_of_orderly` — where `io_uring_submit` is called, the ring holds whole
  chains, each entry directly in front of the one it is linked to;
* `sameHeader_of_orderly` — the program never assigns to the header of a request.
-/

import Fuseuring.Ring.Chains
import Fuseuring.Ring.Strays

namespace Fuseuring

open Bytes Interaction

/-- One slot serves a `RELEASE` with the number 7, `count` steps behind its arrival. -/
def releaseActs (count : Nat) : List Act :=
  goOn 9 ++ [.go (.ok 2), .post 0 64 [],
    .post 0 64 (sessionMessage .release 7 3 (List.replicate 24 0))] ++ goOn count

/-- The entry of its reply. -/
def releaseReply : SqeEntry :=
  ⟨2, some ⟨.writeFixed (.pipe1 ⟨0⟩) ⟨⟨0⟩, .scratch, 0⟩ OutHeader.size, .link⟩, some ⟨1, 0⟩⟩

/-! ### Replies -/

section Replies

variable {slots entries : Nat} {ring : FuseRing} {mem : Nat → Mem} {s s' : Sys} {ghost : Ghost}
  {crew crew' : Crew} {entry : SqeEntry} {sqe : Sqe} {act : Act}

/-- The coroutines of a crew behave. -/
def Crew.Behaves (crew : Crew) : Prop := ∀ task solo, crew.solos task = some solo → solo.Safe proper

theorem behaves_of_reaches (run : Crew.Reaches ring (Crew.init slots mem) crew) : crew.Behaves :=
  safe_of_reaches (proper_queueReadSetRc ring) (fun _ => rfl) run

/-- A chain with a reply. -/
theorem Belongs.replies {task : Nat} {fuseIo : FuseIo} {before : Mem} {pending : List AwaitedEntry}
    (belongs : Belongs proper s crew entry task fuseIo before pending)
    (prepared : entry.sqe = some sqe) (replies : sqe.operation.replies = true) :
    sqe.operation.Carries fuseIo (s.mem fuseIo.slot) ∧
      ∀ other ∈ pending, other.sqe.operation.reads = false := by
  obtain ⟨sqe', id, index, prepared', -, here, -⟩ := belongs.listed
  obtain rfl := Option.some.inj (prepared.symm.trans prepared')
  have member : sqe ∈ pending.map AwaitedEntry.sqe :=
    List.mem_map_of_mem (f := AwaitedEntry.sqe) (List.mem_of_getElem? here)
  have quiet := belongs.chain.quiet ⟨sqe, member, replies⟩
  refine ⟨?_, fun other listed => quiet _ (List.mem_map_of_mem listed)⟩
  rw [belongs.receives.still quiet]
  exact belongs.chain.carries sqe member

/-- **A reply that is in flight carries the number of its slot's request.** -/
theorem carries_of_orderly
    (run : Sys.Reaches ring (fun s act => orderly s act = true) (Sys.init slots entries mem) s)
    (member : entry ∈ s.flight) (prepared : entry.sqe = some sqe) :
    ∃ task fuseIo, (task, fuseIo) ∈ s.vals ∧ (∀ named ∈ sqe.operation.fuseIos, named = fuseIo) ∧
      sqe.operation.Carries fuseIo (s.mem fuseIo.slot) := by
  obtain ⟨ghost, crew, kept, mirrors, reached⟩ :=
    kept_mirrors_of_reaches (fun _ _ holds => holds) run
  obtain ⟨task, fuseIo, before, pending, belongs⟩ :=
    mirrors.belongs kept (behaves_of_reaches reached) (List.mem_append_left _ member)
  obtain ⟨sqe', -, -, prepared', -, -, names⟩ := belongs.listed
  obtain rfl := Option.some.inj (prepared.symm.trans prepared')
  refine ⟨task, fuseIo, belongs.holds, names, ?_⟩
  by_cases replies : sqe.operation.replies = true
  · exact (belongs.replies prepared replies).1
  · cases operation : sqe.operation with
    | writeFixed fd buf nbytes => exact absurd (by rw [operation]; rfl) replies
    | write fd buf => exact absurd (by rw [operation]; rfl) replies
    | _ => trivial

theorem carries_of_orderly_release : ∃ (s : Sys) (task : Nat) (fuseIo : FuseIo),
    releaseReply ∈ s.flight ∧ requestUnique (s.mem 0) ⟨0⟩ = 7 ∧ (task, fuseIo) ∈ s.vals ∧
      (s.mem fuseIo.slot).load ⟨⟨0⟩, .scratch, 0⟩ OutHeader.unique =
        requestUnique (s.mem fuseIo.slot) fuseIo := by
  have ran : (Sys.run FuseRing.small (fun s act => orderly s act = true)
      (releaseActs 18 ++ [.go (.ok 2)]) (Sys.init 1 100 fun _ => Mem.zero)).any
      (fun s => s.flight.contains releaseReply && requestUnique (s.mem 0) ⟨0⟩ == 7) = true := by
    decide +kernel
  obtain ⟨s, reached, facts⟩ := (Option.any_eq_true _ _).mp ran
  simp only [Bool.and_eq_true, List.contains_iff_mem, beq_iff_eq] at facts
  obtain ⟨task, fuseIo, holds, -, -, carries⟩ :=
    carries_of_orderly (Sys.reaches_of_run _ .start reached) facts.1 rfl
  exact ⟨s, task, fuseIo, facts.1, facts.2, holds, carries⟩

/-- A coroutine that waits for a chain without a read keeps its memory. -/
theorem Crew.Step.still {mover task : Nat} {cause : Cause}
    (step : Crew.Step ring mover cause crew crew') {hold : Hold}
    {pending : List AwaitedEntry} {resume : List Int → Thread coroutines Int}
    (waits : crew.solos task = some ⟨hold, .waiting pending resume⟩)
    (quiet : ∀ other ∈ pending, other.sqe.operation.reads = false) :
    ∃ pc, crew'.solos task = some ⟨hold, pc⟩ := by
  cases step with
  | starts unborn =>
    have different : task ≠ mover := by
      rintro rfl
      cases waits.symm.trans unborn
    exact ⟨_, (Crew.solos_set_of_ne different).trans waits⟩
  | goesOn found step =>
    by_cases same : task = mover
    · subst same
      obtain rfl := Option.some.inj (waits.symm.trans found)
      rw [Crew.solos_set_self]
      cases step with
      | @completed _ _ index sqe _ res bytes here =>
        have silent := quiet _ (List.mem_of_getElem? here)
        have stays : hold.receive sqe.operation bytes = hold := by
          obtain ⟨slot, own⟩ := hold
          cases slot with
          | none => rfl
          | some held =>
            show (⟨some (held.1, held.2.receive sqe.operation bytes), own⟩ : Hold) = _
            rw [Mem.receive_of_not_reads bytes silent]
        exact ⟨_, congrArg some (congrArg₂ Solo.mk stays rfl)⟩
      | resumed _ => exact ⟨_, rfl⟩
    · exact ⟨_, (Crew.solos_set_of_ne same).trans waits⟩
  | takes found _ _ =>
    have different : task ≠ mover := by
      rintro rfl
      cases waits.symm.trans found
    exact ⟨_, (Crew.solos_set_of_ne different).trans waits⟩
  | gives found _ =>
    have different : task ≠ mover := by
      rintro rfl
      cases waits.symm.trans found
    exact ⟨_, (Crew.solos_set_of_ne different).trans waits⟩

/-- **No step changes the memory under a reply** that is awaited. -/
theorem Kept.still (kept : Kept slots entries s ghost) (mirrors : Mirrors s ghost.awaited crew)
    (behaves : crew.Behaves) (orderly : orderly s act = true) (step : s.step ring act = some s')
    (member : entry ∈ s.flight ++ ghost.awaited) (prepared : entry.sqe = some sqe)
    (replies : sqe.operation.replies = true) :
    ∀ fuseIo ∈ sqe.operation.fuseIos, s'.mem fuseIo.slot = s.mem fuseIo.slot := by
  obtain ⟨task, fuseIo, before, pending, belongs⟩ := mirrors.belongs kept behaves member
  obtain ⟨resume, waits⟩ := belongs.waits
  obtain ⟨sqe', -, -, prepared', -, -, names⟩ := belongs.listed
  obtain rfl := Option.some.inj (prepared.symm.trans prepared')
  obtain ⟨ghost', crew', -, mirrors', moved, -⟩ := kept.mirrors_step mirrors orderly step
  have there : ∃ pc, crew'.solos task = some ⟨⟨some (fuseIo, s.mem fuseIo.slot), []⟩, pc⟩ := by
    have quiet := (belongs.replies prepared replies).2
    cases moved with
    | stays _ => exact ⟨_, waits⟩
    | goesOn next => exact next.still waits quiet
    | refused _ next => exact next.still waits quiet
    | posted _ _ _ next => exact next.still waits quiet
  obtain ⟨pc, there⟩ := there
  have stays := (((mirrors'.depicts task _ there).slot fuseIo _).mp rfl).2
  intro named member'
  rw [names named member']
  exact stays.symm

/-- **As long as a reply is in flight, the memory of its slot does not change.** -/
theorem still_of_orderly
    (run : Sys.Reaches ring (fun s act => orderly s act = true) (Sys.init slots entries mem) s)
    (prepared : entry.sqe = some sqe) (replies : sqe.operation.replies = true)
    (stays : Sys.Reaches ring (fun s act => orderly s act = true ∧ entry ∈ s.flight) s s') :
    ∀ fuseIo ∈ sqe.operation.fuseIos, s'.mem fuseIo.slot = s.mem fuseIo.slot := by
  have both : Sys.Reaches ring (fun s act => orderly s act = true) (Sys.init slots entries mem) s' ∧
      ∀ fuseIo ∈ sqe.operation.fuseIos, s'.mem fuseIo.slot = s.mem fuseIo.slot := by
    induction stays with
    | start => exact ⟨run, fun _ _ => rfl⟩
    | step act _ allowed step ih =>
      obtain ⟨reached, same⟩ := ih
      obtain ⟨ghost, crew, kept, mirrors, crews⟩ :=
        kept_mirrors_of_reaches (fun _ _ holds => holds) reached
      have still := kept.still mirrors (behaves_of_reaches crews) allowed.1 step
        (List.mem_append_left _ allowed.2) prepared replies
      refine ⟨reached.step act allowed.1 step, fun fuseIo member => ?_⟩
      exact (still fuseIo member).trans (same fuseIo member)
  exact both.2

/-- The splice behind the reply is completed, out of order. -/
theorem still_of_orderly_release : ∃ s s' : Sys, s.flight.length = 2 ∧ s'.cq.length = 1 ∧
    releaseReply ∈ s'.flight ∧ s'.mem 0 = s.mem 0 := by
  have ran : (Sys.run FuseRing.small (fun s act => orderly s act = true)
      (releaseActs 18 ++ [.go (.ok 2)]) (Sys.init 1 100 fun _ => Mem.zero)).any (fun s =>
      s.flight.length == 2 && (Sys.run FuseRing.small
        (fun s act => orderly s act = true ∧ releaseReply ∈ s.flight) [.post 1 (-5) []] s).any
        fun s' => s'.cq.length == 1 && s'.flight.contains releaseReply) = true := by
    decide +kernel
  obtain ⟨s, reached, facts⟩ := (Option.any_eq_true _ _).mp ran
  rw [Bool.and_eq_true] at facts
  obtain ⟨s', stays, facts'⟩ := (Option.any_eq_true _ _).mp facts.2
  simp only [Bool.and_eq_true, List.contains_iff_mem, beq_iff_eq] at facts facts'
  refine ⟨s, s', facts.1, facts'.1, facts'.2, ?_⟩
  exact still_of_orderly (Sys.reaches_of_run _ .start reached) rfl rfl
    (Sys.reaches_of_run _ .start stays) ⟨0⟩ (by decide)

end Replies

/-! ### Whole chains -/

/-- What stands behind an entry: the rest of its chain, or the beginning of another one. -/
def SqeEntry.Before (entry : SqeEntry) (next : Option SqeEntry) : Prop :=
  ∃ sqe id index, entry.sqe = some sqe ∧ entry.userData = some ⟨id, index⟩ ∧
    if sqe.link = .none then ∀ other ∈ next, ∃ id', other.userData = some ⟨id', 0⟩
    else ∃ other ∈ next, other.userData = some ⟨id, index + 1⟩

/-- **Whole chains, one behind the other**; of the first one the front may be gone. -/
def WholeChains (sq : List SqeEntry) : Prop :=
  ∀ (place : Nat) (entry : SqeEntry), sq[place]? = some entry → entry.Before sq[place + 1]?

theorem WholeChains.drop {sq : List SqeEntry} (whole : WholeChains sq) (count : Nat) :
    WholeChains (sq.drop count) := by
  intro place entry found
  rw [List.getElem?_drop] at found ⊢
  exact whole _ _ found

/-- In a linked chain, the last entry and no other is not linked. -/
theorem LinkedUp.last_iff {sqes : List Sqe} (linked : LinkedUp sqes) :
    ∀ {index : Nat} {sqe : Sqe}, sqes[index]? = some sqe →
      (sqe.link = .none ↔ index + 1 = sqes.length) := by
  induction sqes with
  | nil => exact linked.elim
  | cons first rest ih =>
    intro index sqe found
    cases rest with
    | nil =>
      cases index with
      | zero =>
        obtain rfl := Option.some.inj found
        exact iff_of_true linked rfl
      | succ index => cases found
    | cons second rest =>
      cases index with
      | zero =>
        obtain rfl := Option.some.inj found
        exact iff_of_false linked.1 (by simp)
      | succ index =>
        rw [ih linked.2 found]
        simp

theorem LinkedUp.nonempty {sqes : List Sqe} (linked : LinkedUp sqes) : 0 < sqes.length := by
  cases sqes with
  | nil => exact linked.elim
  | cons first rest => exact Nat.succ_pos _

/-- The entries of an await, by their places. -/
theorem tagged_getElem? {own : List SqeEntry} {pairs : List (Nat × Sqe)} {id place : Nat}
    (contents : own.map SqeEntry.content = pairs.map fun entry => (entry.1, some entry.2))
    {entry : SqeEntry}
    (found : (tagged own (IoUringAwaiter.userData id pairs.length))[place]? = some entry) :
    ∃ sqe, (pairs.map Prod.snd)[place]? = some sqe ∧ entry.sqe = some sqe ∧
      entry.userData = some ⟨id, place⟩ := by
  rw [tagged, List.getElem?_map, Option.map_eq_some_iff] at found
  obtain ⟨⟨taken, target⟩, here, rfl⟩ := found
  obtain ⟨mine, named⟩ := List.getElem?_zip_eq_some.mp here
  have content := congrArg (fun list => list[place]?) contents
  simp only [List.getElem?_map, mine, Option.map_some] at content
  obtain ⟨pair, listed, same⟩ := Option.map_eq_some_iff.mp content.symm
  rw [IoUringAwaiter.userData, List.getElem?_map, Option.map_eq_some_iff] at named
  obtain ⟨index, range, rfl⟩ := named
  have bound := (List.getElem?_eq_some_iff.mp range).1
  rw [List.length_range] at bound
  rw [List.getElem?_range bound] at range
  obtain rfl := Option.some.inj range
  refine ⟨pair.2, ?_, (congrArg Prod.snd same).symm, rfl⟩
  rw [List.getElem?_map, listed, Option.map_some]

/-- The entries of an await are as many as its targets. -/
theorem tagged_length {own : List SqeEntry} {pairs : List (Nat × Sqe)} (id : Nat)
    (contents : own.map SqeEntry.content = pairs.map fun entry => (entry.1, some entry.2)) :
    (tagged own (IoUringAwaiter.userData id pairs.length)).length = pairs.length := by
  have lengths := congrArg List.length contents
  rw [List.length_map, List.length_map] at lengths
  rw [tagged, List.length_map, List.length_zip, IoUringAwaiter.userData, List.length_map,
    List.length_range, lengths, Nat.min_self]

/-- A chain comes behind the others. -/
theorem WholeChains.append {awaited own : List SqeEntry} {pairs : List (Nat × Sqe)} {id : Nat}
    (whole : WholeChains awaited)
    (contents : own.map SqeEntry.content = pairs.map fun entry => (entry.1, some entry.2))
    (linked : LinkedUp (pairs.map Prod.snd)) :
    WholeChains (awaited ++ tagged own (IoUringAwaiter.userData id pairs.length)) := by
  have length := tagged_length id contents
  have positive : 0 < pairs.length := by simpa using linked.nonempty
  intro place entry found
  by_cases old : place < awaited.length
  · rw [List.getElem?_append_left old] at found
    obtain ⟨sqe, id', index, prepared, tagged', follows⟩ := whole place entry found
    refine ⟨sqe, id', index, prepared, tagged', ?_⟩
    by_cases inner : place + 1 < awaited.length
    · rwa [List.getElem?_append_left inner]
    · rw [List.getElem?_eq_none (by omega)] at follows
      -- the last of the old entries ends its chain
      by_cases last : sqe.link = .none
      · rw [if_pos last]
        intro other behind
        rw [List.getElem?_append_right (by omega)] at behind
        obtain ⟨-, -, -, target⟩ := tagged_getElem? contents behind
        exact ⟨id, by rw [target, show place + 1 - awaited.length = 0 by omega]⟩
      · rw [if_neg last] at follows
        obtain ⟨other, none, -⟩ := follows
        cases none
  · rw [List.getElem?_append_right (by omega)] at found
    obtain ⟨sqe, listed, prepared, target⟩ := tagged_getElem? contents found
    refine ⟨sqe, id, place - awaited.length, prepared, target, ?_⟩
    have last := linked.last_iff listed
    rw [List.length_map] at last
    rw [List.getElem?_append_right (by omega)]
    by_cases ends : sqe.link = .none
    · rw [if_pos ends, List.getElem?_eq_none (by have := last.mp ends; omega)]
      exact fun _ impossible => by cases impossible
    · rw [if_neg ends]
      have bound := (List.getElem?_eq_some_iff.mp found).1
      have more : place + 1 - awaited.length <
          (tagged own (IoUringAwaiter.userData id pairs.length)).length := by
        have := mt last.mpr ends
        omega
      refine ⟨_, List.getElem?_eq_getElem more, ?_⟩
      obtain ⟨-, -, -, next⟩ := tagged_getElem? contents (List.getElem?_eq_getElem more)
      rw [next, show place + 1 - awaited.length = place - awaited.length + 1 by omega]

section Runs

variable {slots entries : Nat} {ring : FuseRing} {mem : Nat → Mem} {s s' : Sys} {crew : Crew}
  {flight awaited awaited' : List SqeEntry}

/-- The awaited entries through a step. -/
theorem AwaitedStep.wholeChains (step : AwaitedStep s crew awaited flight awaited')
    (behaves : crew.Behaves) (whole : WholeChains awaited) : WholeChains awaited' := by
  cases step with
  | left count => exact whole.drop count
  | posted place => exact whole
  | @parked task slot pairs thread resume own found move contents =>
    refine whole.append contents ?_
    have allowed := ((behaves task _ found).keeps rfl).performs move
    obtain ⟨fuseIo, mem, -, chains⟩ := allowed
    refine (chains (pairs.map Prod.snd) ?_).1.linked
    rw [List.map_map, List.map_map]
    rfl

theorem kept_wholeChains_of_orderly
    (run : Sys.Reaches ring (fun s act => orderly s act = true) (Sys.init slots entries mem) s) :
    ∃ ghost crew, Kept slots entries s ghost ∧ Mirrors s ghost.awaited crew ∧
      Crew.Reaches ring (Crew.init slots mem) crew ∧ WholeChains ghost.awaited := by
  induction run with
  | start =>
    refine ⟨_, _, kept_init slots entries mem, mirrors_init slots entries mem, .start, ?_⟩
    exact fun _ _ found => by cases found
  | step act _ allowed step ih =>
    obtain ⟨ghost, crew, kept, mirrors, reached, whole⟩ := ih
    obtain ⟨ghost', crew', kept', mirrors', moved, awaits⟩ :=
      kept.mirrors_step mirrors allowed step
    exact ⟨ghost', crew', kept', mirrors', moved.reaches reached,
      awaits.wholeChains (behaves_of_reaches reached) whole⟩

/-- **The ring is submitted in whole chains.** -/
theorem wholeChains_of_orderly
    (run : Sys.Reaches ring (fun s act => orderly s act = true) (Sys.init slots entries mem) s)
    (submits : s.submits = true) : WholeChains s.sq := by
  obtain ⟨ghost, crew, kept, -, -, whole⟩ := kept_wholeChains_of_orderly run
  rw [kept.queues.sq (kept.own_of_submits submits)]
  exact whole

theorem wholeChains_of_orderly_release : ∃ s : Sys, s.submits = true ∧ releaseReply ∈ s.sq ∧
    WholeChains s.sq := by
  have ran : (Sys.run FuseRing.small (fun s act => orderly s act = true) (releaseActs 18)
      (Sys.init 1 100 fun _ => Mem.zero)).any
      (fun s => s.submits && s.sq.contains releaseReply) = true := by
    decide +kernel
  obtain ⟨s, reached, facts⟩ := (Option.any_eq_true _ _).mp ran
  rw [Bool.and_eq_true, List.contains_iff_mem] at facts
  exact ⟨s, facts.1, facts.2,
    wholeChains_of_orderly (Sys.reaches_of_run _ .start reached) facts.1⟩

/-! ### The header of a request -/

/-- A `get_sqe` leaves the memory alone. -/
theorem Sys.getSqe_mem {result : SubmitResult} {task peek : Nat} {back : Back} {gaveUp : Bool}
    {resume : SqeRef → Thread coroutines Int}
    (step : s.getSqe result task back gaveUp peek resume = some s') : s'.mem = s.mem := by
  obtain ⟨ringSubmit, flagged⟩ := flagged_eq s peek
  unfold Sys.getSqe at step
  rw [flagged] at step
  dsimp only at step
  split at step
  · cases step
    rfl
  · cases result with
    | ok count =>
      dsimp only at step
      split at step
      · rw [Option.some.injEq] at step
        subst step
        split <;> rfl
      · cases step
    | busy =>
      rw [Option.some.injEq] at step
      subst step
      split <;> rfl
    | failed =>
      cases step
      rfl

/-- The tags of an await leave the memory alone. -/
theorem Sys.tag_mem (refs : List SqeRef) (targets : List UserData) :
    ∀ s : Sys, (s.tag refs targets).mem = s.mem := by
  induction refs generalizing targets with
  | nil => exact fun s => by rw [Sys.tag.eq_def]
  | cons ref refs ih =>
    intro s
    cases ref with
    | none => rw [Sys.tag.eq_def]
    | some index =>
      cases targets with
      | nil => rw [Sys.tag.eq_def]
      | cons target targets => exact ih targets _

/-- **The program changes memory only where a coroutine stores it.** -/
theorem Sys.go_mem {result : SubmitResult} (step : s.go ring result = some s') :
    s'.mem = s.mem ∨ ∃ task back thread gaveUp fuseIo mem resume,
      s.pc = .running task back thread gaveUp ∧
      thread.move = .performs (.store fuseIo mem) resume ∧
      s'.mem = Function.update s.mem fuseIo.slot mem := by
  unfold Sys.go at step
  cases pc : s.pc with
  | refill =>
    rw [pc] at step
    dsimp only at step
    split at step <;> cases step <;> exact Or.inl rfl
  | running task back thread gaveUp =>
    rw [pc] at step
    dsimp only at step
    cases move : thread.move with
    | ended value =>
      rw [move] at step
      cases step
      exact Or.inl rfl
    | turned next =>
      rw [move] at step
      cases step
      exact Or.inl rfl
    | performs op resume =>
      rw [move] at step
      dsimp only at step
      cases op with
      | store fuseIo mem =>
        cases step
        exact Or.inr ⟨task, back, thread, gaveUp, fuseIo, mem, resume, rfl, move, rfl⟩
      | getSqe peek => exact Or.inl (Sys.getSqe_mem step)
      | getFuseIo =>
        rw [Sys.perform] at step
        split at step <;> cases step <;> exact Or.inl rfl
      | prep ref entry =>
        cases ref <;> cases step <;> exact Or.inl rfl
      | complete refs =>
        rw [Sys.perform] at step
        split at step
        · cases step
          exact Or.inl rfl
        · cases step
          exact Or.inl (Sys.tag_mem _ _ _)
      | _ =>
        cases step
        exact Or.inl rfl
  | polling task back resume gaveUp =>
    rw [pc] at step
    dsimp only at step
    split at step <;> cases step <;> exact Or.inl rfl
  | submit =>
    rw [pc] at step
    dsimp only at step
    cases result with
    | ok count =>
      dsimp only at step
      split at step <;> cases step
      exact Or.inl rfl
    | busy =>
      rw [Option.some.injEq] at step
      subst step
      split <;> exact Or.inl rfl
    | failed =>
      cases step
      exact Or.inl rfl
  | pass =>
    rw [pc] at step
    dsimp only at step
    split at step
    · cases step
      exact Or.inl rfl
    · split at step <;> cases step <;> exact Or.inl rfl
  | exited rc =>
    rw [pc] at step
    cases step
  | fault =>
    rw [pc] at step
    cases step

/-- **The header of a request is only ever written by the kernel.** -/
theorem sameHeader_of_orderly
    (run : Sys.Reaches ring (fun s act => orderly s act = true) (Sys.init slots entries mem) s)
    {result : SubmitResult} (step : s.step ring (.go result) = some s') :
    ∀ slot, SameHeader (s.mem slot) (s'.mem slot) := by
  obtain ⟨ghost, crew, kept, mirrors, reached⟩ :=
    kept_mirrors_of_reaches (fun _ _ holds => holds) run
  intro slot
  rcases Sys.go_mem step with
    same | ⟨task, back, thread, gaveUp, fuseIo, stored, resume, pc, move, written⟩
  · rw [same]
    exact fun _ _ => rfl
  obtain ⟨hold, own, found, -, -, -, held⟩ := kept.mirrored_running mirrors pc
  have mine := kept.slot_of (current_of_pc pc) held (kept.allowed pc move).1
  have stores := (((behaves_of_reaches reached task _ found).keeps rfl).performs move _ mine).1
  rw [written]
  by_cases here : slot = fuseIo.slot
  · rw [here, Function.update_self]
    exact stores
  · rw [Function.update_of_ne here]
    exact fun _ _ => rfl

/-- The step that stores the reply. -/
theorem sameHeader_of_orderly_release : ∃ s s' : Sys,
    (s.mem 0).load ⟨⟨0⟩, .scratch, 0⟩ OutHeader.unique = 0 ∧
      (s'.mem 0).load ⟨⟨0⟩, .scratch, 0⟩ OutHeader.unique = 7 ∧
      ∀ slot, SameHeader (s.mem slot) (s'.mem slot) := by
  have ran : (Sys.run FuseRing.small (fun s act => orderly s act = true) (releaseActs 8)
      (Sys.init 1 100 fun _ => Mem.zero)).any (fun s =>
      (s.mem 0).load ⟨⟨0⟩, .scratch, 0⟩ OutHeader.unique == 0 &&
        (s.step FuseRing.small (.go .failed)).any fun s' =>
          (s'.mem 0).load ⟨⟨0⟩, .scratch, 0⟩ OutHeader.unique == 7) = true := by
    decide +kernel
  obtain ⟨s, reached, facts⟩ := (Option.any_eq_true _ _).mp ran
  rw [Bool.and_eq_true, beq_iff_eq] at facts
  obtain ⟨s', step, facts'⟩ := (Option.any_eq_true _ _).mp facts.2
  exact ⟨s, s', facts.1, beq_iff_eq.mp facts',
    sameHeader_of_orderly (Sys.reaches_of_run _ .start reached) step⟩

end Runs

end Fuseuring
