/-
**The event loop serves every request as if it were alone.**

`Served` are the runs of the event loop with its devices: no `get_sqe` gives up, the entries of a
chain complete in order, each on its own slot and on the one backing file, and everything else is
open. What the coroutines do between these completions, and in which order, does not matter.

* `Devices.Follow` — the invariant: each coroutine that holds a slot is `Engaged` with it.
* `accounts_of_served` — a coroutine that gives its slot back has done what `serve` does for one
  request on the slot as it took it.
-/

import Fuseuring.Ring.Sequential
import Fuseuring.Ring.InFlight

namespace Fuseuring

open Interaction

/-! ### Without a slot -/

/-- **A coroutine that holds no slot**: it is about to take one, or has given it back. -/
inductive Solo.Outside (ring : FuseRing) : Solo → Prop
  | start : Outside ring (.start ring)
  | called : Outside ring ⟨.nothing, .running ⟨Int, queueFuseRead ring, .push setRc .bottom⟩⟩
  | returns (rc : Int) : Outside ring ⟨.nothing, .running ⟨Int, pure rc, .push setRc .bottom⟩⟩
  | returned (rc : Int) : Outside ring ⟨.nothing, .running ⟨Int, setRc rc, .bottom⟩⟩
  | ends (rc : Int) : Outside ring ⟨.nothing, .running ⟨Int, pure rc, .bottom⟩⟩
  | ended : Outside ring ⟨.nothing, .ended⟩

section Outside

variable {ring : FuseRing} {solo next : Solo}

/-- Where a coroutine runs, a program step is that of its thread. -/
theorem Solo.Step.moves {hold : Hold} {thread : Thread coroutines Int}
    (step : Solo.Step .program ⟨hold, .running thread⟩ next) :
    (∃ turned, thread.move = .turned turned ∧ next = ⟨hold, .running turned⟩) ∨
    (∃ value, thread.move = .ended value ∧ next = ⟨hold, .ended⟩) ∨
    (∃ op resume answer after, thread.move = .performs op resume ∧ hold.Answers op answer after ∧
      next = ⟨after, .running (resume answer)⟩) ∨
    (∃ sqe resume, thread.move = .performs (.prep none sqe) resume) ∨
    ∃ refs resume, thread.move = .performs (.complete refs) resume := by
  cases step with
  | turned move => exact Or.inl ⟨_, move, rfl⟩
  | ended move => exact Or.inr (Or.inl ⟨_, move, rfl⟩)
  | performs move answers => exact Or.inr (Or.inr (Or.inl ⟨_, _, _, _, move, answers, rfl⟩))
  | faults move => exact Or.inr (Or.inr (Or.inr (Or.inl ⟨_, _, move⟩)))
  | awaits move => exact Or.inr (Or.inr (Or.inr (Or.inr ⟨_, _, move⟩)))

/-- `queue_read_set_rc` notes a failure, and no more. -/
theorem setRc_cases (rc : Int) :
    setRc rc = (setLastRc rc >>= fun _ => pure rc) ∨ setRc rc = pure rc := by
  by_cases failed : rc ≠ 0
  · rw [setRc, if_pos failed]
    exact Or.inl rfl
  · rw [setRc, if_neg failed]
    exact Or.inr rfl

theorem Solo.Outside.step (outside : solo.Outside ring) (step : Solo.Step .program solo next) :
    next.Outside ring := by
  cases outside with
  | start =>
    rcases step.moves with ⟨_, move, rfl⟩ | ⟨_, move, -⟩ | ⟨_, _, _, _, move, -⟩ | ⟨_, _, move⟩ |
      ⟨_, _, move⟩
    · cases move
      exact .called
    all_goals cases move
  | called =>
    rcases step.moves with ⟨_, move, -⟩ | ⟨_, move, -⟩ | ⟨_, _, _, _, move, answers, -⟩ |
      ⟨_, _, move⟩ | ⟨_, _, move⟩
    · cases move
    · cases move
    · cases move
      cases answers
    · cases move
    · cases move
  | returns rc =>
    rcases step.moves with ⟨_, move, rfl⟩ | ⟨_, move, -⟩ | ⟨_, _, _, _, move, -⟩ | ⟨_, _, move⟩ |
      ⟨_, _, move⟩
    · cases move
      exact .returned rc
    all_goals cases move
  | returned rc =>
    rcases setRc_cases rc with writes | silent
    · rw [writes] at step
      rcases step.moves with ⟨_, move, -⟩ | ⟨_, move, -⟩ | ⟨_, _, _, _, move, answers, rfl⟩ |
        ⟨_, _, move⟩ | ⟨_, _, move⟩
      · cases move
      · cases move
      · cases move
        cases answers
        exact .ends rc
      · cases move
      · cases move
    · rw [silent] at step
      rcases step.moves with ⟨_, move, -⟩ | ⟨_, move, rfl⟩ | ⟨_, _, _, _, move, -⟩ |
        ⟨_, _, move⟩ | ⟨_, _, move⟩
      · cases move
      · exact .ended
      all_goals cases move
  | ends rc =>
    rcases step.moves with ⟨_, move, -⟩ | ⟨_, move, rfl⟩ | ⟨_, _, _, _, move, -⟩ | ⟨_, _, move⟩ |
      ⟨_, _, move⟩
    · cases move
    · exact .ended
    all_goals cases move
  | ended =>
    generalize Hold.nothing = hold at step
    cases step

/-- **A slot is taken by a coroutine that begins with a request.** -/
theorem Solo.Outside.takes {own : List (Nat × Option Sqe)} {thread : Thread coroutines Int}
    {resume : FuseIo → Thread coroutines Int} {held : Option (FuseIo × Mem)}
    (outside : Solo.Outside ring ⟨⟨held, own⟩, .running thread⟩)
    (move : thread.move = .performs .getFuseIo resume) (fuseIo : FuseIo) :
    own = [] ∧ resume fuseIo = reading fuseIo (queueFuseReadBody ring fuseIo) := by
  generalize same : (⟨⟨held, own⟩, .running thread⟩ : Solo) = solo at outside
  cases outside with
  | start =>
    cases same
    cases move
  | called =>
    cases same
    cases move
    exact ⟨rfl, rfl⟩
  | returns rc =>
    cases same
    cases move
  | returned rc =>
    cases same
    rcases setRc_cases rc with writes | silent
    · rw [writes] at move
      cases move
    · rw [silent] at move
      cases move
  | ends rc =>
    cases same
    cases move
  | ended => cases same

end Outside

/-! ### The devices -/

/-- **The devices**: the backing file, what they keep of each slot, and how the slot was when it was
taken last. -/
structure Devices where
  file : File
  first : Nat → SlotState
  line : Nat → Line

namespace Devices

/-- A slot that leaves the pool begins with a request. -/
def handOut (devices : Devices) (s s' : Sys) : Devices where
  file := devices.file
  first := fun slot =>
    if ⟨slot⟩ ∈ s.ios ∧ ⟨slot⟩ ∉ s'.ios then ⟨⟨slot⟩, s.mem slot, (devices.line slot).pipe⟩
    else devices.first slot
  line := fun slot =>
    if ⟨slot⟩ ∈ s.ios ∧ ⟨slot⟩ ∉ s'.ios then { devices.line slot with traffic := .none }
    else devices.line slot

/-- **The devices complete an entry**, behind those in front of it in its chain. -/
inductive Completes (devices : Devices) (s : Sys) (place : Nat) (res : Int) (bytes : List UInt8) :
    Devices → Prop
  | mk {entry : SqeEntry} {sqe : Sqe} {id index : Nat} {awaiter : IoUringAwaiter Suspended}
      {fuseIo : FuseIo} {line : Line} {file : File} : s.flight[place]? = some entry →
      entry.sqe = some sqe → entry.userData = some ⟨id, index⟩ →
      (∀ other ∈ s.flight, ∀ index', other.userData = some ⟨id, index'⟩ → index ≤ index') →
      s.awaiters id = some awaiter → (awaiter.awaiter.task, fuseIo) ∈ s.vals →
      Device fuseIo (s.mem fuseIo.slot) (devices.line fuseIo.slot) devices.file index sqe res
        ((s.mem fuseIo.slot).receive sqe.operation bytes) line file →
      Completes devices s place res bytes
        { devices with file := file, line := Function.update devices.line fuseIo.slot line }

end Devices

/-- **The runs of the event loop with its devices**, in which no submit fails. -/
inductive Served (ring : FuseRing) (first : Sys) (start : Devices) : Sys → Devices → Prop
  | start : Served ring first start first start
  | go {s s' : Sys} {devices : Devices} {result : SubmitResult} :
      Served ring first start s devices → succeeds s (.go result) = true →
      s.step ring (.go result) = some s' → Served ring first start s' (devices.handOut s s')
  | post {s s' : Sys} {devices devices' : Devices} {place : Nat} {res : Int} {bytes : List UInt8} :
      Served ring first start s devices → s.step ring (.post place res bytes) = some s' →
      devices.Completes s place res bytes devices' → Served ring first start s' devices'

/-! ### The order of a chain -/

/-- Entries of one chain are submitted in its order. -/
def SqeEntry.Precedes (entry other : SqeEntry) : Prop :=
  ∀ id index index', entry.userData = some ⟨id, index⟩ → other.userData = some ⟨id, index'⟩ →
    index < index'

section Order

variable {slots entries : Nat} {s : Sys} {ghost : Ghost} {crew : Crew}

theorem pairwise_tagged (id count : Nat) (own : List SqeEntry) :
    (tagged own (IoUringAwaiter.userData id count)).Pairwise SqeEntry.Precedes := by
  refine List.pairwise_iff_getElem.mpr fun place place' bound bound' before => ?_
  intro id' index index' mine theirs
  simp only [tagged, IoUringAwaiter.userData, List.getElem_map, List.getElem_zip,
    List.getElem_range, Option.some.injEq, UserData.mk.injEq] at mine theirs
  omega

/-- The entries of an await are new. -/
theorem Kept.precedes_tagged (kept : Kept slots entries s ghost) {entry other : SqeEntry}
    {own : List SqeEntry} {count : Nat} (member : entry ∈ s.flight ++ ghost.awaited)
    (new : other ∈ tagged own (IoUringAwaiter.userData s.created count)) :
    entry.Precedes other := by
  intro id index index' mine theirs
  obtain ⟨pair, listed, rfl⟩ := List.mem_map.mp new
  have target := (mem_userData.mp (List.of_mem_zip listed).2).1
  have same : pair.2 = ⟨id, index'⟩ := Option.some.inj theirs
  rw [same] at target
  have open' : (⟨id, index⟩ : UserData) ∈ s.unhandled ghost.awaited :=
    mem_unhandled.mpr (Or.inr ⟨entry, member, mine⟩)
  obtain ⟨awaiter, pending, -⟩ := kept.queues.sound.live _ open'
  have old := kept.queues.sound.fresh _ _ pending
  exact absurd target (Nat.ne_of_lt old)

theorem AwaitedStep.ordered {flight awaited' : List SqeEntry} (kept : Kept slots entries s ghost)
    (ordered : (s.flight ++ ghost.awaited).Pairwise SqeEntry.Precedes)
    (step : AwaitedStep s crew ghost.awaited flight awaited') :
    (flight ++ awaited').Pairwise SqeEntry.Precedes := by
  cases step with
  | left count =>
    rw [List.append_assoc, List.take_append_drop]
    exact ordered
  | posted place =>
    exact ordered.sublist (List.Sublist.append_right (List.eraseIdx_sublist _ _) _)
  | parked found move contents =>
    rw [← List.append_assoc]
    refine List.pairwise_append.mpr ⟨ordered, pairwise_tagged _ _ _, ?_⟩
    exact fun entry member other new => kept.precedes_tagged member new

end Order

/-! ### The invariant -/

/-- What the devices tell of a coroutine. -/
inductive Devices.Tells (ring : FuseRing) (devices : Devices) : Solo → Prop
  | outside {solo : Solo} : solo.Outside ring → Tells ring devices solo
  | inside {fuseIo : FuseIo} {mem : Mem} {own : List (Nat × Option Sqe)} {pc : SoloPc} :
      Engaged ring (devices.first fuseIo.slot) ⟨⟨some (fuseIo, mem), own⟩, pc⟩
        (devices.line fuseIo.slot) → Tells ring devices ⟨⟨some (fuseIo, mem), own⟩, pc⟩

/-- **The devices follow the coroutines.** -/
structure Devices.Follow (ring : FuseRing) (devices : Devices) (s : Sys) (awaited : List SqeEntry)
    (crew : Crew) : Prop where
  tells : ∀ task solo, crew.solos task = some solo → devices.Tells ring solo
  ordered : (s.flight ++ awaited).Pairwise SqeEntry.Precedes

section Steps

variable {slots entries : Nat} {ring : FuseRing} {s s' : Sys} {ghost : Ghost} {crew crew' : Crew}
  {devices : Devices}

/-- A program step leaves a coroutine its slot. -/
theorem Solo.Step.keepsSlot {solo next : Solo} (step : Solo.Step .program solo next)
    {fuseIo : FuseIo} {mem : Mem} (holds : solo.hold.slot = some (fuseIo, mem)) :
    ∃ mem' own pc, next = ⟨⟨some (fuseIo, mem'), own⟩, pc⟩ := by
  obtain ⟨⟨slot, own⟩, pc⟩ := solo
  obtain rfl : slot = some (fuseIo, mem) := holds
  generalize held : (⟨some (fuseIo, mem), own⟩ : Hold) = hold at step
  cases step with
  | performs move answers =>
    cases answers with
    | store stored mine =>
      subst held
      obtain ⟨rfl, -⟩ := Prod.mk.inj (Option.some.inj mine)
      exact ⟨stored, own, _, rfl⟩
    | _ =>
      subst held
      exact ⟨mem, _, _, rfl⟩
  | awaits move =>
    obtain ⟨rfl, -⟩ := Hold.mk.inj held
    exact ⟨mem, _, _, rfl⟩
  | _ =>
    subst held
    exact ⟨mem, own, _, rfl⟩

theorem Devices.Tells.step {solo next : Solo} (tells : devices.Tells ring solo)
    (step : Solo.Step .program solo next) : devices.Tells ring next := by
  cases tells with
  | outside outside => exact .outside (outside.step step)
  | inside engaged =>
    obtain ⟨mem', own, pc, rfl⟩ := step.keepsSlot rfl
    exact .inside (engaged.goesOn step)

/-- What is told of a coroutine depends on its own slot only. -/
theorem Devices.Tells.frame {devices' : Devices} {solo : Solo} (tells : devices.Tells ring solo)
    (first : ∀ fuseIo mem, solo.hold.slot = some (fuseIo, mem) →
      devices'.first fuseIo.slot = devices.first fuseIo.slot)
    (line : ∀ fuseIo mem, solo.hold.slot = some (fuseIo, mem) →
      devices'.line fuseIo.slot = devices.line fuseIo.slot) : devices'.Tells ring solo := by
  cases tells with
  | outside outside => exact .outside outside
  | inside engaged =>
    refine .inside ?_
    rw [first _ _ rfl, line _ _ rfl]
    exact engaged

/-- A slot that is held is not handed out. -/
theorem Devices.Tells.handOut (kept : Kept slots entries s ghost)
    (mirrors : Mirrors s ghost.awaited crew) {task : Nat} {solo : Solo}
    (found : crew.solos task = some solo) (tells : devices.Tells ring solo) :
    (devices.handOut s s').Tells ring solo := by
  have held : ∀ fuseIo mem, solo.hold.slot = some (fuseIo, mem) →
      ¬ ((⟨fuseIo.slot⟩ : FuseIo) ∈ s.ios ∧ (⟨fuseIo.slot⟩ : FuseIo) ∉ s'.ios) := by
    intro fuseIo mem slot taken
    have mine := (((mirrors.depicts task solo found).slot fuseIo mem).mp slot).1
    exact kept.pool_apart mine taken.1 rfl
  exact tells.frame (fun fuseIo mem slot => if_neg (held fuseIo mem slot))
    fun fuseIo mem slot => if_neg (held fuseIo mem slot)

theorem Mirrors.ios_eq {awaited : List SqeEntry} (mirrors : Mirrors s awaited crew) :
    s.ios = crew.pool.map Prod.fst := by
  rw [mirrors.pool, List.map_map]
  exact (List.map_id _).symm

/-- **A step of the program.** -/
theorem Devices.Follow.go (kept : Kept slots entries s ghost)
    (mirrors : Mirrors s ghost.awaited crew)
    (follow : devices.Follow ring s ghost.awaited crew) {result : SubmitResult}
    (fine : succeeds s (.go result) = true) {ghost' : Ghost}
    (mirrors' : Mirrors s' ghost'.awaited crew')
    (moved : Moved ring s crew (.go result) crew')
    (awaits : AwaitedStep s crew ghost.awaited s'.flight ghost'.awaited) :
    (devices.handOut s s').Follow ring s' ghost'.awaited crew' := by
  refine ⟨?_, awaits.ordered kept follow.ordered⟩
  have others : ∀ task solo, crew.solos task = some solo →
      (devices.handOut s s').Tells ring solo :=
    fun task solo found => (follow.tells task solo found).handOut kept mirrors found
  cases moved with
  | stays => exact others
  | refused refuses => exact absurd (fine.symm.trans refuses) Bool.noConfusion
  | goesOn step =>
    cases step with
    | starts unborn => exact Crew.all_set others (.outside .start)
    | goesOn found step => exact Crew.all_set others ((others _ _ found).step step)
    | @takes _ own thread resume rest fuseIo mem found move pool =>
      refine Crew.all_set others ?_
      have pooled : (fuseIo, mem) ∈ s.ios.map fun fuseIo => (fuseIo, s.mem fuseIo.slot) := by
        rw [← mirrors.pool, pool]
        exact List.mem_append_right _ List.mem_cons_self
      obtain ⟨named, member, same⟩ := List.mem_map.mp pooled
      obtain ⟨rfl, rfl⟩ : named = fuseIo ∧ s.mem named.slot = mem := Prod.mk.inj same
      have before : s.ios = rest.map Prod.fst ++ [named] := by
        rw [mirrors.ios_eq, pool, List.map_append, List.map_singleton]
      have after : s'.ios = rest.map Prod.fst := mirrors'.ios_eq
      have gone : named ∉ s'.ios := by
        have nodup := (List.nodup_append.mp kept.holders.nodup).1
        rw [before] at nodup
        rw [after]
        intro pooled
        exact (List.nodup_append.mp nodup).2.2 named pooled named List.mem_cons_self rfl
      cases follow.tells _ _ found with
      | outside outside =>
        obtain ⟨rfl, begins⟩ := outside.takes move named
        rw [begins]
        refine .inside ?_
        have taken : (⟨named.slot⟩ : FuseIo) ∈ s.ios ∧ (⟨named.slot⟩ : FuseIo) ∉ s'.ios :=
          ⟨member, gone⟩
        rw [show (devices.handOut s s').first named.slot =
          ⟨named, s.mem named.slot, (devices.line named.slot).pipe⟩ from if_pos taken,
          show (devices.handOut s s').line named.slot =
            { devices.line named.slot with traffic := .none } from if_pos taken]
        exact .takes _
    | gives found move =>
      refine Crew.all_set others ?_
      have tells := follow.tells _ _ found
      cases tells with
      | outside outside => cases outside
      | inside engaged =>
        obtain ⟨request, rc, -, -, rfl, returns⟩ := engaged.served move
        rw [returns]
        exact .outside (.returns rc)

/-- In front of an entry that completes in order, all are completed. -/
theorem Progress.inOrder
    (ordered : (s.flight ++ ghost.awaited).Pairwise SqeEntry.Precedes) {id index : Nat}
    {entry : SqeEntry} (flying : entry ∈ s.flight) (tagged : entry.userData = some ⟨id, index⟩)
    (next : ∀ other ∈ s.flight, ∀ index', other.userData = some ⟨id, index'⟩ → index ≤ index')
    {awaiter : IoUringAwaiter Suspended} {listed : List AwaitedEntry}
    (progress : Progress s ghost.awaited id awaiter listed) :
    ∀ other ∈ listed.take index, other.res ≠ none := by
  intro other member open'
  obtain ⟨place, before, rfl⟩ := List.mem_take_iff_getElem.mp member
  have inside : place < listed.length := (lt_min_iff.mp before).2
  have front : place < index := (lt_min_iff.mp before).1
  have here : listed[place]? = some listed[place] := List.getElem?_eq_getElem inside
  by_cases handled : ⟨id, place⟩ ∈ s.unhandled ghost.awaited
  · rcases mem_unhandled.mp handled with ⟨cqe, posted, mine⟩ | ⟨first, waits, mine⟩
    · obtain ⟨sqe, there⟩ := progress.posted cqe posted place mine
      rw [here, Option.some.injEq] at there
      rw [there] at open'
      cases open'
    · rcases List.mem_append.mp waits with flies | parked
      · exact absurd (next first flies place mine) (Nat.not_le.mpr front)
      · -- what has left the ring stands in front of what has not
        have behind := (List.pairwise_append.mp ordered).2.2 entry flying first parked
        exact absurd (behind id index place tagged mine) (Nat.lt_asymm front)
  · have bound : place < awaiter.res.length := progress.length ▸ inside
    obtain ⟨sqe, there⟩ :=
      progress.stored place _ (List.getElem?_eq_getElem bound) handled
    rw [here, Option.some.injEq] at there
    rw [there] at open'
    cases open'

/-- **A completion.** -/
theorem Devices.Follow.post (kept : Kept slots entries s ghost)
    (mirrors : Mirrors s ghost.awaited crew) (follow : devices.Follow ring s ghost.awaited crew)
    {place : Nat} {res : Int} {bytes : List UInt8} {devices' : Devices} {ghost' : Ghost}
    (completes : devices.Completes s place res bytes devices')
    (moved : Moved ring s crew (.post place res bytes) crew')
    (awaits : AwaitedStep s crew ghost.awaited s'.flight ghost'.awaited) :
    devices'.Follow ring s' ghost'.awaited crew' := by
  refine ⟨?_, awaits.ordered kept follow.ordered⟩
  cases completes with
  | @mk entry sqe id index awaiter fuseIo line file found prepared tagged next owner holds device =>
  cases moved with
  | posted found' tagged' owner' step =>
    cases found.symm.trans found'
    cases tagged.symm.trans tagged'
    cases owner.symm.trans owner'
    have flying := List.mem_of_getElem? found
    cases step with
    | @goesOn _ _ solo _ there step =>
      have depicts := mirrors.depicts _ solo there
      obtain ⟨slot, listed, rfl, progress⟩ := depicts.waiting id awaiter owner rfl
      have mine : slot = some (fuseIo, s.mem fuseIo.slot) :=
        (depicts.slot fuseIo _).mpr ⟨holds, rfl⟩
      subst mine
      cases step with
      | completed _ _ here =>
        obtain ⟨sqe', prepared', here'⟩ :=
          progress.pending entry (List.mem_append_left _ flying) index tagged
        cases prepared.symm.trans prepared'
        cases here.symm.trans here'
        have others : ∀ task solo, task ≠ awaiter.awaiter.task → crew.solos task = some solo →
            Devices.Tells ring
              { devices with file := file, line := Function.update devices.line fuseIo.slot line }
              solo := by
          intro task solo different listed'
          refine (follow.tells task solo listed').frame (fun _ _ _ => rfl) fun named mem slot => ?_
          have theirs := (((mirrors.depicts task solo listed').slot named mem).mp slot).1
          exact Function.update_of_ne (kept.held_apart holds theirs different) _ _
        intro task solo member
        by_cases same : task = awaiter.awaiter.task
        · rw [same, Crew.solos_set_self, Option.some.injEq] at member
          subst member
          cases follow.tells _ _ there with
          | outside outside => cases outside
          | inside engaged =>
            have inOrder := progress.inOrder follow.ordered flying tagged next
            refine .inside ?_
            have now := engaged.completed here inOrder device
            rwa [← Function.update_self fuseIo.slot line devices.line] at now
        · rw [Crew.solos_set_of_ne same] at member
          exact others task solo same member

/-! ### The runs -/

theorem Devices.follow_init (devices : Devices) (mem : Nat → Mem) :
    devices.Follow ring (Sys.init slots entries mem) [] (Crew.init slots mem) :=
  ⟨fun _ _ impossible => (by cases impossible), .nil⟩

/-- **The induction over a run.** -/
theorem follow_of_served {mem : Nat → Mem} {first : Devices}
    (run : Served ring (Sys.init slots entries mem) first s devices) :
    ∃ ghost crew, Kept slots entries s ghost ∧ s.pc.gaveUp = false ∧
      Mirrors s ghost.awaited crew ∧ devices.Follow ring s ghost.awaited crew := by
  induction run with
  | start =>
    exact ⟨_, _, kept_init slots entries mem, rfl, mirrors_init slots entries mem,
      first.follow_init mem⟩
  | go _ fine step ih =>
    obtain ⟨ghost, crew, kept, calm, mirrors, follow⟩ := ih
    obtain ⟨ghost', crew', kept', mirrors', moved, awaits⟩ :=
      kept.mirrors_step mirrors (orderly_of_calm calm) step
    exact ⟨ghost', crew', kept', calm_step calm fine step, mirrors',
      Devices.Follow.go kept mirrors follow fine mirrors' moved awaits⟩
  | post _ step completes ih =>
    obtain ⟨ghost, crew, kept, calm, mirrors, follow⟩ := ih
    obtain ⟨ghost', crew', kept', mirrors', moved, awaits⟩ :=
      kept.mirrors_step mirrors (orderly_of_calm calm) step
    exact ⟨ghost', crew', kept', calm_step calm rfl step, mirrors',
      follow.post kept mirrors completes moved awaits⟩

/-- **Every request is served as if it were alone.** A coroutine that gives its slot back has done
what `serve` does for one request on the slot as it took it, whatever the loop did meanwhile. -/
theorem accounts_of_served {mem : Nat → Mem} {first : Devices}
    (run : Served ring (Sys.init slots entries mem) first s devices) {task : Nat} {back : Back}
    {thread : Thread coroutines Int} {gaveUp : Bool} {fuseIo : FuseIo}
    {resume : Unit → Thread coroutines Int} (pc : s.pc = .running task back thread gaveUp)
    (gives : thread.move = .performs (.releaseFuseIo fuseIo) resume) :
    ∃ (request : Request) (rc : Int), request.Accounts ring (devices.first fuseIo.slot) rc
        ⟨fuseIo, s.mem fuseIo.slot, (devices.line fuseIo.slot).pipe⟩
        (devices.line fuseIo.slot).traffic ∧
      resume () = ⟨Int, pure rc, .push setRc .bottom⟩ := by
  obtain ⟨ghost, crew, kept, -, mirrors, follow⟩ := follow_of_served run
  obtain ⟨hold, own, found, -, -, -, slot⟩ := kept.mirrored_running mirrors pc
  have held := kept.slot_of (current_of_pc pc) slot (kept.allowed pc gives).1.slot
  obtain ⟨held', taken⟩ := hold
  obtain rfl : held' = some (fuseIo, s.mem fuseIo.slot) := held
  cases follow.tells _ _ found with
  | outside outside => cases outside
  | inside engaged =>
    obtain ⟨request, rc, accounts, -, -, returns⟩ := engaged.served gives
    exact ⟨request, rc, accounts, returns⟩

end Steps

/-! ### A request that is served -/

/-- A kernel that completes all there is. -/
theorem World.perform_full {world : World} {sqe : Sqe} {bytes : List UInt8}
    (found : world.available sqe.operation = some bytes)
    (whole : World.portion sqe.operation bytes (2 ^ 31 - 1) = bytes) :
    world.perform .full sqe = ((bytes.length : Int), (world.transfer sqe.operation bytes).record
      (.ran sqe.operation world.pipe bytes bytes.length)) := by
  have positive : ¬ Kernel.full.result world sqe < 0 := by
    show ¬ ((2 ^ 31 - 1 : Int) < 0)
    decide
  unfold World.perform
  rw [found]
  dsimp only
  rw [if_neg positive]
  have moved : World.portion sqe.operation bytes (Kernel.full.result world sqe) = bytes := whole
  rw [moved]

/-- The devices after steps of the program. -/
theorem Served.goes {ring : FuseRing} {first s' : Sys} {start : Devices}
    {results : List SubmitResult} : ∀ {s : Sys} {devices : Devices},
    Served ring first start s devices →
    Sys.run ring (fun s act => succeeds s act = true) (results.map Act.go) s = some s' →
    ∃ devices', Served ring first start s' devices' ∧
      ∀ slot, (devices'.line slot).pipe = (devices.line slot).pipe ∧
        (devices'.line slot).cut = (devices.line slot).cut := by
  induction results with
  | nil =>
    intro s devices served ran
    cases ran
    exact ⟨devices, served, fun _ => ⟨rfl, rfl⟩⟩
  | cons result results ih =>
    intro s devices served ran
    rw [List.map_cons, Sys.run] at ran
    split at ran
    case isTrue fine =>
      obtain ⟨next, step, rest⟩ := Option.bind_eq_some_iff.mp ran
      obtain ⟨devices', served', same⟩ := ih (served.go fine step) rest
      refine ⟨devices', served', fun slot => ?_⟩
      have still : ((devices.handOut s next).line slot).pipe = (devices.line slot).pipe ∧
          ((devices.handOut s next).line slot).cut = (devices.line slot).cut := by
        unfold Devices.handOut
        dsimp only
        split <;> exact ⟨rfl, rfl⟩
      exact ⟨(same slot).1.trans still.1, (same slot).2.trans still.2⟩
    case isFalse => cases ran

/-- The first coroutine waits for its first slot, and these entries are left. -/
def Sys.awaitsFirst (s : Sys) (id : Nat) (left : List SqeEntry) : Bool :=
  s.flight == left && s.vals == [(0, ⟨0⟩)] &&
    (s.awaiters id).any fun awaiter => awaiter.awaiter.task == 0

/-- The slot is about to be given back. -/
def Sys.givesBack (s : Sys) : Bool :=
  match s.pc with
  | .running _ _ thread _ =>
    match thread.move with
    | .performs (.releaseFuseIo fuseIo) _ => fuseIo == ⟨0⟩
    | _ => false
  | _ => false

/-- The next entry runs. -/
theorem Served.runs {ring : FuseRing} {first s s' : Sys} {start devices : Devices}
    (served : Served ring first start s devices) {entry : SqeEntry} {left : List SqeEntry}
    {id index : Nat} (waits : s.awaitsFirst id (entry :: left) = true) {res : Int}
    {bytes : List UInt8} (step : s.post 0 res bytes = some s') {sqe : Sqe}
    (prepared : entry.sqe = some sqe) (tagged : entry.userData = some ⟨id, index⟩)
    (order : ∀ other ∈ entry :: left, ∀ index', other.userData = some ⟨id, index'⟩ → index ≤ index')
    {message : List UInt8} {ran : Int × World}
    (performs : World.perform .full ((⟨⟨0⟩, s.mem 0, (devices.line 0).pipe⟩ : SlotState).world
      ⟨message, devices.file, .full, (s.mem 0).wild⟩) sqe = ran)
    (result : ran.1 = res) (received : (s.mem 0).receive sqe.operation bytes = ran.2.mem)
    (unbroken : index = 0 ∨ (devices.line 0).cut = false) :
    ∃ devices', Served ring first start s' devices' ∧ (devices'.line 0).pipe = ran.2.pipe ∧
      (devices'.line 0).cut = sqe.cuts res := by
  simp only [Sys.awaitsFirst, Bool.and_eq_true, beq_iff_eq] at waits
  obtain ⟨⟨flight, vals⟩, awaits⟩ := waits
  obtain ⟨awaiter, pending, task⟩ := (Option.any_eq_true _ _).mp awaits
  have holds : (awaiter.awaiter.task, (⟨0⟩ : FuseIo)) ∈ s.vals := by
    rw [vals, beq_iff_eq.mp task]
    exact List.mem_cons_self
  have found : s.flight[0]? = some entry := by
    rw [flight]
    rfl
  have device := @Device.ran ⟨0⟩ (s.mem 0) (devices.line 0) devices.file index sqe
    ⟨message, devices.file, .full, (s.mem 0).wild⟩ ran performs unbroken rfl rfl
  rw [← received, result] at device
  have completes := @Devices.Completes.mk devices s 0 res bytes entry sqe id index awaiter ⟨0⟩ _ _
    found prepared tagged (flight ▸ order) pending holds device
  refine ⟨_, served.post step completes, ?_, ?_⟩
  · exact congrArg Line.pipe (Function.update_self 0 _ devices.line)
  · exact congrArg Line.cut (Function.update_self 0 _ devices.line)

/-- The last entry is in order. -/
theorem SqeEntry.only_inOrder {entry : SqeEntry} {id index : Nat}
    (tagged : entry.userData = some ⟨id, index⟩) : ∀ other ∈ [entry], ∀ index',
      other.userData = some ⟨id, index'⟩ → index ≤ index' := by
  intro other member index' named
  rw [List.mem_singleton.mp member, tagged] at named
  cases named
  exact le_rfl

/-- The message of the `RELEASE`. -/
def releaseMessage : List UInt8 := sessionMessage .release 7 3 (List.replicate 24 0)

/-- The entries that fetch a message, and those that send a reply. -/
def fetchSplice : SqeEntry :=
  ⟨0, some ⟨.splice (.fuse ⟨0⟩) (-1) (.pipe1 ⟨0⟩) (-1) FuseRing.small.maxBufsize, .hardlink⟩,
    some ⟨0, 0⟩⟩

def fetchRead : SqeEntry :=
  ⟨1, some ⟨.read (.pipe0 ⟨0⟩) (FuseIo.headerBuf ⟨0⟩) (InHeader.size + WriteIn.size), .none⟩,
    some ⟨0, 1⟩⟩

def releaseSplice : SqeEntry :=
  ⟨3, some ⟨.splice (.pipe0 ⟨0⟩) (-1) (.fuse ⟨0⟩) (-1) OutHeader.size, .none⟩, some ⟨1, 1⟩⟩

def Devices.fresh : Devices :=
  ⟨⟨4096, Bytes.ofList [], 0⟩, fun slot => ⟨⟨slot⟩, Mem.zero, []⟩, fun _ => ⟨[], false, .none⟩⟩

/-- The run of a `RELEASE`. -/
theorem served_release : ∃ (s : Sys) (devices : Devices), s.givesBack = true ∧
    requestUnique (s.mem 0) ⟨0⟩ = 7 ∧
    Served FuseRing.small (Sys.init 1 100 fun _ => Mem.zero) .fresh s devices := by
  have ran : (Sys.run FuseRing.small (fun s act => succeeds s act = true)
      ((List.replicate 9 SubmitResult.failed ++ [SubmitResult.ok 2]).map Act.go)
      (Sys.init 1 100 fun _ => Mem.zero)).any (fun s =>
        s.awaitsFirst 0 [fetchSplice, fetchRead] && (s.post 0 64 []).any fun s =>
          s.awaitsFirst 0 [fetchRead] && (s.post 0 64 releaseMessage).any fun s =>
            (Sys.run FuseRing.small (fun s act => succeeds s act = true)
              ((List.replicate 18 SubmitResult.failed ++ [SubmitResult.ok 2]).map Act.go)
              s).any fun s =>
                s.awaitsFirst 1 [releaseReply, releaseSplice] && (s.post 0 16 []).any fun s =>
                  s.awaitsFirst 1 [releaseSplice] && (s.post 0 16 []).any fun s =>
                    (Sys.run FuseRing.small (fun s act => succeeds s act = true)
                      ((List.replicate 4 SubmitResult.failed).map Act.go) s).any fun s =>
                        s.givesBack && requestUnique (s.mem 0) ⟨0⟩ == 7) = true := by
    decide +kernel
  simp only [Option.any_eq_true, Bool.and_eq_true, beq_iff_eq] at ran
  obtain ⟨s, begun, waits, s1, splice, waits1, s2, read, s3, built, waits3, s4, write, waits4, s5,
    sent, s6, ended, gives, unique⟩ := ran
  have length : releaseMessage.length = 64 := by decide +kernel
  obtain ⟨devices, served, same⟩ := @Served.goes _ _ _ Devices.fresh _ _ _ .start begun
  have empty : (devices.line 0).pipe = [] := (same 0).1
  -- the message arrives in the pipe
  have arrives : World.available ((⟨⟨0⟩, s.mem 0, (devices.line 0).pipe⟩ : SlotState).world
      ⟨releaseMessage, devices.file, .full, (s.mem 0).wild⟩)
      (.splice (.fuse ⟨0⟩) (-1) (.pipe1 ⟨0⟩) (-1) FuseRing.small.maxBufsize) =
        some releaseMessage := by
    have within : releaseMessage.length ≤ FuseRing.small.maxBufsize := by
      rw [length]
      decide
    show (if releaseMessage.length ≤ FuseRing.small.maxBufsize then some releaseMessage
      else none) = _
    rw [if_pos within]
  obtain ⟨devices1, served1, pipe1, cut1⟩ := served.runs waits splice rfl rfl
    (fun _ _ _ _ => Nat.zero_le _) (World.perform_full arrives rfl) (by rw [length]; rfl) rfl
    (Or.inl rfl)
  have full : (devices1.line 0).pipe = releaseMessage := by
    rw [pipe1]
    show (devices.line 0).pipe ++ releaseMessage = releaseMessage
    rw [empty, List.nil_append]
  -- and is read into the slot
  have reads : World.available ((⟨⟨0⟩, s1.mem 0, (devices1.line 0).pipe⟩ : SlotState).world
      ⟨[], devices1.file, .full, (s1.mem 0).wild⟩)
      (.read (.pipe0 ⟨0⟩) (FuseIo.headerBuf ⟨0⟩) (InHeader.size + WriteIn.size)) =
        some releaseMessage := by
    show some ((devices1.line 0).pipe.take _) = _
    rw [full, List.take_of_length_le (by rw [length]; decide)]
  obtain ⟨devices2, served2, pipe2, cut2⟩ := served1.runs waits1 read rfl rfl
    (SqeEntry.only_inOrder rfl)
    (World.perform_full reads (List.take_of_length_le (by rw [length]; decide)))
    (by rw [length]; rfl)
    (congrArg (fun bytes => (s1.mem 0).copy (FuseIo.headerBuf ⟨0⟩) bytes)
      (List.take_of_length_le (by rw [length]; decide)))
    (Or.inr cut1)
  have drained : (devices2.line 0).pipe = [] := by
    rw [pipe2]
    show (devices1.line 0).pipe.drop releaseMessage.length = []
    rw [full, List.drop_length]
  obtain ⟨devices3, served3, same3⟩ := served2.goes built
  have ready : (devices3.line 0).pipe = [] := (same3 0).1.trans drained
  -- the reply goes into the pipe
  have replies : World.available ((⟨⟨0⟩, s3.mem 0, (devices3.line 0).pipe⟩ : SlotState).world
      ⟨[], devices3.file, .full, (s3.mem 0).wild⟩)
      (.writeFixed (.pipe1 ⟨0⟩) ⟨⟨0⟩, .scratch, 0⟩ OutHeader.size) =
        some ((s3.mem 0).bytes ⟨⟨0⟩, .scratch, 0⟩ OutHeader.size) := rfl
  have size : ((s3.mem 0).bytes ⟨⟨0⟩, .scratch, 0⟩ OutHeader.size).length = 16 :=
    Bytes.length_slice _ _ _
  obtain ⟨devices4, served4, pipe4, cut4⟩ := served3.runs waits3 write rfl rfl
    (fun _ _ _ _ => Nat.zero_le _)
    (World.perform_full replies (List.take_of_length_le (by rw [size]; decide)))
    (by rw [size]; rfl) rfl (Or.inl rfl)
  have filled : (devices4.line 0).pipe =
      (s3.mem 0).bytes ⟨⟨0⟩, .scratch, 0⟩ OutHeader.size := by
    rw [pipe4]
    show (devices3.line 0).pipe ++ _ = _
    rw [ready, List.nil_append]
  -- and from there to the session
  have sends : World.available ((⟨⟨0⟩, s4.mem 0, (devices4.line 0).pipe⟩ : SlotState).world
      ⟨[], devices4.file, .full, (s4.mem 0).wild⟩)
      (.splice (.pipe0 ⟨0⟩) (-1) (.fuse ⟨0⟩) (-1) OutHeader.size) =
        some ((s3.mem 0).bytes ⟨⟨0⟩, .scratch, 0⟩ OutHeader.size) := by
    show some ((devices4.line 0).pipe.take _) = _
    rw [filled, List.take_of_length_le (by rw [size]; decide)]
  obtain ⟨devices5, served5, -⟩ := served4.runs waits4 sent rfl rfl (SqeEntry.only_inOrder rfl)
    (World.perform_full sends (List.take_of_length_le (by rw [size]; decide)))
    (by rw [size]; rfl) rfl (Or.inr cut4)
  obtain ⟨devices6, served6, -⟩ := served5.goes ended
  exact ⟨s6, devices6, gives, unique, served6⟩

/-- A `RELEASE` with the number 7. -/
theorem accounts_of_served_release : ∃ (s : Sys) (devices : Devices) (request : Request) (rc : Int),
    Served FuseRing.small (Sys.init 1 100 fun _ => Mem.zero) .fresh s devices ∧
    requestUnique (s.mem 0) ⟨0⟩ = 7 ∧
    request.Accounts FuseRing.small (devices.first 0) rc ⟨⟨0⟩, s.mem 0, (devices.line 0).pipe⟩
      (devices.line 0).traffic := by
  obtain ⟨s, devices, gives, unique, served⟩ := served_release
  unfold Sys.givesBack at gives
  split at gives
  case h_1 task back thread gaveUp pc =>
    split at gives
    case h_1 fuseIo resume move =>
      obtain rfl := beq_iff_eq.mp gives
      obtain ⟨request, rc, accounts, -⟩ := accounts_of_served served pc move
      exact ⟨s, devices, request, rc, served, unique, accounts⟩
    case h_2 => cases gives
  case h_2 => cases gives

end Fuseuring
