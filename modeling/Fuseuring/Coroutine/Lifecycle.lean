/-
**Every run of the machine keeps the lives of its frames in order.**

* `step_orderly`, `run_orderly` — one step, and by induction every run.
* `lifecycle` — what the lives come to: each frame that ends is destroyed once,
  its result is delivered once, and nothing is done to a frame behind that.
-/

import Fuseuring.Coroutine.Unwind

namespace Fuseuring

variable {T : Type}

/-! ### The steps -/

section Steps

variable [DecidableEq T] {frames : Frames T} {frame coroH : Nat} {below : List Return}
  {active : List Nat} {held caller : Option Nat}

theorem sameOff_create (frames : Frames T) (caller : Option Nat) :
    Frames.SameOff frames (frames.create caller) frames.created where
  life := fun _ different => Frames.life_note_of_ne (Ne.symm different)
  point := fun _ different => congrArg Frame.point (Function.update_of_ne different _ frames.frame)
  promise :=
    fun _ different => congrArg Frame.promise (Function.update_of_ne different _ frames.frame)

omit [DecidableEq T] in
theorem unhanded_create : Unhanded (frames.create caller) frames.created := by
  rw [Unhanded, Frames.promise_create]
  exact ⟨rfl, rfl⟩

theorem alive_create (unborn : frames.life frames.created = some .unborn) :
    (frames.create caller).Alive frames.created caller :=
  Frames.life_note (.called caller frames.created) unborn rfl

/-- **A coroutine is called.** -/
theorem create_ordered (all : ∀ other, Ordered frames active none other) (other : Nat) :
    Ordered (frames.create caller) (frames.created :: active) none other := by
  obtain ⟨unborn, running⟩ := (all frames.created).fresh (Nat.le_refl _)
  by_cases same : other = frames.created
  · rw [same]
    refine ordered_running (alive_create unborn) Frames.point_create
      (Nat.lt_succ_self _) List.mem_cons_self ?_ ?_
    · exact (Option.some_ne_none _).symm
    · rw [Frames.promise_create]
      exact fun _ => rfl
  · refine (all other).off (sameOff_create frames caller) same (Nat.le_succ _) ?_ ?_ Iff.rfl
    · intro task
      cases running.symm.trans task
    · rw [List.mem_cons, or_iff_right same]

/-- The coroutines on the machine stack have not ended. -/
theorem Unwinds.lives (unwinds : Unwinds frames frame below) :
    ∀ other ∈ frame :: callers below, ∃ caller, frames.Alive other caller := by
  induction unwinds with
  | @resumed frame caller below alive _ gone =>
    intro other member
    rw [gone.callers, List.mem_singleton] at member
    exact ⟨caller, member ▸ alive⟩
  | @run frame alive _ =>
    intro other member
    exact ⟨none, List.mem_singleton.mp member ▸ alive⟩
  | @caller frame caller below alive _ _ ih =>
    intro other member
    rcases List.mem_cons.mp member with same | member
    · exact ⟨some caller, same ▸ alive⟩
    · exact ih other member

/-- A coroutine that `run` starts. -/
theorem start_orderly (all : ∀ other, Ordered frames [] none other) :
    Machine.Orderly ⟨frames.create none, .body frames.created none [.run]⟩ := by
  have unborn := ((all frames.created).fresh (Nat.le_refl _)).1
  exact ⟨create_ordered all, List.nodup_singleton _, .run (alive_create unborn) unhanded_create⟩

/-- One that another coroutine calls. -/
theorem call_orderly (all : ∀ other, Ordered frames (frame :: callers below) none other)
    (nodup : (frame :: callers below).Nodup) (unwinds : Unwinds frames frame below) :
    Machine.Orderly ⟨frames.create (some frame),
      .body frames.created none (.caller frame :: below)⟩ := by
  obtain ⟨unborn, running⟩ := (all frames.created).fresh (Nat.le_refl _)
  have off := sameOff_create frames (some frame)
  have outside : frames.created ∉ frame :: callers below := by
    intro inside
    obtain ⟨caller, alive⟩ := unwinds.lives _ inside
    cases unborn.symm.trans alive
  refine ⟨create_ordered all, List.nodup_cons.mpr ⟨outside, nodup⟩,
    .caller (alive_create unborn) unhanded_create ?_⟩
  refine unwinds.congr (fun other member => ?_) fun other coroH _ task => ?_
  · have different : other ≠ frames.created := fun same => outside (same ▸ member)
    exact ⟨off.life other different, off.promise other different⟩
  · have different : other ≠ frames.created := by
      rintro rfl
      cases running.symm.trans task
    exact (off.point other different).trans task

/-- One that a completion resumes. -/
theorem resume_orderly (all : ∀ other, Ordered frames [] none other)
    (waits : frames.point frame = .io) :
    Machine.Orderly ⟨(frames.note (.resumed frame)).setPoint frame .running,
      .body frame none [.handleCqe]⟩ := by
  obtain ⟨caller, alive⟩ := (all frame).suspended (Or.inl waits)
  have linked : Linked frames frame caller := (all frame).linked caller List.not_mem_nil alive
  have born : frame < frames.created := (all frame).alive_born alive
  have lives : (frames.note (.resumed frame)).Alive frame caller :=
    Frames.life_note (.resumed frame) alive rfl
  have apart : ∀ other, other ≠ frame →
      Ordered ((frames.note (.resumed frame)).setPoint frame .running) [frame] none other := by
    intro other different
    refine ((all other).beside (.resumed frame) different).off (Frames.sameOff_setPoint _) different
      (Nat.le_refl _) ?_ ?_
      Iff.rfl
    · intro task
      cases waits.symm.trans task
    · rw [List.mem_singleton]
      exact ⟨fun same => absurd same different,
        fun impossible => absurd impossible List.not_mem_nil⟩
  refine ⟨fun other => ?_, List.nodup_singleton _, .resumed lives ?_ .handleCqe⟩
  · by_cases same : other = frame
    · rw [same]
      refine ordered_running lives Frames.point_setPoint_self born List.mem_cons_self ?_ ?_
      · exact (Option.some_ne_none _).symm
      · rw [Frames.promise_setPoint]
        exact (all frame).detached
    · exact apart other same
  · refine linked.congr Frames.promise_setPoint fun other task => ?_
    have different : other ≠ frame := by
      rintro rfl
      cases waits.symm.trans task
    exact (Frames.point_setPoint_of_ne different).trans task

/-- One that waits for the ring. -/
theorem wait_orderly (all : ∀ other, Ordered frames (frame :: callers below) none other)
    (nodup : (frame :: callers below).Nodup) (unwinds : Unwinds frames frame below) :
    (giveBack (frames.setPoint frame .io) frame below).Orderly := by
  have running : frames.point frame = .running := (all frame).running List.mem_cons_self
  obtain ⟨caller, alive⟩ := unwinds.alive
  have born : frame < frames.created := (all frame).alive_born alive
  refine giveBack_orderly ?_ nodup (Or.inl Frames.point_setPoint_self) born
    fun other different => ?_
  · refine unwinds.congr (fun other _ => ⟨rfl, Frames.promise_setPoint⟩)
      fun other coroH _ task => ?_
    have different : other ≠ frame := by
      rintro rfl
      cases running.symm.trans task
    exact (Frames.point_setPoint_of_ne different).trans task
  · refine (all other).off (Frames.sameOff_setPoint _) different (Nat.le_refl _) ?_ ?_ Iff.rfl
    · intro task
      cases running.symm.trans task
    · rw [List.mem_cons, or_iff_right different]

/-- The end of an expression that awaited a task. -/
theorem endExpression_orderly
    (all : ∀ other, Ordered frames (frame :: callers below) (some coroH) other)
    (nodup : (frame :: callers below).Nodup) (unwinds : Unwinds frames frame below) :
    Machine.Orderly ⟨frames.dropTask coroH, .body frame none below⟩ := by
  have final : frames.point coroH = .final := ((all coroH).held rfl).1
  refine ⟨fun other => dropTask_ordered (all coroH) (all other), nodup, ?_⟩
  refine unwinds.congr (fun other member => ?_)
    fun other _ _ task => Frames.point_dropTask.trans task
  have different : other ≠ coroH := by
    rintro rfl
    cases final.symm.trans ((all other).running member)
  exact ⟨sameOff_dropTask.life other different, sameOff_dropTask.promise other different⟩

/-- A coroutine that returns. -/
theorem finish_orderly (value : T)
    (all : ∀ other, Ordered frames (frame :: callers below) held other)
    (nodup : (frame :: callers below).Nodup) (unwinds : Unwinds frames frame below) :
    (finalSuspend (frames.coReturn frame held value) frame below).Orderly := by
  obtain ⟨ended, others⟩ := ended_of_unwinds value all nodup unwinds
  obtain ⟨caller, alive⟩ := unwinds.alive
  have born : frame < frames.created := (all frame).alive_born alive
  have created : (frames.coReturn frame held value).created = frames.created := by
    rw [Frames.coReturn, Frames.created_setPoint, Frames.created_dropHeld,
      Frames.created_returnValue]
  exact finalSuspend_orderly ended Frames.point_setPoint_self (created.symm ▸ born) nodup others

end Steps

/-! ### Runs -/

namespace Machine

section Runs

variable [DecidableEq T] {machine next : Machine T}

theorem init_orderly : (init : Machine T).Orderly := by
  intro frame
  exact
    { known := fun _ => Or.inl rfl
      held := fun impossible => absurd impossible (Option.some_ne_none _).symm
      linked := fun _ _ alive => (by cases alive)
      running := fun inside => absurd inside List.not_mem_nil
      suspended := by
        rintro (io | ⟨coroH, task⟩)
        · cases io
        · cases task
      detached := fun _ => rfl
      fresh := fun _ => ⟨rfl, rfl⟩ }

/-- **One step**, by what happens. -/
theorem step_orderly (orderly : machine.Orderly) {act : FrameAct T}
    (stepped : machine.step act = some next) :
    next.Orderly := by
  obtain ⟨frames, control⟩ := machine
  cases act with
  | start =>
    cases control with
    | run =>
      obtain rfl := Option.some.inj stepped
      exact start_orderly orderly
    | body _ _ _ => cases stepped
  | resume frame =>
    cases control with
    | run =>
      obtain ⟨waits, same⟩ := Option.ite_none_right_eq_some.mp stepped
      obtain rfl := Option.some.inj same
      exact resume_orderly orderly waits
    | body _ _ _ => cases stepped
  | call =>
    cases control with
    | run => cases stepped
    | body frame held below =>
      cases held with
      | some _ => cases stepped
      | none =>
        obtain rfl := Option.some.inj stepped
        exact call_orderly orderly.1 orderly.2.1 orderly.2.2
  | wait =>
    cases control with
    | run => cases stepped
    | body frame held below =>
      cases held with
      | some _ => cases stepped
      | none =>
        obtain rfl := Option.some.inj stepped
        exact wait_orderly orderly.1 orderly.2.1 orderly.2.2
  | endExpression =>
    cases control with
    | run => cases stepped
    | body frame held below =>
      cases held with
      | none => cases stepped
      | some coroH =>
        obtain rfl := Option.some.inj stepped
        exact endExpression_orderly orderly.1 orderly.2.1 orderly.2.2
  | finish value =>
    cases control with
    | run => cases stepped
    | body frame held below =>
      obtain rfl := Option.some.inj stepped
      exact finish_orderly value orderly.1 orderly.2.1 orderly.2.2

/-- **Every run**, by induction on its steps. -/
theorem run_orderly {acts : List (FrameAct T)} (orderly : machine.Orderly)
    (ran : run acts machine = some next) :
    next.Orderly := by
  induction acts generalizing machine with
  | nil =>
    obtain rfl := Option.some.inj ran
    exact orderly
  | cons act acts ih =>
    obtain ⟨middle, stepped, rest⟩ := Option.bind_eq_some_iff.mp ran
    exact ih (step_orderly orderly stepped) rest

end Runs

end Machine

/-! ### What happens to a frame only adds to its log -/

section Logs

variable {frames : Frames T} {frame awaiter : Nat} {held : Option Nat} {value : T}

theorem suffix_awaitResume (below : List Return) :
    frames.log <:+ (awaitResume frames awaiter frame below).frames.log :=
  ((List.suffix_cons _ _).trans (List.suffix_cons _ _)).trans (List.suffix_cons _ _)

theorem suffix_dropTask : frames.log <:+ (frames.dropTask frame).log := by
  dsimp only [Frames.dropTask]
  split
  · exact List.suffix_append [_, _] frames.log
  · exact List.suffix_append [_, _] frames.log

theorem suffix_giveBack (below : List Return) :
    frames.log <:+ (giveBack frames frame below).frames.log := by
  induction below generalizing frames frame with
  | nil => exact List.suffix_refl _
  | cons top below ih =>
    cases top with
    | handleCqe => exact List.suffix_refl _
    | run => exact suffix_dropTask
    | finalSuspend ended => exact ih
    | caller caller =>
      rw [giveBack]
      dsimp only
      split
      · refine List.IsSuffix.trans ?_ (suffix_awaitResume below)
        exact List.suffix_cons _ _
      · refine List.IsSuffix.trans ?_ ih
        exact (List.suffix_cons _ _).trans (List.suffix_cons _ _)

theorem suffix_finalSuspend (below : List Return) :
    frames.log <:+ (finalSuspend frames frame below).frames.log := by
  have looked : frames.log <:+ (frames.note (.accessed frame)).log := List.suffix_cons _ _
  rw [finalSuspend]
  dsimp only
  split
  · refine List.IsSuffix.trans ?_ (suffix_giveBack below)
    split
    · exact ((List.suffix_cons _ _).trans (List.suffix_cons _ _)).trans (List.suffix_cons _ _)
    · exact (List.suffix_cons _ _).trans (List.suffix_cons _ _)
  · split
    · refine looked.trans ?_
      dsimp only [resumeAwaiter]
      split
      · refine List.IsSuffix.trans ?_ (suffix_awaitResume _)
        exact List.suffix_cons _ _
      · exact List.suffix_cons _ _
    · exact looked.trans (suffix_giveBack below)

end Logs

/-! ### The lives of the frames -/

/-- The task whose result the running coroutine has just taken. -/
def Control.held : Control → Option Nat
  | .run => none
  | .body _ held _ => held

/-- **What the log of a run says of its frames.** -/
structure Lifecycle (machine : Machine T) : Prop where
  /-- A coroutine that has ended is destroyed once, at the latest where the
  expression ends that took its result. -/
  destroyed : ∀ frame value, .finished frame value ∈ machine.frames.log →
    machine.control.held ≠ some frame →
    destructionsOf machine.frames.log frame = 1
  handed : ∀ frame act next, machine.control.held = some frame → machine.step act = some next →
    destructionsOf next.frames.log frame = 1
  once : ∀ frame, destructionsOf machine.frames.log frame ≤ 1
  unfinished : ∀ frame, (∀ value, .finished frame value ∉ machine.frames.log) →
    destructionsOf machine.frames.log frame = 0
  /-- The result of a task that is awaited is delivered once, and nothing else is. -/
  delivered : ∀ frame awaiter value, .called (some awaiter) frame ∈ machine.frames.log →
    .finished frame value ∈ machine.frames.log →
    deliveriesOf machine.frames.log frame = [(awaiter, some value)]
  undelivered : ∀ frame, .called none frame ∈ machine.frames.log ∨
    (∀ value, .finished frame value ∉ machine.frames.log) →
    deliveriesOf machine.frames.log frame = []
  /-- Nothing is done to a frame behind its end, its delivery or its destruction. -/
  resumed : ∀ after before frame, machine.frames.log = after ++ .resumed frame :: before →
    resultsOf before frame = [] ∧ destructionsOf before frame = 0
  accessed : ∀ after before frame, machine.frames.log = after ++ .accessed frame :: before →
    deliveriesOf before frame = [] ∧ destructionsOf before frame = 0
  checked : ∀ after before frame, machine.frames.log = after ++ .checked frame :: before →
    destructionsOf before frame = 0
  asserted : ∀ frame hasRes, .asserted frame hasRes ∈ machine.frames.log → hasRes = true
  /-- A promise that is detached has no awaiter, and none where `final_suspend` looks for it. -/
  detached : ∀ frame, (machine.frames.promise frame).resState = .detached →
    (machine.frames.promise frame).awaiter = none
  unreachable : ∀ frame held below value, machine.control = .body frame held below →
    ((machine.frames.coReturn frame held value).promise frame).resState = .detached →
    ((machine.frames.coReturn frame held value).promise frame).awaiter = none

section Lives

variable [DecidableEq T] {machine : Machine T}

/-- Every frame is in order. -/
theorem Machine.Orderly.ordered (orderly : machine.Orderly) (frame : Nat) :
    ∃ active, Ordered machine.frames active machine.control.held frame := by
  obtain ⟨frames, control⟩ := machine
  cases control with
  | run => exact ⟨[], orderly frame⟩
  | body running held below => exact ⟨running :: callers below, orderly.1 frame⟩

/-- Every frame has a life, in which the end of the coroutine is not the last that happens. -/
theorem Machine.Orderly.life (orderly : machine.Orderly) (frame : Nat) :
    ∃ life, machine.frames.life frame = some life ∧
      (life = .unborn ∨ (∃ caller, life = .alive caller) ∨
        (machine.control.held ≠ some frame ∧ ∃ caller value, life = .destroyed caller value) ∨
        machine.control.held = some frame ∧ ∃ awaiter value, life = .delivered awaiter value) := by
  obtain ⟨active, ordered⟩ := orderly.ordered frame
  by_cases holds : machine.control.held = some frame
  · obtain ⟨-, awaiter, value, delivered⟩ := ordered.held holds
    exact ⟨_, delivered, Or.inr (Or.inr (Or.inr ⟨holds, awaiter, value, rfl⟩))⟩
  · rcases ordered.known holds with unborn | ⟨caller, alive⟩ | ⟨caller, value, destroyed⟩
    · exact ⟨_, unborn, Or.inl rfl⟩
    · exact ⟨_, alive, Or.inr (Or.inl ⟨caller, rfl⟩)⟩
    · exact ⟨_, destroyed, Or.inr (Or.inr (Or.inl ⟨holds, caller, value, rfl⟩))⟩

/-- The life before an event of the log. -/
theorem Machine.Orderly.before (orderly : machine.Orderly) {after before : List (FrameEvent T)}
    {event : FrameEvent T}
    (split : machine.frames.log = after ++ event :: before) :
    ∃ earlier later, Census before event.about earlier ∧ earlier.take event = some later := by
  obtain ⟨life, accepted, -⟩ := orderly.life event.about
  rw [Frames.life, split] at accepted
  obtain ⟨earlier, later, found, took⟩ := lifeOf_split accepted
  exact ⟨earlier, later, census_of_lifeOf found, took⟩

/-- The task that is held is dropped by the next step, whatever it is. -/
theorem Machine.Orderly.drops (orderly : machine.Orderly) {frame : Nat} {act : FrameAct T}
    {next : Machine T}
    (holds : machine.control.held = some frame) (stepped : machine.step act = some next) :
    .destroyed frame ∈ next.frames.log := by
  obtain ⟨frames, control⟩ := machine
  cases control with
  | run => cases holds
  | body running held below =>
    obtain rfl : held = some frame := holds
    have final : frames.point frame = .final := ((orderly.1 frame).held rfl).1
    cases act with
    | endExpression =>
      obtain rfl := Option.some.inj stepped
      rw [Frames.dropTask_final final]
      exact List.mem_cons_self
    | finish value =>
      obtain rfl := Option.some.inj stepped
      refine (suffix_finalSuspend below).subset ?_
      have returned : (frames.returnValue running value).point frame = .final :=
        Frames.point_returnValue.trans final
      show .destroyed frame ∈ ((frames.returnValue running value).dropTask frame).log
      rw [Frames.dropTask_final returned]
      exact List.mem_cons_self
    | _ => cases stepped

/-- A coroutine that has ended is destroyed. -/
theorem Machine.Orderly.destroyed (orderly : machine.Orderly) {frame : Nat} {value : T}
    (finished : .finished frame value ∈ machine.frames.log)
    (free : machine.control.held ≠ some frame) :
    destructionsOf machine.frames.log frame = 1 := by
  obtain ⟨life, known, kind⟩ := orderly.life frame
  have census := census_of_lifeOf known
  have result := census.finished.mp finished
  rw [census.destructions]
  rcases kind with rfl | ⟨caller, rfl⟩ | ⟨-, caller, value, rfl⟩ | ⟨holds, -⟩
  · cases result
  · cases result
  · rfl
  · exact absurd holds free

theorem Machine.Orderly.once (orderly : machine.Orderly) (frame : Nat) :
    destructionsOf machine.frames.log frame ≤ 1 := by
  obtain ⟨life, known, -⟩ := orderly.life frame
  rw [(census_of_lifeOf known).destructions]
  cases life with
  | destroyed _ _ => exact Nat.le_refl 1
  | _ => exact Nat.zero_le 1

/-- The task that was held is gone after the next step. -/
theorem Machine.Orderly.handed (orderly : machine.Orderly) {frame : Nat} {act : FrameAct T}
    {next : Machine T}
    (holds : machine.control.held = some frame) (stepped : machine.step act = some next) :
    destructionsOf next.frames.log frame = 1 := by
  have least : 0 < destructionsOf next.frames.log frame :=
    List.countP_pos_iff.mpr ⟨_, orderly.drops holds stepped, beq_self_eq_true frame⟩
  exact Nat.le_antisymm ((Machine.step_orderly orderly stepped).once frame) least

/-- One that has not ended is neither destroyed nor is a result of it delivered. -/
theorem Machine.Orderly.unfinished (orderly : machine.Orderly) {frame : Nat}
    (running : ∀ value, .finished frame value ∉ machine.frames.log) :
    destructionsOf machine.frames.log frame = 0 ∧ deliveriesOf machine.frames.log frame = [] := by
  obtain ⟨life, known, kind⟩ := orderly.life frame
  have census := census_of_lifeOf known
  rw [census.destructions, census.deliveries]
  rcases kind with rfl | ⟨caller, rfl⟩ | ⟨-, caller, value, rfl⟩ | ⟨-, awaiter, value, rfl⟩
  · exact ⟨rfl, rfl⟩
  · exact ⟨rfl, rfl⟩
  · exact absurd (census.finished.mpr rfl) (running value)
  · exact absurd (census.finished.mpr rfl) (running value)

/-- The result goes to the caller. -/
theorem Machine.Orderly.delivered (orderly : machine.Orderly) {frame awaiter : Nat} {value : T}
    (called : .called (some awaiter) frame ∈ machine.frames.log)
    (finished : .finished frame value ∈ machine.frames.log) :
    deliveriesOf machine.frames.log frame = [(awaiter, some value)] := by
  obtain ⟨life, known, kind⟩ := orderly.life frame
  have census := census_of_lifeOf known
  have caller := census.called.mp called
  have result := census.finished.mp finished
  rw [census.deliveries]
  rcases kind with rfl | ⟨_, rfl⟩ | ⟨-, _, _, rfl⟩ | ⟨-, _, _, rfl⟩
  · cases caller
  · cases result
  · obtain rfl := Option.some.inj caller
    obtain rfl := Option.some.inj result
    rfl
  · obtain rfl := Option.some.inj (Option.some.inj caller)
    obtain rfl := Option.some.inj result
    rfl

theorem Machine.Orderly.discarded (orderly : machine.Orderly) {frame : Nat}
    (called : .called none frame ∈ machine.frames.log) :
    deliveriesOf machine.frames.log frame = [] := by
  obtain ⟨life, known, kind⟩ := orderly.life frame
  have census := census_of_lifeOf known
  have caller := census.called.mp called
  rw [census.deliveries]
  rcases kind with rfl | ⟨_, rfl⟩ | ⟨-, _, _, rfl⟩ | ⟨-, _, _, rfl⟩
  · rfl
  · rfl
  · obtain rfl := Option.some.inj caller
    rfl
  · cases caller

/-- A frame that is resumed has not ended. -/
theorem Machine.Orderly.resumed (orderly : machine.Orderly)
    {after before : List (FrameEvent T)} {frame : Nat}
    (split : machine.frames.log = after ++ .resumed frame :: before) :
    resultsOf before frame = [] ∧ destructionsOf before frame = 0 := by
  obtain ⟨earlier, later, census, took⟩ := orderly.before split
  cases earlier with
  | alive _ => exact ⟨census.results, census.destructions⟩
  | _ => cases took

/-- The result of a frame whose promise is looked at has not been taken. -/
theorem Machine.Orderly.accessed (orderly : machine.Orderly)
    {after before : List (FrameEvent T)} {frame : Nat}
    (split : machine.frames.log = after ++ .accessed frame :: before) :
    deliveriesOf before frame = [] ∧ destructionsOf before frame = 0 := by
  obtain ⟨earlier, later, census, took⟩ := orderly.before split
  cases earlier with
  | alive _ => exact ⟨census.deliveries, census.destructions⟩
  | finished _ _ => exact ⟨census.deliveries, census.destructions⟩
  | _ => cases took

/-- A frame that is asked whether it is done is there. -/
theorem Machine.Orderly.checked (orderly : machine.Orderly)
    {after before : List (FrameEvent T)} {frame : Nat}
    (split : machine.frames.log = after ++ .checked frame :: before) :
    destructionsOf before frame = 0 := by
  obtain ⟨earlier, later, census, took⟩ := orderly.before split
  cases earlier with
  | alive _ => exact census.destructions
  | finished _ _ => exact census.destructions
  | delivered _ _ => exact census.destructions
  | _ => cases took

/-- What `final_suspend` finds. -/
theorem Machine.Orderly.unreachable (orderly : machine.Orderly) {frame : Nat} {held : Option Nat}
    {below : List Return}
    {value : T} (control : machine.control = .body frame held below)
    (isDetached : ((machine.frames.coReturn frame held value).promise frame).resState = .detached) :
    ((machine.frames.coReturn frame held value).promise frame).awaiter = none := by
  obtain ⟨frames, _⟩ := machine
  subst control
  have ended := (ended_of_unwinds value orderly.1 orderly.2.1 orderly.2.2).1
  cases ended with
  | detached _ _ alone _ => exact alone
  | awaited _ promise _ _ => cases (congrArg Promise.resState promise).symm.trans isDetached
  | run _ promise => cases (congrArg Promise.resState promise).symm.trans isDetached
  | caller _ promise _ => cases (congrArg Promise.resState promise).symm.trans isDetached

end Lives

/-- **The frames of every run.** -/
theorem lifecycle {acts : List (FrameAct T)} {machine : Machine T}
    (ran : Machine.run acts Machine.init = some machine) :
    Lifecycle machine := by
  classical
  have orderly : machine.Orderly := Machine.run_orderly Machine.init_orderly ran
  exact
    { destroyed := fun _ _ => orderly.destroyed
      handed := fun _ _ _ => orderly.handed
      once := orderly.once
      unfinished := fun _ running => (orderly.unfinished running).1
      delivered := fun _ _ _ => orderly.delivered
      undelivered := by
        rintro frame (discarded | running)
        · exact orderly.discarded discarded
        · exact (orderly.unfinished running).2
      resumed := fun _ _ _ => orderly.resumed
      accessed := fun _ _ _ => orderly.accessed
      checked := fun _ _ _ => orderly.checked
      asserted := by
        intro frame hasRes member
        obtain ⟨life, known, -⟩ := orderly.life frame
        exact (census_of_lifeOf known).asserted hasRes member
      detached := by
        intro frame
        obtain ⟨active, ordered⟩ := orderly.ordered frame
        exact ordered.detached
      unreachable := fun _ _ _ _ => orderly.unreachable }

/-- A coroutine that awaits another one, which waits for the ring: the second
ends inside a completion and takes the first one with it. -/
theorem lifecycle_nested : ∃ machine : Machine Nat,
    Machine.run [.start, .call, .wait, .resume 1, .finish 5, .endExpression,
      .finish 6] Machine.init = some machine ∧
      machine.control = .run ∧ deliveriesOf machine.frames.log 1 = [(0, some 5)] ∧
      Lifecycle machine :=
  ⟨_, rfl, rfl, rfl, @lifecycle Nat [.start, .call, .wait, .resume 1, .finish 5, .endExpression,
    .finish 6] _ rfl⟩

end Fuseuring
