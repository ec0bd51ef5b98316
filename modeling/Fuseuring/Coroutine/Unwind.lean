/-
**What is below a coroutine, and that a frame is in order there.**

* `Linked` — a coroutine that is not on the machine stack is awaited by the one
  that called it, which waits for it, or was started by `run` and is detached.
* `Unwinds` — what the activations below the running coroutine are: callers
  whose task is not handed over yet, and at the bottom `run`, a completion, or
  the `final_suspend` of coroutines that are gone.
* `giveBack_orderly`, `finalSuspend_orderly` — a coroutine that waits and one
  that ends, through all activations below.
-/

import Fuseuring.Coroutine.Life
import Mathlib.Data.List.Nodup

namespace Fuseuring

variable {T : Type} [DecidableEq T]

/-! ### Frames one by one -/

namespace Frames

def life (frames : Frames T) (coroH : Nat) : Option (Life T) := lifeOf frames.log coroH

/-- The body of the frame has started and has not returned. -/
def Alive (frames : Frames T) (coroH : Nat) (caller : Option Nat) : Prop :=
  frames.life coroH = some (.alive caller)

section Updates

variable {frames : Frames T} {coroH other : Nat} {event : FrameEvent T} {point : Point}
  {promise : Promise T}

theorem life_note_self (event : FrameEvent T) :
    (frames.note event).life event.about = (frames.life event.about).bind (Life.take · event) :=
  lifeOf_cons_self _ _

/-- An event that is in order. -/
theorem life_note (event : FrameEvent T) {before after : Life T}
    (known : frames.life event.about = some before)
    (took : before.take event = some after) :
    (frames.note event).life event.about = some after := by
  rw [life_note_self, known]
  exact took

theorem life_note_of_ne (different : event.about ≠ other) :
    (frames.note event).life other = frames.life other :=
  lifeOf_cons_of_ne different _

@[simp] theorem life_setPoint : (frames.setPoint coroH point).life other = frames.life other := rfl

@[simp] theorem life_setPromise : (frames.setPromise coroH promise).life other =
    frames.life other := rfl

end Updates

/-- Only one frame differs. -/
structure SameOff (before after : Frames T) (coroH : Nat) : Prop where
  life : ∀ other, other ≠ coroH → after.life other = before.life other
  point : ∀ other, other ≠ coroH → after.point other = before.point other
  promise : ∀ other, other ≠ coroH → after.promise other = before.promise other

section SameOff

variable {before middle after frames : Frames T} {coroH : Nat}

theorem SameOff.trans (first : SameOff before middle coroH) (second : SameOff middle after coroH) :
    SameOff before after coroH where
  life := fun other different => (second.life other different).trans (first.life other different)
  point := fun other different => (second.point other different).trans (first.point other different)
  promise := fun other different => (second.promise other different).trans
    (first.promise other different)

theorem sameOff_note (frames : Frames T) (event : FrameEvent T) :
    SameOff frames (frames.note event) event.about where
  life := fun _ different => life_note_of_ne different.symm
  point := fun _ _ => rfl
  promise := fun _ _ => rfl

theorem sameOff_setPoint (point : Point) : SameOff frames (frames.setPoint coroH point) coroH where
  life := fun _ _ => rfl
  point := fun _ different => point_setPoint_of_ne different
  promise := fun _ _ => promise_setPoint

theorem sameOff_setPromise (promise : Promise T) : SameOff frames
    (frames.setPromise coroH promise) coroH where
  life := fun _ _ => rfl
  point := fun _ _ => point_setPromise
  promise := fun _ different => promise_setPromise_of_ne different

end SameOff

end Frames

/-! ### The invariant -/

/-- **A coroutine that is not on the machine stack**: it is detached, or the
one that called it waits for it. -/
def Linked (frames : Frames T) (coroH : Nat) : Option Nat → Prop
  | none => (frames.promise coroH).resState = .detached ∧ (frames.promise coroH).awaiter = none
  | some caller =>
    (frames.promise coroH).resState = .init ∧ (frames.promise coroH).awaiter = some caller ∧
      frames.point caller = .task coroH

/-- A coroutine whose task is not handed over yet. -/
def Unhanded (frames : Frames T) (coroH : Nat) : Prop :=
  (frames.promise coroH).resState = .init ∧ (frames.promise coroH).awaiter = none

/-- The coroutines on the machine stack that await the one above them. -/
def callers : List Return → List Nat
  | [] => []
  | .caller caller :: below => caller :: callers below
  | _ :: below => callers below

/-- Activations of coroutines that are gone, above a completion. -/
inductive Gone : List Return → Prop
  | handleCqe : Gone [.handleCqe]
  | finalSuspend (frame : Nat) {below : List Return} : Gone below →
    Gone (.finalSuspend frame :: below)

/-- **The activations below a coroutine.** -/
inductive Unwinds (frames : Frames T) : Nat → List Return → Prop
  | resumed {frame : Nat} {caller : Option Nat} {below : List Return} : frames.Alive frame caller →
      Linked frames frame caller → Gone below → Unwinds frames frame below
  | run {frame : Nat} : frames.Alive frame none → Unhanded frames frame →
    Unwinds frames frame [.run]
  | caller {frame caller : Nat} {below : List Return} : frames.Alive frame (some caller) →
    Unhanded frames frame →
      Unwinds frames caller below → Unwinds frames frame (.caller caller :: below)

/-- What holds of each frame, with the coroutines on the machine stack and the
one whose task is held. -/
structure Ordered (frames : Frames T) (active : List Nat) (held : Option Nat)
    (frame : Nat) : Prop where
  known : held ≠ some frame → frames.life frame = some .unborn ∨
    (∃ caller, frames.Alive frame caller) ∨
    ∃ caller value, frames.life frame = some (.destroyed caller value)
  held : held = some frame → frames.point frame = .final ∧
    ∃ awaiter value, frames.life frame = some (.delivered awaiter value)
  linked : ∀ caller, frame ∉ active → frames.Alive frame caller → Linked frames frame caller
  running : frame ∈ active → frames.point frame = .running
  suspended : (frames.point frame = .io ∨ ∃ coroH, frames.point frame = .task coroH) →
    ∃ caller, frames.Alive frame caller
  detached : (frames.promise frame).resState = .detached → (frames.promise frame).awaiter = none
  fresh : frames.created ≤ frame → frames.life frame = some .unborn ∧ frames.point frame = .running

/-- **The invariant.** -/
def Machine.Orderly (machine : Machine T) : Prop :=
  match machine.control with
  | .run => ∀ frame, Ordered machine.frames [] none frame
  | .body frame held below =>
    (∀ other, Ordered machine.frames (frame :: callers below) held other) ∧
      (frame :: callers below).Nodup ∧ Unwinds machine.frames frame below

/-! ### Changes of one frame -/

section Frame

variable {before after : Frames T} {coroH frame : Nat} {active active' : List Nat}
  {held held' : Option Nat}
  {below : List Return} {caller : Option Nat}

omit [DecidableEq T] in
theorem Linked.congr (linked : Linked before frame caller)
    (promise : after.promise frame = before.promise frame)
    (points : ∀ other, before.point other = .task frame → after.point other = .task frame) :
    Linked after frame caller := by
  cases caller with
  | none =>
    rw [Linked, promise]
    exact linked
  | some caller =>
    rw [Linked, promise]
    exact ⟨linked.1, linked.2.1, points caller linked.2.2⟩

theorem Gone.callers (gone : Gone below) : callers below = [] := by
  induction gone with
  | handleCqe => rfl
  | finalSuspend frame _ ih => exact ih

theorem Unwinds.alive (unwinds : Unwinds before frame below) :
    ∃ caller, before.Alive frame caller := by
  cases unwinds with
  | resumed alive => exact ⟨_, alive⟩
  | run alive => exact ⟨_, alive⟩
  | caller alive => exact ⟨_, alive⟩

/-- The activations depend on their coroutines and on where those wait that await them. -/
theorem Unwinds.congr (unwinds : Unwinds before frame below)
    (same : ∀ other ∈ frame :: callers below, after.life other = before.life other ∧
      after.promise other = before.promise other)
    (points : ∀ other coroH, coroH ∈ frame :: callers below → before.point other = .task coroH →
      after.point other = .task coroH) : Unwinds after frame below := by
  induction unwinds with
  | @resumed frame caller below alive linked gone =>
    obtain ⟨life, promise⟩ := same frame List.mem_cons_self
    exact .resumed (life.trans alive)
      (linked.congr promise fun other => points other frame List.mem_cons_self) gone
  | @run frame alive unhanded =>
    obtain ⟨life, promise⟩ := same frame List.mem_cons_self
    refine .run (life.trans alive) ?_
    rw [Unhanded, promise]
    exact unhanded
  | @caller frame caller below alive unhanded _ ih =>
    obtain ⟨life, promise⟩ := same frame List.mem_cons_self
    refine .caller (life.trans alive) ?_
      (ih (fun other member => same other (List.mem_cons_of_mem _ member))
      fun other coroH member => points other coroH (List.mem_cons_of_mem _ member))
    rw [Unhanded, promise]
    exact unhanded

/-- A frame that a change does not touch. -/
theorem Ordered.off (ordered : Ordered before active held frame)
    (off : Frames.SameOff before after coroH)
    (other : frame ≠ coroH) (created : before.created ≤ after.created)
    (points : before.point coroH = .task frame → after.point coroH = .task frame)
    (active : frame ∈ active' ↔ frame ∈ active) (held : held' = some frame ↔ held = some frame) :
    Ordered after active' held' frame := by
  have life := off.life frame other
  have point := off.point frame other
  have promise := off.promise frame other
  have waits : ∀ waiting, before.point waiting = .task frame →
      after.point waiting = .task frame := by
    intro waiting waits
    by_cases same : waiting = coroH
    · subst same
      exact points waits
    · rw [off.point waiting same]
      exact waits
  have alive : ∀ caller, after.Alive frame caller ↔ before.Alive frame caller := by
    intro caller
    rw [Frames.Alive, life]
    rfl
  refine ⟨fun free => ?_, fun holds => ?_, fun caller outside lives => ?_, fun inside => ?_,
    fun waiting => ?_,
    fun isDetached => ?_, fun unborn => ?_⟩
  · rw [life]
    simp only [alive]
    exact ordered.known fun holds => free (held.mpr holds)
  · rw [life, point]
    exact ordered.held (held.mp holds)
  · exact (ordered.linked caller (fun inside => outside (active.mpr inside))
      ((alive caller).mp lives)).congr promise waits
  · rw [point]
    exact ordered.running (active.mp inside)
  · rw [point] at waiting
    simp only [alive]
    exact ordered.suspended waiting
  · rw [promise] at isDetached ⊢
    exact ordered.detached isDetached
  · rw [life, point]
    exact ordered.fresh (Nat.le_trans created unborn)

theorem Ordered.born {life : Life T} (ordered : Ordered before active held frame)
    (known : before.life frame = some life)
    (begun : life ≠ .unborn) : frame < before.created := by
  by_contra unborn
  have fresh := (ordered.fresh (Nat.not_lt.mp unborn)).1
  exact begun (Option.some.inj (known.symm.trans fresh))

theorem Ordered.alive_born (ordered : Ordered before active held frame)
    (alive : before.Alive frame caller) :
    frame < before.created := ordered.born alive fun impossible => (by cases impossible)

/-- A coroutine that is linked. -/
theorem Linked.ordered (linked : Linked before frame caller) (alive : before.Alive frame caller)
    (born : frame < before.created) (outside : frame ∉ active) :
    Ordered before active none frame where
  known := fun _ => Or.inr (Or.inl ⟨caller, alive⟩)
  held := fun impossible => absurd impossible (Option.some_ne_none _).symm
  linked := by
    intro other _ lives
    have same : other = caller := by
      have equal := Option.some.inj (lives.symm.trans alive)
      exact Life.alive.inj equal
    rw [same]
    exact linked
  running := fun inside => absurd inside outside
  suspended := fun _ => ⟨caller, alive⟩
  detached := by
    intro isDetached
    cases caller with
    | none => exact linked.2
    | some caller =>
      rw [linked.1] at isDetached
      cases isDetached
  fresh := fun unborn => absurd born (Nat.not_lt.mpr unborn)

end Frame

/-! ### A coroutine waits -/

section Waits

variable {frames : Frames T} {frame : Nat} {below : List Return}

omit [DecidableEq T] in
/-- Through the activations of coroutines that are gone. -/
theorem giveBack_gone (frames : Frames T) (gone : Gone below) :
    ∀ frame, giveBack frames frame below = ⟨frames, .run⟩ := by
  induction gone with
  | handleCqe => exact fun _ => rfl
  | finalSuspend ended _ ih => exact fun _ => ih ended

/-- `run` drops the task of a coroutine that waits: it is detached. -/
theorem dropTask_detaches (alive : frames.Alive frame none) (unhanded : Unhanded frames frame)
    (waits : frames.point frame = .io ∨ ∃ coroH, frames.point frame = .task coroH)
    (born : frame < frames.created)
    (others : ∀ other, other ≠ frame → Ordered frames [] none other) (other : Nat) :
    Ordered (frames.dropTask frame) [] none other := by
  let detached := ((frames.note (.checked frame)).note (.accessed frame)).setPromise frame
    { frames.promise frame with resState := .detached }
  have dropped : frames.dropTask frame = detached := by
    have still : (frames.note (.checked frame)).point frame ≠ .final := by
      rcases waits with io | ⟨coroH, task⟩
      · rw [Frames.point_note, io]
        exact Point.noConfusion
      · rw [Frames.point_note, task]
        exact Point.noConfusion
    rw [Frames.dropTask, if_pos still]
    rfl
  have off : Frames.SameOff frames detached frame :=
    ((Frames.sameOff_note _ (.checked frame)).trans (Frames.sameOff_note _ (.accessed frame))).trans
      (Frames.sameOff_setPromise _)
  rw [dropped]
  by_cases same : other = frame
  · rw [same]
    have checked : (frames.note (.checked frame)).Alive frame none :=
      Frames.life_note (.checked frame) alive rfl
    have lives : detached.Alive frame none := Frames.life_note (.accessed frame) checked rfl
    have linked : Linked detached frame none := by
      rw [Linked, Frames.promise_setPromise_self]
      exact ⟨rfl, unhanded.2⟩
    exact linked.ordered lives born List.not_mem_nil
  · refine (others other same).off off same (Nat.le_refl _) (fun task => ?_) Iff.rfl Iff.rfl
    rw [Frames.point_setPromise]
    exact task

/-- The caller of a coroutine that waits stores itself as the awaiter, and waits in turn. -/
def Frames.suspend (frames : Frames T) (frame caller : Nat) : Frames T :=
  (((frames.note (.accessed frame)).note (.accessed frame)).setPromise frame
    { frames.promise frame with awaiter := some caller }).setPoint caller (.task frame)

omit [DecidableEq T] in
theorem giveBack_caller {caller : Nat} (isInit : (frames.promise frame).resState = .init) :
    giveBack frames frame (.caller caller :: below) = giveBack
      (frames.suspend frame caller) caller below := by
  have unready : ¬ (frames.note (.accessed frame)).hasRes frame = true := by
    rw [Frames.hasRes, Frames.promise_note, isInit]
    decide
  rw [giveBack]
  simp only [if_neg unready]
  rfl

/-- Behind that the coroutine is linked to its caller, and the others are as they were. -/
theorem suspend_ordered {caller : Nat} (alive : frames.Alive frame (some caller))
    (unhanded : Unhanded frames frame)
    (born : frame < frames.created) (running : frames.point caller = .running)
    (outside : frame ∉ callers below)
    (others : ∀ other, other ≠ frame → Ordered frames (caller :: callers below) none other) :
    ∀ other, other ≠ caller → Ordered (frames.suspend frame caller) (callers below) none other := by
  let stored := ((frames.note (.accessed frame)).note (.accessed frame)).setPromise frame
    { frames.promise frame with awaiter := some caller }
  have off : Frames.SameOff frames stored frame :=
    ((Frames.sameOff_note _ (.accessed frame)).trans
      (Frames.sameOff_note _ (.accessed frame))).trans
      (Frames.sameOff_setPromise _)
  have points : ∀ other, stored.point other = frames.point other :=
    fun other => Frames.point_setPromise
  intro other apart
  by_cases same : other = frame
  · rw [same]
    have lives : stored.Alive frame (some caller) :=
      Frames.life_note (.accessed frame) (Frames.life_note (.accessed frame) alive rfl) rfl
    have linked : Linked (stored.setPoint caller (.task frame)) frame (some caller) := by
      rw [Linked, Frames.promise_setPoint, Frames.promise_setPromise_self]
      exact ⟨unhanded.1, rfl, Frames.point_setPoint_self⟩
    exact linked.ordered lives born outside
  · have member : other ∈ callers below ↔ other ∈ caller :: callers below := by
      rw [List.mem_cons, or_iff_right apart]
    have kept : Ordered stored (callers below) none other :=
      (others other same).off off same (Nat.le_refl _)
        (fun task => (points frame).trans task) member Iff.rfl
    refine kept.off (Frames.sameOff_setPoint _) apart (Nat.le_refl _)
      (fun task => ?_) Iff.rfl Iff.rfl
    rw [points, running] at task
    cases task

theorem Unwinds.suspend {caller : Nat} (unwinds : Unwinds frames caller below)
    (running : frames.point caller = .running)
    (outside : frame ∉ caller :: callers below) :
    Unwinds (frames.suspend frame caller) caller below := by
  have off : Frames.SameOff frames
      (((frames.note (.accessed frame)).note (.accessed frame)).setPromise frame
      { frames.promise frame with awaiter := some caller }) frame :=
    ((Frames.sameOff_note _ (.accessed frame)).trans
      (Frames.sameOff_note _ (.accessed frame))).trans
      (Frames.sameOff_setPromise _)
  refine unwinds.congr (fun other member => ?_) fun other coroH member task => ?_
  · have apart : other ≠ frame := fun same => outside (same ▸ member)
    exact ⟨off.life other apart, Frames.promise_setPoint.trans (off.promise other apart)⟩
  · have apart : other ≠ caller := by
      rintro rfl
      cases running.symm.trans task
    rw [Frames.suspend, Frames.point_setPoint_of_ne apart, Frames.point_setPromise]
    exact task

/-- **A coroutine that waits**, by induction on the activations below it: each caller
stores itself as the awaiter and waits in turn, and `run` detaches the first one. -/
theorem giveBack_orderly (unwinds : Unwinds frames frame below)
    (nodup : (frame :: callers below).Nodup)
    (waits : frames.point frame = .io ∨ ∃ coroH, frames.point frame = .task coroH)
    (born : frame < frames.created)
    (others : ∀ other, other ≠ frame → Ordered frames (callers below) none other) :
    (giveBack frames frame below).Orderly := by
  induction below generalizing frames frame with
  | nil =>
    cases unwinds with
    | resumed alive linked gone => cases gone
  | cons top below ih =>
    cases unwinds with
    | @resumed _ caller _ alive linked gone =>
      rw [giveBack_gone frames gone]
      rw [gone.callers] at others
      intro other
      by_cases same : other = frame
      · rw [same]
        exact linked.ordered alive born List.not_mem_nil
      · exact others other same
    | run alive unhanded => exact dropTask_detaches alive unhanded waits born others
    | @caller _ caller _ alive unhanded unwinds =>
      obtain ⟨outside, nodup⟩ := List.nodup_cons.mp nodup
      have differ : frame ≠ caller := fun same => outside (same ▸ List.mem_cons_self)
      have running : frames.point caller = .running :=
        (others caller differ.symm).running List.mem_cons_self
      obtain ⟨_, lives⟩ := unwinds.alive
      rw [giveBack_caller unhanded.1]
      refine ih (unwinds.suspend running outside) nodup
        (Or.inr ⟨frame, Frames.point_setPoint_self⟩) ?_ ?_
      · exact (others caller differ.symm).alive_born lives
      · exact suspend_ordered alive unhanded born running
          (fun member => outside (List.mem_cons_of_mem _ member)) others

end Waits

/-! ### A coroutine ends -/

section Ends

variable {frames : Frames T} {frame : Nat} {below : List Return}
  {active active' : List Nat} {value : T}
  {caller : Option Nat}

/-- A frame that is gone. -/
theorem ordered_destroyed (gone : frames.life frame = some (.destroyed caller value))
    (final : frames.point frame = .final)
    (born : frame < frames.created) (outside : frame ∉ active)
    (detached : (frames.promise frame).resState = .detached →
      (frames.promise frame).awaiter = none) :
    Ordered frames active none frame where
  known := fun _ => Or.inr (Or.inr ⟨caller, value, gone⟩)
  held := fun impossible => absurd impossible (Option.some_ne_none _).symm
  linked := by
    intro other _ alive
    cases alive.symm.trans gone
  running := fun inside => absurd inside outside
  suspended := by
    rintro (io | ⟨coroH, task⟩)
    · cases final.symm.trans io
    · cases final.symm.trans task
  detached := detached
  fresh := fun unborn => absurd born (Nat.not_lt.mpr unborn)

/-- A coroutine on the machine stack. -/
theorem ordered_running {held : Option Nat} (alive : frames.Alive frame caller)
    (running : frames.point frame = .running)
    (born : frame < frames.created) (inside : frame ∈ active) (apart : held ≠ some frame)
    (detached : (frames.promise frame).resState = .detached →
      (frames.promise frame).awaiter = none) :
    Ordered frames active held frame where
  known := fun _ => Or.inr (Or.inl ⟨caller, alive⟩)
  held := fun holds => absurd holds apart
  linked := fun _ outside _ => absurd inside outside
  running := fun _ => running
  suspended := fun _ => ⟨caller, alive⟩
  detached := detached
  fresh := fun unborn => absurd born (Nat.not_lt.mpr unborn)

theorem sameOff_dropTask : Frames.SameOff frames (frames.dropTask frame) frame := by
  have noted := Frames.sameOff_note frames (.checked frame)
  dsimp only [Frames.dropTask]
  split
  · exact (noted.trans (Frames.sameOff_note _ (.accessed frame))).trans
      (Frames.sameOff_setPromise _)
  · exact noted.trans (Frames.sameOff_note _ (.destroyed frame))

/-- A held task touches no other frame. -/
theorem dropHeld_same {held : Option Nat} (apart : held ≠ some frame) :
    (frames.dropHeld held).life frame = frames.life frame ∧
      (frames.dropHeld held).promise frame = frames.promise frame := by
  cases held with
  | none => exact ⟨rfl, rfl⟩
  | some coroH =>
    have differ : frame ≠ coroH := fun same => apart (congrArg some same.symm)
    exact ⟨sameOff_dropTask.life frame differ, sameOff_dropTask.promise frame differ⟩

/-- **The task whose result was taken is dropped.** -/
theorem Ordered.dropped (ordered : Ordered frames active (some frame) frame)
    (outside : frame ∉ active') :
    Ordered (frames.dropTask frame) active' none frame := by
  obtain ⟨final, awaiter, value, delivered⟩ := ordered.held rfl
  have born : frame < frames.created :=
    ordered.born delivered fun impossible => (by cases impossible)
  rw [Frames.dropTask_final final]
  have checked := Frames.life_note (.checked frame) delivered rfl
  exact ordered_destroyed (Frames.life_note (.destroyed frame) checked rfl) final born outside
    ordered.detached

/-- **A coroutine at its final suspension point**, and what is below it. -/
inductive Ended (frames : Frames T) (frame : Nat) (value : T) : List Return → Prop
  | detached {below : List Return} : frames.life frame = some (.finished none value) →
      (frames.promise frame).resState = .detached →
      (frames.promise frame).awaiter = none → Gone below →
      Ended frames frame value below
  | awaited {awaiter : Nat} {below : List Return} :
    frames.life frame = some (.finished (some awaiter) value) →
      frames.promise frame = ⟨some awaiter, .res, some value⟩ →
      frames.point awaiter = .task frame → Gone below →
      Ended frames frame value below
  | run : frames.life frame = some (.finished none value) →
    frames.promise frame = ⟨none, .res, some value⟩ →
      Ended frames frame value [.run]
  | caller {caller : Nat} {below : List Return} :
    frames.life frame = some (.finished (some caller) value) →
      frames.promise frame = ⟨none, .res, some value⟩ → Unwinds frames caller below →
      Ended frames frame value (.caller caller :: below)

theorem sameOff_returnValue : Frames.SameOff frames (frames.returnValue frame value) frame := by
  have noted := (Frames.sameOff_note frames (.accessed frame)).trans
    (Frames.sameOff_note _ (.finished frame value))
  dsimp only [Frames.returnValue]
  split
  · exact noted.trans (Frames.sameOff_setPromise _)
  · exact noted

/-- The life of a frame that returns. -/
theorem life_returnValue (alive : frames.Alive frame caller) :
    (frames.returnValue frame value).life frame = some (.finished caller value) := by
  have looked : (frames.note (.accessed frame)).life frame = some (.alive caller) :=
    Frames.life_note (.accessed frame) alive rfl
  have noted : ((frames.note (.accessed frame)).note (.finished frame value)).life frame = some
      (.finished caller value) :=
    Frames.life_note (.finished frame value) looked rfl
  dsimp only [Frames.returnValue]
  split
  · exact noted
  · exact noted

/-- The task that is held is dropped. -/
theorem dropTask_ordered {coroH : Nat} (holder : Ordered frames active (some coroH) coroH)
    (ordered : Ordered frames active (some coroH) frame) :
    Ordered (frames.dropTask coroH) active none frame := by
  have outside : coroH ∉ active := by
    intro inside
    cases (holder.held rfl).1.symm.trans (holder.running inside)
  by_cases same : frame = coroH
  · rw [same]
    exact holder.dropped outside
  · refine ordered.off sameOff_dropTask same
      (Nat.le_of_eq Frames.created_dropTask.symm) ?_ Iff.rfl ?_
    · intro task
      exact Frames.point_dropTask.trans task
    · refine ⟨fun impossible => absurd impossible (Option.some_ne_none _).symm, fun holds => ?_⟩
      exact absurd (Option.some.inj holds).symm same

/-- The held task is dropped, beside a frame that is not in order. -/
theorem dropHeld_ordered {held : Option Nat} (others : ∀ other, other ≠ frame →
    Ordered frames active held other)
    (apart : held ≠ some frame) : ∀ other, other ≠ frame →
    Ordered (frames.dropHeld held) active none other := by
  cases held with
  | none => exact others
  | some coroH =>
    have differ : coroH ≠ frame := fun same => apart (congrArg some same)
    exact fun other different => dropTask_ordered (others coroH differ) (others other different)

/-- What a coroutine leaves at its final suspension point. -/
theorem ended_of_unwinds (value : T) {held : Option Nat}
    (others : ∀ other, Ordered frames (frame :: callers below) held other)
    (nodup : (frame :: callers below).Nodup) (unwinds : Unwinds frames frame below) :
    Ended (frames.coReturn frame held value) frame value below ∧
      ∀ other, other ≠ frame → Ordered (frames.coReturn frame held value)
      (callers below) none other := by
  have running := (others frame).running List.mem_cons_self
  have apart : held ≠ some frame := by
    intro holds
    cases ((others frame).held holds).1.symm.trans running
  have returned : ∀ other, other ≠ frame → Ordered (frames.returnValue frame value)
      (callers below) held other := by
    intro other different
    refine (others other).off sameOff_returnValue different
      (Nat.le_of_eq Frames.created_returnValue.symm) ?_ ?_ Iff.rfl
    · intro task
      exact Frames.point_returnValue.trans task
    · rw [List.mem_cons, or_iff_right different]
  have dropped := dropHeld_ordered returned apart
  have still : ((frames.returnValue frame value).dropHeld held).point frame = .running := by
    rw [Frames.point_dropHeld, Frames.point_returnValue, running]
  constructor
  rotate_left
  · intro other different
    refine (dropped other different).off (Frames.sameOff_setPoint _) different (Nat.le_refl _)
      ?_ Iff.rfl Iff.rfl
    intro task
    cases still.symm.trans task
  let ending := frames.coReturn frame held value
  have life : ∀ {caller}, frames.Alive frame caller →
      ending.life frame = some (.finished caller value) := by
    intro caller alive
    exact (dropHeld_same apart).1.trans (life_returnValue alive)
  have promise : ending.promise frame = (frames.returnValue frame value).promise frame :=
    Frames.promise_setPoint.trans (dropHeld_same apart).2
  have result : (frames.promise frame).resState = .init →
      ending.promise frame = ⟨(frames.promise frame).awaiter, .res, some value⟩ := by
    intro isInit
    rw [promise, Frames.returnValue_init isInit, Frames.promise_setPromise_self]
  have points : ∀ other coroH, frames.point other = .task coroH →
      ending.point other = .task coroH := by
    intro other coroH task
    have different : other ≠ frame := by
      rintro rfl
      cases running.symm.trans task
    show (((frames.returnValue frame value).dropHeld held).setPoint frame .final).point
      other = .task coroH
    rw [Frames.point_setPoint_of_ne different, Frames.point_dropHeld, Frames.point_returnValue]
    exact task
  cases unwinds with
  | @resumed _ caller _ alive linked gone =>
    cases caller with
    | none =>
      refine .detached (life alive) ?_ ?_ gone
      · rw [promise, Frames.returnValue_detached linked.1]
        exact linked.1
      · rw [promise, Frames.returnValue_detached linked.1]
        exact linked.2
    | some caller =>
      refine .awaited (life alive) ?_ (points caller frame linked.2.2) gone
      rw [result linked.1, linked.2.1]
  | run alive unhanded =>
    refine .run (life alive) ?_
    rw [result unhanded.1, unhanded.2]
  | @caller _ caller below alive unhanded unwinds =>
    refine .caller (life alive) ?_ (unwinds.congr (fun other member => ?_)
      fun other coroH _ => points other coroH)
    · rw [result unhanded.1, unhanded.2]
    · have different : other ≠ frame := fun same => (List.nodup_cons.mp nodup).1 (same ▸ member)
      have free : held ≠ some other := by
        intro holds
        have active := (others other).running (List.mem_cons_of_mem _ member)
        cases ((others other).held holds).1.symm.trans active
      obtain ⟨life, promise⟩ := @dropHeld_same T _ (frames.returnValue frame value) other held free
      exact ⟨life.trans (sameOff_returnValue.life other different),
        Frames.promise_setPoint.trans (promise.trans (sameOff_returnValue.promise other different))⟩

/-- **A result is taken**, by a coroutine that runs or waits for just this one. -/
theorem awaitResume_orderly {awaiter : Nat}
    (life : frames.life frame = some (.finished (some awaiter) value))
    (result : (frames.promise frame).resState = .res ∧ (frames.promise frame).res = some value)
    (final : frames.point frame = .final) (born : frame < frames.created)
    (nodup : (awaiter :: callers below).Nodup)
    (outside : frame ∉ awaiter :: callers below) (unwinds : Unwinds frames awaiter below)
    (awaiterBorn : awaiter < frames.created)
    (place : frames.point awaiter = .running ∨ frames.point awaiter = .task frame)
    (attached : (frames.promise awaiter).resState = .detached →
      (frames.promise awaiter).awaiter = none)
    (others : ∀ other, other ≠ frame → other ≠ awaiter →
      Ordered frames (awaiter :: callers below) none other) :
    (awaitResume frames awaiter frame below).Orderly := by
  let noted := ((frames.note (.accessed frame)).note (.asserted frame true)).note
    (.delivered frame awaiter (some value))
  have resumes : awaitResume frames awaiter frame below =
      ⟨noted.setPoint awaiter .running, .body awaiter (some frame) below⟩ := by
    have has : (frames.note (.accessed frame)).hasRes frame = true := by
      rw [Frames.hasRes, Frames.promise_note, result.1]
      rfl
    simp only [awaitResume, Frames.hasRes, Frames.promise_note, result.1, result.2]
    rfl
  have differ : awaiter ≠ frame := fun same => outside (same ▸ List.mem_cons_self)
  have off : Frames.SameOff frames noted frame :=
    ((Frames.sameOff_note _ (.accessed frame)).trans
      (Frames.sameOff_note _ (.asserted frame true))).trans
      (Frames.sameOff_note _ (.delivered frame awaiter (some value)))
  have delivered : noted.life frame = some (.delivered awaiter value) := by
    have looked := Frames.life_note (.accessed frame) life rfl
    have asserted := Frames.life_note (.asserted frame true) looked rfl
    exact Frames.life_note (.delivered frame awaiter (some value)) asserted (if_pos ⟨rfl, rfl⟩)
  have elsewhere : ∀ other, other ≠ frame → noted.point awaiter ≠ .task other := by
    intro other different task
    rcases place with running | waits
    · cases running.symm.trans task
    · cases waits.symm.trans task
      exact different rfl
  obtain ⟨caller, alive⟩ := unwinds.alive
  have lives : noted.Alive awaiter caller := (off.life awaiter differ).trans alive
  rw [resumes]
  refine ⟨fun other => ?_, nodup, ?_⟩
  · by_cases ended : other = frame
    · rw [ended]
      exact
        { known := fun free => absurd rfl free
          held := fun _ => ⟨(Frames.point_setPoint_of_ne differ.symm).trans final, awaiter,
            value, delivered⟩
          linked := fun _ _ impossible => (by cases impossible.symm.trans delivered)
          running := fun inside => absurd inside outside
          suspended := by
            rw [Frames.point_setPoint_of_ne differ.symm]
            rintro (io | ⟨coroH, task⟩)
            · cases io.symm.trans final
            · cases task.symm.trans final
          detached := by
            intro isDetached
            rw [Frames.promise_setPoint] at isDetached
            cases isDetached.symm.trans result.1
          fresh := fun unborn => absurd born (Nat.not_lt.mpr unborn) }
    by_cases resumed : other = awaiter
    · rw [resumed]
      refine ordered_running lives Frames.point_setPoint_self awaiterBorn List.mem_cons_self ?_ ?_
      · exact fun holds => absurd (Option.some.inj holds).symm differ
      · rw [Frames.promise_setPoint]
        exact attached
    · have kept := (others other ended resumed).off off ended (Nat.le_refl _)
        (fun task => task) Iff.rfl Iff.rfl
      refine kept.off (Frames.sameOff_setPoint _) resumed (Nat.le_refl _) ?_ Iff.rfl ?_
      · exact fun task => absurd task (elsewhere other ended)
      · refine ⟨fun holds => absurd (Option.some.inj holds).symm ended, fun impossible => ?_⟩
        exact absurd impossible.symm (Option.some_ne_none _)
  · refine unwinds.congr (fun other member => ?_) fun other coroH member task => ?_
    · have different : other ≠ frame := fun same => outside (same ▸ member)
      exact ⟨off.life other different, Frames.promise_setPoint.trans (off.promise other different)⟩
    · have different : other ≠ awaiter := by
        rintro rfl
        exact elsewhere coroH (fun same => outside (same ▸ member)) task
      rw [Frames.point_setPoint_of_ne different]
      exact task

/-- A frame beside one that events are about. -/
theorem Ordered.beside {other : Nat} {held : Option Nat}
    (ordered : Ordered frames active held other) (event : FrameEvent T)
    (different : other ≠ event.about) : Ordered (frames.note event) active held other :=
  ordered.off (Frames.sameOff_note _ event) different (Nat.le_refl _)
    (fun task => task) Iff.rfl Iff.rfl

/-- Nobody awaits the coroutine: `final_suspend` destroys it. -/
theorem finalSuspend_detached (finished : frames.life frame = some (.finished none value))
    (isDetached : (frames.promise frame).resState = .detached)
    (alone : (frames.promise frame).awaiter = none)
    (gone : Gone below) (final : frames.point frame = .final) (born : frame < frames.created)
    (others : ∀ other, other ≠ frame → Ordered frames (callers below) none other) :
    (finalSuspend frames frame below).Orderly := by
  have ends : finalSuspend frames frame below =
      ⟨(frames.note (.accessed frame)).destroy frame, .run⟩ := by
    rw [finalSuspend]
    simp only [Frames.promise_note, if_pos isDetached, alone]
    exact giveBack_gone _ gone frame
  have looked : (frames.note (.accessed frame)).life frame = some (.finished none value) :=
    Frames.life_note (.accessed frame) finished rfl
  have destroyed : ((frames.note (.accessed frame)).destroy frame).life frame = some
      (.destroyed none value) :=
    Frames.life_note (.destroyed frame) looked rfl
  rw [gone.callers] at others
  rw [ends]
  intro other
  by_cases same : other = frame
  · rw [same]
    exact ordered_destroyed destroyed final born List.not_mem_nil fun _ => alone
  · exact ((others other same).beside (.accessed frame) same).beside (.destroyed frame) same

/-- `run` still has the task: it destroys the coroutine. -/
theorem finalSuspend_run (finished : frames.life frame = some (.finished none value))
    (promise : frames.promise frame = ⟨none, .res, some value⟩)
    (final : frames.point frame = .final)
    (born : frame < frames.created) (others : ∀ other, other ≠ frame →
      Ordered frames [] none other) :
    (finalSuspend frames frame [.run]).Orderly := by
  have ends : finalSuspend frames frame [.run] =
      ⟨((frames.note (.accessed frame)).note (.checked frame)).destroy frame, .run⟩ := by
    rw [finalSuspend]
    simp only [Frames.promise_note, promise, reduceCtorEq, if_false]
    rw [giveBack]
    exact congrArg (Machine.mk · .run) (Frames.dropTask_final final)
  have looked : (frames.note (.accessed frame)).life frame = some (.finished none value) :=
    Frames.life_note (.accessed frame) finished rfl
  have checked : ((frames.note (.accessed frame)).note (.checked frame)).life frame = some
      (.finished none value) :=
    Frames.life_note (.checked frame) looked rfl
  have destroyed : (((frames.note (.accessed frame)).note
      (.checked frame)).destroy frame).life frame =
      some (.destroyed none value) := Frames.life_note (.destroyed frame) checked rfl
  rw [ends]
  intro other
  by_cases same : other = frame
  · rw [same]
    refine ordered_destroyed destroyed final born List.not_mem_nil fun _ => ?_
    show (frames.promise frame).awaiter = none
    rw [promise]
  · exact (((others other same).beside (.accessed frame) same).beside (.checked frame) same).beside
      (.destroyed frame) same

/-- Its caller has the task and runs on with the result. -/
theorem finalSuspend_caller {caller : Nat}
    (finished : frames.life frame = some (.finished (some caller) value))
    (promise : frames.promise frame = ⟨none, .res, some value⟩)
    (unwinds : Unwinds frames caller below)
    (final : frames.point frame = .final) (born : frame < frames.created)
    (nodup : (frame :: caller :: callers below).Nodup)
    (others : ∀ other, other ≠ frame → Ordered frames (caller :: callers below) none other) :
    (finalSuspend frames frame (.caller caller :: below)).Orderly := by
  let looked := (frames.note (.accessed frame)).note (.accessed frame)
  have ends : finalSuspend frames frame (.caller caller :: below) =
      awaitResume looked caller frame below := by
    have has : looked.hasRes frame = true := by
      show ((frames.promise frame).resState == .res) = true
      rw [promise]
      rfl
    rw [finalSuspend]
    simp only [Frames.promise_note, promise, reduceCtorEq, if_false]
    rw [giveBack]
    simp only
    rw [if_pos has]
  obtain ⟨outside, nodup⟩ := List.nodup_cons.mp nodup
  have differ : caller ≠ frame := fun same => outside (same ▸ List.mem_cons_self)
  have off : Frames.SameOff frames looked frame :=
    (Frames.sameOff_note _ (.accessed frame)).trans (Frames.sameOff_note _ (.accessed frame))
  have life :=
    Frames.life_note (.accessed frame) (Frames.life_note (.accessed frame) finished rfl) rfl
  obtain ⟨_, alive⟩ := unwinds.alive
  have callerBorn : caller < frames.created := (others caller differ).alive_born alive
  have running : frames.point caller = .running := (others caller differ).running List.mem_cons_self
  rw [ends]
  refine awaitResume_orderly life ?_ final born nodup outside ?_ callerBorn (Or.inl running)
    (others caller differ).detached ?_
  · show (frames.promise frame).resState = .res ∧ (frames.promise frame).res = some value
    rw [promise]
    exact ⟨rfl, rfl⟩
  · refine unwinds.congr (fun other member => ?_) fun _ _ _ task => task
    have different : other ≠ frame := fun same => outside (same ▸ member)
    exact ⟨off.life other different, rfl⟩
  · intro other different _
    exact ((others other different).beside (.accessed frame) different).beside
      (.accessed frame) different

/-- The coroutine that awaits it goes on, inside of its `final_suspend`. -/
theorem finalSuspend_awaited
    {awaiter : Nat} (finished : frames.life frame = some (.finished (some awaiter) value))
    (promise : frames.promise frame = ⟨some awaiter, .res, some value⟩)
    (waits : frames.point awaiter = .task frame)
    (gone : Gone below) (final : frames.point frame = .final) (born : frame < frames.created)
    (others : ∀ other, other ≠ frame → Ordered frames (callers below) none other) :
    (finalSuspend frames frame below).Orderly := by
  let resumed := (frames.note (.accessed frame)).note (.resumed awaiter)
  have ends : finalSuspend frames frame below = awaitResume resumed awaiter frame
      (.finalSuspend frame :: below) := by
    have still : resumed.point awaiter = .task frame := waits
    rw [finalSuspend]
    simp only [Frames.promise_note, promise, reduceCtorEq, if_false]
    rw [resumeAwaiter, still]
  rw [gone.callers] at others
  have differ : awaiter ≠ frame := by
    rintro rfl
    cases waits.symm.trans final
  obtain ⟨caller, alive⟩ := (others awaiter differ).suspended (Or.inr ⟨frame, waits⟩)
  have awaiterBorn : awaiter < frames.created := (others awaiter differ).alive_born alive
  have linked : Linked frames awaiter caller :=
    (others awaiter differ).linked caller List.not_mem_nil alive
  have life : resumed.life frame = some (.finished (some awaiter) value) :=
    ((Frames.sameOff_note _ (.resumed awaiter)).life frame differ.symm).trans
      (Frames.life_note (.accessed frame) finished rfl)
  have looked : (frames.note (.accessed frame)).Alive awaiter caller :=
    ((Frames.sameOff_note _ (.accessed frame)).life awaiter differ).trans alive
  have lives : resumed.Alive awaiter caller := Frames.life_note (.resumed awaiter) looked rfl
  have none : callers (.finalSuspend frame :: below) = [] := gone.callers
  rw [ends]
  refine awaitResume_orderly life ?_ final born ?_ ?_
    (.resumed lives (linked.congr rfl fun _ task => task) (.finalSuspend frame gone))
    awaiterBorn (Or.inr waits) (others awaiter differ).detached ?_
  · show (frames.promise frame).resState = .res ∧ (frames.promise frame).res = some value
    rw [promise]
    exact ⟨rfl, rfl⟩
  · rw [none]
    exact List.nodup_singleton awaiter
  · rw [none, List.mem_singleton]
    exact differ.symm
  · intro other different apart
    rw [none]
    refine ((others other different).beside (.accessed frame) different).off
      (Frames.sameOff_note _ (.resumed awaiter)) apart
      (Nat.le_refl _) (fun task => task) ?_ Iff.rfl
    rw [List.mem_singleton]
    exact ⟨fun same => absurd same apart, fun impossible => absurd impossible List.not_mem_nil⟩

/-- **A coroutine that ends**, by what is below it. -/
theorem finalSuspend_orderly (ended : Ended frames frame value below)
    (final : frames.point frame = .final)
    (born : frame < frames.created) (nodup : (frame :: callers below).Nodup)
    (others : ∀ other, other ≠ frame → Ordered frames (callers below) none other) :
    (finalSuspend frames frame below).Orderly := by
  cases ended with
  | detached finished isDetached alone gone =>
    exact finalSuspend_detached finished isDetached alone gone final born others
  | awaited finished promise waits gone =>
    exact finalSuspend_awaited finished promise waits gone final born others
  | run finished promise => exact finalSuspend_run finished promise final born others
  | caller finished promise unwinds =>
    exact finalSuspend_caller finished promise unwinds final born nodup others

end Ends

end Fuseuring
