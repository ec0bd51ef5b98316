/-
**The life of a coroutine frame.**

A frame is called, resumed any number of times and finished. Where somebody called it
to await it, its result is delivered to that one, and then it is destroyed; otherwise
it is destroyed at once. `Life.take` is this order, one event at a time, and `lifeOf`
reads it off a log. `Census` is what a log that is accepted says of its events.
-/

import Fuseuring.Coroutine.Frames

namespace Fuseuring

/-- **A life.** `caller` is the coroutine that awaits the task, or none for `run`. -/
inductive Life (T : Type)
  | unborn
  | alive (caller : Option Nat)
  | finished (caller : Option Nat) (value : T)
  | delivered (awaiter : Nat) (value : T)
  | destroyed (caller : Option Nat) (value : T)

variable {T : Type}

namespace FrameEvent

/-- The frame that an event is about. -/
def about : FrameEvent T → Nat
  | .called _ frame => frame
  | .resumed frame => frame
  | .checked frame => frame
  | .accessed frame => frame
  | .finished frame _ => frame
  | .asserted frame _ => frame
  | .delivered frame _ _ => frame
  | .destroyed frame => frame

/-- The caller, the result and the delivery that an event tells of a frame, and
whether it is its destruction. -/
def caller (frame : Nat) : FrameEvent T → Option (Option Nat)
  | .called caller target => if target = frame then some caller else none
  | _ => none

def result (frame : Nat) : FrameEvent T → Option T
  | .finished target value => if target = frame then some value else none
  | _ => none

def delivery (frame : Nat) : FrameEvent T → Option (Nat × Option T)
  | .delivered target awaiter value => if target = frame then some (awaiter, value) else none
  | _ => none

def destroys (frame : Nat) : FrameEvent T → Bool
  | .destroyed target => target == frame
  | _ => false

end FrameEvent

namespace Life

/-- What has happened so far. -/
def caller : Life T → Option (Option Nat)
  | .unborn => none
  | .alive caller => some caller
  | .finished caller _ => some caller
  | .delivered awaiter _ => some (some awaiter)
  | .destroyed caller _ => some caller

def result : Life T → Option T
  | .unborn => none
  | .alive _ => none
  | .finished _ value => some value
  | .delivered _ value => some value
  | .destroyed _ value => some value

def delivery : Life T → Option (Nat × Option T)
  | .delivered awaiter value => some (awaiter, some value)
  | .destroyed (some awaiter) value => some (awaiter, some value)
  | _ => none

def destructions : Life T → Nat
  | .destroyed _ _ => 1
  | _ => 0

variable [DecidableEq T]

/-- The next event of a frame, where it is in order. -/
def take : Life T → FrameEvent T → Option (Life T)
  | .unborn, .called caller _ => some (.alive caller)
  | .alive caller, .resumed _ => some (.alive caller)
  | .alive caller, .checked _ => some (.alive caller)
  | .alive caller, .accessed _ => some (.alive caller)
  | .alive caller, .finished _ value => some (.finished caller value)
  | .finished caller value, .checked _ => some (.finished caller value)
  | .finished caller value, .accessed _ => some (.finished caller value)
  | .finished caller value, .asserted _ hasRes =>
    if hasRes then some (.finished caller value) else none
  | .finished caller value, .delivered _ awaiter result =>
    if caller = some awaiter ∧ result = some value then some (.delivered awaiter value) else none
  | .finished caller value, .destroyed _ =>
    if caller = none then some (.destroyed caller value) else none
  | .delivered awaiter value, .checked _ => some (.delivered awaiter value)
  | .delivered awaiter value, .destroyed _ => some (.destroyed (some awaiter) value)
  | _, _ => none

end Life

/-! ### Logs -/

/-- The callers, the results and the deliveries of a frame, and how often it is destroyed. -/
def callersOf (log : List (FrameEvent T)) (frame : Nat) : List (Option Nat) :=
  log.filterMap (FrameEvent.caller frame)

def resultsOf (log : List (FrameEvent T)) (frame : Nat) : List T :=
  log.filterMap (FrameEvent.result frame)

def deliveriesOf (log : List (FrameEvent T)) (frame : Nat) : List (Nat × Option T) :=
  log.filterMap (FrameEvent.delivery frame)

def destructionsOf (log : List (FrameEvent T)) (frame : Nat) : Nat :=
  log.countP (FrameEvent.destroys frame)

theorem mem_callersOf {log : List (FrameEvent T)} {frame : Nat} {caller : Option Nat} :
    caller ∈ callersOf log frame ↔ .called caller frame ∈ log := by
  refine List.mem_filterMap.trans ⟨?_, fun member => ⟨_, member, if_pos rfl⟩⟩
  rintro ⟨event, member, told⟩
  cases event with
  | called _ _ =>
    obtain ⟨rfl, same⟩ := Option.ite_none_right_eq_some.mp told
    exact Option.some.inj same ▸ member
  | _ => cases told

theorem mem_resultsOf {log : List (FrameEvent T)} {frame : Nat} {value : T} :
    value ∈ resultsOf log frame ↔ .finished frame value ∈ log := by
  refine List.mem_filterMap.trans ⟨?_, fun member => ⟨_, member, if_pos rfl⟩⟩
  rintro ⟨event, member, told⟩
  cases event with
  | finished _ _ =>
    obtain ⟨rfl, same⟩ := Option.ite_none_right_eq_some.mp told
    exact Option.some.inj same ▸ member
  | _ => cases told

/-- **What a log says of a frame** whose life it is. -/
structure Census (log : List (FrameEvent T)) (frame : Nat) (life : Life T) : Prop where
  callers : callersOf log frame = life.caller.toList
  results : resultsOf log frame = life.result.toList
  deliveries : deliveriesOf log frame = life.delivery.toList
  destructions : destructionsOf log frame = life.destructions
  asserted : ∀ hasRes, .asserted frame hasRes ∈ log → hasRes = true

theorem Census.called {log : List (FrameEvent T)} {frame : Nat} {life : Life T}
    (census : Census log frame life)
    {caller : Option Nat} : .called caller frame ∈ log ↔ life.caller = some caller := by
  rw [← mem_callersOf, census.callers, Option.mem_toList]

theorem Census.finished {log : List (FrameEvent T)} {frame : Nat} {life : Life T}
    (census : Census log frame life) {value : T} :
    .finished frame value ∈ log ↔ life.result = some value := by
  rw [← mem_resultsOf, census.results, Option.mem_toList]

/-- What one event adds. -/
theorem Census.cons {log : List (FrameEvent T)} {frame : Nat} {before life : Life T}
    {event : FrameEvent T}
    (census : Census log frame before) (caller : (event.caller frame).toList ++
      before.caller.toList = life.caller.toList)
    (result : (event.result frame).toList ++ before.result.toList = life.result.toList)
    (delivery : (event.delivery frame).toList ++ before.delivery.toList = life.delivery.toList)
    (destructions : before.destructions + (if event.destroys frame then 1 else 0) =
      life.destructions)
    (asserted : ∀ hasRes, event = .asserted frame hasRes → hasRes = true) :
    Census (event :: log) frame life := by
  have added : ∀ {β : Type} (tells : FrameEvent T → Option β),
      (event :: log).filterMap tells = (tells event).toList ++ log.filterMap tells := by
    intro β tells
    cases told : tells event with
    | none => exact List.filterMap_cons_none told
    | some value => exact List.filterMap_cons_some told
  refine ⟨?_, ?_, ?_, ?_, fun hasRes member => ?_⟩
  · rw [callersOf, added, ← caller, ← census.callers, callersOf]
  · rw [resultsOf, added, ← result, ← census.results, resultsOf]
  · rw [deliveriesOf, added, ← delivery, ← census.deliveries, deliveriesOf]
  · rw [destructionsOf, List.countP_cons, ← destructions, ← census.destructions, destructionsOf]
  · rcases List.mem_cons.mp member with same | earlier
    · exact asserted hasRes same.symm
    · exact census.asserted hasRes earlier

/-- An event of another frame. -/
theorem Census.other {log : List (FrameEvent T)} {frame : Nat} {life : Life T}
    {event : FrameEvent T}
    (census : Census log frame life) (other : event.about ≠ frame) :
    Census (event :: log) frame life := by
  refine census.cons ?_ ?_ ?_ ?_ ?_
  all_goals
    cases event <;> simp_all [FrameEvent.about, FrameEvent.caller, FrameEvent.result,
      FrameEvent.delivery,
      FrameEvent.destroys]

section Accepted

variable [DecidableEq T]

/-- An event of the frame itself, by the life before it. -/
theorem Census.own {log : List (FrameEvent T)} {before life : Life T} {event : FrameEvent T}
    (census : Census log event.about before) (took : before.take event = some life) :
    Census (event :: log) event.about life := by
  cases event <;> cases before <;>
    simp only [Life.take, Option.some.injEq, reduceCtorEq, Option.ite_none_right_eq_some] at took
  all_goals
    first
      | subst took
      | obtain ⟨rfl, rfl⟩ := took
      | obtain ⟨⟨rfl, rfl⟩, rfl⟩ := took
    refine census.cons ?_ ?_ ?_ ?_ ?_
  all_goals
    simp [FrameEvent.about, FrameEvent.caller, FrameEvent.result, FrameEvent.delivery,
      FrameEvent.destroys, Life.caller,
      Life.result, Life.delivery, Life.destructions]

/-- The life of a frame by a log, if all of its events are in order. -/
def lifeOf : List (FrameEvent T) → Nat → Option (Life T)
  | [], _ => some .unborn
  | event :: log, frame =>
    if event.about = frame then (lifeOf log frame).bind (Life.take · event) else lifeOf log frame

theorem lifeOf_cons_self (event : FrameEvent T) (log : List (FrameEvent T)) :
    lifeOf (event :: log) event.about = (lifeOf log event.about).bind (Life.take · event) :=
  if_pos rfl

theorem lifeOf_cons_of_ne {event : FrameEvent T} {frame : Nat} (other : event.about ≠ frame)
    (log : List (FrameEvent T)) : lifeOf (event :: log) frame = lifeOf log frame := if_neg other

/-- What is in order as a whole is in order up to each event. -/
theorem lifeOf_suffix {after before : List (FrameEvent T)} {frame : Nat} {life : Life T}
    (accepted : lifeOf (after ++ before) frame = some life) :
    ∃ earlier, lifeOf before frame = some earlier := by
  induction after generalizing life with
  | nil => exact ⟨life, accepted⟩
  | cons event after ih =>
    rw [List.cons_append, lifeOf] at accepted
    by_cases own : event.about = frame
    · rw [if_pos own] at accepted
      obtain ⟨earlier, found, -⟩ := Option.bind_eq_some_iff.mp accepted
      exact ih found
    · rw [if_neg own] at accepted
      exact ih accepted

/-- The life before an event that is in order. -/
theorem lifeOf_split {after before : List (FrameEvent T)} {event : FrameEvent T} {life : Life T}
    (accepted : lifeOf (after ++ event :: before) event.about = some life) :
    ∃ earlier later, lifeOf before event.about = some earlier ∧
    earlier.take event = some later := by
  obtain ⟨later, found⟩ := lifeOf_suffix accepted
  rw [lifeOf_cons_self] at found
  obtain ⟨earlier, known, took⟩ := Option.bind_eq_some_iff.mp found
  exact ⟨earlier, later, known, took⟩

/-- **A log that is in order is counted by its life**, by induction on the log. -/
theorem census_of_lifeOf {log : List (FrameEvent T)} {frame : Nat} {life : Life T}
    (accepted : lifeOf log frame = some life) :
    Census log frame life := by
  induction log generalizing life with
  | nil =>
    obtain rfl := Option.some.inj accepted
    exact ⟨rfl, rfl, rfl, rfl, fun _ member => absurd member List.not_mem_nil⟩
  | cons event log ih =>
    rw [lifeOf] at accepted
    by_cases own : event.about = frame
    · subst own
      rw [if_pos rfl] at accepted
      obtain ⟨before, found, took⟩ := Option.bind_eq_some_iff.mp accepted
      exact (ih found).own took
    · rw [if_neg own] at accepted
      exact (ih accepted).other own

end Accepted

end Fuseuring
