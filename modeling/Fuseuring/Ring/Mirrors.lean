/-
**The crew that the event loop mirrors.**

`Mirrors` ties the state of the event loop to a crew: the memory of a slot is that of its holder or
of the pool, the running coroutine is where the crew has it, and a pending awaiter has
the results that the crew's entries have. `Depicts` is what it says of one coroutine, and
`Progress` of the entries that one waits for.

A step moves at most one coroutine: `Depicts.frame` is for the others.
-/

import Fuseuring.Ring.Solo
import Fuseuring.Ring.Exclusive

namespace Fuseuring

open Interaction

/-! ### The relation -/

/-- The coroutine that has the control is at this thread. One that polls is still
at its `get_sqe()`. -/
def Pc.At (pc : Pc) (task : Nat) (thread : Thread coroutines Int) : Prop :=
  match pc with
  | .running task' _ thread' _ => task' = task ∧ thread' = thread
  | .polling task' _ resume _ =>
      task' = task ∧ ∃ peek, thread.move = .performs (.getSqe peek) resume
  | _ => False

/-- **How far an awaiter is**, where `awaited` are the entries of the ring that are awaited: an
entry is open, its result is in the completion queue, or it has been stored. -/
structure Progress (s : Sys) (awaited : List SqeEntry) (id : Nat)
    (awaiter : IoUringAwaiter Suspended) (entries : List AwaitedEntry) : Prop where
  length : entries.length = awaiter.res.length
  pending : ∀ entry ∈ s.flight ++ awaited, ∀ index, entry.userData = some ⟨id, index⟩ →
    ∃ sqe, entry.sqe = some sqe ∧ entries[index]? = some ⟨sqe, none⟩
  posted : ∀ cqe ∈ s.cq, ∀ index, cqe.userData = some ⟨id, index⟩ →
    ∃ sqe, entries[index]? = some ⟨sqe, some cqe.res⟩
  stored : ∀ index res, awaiter.res[index]? = some res → ⟨id, index⟩ ∉ s.unhandled awaited →
    ∃ sqe, entries[index]? = some ⟨sqe, some res⟩

/-- **What the state shows of one coroutine.** -/
structure Depicts (s : Sys) (awaited : List SqeEntry) (task : Nat) (solo : Solo) : Prop where
  slot : ∀ fuseIo mem, solo.hold.slot = some (fuseIo, mem) ↔
    (task, fuseIo) ∈ s.vals ∧ mem = s.mem fuseIo.slot
  current : s.current = some task → ∃ hold thread own, solo = ⟨hold, .running thread⟩ ∧
    s.pc.At task thread ∧ s.sq = awaited ++ own ∧ own.map SqeEntry.content = hold.own
  waiting : ∀ id awaiter, s.awaiters id = some awaiter → awaiter.awaiter.task = task →
    ∃ slot entries, solo = ⟨⟨slot, []⟩, .waiting entries awaiter.awaiter.resume⟩ ∧
      Progress s awaited id awaiter entries
  ended : s.current ≠ some task →
    (∀ id awaiter, s.awaiters id = some awaiter → awaiter.awaiter.task ≠ task) → solo.pc = .ended

/-- **The crew that the state mirrors.** -/
structure Mirrors (s : Sys) (awaited : List SqeEntry) (crew : Crew) : Prop where
  pool : crew.pool = s.ios.map fun fuseIo => (fuseIo, s.mem fuseIo.slot)
  unborn : ∀ task, crew.solos task = none ↔ s.started ≤ task
  depicts : ∀ task solo, crew.solos task = some solo → Depicts s awaited task solo

/-! ### Frame lemmas -/

section Frame

variable {s s' : Sys} {awaited awaited' : List SqeEntry} {id task : Nat} {solo : Solo}
  {awaiter : IoUringAwaiter Suspended} {entries : List AwaitedEntry} {crew : Crew}

/-- Only the entries and the completions of the awaiter matter. -/
theorem Progress.frame (progress : Progress s awaited id awaiter entries)
    (pending : ∀ entry ∈ s'.flight ++ awaited', ∀ index, entry.userData = some ⟨id, index⟩ →
      entry ∈ s.flight ++ awaited)
    (posted : ∀ cqe ∈ s'.cq, ∀ index, cqe.userData = some ⟨id, index⟩ → cqe ∈ s.cq)
    (unhandled : ∀ index, ⟨id, index⟩ ∈ s.unhandled awaited → ⟨id, index⟩ ∈ s'.unhandled awaited') :
    Progress s' awaited' id awaiter entries where
  length := progress.length
  pending := fun entry member index tagged =>
    progress.pending entry (pending entry member index tagged) index tagged
  posted := fun cqe member index tagged =>
    progress.posted cqe (posted cqe member index tagged) index tagged
  stored := fun index res found handled =>
    progress.stored index res found fun open' => handled (unhandled index open')

/-- Entries may be submitted. -/
theorem Progress.perm (progress : Progress s awaited id awaiter entries)
    (perm : (s'.flight ++ awaited').Perm (s.flight ++ awaited)) (cq : s'.cq = s.cq) :
    Progress s' awaited' id awaiter entries := by
  refine progress.frame (fun entry member _ _ => perm.mem_iff.mp member)
    (fun cqe member _ _ => cq ▸ member) fun index open' => ?_
  have same : (s'.unhandled awaited').Perm (s.unhandled awaited) := by
    rw [Sys.unhandled, Sys.unhandled, cq]
    exact List.Perm.append_left _ (perm.filterMap _)
  exact same.mem_iff.mpr open'

/-- **A coroutine that a step does not move.** -/
theorem Depicts.frame (depicts : Depicts s awaited task solo)
    (vals : ∀ fuseIo, (task, fuseIo) ∈ s'.vals ↔ (task, fuseIo) ∈ s.vals)
    (mem : ∀ fuseIo, (task, fuseIo) ∈ s.vals → s'.mem fuseIo.slot = s.mem fuseIo.slot)
    (current : s'.current = some task → s'.pc = s.pc ∧ s'.sq = s.sq ∧ awaited' = awaited)
    (away : s'.current ≠ some task → s.current ≠ some task)
    (before : ∀ id awaiter, s'.awaiters id = some awaiter → awaiter.awaiter.task = task →
      ∃ old, s.awaiters id = some old ∧ old.awaiter = awaiter.awaiter ∧
        ∀ entries, Progress s awaited id old entries → Progress s' awaited' id awaiter entries)
    (after : ∀ id old, s.awaiters id = some old → old.awaiter.task = task →
      ∃ awaiter, s'.awaiters id = some awaiter ∧ awaiter.awaiter.task = task) :
    Depicts s' awaited' task solo where
  slot := by
    intro fuseIo held
    rw [depicts.slot, vals]
    exact and_congr_right fun member => by rw [mem fuseIo member]
  current := by
    intro runs
    obtain ⟨pc, sq, same⟩ := current runs
    have ran : s.current = some task := by
      rw [Sys.current, ← pc]
      exact runs
    rw [pc, sq, same]
    exact depicts.current ran
  waiting := by
    intro id awaiter pending mine
    obtain ⟨old, found, same, progress⟩ := before id awaiter pending mine
    obtain ⟨slot, entries, rfl, kept⟩ := depicts.waiting id old found (same ▸ mine)
    rw [← same]
    exact ⟨slot, entries, rfl, progress entries kept⟩
  ended := by
    intro absent none
    refine depicts.ended (away absent) fun id old found mine => ?_
    obtain ⟨awaiter, pending, still⟩ := after id old found mine
    exact none id awaiter pending still

/-- A coroutine beside the one that has the control, where no queue changes. -/
theorem Depicts.beside (depicts : Depicts s awaited task solo)
    (vals : ∀ fuseIo, (task, fuseIo) ∈ s'.vals ↔ (task, fuseIo) ∈ s.vals)
    (mem : ∀ fuseIo, (task, fuseIo) ∈ s.vals → s'.mem fuseIo.slot = s.mem fuseIo.slot)
    (away : s.current ≠ some task) (away' : s'.current ≠ some task)
    (flight : s'.flight = s.flight) (cq : s'.cq = s.cq) (awaiters : s'.awaiters = s.awaiters) :
    Depicts s' awaited task solo := by
  refine depicts.frame vals mem (fun runs => absurd runs away') (fun _ => away) ?_ ?_
  · intro id awaiter pending mine
    rw [awaiters] at pending
    refine ⟨awaiter, pending, rfl, fun entries progress => progress.perm ?_ cq⟩
    rw [flight]
  · intro id old found mine
    exact ⟨old, awaiters ▸ found, mine⟩

/-- A coroutine that has the control behind the step. -/
theorem depicts_running {hold : Hold} {thread : Thread coroutines Int} {own : List SqeEntry}
    (slot : ∀ fuseIo mem, hold.slot = some (fuseIo, mem) ↔
      (task, fuseIo) ∈ s.vals ∧ mem = s.mem fuseIo.slot)
    (place : s.pc.At task thread) (current : s.current = some task)
    (split : s.sq = awaited ++ own) (contents : own.map SqeEntry.content = hold.own)
    (apart : ∀ id awaiter, s.awaiters id = some awaiter → awaiter.awaiter.task ≠ task) :
    Depicts s awaited task ⟨hold, .running thread⟩ where
  slot := slot
  current := fun _ => ⟨hold, thread, own, rfl, place, split, contents⟩
  waiting := fun id awaiter pending mine => absurd mine (apart id awaiter pending)
  ended := fun absent => absurd current absent

/-- **One coroutine moves.** -/
theorem Mirrors.set (mirrors : Mirrors s awaited crew) {pool : List (FuseIo × Mem)}
    (pooled : pool = s'.ios.map fun fuseIo => (fuseIo, s'.mem fuseIo.slot))
    (born : task < s'.started)
    (started : ∀ other, other ≠ task → (s.started ≤ other ↔ s'.started ≤ other))
    (new : Depicts s' awaited' task solo)
    (others : ∀ other found, other ≠ task → Depicts s awaited other found →
      Depicts s' awaited' other found) :
    Mirrors s' awaited' (Crew.set { crew with pool := pool } task solo) where
  pool := pooled
  unborn := by
    intro other
    by_cases same : other = task
    · rw [same, Crew.solos_set_self]
      exact iff_of_false (Option.some_ne_none _) (Nat.not_le.mpr born)
    · rw [Crew.solos_set_of_ne same]
      exact (mirrors.unborn other).trans (started other same)
  depicts := by
    intro other found member
    by_cases same : other = task
    · subst same
      rw [Crew.solos_set_self, Option.some.injEq] at member
      exact member ▸ new
    · rw [Crew.solos_set_of_ne same] at member
      exact others other found same (mirrors.depicts other found member)

/-- **None moves.** -/
theorem Mirrors.stay (mirrors : Mirrors s awaited crew)
    (ios : s'.ios = s.ios) (mem : s'.mem = s.mem) (started : s'.started = s.started)
    (depicts : ∀ task solo, Depicts s awaited task solo → Depicts s' awaited' task solo) :
    Mirrors s' awaited' crew where
  pool := by
    rw [ios, mem]
    exact mirrors.pool
  unborn := by
    rw [started]
    exact mirrors.unborn
  depicts := fun task solo member => depicts task solo (mirrors.depicts task solo member)

end Frame

/-! ### The entries of an awaiter -/

section Entries

variable {s : Sys} {awaited : List SqeEntry} {id index : Nat} {res : Int}
  {awaiter : IoUringAwaiter Suspended} {entries : List AwaitedEntry}

/-- The unhandled entries by where they are. -/
theorem mem_unhandled {target : UserData} : target ∈ s.unhandled awaited ↔
    (∃ cqe ∈ s.cq, cqe.userData = some target) ∨
      ∃ entry ∈ s.flight ++ awaited, entry.userData = some target := by
  rw [Sys.unhandled, List.mem_append, List.mem_filterMap, List.mem_filterMap]

/-- A completed entry stays unhandled. -/
theorem unhandled_post {place : Nat} {entry : SqeEntry} (found : s.flight[place]? = some entry)
    {s' : Sys} (flight : s'.flight = s.flight.eraseIdx place)
    (cq : s'.cq = s.cq ++ [⟨entry.userData, res⟩]) :
    ∀ target, target ∈ s.unhandled awaited → target ∈ s'.unhandled awaited := by
  obtain ⟨bound, inside⟩ := List.getElem?_eq_some_iff.mp found
  have perm : s.flight.Perm (entry :: s.flight.eraseIdx place) := by
    rw [← inside]
    exact (List.getElem_cons_eraseIdx_perm bound).symm
  intro target open'
  rw [mem_unhandled] at open' ⊢
  rw [cq, flight]
  rcases open' with ⟨cqe, member, mine⟩ | ⟨other, member, mine⟩
  · exact Or.inl ⟨cqe, List.mem_append_left _ member, mine⟩
  · rcases List.mem_append.mp member with flying | waits
    · rcases List.mem_cons.mp (perm.mem_iff.mp flying) with rfl | flying
      · exact Or.inl ⟨_, List.mem_append_right _ List.mem_cons_self, mine⟩
      · exact Or.inr ⟨other, List.mem_append_left _ flying, mine⟩
    · exact Or.inr ⟨other, List.mem_append_right _ waits, mine⟩

/-- **A result is stored.** -/
theorem Progress.store (progress : Progress s awaited id awaiter entries) {cqe : Cqe}
    {rest : List Cqe} (next : s.cq = cqe :: rest) (mine : cqe.userData = some ⟨id, index⟩)
    {s' : Sys} (flight : s'.flight = s.flight) (cq : s'.cq = rest) :
    Progress s' awaited id (awaiter.store index cqe.res) entries where
  length := progress.length.trans (List.length_set).symm
  pending := by
    rw [flight]
    exact progress.pending
  posted := by
    intro other member
    exact progress.posted other (next ▸ List.mem_cons_of_mem _ (cq ▸ member))
  stored := by
    intro position res found handled
    rw [IoUringAwaiter.store, List.getElem?_set] at found
    by_cases same : index = position
    · subst same
      rw [if_pos rfl, Option.ite_none_right_eq_some, Option.some.injEq] at found
      rw [← found.2]
      exact progress.posted cqe (next ▸ List.mem_cons_self) index mine
    · rw [if_neg same] at found
      refine progress.stored position res found fun open' => handled ?_
      rw [mem_unhandled, next] at open'
      rw [mem_unhandled, cq, flight]
      rcases open' with ⟨other, member, tagged⟩ | open'
      · rcases List.mem_cons.mp member with rfl | member
        · rw [mine, Option.some.injEq, UserData.mk.injEq] at tagged
          exact absurd tagged.2 same
        · exact Or.inl ⟨other, member, tagged⟩
      · exact Or.inr open'

/-- One of another awaiter is stored. -/
theorem Progress.rest (progress : Progress s awaited id awaiter entries) {cqe : Cqe}
    {rest : List Cqe} {target : UserData} (next : s.cq = cqe :: rest)
    (theirs : cqe.userData = some target) (different : id ≠ target.awaiter) {s' : Sys}
    (flight : s'.flight = s.flight) (cq : s'.cq = rest) :
    Progress s' awaited id awaiter entries := by
  refine progress.frame (fun entry member _ _ => flight ▸ member) ?_ ?_
  · intro other member _ _
    rw [next]
    exact List.mem_cons_of_mem _ (cq ▸ member)
  · intro index open'
    rw [mem_unhandled, next] at open'
    rw [mem_unhandled, cq, flight]
    rcases open' with ⟨other, member, tagged⟩ | open'
    · rcases List.mem_cons.mp member with rfl | member
      · rw [theirs, Option.some.injEq] at tagged
        exact absurd (congrArg UserData.awaiter tagged).symm different
      · exact Or.inl ⟨other, member, tagged⟩
    · exact Or.inr open'

/-- **All results are there** when no entry is left. -/
theorem Progress.results (progress : Progress s awaited id awaiter entries)
    (none : ∀ index, ⟨id, index⟩ ∉ s.unhandled awaited) :
    entries.map AwaitedEntry.res = awaiter.res.map some := by
  refine List.ext_getElem? fun position => ?_
  rw [List.getElem?_map, List.getElem?_map]
  cases found : awaiter.res[position]? with
  | none =>
    have outside := List.getElem?_eq_none_iff.mp found
    rw [List.getElem?_eq_none_iff.mpr (progress.length ▸ outside)]
    rfl
  | some res =>
    obtain ⟨sqe, here⟩ := progress.stored position res found (none position)
    rw [here]
    rfl

/-- **An entry is completed.** -/
theorem Progress.post (progress : Progress s awaited id awaiter entries) {place : Nat}
    {entry : SqeEntry} {sqe : Sqe} (nodup : (s.unhandled awaited).Nodup)
    (found : s.flight[place]? = some entry) (tagged : entry.userData = some ⟨id, index⟩)
    (here : entries[index]? = some ⟨sqe, none⟩) {s' : Sys}
    (flight : s'.flight = s.flight.eraseIdx place) (cq : s'.cq = s.cq ++ [⟨entry.userData, res⟩]) :
    Progress s' awaited id awaiter (entries.set index ⟨sqe, some res⟩) := by
  obtain ⟨bound, inside⟩ := List.getElem?_eq_some_iff.mp found
  have perm : s.flight.Perm (entry :: s.flight.eraseIdx place) := by
    rw [← inside]
    exact (List.getElem_cons_eraseIdx_perm bound).symm
  have once : (⟨id, index⟩ : UserData) ∉ s.cq.filterMap Cqe.userData ++
      (s.flight.eraseIdx place ++ awaited).filterMap SqeEntry.userData := by
    have moved := (perm.append_right awaited).filterMap SqeEntry.userData
    rw [List.cons_append, List.filterMap_cons_some tagged] at moved
    have turned := (List.Perm.append_left (s.cq.filterMap Cqe.userData) moved).trans
      List.perm_middle
    exact (List.nodup_cons.mp (turned.nodup_iff.mp nodup)).1
  have others : ∀ position, position ≠ index →
      (entries.set index ⟨sqe, some res⟩)[position]? = entries[position]? :=
    fun position different => List.getElem?_set_ne (Ne.symm different)
  have left : ∀ other ∈ s.flight.eraseIdx place ++ awaited, ∀ position,
      other.userData = some ⟨id, position⟩ → position ≠ index := by
    rintro other member position mine rfl
    exact once (List.mem_append_right _ (List.mem_filterMap.mpr ⟨other, member, mine⟩))
  refine ⟨(List.length_set).trans progress.length, ?_, ?_, ?_⟩
  · intro other member position mine
    rw [flight] at member
    rw [others position (left other member position mine)]
    refine progress.pending other ?_ position mine
    rcases List.mem_append.mp member with flying | waits
    · exact List.mem_append_left _ (List.mem_of_mem_eraseIdx flying)
    · exact List.mem_append_right _ waits
  · intro cqe member position mine
    rw [cq] at member
    rcases List.mem_append.mp member with before | last
    · have different : position ≠ index := by
        rintro rfl
        exact once (List.mem_append_left _ (List.mem_filterMap.mpr ⟨cqe, before, mine⟩))
      rw [others position different]
      exact progress.posted cqe before position mine
    · obtain rfl := List.mem_singleton.mp last
      rw [tagged, Option.some.injEq, UserData.mk.injEq] at mine
      obtain rfl := mine.2
      exact ⟨sqe, List.getElem?_set_self (List.getElem?_eq_some_iff.mp here).1⟩
  · intro position old stored handled
    have whole : ∀ target, target ∈ s.unhandled awaited → target ∈ s'.unhandled awaited :=
      unhandled_post found flight cq
    have different : position ≠ index := by
      rintro rfl
      refine handled (whole _ (mem_unhandled.mpr (Or.inr ⟨entry, ?_, tagged⟩)))
      exact List.mem_append_left _ (perm.mem_iff.mpr List.mem_cons_self)
    rw [others position different]
    exact progress.stored position old stored fun open' => handled (whole _ open')

end Entries

end Fuseuring
