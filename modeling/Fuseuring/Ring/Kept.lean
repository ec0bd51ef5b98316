/-
**What every run keeps.**

A `Ghost` names what the state does not: the coroutines that wait, the entries of the ring
that are awaited, and what the running coroutine has in hand. `Kept` ties it to the state.

* `Holders` — the slots are shared out between the pool and the coroutines,
  without loss or duplicate.
* `Roster` — the pending awaiters are those of the coroutines that wait, each
  of which goes on under the discipline.
* `Queues` — what is in the ring behind the entries in hand, and whatever is submitted,
  is prepared for the slot of the coroutine whose pending awaiter it belongs to.

Each kind of step has its lemma for each of the three.
-/

import Fuseuring.Ring.Discipline
import Mathlib.Data.List.Perm.Basic
import Mathlib.Data.List.Nodup

namespace Fuseuring

open Interaction

/-- A coroutine that waits: its awaiter, the task that `run` started, its slot,
how many entries it waits for, and the stage it goes on at. -/
structure Waiting where
  id : Nat
  task : Nat
  fuseIo : FuseIo
  count : Nat
  stage : Stage

/-- The slot a waiting coroutine holds. -/
def Waiting.held (waiting : Waiting) : Nat × FuseIo := (waiting.task, waiting.fuseIo)

/-- What the state does not name. -/
structure Ghost where
  roster : List Waiting
  awaited : List SqeEntry
  task : Nat
  hand : Hand

/-- The slots that are held, by whom. -/
def Ghost.held (ghost : Ghost) : List (Nat × FuseIo) :=
  ghost.hand.fuseIo.toList.map (Prod.mk ghost.task) ++ ghost.roster.map Waiting.held

/-! ### Slots -/

/-- **The slots are shared out.** -/
structure Holders (slots : Nat) (ios : List FuseIo) (vals : List (Nat × FuseIo)) (started : Nat)
    (held : List (Nat × FuseIo)) : Prop where
  pool : (ios ++ vals.map Prod.snd).Perm ((List.range slots).map FuseIo.mk)
  shared : vals.Perm held
  tasks : (vals.map Prod.fst).Nodup
  born : ∀ holder ∈ vals, holder.1 < started

section Holders

variable {slots started task : Nat} {ios : List FuseIo} {vals held : List (Nat × FuseIo)}
  {fuseIo : FuseIo}

/-- No slot is in two places. -/
theorem Holders.nodup (holders : Holders slots ios vals started held) :
    (ios ++ vals.map Prod.snd).Nodup := by
  refine holders.pool.nodup_iff.mpr (List.Nodup.map ?_ List.nodup_range)
  intro first second same
  exact congrArg FuseIo.slot same

theorem Holders.perm (holders : Holders slots ios vals started held) {held' : List (Nat × FuseIo)}
    (perm : held.Perm held') : Holders slots ios vals started held' :=
  { holders with shared := holders.shared.trans perm }

/-- A task is started. -/
theorem Holders.start (holders : Holders slots ios vals started held) :
    Holders slots ios vals (started + 1) held :=
  { holders with born := fun holder member => Nat.lt_succ_of_lt (holders.born holder member) }

/-- `get_fuse_io`. -/
theorem Holders.enter (holders : Holders slots ios vals started held)
    (last : ios.getLast? = some fuseIo)
    (other : task ∉ vals.map Prod.fst) (born : task < started) :
    Holders slots ios.dropLast (vals ++ [(task, fuseIo)]) started ((task, fuseIo) :: held) := by
  have split : ios = ios.dropLast ++ [fuseIo] := by
    obtain ⟨front, rfl⟩ := List.getLast?_eq_some_iff.mp last
    rw [List.dropLast_concat]
  refine ⟨?_, ?_, ?_, ?_⟩
  · refine List.Perm.trans ?_ holders.pool
    conv_rhs => rw [split]
    rw [List.map_append, List.append_assoc]
    exact List.Perm.append_left _ List.perm_append_comm
  · exact List.perm_append_comm.trans (holders.shared.cons _)
  · rw [List.map_append, List.nodup_append]
    refine ⟨holders.tasks, List.nodup_singleton _, ?_⟩
    intro first member second last same
    rw [same, List.mem_singleton.mp last] at member
    exact other member
  · intro holder member
    rcases List.mem_append.mp member with before | last
    · exact holders.born holder before
    · rw [List.mem_singleton.mp last]
      exact born

/-- `release_fuse_io`. -/
theorem Holders.leave (holders : Holders slots ios vals started ((task, fuseIo) :: held)) :
    Holders slots (ios ++ [fuseIo]) (vals.erase (task, fuseIo)) started held ∧
      task ∉ (vals.erase (task, fuseIo)).map Prod.fst := by
  have member : (task, fuseIo) ∈ vals := holders.shared.mem_iff.mpr List.mem_cons_self
  have split : vals.Perm ((task, fuseIo) :: vals.erase (task, fuseIo)) :=
    List.perm_cons_erase member
  have tasks : (task :: (vals.erase (task, fuseIo)).map Prod.fst).Nodup :=
    (split.map Prod.fst).nodup_iff.mp holders.tasks
  refine ⟨⟨?_, ?_, ?_, ?_⟩, (List.nodup_cons.mp tasks).1⟩
  · refine List.Perm.trans ?_ holders.pool
    rw [List.append_assoc]
    exact ((split.map Prod.snd).symm.append_left ios)
  · exact List.Perm.cons_inv (split.symm.trans holders.shared)
  · exact (List.nodup_cons.mp tasks).2
  · exact fun holder inside => holders.born holder (List.mem_of_mem_erase inside)

end Holders

/-! ### The coroutines that wait -/

/-- The awaiter goes on with this coroutine, which keeps the discipline. -/
structure Waiting.Resumes (waiting : Waiting) (awaiter : IoUringAwaiter Suspended) : Prop where
  task : awaiter.awaiter.task = waiting.task
  count : awaiter.res.length = waiting.count
  meets : ∀ results, (awaiter.awaiter.resume results).Meets discipline Hand.Ended
    (.holding waiting.fuseIo waiting.stage)

/-- **The pending awaiters are those of the roster.** -/
structure Roster (awaiters : Nat → Option (IoUringAwaiter Suspended))
    (roster : List Waiting) : Prop where
  ids : (roster.map Waiting.id).Nodup
  waits : ∀ waiting ∈ roster, ∃ awaiter, awaiters waiting.id = some awaiter ∧
    waiting.Resumes awaiter
  listed : ∀ id awaiter, awaiters id = some awaiter → ∃ waiting ∈ roster, waiting.id = id
  sizes : ∀ waiting ∈ roster, 1 ≤ waiting.count ∧ waiting.stage.Follows waiting.count

section Roster

variable {awaiters : Nat → Option (IoUringAwaiter Suspended)} {roster : List Waiting}
  {waiting : Waiting}
  {awaiter : IoUringAwaiter Suspended}

/-- The awaiters of a roster are different. -/
theorem Roster.unique (kept : Roster awaiters roster) {other : Waiting} (member : waiting ∈ roster)
    (member' : other ∈ roster) (same : waiting.id = other.id) : waiting = other :=
  List.inj_on_of_nodup_map kept.ids member member' same

/-- A coroutine waits. -/
theorem Roster.park (kept : Roster awaiters roster) (unborn : awaiters waiting.id = none)
    (resumes : waiting.Resumes awaiter)
    (size : 1 ≤ waiting.count ∧ waiting.stage.Follows waiting.count) :
    Roster (Function.update awaiters waiting.id (some awaiter)) (waiting :: roster) := by
  have old : ∀ other ∈ roster, other.id ≠ waiting.id := by
    intro other member same
    obtain ⟨found, owner, -⟩ := kept.waits other member
    rw [same, unborn] at owner
    cases owner
  refine ⟨?_, ?_, ?_, ?_⟩
  · rw [List.map_cons, List.nodup_cons]
    refine ⟨fun member => ?_, kept.ids⟩
    obtain ⟨other, inside, same⟩ := List.mem_map.mp member
    exact old other inside same
  · intro other member
    rcases List.mem_cons.mp member with rfl | before
    · exact ⟨awaiter, Function.update_self _ _ _, resumes⟩
    · rw [Function.update_of_ne (old other before)]
      exact kept.waits other before
  · intro id found owner
    by_cases same : id = waiting.id
    · exact ⟨waiting, List.mem_cons_self, same.symm⟩
    · rw [Function.update_of_ne same] at owner
      obtain ⟨other, member, named⟩ := kept.listed id found owner
      exact ⟨other, List.mem_cons_of_mem _ member, named⟩
  · intro other member
    rcases List.mem_cons.mp member with rfl | before
    · exact size
    · exact kept.sizes other before

/-- A result arrives. -/
theorem Roster.stored (kept : Roster awaiters roster) {id : Nat}
    (owner : awaiters id = some awaiter) (index : Nat)
    (res : Int) : Roster (Function.update awaiters id (some (awaiter.store index res))) roster := by
  refine ⟨kept.ids, ?_, ?_, kept.sizes⟩
  · intro waiting member
    obtain ⟨found, owned, resumes⟩ := kept.waits waiting member
    by_cases same : waiting.id = id
    · rw [same, owner, Option.some.injEq] at owned
      subst owned
      rw [same, Function.update_self]
      refine ⟨_, rfl, resumes.task, ?_, resumes.meets⟩
      rw [IoUringAwaiter.store, List.length_set]
      exact resumes.count
    · rw [Function.update_of_ne same]
      exact ⟨found, owned, resumes⟩
  · intro other found owned
    by_cases same : other = id
    · subst same
      exact kept.listed other awaiter owner
    · rw [Function.update_of_ne same] at owned
      exact kept.listed other found owned

/-- A coroutine is resumed. -/
theorem Roster.resumed {front back : List Waiting}
    (kept : Roster awaiters (front ++ waiting :: back)) :
    Roster (Function.update awaiters waiting.id none) (front ++ back) := by
  have perm : (front ++ waiting :: back).Perm (waiting :: (front ++ back)) := List.perm_middle
  have ids := (perm.map Waiting.id).nodup_iff.mp kept.ids
  rw [List.map_cons, List.nodup_cons] at ids
  have other : ∀ rest ∈ front ++ back, rest.id ≠ waiting.id := by
    intro rest member same
    exact ids.1 (List.mem_map.mpr ⟨rest, member, same⟩)
  have inside : ∀ rest ∈ front ++ back, rest ∈ front ++ waiting :: back := by
    intro rest member
    exact perm.mem_iff.mpr (List.mem_cons_of_mem _ member)
  refine ⟨ids.2, ?_, ?_, fun rest member => kept.sizes rest (inside rest member)⟩
  · intro rest member
    rw [Function.update_of_ne (other rest member)]
    exact kept.waits rest (inside rest member)
  · intro id found owner
    by_cases same : id = waiting.id
    · rw [same, Function.update_self] at owner
      cases owner
    · rw [Function.update_of_ne same] at owner
      obtain ⟨rest, member, named⟩ := kept.listed id found owner
      rcases List.mem_cons.mp (perm.mem_iff.mp member) with rfl | before
      · exact absurd named.symm same
      · exact ⟨rest, before, named⟩

end Roster

/-! ### The queues -/

/-- The entry is prepared for the slot of a coroutine of the roster, and waited for by it. -/
def SqeEntry.Awaited (roster : List Waiting) (entry : SqeEntry) : Prop :=
  ∃ waiting ∈ roster, ∃ sqe target, entry.sqe = some sqe ∧ entry.userData = some target ∧
    target.awaiter = waiting.id ∧ ∀ fuseIo ∈ sqe.operation.fuseIos, fuseIo = waiting.fuseIo

/-- What a coroutine sees of an entry in hand. -/
def SqeEntry.content (entry : SqeEntry) : Nat × Option Sqe := (entry.index, entry.sqe)

/-- The entries whose completion has not been handled. -/
def Sys.unhandled (s : Sys) (awaited : List SqeEntry) : List UserData :=
  s.cq.filterMap Cqe.userData ++ (s.flight ++ awaited).filterMap SqeEntry.userData

/-- **The queues are in order.** -/
structure Queues (entries : Nat) (s : Sys) (ghost : Ghost) : Prop where
  queue : ∃ own, s.sq = ghost.awaited ++ own ∧ own.map SqeEntry.content = ghost.hand.own
  named : ∀ entry ∈ ghost.hand.own, ∀ sqe, entry.2 = some sqe →
    ∀ fuseIo ∈ sqe.operation.fuseIos, ghost.hand.fuseIo = some fuseIo
  awaited : ∀ entry ∈ s.flight ++ ghost.awaited, entry.Awaited ghost.roster
  owned : ∀ cqe ∈ s.cq, cqe.userData ≠ none
  sound : Sound s.awaiters s.created (s.unhandled ghost.awaited)
  places : ((s.sq ++ s.free).map SqeEntry.index).Nodup
  size : s.sq.length + s.free.length = entries
  reserved : ghost.hand.reserved ≤ s.free.length
  chain : ghost.hand.own.length + ghost.hand.reserved = 0 ∨
    ghost.hand.stage.Follows (ghost.hand.own.length + ghost.hand.reserved)

section Queues

variable {entries : Nat} {s : Sys} {ghost : Ghost}

theorem SqeEntry.Awaited.mono {entry : SqeEntry} {roster roster' : List Waiting}
    (awaited : entry.Awaited roster)
    (more : ∀ waiting ∈ roster, waiting ∈ roster') : entry.Awaited roster' := by
  obtain ⟨waiting, member, rest⟩ := awaited
  exact ⟨waiting, more waiting member, rest⟩

/-- With nothing in hand, every entry of the ring is awaited. -/
theorem Queues.sq (queues : Queues entries s ghost) (own : ghost.hand.own = []) :
    s.sq = ghost.awaited := by
  obtain ⟨rest, split, contents⟩ := queues.queue
  rw [own, List.map_eq_nil_iff] at contents
  rw [split, contents, List.append_nil]

/-- The rest of the state does not matter. -/
theorem Queues.frame (queues : Queues entries s ghost) {s' : Sys} (sq : s'.sq = s.sq)
    (free : s'.free = s.free)
    (flight : s'.flight = s.flight) (cq : s'.cq = s.cq) (awaiters : s'.awaiters = s.awaiters)
    (created : s'.created = s.created) : Queues entries s' ghost := by
  have unhandled : s'.unhandled ghost.awaited = s.unhandled ghost.awaited := by
    rw [Sys.unhandled, Sys.unhandled, cq, flight]
  refine ⟨?_, queues.named, ?_, ?_, ?_, ?_, ?_, ?_, queues.chain⟩
  · rw [sq]
    exact queues.queue
  · rw [flight]
    exact queues.awaited
  · rw [cq]
    exact queues.owned
  · rw [awaiters, created, unhandled]
    exact queues.sound
  · rw [sq, free]
    exact queues.places
  · rw [sq, free]
    exact queues.size
  · rw [free]
    exact queues.reserved

/-- With nothing in hand, the rest of the hand does not matter. -/
theorem Queues.idle (queues : Queues entries s ghost) (idle : ghost.hand.Idle)
    (task : Nat) (hand : Hand)
    (idle' : hand.Idle) : Queues entries s { ghost with task := task, hand := hand } := by
  obtain ⟨own, split, contents⟩ := queues.queue
  refine ⟨⟨own, split, ?_⟩, ?_, queues.awaited, queues.owned, queues.sound, queues.places,
    queues.size, ?_, ?_⟩
  · rw [contents, idle.own, idle'.own]
  · intro entry member
    rw [idle'.own] at member
    exact absurd member List.not_mem_nil
  · rw [idle'.reserved]
    exact Nat.zero_le _
  · exact Or.inl (by rw [idle'.own, idle'.reserved, List.length_nil])

/-- An entry is taken. -/
theorem Queues.take (queues : Queues entries s ghost) {entry : SqeEntry} {rest : List SqeEntry}
    (free : s.free = entry :: rest) {reserved : Nat} {stage : Stage} (kept : reserved ≤ rest.length)
    (follows : stage.Follows (ghost.hand.own.length + 1 + reserved)) :
    Queues entries (s.take entry rest) { ghost with hand := { ghost.hand with
      own := ghost.hand.own ++ [(entry.index, none)], reserved := reserved, stage := stage } } := by
  obtain ⟨own, split, contents⟩ := queues.queue
  refine ⟨⟨own ++ [{ entry with sqe := none }], ?_, ?_⟩, ?_, queues.awaited, queues.owned,
    queues.sound, ?_, ?_, kept,
    ?_⟩
  · rw [Sys.take, split, List.append_assoc]
  · rw [List.map_append, contents]
    rfl
  · intro taken member sqe prepared
    rcases List.mem_append.mp member with before | last
    · exact queues.named taken before sqe prepared
    · rw [List.mem_singleton.mp last] at prepared
      cases prepared
  · have places := queues.places
    rw [free] at places
    rw [Sys.take, List.append_assoc]
    simpa using places
  · have size := queues.size
    rw [free, List.length_cons] at size
    rw [Sys.take, List.length_append, List.length_singleton]
    dsimp only
    omega
  · right
    rw [List.length_append]
    exact follows

/-- The next free entry is none of those in hand. -/
theorem Queues.fresh (queues : Queues entries s ghost) {entry : SqeEntry} {rest : List SqeEntry}
    (free : s.free = entry :: rest) : entry.index ∉ ghost.hand.own.map Prod.fst := by
  obtain ⟨own, split, contents⟩ := queues.queue
  have places := queues.places
  rw [split, free, List.map_append, List.nodup_append] at places
  intro member
  rw [← contents, List.map_map] at member
  obtain ⟨other, inside, same⟩ := List.mem_map.mp member
  refine places.2.2 other.index ?_ entry.index (by simp) same
  exact List.mem_map.mpr ⟨other, List.mem_append_right _ inside, rfl⟩

/-- `io_uring_submit` takes entries. -/
theorem Queues.consume (queues : Queues entries s ghost) (own : ghost.hand.own = []) (count : Nat) :
    Queues entries (s.consume count) { ghost with awaited := ghost.awaited.drop count } := by
  have whole := queues.sq own
  have same : s.sq.take count ++ s.sq.drop count = s.sq := List.take_append_drop count s.sq
  have moved : (s.consume count).flight ++ ghost.awaited.drop count = s.flight ++
      ghost.awaited := by
    rw [Sys.consume, List.append_assoc, ← whole, same]
  refine ⟨⟨[], ?_, ?_⟩, queues.named, ?_, queues.owned, ?_, ?_, ?_, ?_, queues.chain⟩
  · rw [Sys.consume, whole, List.append_nil]
  · exact own.symm
  · rw [moved]
    exact queues.awaited
  · rw [Sys.unhandled, moved]
    exact queues.sound
  · refine (List.Perm.nodup_iff (List.Perm.map _ ?_)).mpr queues.places
    have turned : (s.sq.drop count ++ (s.free ++ s.sq.take count)).Perm
        (s.free ++ s.sq.take count ++ s.sq.drop count) := List.perm_append_comm
    rw [List.append_assoc, same] at turned
    exact turned.trans List.perm_append_comm
  · have size := queues.size
    rw [Sys.consume, List.length_drop, List.length_append, List.length_take]
    omega
  · rw [Sys.consume, List.length_append]
    exact queues.reserved.trans (Nat.le_add_right _ _)

/-- An amendment of an entry that is not there changes nothing. -/
theorem map_amend_of_notMem {list : List SqeEntry} {index : Nat} (change : SqeEntry → SqeEntry)
    (other : index ∉ list.map SqeEntry.index) :
    list.map (fun entry => if entry.index = index then change entry else entry) = list := by
  conv_rhs => rw [← List.map_id list]
  refine List.map_congr_left fun entry member => if_neg ?_
  rintro rfl
  exact other (List.mem_map.mpr ⟨entry, member, rfl⟩)

/-- An amendment leaves every entry in its place. -/
theorem places_amend (s : Sys) (index : Nat) (change : SqeEntry → SqeEntry)
    (stays : ∀ entry, (change entry).index = entry.index) :
    ((s.amend index change).sq ++ (s.amend index change).free).map SqeEntry.index =
      (s.sq ++ s.free).map SqeEntry.index := by
  have each : ∀ entry : SqeEntry, (if entry.index = index then change entry else entry).index =
      entry.index := by
    intro entry
    split
    · exact stays entry
    · rfl
  rw [Sys.amend, ← List.map_append, List.map_map]
  exact List.map_congr_left fun entry _ => each entry

/-- An `io_uring_prep_*` call on an entry in hand. -/
theorem Queues.prep (queues : Queues entries s ghost) {index : Nat} {sqe : Sqe}
    (inHand : index ∈ ghost.hand.own.map Prod.fst)
    (names : ∀ fuseIo ∈ sqe.operation.fuseIos, ghost.hand.fuseIo = some fuseIo) :
    Queues entries (s.amend index fun old => { old with sqe := some sqe })
      { ghost with hand := ghost.hand.prepare index sqe } := by
  obtain ⟨own, split, contents⟩ := queues.queue
  have places := queues.places
  have mine : index ∈ own.map SqeEntry.index := by
    rw [← contents, List.map_map] at inHand
    exact inHand
  have apart : index ∉ ghost.awaited.map SqeEntry.index := by
    rw [split, List.append_assoc, List.map_append, List.nodup_append] at places
    intro member
    refine places.2.2 index member index ?_ rfl
    rw [List.map_append]
    exact List.mem_append_left _ mine
  refine ⟨⟨own.map fun entry => if entry.index = index then { entry with sqe := some sqe }
    else entry, ?_, ?_⟩, ?_,
    queues.awaited, queues.owned, queues.sound, ?_, ?_, ?_, ?_⟩
  · rw [Sys.amend, split, List.map_append, map_amend_of_notMem _ apart]
  · rw [Hand.prepare, ← contents, List.map_map, List.map_map]
    refine List.map_congr_left fun entry _ => ?_
    show SqeEntry.content (if entry.index = index then _ else entry) =
      if entry.index = index then (index, some sqe) else entry.content
    by_cases same : entry.index = index
    · rw [if_pos same, if_pos same]
      exact congrArg (fun place => (place, some sqe)) same
    · rw [if_neg same, if_neg same]
  · intro entry member sqe' prepared
    obtain ⟨old, before, rfl⟩ := List.mem_map.mp member
    by_cases same : old.1 = index
    · rw [if_pos same, Option.some.injEq] at prepared
      subst prepared
      exact names
    · rw [if_neg same] at prepared
      exact queues.named old before sqe' prepared
  · rw [places_amend]
    · exact places
    · exact fun _ => rfl
  · rw [Sys.amend, List.length_map, List.length_map]
    exact queues.size
  · rw [Sys.amend, List.length_map]
    exact queues.reserved
  · rw [Hand.prepare, List.length_map]
    exact queues.chain

/-- An amendment of one entry of the ring. -/
theorem amend_sq {before after : List SqeEntry} {entry : SqeEntry}
    (split : s.sq = before ++ entry :: after)
    (places : ((s.sq ++ s.free).map SqeEntry.index).Nodup) (change : SqeEntry → SqeEntry) :
    s.amend entry.index change = { s with sq := before ++ change entry :: after } := by
  rw [split, List.append_assoc, List.cons_append, List.map_append, List.map_cons, List.nodup_append,
    List.nodup_cons,
    List.map_append, List.mem_append, not_or] at places
  obtain ⟨-, ⟨⟨notAfter, notFree⟩, -⟩, apart⟩ := places
  have notBefore : entry.index ∉ before.map SqeEntry.index :=
    fun member => apart entry.index member entry.index List.mem_cons_self rfl
  rw [Sys.amend, split, List.map_append, List.map_cons, if_pos rfl, map_amend_of_notMem _ notBefore,
    map_amend_of_notMem _ notAfter, map_amend_of_notMem _ notFree]

/-- The entries of an await, each with its own `user_data`. -/
def tagged (own : List SqeEntry) (targets : List UserData) : List SqeEntry :=
  (own.zip targets).map fun pair => { pair.1 with userData := some pair.2 }

/-- The constructor of the awaiter tags the entries at the end of the ring. -/
theorem tag_own (own : List SqeEntry) :
    ∀ (s : Sys) (before : List SqeEntry) (targets : List UserData),
    s.sq = before ++ own → own.length = targets.length →
    ((s.sq ++ s.free).map SqeEntry.index).Nodup →
    s.tag (own.map fun entry => some entry.index) targets =
      { s with sq := before ++ tagged own targets } := by
  induction own with
  | nil =>
    intro s before targets split _ _
    show s = _
    rw [tagged, List.zip_nil_left, List.map_nil, ← split]
  | cons entry own ih =>
    intro s before targets split lengths places
    cases targets with
    | nil => cases lengths
    | cons target targets =>
      have amended := amend_sq split places fun entry => { entry with userData := some target }
      have places' := places_amend s entry.index
        (fun entry => { entry with userData := some target }) fun _ => rfl
      rw [List.map_cons, Sys.tag, ih _ (before ++ [{ entry with userData := some target }]) targets]
      · rw [amended]
        simp [tagged]
      · rw [amended, List.append_assoc]
        rfl
      · exact Nat.succ.inj lengths
      · rw [places']
        exact places

theorem tagged_userData {own : List SqeEntry} {targets : List UserData}
    (lengths : own.length = targets.length) :
    (tagged own targets).filterMap SqeEntry.userData = targets := by
  rw [tagged, List.filterMap_map]
  show (own.zip targets).filterMap (fun pair => some pair.2) = targets
  rw [List.filterMap_eq_map']
  exact List.map_snd_zip lengths.ge

theorem tagged_index {own : List SqeEntry} {targets : List UserData}
    (lengths : own.length = targets.length) :
    (tagged own targets).map SqeEntry.index = own.map SqeEntry.index := by
  have firsts : (own.zip targets).map Prod.fst = own := List.map_fst_zip lengths.le
  rw [tagged, List.map_map]
  conv_rhs => rw [← firsts, List.map_map]
  rfl

/-- The state behind a `co_await io.complete(..)`. -/
def Sys.park (s : Sys) (refs : List SqeRef) (handle : Suspended) : Sys :=
  { s.tag refs (IoUringAwaiter.userData s.created refs.length) with
    awaiters := Function.update s.awaiters s.created (some (.make handle refs.length))
    created := s.created + 1 }

/-- The entries in hand are tagged where they are. -/
theorem Queues.tag (queues : Queues entries s ghost) {refs : List SqeRef}
    (all : refs = ghost.hand.own.map fun entry => some entry.1) :
    ∃ own, s.sq = ghost.awaited ++ own ∧ own.map SqeEntry.content = ghost.hand.own ∧
      own.length = (IoUringAwaiter.userData s.created refs.length).length ∧
      s.tag refs (IoUringAwaiter.userData s.created refs.length) =
        { s with
          sq := ghost.awaited ++ tagged own (IoUringAwaiter.userData s.created refs.length) } := by
  obtain ⟨own, split, contents⟩ := queues.queue
  have refs' : refs = own.map fun entry => some entry.index := by
    rw [all, ← contents, List.map_map]
    rfl
  have lengths : own.length = (IoUringAwaiter.userData s.created refs.length).length := by
    rw [IoUringAwaiter.userData, List.length_map, List.length_range, refs', List.length_map]
  have tags := tag_own own s ghost.awaited _ split lengths queues.places
  rw [← refs'] at tags
  exact ⟨own, split, contents, lengths, tags⟩

/-- The coroutine waits for all its entries. -/
theorem Queues.park (queues : Queues entries s ghost) {refs : List SqeRef}
    {fuseIo : FuseIo} {hand : Hand}
    (all : refs = ghost.hand.own.map fun entry => some entry.1) (nonempty : ghost.hand.own ≠ [])
    (prepared : ∀ entry ∈ ghost.hand.own, entry.2 ≠ none) (slot : ghost.hand.fuseIo = some fuseIo)
    (idle : hand.Idle) (handle : Suspended) :
    Queues entries (s.park refs handle)
      ⟨⟨s.created, ghost.task, fuseIo, refs.length, ghost.hand.stage⟩ :: ghost.roster,
        (s.park refs handle).sq,
        ghost.task, hand⟩ := by
  obtain ⟨own, split, contents, lengths, tag⟩ := queues.tag all
  have sq : (s.park refs handle).sq = ghost.awaited ++ tagged own
      (IoUringAwaiter.userData s.created refs.length) := by
    rw [Sys.park, tag]
  have free : (s.park refs handle).free = s.free := by rw [Sys.park, tag]
  have flight : (s.park refs handle).flight = s.flight := by rw [Sys.park, tag]
  have cq : (s.park refs handle).cq = s.cq := by rw [Sys.park, tag]
  have positive : 1 ≤ refs.length := by
    rw [all, List.length_map]
    exact List.length_pos_iff.mpr nonempty
  have three : refs.length ≤ 3 := by
    rw [all, List.length_map]
    rcases queues.chain with none | follows
    · omega
    · exact (Nat.le_add_right _ _).trans follows.three
  refine ⟨⟨[], (List.append_nil _).symm, idle.own.symm⟩, ?_, ?_, ?_, ?_, ?_, ?_, ?_, ?_⟩
  · intro entry member
    rw [idle.own] at member
    exact absurd member List.not_mem_nil
  · intro entry member
    rw [flight, sq, ← List.append_assoc] at member
    rcases List.mem_append.mp member with before | new
    · exact (queues.awaited entry before).mono fun _ => List.mem_cons_of_mem _
    · obtain ⟨pair, inside, rfl⟩ := List.mem_map.mp new
      obtain ⟨mine, target⟩ := List.of_mem_zip inside
      have content : pair.1.content ∈ ghost.hand.own := by
        rw [← contents]
        exact List.mem_map_of_mem mine
      obtain ⟨sqe, done⟩ := Option.ne_none_iff_exists'.mp (prepared _ content)
      refine ⟨_, List.mem_cons_self, sqe, pair.2, done, rfl, (mem_userData.mp target).1,
        fun named inside' => ?_⟩
      have own := queues.named _ content sqe done named inside'
      rw [slot, Option.some.injEq] at own
      exact own.symm
  · rw [cq]
    exact queues.owned
  · have sound := queues.sound.await handle positive (three.trans (by decide))
    rw [Sys.unhandled, cq, flight, sq, ← List.append_assoc, List.filterMap_append,
      tagged_userData lengths,
      ← List.append_assoc]
    exact sound
  · rw [sq, free, List.append_assoc, List.map_append, List.map_append, tagged_index lengths,
      ← List.map_append,
      ← List.map_append, ← List.append_assoc, ← split]
    exact queues.places
  · have places : (tagged own (IoUringAwaiter.userData s.created refs.length)).length =
        own.length := by
      rw [tagged, List.length_map, List.length_zip, ← lengths, Nat.min_self]
    rw [sq, free, List.length_append, places, ← List.length_append, ← split]
    exact queues.size
  · rw [idle.reserved]
    exact Nat.zero_le _
  · exact Or.inl (by rw [idle.own, idle.reserved, List.length_nil])

/-- The kernel completes an entry. -/
theorem Queues.post (queues : Queues entries s ghost) {place : Nat} {entry : SqeEntry} (res : Int)
    (found : s.flight[place]? = some entry) :
    Queues entries
      { s with flight := s.flight.eraseIdx place, cq := s.cq ++ [⟨entry.userData, res⟩] }
      ghost := by
  obtain ⟨bound, here⟩ := List.getElem?_eq_some_iff.mp found
  have perm : s.flight.Perm (entry :: s.flight.eraseIdx place) := by
    rw [← here]
    exact (List.getElem_cons_eraseIdx_perm bound).symm
  obtain ⟨waiting, member, sqe, target, prepared, tagged, named⟩ := queues.awaited entry
    (List.mem_append_left _ (perm.mem_iff.mpr List.mem_cons_self))
  refine ⟨queues.queue, queues.named, ?_, ?_, ?_, queues.places, queues.size,
    queues.reserved, queues.chain⟩
  · intro other inside
    refine queues.awaited other ?_
    rcases List.mem_append.mp inside with flying | waits
    · exact List.mem_append_left _ (List.mem_of_mem_eraseIdx flying)
    · exact List.mem_append_right _ waits
  · intro cqe inside
    rcases List.mem_append.mp inside with before | last
    · exact queues.owned cqe before
    · rw [List.mem_singleton.mp last, tagged]
      exact Option.some_ne_none _
  · have moved := (perm.append_right ghost.awaited).filterMap SqeEntry.userData
    have posted : (s.cq ++ [Cqe.mk entry.userData res]).filterMap Cqe.userData =
        s.cq.filterMap Cqe.userData ++ [target] := by
      rw [List.filterMap_append, tagged]
      rfl
    refine queues.sound.perm ?_
    rw [Sys.unhandled, Sys.unhandled, posted, List.append_assoc]
    refine List.Perm.append_left _ (moved.trans (List.Perm.of_eq ?_))
    rw [List.cons_append, List.filterMap_cons_some tagged]
    rfl

/-- **What a completion does**: its awaiter is there, and is resumed if this
was the last of its entries, none of which waits in the ring then. -/
theorem Queues.handled (queues : Queues entries s ghost) {cqe : Cqe} {rest : List Cqe}
    (next : s.cq = cqe :: rest) :
    ∃ (target : UserData) (awaiter : IoUringAwaiter Suspended),
    s.awaiters target.awaiter = some awaiter ∧
      ((fuseuringHandleCqe s.awaiters cqe =
          .stored (Function.update s.awaiters target.awaiter
            (some (awaiter.store target.index cqe.res))) ∧
        Queues entries { s with
          cq := rest
          awaiters := Function.update s.awaiters target.awaiter
            (some (awaiter.store target.index cqe.res)) } ghost) ∨
      (fuseuringHandleCqe s.awaiters cqe = .resumed awaiter.awaiter
        (awaiter.res.set target.index cqe.res)
          (Function.update s.awaiters target.awaiter none) ∧
        (∀ entry ∈ ghost.awaited, ∀ target', entry.userData = some target' →
          target'.awaiter ≠ target.awaiter) ∧
        ∀ roster, (∀ waiting ∈ ghost.roster, waiting.id ≠ target.awaiter → waiting ∈ roster) →
          Queues entries
            { s with cq := rest, awaiters := Function.update s.awaiters target.awaiter none }
            { ghost with roster := roster })) := by
  obtain ⟨userData, res⟩ := cqe
  obtain ⟨target, rfl⟩ := Option.ne_none_iff_exists'.mp
    (queues.owned ⟨userData, res⟩ (next ▸ List.mem_cons_self))
  have others : ∀ cqe ∈ rest, cqe.userData ≠ none :=
    fun cqe member => queues.owned cqe (next ▸ List.mem_cons_of_mem _ member)
  have sound := queues.sound
  rw [Sys.unhandled, next] at sound
  obtain ⟨awaiter, owner, -, -, outcome⟩ := sound.handled res
  refine ⟨target, awaiter, owner, ?_⟩
  by_cases last : outstanding (rest.filterMap Cqe.userData ++
      (s.flight ++ ghost.awaited).filterMap SqeEntry.userData) target.awaiter = 0
  · right
    have quiet : ∀ entry ∈ s.flight ++ ghost.awaited, ∀ target', entry.userData = some target' →
        target'.awaiter ≠ target.awaiter := by
      intro entry member target' tagged
      refine outstanding_eq_zero.mp last target' (List.mem_append_right _ ?_)
      exact List.mem_filterMap.mpr ⟨entry, member, tagged⟩
    refine ⟨outcome.trans (if_pos last), fun entry member => quiet entry
      (List.mem_append_right _ member), ?_⟩
    intro roster covers
    refine ⟨queues.queue, queues.named, ?_, others, sound.resumed last, queues.places, queues.size,
      queues.reserved,
      queues.chain⟩
    intro entry member
    obtain ⟨waiting, inside, sqe, target', prepared, tagged, named, names⟩ :=
      queues.awaited entry member
    have different := quiet entry member target' tagged
    rw [named] at different
    exact ⟨waiting, covers waiting inside different, sqe, target', prepared, tagged, named, names⟩
  · left
    exact ⟨outcome.trans (if_neg last), queues.queue, queues.named, queues.awaited, others,
      sound.stored owner last,
      queues.places, queues.size, queues.reserved, queues.chain⟩

end Queues

end Fuseuring
