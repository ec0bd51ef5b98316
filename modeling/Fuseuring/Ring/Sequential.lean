/-
**What a coroutine does on its slot is one request, served alone.**

`Engaged` is a coroutine from the slot it takes up to now, among others that do as they like: its
chains complete in order, and each operation runs on its own slot, with whatever message and
whatever backing file there are when it runs.

* `Engaged.serves` — all the time it serves a request, by the induction over what it did.
* `Engaged.served` — when it gives the slot back, it has done what `serve` does for one request.
-/

import Fuseuring.Ring.Serving

namespace Fuseuring

open Interaction

/-! ### The devices -/

/-- What a coroutine has to do with the devices: the operations that ran, the messages that were
read, and the backing file in front of each use and behind it. -/
structure Traffic where
  events : List Event
  messages : List (List UInt8)
  files : List (File × File)

namespace Traffic

def none : Traffic := ⟨[], [], []⟩

def and (traffic more : Traffic) : Traffic :=
  ⟨traffic.events ++ more.events, traffic.messages ++ more.messages, traffic.files ++ more.files⟩

/-- What one operation adds. -/
def ofRun (request : Request) (operation : Operation) (ran : World) : Traffic where
  events := ran.trace
  messages := if operation.arrives then [request.message] else []
  files := if operation.files then [(request.file, ran.file)] else []

end Traffic

/-- What the devices keep of a slot: what is in its pipe, whether the chain under way is broken, and
the traffic since the slot was taken. -/
structure Line where
  pipe : List UInt8
  cut : Bool
  traffic : Traffic

/-- **The devices complete an entry** of a chain, by its place there: its operation runs on the slot
and on the backing file as it is then, or it is cancelled because the chain is broken. -/
inductive Device (fuseIo : FuseIo) (mem : Mem) (line : Line) (file : File) (index : Nat)
    (sqe : Sqe) : Int → Mem → Line → File → Prop
  | ran (request : Request) {ran : Int × World} :
      ((⟨fuseIo, mem, line.pipe⟩ : SlotState).world request).perform request.kernel sqe = ran →
      index = 0 ∨ line.cut = false → request.wild = mem.wild → request.file = file →
      Device fuseIo mem line file index sqe ran.1 ran.2.mem
        ⟨ran.2.pipe, sqe.cuts ran.1, line.traffic.and (.ofRun request sqe.operation ran.2)⟩
        (if sqe.operation.files then ran.2.file else file)
  | cancelled : index ≠ 0 → line.cut = true →
      Device fuseIo mem line file index sqe (-ECANCELED) mem line file

/-- **A coroutine that has taken a slot**, and what the devices keep of the slot. -/
inductive Engaged (ring : FuseRing) (first : SlotState) : Solo → Line → Prop
  | takes (cut : Bool) : Engaged ring first
      ⟨⟨some (first.fuseIo, first.mem), []⟩,
        .running (reading first.fuseIo (queueFuseReadBody ring first.fuseIo))⟩
      ⟨first.pipe, cut, .none⟩
  | goesOn {solo next : Solo} {line : Line} : Engaged ring first solo line →
      Solo.Step .program solo next → Engaged ring first next line
  | completed {fuseIo : FuseIo} {mem : Mem} {own : List (Nat × Option Sqe)}
      {entries : List AwaitedEntry} {resume : List Int → Thread coroutines Int} {line line' : Line}
      {file file' : File} {index : Nat} {sqe : Sqe} {res : Int} {bytes : List UInt8} :
      Engaged ring first ⟨⟨some (fuseIo, mem), own⟩, .waiting entries resume⟩ line →
      entries[index]? = some ⟨sqe, none⟩ →
      (∀ entry ∈ entries.take index, entry.res ≠ none) →
      Device fuseIo mem line file index sqe res (mem.receive sqe.operation bytes) line' file' →
      Engaged ring first ⟨⟨some (fuseIo, mem.receive sqe.operation bytes), own⟩,
        .waiting (entries.set index ⟨sqe, some res⟩) resume⟩ line'

/-- **The coroutine has done what `serve` does for the request**, up to the calls that are made:
the operations, the slot as it is left, the message if it was read, and the backing file if it
was used. -/
structure Request.Accounts (ring : FuseRing) (first : SlotState) (request : Request) (rc : Int)
    (last : SlotState) (traffic : Traffic) : Prop where
  wild : request.wild = first.mem.wild
  rc : (serve ring first request).1 = rc
  slot : first.leftBy (serve ring first request).2 = last
  events : traffic.events = (serve ring first request).2.trace.filter Event.runs
  messages : traffic.messages = [] ∨ traffic.messages = [request.message]
  files : traffic.files = [] ∧ (serve ring first request).2.file = request.file ∨
    traffic.files = [(request.file, (serve ring first request).2.file)]

/-! ### One step -/

/-- Entries that complete in order: the next one is the first that is pending. -/
theorem next_pending {done : List AwaitedEntry} {rest : List Sqe} {index : Nat} {sqe : Sqe}
    (completed : ∀ entry ∈ done, entry.res ≠ none)
    (here : (done ++ pendingEntries rest)[index]? = some ⟨sqe, none⟩)
    (inOrder : ∀ entry ∈ (done ++ pendingEntries rest).take index, entry.res ≠ none) :
    ∃ rest', rest = sqe :: rest' ∧ index = done.length := by
  rcases Nat.lt_trichotomy index done.length with before | rfl | behind
  · rw [List.getElem?_append_left before] at here
    exact absurd rfl (completed _ (List.mem_of_getElem? here))
  · rw [List.getElem?_append_right (Nat.le_refl _), Nat.sub_self] at here
    cases rest with
    | nil => cases here
    | cons first rest' =>
      have same : (⟨first, none⟩ : AwaitedEntry) = ⟨sqe, none⟩ := Option.some.inj here
      exact ⟨rest', by rw [(AwaitedEntry.mk.inj same).1], rfl⟩
  · cases rest with
    | nil =>
      rw [pendingEntries, List.map_nil, List.append_nil] at here
      have bound := (List.getElem?_eq_some_iff.mp here).1
      omega
    | cons first rest' =>
      refine absurd rfl (inOrder ⟨first, none⟩ ?_)
      rw [List.take_append]
      refine List.mem_append_right _ ?_
      obtain ⟨more, counted⟩ := Nat.exists_eq_add_of_lt behind
      rw [counted, show done.length + more + 1 - done.length = more + 1 by omega]
      exact List.mem_cons_self

/-- It is still the same request, in which no entry is refused. -/
structure Course.Continues (course next : Course) : Prop where
  first : next.first = course.first
  wild : next.request.wild = course.request.wild
  sqe : next.request.kernel.sqe = course.request.kernel.sqe

theorem Course.Quiet.continues {course next : Course} (quiet : course.Quiet next) :
    course.Continues next := by
  refine ⟨quiet.first, ?_, ?_⟩
  · rw [quiet.request]
  · rw [quiet.request]

/-- The course has seen the traffic. -/
structure Course.Saw (course : Course) (traffic : Traffic) : Prop where
  events : traffic.events = course.events
  messages : traffic.messages = if course.arrived then [course.request.message] else []
  files : traffic.files = if course.filed then [(course.request.file, course.now.file)] else []

theorem Course.Quiet.saw {course next : Course} {traffic : Traffic} (quiet : course.Quiet next)
    (saw : course.Saw traffic) : next.Saw traffic := by
  refine ⟨saw.events.trans quiet.events.symm, ?_, ?_⟩
  · rw [quiet.arrived, quiet.request, saw.messages]
  · rw [quiet.filed, quiet.request, quiet.file, saw.files]

theorem brokenBy_pending (done : List AwaitedEntry) (rest : List Sqe) :
    brokenBy (done ++ pendingEntries rest) = brokenBy done := by
  rw [brokenBy, List.any_append, ← brokenBy]
  have silent : (pendingEntries rest).any (fun entry => entry.res.any entry.sqe.cuts) = false := by
    rw [List.any_eq_false]
    rintro _ member
    obtain ⟨sqe, -, rfl⟩ := List.mem_map.mp member
    exact Bool.noConfusion
  rw [silent, Bool.or_false]

theorem brokenBy_last (done : List AwaitedEntry) (sqe : Sqe) (res : Int) :
    brokenBy (done ++ [⟨sqe, some res⟩]) = (brokenBy done || sqe.cuts res) := by
  simp [brokenBy]

/-- The devices know whether the chain that is awaited is broken, once it is begun. -/
def Solo.Cuts (solo : Solo) (cut : Bool) : Prop :=
  ∀ hold entry entries resume, solo = ⟨hold, .waiting (entry :: entries) resume⟩ →
    entry.res ≠ none → cut = brokenBy (entry :: entries)

theorem Solo.cuts_program {solo next : Solo} (cut : Bool) (step : Solo.Step .program solo next) :
    next.Cuts cut := by
  intro hold entry entries resume waits completed
  cases step with
  | awaits move =>
    obtain ⟨-, pc⟩ := Solo.mk.inj waits
    obtain ⟨listed, -⟩ := SoloPc.waiting.inj pc
    obtain ⟨pair, -, rfl⟩ := List.mem_map.mp (listed ▸ List.mem_cons_self :
      entry ∈ List.map (fun pair : Nat × Sqe => (⟨pair.2, none⟩ : AwaitedEntry)) _)
    exact absurd rfl completed
  | _ => cases waits

section Steps

variable {ring : FuseRing} {course : Course} {fuseIo : FuseIo} {mem : Mem} {line : Line}
  {done : List AwaitedEntry} {sqe : Sqe} {rest : List Sqe} {traffic : Traffic}
  {resume resume' : List Int → Thread coroutines Int} {messages uses : Nat}

/-- An operation that runs is seen. -/
theorem Course.Saw.ran {kernel : Kernel} {slot : SlotState} {request : Request}
    (saw : course.Saw traffic) (once : sqe.operation.arrives = true → course.arrived = false)
    (only : sqe.operation.files = true → course.filed = false) :
    (course.ran kernel (slot.world request) sqe).Saw
      (traffic.and (.ofRun request sqe.operation ((slot.world request).perform kernel sqe).2)) := by
  obtain ⟨bytes, res, trace⟩ := World.perform_trace kernel (slot.world request) sqe
  refine ⟨?_, ?_, ?_⟩
  · show traffic.events ++ ((slot.world request).perform kernel sqe).2.trace =
      (course.now.trace ++ ((slot.world request).perform kernel sqe).2.trace).filter Event.runs
    rw [List.filter_append, saw.events, trace]
    rfl
  · show traffic.messages ++ (if sqe.operation.arrives then [request.message] else []) =
      if (course.arrived || sqe.operation.arrives) then
        [if sqe.operation.arrives then request.message else course.request.message] else []
    rw [saw.messages]
    by_cases arrives : sqe.operation.arrives = true
    · simp [arrives, once arrives]
    · simp [arrives]
  · show traffic.files ++ (if sqe.operation.files then [(request.file, _)] else []) =
      if (course.filed || sqe.operation.files) then
        [(if sqe.operation.files then request.file else course.request.file,
          if sqe.operation.files then _ else course.now.file)] else []
    rw [saw.files]
    by_cases files : sqe.operation.files = true
    · simp [files, only files]
    · simp [files]

/-- What is left of the messages and uses behind the next entry. -/
theorem Course.Affords.next
    (affords : course.Affords (arrivals (sqe :: rest) + messages) (filings (sqe :: rest) + uses)) :
    course.Affords (sqe.operation.arrives.toNat + (arrivals rest + messages))
      (sqe.operation.files.toNat + (filings rest + uses)) := by
  have arrives : arrivals (sqe :: rest) = sqe.operation.arrives.toNat + arrivals rest := by
    rw [arrivals, List.countP_cons, arrivals]
    cases sqe.operation.arrives <;> simp [Nat.add_comm]
  have files : filings (sqe :: rest) = sqe.operation.files.toNat + filings rest := by
    rw [filings, List.countP_cons, filings]
    cases sqe.operation.files <;> simp [Nat.add_comm]
  rw [arrives, files, Nat.add_assoc, Nat.add_assoc] at affords
  exact affords

/-- What is left behind the next entry, which ran or was cancelled. -/
theorem finishes_next {kernel : Kernel} {world after : World} {res : Int}
    (completed : ∀ entry ∈ done, entry.res ≠ none)
    (cancelled : brokenBy done = true → res = -ECANCELED ∧ after = world)
    (ran : brokenBy done = false → world.perform kernel sqe = (res, after)) :
    finishes (done ++ pendingEntries (sqe :: rest)) resume' kernel world =
      finishes ((done ++ [⟨sqe, some res⟩]) ++ pendingEntries rest) resume' kernel after := by
  have next : chainOn kernel false (done ++ ⟨sqe, none⟩ :: pendingEntries rest) world =
      chainOn kernel false (done ++ ⟨sqe, some res⟩ :: pendingEntries rest) after :=
    chainOn_next completed false cancelled ran
  have split : (done ++ [(⟨sqe, some res⟩ : AwaitedEntry)]) ++ pendingEntries rest =
      done ++ ⟨sqe, some res⟩ :: pendingEntries rest := by simp
  rw [split, finishes, finishes, ← next]
  rfl

/-- **An entry is completed.** -/
theorem Solo.Serves.completed {file file' : File} {res : Int} {mem' : Mem} {line' : Line}
    (completed : ∀ entry ∈ done, entry.res ≠ none)
    (aligned : ∀ results, Aligned fuseIo (resume results) (resume' results) (.idle messages uses))
    (shows : course.Shows fuseIo mem line.pipe [])
    (affords : course.Affords (arrivals (sqe :: rest) + messages) (filings (sqe :: rest) + uses))
    (leads : course.Leads ring (finishes (done ++ pendingEntries (sqe :: rest)) resume'))
    (saw : course.Saw line.traffic) (begun : done ≠ [] → line.cut = brokenBy done)
    (device : Device fuseIo mem line file done.length sqe res mem' line' file') :
    ∃ course', course.Continues course' ∧ course'.Saw line'.traffic ∧
      line'.cut = brokenBy (done ++ [⟨sqe, some res⟩]) ∧
      Solo.Serves ring line'.pipe ⟨⟨some (fuseIo, mem'), []⟩,
        .waiting ((done ++ [⟨sqe, some res⟩]) ++ pendingEntries rest) resume⟩ course' := by
  have answered : ∀ entry ∈ done ++ [(⟨sqe, some res⟩ : AwaitedEntry)], entry.res ≠ none := by
    intro entry member
    rcases List.mem_append.mp member with member | member
    · exact completed entry member
    · rw [List.mem_singleton.mp member]
      exact Option.some_ne_none res
  cases device with
  | cancelled behind cut =>
    have broken : brokenBy done = true := (begun fun none => behind (none ▸ rfl)).symm.trans cut
    have still : course.Affords (arrivals rest + messages) (filings rest + uses) :=
      ⟨(Nat.le_add_left _ _).trans affords.next.messages,
        (Nat.le_add_left _ _).trans affords.next.uses⟩
    refine ⟨course, ⟨rfl, rfl, rfl⟩, saw, ?_,
      .waiting answered aligned shows still fun other fits => ?_⟩
    · rw [brokenBy_last, broken, cut, Bool.true_or]
    · refine (leads other fits).trans
        (finishes_next completed (fun _ => ⟨rfl, rfl⟩) fun whole => ?_)
      exact absurd (broken.symm.trans whole) Bool.noConfusion
  | @ran request _ runs whole wild same =>
    subst runs
    have unbroken : brokenBy done = false := by
      by_cases none : done = []
      · rw [none]
        rfl
      · rcases whole with front | uncut
        · exact absurd (List.eq_nil_of_length_eq_zero front) none
        · exact (begun none).symm.trans uncut
    obtain ⟨affords', once, only⟩ := @Course.Affords.ran course
      ((⟨fuseIo, mem, line.pipe⟩ : SlotState).world request) request.kernel sqe _ _ affords.next
    have view : ((⟨fuseIo, mem, line.pipe⟩ : SlotState).world request).mem = mem := by
      show { mem with wild := request.wild } = mem
      rw [wild]
    refine ⟨course.ran request.kernel ((⟨fuseIo, mem, line.pipe⟩ : SlotState).world request) sqe,
      ⟨rfl, rfl, rfl⟩, saw.ran once only, ?_, .waiting answered aligned
        ⟨shows.slot, rfl, rfl, shows.entries, List.nodup_nil⟩ affords' fun other fits => ?_⟩
    · rw [brokenBy_last, unbroken, Bool.false_or]
    · have earlier := fits.before rfl once only
      refine (leads other earlier).trans (finishes_next completed (fun broken => ?_) fun _ => ?_)
      · exact absurd (unbroken.symm.trans broken) Bool.noConfusion
      · exact Course.perform_ran fits (shows.mem.trans view.symm) shows.pipe rfl once only

end Steps

/-! ### The whole request -/

section Engaged

variable {ring : FuseRing} {first : SlotState} {solo : Solo} {line : Line}

/-- The request before anything is known of it. -/
def Course.unknown (first : SlotState) : Course where
  first := first
  request := ⟨[], ⟨0, Bytes.ofList [], 0⟩, .full, first.mem.wild⟩
  arrived := false
  filed := false
  now := first.world ⟨[], ⟨0, Bytes.ofList [], 0⟩, .full, first.mem.wild⟩

/-- **All the time the coroutine serves a request**: by the induction over what it did. -/
theorem Engaged.serves (engaged : Engaged ring first solo line) :
    ∃ course, (Course.unknown first).Continues course ∧ course.Saw line.traffic ∧
      solo.Cuts line.cut ∧ solo.Serves ring line.pipe course := by
  induction engaged with
  | takes cut =>
    have aligned : Aligned first.fuseIo (reading first.fuseIo (queueFuseReadBody ring first.fuseIo))
        (.start (queueFuseReadBody ring first.fuseIo)) (.idle 1 1) :=
      Thread.twins_start (inStep_queueFuseReadBody ring)
    refine ⟨.unknown first, ⟨rfl, rfl, rfl⟩, ⟨rfl, rfl, rfl⟩, ?_, .running aligned
      ⟨rfl, rfl, rfl, rfl, List.nodup_nil⟩ ⟨le_rfl, le_rfl⟩ fun other fits => ?_⟩
    · intro hold entry entries resume waits
      cases waits
    · have same : (Course.unknown first).world other = first.world other := by
        show _ = { (first.world other) with mem := { first.mem with wild := other.wild } }
        rw [fits.wild]
        rfl
      rw [same]
      rfl
  | goesOn _ step ih =>
    obtain ⟨course, continues, saw, -, serves⟩ := ih
    obtain ⟨course', quiet, serves'⟩ := serves.step step
    have next := quiet.continues
    exact ⟨course', ⟨next.first.trans continues.first, next.wild.trans continues.wild,
      next.sqe.trans continues.sqe⟩, quiet.saw saw, Solo.cuts_program _ step, serves'⟩
  | @completed fuseIo mem own entries resume line line' file file' index sqe res bytes _ here
      inOrder device ih =>
    obtain ⟨course, continues, saw, cuts, serves⟩ := ih
    generalize held : (⟨some (fuseIo, mem), own⟩ : Hold) = hold at serves
    cases serves with
    | @waiting _ _ done rest _ resume' messages uses _ completed aligned shows affords leads =>
      obtain ⟨same, rfl⟩ := Hold.mk.inj held
      obtain ⟨rfl, rfl⟩ := Prod.mk.inj (Option.some.inj same)
      obtain ⟨rest', rfl, rfl⟩ := next_pending completed here inOrder
      have begun : done ≠ [] → line.cut = brokenBy done := by
        intro nonempty
        obtain ⟨entry, more, rfl⟩ := List.exists_cons_of_ne_nil nonempty
        rw [← brokenBy_pending (entry :: more) (sqe :: rest')]
        exact cuts _ entry _ _ rfl (completed entry List.mem_cons_self)
      obtain ⟨course', next, saw', cut, serves'⟩ :=
        Solo.Serves.completed completed aligned shows affords leads saw begun device
      have split : (done ++ pendingEntries (sqe :: rest')).set done.length ⟨sqe, some res⟩ =
          (done ++ [⟨sqe, some res⟩]) ++ pendingEntries rest' := by
        simp [pendingEntries]
      rw [split]
      refine ⟨course', ⟨next.first.trans continues.first, next.wild.trans continues.wild,
        next.sqe.trans continues.sqe⟩, saw', ?_, serves'⟩
      intro hold entry entries resume'' waits _
      obtain ⟨-, pc⟩ := Solo.mk.inj waits
      rw [cut, ← brokenBy_pending _ rest', (SoloPc.waiting.inj pc).1]

/-- The world of the request that is under way. -/
theorem Course.fits_self (course : Course)
    (grants : ∀ world peek, course.request.kernel.sqe world peek = true) :
    course.Fits course.request := ⟨rfl, fun _ => rfl, fun _ => rfl, grants, fun _ _ _ => rfl⟩

theorem serve_eq (ring : FuseRing) (first : SlotState) (request : Request) :
    serve ring first request =
      exec request.kernel (queueFuseReadBody ring first.fuseIo) (first.world request) := by
  show exec request.kernel (queueFuseReadBody ring first.fuseIo >>= fun rc => do
    releaseFuseIo first.fuseIo
    return rc) (first.world request) = _
  rw [exec_bind]
  rfl

/-- **When the slot is given back, one request was served.** -/
theorem Engaged.served {fuseIo slot : FuseIo} {mem : Mem} {own : List (Nat × Option Sqe)}
    {thread : Thread coroutines Int} {resume : Unit → Thread coroutines Int}
    (engaged : Engaged ring first ⟨⟨some (fuseIo, mem), own⟩, .running thread⟩ line)
    (move : thread.move = .performs (.releaseFuseIo slot) resume) :
    ∃ (request : Request) (rc : Int),
      request.Accounts ring first rc ⟨fuseIo, mem, line.pipe⟩ line.traffic ∧ slot = fuseIo ∧
      own = [] ∧ resume () = ⟨Int, pure rc, .push setRc .bottom⟩ := by
  obtain ⟨course, continues, saw, -, serves⟩ := engaged.serves
  generalize held : (⟨some (fuseIo, mem), own⟩ : Hold) = hold at serves
  cases serves with
  | @running _ _ _ thread' dues _ aligned shows affords leads =>
    obtain ⟨same, rfl⟩ := Hold.mk.inj held
    obtain ⟨rfl, rfl⟩ := Prod.mk.inj (Option.some.inj same)
    rcases Thread.Twins.move aligned with ⟨value, rfl, ended, idle⟩ | ⟨_, _, moved, -⟩ |
      ⟨_, _, _, _, _, moved, -, paired, -⟩
    · have grants : ∀ world peek, course.request.kernel.sqe world peek = true := by
        rw [continues.sqe]
        exact fun _ _ => rfl
      have outcome : serve ring first course.request = (value, course.world course.request) := by
        rw [serve_eq, ← show course.first = first from continues.first]
        exact (leads _ (course.fits_self grants)).trans (Thread.run_ended ended _)
      cases move
      refine ⟨course.request, value, ⟨continues.wild, ?_, ?_, ?_, ?_, ?_⟩, rfl, idle, rfl⟩
      · rw [outcome]
      · rw [outcome, ← show course.first = first from continues.first, SlotState.leftBy]
        show (⟨course.first.fuseIo, course.now.mem, course.now.pipe⟩ : SlotState) = _
        rw [shows.slot, shows.mem, shows.pipe]
      · rw [outcome]
        exact saw.events
      · rw [saw.messages]
        cases course.arrived
        · exact Or.inl rfl
        · exact Or.inr rfl
      · rw [saw.files, outcome, Course.world]
        cases course.filed
        · exact Or.inl ⟨rfl, rfl⟩
        · exact Or.inr rfl
    · cases moved.symm.trans move
    · cases moved.symm.trans move
      cases paired

end Engaged

end Fuseuring
