/-
**Completion dispatch resumes once, with the right results.**

`Recorded` ties the log of a run to its state: what was handled is no longer
outstanding, a pending awaiter holds the results handled so far, and an awaiter
that is gone was resumed once, when all its completions were handled. Every move
keeps it, whatever the order; `completions_dispatched` reads the claim off it.
-/

import Fuseuring.Ring.Awaiter

namespace Fuseuring

universe u

variable {H : Type u}

/-! ### The log -/

/-- The completion of an entry has been handled. -/
def Done (log : List (Occurrence H)) (entry : UserData) : Prop :=
  ∃ res resumed, Occurrence.handled entry res resumed ∈ log

/-- How often the coroutine of an awaiter was resumed. -/
def resumptions (log : List (Occurrence H)) (id : Nat) : Nat := log.countP (Occurrence.resumes id)

/-- **A resumption in its place**: behind the coroutine's own await, while handling the last
completion, for the first time, with the result of every entry at the entry's position. -/
structure Resumption (before : List (Occurrence H)) (entry : UserData) (handle : H)
    (results : List Int) : Prop where
  awaited : .awaited entry.awaiter handle results.length ∈ before
  own : entry.index < results.length
  others : ∀ index < results.length, index ≠ entry.index → Done before ⟨entry.awaiter, index⟩
  last : ¬ Done before entry
  first : resumptions before entry.awaiter = 0
  results : ∀ index < results.length, ∃ res, results[index]? = some res ∧
    ∀ posted, .posted ⟨entry.awaiter, index⟩ posted ∈ before ↔ posted = res

/-- **What dispatch guarantees**: no completion finds its awaiter gone, no counter
of a pending awaiter is zero, every coroutine is resumed once if all its completions
have been handled and not before, and every resumption is in its place. -/
structure Dispatched (state : Completions H) (log : List (Occurrence H)) : Prop where
  live : ∀ entry, .dangled entry ∉ log
  counts : ∀ id awaiter, state.awaiters id = some awaiter →
    awaiter.tocomplete.toNat = outstanding state.unhandled id ∧ 0 < awaiter.tocomplete.toNat
  once : ∀ id handle count, .awaited id handle count ∈ log →
    resumptions log id ≤ 1 ∧ (resumptions log id = 1 ↔ ∀ index < count, Done log ⟨id, index⟩)
  resumed : ∀ before after entry res handle results,
    log = before ++ .handled entry res (some (handle, results)) :: after →
    Resumption before entry handle results

section Log

variable {log : List (Occurrence H)} {entry : UserData} {res : Int}

theorem done_append_awaited (id : Nat) (handle : H) (count : Nat) :
    Done (log ++ [.awaited id handle count]) entry ↔ Done log entry := by
  simp [Done]

theorem done_append_posted (other : UserData) : Done (log ++ [.posted other res]) entry ↔
    Done log entry := by
  simp [Done]

theorem done_append_handled (other : UserData) (resumed : Option (H × List Int)) :
    Done (log ++ [.handled other res resumed]) entry ↔ Done log entry ∨ entry = other := by
  constructor
  · rintro ⟨found, outcome, member⟩
    rcases List.mem_append.mp member with before | last
    · exact Or.inl ⟨found, outcome, before⟩
    · rw [List.mem_singleton, Occurrence.handled.injEq] at last
      exact Or.inr last.1
  · rintro (⟨found, outcome, member⟩ | rfl)
    · exact ⟨found, outcome, List.mem_append_left _ member⟩
    · exact ⟨res, resumed, List.mem_append_right _ List.mem_cons_self⟩

theorem resumptions_append (occurrence : Occurrence H) (id : Nat) :
    resumptions (log ++ [occurrence]) id = resumptions log id + if occurrence.resumes id
      then 1 else 0 := by
  simp [resumptions, List.countP_append, List.countP_cons]

theorem resumptions_append_quiet {occurrence : Occurrence H} {id : Nat}
    (quiet : occurrence.resumes id = false) :
    resumptions (log ++ [occurrence]) id = resumptions log id := by
  rw [resumptions_append, quiet]
  rfl

/-- The last entry of a log, or an earlier one. -/
theorem append_singleton_split {α : Type*} {list before after : List α} {last found : α}
    (split : list ++ [last] = before ++ found :: after) :
    (before = list ∧ found = last) ∨ ∃ rest, list = before ++ found :: rest := by
  rcases List.eq_nil_or_concat after with rfl | ⟨rest, other, rfl⟩
  · obtain ⟨same, found'⟩ := List.append_inj' split rfl
    exact Or.inl ⟨same.symm, (List.singleton_inj.mp found').symm⟩
  · refine Or.inr ⟨rest, ?_⟩
    rw [List.concat_eq_append, ← List.cons_append, ← List.append_assoc] at split
    exact (List.append_inj' split rfl).1

end Log

/-! ### The invariant -/

/-- **The invariant of a run.** -/
structure Recorded (state : Completions H) (log : List (Occurrence H)) : Prop where
  sound : Sound state.awaiters state.created state.unhandled
  pass : state.handled ≤ state.cq.length
  posted : ∀ entry res, .posted entry res ∈ log ↔
    (∃ resumed, .handled entry res resumed ∈ log) ∨
    (⟨some entry, res⟩ : Cqe) ∈ state.cq.drop state.handled
  done : ∀ entry, Done log entry → entry ∉ state.unhandled ∧ entry.awaiter < state.created
  pending : ∀ id awaiter, state.awaiters id = some awaiter →
    .awaited id awaiter.awaiter awaiter.res.length ∈ log ∧ resumptions log id = 0 ∧
    (∀ index < awaiter.res.length, ⟨id, index⟩ ∉ state.unhandled → Done log ⟨id, index⟩) ∧
    ∀ index res resumed, .handled ⟨id, index⟩ res resumed ∈ log → awaiter.res[index]? = some res
  settled : ∀ id handle count, .awaited id handle count ∈ log → id < state.created ∧
    ((∃ awaiter, state.awaiters id = some awaiter ∧ awaiter.awaiter = handle ∧
      awaiter.res.length = count) ∨
      (state.awaiters id = none ∧ resumptions log id = 1 ∧ ∀ index < count, Done log ⟨id, index⟩))
  unborn : ∀ id, state.created ≤ id → resumptions log id = 0
  live : ∀ entry, .dangled entry ∉ log
  resumed : ∀ before after entry res handle results,
    log = before ++ .handled entry res (some (handle, results)) :: after →
    Resumption before entry handle results

section Moves

variable {state : Completions H} {log : List (Occurrence H)}

/-- An occurrence that resumes nobody leaves the earlier resumptions in place. -/
theorem resumed_append {last : Occurrence H} (quiet : ∀ entry res handle results,
      last ≠ .handled entry res (some (handle, results)))
    (resumed : ∀ before after entry res handle results,
      log = before ++ .handled entry res (some (handle, results)) :: after →
      Resumption before entry handle results) :
    ∀ before after entry res handle results,
      log ++ [last] = before ++ .handled entry res (some (handle, results)) :: after →
        Resumption before entry handle results := by
  intro before after entry res handle results split
  rcases append_singleton_split split with ⟨-, found⟩ | ⟨rest, earlier⟩
  · exact absurd found.symm (quiet _ _ _ _)
  · exact resumed _ _ _ _ _ _ earlier

theorem recorded_idle : Recorded (Completions.idle : Completions H) [] where
  sound := sound_idle
  pass := Nat.le_refl 0
  posted := by
    intro entry res
    simp [Completions.idle]
  done := by
    rintro entry ⟨res, resumed, member⟩
    exact absurd member List.not_mem_nil
  pending := by
    intro id awaiter found
    cases found
  settled := by
    intro id handle count member
    exact absurd member List.not_mem_nil
  unborn := fun _ _ => rfl
  live := fun _ => List.not_mem_nil
  resumed := by
    intro before after entry res handle results split
    exact absurd split.symm (List.append_ne_nil_of_right_ne_nil _ (List.cons_ne_nil _ _))

theorem Completions.unhandled_await (handle : H) (count : Nat) :
    (state.await handle count).unhandled = state.unhandled ++
      IoUringAwaiter.userData state.created count := by
  rw [Completions.unhandled, Completions.unhandled, List.append_assoc]
  rfl

/-- A coroutine awaits. -/
theorem Recorded.await (recorded : Recorded state log) (handle : H) {count : Nat}
    (positive : 1 ≤ count)
    (small : count ≤ 255) :
    Recorded (state.await handle count) (log ++ [.awaited state.created handle count]) := by
  have unawaited : ∀ entry : UserData, entry.awaiter < state.created →
      entry ∉ IoUringAwaiter.userData state.created count := by
    intro entry old member
    rw [(mem_userData.mp member).1] at old
    exact absurd old (Nat.lt_irrefl _)
  refine ⟨?_, recorded.pass, ?_, ?_, ?_, ?_, ?_, ?_, ?_⟩
  · rw [Completions.unhandled_await]
    exact recorded.sound.await handle positive small
  · intro entry res
    simpa [Completions.await] using recorded.posted entry res
  · intro entry done
    rw [done_append_awaited] at done
    obtain ⟨handled, old⟩ := recorded.done entry done
    refine ⟨?_, Nat.lt_succ_of_lt old⟩
    rw [Completions.unhandled_await, List.mem_append]
    rintro (before | after)
    · exact handled before
    · exact unawaited entry old after
  · intro id awaiter found
    by_cases same : id = state.created
    · subst same
      have made : awaiter = .make handle count := by
        simpa [Completions.await] using found.symm
      subst made
      have length : (IoUringAwaiter.make handle count).res.length = count := List.length_replicate
      refine ⟨?_, ?_, ?_, ?_⟩
      · rw [length]
        exact List.mem_append_right _ List.mem_cons_self
      · rw [resumptions_append_quiet rfl]
        exact recorded.unborn _ (Nat.le_refl _)
      · intro index bound unhandled
        rw [length] at bound
        rw [Completions.unhandled_await, List.mem_append, not_or] at unhandled
        exact absurd (mem_userData.mpr ⟨rfl, bound⟩) unhandled.2
      · intro index res resumed member
        have done : Done log ⟨state.created, index⟩ :=
          (done_append_awaited state.created handle count).mp ⟨res, resumed, member⟩
        exact absurd (recorded.done _ done).2 (Nat.lt_irrefl _)
    · have found' : state.awaiters id = some awaiter := by
        simpa [Completions.await, Function.update_of_ne same] using found
      obtain ⟨awaited, none, handled, results⟩ := recorded.pending id awaiter found'
      refine ⟨List.mem_append_left _ awaited, ?_, ?_, ?_⟩
      · rw [resumptions_append_quiet rfl]
        exact none
      · intro index bound unhandled
        rw [Completions.unhandled_await, List.mem_append, not_or] at unhandled
        rw [done_append_awaited]
        exact handled index bound unhandled.1
      · intro index res resumed member
        exact results index res resumed (by simpa using member)
  · intro id other number member
    rcases List.mem_append.mp member with before | last
    · obtain ⟨old, standing⟩ := recorded.settled id other number before
      have different : id ≠ state.created := Nat.ne_of_lt old
      refine ⟨Nat.lt_succ_of_lt old, ?_⟩
      rw [resumptions_append_quiet rfl]
      simpa [Completions.await, Function.update_of_ne different, done_append_awaited] using standing
    · rw [List.mem_singleton, Occurrence.awaited.injEq] at last
      obtain ⟨rfl, rfl, rfl⟩ := last
      refine ⟨Nat.lt_succ_self _, Or.inl ⟨_, Function.update_self _ _ _, rfl,
        List.length_replicate⟩⟩
  · intro id unborn
    rw [resumptions_append_quiet rfl]
    exact recorded.unborn id (Nat.le_of_succ_le unborn)
  · intro entry member
    exact recorded.live entry (by simpa using member)
  · exact resumed_append (by simp) recorded.resumed

theorem Completions.unhandled_post (pass : state.handled ≤ state.cq.length) {place : Nat}
    {entry : UserData}
    (found : state.submitted[place]? = some entry) (res : Int) :
    state.unhandled.Perm (state.post place entry res).unhandled := by
  obtain ⟨bound, rfl⟩ := List.getElem?_eq_some_iff.mp found
  rw [Completions.unhandled, Completions.unhandled, Completions.post,
    List.drop_append_of_le_length pass,
    List.filterMap_append, List.append_assoc]
  exact (List.getElem_cons_eraseIdx_perm bound).symm.append_left _

/-- The kernel posts a completion. -/
theorem Recorded.post (recorded : Recorded state log) {place : Nat} {entry : UserData}
    (found : state.submitted[place]? = some entry) (res : Int) :
    Recorded (state.post place entry res) (log ++ [.posted entry res]) := by
  have perm := Completions.unhandled_post recorded.pass found res
  refine ⟨recorded.sound.perm perm, ?_, ?_, ?_, ?_, ?_, ?_, ?_, ?_⟩
  · rw [Completions.post, List.length_append]
    exact Nat.le_add_right_of_le recorded.pass
  · intro other value
    have before := recorded.posted other value
    rw [Completions.post, List.drop_append_of_le_length recorded.pass]
    simp only [List.mem_append, List.mem_singleton, Occurrence.posted.injEq, before,
      reduceCtorEq, or_false,
      Cqe.mk.injEq, Option.some.injEq, or_assoc]
  · intro other done
    rw [done_append_posted] at done
    rw [← perm.mem_iff]
    exact recorded.done other done
  · intro id awaiter pending
    obtain ⟨awaited, none, handled, results⟩ := recorded.pending id awaiter pending
    refine ⟨List.mem_append_left _ awaited, ?_, ?_, ?_⟩
    · rw [resumptions_append_quiet rfl]
      exact none
    · intro index bound unhandled
      rw [← perm.mem_iff] at unhandled
      rw [done_append_posted]
      exact handled index bound unhandled
    · intro index value resumed member
      exact results index value resumed (by simpa using member)
  · intro id handle count member
    obtain ⟨old, standing⟩ := recorded.settled id handle count (by simpa using member)
    refine ⟨old, ?_⟩
    rw [resumptions_append_quiet rfl]
    simpa [Completions.post, done_append_posted] using standing
  · intro id unborn
    rw [resumptions_append_quiet rfl]
    exact recorded.unborn id unborn
  · intro other member
    exact recorded.live other (by simpa using member)
  · exact resumed_append (by simp) recorded.resumed

/-- The pass is over. -/
theorem Recorded.advance (recorded : Recorded state log) : Recorded state.advance log := by
  have same : state.advance.unhandled = state.unhandled := by
    rw [Completions.unhandled, Completions.unhandled, Completions.advance, List.drop_zero]
  refine ⟨?_, Nat.zero_le _, ?_, ?_, ?_, recorded.settled, recorded.unborn, recorded.live,
    recorded.resumed⟩
  · rw [same]
    exact recorded.sound
  · intro entry res
    rw [Completions.advance, List.drop_zero]
    exact recorded.posted entry res
  · intro entry done
    rw [same]
    exact recorded.done entry done
  · intro id awaiter found
    rw [same]
    exact recorded.pending id awaiter found

end Moves

/-! ### Handling a completion -/

section Handle

variable {state : Completions H} {log : List (Occurrence H)} {entry : UserData} {res : Int}

theorem Completions.drop_handled (found : state.cq[state.handled]? = some ⟨some entry, res⟩) :
    state.cq.drop state.handled = ⟨some entry, res⟩ :: state.cq.drop (state.handled + 1) := by
  obtain ⟨bound, same⟩ := List.getElem?_eq_some_iff.mp found
  rw [List.drop_eq_getElem_cons bound, same]

theorem Completions.unhandled_handle (found : state.cq[state.handled]? = some ⟨some entry, res⟩) :
    state.unhandled = entry :: (state.handle ⟨some entry, res⟩).unhandled := by
  rw [Completions.unhandled, Completions.drop_handled found]
  rfl

/-- An entry that is handled has not been handled before. -/
theorem Recorded.undone (recorded : Recorded state log)
    (found : state.cq[state.handled]? = some ⟨some entry, res⟩) : ¬ Done log entry := by
  intro done
  refine (recorded.done entry done).1 ?_
  rw [Completions.unhandled_handle found]
  exact List.mem_cons_self

theorem Recorded.posted_handled (recorded : Recorded state log)
    (found : state.cq[state.handled]? = some ⟨some entry, res⟩) (outcome : Option (H × List Int))
    (other : UserData)
    (value : Int) :
    .posted other value ∈ log ++ [.handled entry res outcome] ↔
      (∃ resumed, .handled other value resumed ∈ log ++ [.handled entry res outcome]) ∨
        (⟨some other, value⟩ : Cqe) ∈ state.cq.drop (state.handled + 1) := by
  have before := recorded.posted other value
  rw [Completions.drop_handled found, List.mem_cons, Cqe.mk.injEq, Option.some.injEq] at before
  constructor
  · intro member
    rcases before.mp (by simpa using member) with ⟨resumed, handled⟩ | ⟨rfl, rfl⟩ | later
    · exact Or.inl ⟨resumed, List.mem_append_left _ handled⟩
    · exact Or.inl ⟨outcome, List.mem_append_right _ List.mem_cons_self⟩
    · exact Or.inr later
  · intro known
    refine List.mem_append_left _ (before.mpr ?_)
    rcases known with ⟨resumed, member⟩ | later
    · rcases List.mem_append.mp member with handled | last
      · exact Or.inl ⟨resumed, handled⟩
      · rw [List.mem_singleton, Occurrence.handled.injEq] at last
        exact Or.inr (Or.inl ⟨last.1, last.2.1⟩)
    · exact Or.inr (Or.inr later)

theorem Recorded.done_handled (recorded : Recorded state log)
    (found : state.cq[state.handled]? = some ⟨some entry, res⟩) (outcome : Option (H × List Int))
    (other : UserData)
    (done : Done (log ++ [.handled entry res outcome]) other) :
    other ∉ (state.handle ⟨some entry, res⟩).unhandled ∧ other.awaiter < state.created := by
  have split := Completions.unhandled_handle found
  have sound := recorded.sound
  rw [split] at sound
  rcases (done_append_handled entry outcome).mp done with before | rfl
  · obtain ⟨handled, old⟩ := recorded.done other before
    rw [split, List.mem_cons, not_or] at handled
    exact ⟨handled.2, old⟩
  · refine ⟨(List.nodup_cons.mp sound.nodup).1, ?_⟩
    obtain ⟨awaiter, owner, -⟩ := sound.live other List.mem_cons_self
    exact sound.fresh _ _ owner

/-- Of a pending awaiter, whatever is no longer outstanding has been handled. -/
theorem Recorded.handled_rest (recorded : Recorded state log)
    (found : state.cq[state.handled]? = some ⟨some entry, res⟩) {id : Nat}
    {awaiter : IoUringAwaiter H}
    (owner : state.awaiters id = some awaiter) {index : Nat} (bound : index < awaiter.res.length)
    (handled : ⟨id, index⟩ ∉ (state.handle ⟨some entry, res⟩).unhandled)
    (outcome : Option (H × List Int)) :
    Done (log ++ [.handled entry res outcome]) ⟨id, index⟩ := by
  rw [done_append_handled]
  by_cases same : (⟨id, index⟩ : UserData) = entry
  · exact Or.inr same
  · refine Or.inl ((recorded.pending id awaiter owner).2.2.1 index bound ?_)
    rw [Completions.unhandled_handle found, List.mem_cons, not_or]
    exact ⟨same, handled⟩

/-- The results of the awaiter, the new one included. -/
theorem Recorded.results_handled (recorded : Recorded state log)
    (found : state.cq[state.handled]? = some ⟨some entry, res⟩) {awaiter : IoUringAwaiter H}
    (owner : state.awaiters entry.awaiter = some awaiter) (bound : entry.index < awaiter.res.length)
    (outcome : Option (H × List Int)) {index : Nat} {value : Int} {resumed : Option (H × List Int)}
    (member : .handled ⟨entry.awaiter, index⟩ value resumed ∈ log ++ [.handled entry res outcome]) :
    (awaiter.res.set entry.index res)[index]? = some value := by
  rcases List.mem_append.mp member with before | last
  · have different : entry.index ≠ index := by
      rintro rfl
      exact recorded.undone found ⟨value, resumed, before⟩
    rw [List.getElem?_set_ne different]
    exact (recorded.pending _ _ owner).2.2.2 index value resumed before
  · rw [List.mem_singleton, Occurrence.handled.injEq] at last
    obtain ⟨same, rfl, -⟩ := last
    have here : index = entry.index := congrArg UserData.index same
    rw [here, List.getElem?_set_self bound]

/-- **A completion of an awaiter with further entries.** -/
theorem Recorded.stored (recorded : Recorded state log)
    (found : state.cq[state.handled]? = some ⟨some entry, res⟩) {awaiter : IoUringAwaiter H}
    (owner : state.awaiters entry.awaiter = some awaiter) (bound : entry.index < awaiter.res.length)
    (more : outstanding (state.handle ⟨some entry, res⟩).unhandled entry.awaiter ≠ 0)
    (after : (state.handle ⟨some entry, res⟩).awaiters =
      Function.update state.awaiters entry.awaiter (some (awaiter.store entry.index res))) :
    Recorded (state.handle ⟨some entry, res⟩) (log ++ [.handled entry res none]) := by
  have split := Completions.unhandled_handle found
  have sound := recorded.sound
  rw [split] at sound
  have length : (awaiter.store entry.index res).res.length = awaiter.res.length := List.length_set
  refine ⟨?_, ?_, recorded.posted_handled found none, ?_, ?_, ?_, ?_, ?_, ?_⟩
  · rw [after]
    exact sound.stored owner more
  · exact (List.getElem?_eq_some_iff.mp found).1
  · exact recorded.done_handled found none
  · intro id pending held
    rw [after] at held
    by_cases same : id = entry.awaiter
    · subst same
      rw [Function.update_self, Option.some.injEq] at held
      subst held
      obtain ⟨awaited, quiet, -⟩ := recorded.pending _ _ owner
      refine ⟨?_, ?_, ?_, ?_⟩
      · rw [length]
        exact List.mem_append_left _ awaited
      · rw [resumptions_append_quiet rfl]
        exact quiet
      · intro index inside handled
        rw [length] at inside
        exact recorded.handled_rest found owner inside handled none
      · intro index value resumed member
        exact recorded.results_handled found owner bound none member
    · rw [Function.update_of_ne same] at held
      obtain ⟨awaited, quiet, -, results⟩ := recorded.pending id pending held
      refine ⟨List.mem_append_left _ awaited, ?_, ?_, ?_⟩
      · rw [resumptions_append_quiet rfl]
        exact quiet
      · intro index inside handled
        exact recorded.handled_rest found held inside handled none
      · intro index value resumed member
        rcases List.mem_append.mp member with before | last
        · exact results index value resumed before
        · rw [List.mem_singleton, Occurrence.handled.injEq] at last
          exact absurd (congrArg UserData.awaiter last.1) same
  · intro id handle count member
    obtain ⟨old, standing⟩ := recorded.settled id handle count (by simpa using member)
    refine ⟨old, ?_⟩
    rw [resumptions_append_quiet rfl, after]
    by_cases same : id = entry.awaiter
    · subst same
      refine Or.inl ⟨_, Function.update_self _ _ _, ?_⟩
      rcases standing with ⟨pending, held, named, counted⟩ | ⟨gone, -⟩
      · rw [owner, Option.some.injEq] at held
        subst held
        exact ⟨named, length.trans counted⟩
      · rw [owner] at gone
        cases gone
    · rw [Function.update_of_ne same]
      refine standing.imp_right fun settled => ⟨settled.1, settled.2.1, ?_⟩
      intro index inside
      exact (done_append_handled entry none).mpr (Or.inl (settled.2.2 index inside))
  · intro id unborn
    rw [resumptions_append_quiet rfl]
    exact recorded.unborn id unborn
  · intro other member
    exact recorded.live other (by simpa using member)
  · exact resumed_append (by simp) recorded.resumed

/-- The resumption by the last completion is in its place. -/
theorem Recorded.resumption (recorded : Recorded state log)
    (found : state.cq[state.handled]? = some ⟨some entry, res⟩) {awaiter : IoUringAwaiter H}
    (owner : state.awaiters entry.awaiter = some awaiter) (bound : entry.index < awaiter.res.length)
    (last : outstanding (state.handle ⟨some entry, res⟩).unhandled entry.awaiter = 0) :
    Resumption log entry awaiter.awaiter (awaiter.res.set entry.index res) := by
  have split := Completions.unhandled_handle found
  have sound := recorded.sound
  rw [split] at sound
  obtain ⟨awaited, quiet, handled, results⟩ := recorded.pending _ _ owner
  have length : (awaiter.res.set entry.index res).length = awaiter.res.length := List.length_set
  have others : ∀ index < awaiter.res.length, index ≠ entry.index →
      Done log ⟨entry.awaiter, index⟩ := by
    intro index inside different
    refine handled index inside ?_
    rw [split, List.mem_cons, not_or]
    refine ⟨fun same => different (congrArg UserData.index same), ?_⟩
    intro member
    exact outstanding_eq_zero.mp last _ member rfl
  have queued : ∀ other value, (⟨some other, value⟩ : Cqe) ∈ state.cq.drop (state.handled + 1) →
      other ∈ (state.handle ⟨some entry, res⟩).unhandled := by
    intro other value member
    exact List.mem_append_left _ (List.mem_filterMap.mpr ⟨_, member, rfl⟩)
  refine ⟨by rwa [length], by rwa [length], by rwa [length], recorded.undone found, quiet, ?_⟩
  intro index inside
  rw [length] at inside
  by_cases same : index = entry.index
  · subst same
    refine ⟨res, List.getElem?_set_self bound, fun posted => ?_⟩
    rw [recorded.posted, Completions.drop_handled found, List.mem_cons, Cqe.mk.injEq]
    constructor
    · rintro (⟨resumed, member⟩ | ⟨-, same⟩ | later)
      · exact absurd ⟨posted, resumed, member⟩ (recorded.undone found)
      · exact same
      · exact absurd (queued _ _ later) (List.nodup_cons.mp sound.nodup).1
    · intro same
      exact Or.inr (Or.inl ⟨rfl, same⟩)
  · obtain ⟨value, resumed, member⟩ := others index inside same
    refine ⟨value, ?_, fun posted => ?_⟩
    · rw [List.getElem?_set_ne (Ne.symm same)]
      exact results index value resumed member
    · rw [recorded.posted, Completions.drop_handled found, List.mem_cons, Cqe.mk.injEq,
        Option.some.injEq]
      constructor
      · rintro (⟨resumed', member'⟩ | ⟨here, -⟩ | later)
        · have stored := results index posted resumed' member'
          rw [results index value resumed member, Option.some.injEq] at stored
          exact stored.symm
        · exact absurd (congrArg UserData.index here) same
        · exact absurd rfl (outstanding_eq_zero.mp last ⟨entry.awaiter, index⟩ (queued _ _ later))
      · rintro rfl
        exact Or.inl ⟨resumed, member⟩

/-- **The last completion of an awaiter.** -/
theorem Recorded.last (recorded : Recorded state log)
    (found : state.cq[state.handled]? = some ⟨some entry, res⟩) {awaiter : IoUringAwaiter H}
    (owner : state.awaiters entry.awaiter = some awaiter) (bound : entry.index < awaiter.res.length)
    (last : outstanding (state.handle ⟨some entry, res⟩).unhandled entry.awaiter = 0)
    (after : (state.handle ⟨some entry, res⟩).awaiters =
      Function.update state.awaiters entry.awaiter none) :
    Recorded (state.handle ⟨some entry, res⟩)
      (log ++ [.handled entry res (some (awaiter.awaiter, awaiter.res.set entry.index res))]) := by
  have split := Completions.unhandled_handle found
  have sound := recorded.sound
  rw [split] at sound
  have quiet : ∀ id, id ≠ entry.awaiter → Occurrence.resumes id
      (.handled entry res (some (awaiter.awaiter, awaiter.res.set entry.index res))) = false := by
    intro id different
    exact beq_eq_false_iff_ne.mpr (Ne.symm different)
  refine ⟨?_, ?_, recorded.posted_handled found _, ?_, ?_, ?_, ?_, ?_, ?_⟩
  · rw [after]
    exact sound.resumed last
  · exact (List.getElem?_eq_some_iff.mp found).1
  · exact recorded.done_handled found _
  · intro id pending held
    rw [after] at held
    by_cases same : id = entry.awaiter
    · subst same
      rw [Function.update_self] at held
      cases held
    · rw [Function.update_of_ne same] at held
      obtain ⟨awaited, none, -, results⟩ := recorded.pending id pending held
      refine ⟨List.mem_append_left _ awaited, ?_, ?_, ?_⟩
      · rw [resumptions_append_quiet (quiet id same)]
        exact none
      · intro index inside handled
        exact recorded.handled_rest found held inside handled _
      · intro index value resumed member
        rcases List.mem_append.mp member with before | final
        · exact results index value resumed before
        · rw [List.mem_singleton, Occurrence.handled.injEq] at final
          exact absurd (congrArg UserData.awaiter final.1) same
  · intro id handle count member
    obtain ⟨old, standing⟩ := recorded.settled id handle count (by simpa using member)
    refine ⟨old, ?_⟩
    rw [after]
    by_cases same : id = entry.awaiter
    · subst same
      refine Or.inr ⟨Function.update_self _ _ _, ?_, ?_⟩
      · have resumes : Occurrence.resumes entry.awaiter
            (.handled entry res (some (awaiter.awaiter, awaiter.res.set entry.index res))) = true :=
          beq_self_eq_true _
        rw [resumptions_append, (recorded.pending _ _ owner).2.1, resumes, if_pos rfl]
      · intro index inside
        rcases standing with ⟨pending, held, -, counted⟩ | ⟨gone, -⟩
        · rw [owner, Option.some.injEq] at held
          subst held
          rw [← counted] at inside
          exact recorded.handled_rest found owner inside
            (fun member => outstanding_eq_zero.mp last _ member rfl) _
        · rw [owner] at gone
          cases gone
    · rw [Function.update_of_ne same, resumptions_append_quiet (quiet id same)]
      refine standing.imp_right fun settled => ⟨settled.1, settled.2.1, ?_⟩
      intro index inside
      exact (done_append_handled entry _).mpr (Or.inl (settled.2.2 index inside))
  · intro id unborn
    have older : id ≠ entry.awaiter := by
      rintro rfl
      exact absurd (sound.fresh _ _ owner) (Nat.not_lt.mpr unborn)
    rw [resumptions_append_quiet (quiet id older)]
    exact recorded.unborn id unborn
  · intro other member
    exact recorded.live other (by simpa using member)
  · intro before later other value handle results split'
    rcases append_singleton_split split' with ⟨rfl, here⟩ | ⟨rest, earlier⟩
    · rw [Occurrence.handled.injEq, Option.some.injEq, Prod.mk.injEq] at here
      obtain ⟨rfl, -, rfl, rfl⟩ := here
      exact recorded.resumption found owner bound last
    · exact recorded.resumed _ _ _ _ _ _ earlier

/-- **Handling the next entry of the queue.** -/
theorem Recorded.handle (recorded : Recorded state log) {cqe : Cqe}
    (found : state.cq[state.handled]? = some cqe) :
    Recorded (state.handle cqe) (log ++ state.occurrence cqe) := by
  obtain ⟨userData, res⟩ := cqe
  cases userData with
  | none =>
    have same : state.cq.drop state.handled = ⟨none, res⟩ :: state.cq.drop (state.handled + 1) := by
      obtain ⟨bound, here⟩ := List.getElem?_eq_some_iff.mp found
      rw [List.drop_eq_getElem_cons bound, here]
    have unhandled : (state.handle ⟨none, res⟩).unhandled = state.unhandled := by
      rw [Completions.unhandled, Completions.unhandled, same]
      rfl
    rw [Completions.occurrence, List.append_nil]
    refine ⟨?_, ?_, ?_, ?_, ?_, recorded.settled, recorded.unborn, recorded.live, recorded.resumed⟩
    · rw [unhandled]
      exact recorded.sound
    · exact (List.getElem?_eq_some_iff.mp found).1
    · intro entry value
      rw [recorded.posted, same]
      simp [Completions.handle]
    · intro entry done
      rw [unhandled]
      exact recorded.done entry done
    · intro id awaiter owner
      rw [unhandled]
      exact recorded.pending id awaiter owner
  | some entry =>
    have sound := recorded.sound
    rw [Completions.unhandled_handle found] at sound
    obtain ⟨awaiter, owner, bound, -, outcome⟩ := sound.handled res
    by_cases last : outstanding (state.handle ⟨some entry, res⟩).unhandled entry.awaiter = 0
    · rw [if_pos last] at outcome
      have logged : state.occurrence ⟨some entry, res⟩ =
          [.handled entry res (some (awaiter.awaiter, awaiter.res.set entry.index res))] := by
        simp only [Completions.occurrence, outcome]
      rw [logged]
      refine recorded.last found owner bound last ?_
      simp only [Completions.handle, outcome]
    · rw [if_neg last] at outcome
      have logged : state.occurrence ⟨some entry, res⟩ = [.handled entry res none] := by
        simp only [Completions.occurrence, outcome]
      rw [logged]
      refine recorded.stored found owner bound last ?_
      simp only [Completions.handle, outcome]

end Handle

/-! ### Runs -/

/-- Every run keeps the invariant. -/
theorem Completions.Run.recorded {state : Completions H} {log : List (Occurrence H)}
    (run : Completions.Run state log) : Recorded state log := by
  induction run with
  | start => exact recorded_idle
  | await handle count _ positive small ih => exact ih.await handle positive small
  | post place userData res _ found ih => exact ih.post found res
  | handle cqe _ found ih => exact ih.handle found
  | advance _ _ ih => exact ih.advance

/-- **Completion dispatch**: in every run, every coroutine is resumed exactly
once, while handling the last completion of its awaiter and never before, with
the results of its entries in their order; no counter wraps. -/
theorem completions_dispatched {state : Completions H} {log : List (Occurrence H)}
    (run : Completions.Run state log) : Dispatched state log := by
  have recorded := run.recorded
  refine ⟨recorded.live, recorded.sound.counts, ?_, recorded.resumed⟩
  intro id handle count member
  rcases (recorded.settled id handle count member).2 with ⟨awaiter, owner, -,
    counted⟩ | ⟨-, once, all⟩
  · obtain ⟨-, none, -⟩ := recorded.pending id awaiter owner
    rw [none]
    refine ⟨Nat.zero_le 1, fun impossible => absurd impossible Nat.zero_ne_one, ?_⟩
    intro all
    -- a pending awaiter still has an entry out
    have waiting := recorded.sound.counts id awaiter owner
    rw [waiting.1] at waiting
    obtain ⟨entry, unhandled, named⟩ := List.countP_pos_iff.mp waiting.2
    have own : entry.awaiter = id := by simpa using named
    obtain ⟨owner', owned, inside⟩ := recorded.sound.live entry unhandled
    rw [own, owner, Option.some.injEq] at owned
    subst owned
    rw [counted] at inside
    have done := all entry.index inside
    rw [← own] at done
    exact absurd unhandled (recorded.done entry done).1
  · exact ⟨Nat.le_of_eq once, fun _ => all, fun _ => once⟩

/-- Two awaiters, over two entries and over one, completed out of order. -/
def interleaved : Completions Nat :=
  ((((Completions.idle.await 0 2).await 1 1).post 1 ⟨0, 1⟩ 7).post 1 ⟨1, 0⟩ 5).post 0 ⟨0, 0⟩ 9

theorem interleaved_dispatched :
    Dispatched (((interleaved.handle ⟨some ⟨0, 1⟩, 7⟩).handle ⟨some ⟨1, 0⟩, 5⟩).handle
      ⟨some ⟨0, 0⟩, 9⟩)
      [.awaited 0 0 2, .awaited 1 1 1, .posted ⟨0, 1⟩ 7, .posted ⟨1, 0⟩ 5, .posted ⟨0, 0⟩ 9,
        .handled ⟨0, 1⟩ 7 none, .handled ⟨1, 0⟩ 5 (some (1, [5])),
        .handled ⟨0, 0⟩ 9 (some (0, [9, 7]))] := by
  have started : Completions.Run ((Completions.idle.await 0 2).await 1 1)
      [.awaited 0 0 2, .awaited 1 1 1] :=
    .await 1 1 (.await 0 2 .start (by decide) (by decide)) (by decide) (by decide)
  have posted : Completions.Run interleaved
      [.awaited 0 0 2, .awaited 1 1 1, .posted ⟨0, 1⟩ 7, .posted ⟨1, 0⟩ 5, .posted ⟨0, 0⟩ 9] :=
    .post 0 ⟨0, 0⟩ 9 (.post 1 ⟨1, 0⟩ 5 (.post 1 ⟨0, 1⟩ 7 started rfl) rfl) rfl
  exact completions_dispatched
    (.handle ⟨some ⟨0, 0⟩, 9⟩ (.handle ⟨some ⟨1, 0⟩, 5⟩
      (.handle ⟨some ⟨0, 1⟩, 7⟩ posted rfl) rfl) rfl)

end Fuseuring
