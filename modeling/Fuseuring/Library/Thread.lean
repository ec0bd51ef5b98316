/-
**Programs on a stack of frames.**

A `Thread` is a program on the stack of the frames that await its result; `move`
takes it to its next operation, one call or return at a time. A `Contract` says
what each operation may be performed for and where a frame may return.

* `wp` — the weakest precondition of a program under a contract, with one rule per constructor.
* `Thread.Meets` — a thread that keeps the contract up to its end;
  `Thread.Meets.move` is what this says of one move.
* `Thread.run` — a thread as a function on states, with one rule per move.
-/

import Fuseuring.Library.Program

namespace Interaction

/-- **A contract**: from which states and for which answers and next states an
operation may be performed, and in which states a frame may return. -/
structure Contract (S : Signature) (δ : Type) where
  allows : (op : S.Op) → δ → (S.Answer op → δ → Prop) → Prop
  returns : δ → Prop
  mono : ∀ op state (post post' : S.Answer op → δ → Prop), (∀ answer after, post answer after →
    post' answer after) →
    allows op state post → allows op state post'

variable {S : Signature} {δ : Type} {α β γ : Type}

namespace Program

/-! ### Weakest preconditions -/

/-- The weakest precondition of a program. -/
def wp (contract : Contract S δ) : {α : Type} → Program S α → δ → (α → δ → Prop) → Prop
  | _, .ret value, state, post => post value state
  | _, .perform op rest, state, post =>
      contract.allows op state fun answer after => wp contract (rest answer) after post
  | _, .call _ _ child rest, state, post =>
      wp contract child state fun result after => contract.returns after ∧
        wp contract (rest result) after post

variable {contract : Contract S δ}

@[simp] theorem wp_ret (value : α) (state : δ) (post : α → δ → Prop) :
    wp contract (.ret value) state post = post value state := rfl

@[simp] theorem wp_ask (op : S.Op) (state : δ) (post : S.Answer op → δ → Prop) :
    wp contract (ask op) state post = contract.allows op state post := rfl

@[simp] theorem wp_await (label : S.Label) (code : S.Code) (child : Program S (S.Result code))
    (state : δ) (post : S.Result code → δ → Prop) :
    wp contract (await label code child) state post =
      wp contract child state fun result after => contract.returns after ∧ post result after := rfl

theorem wp_mono (program : Program S α) :
    ∀ {state : δ} {post post' : α → δ → Prop}, (∀ value after, post value after →
      post' value after) →
      wp contract program state post → wp contract program state post' := by
  induction program with
  | ret value => exact fun weaker holds => weaker _ _ holds
  | perform op rest ih =>
    intro state post post' weaker holds
    exact contract.mono op state _ _ (fun answer after => ih answer weaker) holds
  | call label code child rest ihChild ihRest =>
    intro state post post' weaker holds
    exact ihChild (fun result after => And.imp_right (ihRest result weaker)) holds

theorem wp_bind (program : Program S α) (next : α → Program S β) :
    ∀ (state : δ) (post : β → δ → Prop),
      wp contract (program >>= next) state post =
        wp contract program state fun value after => wp contract (next value) after post := by
  induction program with
  | ret value => exact fun _ _ => rfl
  | perform op rest ih =>
    intro state post
    show contract.allows op state _ = contract.allows op state _
    exact congrArg _ (funext fun answer => funext fun after => ih answer next after post)
  | call label code child rest _ ih =>
    intro state post
    show wp contract child state _ = wp contract child state _
    exact congrArg _ (funext fun result => funext fun after => congrArg _
      (ih result next after post))

theorem wp_pure {value : α} {state : δ} {post : α → δ → Prop} (holds : post value state) :
    wp contract (pure value) state post := holds

/-- An operation and what follows. -/
theorem wp_ask_bind (op : S.Op) (next : S.Answer op → Program S α) (state : δ)
    (post : α → δ → Prop) :
    wp contract (ask op >>= next) state post =
      contract.allows op state fun answer after => wp contract (next answer) after post := rfl

/-- **The sequencing rule**: a specification of the first part, then of the
rest from wherever it ends. -/
theorem wp_seq {program : Program S α} {next : α → Program S β} {state : δ} {post : β → δ → Prop}
    (middle : α → δ → Prop) (first : wp contract program state middle)
    (second : ∀ value after, middle value after → wp contract (next value) after post) :
    wp contract (program >>= next) state post := by
  rw [wp_bind]
  exact wp_mono program second first

/-- The rule of a test. -/
theorem wp_ite {test : Prop} [Decidable test] {yes no : Program S α} {state : δ}
    {post : α → δ → Prop}
    (holds : test → wp contract yes state post) (fails : ¬ test → wp contract no state post) :
    wp contract (if test then yes else no) state post := by
  by_cases which : test
  · rw [if_pos which]
    exact holds which
  · rw [if_neg which]
    exact fails which

end Program

/-! ### Answers of a kind -/

/-- The contract of the answers of a kind. -/
def Contract.answers (good : (op : S.Op) → S.Answer op → Prop) : Contract S Unit where
  allows := fun op _ post => ∀ answer, good op answer → post answer ()
  returns := fun _ => True
  mono := fun _ _ _ _ weaker allowed answer kind => weaker _ _ (allowed answer kind)

/-- The contract of any answers. -/
def Contract.any : Contract S Unit := .answers fun _ _ => True

/-- The answers of a run are of a kind. -/
def Program.Answers {σ : Type} (handler : Handler S σ) (good : (op : S.Op) → S.Answer op → Prop) :
    {α : Type} → Program S α → σ → Prop
  | _, .ret _, _ => True
  | _, .perform op rest, state =>
      good op (handler.answer op state).1 ∧
        Answers handler good (rest (handler.answer op state).1) (handler.answer op state).2
  | _, .call label _ child rest, state =>
      Answers handler good child (handler.enter label state) ∧
        Answers handler good (rest (run handler child (handler.enter label state)).1)
          (run handler child (handler.enter label state)).2

/-- Any answers are of the kind of all. -/
theorem Program.answers_any {σ : Type} {handler : Handler S σ} (program : Program S α) :
    ∀ state, Answers handler (fun _ _ => True) program state := by
  induction program with
  | ret value => exact fun _ => trivial
  | perform op rest ih => exact fun _ => ⟨trivial, ih _ _⟩
  | call label code child rest ihChild ihRest => exact fun _ => ⟨ihChild _, ihRest _ _⟩

/-- **What holds for the answers of a kind holds of every run with such answers.** -/
theorem Program.run_of_answers {σ : Type} {handler : Handler S σ}
    {good : (op : S.Op) → S.Answer op → Prop} (program : Program S α) :
    ∀ {post : α → Prop} {state : σ}, Answers handler good program state →
      wp (.answers good) program () (fun value _ => post value) →
      post (run handler program state).1 := by
  induction program with
  | ret value => exact fun _ holds => holds
  | perform op rest ih => exact fun given holds => ih _ given.2 (holds _ given.1)
  | call label code child rest ihChild ihRest =>
    intro post state given holds
    have ended : wp (.answers good) child () fun result _ => wp (.answers good) (rest result) ()
        fun value _ => post value :=
      wp_mono child (fun _ _ ended => ended.2) holds
    exact ihRest _ given.2 (ihChild given.1 ended)

/-- **What holds for any answers holds of every run.** -/
theorem Program.run_of_any {σ : Type} {handler : Handler S σ} (program : Program S α)
    {post : α → Prop} {state : σ} (holds : wp .any program () (fun value _ => post value)) :
    post (run handler program state).1 :=
  run_of_answers program (answers_any program state) holds

/-! ### Stacks and threads -/

/-- The frames that await a `β`; the last of them returns an `α`. -/
inductive Stack (S : Signature) (α : Type) : Type → Type 1
  | bottom : Stack S α α
  | push {β γ : Type} (rest : β → Program S γ) (below : Stack S α γ) : Stack S α β

/-- A running program and the frames that await it. -/
structure Thread (S : Signature) (α : Type) where
  Result : Type
  program : Program S Result
  stack : Stack S α Result

/-- What a thread does next. -/
inductive Move (S : Signature) (α : Type) : Type 1
  | ended (value : α)
  | performs (op : S.Op) (resume : S.Answer op → Thread S α)
  | turned (next : Thread S α)

namespace Thread

/-- A thread of one frame. -/
def start (program : Program S α) : Thread S α := ⟨α, program, .bottom⟩

/-- The running frame returns its result to the frame below. -/
def give : {β : Type} → β → Stack S α β → Move S α
  | _, value, .bottom => .ended value
  | _, value, .push rest below => .turned ⟨_, rest value, below⟩

/-- The next move: an operation, a call or a return. -/
def move : Thread S α → Move S α
  | ⟨_, .ret value, stack⟩ => give value stack
  | ⟨_, .perform op rest, stack⟩ => .performs op fun answer => ⟨_, rest answer, stack⟩
  | ⟨_, .call _ _ child rest, stack⟩ => .turned ⟨_, child, .push rest stack⟩

/-- The running frame is at its end. -/
def returning : Thread S α → Bool
  | ⟨_, .ret _, _⟩ => true
  | ⟨_, .perform _ _, _⟩ => false
  | ⟨_, .call _ _ _ _, _⟩ => false

end Thread

/-! ### Threads that keep a contract -/

variable {contract : Contract S δ} {ends : δ → Prop}

/-- What a stack owes when its top is given a result. -/
def Stack.Accepts (contract : Contract S δ) (ends : δ → Prop) : {β : Type} →
    Stack S α β → β → δ → Prop
  | _, .bottom => fun _ state => contract.returns state ∧ ends state
  | _, .push rest below => fun value state =>
      contract.returns state ∧ Program.wp contract (rest value) state (below.Accepts contract ends)

/-- The thread keeps the contract up to its end, which is in `ends`. -/
def Thread.Meets (contract : Contract S δ) (ends : δ → Prop) (thread : Thread S α)
    (state : δ) : Prop :=
  Program.wp contract thread.program state (thread.stack.Accepts contract ends)

theorem Thread.meets_start {program : Program S α} {state : δ}
    (holds : Program.wp contract program state fun _ after => contract.returns after ∧ ends after) :
    (Thread.start program).Meets contract ends state := holds

/-- **One move of a thread that keeps its contract.** -/
theorem Thread.Meets.move {thread : Thread S α} {state : δ}
    (meets : thread.Meets contract ends state) :
    match thread.move with
    | .ended _ => contract.returns state ∧ ends state
    | .performs op resume =>
      contract.allows op state fun answer after => (resume answer).Meets contract ends after
    | .turned next => next.Meets contract ends state := by
  obtain ⟨Result, program, stack⟩ := thread
  cases program with
  | ret value =>
    cases stack with
    | bottom => exact meets
    | push rest below => exact meets.2
  | perform op rest => exact meets
  | call label code child rest => exact meets

/-- A frame that returns may do so. -/
theorem Thread.Meets.returns {thread : Thread S α} {state : δ}
    (meets : thread.Meets contract ends state)
    (returns : thread.returning = true) : contract.returns state := by
  obtain ⟨Result, program, stack⟩ := thread
  cases program with
  | ret value =>
    cases stack with
    | bottom => exact meets.1
    | push rest below => exact meets.1
  | perform op rest => cases returns
  | call label code child rest => cases returns

/-! ### Running a thread -/

section Run

variable {σ : Type} (handler : Program.Handler S σ)

/-- The frames of a stack run on, from the result of the frame above. -/
def Stack.run : {β : Type} → Stack S α β → β → σ → α × σ
  | _, .bottom, value, state => (value, state)
  | _, .push rest below, value, state =>
      let returned := Program.run handler (rest value) state
      below.run returned.1 returned.2

/-- A thread as a function on states. -/
def Thread.run (thread : Thread S α) (state : σ) : α × σ :=
  let returned := Program.run handler thread.program state
  thread.stack.run handler returned.1 returned.2

@[simp] theorem Thread.run_start (program : Program S α) (state : σ) :
    (Thread.start program).run handler state = program.run handler state := rfl

variable {handler} {thread : Thread S α}

theorem Thread.run_ended {value : α} (move : thread.move = .ended value) (state : σ) :
    thread.run handler state = (value, state) := by
  obtain ⟨Result, program, stack⟩ := thread
  cases program with
  | ret result =>
    cases stack with
    | bottom =>
      cases move
      rfl
    | push rest below => cases move
  | perform op rest => cases move
  | call label code child rest => cases move

theorem Thread.run_performs {op : S.Op} {resume : S.Answer op → Thread S α}
    (move : thread.move = .performs op resume) (state : σ) :
    thread.run handler state =
      (resume (handler.answer op state).1).run handler (handler.answer op state).2 := by
  obtain ⟨Result, program, stack⟩ := thread
  cases program with
  | ret result => cases stack <;> cases move
  | perform op' rest =>
    cases move
    rfl
  | call label code child rest => cases move

/-- A turn is a return, or the entry of a coroutine. -/
theorem Thread.run_turned {next : Thread S α} (move : thread.move = .turned next) :
    ∃ entered : Option S.Label, ∀ (handler : Program.Handler S σ) (state : σ),
      thread.run handler state =
        next.run handler (entered.elim state fun label => handler.enter label state) := by
  obtain ⟨Result, program, stack⟩ := thread
  cases program with
  | ret result =>
    cases stack with
    | bottom => cases move
    | push rest below =>
      cases move
      exact ⟨none, fun handler state => rfl⟩
  | perform op rest => cases move
  | call label code child rest =>
    cases move
    exact ⟨some label, fun handler state => rfl⟩

end Run

-- a weakest precondition is taken apart by its rules only
attribute [irreducible] Program.wp

end Interaction
