/-
**Programs that ask their environment for answers.**

A `Program` over a `Signature` is a tree: it returns, performs an operation and goes on with the
answer, or calls a further program (a coroutine with a label and a coded result type) and goes on
with its result. Calls stay visible in the tree, so that a machine may give each of them a frame.

* `run` — one answer per operation from a state: the program as a function; `run_relates` is its
  induction rule.
-/

namespace Interaction

/-- The operations of a program, their answers, and the names and result types of the coroutines it
may call. -/
structure Signature where
  Op : Type
  Answer : Op → Type
  Label : Type
  Code : Type
  Result : Code → Type

/-- A program over a signature. -/
inductive Program (S : Signature) : Type → Type 1
  | ret {α : Type} (value : α) : Program S α
  | perform {α : Type} (op : S.Op) (rest : S.Answer op → Program S α) : Program S α
  | call {α : Type} (label : S.Label) (code : S.Code) (child : Program S (S.Result code))
      (rest : S.Result code → Program S α) : Program S α

namespace Program

variable {S : Signature} {α β : Type}

/-- Sequencing inside one frame. -/
def bind : Program S α → (α → Program S β) → Program S β
  | .ret value, next => next value
  | .perform op rest, next => .perform op fun answer => (rest answer).bind next
  | .call label code child rest, next =>
    .call label code child fun result => (rest result).bind next

instance : Monad (Program S) where
  pure := .ret
  bind := Program.bind

@[simp] theorem pure_eq (value : α) : (pure value : Program S α) = .ret value := rfl

@[simp] theorem bind_ret (value : α) (next : α → Program S β) :
    (.ret value >>= next) = next value :=
  rfl

@[simp] theorem bind_perform (op : S.Op) (rest : S.Answer op → Program S α)
    (next : α → Program S β) :
    (.perform op rest >>= next) = .perform op fun answer => rest answer >>= next := rfl

@[simp] theorem bind_call (label : S.Label) (code : S.Code) (child : Program S (S.Result code))
    (rest : S.Result code → Program S α) (next : α → Program S β) :
    (.call label code child rest >>= next) = .call label code child
      fun result => rest result >>= next :=
  rfl

theorem bind_assoc {γ : Type} (program : Program S α) (next : α → Program S β)
    (further : β → Program S γ) :
    (program >>= next) >>= further = program >>= fun value => next value >>= further := by
  induction program with
  | ret value => rfl
  | perform op rest ih =>
    exact congrArg (Program.perform op) (funext fun answer => ih answer next)
  | call label code child rest _ ih =>
    exact congrArg (Program.call label code child) (funext fun result => ih result next)

theorem bind_ret_right (program : Program S α) : program >>= .ret = program := by
  induction program with
  | ret value => rfl
  | perform op rest ih => exact congrArg (Program.perform op) (funext ih)
  | call label code child rest _ ih => exact congrArg (Program.call label code child) (funext ih)

/-- One operation, its answer returned. -/
def ask (op : S.Op) : Program S (S.Answer op) := .perform op .ret

/-- One call, its result returned. -/
def await (label : S.Label) (code : S.Code) (child : Program S (S.Result code)) :
    Program S (S.Result code) := .call label code child .ret

/-! ### Running against a handler -/

section Run

variable {σ : Type}

/-- A total interpretation: an answer per operation, and what entering a coroutine records. -/
structure Handler (S : Signature) (σ : Type) where
  answer : (op : S.Op) → σ → S.Answer op × σ
  enter : S.Label → σ → σ

/-- The program as a function on states. -/
def run (handler : Handler S σ) : {α : Type} → Program S α → σ → α × σ
  | _, .ret value, state => (value, state)
  | _, .perform op rest, state =>
      let answered := handler.answer op state
      run handler (rest answered.1) answered.2
  | _, .call label _ child rest, state =>
      let returned := run handler child (handler.enter label state)
      run handler (rest returned.1) returned.2

variable (handler : Handler S σ)

@[simp] theorem run_ret (value : α) (state : σ) : run handler (.ret value) state = (value, state) :=
  rfl

theorem run_bind (program : Program S α) (next : α → Program S β) (state : σ) :
    run handler (program >>= next) state =
      run handler (next (run handler program state).1) (run handler program state).2 := by
  induction program generalizing state with
  | ret value => rfl
  | perform op rest ih => exact ih _ _ _
  | call label code child rest _ ih => exact ih _ _ _

@[simp] theorem run_ask (op : S.Op) (state : σ) : run handler
    (ask op) state = handler.answer op state :=
  rfl

@[simp] theorem run_await (label : S.Label) (code : S.Code) (child : Program S (S.Result code))
    (state : σ) : run handler (await label code child) state = run handler child
      (handler.enter label state) :=
  rfl

/-- **The run rule**: what every answer and every entry keeps, a run keeps. -/
theorem run_relates {relates : σ → σ → Prop} (refl : ∀ state, relates state state)
    (trans : ∀ first second third, relates first second → relates second third →
      relates first third)
    (answers : ∀ op state, relates state (handler.answer op state).2)
    (enters : ∀ label state, relates state (handler.enter label state)) (program : Program S α) :
    ∀ state, relates state (run handler program state).2 := by
  induction program with
  | ret value => exact refl
  | perform op rest ih =>
    intro state
    exact trans _ _ _ (answers op state) (ih _ _)
  | call label code child rest ihChild ihRest =>
    intro state
    exact trans _ _ _ (enters label state) (trans _ _ _ (ihChild _) (ihRest _ _))

end Run

end Program

end Interaction
