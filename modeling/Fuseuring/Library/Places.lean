/-
**Places in a program where more is allowed.**

A `Place` is a property of programs that does not depend on what follows them. `Terms` are a
contract, and a second one that replaces it at a place.

* `wpAt` — the weakest precondition of a program under terms, with one rule per constructor.
* `Thread.MeetsAt` — a thread that keeps the terms up to its end; `Thread.MeetsAt.move` says of
  each operation that the contract allows it, or else the place and the second contract do.
-/

import Fuseuring.Library.Thread

namespace Interaction

/-- **A place**: a property of programs that stays with whatever follows. -/
structure Place (S : Signature) where
  here : {α : Type} → Program S α → Prop
  bind : ∀ {α β : Type} {program : Program S α} (next : α → Program S β), here program →
    here (program >>= next)

/-- A contract, and a second one for a place. -/
structure Terms (S : Signature) (δ : Type) where
  contract : Contract S δ
  place : Place S
  exempt : Contract S δ

variable {S : Signature} {δ : Type} {α β : Type}

/-- An operation is allowed by the contract, or at the place by the second one. -/
def Terms.Allows (terms : Terms S δ) (program : Program S α) (op : S.Op) (state : δ)
    (post : S.Answer op → δ → Prop) : Prop :=
  terms.contract.allows op state post ∨
    terms.place.here program ∧ terms.exempt.allows op state post

theorem Terms.Allows.mono {terms : Terms S δ} {program : Program S α} {op : S.Op} {state : δ}
    {post post' : S.Answer op → δ → Prop} (allowed : terms.Allows program op state post)
    (weaker : ∀ answer after, post answer after → post' answer after) :
    terms.Allows program op state post' :=
  allowed.imp (terms.contract.mono op state _ _ weaker)
    (And.imp_right (terms.exempt.mono op state _ _ weaker))

namespace Program

/-! ### Weakest preconditions -/

/-- The weakest precondition of a program under terms. -/
def wpAt (terms : Terms S δ) : {α : Type} → Program S α → δ → (α → δ → Prop) → Prop
  | _, .ret value, state, post => post value state
  | _, .perform op rest, state, post =>
      terms.Allows (.perform op rest) op state fun answer after => wpAt terms
        (rest answer) after post
  | _, .call _ _ child rest, state, post =>
      wpAt terms child state fun result after => terms.contract.returns after ∧
        wpAt terms (rest result) after post

variable {terms : Terms S δ}

@[simp] theorem wpAt_await (label : S.Label) (code : S.Code) (child : Program S (S.Result code))
    (state : δ) (post : S.Result code → δ → Prop) :
    wpAt terms (await label code child) state post =
      wpAt terms child state fun result after => terms.contract.returns after ∧
        post result after := rfl

theorem wpAt_mono (program : Program S α) :
    ∀ {state : δ} {post post' : α → δ → Prop}, (∀ value after, post value after →
      post' value after) →
      wpAt terms program state post → wpAt terms program state post' := by
  induction program with
  | ret value => exact fun weaker holds => weaker _ _ holds
  | perform op rest ih =>
    intro state post post' weaker holds
    exact Terms.Allows.mono holds fun answer after => ih answer weaker
  | call label code child rest ihChild ihRest =>
    intro state post post' weaker holds
    exact ihChild (fun result after => And.imp_right (ihRest result weaker)) holds

/-- **The sequencing rule**: a specification of the first part, then of the rest from wherever it
ends. A place of the first part is one of the whole. -/
theorem wpAt_seq {program : Program S α} {next : α → Program S β} {post : β → δ → Prop} :
    ∀ {state : δ} (middle : α → δ → Prop), wpAt terms program state middle →
      (∀ value after, middle value after → wpAt terms (next value) after post) →
      wpAt terms (program >>= next) state post := by
  induction program with
  | ret value => exact fun middle first second => second _ _ first
  | perform op rest ih =>
    intro state middle first second
    rcases first with allowed | ⟨here, allowed⟩
    · exact .inl (terms.contract.mono op state _ _
        (fun answer after holds => ih answer middle holds second) allowed)
    · exact .inr ⟨terms.place.bind next here, terms.exempt.mono op state _ _
        (fun answer after holds => ih answer middle holds second) allowed⟩
  | call label code child rest _ ih =>
    intro state middle first second
    exact wpAt_mono child (fun result after => And.imp_right fun holds =>
      ih result middle holds second) first

theorem wpAt_pure {value : α} {state : δ} {post : α → δ → Prop} (holds : post value state) :
    wpAt terms (pure value) state post := holds

/-- An operation that the contract allows, and what follows. -/
theorem wpAt_ask_bind {op : S.Op} {next : S.Answer op → Program S α} {state : δ}
    {post : α → δ → Prop}
    (allowed : terms.contract.allows op state fun answer after => wpAt terms
      (next answer) after post) :
    wpAt terms (ask op >>= next) state post := .inl allowed

/-- An operation at the place, and what follows. -/
theorem wpAt_here {op : S.Op} {next : S.Answer op → Program S α} {state : δ}
    {post : α → δ → Prop} (here : terms.place.here (ask op >>= next))
    (allowed : terms.exempt.allows op state fun answer after => wpAt terms
      (next answer) after post) :
    wpAt terms (ask op >>= next) state post := .inr ⟨here, allowed⟩

/-- The rule of a test. -/
theorem wpAt_ite {test : Prop} [Decidable test] {yes no : Program S α} {state : δ}
    {post : α → δ → Prop}
    (holds : test → wpAt terms yes state post) (fails : ¬ test → wpAt terms no state post) :
    wpAt terms (if test then yes else no) state post := by
  by_cases which : test
  · rw [if_pos which]
    exact holds which
  · rw [if_neg which]
    exact fails which

end Program

/-! ### Threads that keep terms -/

variable {terms : Terms S δ} {ends : δ → Prop}

/-- What a stack owes when its top is given a result. -/
def Stack.AcceptsAt (terms : Terms S δ) (ends : δ → Prop) : {β : Type} →
    Stack S α β → β → δ → Prop
  | _, .bottom => fun _ state => terms.contract.returns state ∧ ends state
  | _, .push rest below => fun value state => terms.contract.returns state ∧
      Program.wpAt terms (rest value) state (below.AcceptsAt terms ends)

/-- The thread keeps the terms up to its end, which is in `ends`. -/
def Thread.MeetsAt (terms : Terms S δ) (ends : δ → Prop) (thread : Thread S α)
    (state : δ) : Prop :=
  Program.wpAt terms thread.program state (thread.stack.AcceptsAt terms ends)

theorem Thread.meetsAt_start {program : Program S α} {state : δ}
    (holds : Program.wpAt terms program state fun _ after => terms.contract.returns after ∧
      ends after) :
    (Thread.start program).MeetsAt terms ends state := holds

/-- **One move of a thread that keeps its terms.** -/
theorem Thread.MeetsAt.move {thread : Thread S α} {state : δ}
    (meets : thread.MeetsAt terms ends state) :
    match thread.move with
    | .ended _ => terms.contract.returns state ∧ ends state
    | .performs op resume =>
      terms.Allows thread.program op state fun answer after =>
        (resume answer).MeetsAt terms ends after
    | .turned next => next.MeetsAt terms ends state := by
  obtain ⟨Result, program, stack⟩ := thread
  cases program with
  | ret value =>
    cases stack with
    | bottom => exact meets
    | push rest below => exact meets.2
  | perform op rest => exact meets
  | call label code child rest => exact meets

-- a weakest precondition is taken apart by its rules only
attribute [irreducible] Program.wpAt

end Interaction
