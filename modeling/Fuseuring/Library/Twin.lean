/-
**Two programs in step.**

A program may be answered with names that it never looks into: handles, indices, places in a list.
Answered with other names it does the same. A `Pairing` says which operations are performed
together and which answers they may then have, over a ghost state that records which name stands
for which. `Twin` relates two programs that perform paired operations, whatever the paired answers
are, make the same calls and return the same value.

* `Program.twin_seq` and its siblings — the rules, one per way to build a program.
* `Thread.Twins` — two threads in step, of which the first has more to do behind its end;
  `Thread.Twins.move` is one move of both.
-/

import Fuseuring.Library.Thread

namespace Interaction

/-- **A pairing**: which two operations may be performed together in a state, and a bound on
their answers and the next state. -/
abbrev Pairing (S : Signature) (δ : Type) : Type :=
  (op op' : S.Op) → δ → (S.Answer op → S.Answer op' → δ → Prop) → Prop

variable {S : Signature} {δ : Type} {α β γ : Type}

namespace Program

/-! ### Programs -/

/-- **Two programs in step**, up to their common result. -/
inductive Twin (pairing : Pairing S δ) : {α : Type} → Program S α → Program S α → δ →
    (α → δ → Prop) → Prop
  | ret {α : Type} {value : α} {state : δ} {post : α → δ → Prop} : post value state →
      Twin pairing (.ret value) (.ret value) state post
  | perform {α : Type} {op op' : S.Op} {rest : S.Answer op → Program S α}
      {rest' : S.Answer op' → Program S α} {state : δ} {post : α → δ → Prop}
      (middle : S.Answer op → S.Answer op' → δ → Prop) : pairing op op' state middle →
      (∀ answer answer' after, middle answer answer' after →
        Twin pairing (rest answer) (rest' answer') after post) →
      Twin pairing (.perform op rest) (.perform op' rest') state post
  | call {α : Type} {label : S.Label} {code : S.Code} {child child' : Program S (S.Result code)}
      {rest rest' : S.Result code → Program S α} {state : δ} {post : α → δ → Prop}
      (middle : S.Result code → δ → Prop) : Twin pairing child child' state middle →
      (∀ result after, middle result after →
        Twin pairing (rest result) (rest' result) after post) →
      Twin pairing (.call label code child rest) (.call label code child' rest') state post

variable {pairing : Pairing S δ}

/-- **The sequencing rule.** -/
theorem twin_seq {program program' : Program S α} {next next' : α → Program S β} {state : δ}
    {middle : α → δ → Prop} {post : β → δ → Prop}
    (first : Twin pairing program program' state middle)
    (second : ∀ value after, middle value after →
      Twin pairing (next value) (next' value) after post) :
    Twin pairing (program >>= next) (program' >>= next') state post := by
  induction first with
  | ret holds => exact second _ _ holds
  | perform between paired _ ih =>
    exact .perform between paired fun answer answer' after inside => ih _ _ _ inside second
  | call between child _ _ ih =>
    exact .call between child fun result after inside => ih _ _ inside second

theorem twin_mono {program program' : Program S α} {state : δ} {post post' : α → δ → Prop}
    (holds : Twin pairing program program' state post)
    (weaker : ∀ value after, post value after → post' value after) :
    Twin pairing program program' state post' := by
  induction holds with
  | ret held => exact .ret (weaker _ _ held)
  | perform between paired _ ih =>
    exact .perform between paired fun answer answer' after inside => ih _ _ _ inside weaker
  | call between child _ _ ih =>
    exact .call between child fun result after inside => ih _ _ inside weaker

theorem twin_pure {value : α} {state : δ} {post : α → δ → Prop} (holds : post value state) :
    Twin pairing (pure value) (pure value) state post := .ret holds

/-- Two operations and what follows. -/
theorem twin_ask_bind {op op' : S.Op} {next : S.Answer op → Program S α}
    {next' : S.Answer op' → Program S α} {state : δ} {post : α → δ → Prop}
    (middle : S.Answer op → S.Answer op' → δ → Prop) (paired : pairing op op' state middle)
    (rest : ∀ answer answer' after, middle answer answer' after →
      Twin pairing (next answer) (next' answer') after post) :
    Twin pairing (ask op >>= next) (ask op' >>= next') state post := .perform middle paired rest

theorem twin_await {label : S.Label} {code : S.Code} {child child' : Program S (S.Result code)}
    {state : δ} {post : S.Result code → δ → Prop} (holds : Twin pairing child child' state post) :
    Twin pairing (await label code child) (await label code child') state post :=
  .call post holds fun _ _ inside => .ret inside

/-- The rule of a test. -/
theorem twin_ite {test : Prop} [Decidable test] {yes yes' no no' : Program S α} {state : δ}
    {post : α → δ → Prop} (holds : test → Twin pairing yes yes' state post)
    (fails : ¬ test → Twin pairing no no' state post) :
    Twin pairing (if test then yes else no) (if test then yes' else no') state post := by
  by_cases which : test
  · rw [if_pos which, if_pos which]
    exact holds which
  · rw [if_neg which, if_neg which]
    exact fails which

end Program

/-! ### Threads -/

/-- Two stacks in step, down to a frame of the first that goes on with `tail` on the stack `base`
where the second is at its end. `last` is what the frame above them does behind the result. -/
inductive Stack.Twins (pairing : Pairing S δ) (ends : β → δ → Prop) (tail : β → Program S γ)
    (base : Stack S α γ) : {ε ζ : Type} → (ε → Program S ζ) → Stack S α ζ → Stack S β ε →
    (ε → δ → Prop) → Prop
  | bottom : Twins pairing ends tail base tail base .bottom ends
  | push {ε ζ η : Type} {last : ε → Program S ζ} {below : Stack S α ζ} {below' : Stack S β ε}
      {accepts : ε → δ → Prop} {rest rest' : η → Program S ε} {post : η → δ → Prop} :
      Twins pairing ends tail base last below below' accepts →
      (∀ value state, post value state →
        Program.Twin pairing (rest value) (rest' value) state accepts) →
      Twins pairing ends tail base .ret (.push (fun value => rest value >>= last) below)
        (.push rest' below') post

/-- **Two threads in step.** -/
inductive Thread.Twins (pairing : Pairing S δ) (ends : β → δ → Prop) (tail : β → Program S γ)
    (base : Stack S α γ) : Thread S α → Thread S β → δ → Prop
  | mk {ε ζ : Type} {program program' : Program S ε} {last : ε → Program S ζ}
      {stack : Stack S α ζ} {stack' : Stack S β ε} {state : δ} {post : ε → δ → Prop} :
      Program.Twin pairing program program' state post →
      Stack.Twins pairing ends tail base last stack stack' post →
      Twins pairing ends tail base ⟨ζ, program >>= last, stack⟩ ⟨ε, program', stack'⟩ state

section Threads

variable {pairing : Pairing S δ} {ends : β → δ → Prop} {tail : β → Program S γ}
  {base : Stack S α γ} {thread : Thread S α} {thread' : Thread S β} {state : δ}

theorem Thread.twins_start {program program' : Program S β}
    (holds : Program.Twin pairing program program' state ends) :
    Twins pairing ends tail base ⟨γ, program >>= tail, base⟩ (.start program') state :=
  .mk holds .bottom

/-- **One move of both**: the second is at its end and the first goes on behind it, both call or
return, or both perform paired operations. -/
theorem Thread.Twins.move (twins : Twins pairing ends tail base thread thread' state) :
    (∃ value, thread = ⟨γ, tail value, base⟩ ∧ thread'.move = .ended value ∧ ends value state) ∨
    (∃ next next', thread.move = .turned next ∧ thread'.move = .turned next' ∧
      Twins pairing ends tail base next next' state) ∨
    ∃ op op' resume resume' middle, thread.move = .performs op resume ∧
      thread'.move = .performs op' resume' ∧ pairing op op' state middle ∧
      ∀ answer answer' after, middle answer answer' after →
        Twins pairing ends tail base (resume answer) (resume' answer') after := by
  cases twins with
  | mk programs frames =>
    cases programs with
    | ret holds =>
      cases frames with
      | bottom => exact Or.inl ⟨_, rfl, rfl, holds⟩
      | push below goesOn => exact Or.inr (Or.inl ⟨_, _, rfl, rfl, .mk (goesOn _ _ holds) below⟩)
    | perform middle paired rest =>
      refine Or.inr (Or.inr ⟨_, _, _, _, middle, rfl, rfl, paired, ?_⟩)
      exact fun answer answer' after inside => .mk (rest answer answer' after inside) frames
    | call middle child rest =>
      -- the child's result goes to the rest of this frame, which is then the top of the stack
      have above := Stack.Twins.push frames rest
      have called := Thread.Twins.mk child above
      rw [Program.bind_ret_right] at called
      exact Or.inr (Or.inl ⟨_, _, rfl, rfl, called⟩)

end Threads

end Interaction
