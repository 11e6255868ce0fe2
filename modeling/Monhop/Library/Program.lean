import Mathlib

/-! # Programs with state and failure

`Program State Error Value` is a stateful computation that may fail; a failure keeps the
state it was raised in.  `Ensures` says what a run from one state leaves.  The `ensures`
equations execute the constructs of a program; `Ensures.mono` replaces a call by what is
known of it, so a caller never unfolds what it calls.

`Moves` is for what holds between the two ends of a run whatever its result: a `Trail` is
a reflexive and transitive relation on states, and a program moves along it when its parts
do.
-/

namespace Monhop.Library

/-- A stateful computation that may fail. -/
abbrev Program (State Error Value : Type) := ExceptT Error (StateM State) Value

namespace Program

variable {State Error Value Result : Type}

/-- The result and the state a run from `state` leaves. -/
def exec (program : Program State Error Value) (state : State) : Except Error Value × State :=
  program.run.run state

def runIf (condition : Bool) (program : Program State Error Unit) : Program State Error Unit :=
  if condition then program else pure ()

/-- Run from `state`, the result and the state left satisfy `post`. -/
def Ensures (program : Program State Error Value) (state : State)
    (post : Except Error Value → State → Prop) : Prop :=
  post (program.exec state).1 (program.exec state).2

variable {first : Program State Error Result} {program : Program State Error Value}
  {rest : Result → Program State Error Value}

theorem Ensures.mono {state : State} {first second : Except Error Value → State → Prop}
    (ensures : program.Ensures state first)
    (weaker : ∀ result after, first result after → second result after) :
    program.Ensures state second :=
  weaker _ _ ensures

theorem Ensures.and {state : State} {first second : Except Error Value → State → Prop}
    (left : program.Ensures state first) (right : program.Ensures state second) :
    program.Ensures state fun result after => first result after ∧ second result after :=
  ⟨left, right⟩

variable {post : Except Error Value → State → Prop} {state : State}

@[simp] theorem ensures_get {post : Except Error State → State → Prop} :
    Ensures get state post ↔ post (.ok state) state := Iff.rfl

/-- A sequence goes on from where its first part ends well. -/
@[simp] theorem ensures_bind :
    Ensures (first >>= rest) state post ↔ first.Ensures state fun result after =>
      match result with
      | .ok value => (rest value).Ensures after post
      | .error error => post (.error error) after := by
  simp only [Ensures, exec, ExceptT.run_bind, StateT.run_bind]
  rcases first.run.run state with ⟨_ | _, _⟩ <;> rfl

theorem Ensures.bind {middle : Except Error Result → State → Prop}
    (leading : first.Ensures state middle)
    (trailing : ∀ value after, middle (.ok value) after → (rest value).Ensures after post)
    (failing : ∀ error after, middle (.error error) after → post (.error error) after) :
    Ensures (first >>= rest) state post := by
  rw [ensures_bind]
  refine leading.mono fun result after holds => ?_
  cases result with
  | ok value => exact trailing value after holds
  | error error => exact failing error after holds

/-- A run that does not fail, and what it leaves. -/
def Returns (program : Program State Error Value) (state : State) (post : Value → State → Prop) :
    Prop :=
  program.Ensures state fun result after => ∃ value, result = .ok value ∧ post value after

theorem Returns.mono {first second : Value → State → Prop} (returns : program.Returns state first)
    (weaker : ∀ value after, first value after → second value after) :
    program.Returns state second := by
  obtain ⟨value, same, holds⟩ := returns
  exact ⟨value, same, weaker _ _ holds⟩

theorem Returns.bind {middle : Result → State → Prop} (leading : first.Returns state middle)
    (trailing : ∀ value after, middle value after → (rest value).Ensures after post) :
    Ensures (first >>= rest) state post := by
  refine Ensures.bind leading ?_ ?_
  · intro value after holds
    obtain ⟨_, same, holds⟩ := holds
    cases same
    exact trailing value after holds
  · intro error after holds
    obtain ⟨_, same, _⟩ := holds
    cases same

/-- What a run leaves, its value apart. -/
theorem Returns.ensures {post : State → Prop}
    (returns : program.Returns state fun _ after => post after) :
    program.Ensures state fun _ after => post after :=
  returns.choose_spec.2

theorem returns_pure {value : Value} {post : Value → State → Prop} (holds : post value state) :
    Returns (pure value : Program State Error Value) state post :=
  ⟨value, rfl, holds⟩

/-- A handler goes on from where the body failed. -/
@[simp] theorem ensures_tryCatch {body : Program State Error Value}
    {handler : Error → Program State Error Value} :
    Ensures (tryCatch body handler) state post ↔ body.Ensures state fun result after =>
      match result with
      | .ok value => post (.ok value) after
      | .error error => (handler error).Ensures after post := by
  simp only [Ensures, exec, ExceptT.run_tryCatch, StateT.run_bind]
  rcases body.run.run state with ⟨_ | _, _⟩ <;> rfl

end Program

/-- What may lie between two states of a run. -/
structure Trail (State : Type) where
  holds : State → State → Prop
  refl : ∀ state, holds state state
  trans : ∀ {first second third}, holds first second → holds second third → holds first third

namespace Program

variable {State Error Value Result : Type} {trail : Trail State}

/-- Every run of the program stays on the trail. -/
def Moves (trail : Trail State) (program : Program State Error Value) : Prop :=
  ∀ state, trail.holds state (program.exec state).2

theorem Moves.ensures {program : Program State Error Value} (moves : Moves trail program)
    (state : State) : program.Ensures state fun _ after => trail.holds state after :=
  moves state

/-- What a run that does not fail leaves lies on the trail. -/
theorem Moves.returns {program : Program State Error Value} (moves : Moves trail program)
    {state : State} {post : Value → State → Prop} (returns : program.Returns state post) :
    program.Returns state fun value after => trail.holds state after ∧ post value after := by
  obtain ⟨value, same, holds⟩ := returns
  exact ⟨value, same, moves state, holds⟩

theorem moves_pure {value : Value} : Moves trail (pure value : Program State Error Value) :=
  trail.refl

theorem moves_throw (error : Error) : Moves trail (throw error : Program State Error Value) :=
  trail.refl

theorem moves_get : Moves trail (get : Program State Error State) :=
  trail.refl

/-- A sequence run from one state, given where its first part leads from there. -/
theorem holds_bind {first : Program State Error Result} {rest : Result → Program State Error Value}
    {state : State} (leading : trail.holds state (first.exec state).2)
    (trailing : ∀ value, Moves trail (rest value)) :
    trail.holds state ((first >>= rest).exec state).2 := by
  have starts : first.Ensures state fun _ middle => trail.holds state middle := leading
  have goes : Ensures (first >>= rest) state fun _ after => trail.holds state after := by
    refine starts.bind (fun value middle moved => ?_) fun _ _ moved => moved
    exact trail.trans moved (trailing value middle)
  exact goes

theorem Moves.bind {first : Program State Error Result} {rest : Result → Program State Error Value}
    (leading : Moves trail first) (trailing : ∀ value, Moves trail (rest value)) :
    Moves trail (first >>= rest) :=
  fun state => holds_bind (leading state) trailing

theorem Moves.ite {condition : Prop} [Decidable condition] {yes no : Program State Error Value}
    (positive : condition → Moves trail yes) (negative : ¬condition → Moves trail no) :
    Moves trail (if condition then yes else no) := by
  split
  · next holds => exact positive holds
  · next fails => exact negative fails

theorem Moves.runIf {condition : Bool} {program : Program State Error Unit}
    (moves : condition = true → Moves trail program) : Moves trail (runIf condition program) := by
  cases condition with
  | true => exact moves rfl
  | false => exact moves_pure

theorem Moves.tryCatch {body : Program State Error Value}
    {handler : Error → Program State Error Value} (leading : Moves trail body)
    (trailing : ∀ error, Moves trail (handler error)) : Moves trail (tryCatch body handler) := by
  intro state
  have goes : Ensures (MonadExcept.tryCatch body handler) state
      fun _ after => trail.holds state after := by
    rw [ensures_tryCatch]
    refine (leading.ensures state).mono fun result middle moved => ?_
    cases result with
    | ok value => exact moved
    | error error => exact trail.trans moved (trailing error middle)
  exact goes

end Program
end Monhop.Library
