import Mathlib

/-! # Labelled transition systems and their runs

A system is an initial predicate and a labelled step relation.  `Run` is the finite
sequence of steps an execution takes, `Reachable` the states an execution can stand in.

The rules a safety proof uses:

* `Reachable.invariant` — what holds initially and is kept by each step holds in every state.
* `Run.persists` — what each step keeps is never lost once it holds.
* `restrict` — the system whose steps all meet a guard, for properties of the runs in
  which a condition is kept.
-/

namespace Monhop.Library

universe u v

/-- A labelled transition system. -/
structure Lts (State : Type u) (Label : Type v) where
  init : State → Prop
  step : State → Label → State → Prop

namespace Lts

variable {State : Type u} {Label : Type v} {system : Lts State Label}

/-- `Run start labels finish`: the labels lead from `start` to `finish`. -/
inductive Run (system : Lts State Label) : State → List Label → State → Prop where
  | nil (state : State) : Run system state [] state
  | cons {first second last : State} {label : Label} {labels : List Label}
      (step : system.step first label second) (rest : Run system second labels last) :
      Run system first (label :: labels) last

/-- A state some run from an initial state ends in. -/
def Reachable (system : Lts State Label) (state : State) : Prop :=
  ∃ start labels, system.init start ∧ system.Run start labels state

/-- The same system with every step held to a guard on the state it leaves. -/
def restrict (system : Lts State Label) (guard : State → Label → Prop) : Lts State Label where
  init := system.init
  step first label second := guard first label ∧ system.step first label second

/-- The system of a step function, which refuses the labels it has no step for. -/
def ofNext (init : State → Prop) (next : State → Label → Option State) : Lts State Label where
  init := init
  step first label second := next first label = some second

variable {labels : List Label} {first last : State}

theorem Run.of_foldlM {next : State → Label → Option State}
    (steps : ∀ first second, ∀ label ∈ labels, next first label = some second →
      system.step first label second)
    (ran : labels.foldlM next first = some last) : system.Run first labels last := by
  induction labels generalizing first with
  | nil =>
    cases ran
    exact .nil _
  | cons label labels ih =>
    rw [List.foldlM_cons] at ran
    obtain ⟨second, stepped, rest⟩ := Option.bind_eq_some_iff.mp ran
    exact .cons (steps _ _ label List.mem_cons_self stepped)
      (ih (fun _ _ other among => steps _ _ other (List.mem_cons_of_mem _ among)) rest)

theorem Run.append {second : State} {front back : List Label}
    (leading : system.Run first front second) (trailing : system.Run second back last) :
    system.Run first (front ++ back) last := by
  induction leading with
  | nil _ => exact trailing
  | cons step _ ih => exact .cons step (ih trailing)

theorem Run.single {second : State} {label : Label} (step : system.step first label second) :
    system.Run first [label] second :=
  .cons step (.nil _)

/-- What every step keeps is never lost along a run. -/
theorem Run.persists (property : State → Prop)
    (kept : ∀ first label second, property first → system.step first label second → property second)
    (run : system.Run first labels last) (holds : property first) : property last := by
  induction run with
  | nil _ => exact holds
  | cons step _ ih => exact ih (kept _ _ _ holds step)

/-- The invariant rule. -/
theorem Reachable.invariant (property : State → Prop)
    (base : ∀ state, system.init state → property state)
    (kept : ∀ first label second, property first → system.step first label second → property second)
    {state : State} (reachable : system.Reachable state) : property state := by
  obtain ⟨start, labels, initial, run⟩ := reachable
  exact run.persists property kept (base start initial)

theorem Reachable.extend (reachable : system.Reachable first) (run : system.Run first labels last) :
    system.Reachable last := by
  obtain ⟨start, front, initial, leading⟩ := reachable
  exact ⟨start, front ++ labels, initial, leading.append run⟩

end Lts
end Monhop.Library
