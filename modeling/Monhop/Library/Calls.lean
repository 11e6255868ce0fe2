import Mathlib

/-! # Sequences of calls on an object

An object answers each call and moves on.  `afterCalls` is the object after a sequence of calls,
`replyAt` what one of them was answered, and `afterCalls_invariant` the rule for a property of
the object and of how many calls it took.
-/

namespace Monhop.Library

variable {State Call Reply : Type} (step : State → Call → Reply × State) (start : State)

def afterCalls (calls : List Call) : State :=
  calls.foldl (fun state call => (step state call).2) start

/-- The answer to the call at `index`, none past the end. -/
def replyAt (calls : List Call) (index : Nat) : Option Reply :=
  calls[index]?.map fun call => (step (afterCalls step start (calls.take index)) call).1

variable {step start} {calls : List Call} {index : Nat} {call : Call}

theorem afterCalls_append (front back : List Call) :
    afterCalls step start (front ++ back) = afterCalls step (afterCalls step start front) back :=
  List.foldl_append

theorem afterCalls_take_succ (here : calls[index]? = some call) :
    afterCalls step start (calls.take (index + 1)) =
      (step (afterCalls step start (calls.take index)) call).2 := by
  rw [List.take_add_one, here, Option.toList_some, afterCalls_append]
  rfl

theorem replyAt_eq (here : calls[index]? = some call) :
    replyAt step start calls index =
      some (step (afterCalls step start (calls.take index)) call).1 := by
  rw [replyAt, here, Option.map_some]

/-- What holds at the start and is kept by each call of the sequence holds after any number of
them. -/
theorem afterCalls_invariant (property : Nat → State → Prop) (base : property 0 start)
    (kept : ∀ index call state, calls[index]? = some call → property index state →
      property (index + 1) (step state call).2) {count : Nat} (inside : count ≤ calls.length) :
    property count (afterCalls step start (calls.take count)) := by
  induction count with
  | zero => exact base
  | succ count ih =>
    have here : calls[count]? = some calls[count] := List.getElem?_eq_getElem inside
    rw [afterCalls_take_succ here]
    exact kept count _ _ here (ih (Nat.le_of_succ_le inside))

end Monhop.Library
