import Monhop.Core.Floor

/-! # The take-back gate

Physical input on a controlled computer hands it back at capture time.  The capture
callback, the injector and the coordinator share the gate: the floor, the generation
injection is admitted for, the injected presses held, and the yielding generation a
take-back produced.

The functions here are the gate's methods run without interruption; the interleavings of
their atomic steps are in `Monhop.Core.TakeBackSafety`.  The waker only signals and is
not modelled.
-/

namespace Monhop.Core

/-- The admission word that admits nothing. -/
def CLOSED : Nat := 0

/-- What `held` is counted modulo: it is a 32-bit word. -/
def heldLimit : Nat := 2 ^ 32

structure TakeBackGate where
  floor : FloorSnapshot
  /-- The receiving generation injection was opened for, or `CLOSED`. -/
  admission : Nat
  /-- Injected keys and buttons currently down; counted before the post, uncounted after
  the up. -/
  held : Nat
  /-- Bumped after every note to `held`. -/
  changes : Nat
  /-- The yielding generation a take-back produced and the coordinator has not taken. -/
  triggered : Nat

inductive TakeBackOutcome where
  | notReceiving
  | triggered (withhold : Bool)
  deriving DecidableEq

/-- The floor side of admission: still receiving, at the admitted generation. -/
def FloorSnapshot.admits (floor : FloorSnapshot) (admitted : Nat) : Bool :=
  floor.state == .receiving && floor.generation == admitted

namespace TakeBackGate

def new (floor : FloorSnapshot) : TakeBackGate :=
  { floor, admission := CLOSED, held := 0, changes := 0, triggered := 0 }

variable (gate : TakeBackGate)

/-- Admits injection while the floor stays receiving at `generation`. -/
def openInjection (generation : Nat) : TakeBackGate :=
  { gate with admission := generation }

/-- Checked before every native post. -/
def admitsInjection : Bool :=
  gate.admission != CLOSED && gate.floor.admits gate.admission

def noteInjectionChange : TakeBackGate :=
  { gate with changes := (gate.changes + 1) % 2 ^ 64 }

/-- The fetch-and-add wraps. -/
def noteInjectedPress : TakeBackGate :=
  { gate with held := (gate.held + 1) % heldLimit }.noteInjectionChange

def noteInjectedReleased : TakeBackGate :=
  { gate with held := 0 }.noteInjectionChange

def injectedHeld : Bool := decide (gate.held > 0)

/-- The yielding generation a take-back produced, returned once. -/
def takeTriggered : Option Nat × TakeBackGate :=
  (if gate.triggered = 0 then none else some gate.triggered, { gate with triggered := 0 })

/-- The receiving snapshot a trigger leaves and the yielding one it makes. -/
def yieldFloor : Option (FloorSnapshot × FloorSnapshot) :=
  if gate.floor.state ≠ .receiving then none
  else
    match (FloorOp.transition gate.floor .yielding).run gate.floor with
    | .ok yielding => some (gate.floor, yielding)
    | .error _ => none

/-- Only the yielded generation's admission is closed. -/
def closeYielded (receiving yielding : FloorSnapshot) : TakeBackOutcome × TakeBackGate :=
  let admission := if gate.admission = receiving.generation then CLOSED else gate.admission
  (.triggered gate.injectedHeld, { gate with admission, triggered := yielding.generation })

def trigger : TakeBackOutcome × TakeBackGate :=
  match gate.yieldFloor with
  | some (receiving, yielding) =>
    { gate with floor := yielding }.closeYielded receiving yielding
  | none => (.notReceiving, gate)

end TakeBackGate
end Monhop.Core
