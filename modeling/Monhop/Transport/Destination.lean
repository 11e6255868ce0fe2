import Monhop.Core.Keyboard
import Monhop.Core.Pointer
import Monhop.Core.TakeBack
import Monhop.Core.Topology

/-! # The destination and what shares it

Receivers ask the destination for native actions.  The gate and its floor are shared with
the capture callback and the source half, which act between any two accesses of a
receiver; a script says what they do before each of the next accesses and whether the
native action made there fails.  The trace keeps every floor and every action in order.
-/

namespace Monhop.Transport

open Monhop.Core

inductive DestinationAction (F : Type) where
  | moveTo (point : Point F)
  | key (usage : HidUsage) (pressed : Bool)
  | button (button : MouseButton) (pressed : Bool) (clickCount : Nat)
  | scroll (horizontal vertical : F)
  /-- Validated, with each continuous kind's phases in order. -/
  | gesture (gesture : PointerGesture F)
  | system (gesture : SystemGesture)
  /-- Closes every open synthetic gesture phase. -/
  | endGestures
  /-- Releases every injected key and button. -/
  | releaseAll
  deriving DecidableEq

namespace DestinationAction

variable {F : Type}

/-- Cleanup that ends injected state, admitted even after control has ended. -/
def isRelease : DestinationAction F → Bool
  | .endGestures | .releaseAll => true
  | _ => false

def presses : DestinationAction F → Bool
  | .key _ pressed | .button _ pressed _ => pressed
  | _ => false

def begins : DestinationAction F → Bool
  | .gesture (.magnify .began _) | .gesture (.rotate .began _) => true
  | _ => false

end DestinationAction

/-- What other threads do before one access. -/
inductive Outside where
  | quiet
  /-- The capture callback yields the floor on deliberate input. -/
  | yield
  /-- The callback, the injector and the coordinator move the rest of the gate. -/
  | gate (admission held changes triggered : Nat)
  /-- The source half moves a floor that is not inbound. -/
  | floor (floor : FloorSnapshot)

/-- Held by a receiving half. -/
def isInbound (floor : FloorSnapshot) : Bool := floor.state.owner == some .inbound

namespace Outside

/-- The gate once they acted; what they may not do is not done. -/
def act (outside : Outside) (gate : TakeBackGate) : TakeBackGate :=
  match outside with
  | .quiet => gate
  | .yield =>
    if gate.floor.state = .receiving then
      { gate with floor := gate.floor.next .yielding gate.floor.peer }
    else gate
  | .gate admission held changes triggered => { gate with admission, held, changes, triggered }
  | .floor target =>
    if !isInbound gate.floor && !isInbound target && target.isWellFormed then
      { gate with floor := target }
    else gate

end Outside

/-- One access: what happens before it, and whether the native action made there fails. -/
structure Moment where
  outside : Outside
  fails : Bool

inductive TraceEvent (F : Type) where
  | floor (floor : FloorSnapshot)
  /-- An action that reached the destination through a slot, whether its receiver was held
  or failed, and whether it succeeded. -/
  | post (slot : FloorPeer) (inert : Bool) (action : DestinationAction F) (delivered : Bool)
  deriving DecidableEq

/-- What receivers share, with everything that happened to it. -/
structure World (F : Type) where
  gate : TakeBackGate
  script : List Moment
  trace : List (TraceEvent F)

namespace World

variable {F : Type}
variable (world : World F)

/-- A change of the floor is kept in the trace. -/
def setGate (gate : TakeBackGate) : World F :=
  if gate.floor = world.gate.floor then { world with gate }
  else { world with gate, trace := world.trace ++ [.floor gate.floor] }

/-- The next access: whether its native action fails, and the world it finds. -/
def advance : Bool × World F :=
  match world.script with
  | [] => (false, world)
  | moment :: script =>
    (moment.fails, { world with script }.setGate (moment.outside.act world.gate))

def swapFloor (operation : FloorOp) : Except FloorSnapshot FloorSnapshot × World F :=
  match operation.run world.gate.floor with
  | .ok floor => (.ok floor, world.setGate { world.gate with floor })
  | .error current => (.error current, world)

def takeTriggered : Option Nat × World F :=
  let (generation, gate) := world.gate.takeTriggered
  (generation, world.setGate gate)

def record (event : TraceEvent F) : World F :=
  { world with trace := world.trace ++ [event] }

end World
end Monhop.Transport
