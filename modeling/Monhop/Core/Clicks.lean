import Monhop.Core.Types

/-! # Multi-clicks and pointer speed of forwarded input

The source numbers each forwarded press from the peer cursor it tracks, and moves the
pointer on the peer at the user's own speed.
-/

namespace Monhop.Core

/-- The click count of a press that does not continue a multi-click. -/
def singleClick : Nat := 1

/-- Used when the user's double-click interval cannot be read. -/
def fallbackDoubleClickInterval : Duration := .fromMillis 500

section Clicks
variable {F : Type} [Scalar F]

/-- How far a press may stray, per axis, from its sequence's first press. -/
def doubleClickSlop : F := Scalar.ofInt 8

/-- Whether a press continues its sequence's first press. -/
def withinSlop (source target : Point F) : Bool :=
  Scalar.le (Scalar.abs (source.x - target.x)) doubleClickSlop &&
    Scalar.le (Scalar.abs (source.y - target.y)) doubleClickSlop

end Clicks

structure ClickSequence (F : Type) where
  button : MouseButton
  /-- The first press's position. -/
  anchor : Point F
  pressedAt : Duration
  count : Nat

/-- The same button again within the interval of its previous press, and near the first
one, continues the sequence. -/
structure ClickCounter (F : Type) where
  interval : Duration
  last : Option (ClickSequence F)

namespace ClickCounter

variable {F : Type}

def new (interval : Duration) : ClickCounter F := { interval, last := none }

def default : ClickCounter F := new fallbackDoubleClickInterval

/-- The next press starts a new sequence. -/
def reset (counter : ClickCounter F) : ClickCounter F := { counter with last := none }

variable [Scalar F]
variable (counter : ClickCounter F)

/-- Whether a press continues the last sequence. -/
def continues (last : ClickSequence F) (button : MouseButton)
    (position : Point F) (pressedAt : Duration) : Bool :=
  last.button == button && decide (last.pressedAt ≤ pressedAt) &&
    decide (pressedAt - last.pressedAt ≤ counter.interval) && withinSlop position last.anchor

def sequenceOf (button : MouseButton) (position : Point F)
    (pressedAt : Duration) : ClickSequence F :=
  let first := { button, anchor := position, pressedAt, count := singleClick }
  match counter.last with
  | some last =>
    if counter.continues last button position pressedAt then
      -- the count saturates at eight bits
      { last with pressedAt, count := min (last.count + 1) 255 }
    else first
  | none => first

/-- The count of a press, captured at `pressedAt`. -/
def press (button : MouseButton) (position : Point F)
    (pressedAt : Duration) : Nat × ClickCounter F :=
  let sequence := counter.sequenceOf button position pressedAt
  (sequence.count, { counter with last := some sequence })

end ClickCounter

/-! ## Pointer speed -/

namespace PointerSpeed

def minStep : Int := -5
def maxStep : Int := 5

/-- The pointer moves on another computer as it does on its own. -/
def same : Int := 0

/-- The motion multiplier of a step: each is a fifth of a doubling. -/
def factor {F : Type} [Scalar F] (step : Int) : F :=
  let clamped := if step < minStep then minStep else if maxStep < step then maxStep else step
  Scalar.powf (Scalar.ofInt 2) (Scalar.ofInt clamped / Scalar.ofInt 5)

end PointerSpeed
end Monhop.Core
