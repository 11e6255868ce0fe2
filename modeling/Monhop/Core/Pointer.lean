import Monhop.Core.Types

/-! # Trackpad gestures

Gestures and the system actions they trigger.  Capture slots, wire frames and receivers
all validate through `PointerGesture.fromParts`.
-/

namespace Monhop.Core

inductive GesturePhase where
  | began
  | changed
  | ended
  | cancelled
  deriving DecidableEq

def GesturePhase.isTerminal : GesturePhase → Bool
  | .ended | .cancelled => true
  | _ => false

/-- A gesture's kind without its phase or value. -/
inductive GestureKind where
  | magnify
  | rotate
  | smartMagnify
  | forceClick
  deriving DecidableEq

/-- Discrete kinds happen once and carry neither a phase nor a value. -/
def GestureKind.isDiscrete : GestureKind → Bool
  | .smartMagnify | .forceClick => true
  | _ => false

inductive PointerGesture (F : Type) where
  | magnify (phase : GesturePhase) (delta : F)
  | rotate (phase : GesturePhase) (degrees : F)
  | smartMagnify
  | forceClick
  deriving DecidableEq

inductive GestureError where
  /-- A continuous kind without a phase, or a discrete kind with a phase or a value. -/
  | shape
  | nonFinite
  | outOfRange

namespace PointerGesture

variable {F : Type} [Scalar F]

def minMagnifyDelta : F := -Scalar.ofInt 1
def maxMagnifyDelta : F := Scalar.ofInt 4
def maxRotateDegrees : F := Scalar.ofInt 180

/-- The one validation rule for a gesture in any representation. -/
def fromParts (kind : GestureKind) (phase : Option GesturePhase) (value : F) :
    Except GestureError (PointerGesture F) :=
  if kind.isDiscrete then
    if phase.isSome || !Scalar.isPositiveZero value then .error .shape
    else
      match kind with
      | .smartMagnify => .ok .smartMagnify
      | _ => .ok .forceClick
  else
    match phase with
    | none => .error .shape
    | some phase =>
      if !Scalar.isFinite value then .error .nonFinite
      else
        match kind with
        | .magnify =>
          if Scalar.le value minMagnifyDelta || Scalar.lt maxMagnifyDelta value then
            .error .outOfRange
          else .ok (.magnify phase value)
        | _ =>
          if Scalar.lt maxRotateDegrees (Scalar.abs value) then .error .outOfRange
          else .ok (.rotate phase value)

def kind : PointerGesture F → GestureKind
  | .magnify _ _ => .magnify
  | .rotate _ _ => .rotate
  | .smartMagnify => .smartMagnify
  | .forceClick => .forceClick

def phase : PointerGesture F → Option GesturePhase
  | .magnify phase _ | .rotate phase _ => some phase
  | .smartMagnify | .forceClick => none

/-- The magnify delta or rotation degrees; 0 for discrete kinds. -/
def value : PointerGesture F → F
  | .magnify _ delta => delta
  | .rotate _ degrees => degrees
  | .smartMagnify | .forceClick => 0

def validate (gesture : PointerGesture F) : Except GestureError Unit :=
  match fromParts gesture.kind gesture.phase gesture.value with
  | .ok _ => .ok ()
  | .error error => .error error

end PointerGesture

/-- A system action named by its result. -/
inductive SystemGesture where
  | overview
  | appWindows
  | desktopPrevious
  | desktopNext
  | showDesktop
  | launcher
  | navigateBack
  | navigateForward
  | notificationCenter
  | search
  | switchAppPrevious
  | switchAppNext
  deriving DecidableEq

end Monhop.Core
