import Mathlib

/-! # Shared identifiers and scalars

Platform-neutral identifiers, and the floating-point operations the components use.
`Scalar` names those operations without any law: a result stated over every `Scalar`
holds for the machine's own arithmetic, whatever it rounds to.  The integers are the
instance concrete examples are evaluated at.
-/

namespace Monhop.Core

/-- Nanoseconds. -/
abbrev Duration := Nat

namespace Duration

def fromMillis (millis : Nat) : Duration := millis * 1000000

def fromSecs (secs : Nat) : Duration := secs * 1000000000

end Duration

/-- The operations of the 64-bit floating-point type. -/
class Scalar (F : Type) extends Zero F, Add F, Sub F, Mul F, Div F, Neg F where
  ofInt : Int → F
  lt : F → F → Bool
  le : F → F → Bool
  /-- Equality of values, so the two zeros are equal. -/
  same : F → F → Bool
  isFinite : F → Bool
  /-- The bit pattern is all zeros. -/
  isPositiveZero : F → Bool
  abs : F → F
  max : F → F → F
  min : F → F → F
  /-- The largest value below. -/
  nextDown : F → F
  powf : F → F → F
  exp : F → F

namespace Scalar

def clamp {F : Type} [Scalar F] (value low high : F) : F :=
  if Scalar.lt value low then low else if Scalar.lt high value then high else value

instance : Scalar Int where
  ofInt value := value
  lt left right := decide (left < right)
  le left right := decide (left ≤ right)
  same left right := decide (left = right)
  isFinite _ := true
  isPositiveZero value := decide (value = 0)
  abs value := value.natAbs
  max left right := if left ≤ right then right else left
  min left right := if left ≤ right then left else right
  nextDown value := value - 1
  powf base exponent := base ^ exponent.toNat
  exp exponent := if exponent = 0 then 1 else 0

end Scalar

structure DeviceId where
  raw : Nat
  deriving DecidableEq

structure DisplayId where
  raw : Nat
  deriving DecidableEq

structure HidUsage where
  code : Nat
  deriving DecidableEq

namespace HidUsage

def isValid (usage : HidUsage) : Bool :=
  (0x04 ≤ usage.code && usage.code ≤ 0xA4) || (0xE0 ≤ usage.code && usage.code ≤ 0xE7)

def isModifier (usage : HidUsage) : Bool :=
  0xE0 ≤ usage.code && usage.code ≤ 0xE7

end HidUsage

inductive Platform where
  | windows
  | macOs
  deriving DecidableEq

inductive MouseButton where
  | left
  | right
  | middle
  | back
  | forward
  deriving DecidableEq

/-- The canonical slot order behind every fixed-size button array. -/
def MouseButton.ALL : List MouseButton :=
  [.left, .right, .middle, .back, .forward]

theorem MouseButton.mem_ALL (button : MouseButton) : button ∈ MouseButton.ALL := by
  cases button <;> decide

theorem MouseButton.nodup_ALL : MouseButton.ALL.Nodup := by decide

/-- A mask of the eight modifiers, bit `index` for usage `0xE0 + index`. -/
structure ModifierState where
  bits : Nat
  deriving DecidableEq

/-- A monitor's EDID identity: only `new` makes one. -/
structure MonitorIdentity where
  vendor : Nat
  product : Nat
  /-- Zero when the monitor reports none. -/
  serial : Nat
  vendor_ne : vendor ≠ 0
  product_ne : product ≠ 0
  deriving DecidableEq

def MonitorIdentity.new (vendor product serial : Nat) : Option MonitorIdentity :=
  if present : vendor ≠ 0 ∧ product ≠ 0 then
    some { vendor, product, serial, vendor_ne := present.1, product_ne := present.2 }
  else none

structure Point (F : Type) where
  x : F
  y : F
  deriving DecidableEq

namespace Point

variable {F : Type} [Scalar F]

def isFinite (point : Point F) : Bool :=
  Scalar.isFinite point.x && Scalar.isFinite point.y

def origin : Point F := { x := 0, y := 0 }

/-- Equality of both coordinates as values. -/
def same (first second : Point F) : Bool :=
  Scalar.same first.x second.x && Scalar.same first.y second.y

def moved (point delta : Point F) : Point F := { x := point.x + delta.x, y := point.y + delta.y }

def scaled (point : Point F) (units : F) : Point F := { x := point.x * units, y := point.y * units }

end Point
end Monhop.Core
