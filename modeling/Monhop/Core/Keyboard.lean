import Monhop.Core.Types

/-! # Shortcuts typed across platforms

A keyboard of one platform drives a computer of the other: Ctrl and Command trade places
and so do the Windows key and Control, except where a habit needs another modifier there.
The translator remembers what the destination holds for each physical key, so a release
always answers the press it follows.  A plan of key steps is a list here.
-/

namespace Monhop.Core

open Function

def HID_BACKSPACE : HidUsage := ⟨0x2A⟩
def HID_TAB : HidUsage := ⟨0x2B⟩
def HID_DELETE_FORWARD : HidUsage := ⟨0x4C⟩
def HID_RIGHT_ARROW : HidUsage := ⟨0x4F⟩
def HID_LEFT_ARROW : HidUsage := ⟨0x50⟩

inductive ModifierSide where
  | left
  | right

inductive SemanticModifierKind where
  | control
  | shift
  | alternate
  | system
  deriving DecidableEq

/-- A physical modifier's side and platform-neutral intent. -/
structure SemanticModifier where
  side : ModifierSide
  kind : SemanticModifierKind

/-- The inverse of `semanticModifier`. -/
def SemanticModifier.usage (modifier : SemanticModifier) : HidUsage :=
  let side := match modifier.side with
    | .left => 0
    | .right => 4
  let kind := match modifier.kind with
    | .control => 0
    | .shift => 1
    | .alternate => 2
    | .system => 3
  ⟨0xE0 + side + kind⟩

def semanticModifier (usage : HidUsage) : Option SemanticModifier :=
  match usage.code with
  | 0xE0 => some ⟨.left, .control⟩
  | 0xE1 => some ⟨.left, .shift⟩
  | 0xE2 => some ⟨.left, .alternate⟩
  | 0xE3 => some ⟨.left, .system⟩
  | 0xE4 => some ⟨.right, .control⟩
  | 0xE5 => some ⟨.right, .shift⟩
  | 0xE6 => some ⟨.right, .alternate⟩
  | 0xE7 => some ⟨.right, .system⟩
  | _ => none

structure KeyStep where
  usage : HidUsage
  pressed : Bool
  deriving DecidableEq

/-- Whose keyboard drives which computer. -/
inductive Direction where
  /-- Ctrl acts as Command and the Windows key as Control. -/
  | windowsOnMac
  /-- Command acts as Ctrl and Control as the Windows key. -/
  | macOnWindows
  deriving DecidableEq

namespace Direction

/-- Only a keyboard on the other platform is translated; an unknown one never is. -/
def between (keyboard destination : Option Platform) : Option Direction :=
  match keyboard, destination with
  | some .windows, some .macOs => some .windowsOnMac
  | some .macOs, some .windows => some .macOnWindows
  | _, _ => none

/-- On Windows a retarget presses the new key before it lifts the old one. -/
def pressesFirst (direction : Direction) : Bool := direction == .macOnWindows

end Direction

structure Held where
  /-- What the destination holds for this physical key. -/
  target : HidUsage
  /-- A modifier pressed while translating, whose target follows the key it combines with. -/
  follows : Bool
  /-- A modifier that opened the app switcher keeps its target until it is released. -/
  switching : Bool
  deriving DecidableEq

def Held.fixed (target : HidUsage) : Held := { target, follows := false, switching := false }

/-- The physical modifier kinds held, either side. -/
structure Kinds where
  control : Bool
  shift : Bool
  alt : Bool
  system : Bool

/-- The key of the dimming chord, which takes exactly Ctrl and Alt. -/
def DIM_TOGGLE : HidUsage := ⟨0x27⟩

def dims (key : HidUsage) (kinds : Kinds) : Bool :=
  key == DIM_TOGGLE && kinds.control && kinds.alt && !kinds.shift && !kinds.system

/-- A modifier's target on its first press. -/
def firstHeld (direction : Direction) (modifier : SemanticModifier) : Held :=
  let kind := match modifier.kind with
    | .control => .system
    | .system => .control
    | other => other
  let follows := match direction with
    | .windowsOnMac => modifier.kind == .control || modifier.kind == .alternate
    | .macOnWindows => modifier.kind != .shift
  { target := { modifier with kind }.usage, follows, switching := false }

/-- Where a habit means another modifier on the destination. -/
def wanted (direction : Direction) (modifier : SemanticModifier) (held : Held)
    (key : Option HidUsage) (kinds : Kinds) : Held :=
  let tab := key == some HID_TAB
  let switches := held.switching || tab
  let controlStays := tab || key.any (dims · kinds)
  let word := key == some HID_LEFT_ARROW || key == some HID_RIGHT_ARROW ||
    key == some HID_BACKSPACE || key == some HID_DELETE_FORWARD
  let (kind, switching) := match direction, modifier.kind with
    | .windowsOnMac, .control =>
      if controlStays then (SemanticModifierKind.control, false)
      else if word && !kinds.alt && !kinds.system then (.alternate, false)
      else (.system, false)
    | .windowsOnMac, .alternate => if switches then (.system, true) else (.alternate, false)
    | .macOnWindows, .system => if switches then (.alternate, true) else (.control, false)
    | .macOnWindows, .control => if controlStays then (.control, false) else (.system, false)
    | .macOnWindows, .alternate =>
      if switches then (.alternate, true)
      else if word && !kinds.control && !kinds.system then (.control, false)
      else (.alternate, false)
    | _, kind => (kind, false)
  { held with target := { modifier with kind }.usage, switching }

/-- What the destination holds for each physical key. -/
structure Translator where
  held : Nat → Option Held

namespace Translator

def default : Translator := { held := fun _ => none }

/-- The destination released every key. -/
def clear (_ : Translator) : Translator := default

variable (keyboard : Translator)

def holds (target : HidUsage) : Bool :=
  (List.range 256).any fun index => (keyboard.held index).any fun held => held.target == target

def kinds : Kinds :=
  let any := fun kind => [0xE0, 0xE1, 0xE2, 0xE3, 0xE4, 0xE5, 0xE6, 0xE7].any fun usage =>
    (keyboard.held usage).isSome && (semanticModifier ⟨usage⟩).any fun modifier =>
      modifier.kind == kind
  { control := any .control, shift := any .shift, alt := any .alternate, system := any .system }

/-- Moves one following modifier, releasing the old target unless another key holds it and
pressing the new one unless another already does. -/
def followOne (direction : Direction) (key : Option HidUsage) (kinds : Kinds)
    (state : Translator × List KeyStep) (usage : Nat) : Translator × List KeyStep :=
  let (keyboard, plan) := state
  match (keyboard.held usage).filter Held.follows, semanticModifier ⟨usage⟩ with
  | some held, some modifier =>
    let next := wanted direction modifier held key kinds
    let moves := next.target != held.target
    let press := moves && !keyboard.holds next.target
    let keyboard := { keyboard with held := update keyboard.held usage (some next) }
    let release := moves && !keyboard.holds held.target
    let presses := if press then [KeyStep.mk next.target true] else []
    let releases := if release then [KeyStep.mk held.target false] else []
    (keyboard, plan ++ if direction.pressesFirst then presses ++ releases else releases ++ presses)
  | _, _ => (keyboard, plan)

/-- Moves each following modifier to the target `key` wants; `none` is a click. -/
def follow (direction : Direction) (key : Option HidUsage) : Translator × List KeyStep :=
  [0xE0, 0xE1, 0xE2, 0xE3, 0xE4, 0xE5, 0xE6, 0xE7].foldl
    (followOne direction key keyboard.kinds) (keyboard, [])

/-- A key going up answers the press it follows. -/
def release (usage : HidUsage) : List KeyStep × Translator :=
  let target := ((keyboard.held usage.code).map Held.target).getD usage
  let keyboard := { keyboard with held := update keyboard.held usage.code none }
  (if keyboard.holds target then [] else [⟨target, false⟩], keyboard)

/-- A key going down, after the modifiers moved to what it wants. -/
def press (usage : HidUsage) (translate : Option Direction)
    (plan : List KeyStep) : List KeyStep × Translator :=
  match keyboard.held usage.code with
  | some held => (plan ++ [⟨held.target, true⟩], keyboard)
  | none =>
    let held := match semanticModifier usage, translate with
      | some modifier, some direction => firstHeld direction modifier
      | _, _ => Held.fixed usage
    let shared := keyboard.holds held.target
    let keyboard := { keyboard with held := update keyboard.held usage.code (some held) }
    (if shared then plan else plan ++ [⟨held.target, true⟩], keyboard)

/-- The steps that deliver one physical key.  `translate` decides presses only. -/
def key (usage : HidUsage) (pressed : Bool) (translate : Option Direction) :
    List KeyStep × Translator :=
  if usage.code ≥ 256 then ([⟨usage, pressed⟩], keyboard)
  else if !pressed then keyboard.release usage
  else
    match translate, semanticModifier usage with
    | some direction, none =>
      let (keyboard, plan) := keyboard.follow direction (some usage)
      keyboard.press usage translate plan
    | _, _ => keyboard.press usage translate []

/-- The steps before a mouse press: each held modifier is back on its own key. -/
def click (translate : Option Direction) : List KeyStep × Translator :=
  match translate with
  | some direction =>
    let (keyboard, plan) := keyboard.follow direction none
    (plan, keyboard)
  | none => ([], keyboard)

end Translator
end Monhop.Core
