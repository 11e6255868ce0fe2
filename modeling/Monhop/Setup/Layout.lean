import Monhop.Library.Check
import Monhop.Protocol.Codec
import Monhop.Setup.Names
import Monhop.Transport.DisplayArrangement

/-! # A saved layout and its checks

The displays a computer showed when a layout was made, the crossings between displays, where
each display sits in the shared picture, and who may control whom; the text each is saved
as, and the checks a layout passes before it is used.
-/

namespace Monhop.Setup

open Monhop.Core Library Protocol Transport

/-- A number format whose values can be saved: each finite value has a text of its own.  The
digest of a text is given as a number, so digests are ordered as their bytes are. -/
class Format (F : Type) extends Scalar F where
  round : F → F
  ofSingle : Single → F
  payloadDigest : Text → Nat
  text : F → Number
  text_inj : ∀ first second, Scalar.isFinite first = true → Scalar.isFinite second = true →
    text first = text second → first = second
  singleText : Single → Number
  singleText_inj : ∀ first second, first.isFinite = true → second.isFinite = true →
    singleText first = singleText second → first = second

/-- Equality of values: the two zeros are equal and nothing equals a value that is no number. -/
def singleSame (first second : Single) : Bool :=
  let zero (value : Single) := value.bits % 2 ^ 31 == 0
  let number (value : Single) := value.isFinite || value.bits % 2 ^ 23 == 0
  zero first && zero second || number first && first.bits == second.bits

def decimal (value : Nat) : Number where
  text := Nat.toDigits 10 value
  lead := by
    cases digits : Nat.toDigits 10 value with
    | nil => exact absurd digits Nat.toDigits_ne_nil
    | cons first rest =>
      refine ⟨first, rest, rfl, .inl ?_⟩
      exact Nat.isDigit_of_mem_toDigits (by decide) (by decide)
        (digits ▸ List.mem_cons_self : first ∈ Nat.toDigits 10 value)
  plain := by
    intro char member
    have digit : char.isDigit = true := Nat.isDigit_of_mem_toDigits (by decide) (by decide) member
    simp [isNumberChar, digit]

/-- The number under a minus sign. -/
def negative (value : Nat) : Number where
  text := '-' :: Nat.toDigits 10 value
  lead := ⟨'-', _, rfl, .inr rfl⟩
  plain := by
    intro char member
    cases List.mem_cons.mp member with
    | inl same => rw [same]; decide
    | inr later => exact (decimal value).plain char later

theorem toDigits_inj {first second : Nat}
    (same : Nat.toDigits 10 first = Nat.toDigits 10 second) : first = second := by
  have read := congrArg (fun digits => Nat.ofDigitChars 10 digits 0) same
  simpa [Nat.ofDigitChars_toDigits (show 1 < 10 by decide) (le_refl 10)] using read

/-- The integers, all finite, with a digest that spells the whole text. -/
instance : Format Int where
  round value := value
  ofSingle _ := 1
  payloadDigest text := text.foldl (fun total char => total * 2 ^ 21 + (char.toNat + 1)) 0
  text
    | .ofNat value => decimal value
    | .negSucc value => negative (value + 1)
  text_inj := by
    have apart (value other : Nat) : Nat.toDigits 10 value ≠ '-' :: Nat.toDigits 10 other := by
      intro same
      have digit : '-'.isDigit = true := Nat.isDigit_of_mem_toDigits (by decide) (by decide)
        (same ▸ List.mem_cons_self : '-' ∈ Nat.toDigits 10 value)
      exact absurd digit (by decide)
    rintro (first | first) (second | second) _ _ same <;> have text := congrArg Number.text same
    · exact congrArg Int.ofNat (toDigits_inj text)
    · exact absurd text (apart _ _)
    · exact absurd text.symm (apart _ _)
    · have tail := toDigits_inj (List.cons.inj text).2
      exact congrArg Int.negSucc (Nat.succ.inj tail)
  singleText value := decimal value.bits
  singleText_inj first second _ _ same := by
    have bits := toDigits_inj (congrArg Number.text same)
    cases first
    cases second
    simp_all

/-! ## What is saved -/

structure DisplaySnapshot (F : Type) where
  id : Text
  name : Text
  origin : Point F
  size : Point F
  nativeSize : NativeSize
  scale : Single
  primary : Bool
  /-- The monitor's own identity, when the system reported one. -/
  monitor : Option Text
  deriving DecidableEq

/-- A crossing from one display's edge to another's. -/
structure LinkRequest (F : Type) where
  fromDisplay : Text
  fromEdge : Text
  fromSpan : F × F
  toDisplay : Text
  toEdge : Text
  toSpan : F × F
  hysteresis : F
  deriving DecidableEq

structure DisplayPosition (F : Type) where
  display : Text
  x : F
  y : F
  deriving DecidableEq

/-- Where each display sits in the shared picture, and the displays it leaves out. -/
structure ArrangementRequest (F : Type) where
  positions : List (DisplayPosition F)
  hidden : List Text
  deriving DecidableEq

/-- Whether each computer may control the others, by lower-case fingerprint, in key order. -/
structure ControlMap where
  entries : List (Text × Bool)
  sorted : entries.Pairwise fun first second => first.1 < second.1

namespace ControlMap

theorem ext_entries {first second : ControlMap} (same : first.entries = second.entries) :
    first = second := by
  cases first
  cases second
  simp_all

instance : DecidableEq ControlMap := fun first second =>
  decidable_of_iff (first.entries = second.entries) ⟨ext_entries, fun same => by rw [same]⟩

def containsKey (control : ControlMap) (key : Text) : Bool :=
  control.entries.any fun entry => entry.1 == key

def remove (control : ControlMap) (key : Text) : ControlMap where
  entries := control.entries.filter fun entry => entry.1 != key
  sorted := control.sorted.filter _

end ControlMap

structure LayoutRequest (F : Type) where
  /-- Every crossing, in both directions. -/
  links : List (LinkRequest F)
  arrangement : Option (ArrangementRequest F)
  control : ControlMap
  deriving DecidableEq

/-! ## The saved texts -/

section Saved
variable {F : Type} [Format F]

def jsonNat (value : Nat) : Json := .number (decimal value)

/-- A value that is not finite has no number. -/
def jsonScalar (value : F) : Json :=
  if Scalar.isFinite value then .number (Format.text value) else .null

variable (F) in
def jsonSingle (value : Single) : Json :=
  if value.isFinite then .number (Format.singleText F value) else .null

def field (name : String) (value : Json) : List Char × Json := (name.toList, value)

def DisplaySnapshot.json (display : DisplaySnapshot F) : Json :=
  .object <|
    [field "id" (.string display.id), field "name" (.string display.name),
      field "origin" (.array [jsonScalar display.origin.x, jsonScalar display.origin.y]),
      field "size" (.array [jsonScalar display.size.x, jsonScalar display.size.y]),
      field "nativeSize"
        (.array [jsonNat display.nativeSize.width, jsonNat display.nativeSize.height]),
      field "scale" (jsonSingle F display.scale), field "primary" (.bool display.primary)] ++
    (display.monitor.map fun monitor => field "monitor" (.string monitor)).toList

def LinkRequest.json (link : LinkRequest F) : Json :=
  .object
    [field "fromDisplay" (.string link.fromDisplay), field "fromEdge" (.string link.fromEdge),
      field "fromSpan" (.array [jsonScalar link.fromSpan.1, jsonScalar link.fromSpan.2]),
      field "toDisplay" (.string link.toDisplay), field "toEdge" (.string link.toEdge),
      field "toSpan" (.array [jsonScalar link.toSpan.1, jsonScalar link.toSpan.2]),
      field "hysteresis" (jsonScalar link.hysteresis)]

def DisplayPosition.json (position : DisplayPosition F) : Json :=
  .object [field "display" (.string position.display), field "x" (jsonScalar position.x),
    field "y" (jsonScalar position.y)]

def ArrangementRequest.json (arrangement : ArrangementRequest F) : Json :=
  .object [field "positions" (.array (arrangement.positions.map (·.json))),
    field "hidden" (.array (arrangement.hidden.map .string))]

def ControlMap.json (control : ControlMap) : Json :=
  .object (control.entries.map fun entry => (entry.1, .bool entry.2))

def LayoutRequest.json (layout : LayoutRequest F) : Json :=
  .object <|
    [field "links" (.array (layout.links.map (·.json)))] ++
    (layout.arrangement.map fun arrangement => field "arrangement" arrangement.json).toList ++
    [field "control" layout.control.json]

end Saved

/-! ## The checks -/

section Checks
variable {F : Type} [Format F]

def chooseEdge : String := "Choose a display edge."
def chooseSpan : String := "Choose a valid edge span."
def invalidCrossing : String := "This crossing has invalid display geometry."

def parseEdge (text : Text) : Except String Edge :=
  if text = "left".toList then .ok .left
  else if text = "right".toList then .ok .right
  else if text = "top".toList then .ok .top
  else if text = "bottom".toList then .ok .bottom
  else .error chooseEdge

def parseSpan (span : F × F) : Except String (NormalizedSpan F) :=
  match NormalizedSpan.new span.1 span.2 with
  | some span => .ok span
  | none => .error chooseSpan

def parseLink (link : LinkRequest F) : Except String (EdgeLink F) := do
  let fromDisplay ← parseDisplay link.fromDisplay
  let fromEdge ← parseEdge link.fromEdge
  let fromSpan ← parseSpan link.fromSpan
  let toDisplay ← parseDisplay link.toDisplay
  let toEdge ← parseEdge link.toEdge
  let toSpan ← parseSpan link.toSpan
  match EdgeLink.new fromDisplay fromEdge fromSpan toDisplay toEdge toSpan link.hysteresis with
  | some link => .ok link
  | none => .error invalidCrossing

def validSnapshot (display : DisplaySnapshot F) : Bool :=
  (match parseDisplay display.id with
    | .ok id => displayText id == display.id
    | .error _ => false) &&
    decide (textSize display.name ≤ maxDisplayNameBytes) &&
    display.nativeSize.width != 0 && display.nativeSize.height != 0 &&
    decide (display.nativeSize.width ≤ maxNativeDimension) &&
    decide (display.nativeSize.height ≤ maxNativeDimension) &&
    display.origin.isFinite && display.size.isFinite && display.scale.isFinite &&
    !Scalar.lt maxLogicalOriginAbs (Scalar.abs display.origin.x) &&
    !Scalar.lt maxLogicalOriginAbs (Scalar.abs display.origin.y) &&
    !Scalar.le display.size.x 0 && !Scalar.le display.size.y 0 &&
    !Scalar.lt maxLogicalSize display.size.x && !Scalar.lt maxLogicalSize display.size.y &&
    display.scale.isScale &&
    Scalar.isFinite (display.origin.x + display.size.x) &&
    Scalar.isFinite (display.origin.y + display.size.y)

/-- One computer's displays: each id once, compared as texts because they are canonical, and
exactly one primary display. -/
def validDisplays (displays : List (DisplaySnapshot F)) : Bool :=
  !displays.isEmpty && decide (displays.length ≤ maxDisplays) && displays.all validSnapshot &&
    decide (displays.map (·.id)).Nodup &&
    decide ((displays.filter (·.primary)).length = 1)

/-- One connected display as the arrangement's check sees it. -/
structure ArrangedDisplay where
  id : Text
  isLocal : Bool

def maxArrangedDisplays : Nat := 32
def maxArrangementCoordinate : F := Scalar.ofInt 20000000

def tooManyPlaced : String := "The arrangement places too many displays."
def placesUnknown : String := "The arrangement names a display that is not connected."
def placedOutOfRange : String := "The arrangement places a display out of range."
def hidesUnknown : String := "The arrangement hides a display that is not connected."
def hiddenPlaced : String := "A hidden display cannot also be placed."
def crossesHidden : String := "The pointer cannot cross onto a display that is not in use."
def allHidden : String := "Each computer needs at least one display in use."

/-- The positions after those of `used`. -/
def checkPositions (known : Text → Bool) (used : List Text) :
    List (DisplayPosition F) → Except String Unit
  | [] => .ok ()
  | position :: rest => do
    ensure ((parseDisplay position.display).isOk && known position.display &&
      !used.contains position.display) placesUnknown
    ensure (Scalar.isFinite position.x && Scalar.isFinite position.y &&
      !Scalar.lt maxArrangementCoordinate (Scalar.abs position.x) &&
      !Scalar.lt maxArrangementCoordinate (Scalar.abs position.y)) placedOutOfRange
    checkPositions known (used ++ [position.display]) rest

/-- Whether a crossing's end is this display, compared as numbers. -/
def namesDisplay (text : Text) (id : DisplayId) : Bool :=
  match parseDisplay text with
  | .ok parsed => parsed == id
  | .error _ => false

/-- The hidden displays after those of `used`. -/
def checkHidden (links : List (LinkRequest F)) (known : Text → Bool) (used : List Text) :
    List Text → Except String Unit
  | [] => .ok ()
  | hidden :: rest =>
    match known hidden, parseDisplay hidden with
    | true, .ok id => do
      ensure (!used.contains hidden) hiddenPlaced
      ensure (links.all fun link =>
        !namesDisplay link.fromDisplay id && !namesDisplay link.toDisplay id) crossesHidden
      checkHidden links known (used ++ [hidden]) rest
    | _, _ => .error hidesUnknown

def checkArrangement (layout : LayoutRequest F) (displays : List ArrangedDisplay) :
    Except String Unit :=
  match layout.arrangement with
  | none => .ok ()
  | some arrangement => do
    ensure (decide (arrangement.positions.length ≤ maxArrangedDisplays) &&
      decide (arrangement.hidden.length ≤ maxArrangedDisplays)) tooManyPlaced
    let known (id : Text) := displays.any fun display => display.id == id
    checkPositions known [] arrangement.positions
    checkHidden layout.links known (arrangement.positions.map (·.display)) arrangement.hidden
    forM [true, false] fun side => do
      let own := (displays.filter fun display => display.isLocal == side).map (·.id)
      ensure (own.isEmpty || !own.all fun id => arrangement.hidden.contains id) allHidden

end Checks
end Monhop.Setup
