import Monhop.Library.Bytes
import Monhop.Protocol.Admission

/-! # The binary codec

A strict codec for complete, bounded frames: a header of fixed size and a body whose layout
the message kind decides.  Floating-point fields travel as bit patterns; `FloatBits` is the
correspondence between a number and its pattern.  A fixed-width field is a number here, and
writing it keeps its low bytes.
-/

namespace Monhop.Protocol

open Monhop.Core
open Library (Table Parser toBytes)
open Library.Program (require check)

/-- The bit patterns of the 64-bit floating-point type. -/
class FloatBits (F : Type) [Scalar F] where
  toBits : F → Nat
  fromBits : Nat → F
  toBits_lt : ∀ value, toBits value < 256 ^ 8
  fromBits_toBits : ∀ value, fromBits (toBits value) = value
  toBits_fromBits : ∀ bits, bits < 256 ^ 8 → toBits (fromBits bits) = bits
  isPositiveZero_iff : ∀ value : F, Scalar.isPositiveZero value = true ↔ toBits value = 0
  toBits_zero : toBits (0 : F) = 0
  isFinite_zero : Scalar.isFinite (0 : F) = true

/-- `LKM!` -/
def magic : List UInt8 := [0x4C, 0x4B, 0x4D, 0x21]

def protocolVersion : Nat := 13
def headerLen : Nat := 28
def maxFrameLen : Nat := 8192
def maxDisplays : Nat := 16
def maxDisplayNameBytes : Nat := 96
def maxNativeDimension : Nat := 65535
def topologyPrefixLen : Nat := 4
def displayFixedLen : Nat := 64

inductive EncodeError where
  | frameTooLarge
  | invalidHelloVersion
  | invalidCapabilities
  | invalidTopology
  | nonFiniteCoordinate
  | coordinateOutOfRange
  | invalidKeyUsage
  | invalidKeyState
  | invalidClickCount
  | invalidGesture
  deriving DecidableEq

inductive DecodeError where
  | frameTooLarge
  | truncated
  | invalidMagic
  | unsupportedVersion
  | unknownMessageType
  | nonZeroReservedField
  | invalidLength
  | invalidEpoch
  | trailingBytes
  | invalidBoolean
  | invalidEnum
  | invalidCapabilities
  | invalidTopology
  | invalidUtf8
  | nonFiniteCoordinate
  | coordinateOutOfRange
  | invalidKeyUsage
  | invalidModifierMask
  | invalidKeyState
  | invalidScope
  | invalidControl
  | invalidDeclineReason
  | invalidClickCount
  | invalidGesture
  deriving DecidableEq

/-! ## Codes -/

inductive MessageKind where
  | hello
  | displayTopology
  | motion
  | button
  | scroll
  | key
  | modifiers
  | activateDisplay
  | releaseAll
  | ping
  | pong
  | disconnect
  | error
  | sessionSetup
  | activateDisplayAt
  | activationAck
  | releaseAck
  | sessionReady
  | activationDeclined
  | takeBack
  | gesture
  | systemGesture
  deriving DecidableEq

def messageKinds : Table MessageKind where
  first := 1
  values := [.hello, .displayTopology, .motion, .button, .scroll, .key, .modifiers,
    .activateDisplay, .releaseAll, .ping, .pong, .disconnect, .error, .sessionSetup,
    .activateDisplayAt, .activationAck, .releaseAck, .sessionReady, .activationDeclined,
    .takeBack, .gesture, .systemGesture]
  complete value := by cases value <;> decide
  distinct := by decide

def scopes : Table FrameScope where
  first := 0
  values := [.connection, .lowerControlsHigher, .higherControlsLower]
  complete value := by cases value <;> decide
  distinct := by decide

def platforms : Table Platform where
  first := 1
  values := [.windows, .macOs]
  complete value := by cases value <;> decide
  distinct := by decide

def sessionPurposes : Table SessionPurpose where
  first := 1
  values := [.share, .setup]
  complete value := by cases value <;> decide
  distinct := by decide

def declineReasons : Table DeclineReason where
  first := 1
  values := [.contended, .busy, .disabled]
  complete value := by cases value <;> decide
  distinct := by decide

def buttons : Table MouseButton where
  first := 1
  values := MouseButton.ALL
  complete := MouseButton.mem_ALL
  distinct := MouseButton.nodup_ALL

def disconnectCodes : Table DisconnectCode where
  first := 1
  values := [.requested, .transportLost, .protocolViolation, .sessionExpired]
  complete value := by cases value <;> decide
  distinct := by decide

def errorCodes : Table ErrorCode where
  first := 1
  values := [.malformedFrame, .unsupportedVersion, .sessionExpired, .rateLimited,
    .protocolViolation]
  complete value := by cases value <;> decide
  distinct := by decide

def gesturePhases : Table GesturePhase where
  first := 1
  values := [.began, .changed, .ended, .cancelled]
  complete value := by cases value <;> decide
  distinct := by decide

def gestureKinds : Table GestureKind where
  first := 1
  values := [.magnify, .rotate, .smartMagnify, .forceClick]
  complete value := by cases value <;> decide
  distinct := by decide

def systemGestures : Table SystemGesture where
  first := 1
  values := [.overview, .appWindows, .desktopPrevious, .desktopNext, .showDesktop, .launcher,
    .navigateBack, .navigateForward, .notificationCenter, .search, .switchAppPrevious,
    .switchAppNext]
  complete value := by cases value <;> decide
  distinct := by decide

def fromWire {Value : Type} [DecidableEq Value] (table : Table Value) (error : DecodeError)
    (code : Nat) : Except DecodeError Value :=
  match table.value? code with
  | some value => .ok value
  | none => .error error

def MessageKind.fromWire (code : Nat) : Except DecodeError MessageKind :=
  Protocol.fromWire messageKinds .unknownMessageType code

def FrameScope.fromWire (code : Nat) : Except DecodeError FrameScope :=
  Protocol.fromWire scopes .invalidScope code

def platformFromWire (code : Nat) : Except DecodeError Platform :=
  fromWire platforms .invalidEnum code

def sessionPurposeFromWire (code : Nat) : Except DecodeError SessionPurpose :=
  fromWire sessionPurposes .invalidEnum code

def declineReasonFromWire (code : Nat) : Except DecodeError DeclineReason :=
  fromWire declineReasons .invalidDeclineReason code

def buttonFromWire (code : Nat) : Except DecodeError MouseButton :=
  fromWire buttons .invalidEnum code

def disconnectFromWire (code : Nat) : Except DecodeError DisconnectCode :=
  fromWire disconnectCodes .invalidEnum code

def errorFromWire (code : Nat) : Except DecodeError ErrorCode :=
  fromWire errorCodes .invalidEnum code

def gestureKindFromWire (code : Nat) : Except DecodeError GestureKind :=
  fromWire gestureKinds .invalidEnum code

def systemGestureFromWire (code : Nat) : Except DecodeError SystemGesture :=
  fromWire systemGestures .invalidEnum code

/-- Zero is no phase. -/
def phaseFromWire (code : Nat) : Except DecodeError (Option GesturePhase) :=
  if code = 0 then .ok none else (fromWire gesturePhases .invalidEnum code).map some

def boolToWire (value : Bool) : Nat := if value then 1 else 0

def boolFromWire (code : Nat) : Except DecodeError Bool :=
  match code with
  | 0 => .ok false
  | 1 => .ok true
  | _ => .error .invalidBoolean

namespace ControlPermissions

def toWire (control : ControlPermissions) : Nat :=
  boolToWire control.lowerControlsHigher + 2 * boolToWire control.higherControlsLower

def fromWire (value : Nat) : Except DecodeError ControlPermissions :=
  if value = 0 || value > 3 then .error .invalidControl
  else .ok { lowerControlsHigher := value % 2 != 0, higherControlsLower := value / 2 % 2 != 0 }

end ControlPermissions

/-! ## Checks -/

namespace Single

def isFinite (value : Single) : Bool := value.bits / 2 ^ 23 % 256 != 255

/-- Between `0.1` and `16`: positive numbers are ordered as their bit patterns. -/
def isScale (value : Single) : Bool :=
  decide (0x3DCCCCCD ≤ value.bits) && decide (value.bits ≤ 0x41800000)

end Single

inductive TopologyError where
  | empty
  | tooManyDisplays
  | displayNameTooLong
  | duplicateDisplayId
  | invalidNativeSize
  | nonFiniteGeometry
  | geometryOverflow
  | logicalOriginOutOfRange
  | invalidLogicalSize
  | invalidScaleFactor
  | primaryDisplayCount

inductive InputPointError where
  | nonFinite
  | outOfRange

namespace InputPointError

def encodeError : InputPointError → EncodeError
  | .nonFinite => .nonFiniteCoordinate
  | .outOfRange => .coordinateOutOfRange

def decodeError : InputPointError → DecodeError
  | .nonFinite => .nonFiniteCoordinate
  | .outOfRange => .coordinateOutOfRange

end InputPointError

def gestureEncodeError : GestureError → EncodeError
  | .nonFinite => .nonFiniteCoordinate
  | .shape | .outOfRange => .invalidGesture

def gestureDecodeError : GestureError → DecodeError
  | .nonFinite => .nonFiniteCoordinate
  | .shape | .outOfRange => .invalidGesture

/-- The bits no capability names. -/
def unknownCapabilities (bits : Nat) : Nat := bits >>> 3

section Checks
variable {F : Type} [Scalar F]

def maxLogicalSize : F := Scalar.ofInt 1000000

def maxLogicalOriginAbs : F := Scalar.ofInt 1000000000

def validateInputPoint (point : Point F) : Except InputPointError Unit :=
  if !point.isFinite then .error .nonFinite
  else if Scalar.lt maxLogicalOriginAbs (Scalar.abs point.x) ||
      Scalar.lt maxLogicalOriginAbs (Scalar.abs point.y) then .error .outOfRange
  else .ok ()

namespace DisplayTopology

/-- One display against the ones before it. -/
def checkDisplay (earlier : List (DisplayDescription F)) (display : DisplayDescription F) :
    Except TopologyError Unit :=
  let origin := display.logicalOrigin
  let size := display.logicalSize
  if display.name.utf8ByteSize > maxDisplayNameBytes then .error .displayNameTooLong
  else if display.nativeWidth = 0 || display.nativeHeight = 0 ||
      display.nativeWidth > maxNativeDimension || display.nativeHeight > maxNativeDimension then
    .error .invalidNativeSize
  else if !origin.isFinite || !size.isFinite then .error .nonFiniteGeometry
  else if !Scalar.isFinite (origin.x + size.x) || !Scalar.isFinite (origin.y + size.y) then
    .error .geometryOverflow
  else if Scalar.lt maxLogicalOriginAbs (Scalar.abs origin.x) ||
      Scalar.lt maxLogicalOriginAbs (Scalar.abs origin.y) then .error .logicalOriginOutOfRange
  else if Scalar.le size.x 0 || Scalar.le size.y 0 || Scalar.lt maxLogicalSize size.x ||
      Scalar.lt maxLogicalSize size.y then .error .invalidLogicalSize
  else if !display.scaleFactor.isFinite || !display.scaleFactor.isScale then
    .error .invalidScaleFactor
  else if earlier.any fun previous => previous.id == display.id then .error .duplicateDisplayId
  else .ok ()

def checkDisplays (earlier : List (DisplayDescription F)) :
    List (DisplayDescription F) → Except TopologyError Unit
  | [] => .ok ()
  | display :: rest =>
    match checkDisplay earlier display with
    | .error error => .error error
    | .ok () => checkDisplays (earlier ++ [display]) rest

def validate (topology : DisplayTopology F) : Except TopologyError Unit :=
  if topology.displays.isEmpty then .error .empty
  else if topology.displays.length > maxDisplays then .error .tooManyDisplays
  else
    match checkDisplays [] topology.displays with
    | .error error => .error error
    | .ok () =>
      if (topology.displays.filter (·.isPrimary)).length ≠ 1 then .error .primaryDisplayCount
      else .ok ()

def new (displays : List (DisplayDescription F)) : Except TopologyError (DisplayTopology F) :=
  let topology : DisplayTopology F := { displays }
  match topology.validate with
  | .error error => .error error
  | .ok () => .ok topology

end DisplayTopology
end Checks

/-! ## Writing -/

def Message.kind {F : Type} : Message F → MessageKind
  | .hello _ => .hello
  | .sessionSetup _ => .sessionSetup
  | .sessionReady => .sessionReady
  | .displayTopology _ => .displayTopology
  | .motion _ => .motion
  | .button _ => .button
  | .scroll _ => .scroll
  | .gesture _ => .gesture
  | .systemGesture _ => .systemGesture
  | .key _ => .key
  | .modifiers _ => .modifiers
  | .activateDisplay _ => .activateDisplay
  | .activateDisplayAt _ _ _ => .activateDisplayAt
  | .activationAck _ => .activationAck
  | .activationDeclined _ _ => .activationDeclined
  | .releaseAll => .releaseAll
  | .releaseAck => .releaseAck
  | .takeBack => .takeBack
  | .ping _ => .ping
  | .pong _ => .pong
  | .disconnect _ => .disconnect
  | .error _ => .error

def Motion.point {F : Type} : Motion F → Point F
  | .absolute point | .relative point => point

def nameBytes (name : String) : List UInt8 := name.toByteArray.data.toList

section Codec
variable {F : Type} [Scalar F]

def bodyLen (message : Message F) : Except EncodeError Nat :=
  match message with
  | .hello hello =>
    if hello.protocolVersion ≠ protocolVersion then .error .invalidHelloVersion
    else if unknownCapabilities hello.capabilities ≠ 0 then .error .invalidCapabilities
    else .ok 56
  | .sessionSetup _ => .ok 8
  | .displayTopology topology =>
    match topology.validate with
    | .error _ => .error .invalidTopology
    | .ok () => .ok (topology.displays.foldl
        (fun total display => total + displayFixedLen + display.name.utf8ByteSize)
        topologyPrefixLen)
  | .motion motion =>
    match validateInputPoint motion.point with
    | .error error => .error error.encodeError
    | .ok () => .ok 20
  | .button button => if button.clickCount = 0 then .error .invalidClickCount else .ok 4
  | .scroll scroll =>
    if !Scalar.isFinite scroll.horizontal || !Scalar.isFinite scroll.vertical then
      .error .nonFiniteCoordinate
    else .ok 16
  | .gesture gesture =>
    match gesture.validate with
    | .error error => .error (gestureEncodeError error)
    | .ok () => .ok 16
  | .systemGesture _ => .ok 4
  | .key key =>
    if !key.usage.isValid then .error .invalidKeyUsage
    else if !key.isDown && key.isRepeat then .error .invalidKeyState
    else .ok 8
  | .modifiers _ => .ok 4
  | .activateDisplay _ => .ok 8
  | .activateDisplayAt _ position _ =>
    match validateInputPoint position with
    | .error error => .error error.encodeError
    | .ok () => .ok 32
  | .activationAck _ => .ok 8
  | .activationDeclined _ _ => .ok 16
  | .releaseAll | .releaseAck | .sessionReady | .takeBack => .ok 0
  | .ping _ | .pong _ => .ok 8
  | .disconnect _ | .error _ => .ok 4

variable [FloatBits F]

def writeF64 (value : F) : List UInt8 := toBytes 8 (FloatBits.toBits value)

def writePoint (point : Point F) : List UInt8 := writeF64 point.x ++ writeF64 point.y

/-- A display's record with the monitor fields given. -/
def writeDisplay (display : DisplayDescription F) (vendor product serial : Nat) : List UInt8 :=
  toBytes 8 display.id.raw ++ toBytes 1 display.name.utf8ByteSize ++
    toBytes 1 (boolToWire display.isPrimary) ++ List.replicate 2 0 ++
    toBytes 4 display.nativeWidth ++ toBytes 4 display.nativeHeight ++
    writePoint display.logicalOrigin ++ writePoint display.logicalSize ++
    toBytes 4 display.scaleFactor.bits ++ nameBytes display.name ++ toBytes 2 vendor ++ toBytes 2 product ++ toBytes 4 serial

/-- An unread identity is written as zeros. -/
def encodeDisplay (display : DisplayDescription F) : List UInt8 :=
  match display.monitor with
  | some monitor => writeDisplay display monitor.vendor monitor.product monitor.serial
  | none => writeDisplay display 0 0 0

def encodeBody (message : Message F) : List UInt8 :=
  match message with
  | .hello hello =>
    toBytes 16 hello.deviceId.raw ++ toBytes 1 (platforms.code hello.platform) ++
      List.replicate 1 0 ++ toBytes 2 hello.protocolVersion ++ toBytes 4 hello.capabilities ++
      hello.agreement.val
  | .sessionSetup setup =>
    toBytes 1 (sessionPurposes.code setup.purpose) ++ toBytes 1 setup.control.toWire ++
      List.replicate 6 0
  | .displayTopology topology =>
    toBytes 1 topology.displays.length ++ List.replicate 3 0 ++
      (topology.displays.map encodeDisplay).flatten
  | .motion motion =>
    let representation := match motion with
      | .absolute _ => 1
      | .relative _ => 2
    toBytes 1 representation ++ List.replicate 3 0 ++ writePoint motion.point
  | .button button =>
    toBytes 1 (buttons.code button.button) ++ toBytes 1 (boolToWire button.isDown) ++
      toBytes 1 button.clickCount ++ List.replicate 1 0
  | .scroll scroll => writeF64 scroll.horizontal ++ writeF64 scroll.vertical
  | .gesture gesture =>
    toBytes 1 (gestureKinds.code gesture.kind) ++
      toBytes 1 ((gesture.phase.map gesturePhases.code).getD 0) ++ List.replicate 6 0 ++
      writeF64 gesture.value
  | .systemGesture gesture => toBytes 1 (systemGestures.code gesture) ++ List.replicate 3 0
  | .key key =>
    toBytes 2 key.usage.code ++ toBytes 1 (boolToWire key.isDown) ++
      toBytes 1 (boolToWire key.isRepeat) ++ toBytes 2 key.modifiers.bits ++ List.replicate 2 0
  | .modifiers modifiers => toBytes 2 modifiers.bits ++ List.replicate 2 0
  | .activateDisplay displayId => toBytes 8 displayId.raw
  | .activateDisplayAt displayId position controlAsCommand =>
    toBytes 8 displayId.raw ++ writePoint position ++ toBytes 1 (boolToWire controlAsCommand) ++
      List.replicate 7 0
  | .activationAck displayId => toBytes 8 displayId.raw
  | .activationDeclined displayId reason =>
    toBytes 8 displayId.raw ++ toBytes 1 (declineReasons.code reason) ++ List.replicate 7 0
  | .releaseAll | .releaseAck | .sessionReady | .takeBack => []
  | .ping nonce | .pong nonce => toBytes 8 nonce
  | .disconnect code => toBytes 1 (disconnectCodes.code code) ++ List.replicate 3 0
  | .error code => toBytes 1 (errorCodes.code code) ++ List.replicate 3 0

/-- The header of a frame whose body has the given length. -/
def encodeHeader (frame : Frame F) (bodyLen : Nat) : List UInt8 :=
  toBytes 2 protocolVersion ++ toBytes 1 (messageKinds.code frame.message.kind) ++
    toBytes 1 (scopes.code frame.scope) ++ toBytes 2 bodyLen ++ toBytes 2 0 ++
    toBytes 8 frame.epoch.get ++ toBytes 8 frame.sequence

def Frame.encodedLen (frame : Frame F) : Except EncodeError Nat :=
  match bodyLen frame.message with
  | .error error => .error error
  | .ok length =>
    if headerLen + length ≤ maxFrameLen then .ok (headerLen + length) else .error .frameTooLarge

def encodeInto (frame : Frame F) : Except EncodeError (List UInt8) :=
  match frame.encodedLen with
  | .error error => .error error
  | .ok total =>
    if total - headerLen < 256 ^ 2 then
      .ok (magic ++ encodeHeader frame (total - headerLen) ++ encodeBody frame.message)
    else .error .frameTooLarge

/-! ## Reading -/

abbrev Cursor (Value : Type) := Parser DecodeError Value

def readU8 : Cursor Nat := Parser.natural .truncated 1
def readU16 : Cursor Nat := Parser.natural .truncated 2
def readU32 : Cursor Nat := Parser.natural .truncated 4
def readU64 : Cursor Nat := Parser.natural .truncated 8
def takeBytes (count : Nat) : Cursor (List UInt8) := Parser.take .truncated count
def requireZero (count : Nat) : Cursor Unit := Parser.zeros .truncated .nonZeroReservedField count

def readCode {Value : Type} (value : Nat → Except DecodeError Value) : Cursor Value := do
  let code ← readU8
  check (value code)

def readBool : Cursor Bool := readCode boolFromWire

def readF32 : Cursor Single := do
  let bits ← readU32
  let value : Single := { bits }
  require value.isFinite .nonFiniteCoordinate
  pure value

def readModifiers : Cursor ModifierState := do
  let raw ← readU16
  require (raw >>> 8 == 0) .invalidModifierMask
  pure ⟨raw⟩

def readDisplayId : Cursor DisplayId := do
  let raw ← readU64
  pure ⟨raw⟩

def nameFromBytes (bytes : List UInt8) : Except DecodeError String :=
  match String.fromUTF8? ⟨bytes.toArray⟩ with
  | some name => .ok name
  | none => .error .invalidUtf8

def takeArray (size : Nat) : Cursor (ByteArrayOf size) := do
  let bytes ← takeBytes size
  if sized : bytes.length = size then pure ⟨bytes, sized⟩ else throw .truncated

def decodeHello : Cursor (Message F) := do
  let deviceId ← Parser.natural .truncated 16
  let platform ← readCode platformFromWire
  requireZero 1
  let version ← readU16
  require (version == protocolVersion) .unsupportedVersion
  let capabilities ← readU32
  require (unknownCapabilities capabilities == 0) .invalidCapabilities
  let agreement ← takeArray 32
  pure (.hello
    { deviceId := ⟨deviceId⟩, platform, protocolVersion := version, capabilities, agreement })

def decodeSetup : Cursor (Message F) := do
  let purpose ← readCode sessionPurposeFromWire
  let control ← readCode ControlPermissions.fromWire
  requireZero 6
  require (!(purpose == .setup && control != .BOTH)) .invalidControl
  pure (.sessionSetup { purpose, control })

def decodeButton : Cursor (Message F) := do
  let button ← readCode buttonFromWire
  let isDown ← readBool
  let clickCount ← readU8
  require (clickCount != 0) .invalidClickCount
  requireZero 1
  pure (.button { button, isDown, clickCount })

def decodeSystemGesture : Cursor (Message F) := do
  let gesture ← readCode systemGestureFromWire
  requireZero 3
  pure (.systemGesture gesture)

def decodeKey : Cursor (Message F) := do
  let code ← readU16
  let usage : HidUsage := ⟨code⟩
  require usage.isValid .invalidKeyUsage
  let isDown ← readBool
  let isRepeat ← readBool
  let modifiers ← readModifiers
  requireZero 2
  require (!(!isDown && isRepeat)) .invalidKeyState
  pure (.key { usage, isDown, isRepeat, modifiers })

def decodeModifiers : Cursor (Message F) := do
  let modifiers ← readModifiers
  requireZero 2
  pure (.modifiers modifiers)

def decodeDeclined : Cursor (Message F) := do
  let displayId ← readDisplayId
  let reason ← readCode declineReasonFromWire
  requireZero 7
  pure (.activationDeclined displayId reason)

def decodeDisconnect : Cursor (Message F) := do
  let code ← readCode disconnectFromWire
  requireZero 3
  pure (.disconnect code)

def decodeError : Cursor (Message F) := do
  let code ← readCode errorFromWire
  requireZero 3
  pure (.error code)

def readF64 : Cursor F := do
  let bits ← readU64
  let value : F := FloatBits.fromBits bits
  require (Scalar.isFinite value) .nonFiniteCoordinate
  pure value

def readPoint : Cursor (Point F) := do
  let x ← readF64
  let y ← readF64
  pure ⟨x, y⟩

/-- A point input may carry. -/
def readInputPoint : Cursor (Point F) := do
  let point ← readPoint
  check ((validateInputPoint point).mapError InputPointError.decodeError)
  pure point

def decodeDisplay : Cursor (DisplayDescription F) := do
  let id ← readDisplayId
  let nameLen ← readU8
  let isPrimary ← readBool
  requireZero 2
  let nativeWidth ← readU32
  let nativeHeight ← readU32
  let logicalOrigin ← readPoint
  let logicalSize ← readPoint
  let scaleFactor ← readF32
  require (decide (nameLen ≤ maxDisplayNameBytes)) .invalidTopology
  let bytes ← takeBytes nameLen
  let name ← check (nameFromBytes bytes)
  let vendor ← readU16
  let product ← readU16
  let serial ← readU32
  pure { id, name, nativeWidth, nativeHeight, logicalOrigin, logicalSize, scaleFactor, isPrimary
         monitor := MonitorIdentity.new vendor product serial }

def decodeTopology : Cursor (Message F) := do
  let count ← readU8
  requireZero 3
  require (count != 0 && decide (count ≤ maxDisplays)) .invalidTopology
  let displays ← Parser.repeated decodeDisplay count
  let topology ← check ((DisplayTopology.new displays).mapError fun _ => .invalidTopology)
  pure (.displayTopology topology)

def decodeMotion : Cursor (Message F) := do
  let representation ← readU8
  requireZero 3
  let point ← readInputPoint
  match representation with
  | 1 => pure (.motion (.absolute point))
  | 2 => pure (.motion (.relative point))
  | _ => throw .invalidEnum

def decodeScroll : Cursor (Message F) := do
  let horizontal ← readF64
  let vertical ← readF64
  pure (.scroll { horizontal, vertical })

def decodeGesture : Cursor (Message F) := do
  let kind ← readCode gestureKindFromWire
  let phase ← readCode phaseFromWire
  requireZero 6
  let value ← readF64
  let gesture ← check ((PointerGesture.fromParts kind phase value).mapError gestureDecodeError)
  pure (.gesture gesture)

def decodeActivateAt : Cursor (Message F) := do
  let displayId ← readDisplayId
  let position ← readInputPoint
  let controlAsCommand ← readBool
  requireZero 7
  pure (.activateDisplayAt displayId position controlAsCommand)

def decodeBody (kind : MessageKind) : Cursor (Message F) :=
  match kind with
  | .hello => decodeHello
  | .sessionSetup => decodeSetup
  | .displayTopology => decodeTopology
  | .motion => decodeMotion
  | .button => decodeButton
  | .scroll => decodeScroll
  | .gesture => decodeGesture
  | .systemGesture => decodeSystemGesture
  | .key => decodeKey
  | .modifiers => decodeModifiers
  | .activateDisplay => do
    let displayId ← readDisplayId
    pure (.activateDisplay displayId)
  | .activateDisplayAt => decodeActivateAt
  | .activationAck => do
    let displayId ← readDisplayId
    pure (.activationAck displayId)
  | .activationDeclined => decodeDeclined
  | .releaseAll => pure .releaseAll
  | .releaseAck => pure .releaseAck
  | .sessionReady => pure .sessionReady
  | .takeBack => pure .takeBack
  | .ping => do
    let nonce ← readU64
    pure (.ping nonce)
  | .pong => do
    let nonce ← readU64
    pure (.pong nonce)
  | .disconnect => decodeDisconnect
  | .error => decodeError

structure FrameHeader where
  kind : MessageKind
  scope : FrameScope
  epoch : SessionEpoch
  sequence : Nat

/-- The header of an input of the given size. -/
def decodeHeader (size : Nat) : Cursor FrameHeader := do
  let version ← readU16
  require (version == protocolVersion) .unsupportedVersion
  let kind ← readCode MessageKind.fromWire
  let scope ← readCode FrameScope.fromWire
  let bodyLen ← readU16
  let reserved ← readU16
  require (reserved == 0) .nonZeroReservedField
  require (headerLen + bodyLen == size) .invalidLength
  let raw ← readU64
  let epoch ← check ((SessionEpoch.new raw).mapError fun _ => .invalidEpoch)
  let sequence ← readU64
  pure { kind, scope, epoch, sequence }

def decode (input : List UInt8) : Except DecodeError (Frame F) :=
  if input.length > maxFrameLen then .error .frameTooLarge
  else if input.length < headerLen then .error .truncated
  else if input.take 4 ≠ magic then .error .invalidMagic
  else
    match (decodeHeader input.length).exec ((input.take headerLen).drop 4) with
    | (.error error, _) => .error error
    | (.ok header, _) =>
      match (decodeBody header.kind).exec (input.drop headerLen) with
      | (.error error, _) => .error error
      | (.ok message, rest) =>
        if rest ≠ [] then .error .trailingBytes
        else .ok ((Frame.new header.epoch header.sequence message).withScope header.scope)

end Codec
end Monhop.Protocol
