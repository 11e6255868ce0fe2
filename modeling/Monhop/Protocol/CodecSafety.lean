import Monhop.Protocol.Codec

/-! # The codec reads back what it writes

Each layout has one equivalence between the messages its decoder yields and the bytes they
were read from.  Read from right to left it is the round trip; read from left to right it
says which byte strings the decoder accepts.

The one field with several spellings is the identity of a display's monitor: an identity
without vendor or product decodes to no identity, whatever else it carries.  `Spelled` is
therefore a relation between a message and its bodies, and `encodeBody` picks one of them.
-/

namespace Monhop.Protocol

open Monhop.Core List DisplayTopology PointerGesture FrameHeader
open Library (Table Parser toBytes ofBytes length_toBytes ofBytes_toBytes toBytes_inj
  uniquelyDecodable_of_antichain)
open Library.Program (yields_bind yields_pure yields_throw yields_require yields_check)
open Library.Parser (natural_yields zeros_yields take_yields)

-- Substituting a spelling would otherwise evaluate the bytes of its first number.
attribute [local irreducible] toBytes

variable {input rest : List UInt8}

/-! ## Fields -/

variable {Value : Type}

theorem readCode_yields {fromWire : Nat → Except DecodeError Value} {toWire : Value → Nat}
    (bound : ∀ value, toWire value < 256)
    (inverse : ∀ {code value}, fromWire code = .ok value ↔ code = toWire value) {value : Value} :
    (readCode fromWire).Yields input value rest ↔ input = toBytes 1 (toWire value) ++ rest := by
  simp only [readCode, readU8, yields_bind, natural_yields, yields_check, inverse, existsAndEq,
    and_true]
  exact and_iff_right (bound value)

theorem fromWire_eq_ok [DecidableEq Value] {table : Table Value} {error : DecodeError} {code : Nat}
    {value : Value} : fromWire table error code = .ok value ↔ code = table.code value := by
  rw [← Table.value?_eq_some]
  unfold fromWire
  cases table.value? code <;> simp

theorem readTable_yields [DecidableEq Value] (table : Table Value)
    (fromWire : Nat → Except DecodeError Value) (small : table.first + table.values.length ≤ 256)
    {error : DecodeError} (reads : fromWire = Protocol.fromWire table error) {value : Value} :
    (readCode fromWire).Yields input value rest ↔ input = toBytes 1 (table.code value) ++ rest := by
  subst reads
  refine readCode_yields (fun value => ?_) fromWire_eq_ok
  have position := idxOf_lt_length_of_mem (table.complete value)
  unfold Table.code
  omega

theorem boolFromWire_eq_ok {code : Nat} {value : Bool} :
    boolFromWire code = .ok value ↔ code = boolToWire value := by
  match code with
  | 0 | 1 | _ + 2 => cases value <;> simp [boolFromWire, boolToWire]

theorem controlFromWire_eq_ok {code : Nat} {control : ControlPermissions} :
    ControlPermissions.fromWire code = .ok control ↔ code = control.toWire ∧ control.toWire ≠ 0 := by
  match code with
  | 0 | 1 | 2 | 3 | _ + 4 =>
    rcases control with ⟨_ | _, _ | _⟩ <;>
      simp [ControlPermissions.fromWire, ControlPermissions.toWire, boolToWire]

def phaseToWire (phase : Option GesturePhase) : Nat := (phase.map gesturePhases.code).getD 0

variable {phase : Option GesturePhase}

theorem phaseFromWire_eq_ok {code : Nat} :
    phaseFromWire code = .ok phase ↔ code = phaseToWire phase := by
  unfold phaseFromWire
  split
  · next zero =>
    subst zero
    rcases phase with _ | (_ | _ | _ | _) <;> simp [phaseToWire] <;> decide
  next some =>
  cases phase with
  | none => cases fromWire gesturePhases .invalidEnum code <;> simp [phaseToWire, some, Except.map]
  | some phase =>
    have inverse := @fromWire_eq_ok _ _ gesturePhases .invalidEnum code phase
    cases found : fromWire gesturePhases .invalidEnum code with
    | error => simpa [found, phaseToWire, Except.map] using inverse
    | ok value => simpa [found, phaseToWire, Except.map] using inverse

theorem readControl_yields {control : ControlPermissions} :
    (readCode ControlPermissions.fromWire).Yields input control rest ↔
      control.toWire ≠ 0 ∧ input = toBytes 1 control.toWire ++ rest := by
  have bound : control.toWire < 256 ^ 1 := by rcases control with ⟨_ | _, _ | _⟩ <;> decide
  simp only [readCode, readU8, yields_bind, natural_yields, yields_check, controlFromWire_eq_ok,
    existsAndEq, and_true, bound, true_and]
  exact and_comm

theorem readPhase_yields :
    (readCode phaseFromWire).Yields input phase rest ↔
      input = toBytes 1 (phaseToWire phase) ++ rest := by
  refine readCode_yields (fun phase => ?_) phaseFromWire_eq_ok
  rcases phase with _ | (_ | _ | _ | _) <;> decide

theorem readBool_yields {value : Bool} :
    readBool.Yields input value rest ↔ input = toBytes 1 (boolToWire value) ++ rest :=
  readCode_yields (by decide) boolFromWire_eq_ok

theorem readModifiers_yields {modifiers : ModifierState} :
    readModifiers.Yields input modifiers rest ↔
      modifiers.bits < 256 ∧ input = toBytes 2 modifiers.bits ++ rest := by
  obtain ⟨bits⟩ := modifiers
  simp only [readModifiers, readU16, yields_bind, natural_yields, yields_require, yields_pure,
    Nat.shiftRight_eq_div_pow, beq_iff_eq, existsAndEq, and_true, exists_const,
    ModifierState.mk.injEq]
  rw [and_right_comm]
  exact and_congr_left fun _ => by omega

theorem readDisplayId_yields {id : DisplayId} :
    readDisplayId.Yields input id rest ↔ id.raw < 256 ^ 8 ∧ input = toBytes 8 id.raw ++ rest := by
  obtain ⟨raw⟩ := id
  simp only [readDisplayId, readU64, yields_bind, natural_yields, yields_pure, existsAndEq,
    and_true, DisplayId.mk.injEq]

theorem readF32_yields {value : Single} :
    readF32.Yields input value rest ↔
      (value.bits < 256 ^ 4 ∧ value.isFinite = true) ∧ input = toBytes 4 value.bits ++ rest := by
  obtain ⟨bits⟩ := value
  simp only [readF32, readU32, yields_bind, natural_yields, yields_require, yields_pure,
    existsAndEq, exists_const, and_true, Single.mk.injEq]
  exact and_right_comm

theorem nameFromBytes_eq_ok {bytes : List UInt8} {name : String} :
    nameFromBytes bytes = .ok name ↔ bytes = nameBytes name := by
  unfold nameFromBytes String.fromUTF8?
  split
  · next found same =>
    split at same
    · next valid =>
      cases same
      simp only [Except.ok.injEq, nameBytes]
      constructor
      · rintro rfl
        rfl
      · intro same
        rw [← String.toByteArray_inj]
        exact ByteArray.ext (Array.ext' same)
    · cases same
  · next same =>
    split at same
    · cases same
    · next invalid =>
      simp only [reduceCtorEq, false_iff]
      rintro rfl
      exact invalid name.isValidUTF8

theorem length_nameBytes (name : String) : (nameBytes name).length = name.utf8ByteSize := rfl

theorem takeArray_yields {size : Nat} {bytes : ByteArrayOf size} :
    (takeArray size).Yields input bytes rest ↔ input = bytes.val ++ rest := by
  simp only [takeArray, takeBytes, yields_bind, take_yields]
  constructor
  · rintro ⟨found, _, ⟨sized, rfl⟩, yields⟩
    rw [dif_pos sized, yields_pure] at yields
    obtain ⟨rfl, rfl⟩ := yields
    rfl
  · rintro rfl
    refine ⟨bytes.val, _, ⟨bytes.property, rfl⟩, ?_⟩
    rw [dif_pos bytes.property, yields_pure]
    exact ⟨rfl, rfl⟩

theorem ite_error_eq_ok {Error : Type} {failed : Prop} [Decidable failed] {error : Error}
    {next : Except Error Value} {value : Value} :
    (if failed then .error error else next) = .ok value ↔ ¬failed ∧ next = .ok value := by
  split <;> simp [*]

theorem mapError_eq_ok {Error Other : Type} {result : Except Error Value} {rename : Error → Other}
    {value : Value} : result.mapError rename = .ok value ↔ result = .ok value := by
  cases result <;> simp [Except.mapError]

section Numbers
variable {F : Type} [Scalar F] {point : Point F} {gesture : PointerGesture F}

theorem isFinite_of_validateInputPoint (valid : validateInputPoint point = .ok ()) :
    point.isFinite = true := by
  unfold validateInputPoint at valid
  split at valid
  · cases valid
  · next finite => simpa using finite

theorem validate_eq_ok :
    gesture.validate = .ok () ↔
      ∃ found, fromParts gesture.kind gesture.phase gesture.value = .ok found := by
  unfold PointerGesture.validate
  cases fromParts gesture.kind gesture.phase gesture.value <;> simp

theorem eq_of_parts {first second : PointerGesture F} (kind : first.kind = second.kind)
    (phase : first.phase = second.phase) (value : first.value = second.value) : first = second := by
  cases first <;> cases second <;>
    simp_all [PointerGesture.kind, PointerGesture.phase, PointerGesture.value]

variable [FloatBits F]

theorem readF64_yields {value : F} :
    readF64.Yields input value rest ↔
      Scalar.isFinite value = true ∧ input = writeF64 value ++ rest := by
  simp only [readF64, readU64, yields_bind, natural_yields, yields_require, yields_pure, writeF64,
    existsAndEq, exists_const, and_true]
  constructor
  · rintro ⟨bits, ⟨bound, rfl⟩, finite, rfl⟩
    exact ⟨finite, by rw [FloatBits.toBits_fromBits bits bound]⟩
  · rintro ⟨finite, rfl⟩
    have back := FloatBits.fromBits_toBits value
    exact ⟨_, ⟨FloatBits.toBits_lt value, rfl⟩, by rwa [back], back⟩

theorem readPoint_yields :
    readPoint.Yields input point rest ↔
      point.isFinite = true ∧ input = writePoint point ++ rest := by
  obtain ⟨x, y⟩ := point
  simp only [readPoint, yields_bind, readF64_yields, yields_pure, writePoint, Point.isFinite,
    Bool.and_eq_true, append_assoc, existsAndEq, and_true, Point.mk.injEq]
  exact and_right_comm

theorem readInputPoint_yields :
    readInputPoint.Yields input point rest ↔
      validateInputPoint point = .ok () ∧ input = writePoint point ++ rest := by
  simp only [readInputPoint, yields_bind, readPoint_yields, yields_check, mapError_eq_ok,
    yields_pure, existsAndEq, and_true]
  constructor
  · rintro ⟨_, ⟨_, spelled⟩, valid⟩
    exact ⟨valid, spelled⟩
  · rintro ⟨valid, spelled⟩
    exact ⟨_, ⟨isFinite_of_validateInputPoint valid, spelled⟩, valid⟩

theorem eq_zero_of_isPositiveZero {value : F} (zero : Scalar.isPositiveZero value = true) :
    value = 0 := by
  have pattern := (FloatBits.isPositiveZero_iff value).mp zero
  rw [← FloatBits.fromBits_toBits value, pattern, ← FloatBits.toBits_zero (F := F),
    FloatBits.fromBits_toBits]

/-- A gesture has the parts it was made of. -/
theorem parts_of_fromParts {kind : GestureKind} {value : F}
    (made : fromParts kind phase value = .ok gesture) :
    kind = gesture.kind ∧ phase = gesture.phase ∧ value = gesture.value ∧
      Scalar.isFinite value = true := by
  unfold fromParts at made
  split at made
  · next discrete =>
    split at made
    · cases made
    next plain =>
    simp only [Bool.or_eq_true, Bool.not_eq_true', not_or, Bool.not_eq_true,
      Bool.not_eq_false, Option.isSome_eq_false_iff, Option.isNone_iff_eq_none] at plain
    obtain ⟨rfl, zero⟩ := plain
    have none := eq_zero_of_isPositiveZero zero
    subst none
    cases kind <;> cases made <;>
      first | exact ⟨rfl, rfl, rfl, FloatBits.isFinite_zero⟩ | cases discrete
  · next continuous =>
    cases phase with
    | none => cases made
    | some phase =>
      simp only [Bool.not_eq_true'] at made
      split at made
      · cases made
      · next finite =>
        simp only [Bool.not_eq_false] at finite
        cases kind <;> simp only at made <;> split at made <;> cases made <;>
          first | exact ⟨rfl, rfl, rfl, finite⟩ | exact absurd rfl continuous

/-- Parts stand for the one valid gesture that has them. -/
theorem fromParts_eq_ok {kind : GestureKind} {value : F} :
    fromParts kind phase value = .ok gesture ↔
      gesture.validate = .ok () ∧ kind = gesture.kind ∧ phase = gesture.phase ∧
        value = gesture.value := by
  rw [validate_eq_ok]
  constructor
  · intro made
    obtain ⟨rfl, rfl, rfl, _⟩ := parts_of_fromParts made
    exact ⟨⟨gesture, made⟩, rfl, rfl, rfl⟩
  · rintro ⟨⟨found, made⟩, rfl, rfl, rfl⟩
    obtain ⟨kind, phase, value, _⟩ := parts_of_fromParts made
    rw [made, eq_of_parts kind phase value]

theorem isFinite_value (valid : gesture.validate = .ok ()) :
    Scalar.isFinite gesture.value = true := by
  obtain ⟨found, made⟩ := validate_eq_ok.mp valid
  exact (parts_of_fromParts made).2.2.2

end Numbers

/-! ## Headers -/

def Frame.header {F : Type} (frame : Frame F) : FrameHeader :=
  { kind := frame.message.kind, scope := frame.scope, epoch := frame.epoch
    sequence := frame.sequence }

/-- The bytes between the magic and the body. -/
def FrameHeader.bytes (header : FrameHeader) (length : Nat) : List UInt8 :=
  toBytes 2 protocolVersion ++ toBytes 1 (messageKinds.code header.kind) ++
    toBytes 1 (scopes.code header.scope) ++ toBytes 2 length ++ toBytes 2 0 ++
    toBytes 8 header.epoch.get ++ toBytes 8 header.sequence

theorem FrameHeader.length_bytes (header : FrameHeader) (length : Nat) :
    (header.bytes length).length = 24 := by
  simp [FrameHeader.bytes]

theorem epochNew_eq_ok {raw : Nat} {epoch : SessionEpoch} :
    SessionEpoch.new raw = .ok epoch ↔ raw = epoch.get := by
  unfold SessionEpoch.new
  split
  · rw [Except.ok.injEq]
    constructor
    · rintro rfl
      rfl
    · rintro rfl
      rfl
  · next zero =>
    simp only [reduceCtorEq, false_iff]
    rintro rfl
    exact zero epoch.positive

theorem decodeHeader_yields {size : Nat} {header : FrameHeader} :
    (decodeHeader size).Yields input header rest ↔
      ∃ length, (headerLen + length = size ∧ length < 256 ^ 2) ∧ header.epoch.get < 256 ^ 8 ∧
        header.sequence < 256 ^ 8 ∧ input = header.bytes length ++ rest := by
  obtain ⟨kind, scope, epoch, sequence⟩ := header
  simp only [decodeHeader, readU16, readU64, yields_bind, natural_yields, yields_require,
    yields_check, yields_pure, mapError_eq_ok, epochNew_eq_ok, beq_iff_eq,
    readTable_yields messageKinds MessageKind.fromWire (by decide) rfl,
    readTable_yields scopes FrameScope.fromWire (by decide) rfl, FrameHeader.bytes,
    FrameHeader.mk.injEq, append_assoc, existsAndEq, exists_const, and_true, true_and]
  constructor
  · rintro ⟨length, ⟨_, spelled⟩, narrow, _, whole, epochBound, sequenceBound⟩
    exact ⟨length, ⟨whole, narrow⟩, epochBound, sequenceBound, spelled⟩
  · rintro ⟨length, ⟨whole, narrow⟩, epochBound, sequenceBound, spelled⟩
    exact ⟨length, ⟨by decide, spelled⟩, narrow, by decide, whole, epochBound, sequenceBound⟩

/-! ## Well-formed messages -/

/-- The values a proposal may carry: some direction, and both for setup. -/
def SessionSetup.Formed (setup : SessionSetup) : Prop :=
  setup.control.toWire ≠ 0 ∧ (setup.purpose = .setup → setup.control = .BOTH)

variable {vendor product serial : Nat}

theorem monitorNew_eq_some {monitor : MonitorIdentity} :
    MonitorIdentity.new vendor product serial = some monitor ↔
      vendor = monitor.vendor ∧ product = monitor.product ∧ serial = monitor.serial := by
  unfold MonitorIdentity.new
  split
  · rw [Option.some.injEq]
    constructor
    · rintro rfl
      exact ⟨rfl, rfl, rfl⟩
    · rintro ⟨rfl, rfl, rfl⟩
      rfl
  · next absent =>
    simp only [reduceCtorEq, false_iff]
    rintro ⟨rfl, rfl, -⟩
    exact absent ⟨monitor.vendor_ne, monitor.product_ne⟩

section Messages
variable {F : Type}

/-- The numbers of a display fit their fields. -/
structure DisplayDescription.Formed (display : DisplayDescription F) : Prop where
  id : display.id.raw < 256 ^ 8
  nativeWidth : display.nativeWidth < 256 ^ 4
  nativeHeight : display.nativeHeight < 256 ^ 4
  scaleFactor : display.scaleFactor.bits < 256 ^ 4
  monitor : ∀ monitor ∈ display.monitor,
    monitor.vendor < 256 ^ 2 ∧ monitor.product < 256 ^ 2 ∧ monitor.serial < 256 ^ 4

/-- The numbers of a message fit their fields, and a proposal carries values it may. -/
def Message.Formed : Message F → Prop
  | .hello greeting => greeting.deviceId.raw < 256 ^ 16 ∧ greeting.capabilities < 256 ^ 4
  | .sessionSetup setup => setup.Formed
  | .displayTopology topology => ∀ display ∈ topology.displays, display.Formed
  | .button pressed => pressed.clickCount < 256
  | .key pressed => pressed.usage.code < 256 ^ 2 ∧ pressed.modifiers.bits < 256
  | .modifiers held => held.bits < 256
  | .activateDisplay displayId | .activateDisplayAt displayId _ _ | .activationAck displayId
  | .activationDeclined displayId _ => displayId.raw < 256 ^ 8
  | .ping nonce | .pong nonce => nonce < 256 ^ 8
  | .sessionReady | .motion _ | .scroll _ | .gesture _ | .systemGesture _ | .releaseAll
  | .releaseAck | .takeBack | .disconnect _ | .error _ => True

variable [Scalar F]

/-- The encoder accepts the message. -/
def Message.Writable (message : Message F) : Prop := ∃ length, bodyLen message = .ok length

/-- What the encoder checks of a message. -/
def Message.Checked : Message F → Prop
  | .hello greeting =>
    greeting.protocolVersion = protocolVersion ∧ unknownCapabilities greeting.capabilities = 0
  | .displayTopology topology => topology.validate = .ok ()
  | .motion moved => validateInputPoint moved.point = .ok ()
  | .button pressed => pressed.clickCount ≠ 0
  | .scroll turned =>
    Scalar.isFinite turned.horizontal = true ∧ Scalar.isFinite turned.vertical = true
  | .gesture made => made.validate = .ok ()
  | .key pressed =>
    pressed.usage.isValid = true ∧ (!(!pressed.isDown && pressed.isRepeat)) = true
  | .activateDisplayAt _ position _ => validateInputPoint position = .ok ()
  | _ => True

theorem writable_iff {message : Message F} : message.Writable ↔ message.Checked := by
  cases message <;> simp only [Message.Writable, Message.Checked, bodyLen]
  case hello =>
    split
    · simp_all
    · split <;> simp_all
  case displayTopology topology => cases topology.validate <;> simp
  case motion motion => cases validateInputPoint motion.point <;> simp
  case button => split <;> simp_all
  case scroll turned =>
    cases Scalar.isFinite turned.horizontal <;> cases Scalar.isFinite turned.vertical <;> simp
  case gesture gesture => cases gesture.validate <;> simp
  case key pressed =>
    cases pressed.usage.isValid <;> cases pressed.isDown <;> cases pressed.isRepeat <;> simp
  case activateDisplayAt position _ => cases validateInputPoint position <;> simp
  all_goals simp

/-- What the decoder asks of a display before the whole list is validated. -/
structure DisplayDescription.Readable (display : DisplayDescription F) : Prop where
  formed : display.Formed
  name : display.name.utf8ByteSize ≤ maxDisplayNameBytes
  logicalOrigin : display.logicalOrigin.isFinite = true
  logicalSize : display.logicalSize.isFinite = true
  scaleFactor : display.scaleFactor.isFinite = true

theorem readable_of_checkDisplay {earlier : List (DisplayDescription F)}
    {display : DisplayDescription F} (formed : display.Formed)
    (passed : checkDisplay earlier display = .ok ()) : display.Readable := by
  simp only [checkDisplay, ite_error_eq_ok, Bool.or_eq_true, Bool.not_eq_true',
    decide_eq_true_eq, not_or, Bool.not_eq_false] at passed
  obtain ⟨short, _, finite, _, _, _, scale, _⟩ := passed
  exact ⟨formed, Nat.le_of_not_lt short, finite.1, finite.2, scale.1⟩

variable {displays : List (DisplayDescription F)}

theorem checkDisplay_of_checkDisplays {earlier : List (DisplayDescription F)}
    (passed : checkDisplays earlier displays = .ok ()) :
    ∀ display ∈ displays, ∃ before, checkDisplay before display = .ok () := by
  induction displays generalizing earlier with
  | nil => simp
  | cons first others ih =>
    unfold checkDisplays at passed
    split at passed
    · cases passed
    next own =>
    intro display member
    cases member with
    | head => exact ⟨earlier, own⟩
    | tail _ member => exact ih passed display member

/-- A valid topology is one to sixteen displays that each pass their own checks. -/
theorem of_validate {topology : DisplayTopology F} (valid : topology.validate = .ok ())
    (formed : ∀ display ∈ topology.displays, display.Formed) :
    topology.displays.length ≠ 0 ∧ topology.displays.length ≤ maxDisplays ∧
      ∀ display ∈ topology.displays, display.Readable := by
  simp only [DisplayTopology.validate, ite_error_eq_ok] at valid
  obtain ⟨some, few, valid⟩ := valid
  split at valid
  · cases valid
  next passed =>
  refine ⟨by simpa using some, Nat.le_of_not_lt few, fun display member => ?_⟩
  obtain ⟨before, passes⟩ := checkDisplay_of_checkDisplays passed display member
  exact readable_of_checkDisplay (formed display member) passes

theorem topologyNew_eq_ok {topology : DisplayTopology F} :
    DisplayTopology.new displays = .ok topology ↔
      displays = topology.displays ∧ topology.validate = .ok () := by
  simp only [DisplayTopology.new]
  constructor
  · intro made
    split at made
    · cases made
    · next valid =>
      cases made
      exact ⟨rfl, valid⟩
  · rintro ⟨rfl, valid⟩
    rw [valid]

variable [FloatBits F]

/-- A record that decodes to the display. -/
def DisplayDescription.Spelled (display : DisplayDescription F) (bytes : List UInt8) : Prop :=
  ∃ vendor product serial, vendor < 256 ^ 2 ∧ product < 256 ^ 2 ∧ serial < 256 ^ 4 ∧
    MonitorIdentity.new vendor product serial = display.monitor ∧
    bytes = writeDisplay display vendor product serial

/-- A body that decodes to the message. -/
def Message.Spelled (message : Message F) (body : List UInt8) : Prop :=
  match message with
  | .displayTopology topology =>
    ∃ records, List.Forall₂ DisplayDescription.Spelled topology.displays records ∧
      body = toBytes 1 topology.displays.length ++ List.replicate 3 0 ++ records.flatten
  | message => body = encodeBody message

/-- What a layout with one spelling reads: a well-formed message from its bytes. -/
abbrev Message.Reads (message : Message F) (input rest : List UInt8) : Prop :=
  message.Formed ∧ message.Writable ∧ input = encodeBody message ++ rest

/-! ## Layouts of fixed size -/

variable {message : Message F}

theorem exists_reads {make : Value → Message F} :
    (∃ value, message = make value ∧ message.Reads input rest) ↔
      ∃ value, message = make value ∧ (make value).Formed ∧ (make value).Checked ∧
        input = encodeBody (make value) ++ rest := by
  refine exists_congr fun value => and_congr_right ?_
  rintro rfl
  rw [Message.Reads, writable_iff]

theorem decodeHello_yields :
    decodeHello.Yields input message rest ↔
      ∃ hello, message = .hello hello ∧ message.Reads input rest := by
  simp only [decodeHello, readU16, readU32, requireZero, yields_bind, natural_yields, zeros_yields,
    yields_require, yields_pure, takeArray_yields, beq_iff_eq, exists_reads, encodeBody,
    append_assoc, readTable_yields platforms platformFromWire (by decide) rfl, existsAndEq,
    exists_const, and_true, true_and]
  constructor
  · rintro ⟨deviceId, platform, capabilities, agreement, ⟨deviceBound, rfl⟩, _, capabilityBound,
      known, rfl⟩
    exact ⟨_, rfl, ⟨deviceBound, capabilityBound⟩, ⟨rfl, known⟩, rfl⟩
  · rintro ⟨hello, rfl, ⟨deviceBound, capabilityBound⟩, ⟨current, known⟩, spelled⟩
    obtain ⟨⟨deviceId⟩, platform, version, capabilities, agreement⟩ := hello
    obtain rfl : version = protocolVersion := current
    exact ⟨_, _, _, _, ⟨deviceBound, spelled⟩, by decide, capabilityBound, known, rfl⟩

theorem decodeSetup_yields :
    decodeSetup.Yields input message rest ↔
      ∃ setup, message = .sessionSetup setup ∧ message.Reads input rest := by
  simp only [decodeSetup, requireZero, yields_bind, zeros_yields, yields_require, yields_pure,
    readTable_yields sessionPurposes sessionPurposeFromWire (by decide) rfl, readControl_yields,
    exists_reads, encodeBody, append_assoc, existsAndEq, exists_const, and_true, true_and]
  constructor
  · rintro ⟨purpose, control, rfl, some, whole, rfl⟩
    refine ⟨_, rfl, ⟨some, ?_⟩, trivial, rfl⟩
    rintro rfl
    simpa using whole
  · rintro ⟨setup, rfl, ⟨some, whole⟩, -, spelled⟩
    refine ⟨_, _, spelled, some, ?_, rfl⟩
    cases purpose : setup.purpose with
    | share => rfl
    | setup => simp [whole purpose]

theorem decodeMotion_yields :
    decodeMotion.Yields input message rest ↔
      ∃ motion, message = .motion motion ∧ message.Reads input rest := by
  simp only [decodeMotion, readU8, requireZero, yields_bind, natural_yields, zeros_yields,
    readInputPoint_yields, exists_reads, encodeBody, append_assoc, existsAndEq, exists_const,
    and_true, true_and]
  constructor
  · rintro ⟨representation, point, _, ⟨_, rfl⟩, valid, yields⟩
    split at yields
    · obtain ⟨rfl, rfl⟩ := yields_pure.mp yields
      exact ⟨_, rfl, trivial, valid, rfl⟩
    · obtain ⟨rfl, rfl⟩ := yields_pure.mp yields
      exact ⟨_, rfl, trivial, valid, rfl⟩
    · exact absurd yields yields_throw
  · rintro ⟨motion, rfl, -, valid, spelled⟩
    cases motion
    · exact ⟨1, _, _, ⟨by decide, spelled⟩, valid, yields_pure.mpr ⟨rfl, rfl⟩⟩
    · exact ⟨2, _, _, ⟨by decide, spelled⟩, valid, yields_pure.mpr ⟨rfl, rfl⟩⟩

theorem decodeButton_yields :
    decodeButton.Yields input message rest ↔
      ∃ button, message = .button button ∧ message.Reads input rest := by
  simp only [decodeButton, readU8, requireZero, yields_bind, natural_yields, zeros_yields,
    yields_require, yields_pure, readBool_yields, exists_reads, encodeBody, append_assoc,
    readTable_yields buttons buttonFromWire (by decide) rfl, bne_iff_ne, existsAndEq, exists_const,
    and_true, true_and]
  constructor
  · rintro ⟨button, isDown, clickCount, rfl, bound, counted, rfl⟩
    exact ⟨_, rfl, bound, counted, rfl⟩
  · rintro ⟨button, rfl, bound, counted, spelled⟩
    exact ⟨_, _, _, spelled, bound, counted, rfl⟩

theorem decodeScroll_yields :
    decodeScroll.Yields input message rest ↔
      ∃ scroll, message = .scroll scroll ∧ message.Reads input rest := by
  simp only [decodeScroll, yields_bind, readF64_yields, yields_pure, exists_reads, encodeBody,
    append_assoc, existsAndEq, and_true]
  constructor
  · rintro ⟨horizontal, vertical, ⟨first, rfl⟩, second, rfl⟩
    exact ⟨_, rfl, trivial, ⟨first, second⟩, rfl⟩
  · rintro ⟨scroll, rfl, -, ⟨first, second⟩, spelled⟩
    exact ⟨_, _, ⟨first, spelled⟩, second, rfl⟩

theorem decodeGesture_yields :
    decodeGesture.Yields input message rest ↔
      ∃ gesture, message = .gesture gesture ∧ message.Reads input rest := by
  simp only [decodeGesture, requireZero, yields_bind, zeros_yields, readF64_yields, yields_check,
    yields_pure, mapError_eq_ok, fromParts_eq_ok, exists_reads, encodeBody, append_assoc,
    readTable_yields gestureKinds gestureKindFromWire (by decide) rfl, readPhase_yields,
    existsAndEq, exists_const, and_true, true_and]
  constructor
  · rintro ⟨gesture, rfl, _, valid, rfl⟩
    exact ⟨_, rfl, trivial, valid, rfl⟩
  · rintro ⟨gesture, rfl, -, valid, spelled⟩
    exact ⟨gesture, spelled, isFinite_value valid, valid, rfl⟩

theorem decodeKey_yields :
    decodeKey.Yields input message rest ↔ ∃ key, message = .key key ∧ message.Reads input rest := by
  simp only [decodeKey, readU16, requireZero, yields_bind, natural_yields, zeros_yields,
    yields_require, yields_pure, readBool_yields, readModifiers_yields, exists_reads, encodeBody,
    append_assoc, existsAndEq, exists_const, and_true, true_and]
  constructor
  · rintro ⟨code, isDown, isRepeat, modifiers, ⟨bound, rfl⟩, valid, low, state, rfl⟩
    exact ⟨_, rfl, ⟨bound, low⟩, ⟨valid, state⟩, rfl⟩
  · rintro ⟨key, rfl, ⟨bound, low⟩, ⟨valid, state⟩, spelled⟩
    exact ⟨_, _, _, _, ⟨bound, spelled⟩, valid, low, state, rfl⟩

theorem decodeActivateAt_yields :
    decodeActivateAt.Yields input message rest ↔
      ∃ displayId position controlAsCommand,
        message = .activateDisplayAt displayId position controlAsCommand ∧
          message.Reads input rest := by
  simp only [decodeActivateAt, requireZero, yields_bind, zeros_yields, yields_pure,
    readDisplayId_yields, readInputPoint_yields, readBool_yields, exists_reads, encodeBody,
    append_assoc, existsAndEq, exists_const, and_true, true_and]
  constructor
  · rintro ⟨displayId, position, control, ⟨bound, rfl⟩, valid, rfl⟩
    exact ⟨_, _, _, rfl, bound, valid, rfl⟩
  · rintro ⟨displayId, position, control, rfl, bound, valid, spelled⟩
    exact ⟨_, _, _, ⟨bound, spelled⟩, valid, rfl⟩

theorem decodeDeclined_yields :
    decodeDeclined.Yields input message rest ↔
      ∃ displayId reason,
        message = .activationDeclined displayId reason ∧ message.Reads input rest := by
  simp only [decodeDeclined, requireZero, yields_bind, zeros_yields, yields_pure, exists_reads,
    encodeBody, append_assoc, readDisplayId_yields, readTable_yields declineReasons
    declineReasonFromWire (by decide) rfl, existsAndEq, exists_const, and_true, true_and]
  constructor
  · rintro ⟨displayId, reason, ⟨bound, rfl⟩, rfl⟩
    exact ⟨_, _, rfl, bound, trivial, rfl⟩
  · rintro ⟨displayId, reason, rfl, bound, -, spelled⟩
    exact ⟨_, _, ⟨bound, spelled⟩, rfl⟩

section OneField
variable {reader : Cursor Value} {bound : Value → Prop} {spell : Value → List UInt8}
  {make : Value → Message F}

section
variable (reads : ∀ {input value rest},
  reader.Yields input value rest ↔ bound value ∧ input = spell value ++ rest)
  (formed : ∀ value, (make value).Formed ↔ bound value) (writable : ∀ value, (make value).Writable)
include reads formed writable

theorem decodeField_yields (own : ∀ value, encodeBody (make value) = spell value) :
    (do let value ← reader; pure (make value) : Cursor (Message F)).Yields input message rest ↔
      ∃ value, message = make value ∧ message.Reads input rest := by
  simp only [yields_bind, reads, yields_pure, existsAndEq, and_true]
  refine exists_congr fun value => ?_
  rw [and_comm, eq_comm]
  refine and_congr_right ?_
  rintro rfl
  simp only [Message.Reads, formed, writable, own, true_and]

theorem decodePadded_yields {count : Nat}
    (own : ∀ value, encodeBody (make value) = spell value ++ List.replicate count 0) :
    (do let value ← reader; requireZero count; pure (make value) :
        Cursor (Message F)).Yields input message rest ↔
      ∃ value, message = make value ∧ message.Reads input rest := by
  simp only [requireZero, yields_bind, reads, zeros_yields, yields_pure, existsAndEq, exists_const,
    and_true, true_and]
  refine exists_congr fun value => ?_
  rw [and_comm, eq_comm]
  refine and_congr_right ?_
  rintro rfl
  simp only [Message.Reads, formed, writable, own, true_and, append_assoc]

end

theorem decodeCode_yields [DecidableEq Value] {table : Table Value}
    {fromWire : Nat → Except DecodeError Value} {error : DecodeError} {count : Nat}
    (small : table.first + table.values.length ≤ 256)
    (reads : fromWire = Protocol.fromWire table error) (formed : ∀ value, (make value).Formed)
    (writable : ∀ value, (make value).Writable) (own : ∀ value, encodeBody (make value) =
      toBytes 1 (table.code value) ++ List.replicate count 0) :
    (do let value ← readCode fromWire; requireZero count; pure (make value) :
        Cursor (Message F)).Yields input message rest ↔
      ∃ value, message = make value ∧ message.Reads input rest := by
  have read : ∀ {input value rest}, (readCode fromWire).Yields input value rest ↔
      True ∧ input = toBytes 1 (table.code value) ++ rest := by
    simp [readTable_yields table fromWire small reads]
  exact decodePadded_yields read (fun value => iff_true_intro (formed value)) writable own

end OneField

theorem decodeEmpty_yields (empty : Message F) (formed : empty.Formed) (writable : empty.Writable)
    (own : encodeBody empty = []) :
    (pure empty : Cursor (Message F)).Yields input message rest ↔
      message = empty ∧ message.Reads input rest := by
  rw [yields_pure]
  constructor
  · rintro ⟨rfl, rfl⟩
    exact ⟨rfl, formed, writable, by rw [own]; rfl⟩
  · rintro ⟨rfl, -, -, spelled⟩
    rw [own] at spelled
    exact ⟨rfl, spelled⟩

/-! ## Display lists -/

theorem decodeDisplay_yields {display : DisplayDescription F} :
    decodeDisplay.Yields input display rest ↔
      ∃ bytes, (display.Readable ∧ display.Spelled bytes) ∧ input = bytes ++ rest := by
  simp only [decodeDisplay, readU8, readU16, readU32, requireZero, takeBytes, yields_bind,
    natural_yields, zeros_yields, take_yields, yields_require, yields_check, yields_pure,
    readDisplayId_yields, readBool_yields, readPoint_yields, readF32_yields, nameFromBytes_eq_ok,
    decide_eq_true_eq, length_nameBytes, existsAndEq, exists_const, and_true, true_and]
  constructor
  · rintro ⟨id, isPrimary, nativeWidth, nativeHeight, logicalOrigin, logicalSize, scaleFactor, name,
      vendor, product, serial, ⟨idBound, rfl⟩, _, widthBound, heightBound, origin, size,
      ⟨scaleBound, scale⟩, short, vendorBound, productBound, serialBound, rfl⟩
    refine ⟨_, ⟨⟨⟨idBound, widthBound, heightBound, scaleBound, ?_⟩, short, origin, size, scale⟩,
      vendor, product, serial, vendorBound, productBound, serialBound, rfl, rfl⟩, ?_⟩
    · intro monitor read
      obtain ⟨rfl, rfl, rfl⟩ := monitorNew_eq_some.mp read
      exact ⟨vendorBound, productBound, serialBound⟩
    · simp only [writeDisplay, append_assoc]
  · rintro ⟨bytes, ⟨⟨formed, short, origin, size, scale⟩, vendor, product, serial, vendorBound,
      productBound, serialBound, read, own⟩, spelled⟩
    have narrow : display.name.utf8ByteSize < 256 ^ 1 := Nat.lt_of_le_of_lt short (by decide)
    simp only [own, writeDisplay, append_assoc] at spelled
    exact ⟨_, _, _, _, _, _, _, _, vendor, product, serial, ⟨formed.id, spelled⟩, narrow,
      formed.nativeWidth, formed.nativeHeight, origin, size, ⟨formed.scaleFactor, scale⟩, short,
      vendorBound, productBound, serialBound, by rw [read]⟩

theorem repeated_display_yields {count : Nat} :
    (Parser.repeated decodeDisplay count).Yields input displays rest ↔
      displays.length = count ∧ ∃ records, ((∀ display ∈ displays, display.Readable) ∧
        List.Forall₂ DisplayDescription.Spelled displays records) ∧
          input = records.flatten ++ rest := by
  simp only [Parser.repeated_yields decodeDisplay_yields, forall₂_and_left]

theorem decodeTopology_yields :
    decodeTopology.Yields input message rest ↔
      ∃ topology, message = .displayTopology topology ∧ message.Formed ∧ message.Writable ∧
        ∃ body, message.Spelled body ∧ input = body ++ rest := by
  simp only [decodeTopology, readU8, requireZero, yields_bind, natural_yields, zeros_yields,
    yields_require, yields_check, yields_pure, repeated_display_yields, writable_iff,
    mapError_eq_ok, topologyNew_eq_ok, Bool.and_eq_true, bne_iff_ne, decide_eq_true_eq, existsAndEq,
    exists_const, and_true, true_and]
  constructor
  · rintro ⟨topology, records, ⟨_, rfl⟩, _, ⟨readable, spelled⟩, valid, rfl⟩
    refine ⟨topology, rfl, fun display member => (readable display member).formed, valid, _,
      ⟨records, spelled, rfl⟩, ?_⟩
    simp only [append_assoc]
  · rintro ⟨topology, rfl, formed, valid, body, ⟨records, spelled, rfl⟩, same⟩
    obtain ⟨some, few, readable⟩ := of_validate valid formed
    have narrow : topology.displays.length < 256 ^ 1 := Nat.lt_of_le_of_lt few (by decide)
    simp only [append_assoc] at same
    exact ⟨topology, records, ⟨narrow, same⟩, ⟨some, few⟩, ⟨readable, spelled⟩, valid, rfl⟩

/-! ## Bodies -/

/-- Every layout but the display list spells a message in one way. -/
theorem spelled_of_ne {body : List UInt8} (other : message.kind ≠ .displayTopology) :
    message.Spelled body ↔ body = encodeBody message := by
  cases message <;> first | exact Iff.rfl | exact absurd rfl other

theorem fixed_iff {kind : MessageKind} {shape : Prop} (other : kind ≠ .displayTopology)
    (shaped : shape ↔ message.kind = kind) :
    shape ∧ message.Reads input rest ↔
      message.kind = kind ∧ message.Formed ∧ message.Writable ∧
        ∃ body, message.Spelled body ∧ input = body ++ rest := by
  rw [shaped]
  refine and_congr_right fun same => and_congr_right fun _ => and_congr_right fun _ => ?_
  simp only [spelled_of_ne (same ▸ other), exists_eq_left]

theorem readU64_yields {value : Nat} :
    readU64.Yields input value rest ↔ value < 256 ^ 8 ∧ input = toBytes 8 value ++ rest :=
  natural_yields

/-- A body decodes exactly to the well-formed messages it spells. -/
theorem decodeBody_yields {kind : MessageKind} :
    (decodeBody kind).Yields input message rest ↔
      message.kind = kind ∧ message.Formed ∧ message.Writable ∧
        ∃ body, message.Spelled body ∧ input = body ++ rest := by
  cases kind
  case displayTopology =>
    rw [decodeBody, decodeTopology_yields, exists_and_right]
    exact and_congr_left fun _ => by cases message <;> simp [Message.kind]
  case' activateDisplay | activationAck =>
    rw [decodeBody, decodeField_yields readDisplayId_yields (fun _ => Iff.rfl) (fun _ => ⟨8, rfl⟩)
      fun _ => rfl, exists_and_right]
  case' ping | pong =>
    rw [decodeBody, decodeField_yields readU64_yields (fun _ => Iff.rfl) (fun _ => ⟨8, rfl⟩)
      fun _ => rfl, exists_and_right]
  case' modifiers =>
    rw [decodeBody, decodeModifiers, decodePadded_yields readModifiers_yields (fun _ => Iff.rfl)
      (fun _ => ⟨4, rfl⟩) fun _ => rfl, exists_and_right]
  case' systemGesture | disconnect | error =>
    refine Iff.trans
      (decodeCode_yields (by decide) rfl (fun _ => trivial) (fun _ => ⟨4, rfl⟩) fun _ => rfl) ?_
    rw [exists_and_right]
  case' releaseAll | releaseAck | sessionReady | takeBack =>
    rw [decodeBody, decodeEmpty_yields _ (by trivial) ⟨0, rfl⟩ rfl]
  -- Every other kind has its own layout.
  case' hello | sessionSetup | motion | button | scroll | gesture | key | activateDisplayAt
    | activationDeclined =>
    simp only [decodeBody, decodeHello_yields, decodeSetup_yields, decodeMotion_yields,
      decodeButton_yields, decodeScroll_yields, decodeGesture_yields, decodeKey_yields,
      decodeActivateAt_yields, decodeDeclined_yields, exists_and_right]
  all_goals exact fixed_iff (by decide) (by cases message <;> simp [Message.kind])

/-! ## Lengths -/

@[simp] theorem length_writeF64 (value : F) : (writeF64 value).length = 8 := length_toBytes ..

@[simp] theorem length_writePoint (point : Point F) : (writePoint point).length = 16 := by
  simp [writePoint]

theorem length_writeDisplay (display : DisplayDescription F) (vendor product serial : Nat) :
    (writeDisplay display vendor product serial).length =
      displayFixedLen + display.name.utf8ByteSize := by
  simp only [writeDisplay, length_append, length_toBytes, length_writePoint,
    length_nameBytes, length_replicate, displayFixedLen]
  omega

theorem length_records {records : List (List UInt8)}
    (spelled : List.Forall₂ DisplayDescription.Spelled displays records) (start : Nat) :
    displays.foldl (fun total display => total + displayFixedLen + display.name.utf8ByteSize) start =
      start + records.flatten.length := by
  induction spelled generalizing start with
  | nil => rfl
  | cons own _ ih =>
    obtain ⟨vendor, product, serial, _, _, _, _, same⟩ := own
    rw [foldl_cons, ih, flatten_cons, length_append, same, length_writeDisplay]
    omega

theorem length_encodeBody {length : Nat} (other : message.kind ≠ .displayTopology)
    (accepted : bodyLen message = .ok length) : (encodeBody message).length = length := by
  cases message with
  | displayTopology => exact absurd rfl other
  | hello hello =>
    have sized := hello.agreement.property
    simp only [bodyLen] at accepted
    split at accepted
    · cases accepted
    · split at accepted <;> cases accepted
      simp [encodeBody, sized]
  | key key =>
    simp only [bodyLen] at accepted
    split at accepted
    · cases accepted
    · split at accepted <;> cases accepted
      simp [encodeBody]
  | motion | button | scroll | gesture | activateDisplayAt =>
    simp only [bodyLen] at accepted
    split at accepted <;> cases accepted
    simp [encodeBody]
  | _ =>
    cases accepted
    simp [encodeBody]

/-- The encoder counts the bytes of every body that spells the message. -/
theorem length_of_spelled {length : Nat} {body : List UInt8}
    (accepted : bodyLen message = .ok length) (spelled : message.Spelled body) :
    body.length = length := by
  by_cases other : message.kind = .displayTopology
  · cases message <;> cases other
    obtain ⟨records, own, same⟩ := spelled
    simp only [bodyLen] at accepted
    split at accepted <;> cases accepted
    rw [length_records own, same, length_append, length_append, length_toBytes,
      length_replicate, topologyPrefixLen]
  · rw [(spelled_of_ne other).mp spelled]
    exact length_encodeBody other accepted

/-! ## Frames -/

/-- The numbers of a frame fit their fields, and a proposal carries values it may. -/
structure Frame.Formed (frame : Frame F) : Prop where
  epoch : frame.epoch.get < 256 ^ 8
  sequence : frame.sequence < 256 ^ 8
  message : frame.message.Formed

variable {frame : Frame F}

/-- The decoder accepts exactly the spellings of well-formed frames. -/
theorem decode_eq_ok {bytes : List UInt8} :
    decode bytes = .ok frame ↔
      frame.Formed ∧ frame.message.Writable ∧ bytes.length ≤ maxFrameLen ∧
        ∃ body, frame.message.Spelled body ∧
          bytes = magic ++ frame.header.bytes body.length ++ body := by
  constructor
  · intro accepted
    simp only [decode, ite_error_eq_ok] at accepted
    obtain ⟨bounded, long, marked, accepted⟩ := accepted
    split at accepted
    · cases accepted
    next header left headed =>
    split at accepted
    · cases accepted
    next message behind read =>
    obtain ⟨whole, accepted⟩ := ite_error_eq_ok.mp accepted
    cases accepted
    obtain ⟨length, ⟨total, _⟩, epochBound, sequenceBound, headerBytes⟩ :=
      decodeHeader_yields.mp headed
    obtain ⟨same, formed, writable, body, spelled, bodyBytes⟩ := decodeBody_yields.mp read
    have sizes := congrArg List.length headerBytes
    have bodySize := congrArg List.length bodyBytes
    simp only [not_not] at whole marked
    subst whole
    simp only [length_drop, length_take, length_append, length_nil,
      length_bytes, headerLen, Nat.not_lt] at sizes bodySize total long
    have left_nil : left = [] := eq_nil_of_length_eq_zero (by omega)
    have lengths : body.length = length := by omega
    refine ⟨⟨epochBound, sequenceBound, formed⟩, writable, Nat.le_of_not_lt bounded, body, spelled, ?_⟩
    subst left_nil lengths
    rw [append_nil] at headerBytes bodyBytes
    have front : (bytes.take headerLen).take 4 = magic := by
      rw [take_take]
      exact marked
    have headers : ((Frame.new header.epoch header.sequence message).withScope header.scope).header =
        header := by
      simp only [Frame.header, Frame.withScope, Frame.new, same]
    rw [headers]
    calc bytes = bytes.take headerLen ++ bytes.drop headerLen := (take_append_drop ..).symm
      _ = (bytes.take headerLen).take 4 ++ (bytes.take headerLen).drop 4 ++ bytes.drop headerLen := by
        rw [take_append_drop 4 (bytes.take headerLen)]
      _ = magic ++ header.bytes body.length ++ body := by rw [front, headerBytes, bodyBytes]
  · rintro ⟨formed, writable, bounded, body, spelled, same⟩
    have headSize : (magic ++ frame.header.bytes body.length).length = headerLen := by
      rw [length_append, length_bytes]
      rfl
    have size : headerLen + body.length = bytes.length := by
      rw [same, length_append, headSize]
    have head : bytes.take headerLen = magic ++ frame.header.bytes body.length := by
      rw [same, take_left' headSize]
    have tail : bytes.drop headerLen = body := by
      rw [same, drop_left' headSize]
    have marked : bytes.take 4 = magic := by
      rw [same, append_assoc]
      rfl
    have headed : (decodeHeader bytes.length).Yields ((bytes.take headerLen).drop 4)
        frame.header [] := by
      have narrow : body.length < 256 ^ 2 := by
        simp only [maxFrameLen] at bounded
        omega
      refine decodeHeader_yields.mpr
        ⟨body.length, ⟨size, narrow⟩, formed.epoch, formed.sequence, ?_⟩
      rw [head, append_nil]
      rfl
    have read : (decodeBody frame.header.kind).Yields (bytes.drop headerLen) frame.message [] :=
      decodeBody_yields.mpr
        ⟨rfl, formed.message, writable, body, spelled, by rw [tail, append_nil]⟩
    unfold decode
    rw [if_neg (by omega), if_neg (by omega), if_neg (by simp [marked]), headed]
    simp only
    rw [read]
    rfl

theorem encodeInto_eq_ok {bytes : List UInt8} :
    encodeInto frame = .ok bytes ↔
      ∃ length, bodyLen frame.message = .ok length ∧ headerLen + length ≤ maxFrameLen ∧
        bytes = magic ++ frame.header.bytes length ++ encodeBody frame.message := by
  unfold encodeInto Frame.encodedLen
  cases bodyLen frame.message with
  | error error => simp
  | ok length =>
    simp only [Except.ok.injEq, exists_eq_left']
    by_cases fits : headerLen + length ≤ maxFrameLen
    · have narrow : headerLen + length - headerLen < 256 ^ 2 := by
        simp only [maxFrameLen, headerLen] at fits
        omega
      rw [if_pos fits]
      rw [Nat.add_sub_cancel_left] at narrow
      simp only [Nat.add_sub_cancel_left, if_pos narrow, Except.ok.injEq, fits, true_and]
      exact eq_comm
    · simp [fits]

/-! ## Round trip -/

theorem spelled_encodeDisplay {display : DisplayDescription F} (formed : display.Formed) :
    display.Spelled (encodeDisplay display) := by
  cases read : display.monitor with
  | none => exact ⟨0, 0, 0, by decide, by decide, by decide, by rw [read]; rfl, by
      simp only [encodeDisplay, read]⟩
  | some monitor =>
    obtain ⟨vendor, product, serial⟩ := formed.monitor monitor read
    exact ⟨_, _, _, vendor, product, serial, by rw [read, monitorNew_eq_some]; exact ⟨rfl, rfl, rfl⟩,
      by simp only [encodeDisplay, read]⟩

theorem spelled_encodeBody (formed : message.Formed) : message.Spelled (encodeBody message) := by
  cases message with
  | displayTopology topology =>
    refine ⟨topology.displays.map encodeDisplay, ?_, rfl⟩
    rw [forall₂_map_right_iff, forall₂_same]
    exact fun display member => spelled_encodeDisplay (formed display member)
  | _ => rfl

/-- A frame that is encoded fills exactly the bytes counted for it and is decoded again. -/
theorem decode_encodeInto {bytes : List UInt8} (formed : frame.Formed)
    (written : encodeInto frame = .ok bytes) :
    frame.encodedLen = .ok bytes.length ∧ bytes.length ≤ maxFrameLen ∧
      decode bytes = .ok frame := by
  obtain ⟨length, accepted, fits, same⟩ := encodeInto_eq_ok.mp written
  have spelled := spelled_encodeBody formed.message
  have sized := length_of_spelled accepted spelled
  have total : bytes.length = headerLen + length := by
    rw [same, length_append, length_append, length_bytes, sized]
    rfl
  have bounded : bytes.length ≤ maxFrameLen := total ▸ fits
  refine ⟨?_, bounded, ?_⟩
  · simp only [Frame.encodedLen, accepted, if_pos fits, total]
  · exact decode_eq_ok.mpr
      ⟨formed, ⟨length, accepted⟩, bounded, encodeBody frame.message, spelled, by rw [sized, same]⟩

/-! ## Streams -/

/-- The header announces the length. -/
theorem length_of_decode {bytes : List UInt8} (accepted : decode bytes = .ok frame) :
    headerLen ≤ bytes.length ∧ bytes.length = headerLen + ofBytes ((bytes.drop 8).take 2) := by
  obtain ⟨-, -, bounded, body, -, rfl⟩ := decode_eq_ok.mp accepted
  have size : (magic ++ frame.header.bytes body.length ++ body).length = headerLen + body.length := by
    rw [length_append, length_append, length_bytes]
    rfl
  have narrow : body.length < 256 ^ 2 := by
    rw [size, maxFrameLen] at bounded
    omega
  refine ⟨size ▸ Nat.le_add_right .., size.trans ?_⟩
  simp [FrameHeader.bytes, magic, drop_append, drop_eq_nil_of_le, ofBytes_toBytes narrow]

theorem decode_delimited {bytes rest : List UInt8} {other : Frame F}
    (accepted : decode bytes = .ok frame) (longer : decode (bytes ++ rest) = .ok other) :
    rest = [] := by
  obtain ⟨long, size⟩ := length_of_decode accepted
  have total := (length_of_decode longer).2
  rw [headerLen] at long
  rw [drop_append_of_le_length (by omega), take_append_of_le_length (by rw [length_drop]; omega),
    ← size, length_append] at total
  exact eq_nil_of_length_eq_zero (by omega)

/-- No frame begins another, so a stream of frames can be cut in one way only. -/
theorem frames_uniquelyDecodable :
    IsAntichain (· <+: ·) {bytes | ∃ frame : Frame F, decode bytes = .ok frame} ∧
      InformationTheory.UniquelyDecodable {bytes | ∃ frame : Frame F, decode bytes = .ok frame} := by
  have apart : IsAntichain (· <+: ·) {bytes | ∃ frame : Frame F, decode bytes = .ok frame} := by
    rintro bytes ⟨_, read⟩ _ ⟨_, longer⟩ other ⟨rest, rfl⟩
    rw [decode_delimited read longer, append_nil] at other
    exact other rfl
  refine ⟨apart, uniquelyDecodable_of_antichain apart ?_⟩
  rintro ⟨_, read⟩
  cases read

end Messages

/-! ## Canonical spelling -/

/-- The monitor fields of consecutive display records: eight bytes behind the fixed fields
and the name, whose length the ninth byte gives. -/
def monitorFields : Nat → List UInt8 → List (List UInt8)
  | 0, _ => []
  | count + 1, records =>
    let front := 56 + ofBytes ((records.drop 8).take 1)
    (records.drop front).take 8 :: monitorFields count (records.drop (front + 8))

/-- A monitor field that is empty or names both a vendor and a product. -/
def PlainMonitor (field : List UInt8) : Prop :=
  field = List.replicate 8 0 ∨ ofBytes (field.take 2) ≠ 0 ∧ ofBytes ((field.drop 2).take 2) ≠ 0

/-- Every monitor field of a frame that carries a display list is plain. -/
def PlainMonitors (bytes : List UInt8) : Prop :=
  (bytes.drop 6).take 1 = toBytes 1 (messageKinds.code .displayTopology) →
    ∀ field ∈ monitorFields (ofBytes ((bytes.drop headerLen).take 1)) (bytes.drop (headerLen + 4)),
      PlainMonitor field

section Canonical
variable {F : Type} [Scalar F] [FloatBits F] {frame : Frame F}

def monitorField (vendor product serial : Nat) : List UInt8 :=
  toBytes 2 vendor ++ toBytes 2 product ++ toBytes 4 serial

section Record
variable (display : DisplayDescription F)

/-- The bytes of a record before its monitor field. -/
def recordFront : List UInt8 :=
  toBytes 8 display.id.raw ++ (toBytes 1 display.name.utf8ByteSize ++
    (toBytes 1 (boolToWire display.isPrimary) ++ List.replicate 2 0 ++ toBytes 4 display.nativeWidth ++
      toBytes 4 display.nativeHeight ++ writePoint display.logicalOrigin ++
      writePoint display.logicalSize ++ toBytes 4 display.scaleFactor.bits ++
      nameBytes display.name))

theorem writeDisplay_eq (vendor product serial : Nat) :
    writeDisplay display vendor product serial =
      recordFront display ++ monitorField vendor product serial := by
  simp only [writeDisplay, recordFront, monitorField, append_assoc]

theorem length_recordFront : (recordFront display).length = 56 + display.name.utf8ByteSize := by
  simp only [recordFront, length_append, length_toBytes, length_writePoint, length_nameBytes,
    length_replicate]
  omega

end Record

section
variable (vendorBound : vendor < 256 ^ 2) (productBound : product < 256 ^ 2)
  (serialBound : serial < 256 ^ 4)
include vendorBound productBound serialBound

theorem monitorField_eq_zero :
    monitorField vendor product serial = List.replicate 8 0 ↔
      vendor = 0 ∧ product = 0 ∧ serial = 0 := by
  have zero : (List.replicate 8 0 : List UInt8) = toBytes 2 0 ++ toBytes 2 0 ++ toBytes 4 0 := by
    simp [toBytes]
  rw [zero, monitorField, append_eq_append_iff_of_size_eq_left (by simp),
    append_eq_append_iff_of_size_eq_left (by simp), toBytes_inj vendorBound (by decide),
    toBytes_inj productBound (by decide), toBytes_inj serialBound (by decide), and_assoc]

theorem plainMonitor_iff :
    PlainMonitor (monitorField vendor product serial) ↔
      vendor = 0 ∧ product = 0 ∧ serial = 0 ∨ vendor ≠ 0 ∧ product ≠ 0 := by
  have first : (monitorField vendor product serial).take 2 = toBytes 2 vendor := by
    rw [monitorField, append_assoc, take_left' (length_toBytes ..)]
  have second : ((monitorField vendor product serial).drop 2).take 2 = toBytes 2 product := by
    rw [monitorField, append_assoc, drop_left' (length_toBytes ..), take_left' (length_toBytes ..)]
  rw [PlainMonitor, monitorField_eq_zero vendorBound productBound serialBound, first, second,
    ofBytes_toBytes vendorBound, ofBytes_toBytes productBound]

theorem encodeDisplay_eq_iff {display : DisplayDescription F}
    (read : MonitorIdentity.new vendor product serial = display.monitor) :
    encodeDisplay display = writeDisplay display vendor product serial ↔
      PlainMonitor (monitorField vendor product serial) := by
  rw [plainMonitor_iff vendorBound productBound serialBound]
  cases found : display.monitor with
  | none =>
    have absent : ¬(vendor ≠ 0 ∧ product ≠ 0) := by
      intro present
      rw [found, MonitorIdentity.new, dif_pos present] at read
      cases read
    rw [or_iff_left absent, ← monitorField_eq_zero vendorBound productBound serialBound]
    have zero : monitorField 0 0 0 = List.replicate 8 0 := by simp [monitorField, toBytes]
    simp only [encodeDisplay, found, writeDisplay_eq]
    rw [append_cancel_left_eq, zero]
    exact eq_comm
  | some monitor =>
    rw [found] at read
    obtain ⟨rfl, rfl, rfl⟩ := monitorNew_eq_some.mp read
    simp [encodeDisplay, found, monitor.vendor_ne, monitor.product_ne]

end

/-- Display records are what the encoder writes exactly where their monitor fields are plain. -/
theorem encodeDisplays_eq_iff {displays : List (DisplayDescription F)} {records : List (List UInt8)}
    (spelled : List.Forall₂ DisplayDescription.Spelled displays records)
    (short : ∀ display ∈ displays, display.name.utf8ByteSize ≤ maxDisplayNameBytes) :
    (displays.map encodeDisplay).flatten = records.flatten ↔
      ∀ field ∈ monitorFields displays.length records.flatten, PlainMonitor field := by
  induction spelled with
  | nil => simp [monitorFields]
  | @cons display record displays records own others ih =>
    obtain ⟨vendor, product, serial, vendorBound, productBound, serialBound, read, same⟩ := own
    have narrow : display.name.utf8ByteSize < 256 ^ 1 :=
      Nat.lt_of_le_of_lt (short display mem_cons_self) (by decide)
    have front := length_recordFront display
    have split : (record :: records).flatten =
        recordFront display ++ (monitorField vendor product serial ++ records.flatten) := by
      rw [flatten_cons, same, writeDisplay_eq, append_assoc]
    have named : ofBytes ((((record :: records).flatten).drop 8).take 1) =
        display.name.utf8ByteSize := by
      rw [split, recordFront, append_assoc, drop_left' (length_toBytes ..),
        append_assoc, take_left' (length_toBytes ..), ofBytes_toBytes narrow]
    have field : (((record :: records).flatten).drop (56 + display.name.utf8ByteSize)).take 8 =
        monitorField vendor product serial := by
      rw [split, drop_left' front, take_left' (by simp [monitorField])]
    have behind : ((record :: records).flatten).drop (56 + display.name.utf8ByteSize + 8) =
        records.flatten := by
      rw [← drop_drop, split, drop_left' front, drop_left' (by simp [monitorField])]
    have lengths : (encodeDisplay display).length = record.length := by
      rw [same, length_writeDisplay]
      unfold encodeDisplay
      split <;> exact length_writeDisplay ..
    rw [length_cons, monitorFields]
    simp only [named, field, behind, forall_mem_cons]
    rw [map_cons, flatten_cons, flatten_cons,
      append_eq_append_iff_of_size_eq_left lengths, same,
      encodeDisplay_eq_iff vendorBound productBound serialBound read,
      ih fun display member => short display (mem_cons_of_mem _ member)]

omit [Scalar F] [FloatBits F] in
/-- The kind and the body of an accepted byte string stand at fixed places. -/
theorem parts_of_spelling {bytes body : List UInt8}
    (same : bytes = magic ++ frame.header.bytes body.length ++ body) :
    (bytes.drop 6).take 1 = toBytes 1 (messageKinds.code frame.message.kind) ∧
      bytes.drop headerLen = body := by
  constructor
  · have marked : (magic ++ toBytes 2 protocolVersion).length = 6 := by simp [magic]
    rw [same, FrameHeader.bytes]
    simp only [append_assoc]
    rw [← append_assoc, drop_left' marked, take_left' (length_toBytes ..)]
    rfl
  · rw [same, drop_left']
    rw [length_append, length_bytes]
    rfl

/-- A message's body is what the encoder writes exactly where its monitor fields are plain. -/
theorem encodeBody_eq_iff {bytes body : List UInt8} (formed : frame.Formed)
    (writable : frame.message.Writable) (spelled : frame.message.Spelled body)
    (same : bytes = magic ++ frame.header.bytes body.length ++ body) :
    encodeBody frame.message = body ↔ PlainMonitors bytes := by
  obtain ⟨kindByte, bodyBytes⟩ := parts_of_spelling same
  have bound : ∀ kind, messageKinds.code kind < 256 ^ 1 := by
    intro kind
    cases kind <;> decide
  have kindByte_eq : (bytes.drop 6).take 1 = toBytes 1 (messageKinds.code .displayTopology) ↔
      frame.message.kind = .displayTopology := by
    rw [kindByte, toBytes_inj (bound _) (bound _)]
    exact ⟨fun codes => by
      generalize frame.message.kind = kind at codes
      cases kind <;> first | rfl | exact absurd codes (by decide), fun kinds => by rw [kinds]⟩
  unfold PlainMonitors
  rw [kindByte_eq]
  by_cases list : frame.message.kind = .displayTopology
  · obtain ⟨topology, carried⟩ : ∃ topology, frame.message = .displayTopology topology := by
      generalize frame.message = message at list
      cases message <;> first | exact ⟨_, rfl⟩ | cases list
    have each := formed.message
    rw [carried] at spelled writable each
    obtain ⟨records, own, layout⟩ := spelled
    obtain ⟨_, few, readable⟩ := of_validate (writable_iff.mp writable) each
    have narrow : topology.displays.length < 256 ^ 1 := Nat.lt_of_le_of_lt few (by decide)
    have count : ofBytes ((bytes.drop headerLen).take 1) = topology.displays.length := by
      rw [bodyBytes, layout, append_assoc, take_left' (length_toBytes ..), ofBytes_toBytes narrow]
    have behind : bytes.drop (headerLen + 4) = records.flatten := by
      rw [← drop_drop, bodyBytes, layout, drop_left']
      simp
    rw [count, behind,
      ← encodeDisplays_eq_iff own fun display member => (readable display member).name,
      carried, layout, encodeBody, append_cancel_left_eq]
    simp [Message.kind]
  · have plain := (spelled_of_ne list).mp spelled
    simp [plain, list]

/-- An accepted byte string is what the encoder writes for its frame exactly where its monitor
fields are plain; two such byte strings never decode to one frame. -/
theorem encodeInto_of_decode {bytes : List UInt8} (accepted : decode bytes = .ok frame) :
    (encodeInto frame = .ok bytes ↔ PlainMonitors bytes) ∧
      ∀ other, decode other = .ok frame → PlainMonitors bytes → PlainMonitors other →
        bytes = other := by
  have written : ∀ {other}, decode other = .ok frame →
      (encodeInto frame = .ok other ↔ PlainMonitors other) := by
    intro other reads
    obtain ⟨formed, ⟨length, counted⟩, bounded, body, spelled, same⟩ := decode_eq_ok.mp reads
    have sized := length_of_spelled counted spelled
    have fits : headerLen + length ≤ maxFrameLen := by
      have total := congrArg List.length same
      rw [length_append, length_append, length_bytes, sized] at total
      simp only [magic, headerLen, length_cons, length_nil] at total ⊢
      omega
    rw [← encodeBody_eq_iff formed ⟨length, counted⟩ spelled same, encodeInto_eq_ok]
    constructor
    · rintro ⟨_, again, _, rewritten⟩
      cases counted.symm.trans again
      rw [same, sized, append_cancel_left_eq] at rewritten
      exact rewritten.symm
    · intro plain
      exact ⟨length, counted, fits, by rw [plain, same, sized]⟩
  refine ⟨written accepted, fun other reads plain otherPlain => ?_⟩
  have first := (written accepted).mpr plain
  have second := (written reads).mpr otherPlain
  exact Except.ok.inj (first.symm.trans second)

end Canonical

/-! ## A concrete number type -/

namespace CodecRun

/-- Sixty-four bit integers, read from their bit patterns. -/
instance : Scalar Int64 where
  ofInt := Int64.ofInt
  lt left right := decide (left < right)
  le left right := decide (left ≤ right)
  same left right := decide (left = right)
  isFinite _ := true
  isPositiveZero value := decide (value = 0)
  abs value := if value < 0 then -value else value
  max left right := if left ≤ right then right else left
  min left right := if left ≤ right then left else right
  nextDown value := value - 1
  powf base _ := base
  exp exponent := exponent

instance : FloatBits Int64 where
  toBits value := value.toUInt64.toNat
  fromBits bits := (UInt64.ofNat bits).toInt64
  toBits_lt value := value.toUInt64.toNat_lt
  fromBits_toBits value := by simp
  toBits_fromBits bits bound := by simp; omega
  isPositiveZero_iff value := by
    show decide (value = 0) = true ↔ value.toUInt64.toNat = 0
    rw [decide_eq_true_eq]
    constructor
    · rintro rfl
      rfl
    · intro pattern
      have zero : value.toUInt64 = 0 := UInt64.toNat_inj.mp pattern
      exact congrArg UInt64.toInt64 zero
  toBits_zero := rfl
  isFinite_zero := rfl

def display (monitor : Option MonitorIdentity) : DisplayDescription Int64 :=
  { id := ⟨1⟩, name := "A", nativeWidth := 1920, nativeHeight := 1080, logicalOrigin := ⟨0, 0⟩
    logicalSize := ⟨1920, 1080⟩, scaleFactor := ⟨0x3F800000⟩, isPrimary := true, monitor }

def frame (monitor : Option MonitorIdentity) : Frame Int64 :=
  Frame.new ⟨1, Nat.one_pos⟩ 5 (.displayTopology ⟨[display monitor]⟩)

/-- The frame without a monitor, spelled with the given monitor field. -/
def spelling (vendor product serial : Nat) : List UInt8 :=
  [76, 75, 77, 33, 0, 13, 2, 0, 0, 69, 0, 0, 0, 0, 0, 0, 0, 0, 0, 1, 0, 0, 0, 0, 0, 0, 0, 5,
    1, 0, 0, 0, 0, 0, 0, 0, 0, 0, 0, 1, 1, 1, 0, 0, 0, 0, 7, 128, 0, 0, 4, 56,
    0, 0, 0, 0, 0, 0, 0, 0, 0, 0, 0, 0, 0, 0, 0, 0, 0, 0, 0, 0, 0, 0, 7, 128,
    0, 0, 0, 0, 0, 0, 4, 56, 63, 128, 0, 0, 65] ++
    (toBytes 2 vendor ++ toBytes 2 product ++ toBytes 4 serial)

theorem formed_frame : (frame none).Formed where
  epoch := by decide
  sequence := by decide
  message := by
    intro display member
    cases mem_singleton.mp member
    exact ⟨by decide, by decide, by decide, by decide, nofun⟩

/-- A list of one display without a monitor identity goes there and back. -/
theorem decode_encodeInto_display :
    encodeInto (frame none) = .ok (spelling 0 0 0) ∧
      (frame none).encodedLen = .ok (spelling 0 0 0).length ∧
      (spelling 0 0 0).length ≤ maxFrameLen ∧ decode (spelling 0 0 0) = .ok (frame none) := by
  have written : encodeInto (frame none) = .ok (spelling 0 0 0) := by decide +kernel
  exact ⟨written, decode_encodeInto formed_frame written⟩

/-- A product without a vendor: the field decodes to no monitor, which is written as zeros. -/
theorem spelling_without_vendor :
    decode (spelling 0 7 1) = .ok (frame none) ∧ decode (spelling 0 0 0) = .ok (frame none) ∧
      encodeInto (frame none) = .ok (spelling 0 0 0) ∧ spelling 0 7 1 ≠ spelling 0 0 0 := by
  decide +kernel

/-- An identified monitor is written as it was read. -/
theorem encodeInto_of_decode_identified :
    ∃ monitor, decode (spelling 5 7 1) = .ok (frame (some monitor)) ∧
      PlainMonitors (spelling 5 7 1) ∧ encodeInto (frame (some monitor)) = .ok (spelling 5 7 1) := by
  have accepted : decode (spelling 5 7 1) = .ok (frame (MonitorIdentity.new 5 7 1)) := by
    decide +kernel
  have plain : PlainMonitors (spelling 5 7 1) := by
    intro _ field member
    have fields : monitorFields (ofBytes (((spelling 5 7 1).drop headerLen).take 1))
        ((spelling 5 7 1).drop (headerLen + 4)) = [[0, 5, 0, 7, 0, 0, 0, 1]] := by decide +kernel
    rw [fields, mem_singleton] at member
    subst member
    exact .inr (by decide)
  exact ⟨_, accepted, plain, (encodeInto_of_decode accepted).1.mpr plain⟩

end CodecRun
end Monhop.Protocol
