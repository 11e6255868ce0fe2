import Monhop.Core.Capture
import Monhop.Library.Fields
import Monhop.Protocol.Codec

/-! # Captured records as slot words

A slot of the capture ring keeps a record in six atomic words: a header that packs the event's
kind and small fields, two words for its larger ones, and the route and floor it was tagged
with.

* `EncodedEvent.ofEvent`, `decodeEvent` — an event against its three words.
* `CapturedEvent.words`, `decode` — a record against all six.
* `decode_words` — reading back an admitted record gives it with every field equal, but for a
  button time past the last nanosecond a word can hold.
-/

namespace Monhop.Core

open Library (Table)
open Protocol (FloatBits gestureKinds gesturePhases systemGestures)

/-! ## Words -/

/-- The payload words of a slot, in the order they are stored and loaded. -/
inductive SlotWord where
  | eventHeader
  | eventPayload
  | eventRevision
  | routingRevision
  | routingRemote
  | floorGeneration
  deriving DecidableEq

def SlotWord.ALL : List SlotWord :=
  [.eventHeader, .eventPayload, .eventRevision, .routingRevision, .routingRemote, .floorGeneration]

theorem SlotWord.mem_ALL (word : SlotWord) : word ∈ SlotWord.ALL := by
  cases word <;> decide

inductive EventKind where
  | key
  | button
  | absoluteMotion
  | relativeMotion
  | scroll
  | routeChanged
  | logicalAbsoluteMotion
  | logicalRelativeMotion
  | logicalScroll
  | gesture
  | systemGesture
  deriving DecidableEq

def eventKinds : Table EventKind where
  first := 1
  values := [.key, .button, .absoluteMotion, .relativeMotion, .scroll, .routeChanged,
    .logicalAbsoluteMotion, .logicalRelativeMotion, .logicalScroll, .gesture, .systemGesture]
  complete kind := by cases kind <;> decide
  distinct := by decide

def mouseButtons : Table MouseButton where
  first := 0
  values := MouseButton.ALL
  complete := MouseButton.mem_ALL
  distinct := MouseButton.nodup_ALL

/-- A header field of `bits` bits from bit `shift` on. -/
def field (word shift bits : Nat) : Nat := (word >>> shift) &&& (2 ^ bits - 1)

def flag (word index : Nat) : Bool := word &&& (1 <<< index) != 0

def i32Bits (value : Int) : Nat := (value % 2 ^ 32).toNat

def i32OfBits (bits : Nat) : Int := if bits < 2 ^ 31 then bits else (bits : Int) - 2 ^ 32

def packI32Pair (first second : Int) : Nat := i32Bits first ||| i32Bits second <<< 32

def unpackI32Pair (packed : Nat) : Int × Int :=
  (i32OfBits (packed % 2 ^ 32), i32OfBits ((packed >>> 32) % 2 ^ 32))

def wordMax : Nat := 2 ^ 64 - 1

structure EncodedEvent where
  header : Nat
  payload : Nat
  revision : Nat

section
variable {F : Type} [Scalar F] [FloatBits F]
open Protocol.FloatBits (toBits fromBits)

def EncodedEvent.ofEvent : CaptureEvent F → EncodedEvent
  | .key usage pressed isRepeat modifiers =>
    { header := eventKinds.code .key ||| usage.code <<< 8 ||| pressed.toNat <<< 24 |||
        isRepeat.toNat <<< 25 ||| modifiers.bits <<< 26
      payload := 0, revision := 0 }
  | .button button pressed time =>
    { header := eventKinds.code .button ||| mouseButtons.code button <<< 8 ||| pressed.toNat <<< 11
      -- a time past the last nanosecond of a word saturates
      payload := if time ≤ wordMax then time else wordMax
      revision := 0 }
  | .absoluteMotion x y =>
    { header := eventKinds.code .absoluteMotion, payload := packI32Pair x y, revision := 0 }
  | .relativeMotion dx dy gain =>
    { header := eventKinds.code .relativeMotion, payload := packI32Pair dx dy
      revision := toBits gain }
  | .scroll horizontal vertical =>
    { header := eventKinds.code .scroll, payload := packI32Pair horizontal vertical, revision := 0 }
  | .logicalAbsoluteMotion x y =>
    { header := eventKinds.code .logicalAbsoluteMotion, payload := toBits x, revision := toBits y }
  | .logicalRelativeMotion dx dy =>
    { header := eventKinds.code .logicalRelativeMotion, payload := toBits dx, revision := toBits dy }
  | .logicalScroll horizontal vertical =>
    { header := eventKinds.code .logicalScroll, payload := toBits horizontal
      revision := toBits vertical }
  | .routeChanged remote revision =>
    { header := eventKinds.code .routeChanged ||| remote.toNat <<< 8, payload := 0, revision }
  | .gesture kind phase value =>
    { header := eventKinds.code .gesture ||| gestureKinds.code kind <<< 8 |||
        ((phase.map gesturePhases.code).getD 0) <<< 12
      payload := toBits value, revision := 0 }
  | .systemGesture gesture =>
    { header := eventKinds.code .systemGesture ||| systemGestures.code gesture <<< 8, payload := 0
      revision := 0 }

/-- Phase 0 is none. -/
def decodePhase (code : Nat) : Option (Option GesturePhase) :=
  if code = 0 then some none else (gesturePhases.value? code).map some

def decodeEvent (header payload revision : Nat) : Option (CaptureEvent F) :=
  match eventKinds.value? (field header 0 8) with
  | none => none
  | some .key =>
    some (.key ⟨field header 8 16⟩ (flag header 24) (flag header 25) ⟨field header 26 8⟩)
  | some .button =>
    (mouseButtons.value? (field header 8 3)).map fun button =>
      .button button (flag header 11) payload
  | some .absoluteMotion =>
    some (.absoluteMotion (unpackI32Pair payload).1 (unpackI32Pair payload).2)
  | some .relativeMotion =>
    some (.relativeMotion (unpackI32Pair payload).1 (unpackI32Pair payload).2 (fromBits revision))
  | some .scroll => some (.scroll (unpackI32Pair payload).1 (unpackI32Pair payload).2)
  | some .logicalAbsoluteMotion =>
    some (.logicalAbsoluteMotion (fromBits payload) (fromBits revision))
  | some .logicalRelativeMotion =>
    some (.logicalRelativeMotion (fromBits payload) (fromBits revision))
  | some .logicalScroll => some (.logicalScroll (fromBits payload) (fromBits revision))
  | some .routeChanged => some (.routeChanged (flag header 8) revision)
  | some .gesture =>
    match gestureKinds.value? (field header 8 4), decodePhase (field header 12 4) with
    | some kind, some phase => some (.gesture kind phase (fromBits payload))
    | _, _ => none
  | some .systemGesture => (systemGestures.value? (field header 8 8)).map .systemGesture

/-- A barrier carries its own route as its tag. -/
def CapturedEvent.tagged (record : CapturedEvent F) : Bool :=
  match record.event with
  | .routeChanged remote revision => remote == record.remote && revision == record.routingRevision
  | _ => true

def decodeRemote : Nat → Option Bool
  | 0 => some false
  | 1 => some true
  | _ => none

def CapturedEvent.words (record : CapturedEvent F) : SlotWord → Nat
  | .eventHeader => (EncodedEvent.ofEvent record.event).header
  | .eventPayload => (EncodedEvent.ofEvent record.event).payload
  | .eventRevision => (EncodedEvent.ofEvent record.event).revision
  | .routingRevision => record.routingRevision
  | .routingRemote => record.remote.toNat
  | .floorGeneration => record.floorGeneration

def CapturedEvent.decode (words : SlotWord → Nat) : Option (CapturedEvent F) :=
  match decodeRemote (words .routingRemote) with
  | none => none
  | some remote =>
    match decodeEvent (words .eventHeader) (words .eventPayload) (words .eventRevision) with
    | none => none
    | some event =>
      let record : CapturedEvent F :=
        { event, routingRevision := words .routingRevision, remote
          floorGeneration := words .floorGeneration }
      if record.tagged && event.isValid then some record else none

end

/-! ## What a word can hold -/

def FitsI32 (value : Int) : Prop := -2 ^ 31 ≤ value ∧ value < 2 ^ 31

variable {F : Type}

/-- Every number fits the fixed width of its type. -/
def CaptureEvent.Formed : CaptureEvent F → Prop
  | .key usage _ _ modifiers => usage.code < 2 ^ 16 ∧ modifiers.bits < 2 ^ 8
  | .absoluteMotion x y | .relativeMotion x y _ | .scroll x y => FitsI32 x ∧ FitsI32 y
  | .routeChanged _ revision => revision < 2 ^ 64
  | _ => True

structure CapturedEvent.Formed (record : CapturedEvent F) : Prop where
  event : record.event.Formed
  routingRevision : record.routingRevision < 2 ^ 64
  floorGeneration : record.floorGeneration < 2 ^ 64

/-- The event as a slot keeps it. -/
def CaptureEvent.stored : CaptureEvent F → CaptureEvent F
  | .button pushed down time => .button pushed down (if time ≤ wordMax then time else wordMax)
  | event => event

def CapturedEvent.stored (record : CapturedEvent F) : CapturedEvent F :=
  { record with event := record.event.stored }

/-! ## Reading fields back -/

open Library.Fields (or_shiftLeft)

theorem field_eq (word shift bits : Nat) : field word shift bits = word / 2 ^ shift % 2 ^ bits := by
  rw [field, Nat.and_two_pow_sub_one_eq_mod, Nat.shiftRight_eq_div_pow]

theorem flag_eq (word index : Nat) : flag word index = decide (word / 2 ^ index % 2 = 1) := by
  rw [flag, Nat.shiftLeft_eq, one_mul, Nat.and_two_pow, ← Nat.testBit_eq_decide_div_mod_eq]
  cases word.testBit index <;> simp

theorem i32Bits_lt (value : Int) : i32Bits value < 2 ^ 32 := by
  unfold i32Bits
  omega

theorem i32OfBits_i32Bits {value : Int} (fits : FitsI32 value) :
    i32OfBits (i32Bits value) = value := by
  obtain ⟨low, high⟩ := fits
  unfold i32OfBits i32Bits
  split <;> omega

theorem unpackI32Pair_packI32Pair {first second : Int} (firstFits : FitsI32 first)
    (secondFits : FitsI32 second) : unpackI32Pair (packI32Pair first second) = (first, second) := by
  have firstBits := i32Bits_lt first
  have secondBits := i32Bits_lt second
  unfold unpackI32Pair packI32Pair
  rw [or_shiftLeft firstBits, Nat.shiftRight_eq_div_pow]
  have low : (i32Bits first + i32Bits second * 2 ^ 32) % 2 ^ 32 = i32Bits first := by omega
  have high : (i32Bits first + i32Bits second * 2 ^ 32) / 2 ^ 32 % 2 ^ 32 = i32Bits second := by
    omega
  rw [low, high, i32OfBits_i32Bits firstFits, i32OfBits_i32Bits secondFits]

/-- What a header holds above its kind. -/
def HeaderOf (header : Nat) (kind : EventKind) (above : Nat) : Prop :=
  header = eventKinds.code kind + above * 2 ^ 8

theorem eventKinds_code_lt (kind : EventKind) : eventKinds.code kind < 2 ^ 8 := by
  cases kind <;> decide

namespace HeaderOf

variable {header above : Nat} {kind : EventKind}

theorem plain (kind : EventKind) : HeaderOf (eventKinds.code kind) kind 0 := by
  simp [HeaderOf]

theorem or (kind : EventKind) (above : Nat) :
    HeaderOf (eventKinds.code kind ||| above <<< 8) kind above :=
  or_shiftLeft (eventKinds_code_lt kind) above

section
variable (holds : HeaderOf header kind above)
include holds

/-- One field more, above `shift` bits of earlier ones. -/
theorem field (shift : Nat) (fits : above < 2 ^ shift) (value : Nat) :
    HeaderOf (header ||| value <<< (8 + shift)) kind (above + value * 2 ^ shift) := by
  have kindFits := eventKinds_code_lt kind
  have below : header < 2 ^ (8 + shift) := by
    rw [holds, Nat.pow_add]
    omega
  unfold HeaderOf at *
  rw [or_shiftLeft below, holds, pow_add, add_mul, mul_assoc, mul_comm (2 ^ shift), add_assoc]

theorem kind_eq : eventKinds.value? (Core.field header 0 8) = some kind := by
  have kindFits := eventKinds_code_lt kind
  rw [Table.value?_eq_some, field_eq, holds]
  omega

theorem above_eq : header / 2 ^ 8 = above := by
  have kindFits := eventKinds_code_lt kind
  rw [holds]
  omega

theorem field_eq (shift bits : Nat) :
    Core.field header (8 + shift) bits = above / 2 ^ shift % 2 ^ bits := by
  rw [Core.field_eq, pow_add, ← Nat.div_div_eq_div_mul, holds.above_eq]

/-- A flag is read back from between what is below and above it. -/
theorem flag_eq (shift : Nat) (value : Bool) {low high : Nat} (fits : low < 2 ^ shift)
    (splits : above = low + (value.toNat + high * 2) * 2 ^ shift) :
    flag header (8 + shift) = value := by
  rw [Core.flag_eq, pow_add, ← Nat.div_div_eq_div_mul, holds.above_eq, splits,
    Nat.add_mul_div_right _ _ (Nat.two_pow_pos shift), Nat.div_eq_of_lt fits]
  cases value <;> simp

end
end HeaderOf

section
variable [Scalar F] [FloatBits F]
open Protocol.FloatBits (toBits fromBits fromBits_toBits)

theorem decodePhase_code (phase : Option GesturePhase) :
    decodePhase ((phase.map gesturePhases.code).getD 0) = some phase := by
  cases phase with
  | none => rfl
  | some phase => cases phase <;> rfl

/-- An event is read back from its words. -/
theorem decodeEvent_ofEvent {event : CaptureEvent F} (formed : event.Formed) :
    decodeEvent (EncodedEvent.ofEvent event).header (EncodedEvent.ofEvent event).payload
      (EncodedEvent.ofEvent event).revision = some event.stored := by
  cases event with
  | key usage pressed isRepeat modifiers =>
    obtain ⟨usageFits, modifiersFit⟩ := formed
    have pressedFits := Bool.toNat_lt pressed
    have repeatFits := Bool.toNat_lt isRepeat
    have holds := (((HeaderOf.or .key usage.code).field 16 usageFits pressed.toNat).field 17
      (by omega) isRepeat.toNat).field 18 (by omega) modifiers.bits
    have readUsage : field _ 8 16 = usage.code := (holds.field_eq 0 16).trans (by omega)
    have readModifiers : field _ 26 8 = modifiers.bits := (holds.field_eq 18 8).trans (by omega)
    have readPressed : flag _ 24 = pressed := holds.flag_eq 16 pressed usageFits
      (show _ = _ + (_ + (isRepeat.toNat + modifiers.bits * 2) * 2) * 2 ^ 16 by omega)
    have readRepeat : flag _ 25 = isRepeat := holds.flag_eq 17 isRepeat
      (show usage.code + pressed.toNat * 2 ^ 16 < 2 ^ 17 by omega)
      (show _ = _ + (_ + modifiers.bits * 2) * 2 ^ 17 by omega)
    simp only [EncodedEvent.ofEvent, decodeEvent, holds.kind_eq, readUsage, readModifiers,
      readPressed, readRepeat]
    rfl
  | button button pressed time =>
    have buttonFits : mouseButtons.code button < 2 ^ 3 := by cases button <;> decide
    have holds := (HeaderOf.or .button (mouseButtons.code button)).field 3 buttonFits pressed.toNat
    have readButton : field _ 8 3 = mouseButtons.code button :=
      (holds.field_eq 0 3).trans (by omega)
    have readPressed : flag _ 11 = pressed :=
      holds.flag_eq 3 pressed buttonFits (show _ = _ + (_ + 0 * 2) * 2 ^ 3 by omega)
    simp only [EncodedEvent.ofEvent, decodeEvent, holds.kind_eq, readButton, readPressed,
      Table.value?_code, Option.map_some]
    rfl
  | absoluteMotion x y | scroll x y =>
    simp only [EncodedEvent.ofEvent, decodeEvent, (HeaderOf.plain _).kind_eq,
      unpackI32Pair_packI32Pair formed.1 formed.2]
    rfl
  | relativeMotion dx dy gain =>
    simp only [EncodedEvent.ofEvent, decodeEvent, (HeaderOf.plain _).kind_eq,
      unpackI32Pair_packI32Pair formed.1 formed.2, fromBits_toBits]
    rfl
  | logicalAbsoluteMotion x y | logicalRelativeMotion x y | logicalScroll x y =>
    simp only [EncodedEvent.ofEvent, decodeEvent, (HeaderOf.plain _).kind_eq, fromBits_toBits]
    rfl
  | routeChanged remote revision =>
    have holds := HeaderOf.or .routeChanged remote.toNat
    have readRemote : flag _ 8 = remote :=
      holds.flag_eq 0 remote Nat.one_pos (show _ = 0 + (_ + 0 * 2) * 2 ^ 0 by omega)
    simp only [EncodedEvent.ofEvent, decodeEvent, holds.kind_eq, readRemote]
    rfl
  | gesture kind phase value =>
    have kindFits : gestureKinds.code kind < 2 ^ 4 := by cases kind <;> decide
    have phaseFits : (phase.map gesturePhases.code).getD 0 < 2 ^ 4 := by
      cases phase with
      | none => decide
      | some phase => cases phase <;> decide
    have holds := (HeaderOf.or .gesture (gestureKinds.code kind)).field 4 kindFits
      ((phase.map gesturePhases.code).getD 0)
    have readKind : field _ 8 4 = gestureKinds.code kind := (holds.field_eq 0 4).trans (by omega)
    have readPhase : field _ 12 4 = (phase.map gesturePhases.code).getD 0 :=
      (holds.field_eq 4 4).trans (by omega)
    simp only [EncodedEvent.ofEvent, decodeEvent, holds.kind_eq, readKind, readPhase,
      decodePhase_code, Table.value?_code, fromBits_toBits]
    rfl
  | systemGesture gesture =>
    have gestureFits : systemGestures.code gesture < 2 ^ 8 := by cases gesture <;> decide
    have holds := HeaderOf.or .systemGesture (systemGestures.code gesture)
    have readGesture : field _ 8 8 = systemGestures.code gesture :=
      (holds.field_eq 0 8).trans (by omega)
    simp only [EncodedEvent.ofEvent, decodeEvent, holds.kind_eq, readGesture,
      Table.value?_code, Option.map_some]
    rfl

theorem decodeRemote_toNat (remote : Bool) : decodeRemote remote.toNat = some remote := by
  cases remote <;> rfl

omit [FloatBits F] in
theorem CaptureEvent.isValid_stored (event : CaptureEvent F) :
    event.stored.isValid = event.isValid := by
  cases event <;> rfl

omit [Scalar F] [FloatBits F] in
theorem CapturedEvent.tagged_stored (record : CapturedEvent F) :
    record.stored.tagged = record.tagged := by
  obtain ⟨event, routingRevision, remote, floorGeneration⟩ := record
  cases event <;> rfl

theorem CapturedEvent.decode_words {record : CapturedEvent F} (formed : record.Formed)
    (valid : record.event.isValid = true) (tagged : record.tagged = true) :
    CapturedEvent.decode record.words = some record.stored := by
  have readEvent := decodeEvent_ofEvent formed.event
  have storedTagged := record.tagged_stored.trans tagged
  have storedValid := record.event.isValid_stored.trans valid
  simp only [decode, words, decodeRemote_toNat, readEvent]
  show (if record.stored.tagged && record.event.stored.isValid then some record.stored else none) = _
  rw [storedTagged, storedValid]
  rfl

end
end Monhop.Core
