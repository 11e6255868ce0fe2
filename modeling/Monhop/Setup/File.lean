import Monhop.Library.Keyed
import Monhop.Setup.RecordSafety

/-! # The setup file

Every group's saved layout, the computers sharing is switched on with, whether it is paused,
and the clock: the highest revision this computer made or saw.  A change made here restamps
the record it is about past the clock.
-/

namespace Monhop.Setup

open Monhop.Core Library Protocol GroupRecord

def setupFileVersion : Nat := 4
def maxGroups : Nat := 16
def maxSetupFileBytes : Nat := 512 * 1024
def maxInterfaceIdBytes : Nat := 512
/-- The furthest one revision from another computer may move the clock. -/
def maxClockStep : Nat := 2 ^ 20
def groupFull : String := "At most 8 computers can share together. Switch one off first."
def notAnotherComputer : String := "Choose one of the other computers."

structure SetupFile (F : Type) where
  version : Nat
  interfaceId : Option Text
  /-- This computer's fingerprint as its records name it. -/
  localName : Option Text
  /-- The other members of the active group, by key, in order. -/
  enabled : List Text
  paused : Bool
  clock : Nat
  /-- In order of their member sets, each naming this computer. -/
  groups : List (GroupRecord F)
  /-- Read from a file a newer version wrote, and never saved over. -/
  newer : Bool

/-- Whether a revision another computer sent is near enough to be taken. -/
def withinClockStep (clock revision : Nat) : Bool :=
  decide (revision ≤ min (clock + maxClockStep) u64Max)

namespace SetupFile

variable {F : Type} [Format F]

def default : SetupFile F where
  version := setupFileVersion
  interfaceId := none
  localName := none
  enabled := []
  paused := false
  clock := 0
  groups := []
  newer := false

variable (file : SetupFile F)

def localKey : Option Text := file.localName.map fingerprintKey

/-- This computer and the enabled ones, in order. -/
def activeMembers : Option (List Text) :=
  if file.enabled.isEmpty then none
  else file.localKey.map fun key => sortBy id (file.enabled ++ [key])

def held (members : List Text) : Option (GroupRecord F) :=
  file.groups.find? fun group => group.memberKeys == members

/-- The record for this computer and the enabled ones. -/
def activeGroup : Option (GroupRecord F) := file.activeMembers.bind file.held

/-! ## Keeping records -/

def inactive (active : Option (List Text)) (group : GroupRecord F) : Bool :=
  active != some group.memberKeys

/-- Replaces the record held for the members, then drops the oldest inactive ones. -/
def store (record : GroupRecord F) : SetupFile F :=
  let groups := sortBy memberKeys
    ((file.groups.filter fun group => group.memberKeys != record.memberKeys) ++ [record])
  { file with
    groups := dropPastBound maxGroups (inactive file.activeMembers) GroupRecord.stamp groups.length
      groups }

/-- Records name this computer by one identity; those of an earlier one go. -/
def setLocal (name : Text) : SetupFile F :=
  if file.localKey = some (fingerprintKey name) then file
  else
    { file with
      groups := file.groups.filter fun group => group.hasMember (fingerprintKey name)
      enabled := file.enabled.filter fun peer => peer != fingerprintKey name
      localName := some (asciiUppercase (fingerprintKey name)) }

/-- A record's other members are enabled and its revision is seen. -/
def enlist (name : Text) (record : GroupRecord F) : SetupFile F :=
  { file.setLocal name with
    enabled := record.memberKeys.filter fun member => member != fingerprintKey name
    clock := max file.clock record.revision }

/-- Keeps whichever of the record and the one held for its members has the greater stamp, the
record on a tie, and enables exactly its other members. -/
def take (name : Text) (record : GroupRecord F) (replace : Bool) :
    Except PreferenceError (SetupFile F × Bool) := do
  ensure (decide record.Valid) .invalid
  match canonicalFingerprint name with
  | none => .error .invalid
  | some name =>
    ensure (record.hasMember name) .invalid
    let file := file.enlist name record
    let newer := replace ||
      match file.held record.memberKeys with
      | none => true
      | some held => decide (held.stamp ≤ record.stamp)
    pure (if newer then file.store record else file, newer)

def adopt (name : Text) (record : GroupRecord F) : Except PreferenceError (SetupFile F × Bool) :=
  file.take name record false

/-! ## Local changes -/

/-- Restamps the active group's record as this computer's newest change; false when there is no
record to restamp. -/
def touchActive : SetupFile F × Bool :=
  match file.localName, file.activeMembers with
  | some name, some members =>
    let revision := saturatingSucc u64Max file.clock
    match (file.held members).bind fun held => held.restamped revision name with
    | none => (file, false)
    | some touched =>
      ({ file with
          groups := replaceFirst (fun group => group.memberKeys == members) touched file.groups
          clock := revision }, true)
  | _, _ => (file, false)

/-- The one enabled computer while sharing is not paused. -/
def active : Option Text :=
  match file.enabled with
  | [peer] => if file.paused then none else some peer
  | _ => none

/-- Enables exactly that computer and resumes; none pauses and keeps the group. -/
def setActive : Option CertificateFingerprint → SetupFile F
  | some fingerprint =>
    { file with enabled := [fingerprintKey fingerprint.fullHex], paused := false }
  | none => { file with paused := true }

/-- A local choice: when it changes what is shared, the record is touched. -/
def choose (fingerprint : CertificateFingerprint) : SetupFile F :=
  let chosen := file.active == some (fingerprintKey fingerprint.fullHex)
  let file := file.setActive (some fingerprint)
  if chosen then file else file.touchActive.1

/-- Switches one other computer on or off.  A group left without a record of its own takes the
previous record without that computer. -/
def setEnabled (fingerprint : CertificateFingerprint) (enabled : Bool) :
    Except String (SetupFile F) :=
  let key := fingerprintKey fingerprint.fullHex
  if file.localKey = some key then .error notAnotherComputer
  else
    let was := file.enabled.contains key
    if was == enabled && !(enabled && file.paused) then .ok file
    else
      let previous := file.activeGroup
      if enabled then
        if !was && decide (file.enabled.length + 1 ≥ maxGroupMembers) then .error groupFull
        else
          let peers := if was then file.enabled else sortBy id (file.enabled ++ [key])
          .ok { file with enabled := peers, paused := false }.touchActive.1
      else
        let file := { file with enabled := file.enabled.filter fun peer => peer != key }
        if file.enabled.isEmpty then .ok file
        else
          let (touched, done) := file.touchActive
          if done then .ok touched
          else
            match previous, file.localName with
            | some previous, some name =>
              let revision := saturatingSucc u64Max file.clock
              match previous.withoutMember key revision name with
              | some derived => .ok { file.store derived with clock := revision }
              | none => .ok file
            | _, _ => .ok file

def resume : SetupFile F := { file with paused := false }

/-- A revision seen elsewhere. -/
def observeClock (seen : Nat) : SetupFile F :=
  { file with clock := max file.clock seen }

/-- The kept groups with a derived one for each member set that has none. -/
def derive (key : Text) (revision : Nat) (name : Text) (kept : List (GroupRecord F)) :
    List (GroupRecord F) → List (GroupRecord F)
  | [] => kept
  | group :: rest =>
    match group.withoutMember key revision name with
    | none => derive key revision name kept rest
    | some derived =>
      if kept.any fun held => held.memberKeys == derived.memberKeys then
        derive key revision name kept rest
      else derive key revision name (kept ++ [derived]) rest

/-- The groups without one computer, the active one restamped, and whether a record was made. -/
def withoutComputer (key : Text) (revision : Nat) (name : Text) (active : Option (List Text))
    (groups : List (GroupRecord F)) : List (GroupRecord F) × Bool :=
  let (naming, kept) := groups.partition fun group => group.hasMember key
  let derived := derive key revision name kept naming
  let isActive (group : GroupRecord F) := some group.memberKeys == active
  match (derived.find? isActive).bind fun held => held.restamped revision name with
  | some record => (sortBy memberKeys (replaceFirst isActive record derived), true)
  | none => (sortBy memberKeys derived, decide (derived.length ≠ kept.length))

/-- Forgets a paired computer: each group naming it gives way to the group without it. -/
def forget (fingerprint : Text) : SetupFile F :=
  let key := fingerprintKey fingerprint
  let wasEnabled := file.enabled.contains key
  let file := { file with enabled := file.enabled.filter fun peer => peer != key }
  match file.localName with
  | none => file
  | some name =>
    let revision := saturatingSucc u64Max file.clock
    let active := if wasEnabled then file.activeMembers else none
    let (groups, touched) := withoutComputer key revision name active file.groups
    { file with groups, clock := if touched then revision else file.clock }

/-! ## Validation and saving -/

def validate : Except PreferenceError Unit := do
  ensure (file.version == setupFileVersion && decide (file.groups.length ≤ maxGroups) &&
    decide (file.enabled.length < maxGroupMembers) && decide (file.enabled.IsChain (· < ·)) &&
    file.interfaceId.all fun id => !id.isEmpty && decide (textSize id ≤ maxInterfaceIdBytes))
    .invalid
  ensure (file.localName.all validFingerprint) .invalid
  forM file.enabled fun peer =>
    ensure (validFingerprint (asciiUppercase peer) && fingerprintKey peer == peer &&
      file.localKey != some peer) .invalid
  forM file.groups fun group =>
    ensure (decide group.Valid && (file.localKey.any fun key => group.hasMember key) &&
      decide (group.revision ≤ file.clock)) .invalid
  ensure (decide ((file.groups.map memberKeys).IsChain (· < ·))) .invalid

def json : Json :=
  .object <|
    [field "version" (jsonNat file.version)] ++
    (file.interfaceId.map fun id => field "interfaceId" (.string id)).toList ++
    (file.localName.map fun name => field "local" (.string name)).toList ++
    [field "enabled" (.array (file.enabled.map .string)), field "paused" (.bool file.paused),
      field "clock" (jsonNat file.clock), field "groups" (.array (file.groups.map (·.json)))]

end SetupFile

/-- Why a save is refused before anything is written. -/
inductive SaveError where
  | newerFile
  | invalidData

/-- The bytes a save writes. -/
def SetupFile.save {F : Type} [Format F] (file : SetupFile F) : Except SaveError Text := do
  ensure (!file.newer) .newerFile
  ensure file.validate.isOk .invalidData
  ensure (decide (file.json.size ≤ maxSetupFileBytes)) .invalidData
  pure file.json.write

end Monhop.Setup
