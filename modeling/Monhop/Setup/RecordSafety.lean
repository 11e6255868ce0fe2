import Monhop.Setup.LayoutSafety
import Monhop.Setup.Record

/-! # What a valid record is

* `Stamp` is linearly ordered: the winner of two copies does not depend on who compares them.
* `GroupRecord.valid_iff` — the checks a record passes, as named facts.
* `GroupRecord.restamped_eq_some`, `GroupRecord.withoutMember_eq_some` — the records made from
  a record, and that they are valid.
-/

namespace Monhop.Setup

open Monhop.Core Library Protocol Transport List Option

/-! ## Stamps -/

namespace Stamp

variable {first second : Stamp}

instance : LE Stamp := ⟨fun first second => first.cmp second ≠ .gt⟩

theorem le_iff :
    first ≤ second ↔
      first.revision < second.revision ∨ first.revision = second.revision ∧
        (second.author.raw < first.author.raw ∨ second.author.raw = first.author.raw ∧
          second.content ≤ first.content) := by
  show first.cmp second ≠ .gt ↔ _
  unfold cmp
  rcases lt_trichotomy first.revision second.revision with below | same | above
  · simp [Nat.compare_eq_lt.mpr below, below]
  · rw [Nat.compare_eq_eq.mpr same]
    rcases lt_trichotomy second.author.raw first.author.raw with lower | equal | higher
    · simp [Nat.compare_eq_lt.mpr lower, lower, same]
    · simp [equal, same, Nat.compare_ne_gt]
    · simp [Nat.compare_eq_gt.mpr higher, same]
      omega
  · simp [Nat.compare_eq_gt.mpr above]
    omega

instance : LinearOrder Stamp where
  le_refl stamp := by simp [le_iff]
  le_trans first second third := by
    simp only [le_iff]
    omega
  le_antisymm first second := by
    simp only [le_iff]
    intro le ge
    obtain ⟨revision, ⟨author⟩, content⟩ := first
    obtain ⟨otherRevision, ⟨otherAuthor⟩, otherContent⟩ := second
    simp only [Stamp.mk.injEq, DeviceId.mk.injEq] at *
    omega
  le_total first second := by
    simp only [le_iff]
    omega
  toDecidableLE := fun _ _ => inferInstanceAs (Decidable (_ ≠ _))

theorem le_of_revision_lt (below : first.revision < second.revision) : first ≤ second :=
  le_iff.mpr (.inl below)

end Stamp

/-! ## Validity -/

namespace GroupRecord

variable {F : Type} [Format F]

/-- What a record's checks establish. -/
structure Sound (record : GroupRecord F) : Prop where
  version : record.version = groupRecordVersion
  revision : record.revision ≠ 0
  several : 2 ≤ record.members.length
  few : record.members.length ≤ maxGroupMembers
  author : ∃ member ∈ record.members, member.fingerprint = record.author
  fingerprints : ∀ member ∈ record.members, validFingerprint member.fingerprint = true
  displays : ∀ member ∈ record.members, validDisplays member.displays = true
  sorted : record.memberKeys.IsChain (· < ·)
  distinct : (record.owners.map (·.1)).Nodup
  fewDisplays : record.owners.length ≤ maxDisplays
  fewLinks : record.layout.links.length ≤ maxLinks
  links : ∃ links, record.layout.links.mapM parseLink = .ok links ∧ links ≠ [] ∧
    (∀ link ∈ links, links.any (reverses link) = true) ∧ noOverlaps links = true ∧
    ∀ link ∈ links, record.joinsMembers link = true
  arranged : ∀ index < record.members.length,
    checkArrangement record.layout (record.arranged index) = .ok ()
  controls : record.layout.control.entries.length = record.members.length
  named : ∀ member ∈ record.members, record.layout.control.containsKey member.key = true
  allowed : record.layout.control.entries.any (·.2) = true
  builds : ∀ index < record.members.length, (record.topologyAt index).isSome = true
  fits : record.json.size ≤ maxRecordBytes

variable {record : GroupRecord F}

theorem valid_iff : record.Valid ↔ record.Sound := by
  unfold Valid check validMembers
  simp only [bind_eq_ok, ensure_eq_ok, forM_eq_ok, exists_const, Bool.and_eq_true, beq_iff_eq,
    bne_iff_ne, decide_eq_true_eq, List.all_eq_true, List.any_eq_true, List.mem_range,
    Bool.not_eq_true', List.isEmpty_eq_false_iff]
  constructor
  · rintro ⟨⟨⟨⟨⟨version, revision⟩, several⟩, few⟩, author⟩, ⟨⟨members, sorted⟩, distinct⟩,
      fewDisplays, fewLinks, links, parsed, some, arranged, ⟨⟨controls, named⟩, allowed⟩, both,
      apart, ⟨joins, builds⟩, fits⟩
    exact ⟨version, revision, several, few, author, fun member at_ => (members member at_).1,
      fun member at_ => (members member at_).2, sorted, distinct, fewDisplays, fewLinks,
      ⟨links, parsed, some, fun link at_ => List.any_eq_true.mpr (both link at_), apart, joins⟩,
      arranged, controls, named, List.any_eq_true.mpr allowed, builds, fits⟩
  · intro sound
    obtain ⟨links, parsed, some, both, apart, joins⟩ := sound.links
    exact ⟨⟨⟨⟨⟨sound.version, sound.revision⟩, sound.several⟩, sound.few⟩, sound.author⟩,
      ⟨⟨fun member at_ => ⟨sound.fingerprints member at_, sound.displays member at_⟩, sound.sorted⟩,
        sound.distinct⟩, sound.fewDisplays, sound.fewLinks, links, parsed, some, sound.arranged,
      ⟨⟨sound.controls, sound.named⟩, List.any_eq_true.mp sound.allowed⟩,
      fun link at_ => List.any_eq_true.mp (both link at_), apart, ⟨joins, sound.builds⟩, sound.fits⟩

/-! ## Members -/

omit [Format F] in
theorem hasMember_iff {fingerprint : Text} :
    record.hasMember fingerprint = true ↔ fingerprintKey fingerprint ∈ record.memberKeys := by
  simp [hasMember, memberKeys]

theorem Valid.pairwise (valid : record.Valid) : record.memberKeys.Pairwise (· < ·) :=
  isChain_iff_pairwise.mp (valid_iff.mp valid).sorted

theorem Valid.key_eq (valid : record.Valid) {key : Text} (member : key ∈ record.memberKeys) :
    ∃ fingerprint : CertificateFingerprint, key = fingerprintKey fingerprint.fullHex := by
  obtain ⟨entry, at_, rfl⟩ := mem_map.mp member
  obtain ⟨fingerprint, named⟩ := validFingerprint_iff.mp ((valid_iff.mp valid).fingerprints entry at_)
  exact ⟨fingerprint, by rw [GroupMember.key, named]⟩

theorem Valid.author_mem (valid : record.Valid) :
    fingerprintKey record.author ∈ record.memberKeys := by
  obtain ⟨entry, at_, named⟩ := (valid_iff.mp valid).author
  exact mem_map.mpr ⟨entry, at_, by rw [GroupMember.key, named]⟩

/-! ## Records made from records -/

theorem restamped_eq_some {result : GroupRecord F} {revision : Nat} {author : Text} :
    record.restamped revision author = some result ↔
      ∃ fingerprint, CertificateFingerprint.parseFull author = some fingerprint ∧
        result = { record with revision, author := fingerprint.fullHex } ∧ result.Valid := by
  unfold restamped
  simp only [bind_eq_bind, bind_eq_some_iff, canonicalFingerprint_eq_some,
    ite_none_right_eq_some, some.injEq]
  constructor
  · rintro ⟨_, ⟨fingerprint, read, rfl⟩, valid, rfl⟩
    exact ⟨fingerprint, read, rfl, valid⟩
  · rintro ⟨fingerprint, read, rfl, valid⟩
    exact ⟨_, ⟨fingerprint, read, rfl⟩, valid, rfl⟩

/-- A record without one member is valid, of the revision and author given, and names the
members that are left. -/
theorem withoutMember_eq_some {result : GroupRecord F} {member author : Text} {revision : Nat}
    (made : record.withoutMember member revision author = some result) :
    result.Valid ∧ result.revision = revision ∧
      fingerprintKey result.author = fingerprintKey author ∧
      result.memberKeys = record.memberKeys.erase (fingerprintKey member) := by
  unfold withoutMember at made
  simp only [bind_eq_bind, bind_eq_some_iff] at made
  obtain ⟨removed, _, made⟩ := made
  obtain ⟨fingerprint, read, rfl, valid⟩ := restamped_eq_some.mp made
  refine ⟨valid, rfl, (fingerprintKey_of_parseFull read).symm, ?_⟩
  have test : (fun other : GroupMember F => other.key == fingerprintKey member) =
      (fun key => fingerprintKey member == key) ∘ GroupMember.key := by
    funext other
    exact Bool.beq_comm
  rw [erase_eq_eraseP, memberKeys, memberKeys, eraseP_map, test]

/-! ## Facts of a valid record -/

namespace Valid

variable (valid : record.Valid)
include valid
variable {member : GroupMember F}

theorem snapshot (at_ : member ∈ record.members) {display : DisplaySnapshot F}
    (inside : display ∈ member.displays) : validSnapshot display = true := by
  have displays := (valid_iff.mp valid).displays member at_
  simp only [validDisplays, Bool.and_eq_true, List.all_eq_true] at displays
  exact displays.1.1.2 display inside

theorem distinctIds (at_ : member ∈ record.members) : (member.displays.map (·.id)).Nodup := by
  have displays := (valid_iff.mp valid).displays member at_
  simp only [validDisplays, Bool.and_eq_true, decide_eq_true_eq] at displays
  exact displays.1.2

theorem finite_display (at_ : member ∈ record.members) {display : DisplaySnapshot F}
    (inside : display ∈ member.displays) : display.Finite := by
  have snapshot := valid.snapshot at_ inside
  simp only [validSnapshot, Bool.and_eq_true] at snapshot
  exact ⟨by tauto, by tauto, by tauto⟩

theorem finite_link {link : LinkRequest F} (at_ : link ∈ record.layout.links) : link.Finite := by
  obtain ⟨links, read, _⟩ := (valid_iff.mp valid).links
  obtain ⟨parsed, _, this⟩ := exists_of_mapM_left read at_
  exact (parseLink_eq_ok this).2.2.2.2.2.2.2

theorem arrangement {arrangement : ArrangementRequest F}
    (found : record.layout.arrangement = some arrangement) {index : Nat}
    (inside : index < record.members.length) :
    arrangement.Good record.layout.links (record.arranged index) :=
  checkArrangement_eq_ok.mp ((valid_iff.mp valid).arranged index inside) arrangement found

theorem finite_layout : record.layout.Finite := by
  have several := (valid_iff.mp valid).several
  refine ⟨fun link => valid.finite_link, fun arrangement found position member => ?_⟩
  have good := (valid.arrangement found (show 0 < record.members.length by omega)).positions
    position member
  exact ⟨good.2.2.1, good.2.2.2.1⟩

theorem sorted_members : sortBy GroupMember.key record.members = record.members :=
  sortBy_eq_self (pairwise_map.mp (valid.pairwise.imp le_of_lt))

end Valid
end GroupRecord

/-! ## Two computers side by side -/

namespace RecordRun

instance neZero_digits : NeZero 16 := ⟨by decide⟩

/-- The computer whose fingerprint repeats one digit. -/
def computer (digit : Fin 16) : CertificateFingerprint where
  nibbles := List.replicate 64 digit.val
  length_nibbles := length_replicate
  nibbles_lt _ member := (eq_of_mem_replicate member).symm ▸ digit.isLt

/-- A square screen at a place. -/
def screen (id : Text) (x : Int) (primary : Bool) (monitor : Option Text) : DisplaySnapshot Int where
  id := id
  name := ['M']
  origin := ⟨x, 0⟩
  size := ⟨100, 100⟩
  nativeSize := ⟨100, 100⟩
  scale := ⟨0x3F800000⟩
  primary := primary
  monitor := monitor

/-- The crossing through the whole of two facing edges. -/
def crossing (source destination : Text) (fromEdge toEdge : String) : LinkRequest Int where
  fromDisplay := source
  fromEdge := fromEdge.toList
  fromSpan := (0, 1)
  toDisplay := destination
  toEdge := toEdge.toList
  toSpan := (0, 1)
  hysteresis := 1

def member (digit : Fin 16) (displays : List (DisplaySnapshot Int)) : GroupMember Int where
  fingerprint := (computer digit).fullHex
  platform := .windows
  displays := displays

def control (digits : List (Fin 16))
    (sorted : (digits.map fun digit => (fingerprintKey (computer digit).fullHex, true)).Pairwise
      fun first second => first.1 < second.1) : ControlMap where
  entries := digits.map fun digit => (fingerprintKey (computer digit).fullHex, true)
  sorted := sorted

/-- The first computer's screen `1` beside the second's screen `2`. -/
def pair (revision : Nat) : GroupRecord Int where
  version := 1
  revision := revision
  author := (computer 10).fullHex
  members := [member 10 [screen ['1'] 0 true none], member 11 [screen ['2'] 0 true none]]
  layout :=
    { links := [crossing ['1'] ['2'] "right" "left", crossing ['2'] ['1'] "left" "right"]
      arrangement := none
      control := control [10, 11] (by decide +kernel) }

example : (pair 1).Valid := by decide +kernel

end RecordRun
end Monhop.Setup
