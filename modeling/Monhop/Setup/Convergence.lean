import Monhop.Setup.FileRun

/-! # Records converge

Computers that meet the same records of a group end with the same one, in whatever order and
however often they meet them.  A record's content is compared in canonical order, and two
valid records have the same canonical content exactly when they differ at most in the order
of their lists and in display names.

* `GroupRecord.content_eq_iff` — what the canonical form identifies.
* `GroupRecord.contentDigest_eq_iff` — the same of digests.
* `held_adopt` — adopting keeps the newer of two records.
* `records_converge` — the statement over all schedules.
-/

namespace Monhop.Setup

open Monhop.Core Library Protocol Transport List CertificateFingerprint GroupRecord
variable {F : Type} [Format F]
variable {fingerprint : CertificateFingerprint} {first second record : GroupRecord F} {name : Text}

/-! ## Records that differ only in order and labels -/

def DisplaySnapshot.unnamed (display : DisplaySnapshot F) : DisplaySnapshot F :=
  { display with name := [] }

/-- The same computer showing the same displays, in any order and under any names. -/
structure GroupMember.Alike (first second : GroupMember F) : Prop where
  fingerprint : first.fingerprint = second.fingerprint
  platform : first.platform = second.platform
  displays : (first.displays.map (·.unnamed)).Perm (second.displays.map (·.unnamed))

/-- The same picture, its lists in any order. -/
structure ArrangementRequest.Alike (first second : ArrangementRequest F) : Prop where
  positions : first.positions.Perm second.positions
  hidden : first.hidden.Perm second.hidden

/-- The same members, displays and layout up to list order and display names. -/
structure GroupRecord.Alike (first second : GroupRecord F) : Prop where
  version : first.version = second.version
  members : List.Forall₂ GroupMember.Alike first.members second.members
  links : first.layout.links.Perm second.layout.links
  arrangement : Option.Rel ArrangementRequest.Alike first.layout.arrangement second.layout.arrangement
  control : first.layout.control = second.layout.control

/-! ## What the canonical form identifies -/

omit [Format F] in
theorem GroupMember.canonical_displays (member : GroupMember F) :
    member.canonical.displays =
      sortBy (fun display => displayOrder display.id) (member.displays.map (·.unnamed)) :=
  sortBy_map (fun _ => rfl)

omit [Format F] in
theorem GroupMember.canonical_eq_iff {first second : GroupMember F}
    (distinct : (first.displays.map (·.id)).Nodup) :
    first.canonical = second.canonical ↔ first.Alike second := by
  have keyed : KeyedBy (fun display => displayOrder display.id)
      (first.displays.map (·.unnamed)) := by
    intro display member other otherMember same
    refine inj_on_of_nodup_map (f := (·.id)) ?_ member otherMember
      (displayOrder_injective same)
    rw [map_map]
    exact distinct
  have parts : first.canonical = second.canonical ↔ first.fingerprint = second.fingerprint ∧
      first.platform = second.platform ∧ first.canonical.displays = second.canonical.displays :=
    GroupMember.mk.injEq .. ▸ Iff.rfl
  rw [parts, canonical_displays, canonical_displays, sortBy_eq_iff keyed]
  exact ⟨fun ⟨fingerprint, platform, displays⟩ => ⟨fingerprint, platform, displays⟩,
    fun alike => ⟨alike.fingerprint, alike.platform, alike.displays⟩⟩

omit [Format F] in
theorem ArrangementRequest.canonical_eq_iff {first second : ArrangementRequest F}
    (distinct : (first.positions.map (·.display)).Nodup) :
    first.canonical = second.canonical ↔ first.Alike second := by
  have placed : KeyedBy (fun position => displayOrder position.display) first.positions :=
    fun position member other otherMember same =>
      inj_on_of_nodup_map distinct member otherMember (displayOrder_injective same)
  have hidden : KeyedBy displayOrder first.hidden :=
    fun _ _ _ _ same => displayOrder_injective same
  rw [canonical, canonical, ArrangementRequest.mk.injEq, sortBy_eq_iff placed, sortBy_eq_iff hidden]
  exact ⟨fun ⟨positions, hidden⟩ => ⟨positions, hidden⟩,
    fun alike => ⟨alike.positions, alike.hidden⟩⟩

namespace GroupRecord

theorem Valid.content_members (valid : record.Valid) :
    record.content.members = record.members.map (·.canonical) := by
  rw [content, valid.sorted_members]

theorem Valid.members_eq_iff (firstValid : first.Valid) (secondValid : second.Valid) :
    first.content.members = second.content.members ↔
      List.Forall₂ GroupMember.Alike first.members second.members := by
  rw [firstValid.content_members, secondValid.content_members, map_eq_map_iff_forall₂]
  have distinct : ∀ member ∈ first.members, (member.displays.map (·.id)).Nodup :=
    fun member at_ => firstValid.distinctIds at_
  -- Each member carries its distinct ids through the match.
  constructor
  · intro same
    refine ((forall₂_and_left _ _).mpr ⟨distinct, same⟩).imp ?_
    exact fun _ _ ⟨ids, equal⟩ => (GroupMember.canonical_eq_iff ids).mp equal
  · intro alike
    refine ((forall₂_and_left _ _).mpr ⟨distinct, alike⟩).imp ?_
    exact fun _ _ ⟨ids, equal⟩ => (GroupMember.canonical_eq_iff ids).mpr equal

theorem Valid.keyed_links (valid : record.Valid) :
    KeyedBy (fun link => link.json.write) record.layout.links :=
  fun _ member _ otherMember same =>
    LinkRequest.json_inj (valid.finite_link member) (valid.finite_link otherMember)
      (Json.write_injective same)

theorem Valid.arrangement_eq_iff (valid : first.Valid) :
    first.layout.arrangement.map (·.canonical) = second.layout.arrangement.map (·.canonical) ↔
      Option.Rel ArrangementRequest.Alike first.layout.arrangement second.layout.arrangement := by
  have several := (valid_iff.mp valid).several
  cases here : first.layout.arrangement with
  | none => cases second.layout.arrangement <;> simp
  | some arrangement =>
    have placed := (valid.arrangement here (show 0 < first.members.length by omega)).placedOnce
    cases second.layout.arrangement with
    | none => simp
    | some other => simp [ArrangementRequest.canonical_eq_iff placed]

/-- The canonical content of valid records identifies exactly the records that differ in list
order, display names, revision and author. -/
theorem content_eq_iff (firstValid : first.Valid) (secondValid : second.Valid) :
    first.content = second.content ↔ first.Alike second := by
  have version : first.version = second.version :=
    (valid_iff.mp firstValid).version.trans (valid_iff.mp secondValid).version.symm
  have parts : first.content = second.content ↔
      first.content.members = second.content.members ∧
        sortBy (fun link => link.json.write) first.layout.links =
          sortBy (fun link => link.json.write) second.layout.links ∧
        first.layout.arrangement.map (·.canonical) =
          second.layout.arrangement.map (·.canonical) ∧
        first.layout.control = second.layout.control := by
    simp only [content, LayoutRequest.canonical, Content.mk.injEq, LayoutRequest.mk.injEq]
  rw [parts, firstValid.members_eq_iff secondValid, sortBy_eq_iff firstValid.keyed_links,
    firstValid.arrangement_eq_iff]
  exact ⟨fun ⟨members, links, arrangement, control⟩ =>
      ⟨version, members, links, arrangement, control⟩,
    fun alike => ⟨alike.members, alike.links, alike.arrangement, alike.control⟩⟩

end GroupRecord

/-! ## The digest of the content -/

theorem platformText_injective : Function.Injective platformText := by
  intro first second same
  cases first <;> cases second <;> first | rfl | exact absurd same (by decide)

theorem GroupMember.json_inj {first second : GroupMember F}
    (firstFinite : ∀ display ∈ first.displays, display.Finite)
    (secondFinite : ∀ display ∈ second.displays, display.Finite)
    (same : first.json = second.json) : first = second := by
  simp only [GroupMember.json, field, Json.object.injEq, List.cons.injEq, Prod.mk.injEq, true_and,
    Json.string.injEq, Json.array.injEq, and_true] at same
  obtain ⟨fingerprint, platform, texts⟩ := same
  have platforms := platformText_injective platform
  have displays : first.displays = second.displays :=
    map_inj_of_forall (fun display member other otherMember =>
      DisplaySnapshot.json_inj (firstFinite display member) (secondFinite other otherMember)) texts
  cases first
  cases second
  simp_all

structure Content.Finite (content : Content F) : Prop where
  displays : ∀ member ∈ content.members, ∀ display ∈ member.displays, display.Finite
  layout : content.layout.Finite

/-- The text the digest is taken of determines the content. -/
theorem Content.json_inj {first second : Content F} (firstFinite : first.Finite)
    (secondFinite : second.Finite) (same : first.json = second.json) : first = second := by
  simp only [Content.json, field, Json.object.injEq, List.cons.injEq, Prod.mk.injEq, true_and,
    Json.array.injEq, and_true] at same
  have members : first.members = second.members :=
    map_inj_of_forall (fun member at_ other otherAt =>
      GroupMember.json_inj (firstFinite.displays member at_) (secondFinite.displays other otherAt))
      same.1
  have layout := LayoutRequest.json_inj firstFinite.layout secondFinite.layout same.2
  cases first
  cases second
  simp_all

namespace GroupRecord

theorem Valid.finite_content (valid : record.Valid) : record.content.Finite := by
  constructor
  · intro member at_ display inside
    rw [valid.content_members] at at_
    obtain ⟨original, originalAt, rfl⟩ := mem_map.mp at_
    rw [GroupMember.canonical_displays, mem_sortBy] at inside
    obtain ⟨named, namedAt, rfl⟩ := mem_map.mp inside
    have finite : named.Finite := valid.finite_display originalAt namedAt
    exact finite
  · constructor
    · exact fun link member => valid.finite_link (mem_sortBy.mp member)
    · intro canonical found position member
      obtain ⟨arrangement, here, rfl⟩ := Option.map_eq_some_iff.mp found
      exact valid.finite_layout.positions arrangement here position (mem_sortBy.mp member)

variable (F) in
/-- The digest tells the canonical texts of valid records apart. -/
def DigestInjective : Prop :=
  ∀ first second : GroupRecord F, first.Valid → second.Valid →
    first.contentDigest = second.contentDigest → first.content.json.write = second.content.json.write

theorem contentDigest_eq_iff (injective : DigestInjective F) (firstValid : first.Valid)
    (secondValid : second.Valid) :
    first.contentDigest = second.contentDigest ↔ first.Alike second := by
  rw [← content_eq_iff firstValid secondValid]
  constructor
  · intro same
    have texts := injective first second firstValid secondValid same
    exact Content.json_inj firstValid.finite_content secondValid.finite_content
      (Json.write_injective texts)
  · intro same
    rw [contentDigest, same, contentDigest]

/-- Valid records with one stamp differ only in order and labels. -/
theorem alike_of_stamp_eq (injective : DigestInjective F) (firstValid : first.Valid)
    (secondValid : second.Valid) (same : first.stamp = second.stamp) : first.Alike second :=
  (contentDigest_eq_iff injective firstValid secondValid).mp (congrArg Stamp.content same)

end GroupRecord

/-! ## Adopting records -/

namespace SetupFile

variable {file : SetupFile F} {members : List Text}

omit [Format F] in
/-- Taking an identity keeps the record of every group that names it. -/
theorem held_setLocal (lower : fingerprintKey (fingerprintKey name) = fingerprintKey name)
    (named : fingerprintKey name ∈ members) :
    (file.setLocal name).held members = file.held members := by
  unfold setLocal
  split
  · rfl
  unfold held
  rw [find?_filter]
  congr 1
  funext group
  by_cases same : group.memberKeys = members
  · have has : group.hasMember (fingerprintKey name) = true :=
      hasMember_iff.mpr (by rw [lower, same]; exact named)
    simp [has, same]
  · simp [same]

/-- The record stored for the enabled members is the one held for them. -/
theorem held_store (active : file.activeMembers = some record.memberKeys) :
    (file.store record).held record.memberKeys = some record := by
  obtain ⟨group, member, keys⟩ := holds_store active (.inr rfl)
  have found : ((file.store record).held record.memberKeys).isSome = true := by
    rw [held, find?_isSome]
    exact ⟨group, member, by simp [keys]⟩
  obtain ⟨held, this⟩ := Option.isSome_iff_exists.mp found
  obtain ⟨heldMember, heldKeys⟩ := held_eq_some this
  rcases mem_store heldMember with ⟨_, other⟩ | same
  · exact absurd heldKeys other
  · rw [this, same]

/-- Adopting a valid record of a group this computer is in keeps the newer of the record and the
one held. -/
theorem held_adopt (file : SetupFile F)
    (read : parseFull name = some fingerprint) (valid : record.Valid)
    (named : fingerprintKey fingerprint.fullHex ∈ record.memberKeys) :
    ∃ next kept, file.adopt name record = .ok (next, kept) ∧
      next.held record.memberKeys =
        some (newest GroupRecord.stamp (file.held record.memberKeys) record) := by
  have admitted : (file.enlist fingerprint.fullHex record).held record.memberKeys =
      file.held record.memberKeys :=
    held_setLocal (fingerprintKey_fingerprintKey _) named
  have stored : ((file.enlist fingerprint.fullHex record).store record).held record.memberKeys =
      some record := held_store (activeMembers_enlist valid named)
  rcases file.adopt_of_valid read valid named with ⟨done, newer⟩ | ⟨done, held, found, older⟩
  · refine ⟨_, _, done, ?_⟩
    rw [stored]
    rw [admitted] at newer
    cases here : file.held record.memberKeys with
    | none => rfl
    | some held => simp [newest, newer held here]
  · refine ⟨_, _, done, ?_⟩
    rw [admitted, admitted.symm.trans found]
    simp [newest, not_le.mpr older]

def adoptAll (file : SetupFile F) (name : Text) :
    List (GroupRecord F) → Except PreferenceError (SetupFile F)
  | [] => .ok file
  | record :: rest => do
    let (next, _) ← file.adopt name record
    next.adoptAll name rest

/-- After a whole schedule the file holds the newest of what it held and what it met. -/
theorem held_adoptAll (file : SetupFile F) (read : parseFull name = some fingerprint)
    (named : fingerprintKey fingerprint.fullHex ∈ members) {schedule : List (GroupRecord F)}
    (valid : ∀ record ∈ schedule, record.Valid ∧ record.memberKeys = members) :
    ∃ last, file.adoptAll name schedule = .ok last ∧
      last.held members = schedule.foldl
        (fun held met => some (newest GroupRecord.stamp held met)) (file.held members) := by
  induction schedule generalizing file with
  | nil => exact ⟨file, rfl, rfl⟩
  | cons record rest ih =>
    obtain ⟨recordValid, keys⟩ := valid record mem_cons_self
    obtain ⟨next, kept, adopted, held⟩ := file.held_adopt read recordValid (keys ▸ named)
    obtain ⟨last, done, ends⟩ := ih next fun other member =>
      valid other (mem_cons_of_mem _ member)
    refine ⟨last, ?_, ?_⟩
    · rw [adoptAll, adopted]
      exact done
    · rw [ends, foldl_cons, ← keys, held]

end SetupFile

/-! ## Convergence -/

/-- Where no file starts with a record newer than all of a collection, every file that adopts
exactly the collection's records ends with one of them, and none of them is newer. -/
theorem held_greatest {members : List Text} {collection schedule : List (GroupRecord F)}
    (valid : ∀ record ∈ collection, record.Valid ∧ record.memberKeys = members) {file : SetupFile F}
    (read : parseFull name = some fingerprint)
    (named : fingerprintKey fingerprint.fullHex ∈ members)
    (all : ∀ record, record ∈ schedule ↔ record ∈ collection)
    (noNewer : ∀ held, file.held members = some held →
      ∃ record ∈ collection, held.stamp ≤ record.stamp) :
    ∃ last, file.adoptAll name schedule = .ok last ∧
      (collection ≠ [] → ∃ held, last.held members = some held) ∧
      ∀ held, last.held members = some held →
        held ∈ collection ∧ ∀ record ∈ collection, record.stamp ≤ held.stamp := by
  obtain ⟨last, done, ends⟩ := file.held_adoptAll read named fun record member =>
    valid record ((all record).mp member)
  have folded := foldl_newest GroupRecord.stamp (file.held members) schedule
  rw [← ends] at folded
  refine ⟨last, done, fun nonempty => ?_, fun held found => ?_⟩
  · cases found : last.held members with
    | some held => exact ⟨held, rfl⟩
    | none =>
      rw [found] at folded
      obtain ⟨first, member⟩ := exists_mem_of_ne_nil _ nonempty
      have met := (all first).mpr member
      rw [folded.2] at met
      cases met
  · rw [found] at folded
    obtain ⟨greatest, origin⟩ := folded
    refine ⟨?_, fun record member => greatest record ((all record).mpr member)⟩
    rcases origin with met | ⟨start, newer⟩
    · exact (all held).mp met
    · -- The one held at the start is not newer than all of the collection.
      obtain ⟨record, member, le⟩ := noNewer held start
      exact absurd le (not_le.mpr (newer record ((all record).mpr member)))

/-- With a digest that tells canonical texts apart, any number of setup files that each adopt
every record of a collection, in any order and however often, end up with records of one stamp
that differ at most in list order and display names; the stamp order is a total order of the
valid records; and two valid records have one digest exactly when they differ at most in
revision, author, display names and list order. -/
theorem records_converge (injective : GroupRecord.DigestInjective F) {Computer : Type}
    {members : List Text} {collection : List (GroupRecord F)}
    (valid : ∀ record ∈ collection, record.Valid ∧ record.memberKeys = members)
    (files : Computer → SetupFile F) (names : Computer → Text) (named : ∀ computer, ∃ fingerprint,
      CertificateFingerprint.parseFull (names computer) = some fingerprint ∧
        fingerprintKey fingerprint.fullHex ∈ members)
    (schedules : Computer → List (GroupRecord F))
    (all : ∀ computer record, record ∈ schedules computer ↔ record ∈ collection)
    (noNewer : ∀ computer held, (files computer).held members = some held →
      ∃ record ∈ collection, held.stamp ≤ record.stamp) :
    (∃ ends : Computer → SetupFile F,
      (∀ computer,
        (files computer).adoptAll (names computer) (schedules computer) = .ok (ends computer)) ∧
      (collection ≠ [] → ∀ computer, ∃ held, (ends computer).held members = some held) ∧
      ∀ computer other first second, (ends computer).held members = some first →
        (ends other).held members = some second →
          first.stamp = second.stamp ∧ first.Alike second) ∧
    (∀ first second third : GroupRecord F, first.Valid → second.Valid → third.Valid →
      (first.stamp ≤ second.stamp ∨ second.stamp ≤ first.stamp) ∧
      (first.stamp ≤ second.stamp → second.stamp ≤ first.stamp → first.stamp = second.stamp) ∧
      (first.stamp ≤ second.stamp → second.stamp ≤ third.stamp → first.stamp ≤ third.stamp)) ∧
    ∀ first second : GroupRecord F, first.Valid → second.Valid →
      (first.contentDigest = second.contentDigest ↔ first.Alike second) := by
  have greatest (computer : Computer) :=
    (named computer).elim fun _ both =>
      held_greatest valid both.1 both.2 (all computer) (noNewer computer)
  choose ends done some_ greatest using greatest
  refine ⟨⟨ends, done, fun nonempty computer => some_ computer nonempty, ?_⟩, ?_, ?_⟩
  · intro computer other first second firstHeld secondHeld
    obtain ⟨firstIn, firstGreatest⟩ := greatest computer first firstHeld
    obtain ⟨secondIn, secondGreatest⟩ := greatest other second secondHeld
    have same : first.stamp = second.stamp :=
      le_antisymm (secondGreatest first firstIn) (firstGreatest second secondIn)
    exact ⟨same, alike_of_stamp_eq injective (valid first firstIn).1
      (valid second secondIn).1 same⟩
  · intro first second third _ _ _
    exact ⟨le_total _ _, le_antisymm, le_trans⟩
  · exact fun first second firstValid secondValid =>
      contentDigest_eq_iff injective firstValid secondValid

namespace RecordRun

/-- On integers the digest spells the text out in digits of 21 bits. -/
theorem payloadDigest_injective : Function.Injective (Format.payloadDigest Int) := by
  intro first
  induction first using List.reverseRecOn with
  | nil =>
    intro second same
    cases second using List.reverseRecOn with
    | nil => rfl
    | append_singleton second char =>
      simp only [Format.payloadDigest, foldl_append, foldl_cons, foldl_nil] at same
      omega
  | append_singleton first char ih =>
    intro second same
    cases second using List.reverseRecOn with
    | nil =>
      simp only [Format.payloadDigest, foldl_append, foldl_cons, foldl_nil] at same
      omega
    | append_singleton second other =>
      have narrow (char : Char) : char.toNat + 1 < 2 ^ 21 := by
        have valid := char.valid
        have : char.toNat = char.val.toNat := rfl
        rcases valid with below | ⟨_, below⟩ <;> omega
      simp only [Format.payloadDigest, foldl_append, foldl_cons, foldl_nil] at same
      have low := narrow char
      have high := narrow other
      have codes : char.toNat = other.toNat := by omega
      have rests : Format.payloadDigest Int first = Format.payloadDigest Int second := by
        simp only [Format.payloadDigest]
        omega
      rw [Char.toNat_inj.mp codes, ih rests]

theorem digestInjective : GroupRecord.DigestInjective Int :=
  fun _ _ _ _ same => payloadDigest_injective same

/-- What the first computer holds for the pair after a schedule. -/
def heldAfter (file : SetupFile Int) (schedule : List (GroupRecord Int)) :
    Option (GroupRecord Int) :=
  (file.adoptAll (computer 10).fullHex schedule).toOption.bind (·.held (pair 1).memberKeys)

/-- A file that starts with a newer record than any it meets keeps it, and a record of another
version has the same digest. -/
theorem newer_start_diverges :
    GroupRecord.DigestInjective Int ∧ (pair 1).Valid ∧
      heldAfter SetupFile.default [pair 1] = some (pair 1) ∧
      heldAfter (fresh.file.apply (.adopt (computer 10).fullHex (pair 2))) [pair 1] =
        some (pair 2) ∧
      (pair 1).stamp ≠ (pair 2).stamp ∧
      { pair 1 with version := 2 }.contentDigest = (pair 1).contentDigest ∧
      ¬ { pair 1 with version := 2 }.Alike (pair 1) := by
  refine ⟨digestInjective, by decide +kernel, by decide +kernel, by decide +kernel, ?_, rfl, ?_⟩
  · exact fun same => absurd (congrArg Stamp.revision same) (by decide)
  · exact fun alike => absurd alike.version (by decide)

def computerOf (second : Bool) : CertificateFingerprint := if second then computer 11 else computer 10

/-- Each meets both records, in an order of its own. -/
def orderOf (second : Bool) (old new : GroupRecord Int) : List (GroupRecord Int) :=
  if second then [new, old, new] else [old, new]

theorem mem_orderOf {second : Bool} {old new record : GroupRecord Int} :
    record ∈ orderOf second old new ↔ record ∈ [old, new] := by
  cases second <;> simp only [orderOf, if_true, Bool.false_eq_true, if_false, mem_cons,
    not_mem_nil, or_false]
  tauto

theorem valid_both : ∀ record ∈ [pair 1, pair 2],
    record.Valid ∧ record.memberKeys = (pair 1).memberKeys := by
  intro record member
  rcases mem_pair.mp member with rfl | rfl
  · exact ⟨by decide +kernel, rfl⟩
  · exact ⟨by decide +kernel, rfl⟩

/-- Two fresh files meet two records in different orders. -/
theorem records_converge_pair :
    ∃ ends : Bool → SetupFile Int,
      (∀ second, SetupFile.default.adoptAll (computerOf second).fullHex
        (orderOf second (pair 1) (pair 2)) = .ok (ends second)) ∧
      ∃ first second, (ends false).held (pair 1).memberKeys = some first ∧
        (ends true).held (pair 1).memberKeys = some second ∧ first.stamp = second.stamp ∧
        first.Alike second := by
  have named (second : Bool) : fingerprintKey (computerOf second).fullHex ∈ (pair 1).memberKeys := by
    cases second <;> decide +kernel
  obtain ⟨⟨ends, done, some_, same⟩, _⟩ := records_converge digestInjective valid_both
    (fun _ : Bool => SetupFile.default) (fun second => (computerOf second).fullHex)
    (fun second => ⟨computerOf second, parseFull_fullHex _, named second⟩)
    (fun second => orderOf second (pair 1) (pair 2)) (fun _ _ => mem_orderOf) nofun
  obtain ⟨first, firstHeld⟩ := some_ (cons_ne_nil _ _) false
  obtain ⟨second, secondHeld⟩ := some_ (cons_ne_nil _ _) true
  exact ⟨ends, done, first, second, firstHeld, secondHeld,
    same false true first second firstHeld secondHeld⟩

end RecordRun
end Monhop.Setup
