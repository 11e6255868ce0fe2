import Monhop.Library.Transition
import Monhop.Setup.File

/-! # The setup file stays valid

One lemma per operation says what it does to a valid file: the file it leaves is valid, its
clock has not gone back, and each record it holds is an old one or one that may replace it.

* `SetupFile.validate_eq_ok` — the file's own validation, as named facts.
* `SetupFile.Evolves` — what every change does to the records.
* `Sound.json_size_le` — a valid file is never too large to save.
-/

namespace Monhop.Setup

open Monhop.Core Library Protocol List Option CertificateFingerprint GroupRecord

theorem peer_iff {peer : Text} :
    validFingerprint (asciiUppercase peer) = true ∧ fingerprintKey peer = peer ↔
      ∃ fingerprint : CertificateFingerprint, peer = fingerprintKey fingerprint.fullHex := by
  constructor
  · rintro ⟨valid, lower⟩
    obtain ⟨fingerprint, named⟩ := validFingerprint_iff.mp valid
    exact ⟨fingerprint, by rw [← named, fingerprintKey_asciiUppercase, lower]⟩
  · rintro ⟨fingerprint, rfl⟩
    simp

namespace SetupFile

variable {F : Type} [Format F] {file next : SetupFile F} {record : GroupRecord F}

/-! ## Validity -/

/-- What a file's validation establishes. -/
structure Sound (file : SetupFile F) : Prop where
  version : file.version = setupFileVersion
  fewGroups : file.groups.length ≤ maxGroups
  fewEnabled : file.enabled.length < maxGroupMembers
  enabledSorted : file.enabled.Pairwise (· < ·)
  network : ∀ id, file.interfaceId = some id → id ≠ [] ∧ textSize id ≤ maxInterfaceIdBytes
  named : ∀ name, file.localName = some name →
    ∃ fingerprint : CertificateFingerprint, name = fingerprint.fullHex
  peers : ∀ peer ∈ file.enabled,
    ∃ fingerprint : CertificateFingerprint, peer = fingerprintKey fingerprint.fullHex
  others : ∀ peer ∈ file.enabled, file.localKey ≠ some peer
  valid : ∀ group ∈ file.groups, group.Valid
  ours : ∀ group ∈ file.groups, ∃ key, file.localKey = some key ∧ key ∈ group.memberKeys
  revisions : ∀ group ∈ file.groups, group.revision ≤ file.clock
  sorted : (file.groups.map memberKeys).Pairwise (· < ·)

omit [Format F] in
theorem localKey_lower (named : ∀ name, file.localName = some name →
      ∃ fingerprint : CertificateFingerprint, name = fingerprint.fullHex)
    {key : Text} (here : file.localKey = some key) : fingerprintKey key = key := by
  obtain ⟨name, found, rfl⟩ := map_eq_some_iff.mp here
  obtain ⟨fingerprint, rfl⟩ := named name found
  exact fingerprintKey_fingerprintKey _

theorem validate_eq_ok : file.validate = .ok () ↔ file.Sound := by
  unfold validate
  simp only [bind_eq_ok, ensure_eq_ok, forM_eq_ok, exists_const, Bool.and_eq_true, beq_iff_eq,
    bne_iff_ne, decide_eq_true_eq, Option.all_eq_true, Option.any_eq_true, Bool.not_eq_true',
    List.isEmpty_eq_false_iff, List.isChain_iff_pairwise]
  constructor
  · rintro ⟨⟨⟨⟨⟨version, fewGroups⟩, fewEnabled⟩, enabledSorted⟩, network⟩, named, peers, groups,
      sorted⟩
    have names : ∀ name, file.localName = some name →
        ∃ fingerprint : CertificateFingerprint, name = fingerprint.fullHex :=
      fun name found => validFingerprint_iff.mp (named name found)
    refine ⟨version, fewGroups, fewEnabled, enabledSorted, network, names,
      fun peer member => peer_iff.mp (peers peer member).1, fun peer member => (peers peer member).2,
      fun group member => (groups group member).1.1, ?_, fun group member => (groups group member).2,
      sorted⟩
    intro group member
    obtain ⟨key, here, has⟩ := (groups group member).1.2
    rw [hasMember_iff, localKey_lower names here] at has
    exact ⟨key, here, has⟩
  · intro sound
    refine ⟨⟨⟨⟨⟨sound.version, sound.fewGroups⟩, sound.fewEnabled⟩, sound.enabledSorted⟩,
      sound.network⟩, fun name found => validFingerprint_iff.mpr (sound.named name found),
      fun peer member => ⟨peer_iff.mpr (sound.peers peer member), sound.others peer member⟩, ?_,
      sound.sorted⟩
    intro group member
    obtain ⟨key, here, has⟩ := sound.ours group member
    refine ⟨⟨sound.valid group member, key, here, ?_⟩, sound.revisions group member⟩
    rwa [hasMember_iff, localKey_lower sound.named here]

namespace Sound

section
variable (sound : file.Sound)
include sound

theorem distinct : (file.groups.map memberKeys).Nodup :=
  sound.sorted.imp ne_of_lt

theorem eq_of_keys {first second : GroupRecord F}
    (firstMember : first ∈ file.groups) (secondMember : second ∈ file.groups)
    (same : first.memberKeys = second.memberKeys) : first = second :=
  inj_on_of_nodup_map sound.distinct firstMember secondMember same

theorem stamp_le_of_clock_lt {held : GroupRecord F}
    (member : held ∈ file.groups) (newer : file.clock < record.revision) :
    held.stamp ≤ record.stamp :=
  Stamp.le_of_revision_lt (lt_of_le_of_lt (sound.revisions held member) newer)

/-- Other records of this computer, each an old one or a valid one up to the clock. -/
theorem regroup {groups : List (GroupRecord F)} {clock : Nat}
    (few : groups.length ≤ maxGroups) (sorted : (groups.map memberKeys).Pairwise (· < ·))
    (later : file.clock ≤ clock) (each : ∀ group ∈ groups, group ∈ file.groups ∨ group.Valid ∧
      (∃ key, file.localKey = some key ∧ key ∈ group.memberKeys) ∧ group.revision ≤ clock) :
    Sound { file with groups, clock } := by
  refine { sound with fewGroups := few, sorted, valid := ?_, ours := ?_, revisions := ?_ } <;>
    intro group member <;> rcases each group member with old | ⟨valid, ours, revision⟩
  · exact sound.valid group old
  · exact valid
  · exact sound.ours group old
  · exact ours
  · exact le_trans (sound.revisions group old) later
  · exact revision

end
end Sound

/-! ## Keeping records -/

def Holds (file : SetupFile F) (members : List Text) : Prop :=
  ∃ group ∈ file.groups, group.memberKeys = members

variable {members : List Text} {group : GroupRecord F}

omit [Format F] in
theorem held_eq_some (found : file.held members = some group) :
    group ∈ file.groups ∧ group.memberKeys = members :=
  ⟨mem_of_find?_eq_some found, by simpa using find?_some found⟩

omit [Format F] in
@[simp] theorem inactive_eq_false {active : Option (List Text)} :
    inactive active group = false ↔ active = some group.memberKeys := by
  simp [inactive]

/-- The sorted list `store` cuts to the bound. -/
def stored (file : SetupFile F) (record : GroupRecord F) : List (GroupRecord F) :=
  sortBy memberKeys
    ((file.groups.filter fun group => group.memberKeys != record.memberKeys) ++ [record])

omit [Format F] in
theorem mem_stored :
    group ∈ file.stored record ↔
      group ∈ file.groups ∧ group.memberKeys ≠ record.memberKeys ∨ group = record := by
  simp [stored]

theorem mem_store (member : group ∈ (file.store record).groups) :
    group ∈ file.groups ∧ group.memberKeys ≠ record.memberKeys ∨ group = record :=
  mem_stored.mp (dropPastBound_sublist.subset member)

/-- The active group's record is never the one dropped. -/
theorem holds_store (active : file.activeMembers = some members)
    (held : file.Holds members ∨ record.memberKeys = members) :
    (file.store record).Holds members := by
  have stays {group : GroupRecord F} (member : group ∈ file.stored record)
      (keys : group.memberKeys = members) : (file.store record).Holds members :=
    ⟨group, mem_dropPastBound member (inactive_eq_false.mpr (by rw [active, keys])), keys⟩
  by_cases same : record.memberKeys = members
  · exact stays (mem_stored.mpr (.inr rfl)) same
  · obtain ⟨group, member, keys⟩ := held.resolve_right same
    exact stays (mem_stored.mpr (.inl ⟨member, fun equal => same (equal ▸ keys)⟩)) keys

theorem Sound.stored_distinct (sound : file.Sound) :
    ((file.groups.filter fun group => group.memberKeys != record.memberKeys) ++ [record]).map
      memberKeys |>.Nodup := by
  rw [map_append, nodup_append]
  refine ⟨sound.distinct.sublist ((filter_sublist).map _), nodup_singleton _, ?_⟩
  intro first atFirst second atSecond same
  obtain ⟨group, member, rfl⟩ := mem_map.mp atFirst
  simp_all

theorem Sound.store (sound : file.Sound) (valid : record.Valid)
    (ours : ∃ key, file.localKey = some key ∧ key ∈ record.memberKeys)
    (revision : record.revision ≤ file.clock) : (file.store record).Sound := by
  have sorted : ((file.stored record).map memberKeys).Pairwise (· < ·) :=
    pairwise_map.mpr (sortBy_strict sound.stored_distinct)
  have cut : ((file.store record).groups.map memberKeys).Pairwise (· < ·) :=
    sorted.sublist (dropPastBound_sublist.map _)
  -- At most one record is protected, since each member set has one record.
  have room : ((file.stored record).filter fun group => !inactive file.activeMembers group).length
      ≤ maxGroups := by
    have single : ((file.stored record).filter fun group =>
        !inactive file.activeMembers group).length ≤ 1 := by
      have apart : ((file.stored record).map memberKeys).Nodup := sorted.imp ne_of_lt
      have same : ∀ group ∈ (file.stored record).filter fun group =>
          !inactive file.activeMembers group, group.memberKeys = file.activeMembers.getD [] := by
        intro group member
        have active := (mem_filter.mp member).2
        rw [Bool.not_eq_true', inactive_eq_false] at active
        rw [active, getD_some]
      exact length_le_one_of_key (apart.sublist (filter_sublist.map _)) same
    exact le_trans single (by decide)
  have few : (file.store record).groups.length ≤ maxGroups :=
    length_dropPastBound_le (Nat.le_add_left _ _) room
  refine sound.regroup few cut (Nat.le_refl _) fun group member => ?_
  rcases mem_store member with old | rfl
  · exact .inl old.1
  · exact .inr ⟨valid, ours, revision⟩

/-! ## The active group -/

omit [Format F] in
theorem activeMembers_eq_some :
    file.activeMembers = some members ↔
      file.enabled ≠ [] ∧ ∃ key, file.localKey = some key ∧
        members = sortBy id (file.enabled ++ [key]) := by
  unfold activeMembers
  split
  · next empty =>
    have none_ : file.enabled = [] := List.isEmpty_iff.mp empty
    simp [none_]
  · next nonempty =>
    have some_ : file.enabled ≠ [] := fun empty => nonempty (List.isEmpty_iff.mpr empty)
    simp [some_, eq_comm]

omit [Format F] in
theorem mem_activeMembers (active : file.activeMembers = some members)
    {key : Text} : key ∈ members ↔ key ∈ file.enabled ∨ file.localKey = some key := by
  obtain ⟨_, own, here, rfl⟩ := activeMembers_eq_some.mp active
  simp [here, eq_comm]

/-- A sorted list without one of its members is the others; put back, it is the whole. -/
theorem sortBy_filter_append {key : Text} (sorted : members.Pairwise (· < ·))
    (member : key ∈ members) :
    sortBy id ((members.filter fun other => other != key) ++ [key]) = members := by
  have nodup : members.Nodup := sorted.imp ne_of_lt
  have whole : ((members.filter fun other => other != key) ++ [key]).Perm members := by
    rw [← nodup.erase_eq_filter]
    exact (perm_append_singleton key _).trans (perm_cons_erase member).symm
  have keyed : KeyedBy id ((members.filter fun other => other != key) ++ [key]) :=
    fun _ _ _ _ same => same
  rw [sortBy_eq_of_perm keyed whole]
  exact sortBy_eq_self (sorted.imp le_of_lt)

/-! ## Adopting a record -/

variable {fingerprint : CertificateFingerprint}

omit [Format F] in
theorem localKey_setLocal (fingerprint : CertificateFingerprint) :
    (file.setLocal fingerprint.fullHex).localKey = some (fingerprintKey fingerprint.fullHex) := by
  unfold setLocal
  split
  · next same => exact same
  · simp [localKey]

omit [Format F] in
theorem clock_setLocal (name : Text) : (file.setLocal name).clock = file.clock := by
  unfold setLocal
  split <;> rfl

/-- Taking an identity drops the records that do not name it and no other. -/
theorem mem_setLocal (sound : file.Sound) :
    group ∈ (file.setLocal fingerprint.fullHex).groups ↔
      group ∈ file.groups ∧ fingerprintKey fingerprint.fullHex ∈ group.memberKeys := by
  unfold setLocal
  split
  · next same =>
    constructor
    · intro member
      obtain ⟨key, here, named⟩ := sound.ours group member
      rw [same] at here
      cases here
      exact ⟨member, named⟩
    · exact fun both => both.1
  · simp [mem_filter, hasMember_iff]

theorem Sound.setLocal (sound : file.Sound) (fingerprint : CertificateFingerprint) :
    (file.setLocal fingerprint.fullHex).Sound := by
  have own := file.localKey_setLocal fingerprint
  have old : ∀ group ∈ (file.setLocal fingerprint.fullHex).groups, group ∈ file.groups ∧
      fingerprintKey fingerprint.fullHex ∈ group.memberKeys :=
    fun group member => (mem_setLocal sound).mp member
  by_cases same : file.localKey = some (fingerprintKey fingerprint.fullHex)
  · rw [SetupFile.setLocal, if_pos same]
    exact sound
  rw [SetupFile.setLocal, if_neg same] at own old ⊢
  refine ⟨sound.version, ?_, ?_, sound.enabledSorted.filter _, sound.network, ?_, ?_, ?_,
    fun group member => sound.valid group (old group member).1,
    fun group member => ⟨_, own, (old group member).2⟩,
    fun group member => sound.revisions group (old group member).1,
    sound.sorted.sublist (filter_sublist.map _)⟩
  · exact le_trans (length_filter_le _ _) sound.fewGroups
  · exact lt_of_le_of_lt (length_filter_le _ _) sound.fewEnabled
  · rintro name ⟨⟩
    exact ⟨fingerprint, fingerprint.asciiUppercase_key⟩
  · exact fun peer member => sound.peers peer (mem_filter.mp member).1
  · intro peer member here
    cases here
    simp at member

/-- A valid record that names this computer is kept unless the one held is newer. -/
def Adopts (file : SetupFile F) (name : Text) (fingerprint : CertificateFingerprint)
    (record : GroupRecord F) : Prop :=
  file.adopt name record = .ok ((file.enlist fingerprint.fullHex record).store record, true) ∧
      (∀ held, (file.enlist fingerprint.fullHex record).held record.memberKeys = some held →
        held.stamp ≤ record.stamp) ∨
    file.adopt name record = .ok (file.enlist fingerprint.fullHex record, false) ∧
      ∃ held, (file.enlist fingerprint.fullHex record).held record.memberKeys = some held ∧
        record.stamp < held.stamp

theorem adopt_of_valid (file : SetupFile F) {name : Text}
    (read : parseFull name = some fingerprint) (valid : record.Valid)
    (named : fingerprintKey fingerprint.fullHex ∈ record.memberKeys) :
    file.Adopts name fingerprint record := by
  unfold Adopts adopt take
  have has : record.hasMember fingerprint.fullHex = true := hasMember_iff.mpr named
  cases found : (file.enlist fingerprint.fullHex record).held record.memberKeys with
  | none =>
    left
    refine ⟨?_, nofun⟩
    simp [canonicalFingerprint, read, valid, has, ensure, bind, Except.bind, found, pure,
      Except.pure]
  | some held =>
    by_cases newer : held.stamp ≤ record.stamp
    · left
      refine ⟨?_, fun other same => by cases same; exact newer⟩
      simp [canonicalFingerprint, read, valid, has, ensure, bind, Except.bind, found, pure,
        Except.pure, newer]
    · right
      refine ⟨?_, held, rfl, not_le.mp newer⟩
      simp [canonicalFingerprint, read, valid, has, ensure, bind, Except.bind, found, pure,
        Except.pure, newer]

theorem adopt_cases (file : SetupFile F) {name : Text} :
    file.adopt name record = .error .invalid ∨
      ∃ fingerprint, parseFull name = some fingerprint ∧ record.Valid ∧
        fingerprintKey fingerprint.fullHex ∈ record.memberKeys ∧
        file.Adopts name fingerprint record := by
  by_cases valid : record.Valid
  swap
  · left
    simp [adopt, take, valid, ensure, bind, Except.bind]
  cases read : parseFull name with
  | none =>
    left
    simp [adopt, take, canonicalFingerprint, read, valid, ensure, bind, Except.bind]
  | some fingerprint =>
    by_cases named : fingerprintKey fingerprint.fullHex ∈ record.memberKeys
    · exact .inr ⟨fingerprint, rfl, valid, named, file.adopt_of_valid read valid named⟩
    left
    have missing : record.hasMember fingerprint.fullHex = false := by
      rw [← Bool.not_eq_true, hasMember_iff]
      exact named
    simp [adopt, take, canonicalFingerprint, read, valid, missing, ensure, bind, Except.bind]

/-- The file that takes a valid record in is valid, before and after the record is kept. -/
theorem Sound.enlist (sound : file.Sound) (valid : record.Valid)
    (named : fingerprintKey fingerprint.fullHex ∈ record.memberKeys) :
    (file.enlist fingerprint.fullHex record).Sound := by
  have base := sound.setLocal fingerprint
  have own := file.localKey_setLocal fingerprint
  refine ⟨base.version, base.fewGroups, ?_, valid.pairwise.filter _, base.network, base.named, ?_, ?_,
    base.valid, base.ours, ?_, base.sorted⟩
  · -- Of at most eight members one is this computer.
    have few : record.memberKeys.length ≤ maxGroupMembers := by
      rw [memberKeys, length_map]
      exact (valid_iff.mp valid).few
    have fewer : (record.memberKeys.filter fun member =>
        member != fingerprintKey fingerprint.fullHex).length < record.memberKeys.length :=
      length_filter_lt_length_iff_exists.mpr ⟨_, named, by simp⟩
    exact lt_of_lt_of_le fewer few
  · exact fun peer member => valid.key_eq (mem_filter.mp member).1
  · intro peer member here
    rw [show (file.enlist fingerprint.fullHex record).localKey = _ from own] at here
    cases here
    simpa using (mem_filter.mp member).2
  · intro group member
    have old := base.revisions group member
    rw [clock_setLocal] at old
    exact le_trans old (le_max_left _ _)

theorem activeMembers_enlist (valid : record.Valid)
    (named : fingerprintKey fingerprint.fullHex ∈ record.memberKeys) :
    (file.enlist fingerprint.fullHex record).activeMembers = some record.memberKeys := by
  refine activeMembers_eq_some.mpr ⟨?_, _, file.localKey_setLocal fingerprint,
    (sortBy_filter_append valid.pairwise named).symm⟩
  -- Of at least two members one is another computer.
  intro empty
  have several : 2 ≤ record.memberKeys.length := by
    rw [memberKeys, length_map]
    exact (valid_iff.mp valid).several
  have whole := congrArg List.length (sortBy_filter_append valid.pairwise named)
  rw [show record.memberKeys.filter _ = [] from empty] at whole
  simp at whole
  omega

/-! ## What a change does -/

/-- What every change does to the records of a valid file. -/
structure Evolves (file next : SetupFile F) : Prop where
  sound : next.Sound
  clock : file.clock ≤ next.clock
  /-- A record of the file it leaves is an old one, or may replace the one held before. -/
  records : ∀ group ∈ next.groups, group ∈ file.groups ∨
    ∀ held ∈ file.groups, held.memberKeys = group.memberKeys → held.stamp ≤ group.stamp

/-- A change made here: the records it makes are past the clock. -/
structure Advances (file next : SetupFile F) : Prop where
  sound : next.Sound
  clock : file.clock ≤ next.clock
  records : ∀ group ∈ next.groups, group ∈ file.groups ∨ file.clock < group.revision

theorem Advances.evolves (sound : file.Sound) (advances : file.Advances next) :
    file.Evolves next where
  sound := advances.sound
  clock := advances.clock
  records group member := (advances.records group member).imp_right fun newer _ heldMember _ =>
    sound.stamp_le_of_clock_lt heldMember newer

/-- A record is only ever replaced by one with a stamp at least as great. -/
theorem Evolves.stamp_le (evolves : file.Evolves next) (sound : file.Sound)
    {held group : GroupRecord F} (heldMember : held ∈ file.groups) (member : group ∈ next.groups)
    (same : group.memberKeys = held.memberKeys) : held.stamp ≤ group.stamp := by
  rcases evolves.records group member with old | newer
  · rw [sound.eq_of_keys heldMember old same.symm]
  · exact newer held heldMember same.symm

/-- A change of what is enabled or paused leaves the records alone. -/
theorem Sound.advances_of_same (sound : next.Sound) (groups : next.groups = file.groups)
    (clock : next.clock = file.clock) : file.Advances next where
  sound := sound
  clock := le_of_eq clock.symm
  records _ member := .inl (groups ▸ member)

theorem Advances.of_same {middle : SetupFile F} (groups : middle.groups = file.groups)
    (clock : middle.clock = file.clock) (advances : middle.Advances next) :
    file.Advances next where
  sound := advances.sound
  clock := clock ▸ advances.clock
  records := groups ▸ clock ▸ advances.records

theorem Sound.adopt (sound : file.Sound) (name : Text) (record : GroupRecord F) {newer : Bool}
    (adopted : file.adopt name record = .ok (next, newer)) : file.Evolves next := by
  rcases file.adopt_cases with failed | ⟨fingerprint, _, valid, named, cases⟩
  · rw [failed] at adopted
    cases adopted
  have admitted := sound.enlist valid named
  have own : (file.enlist fingerprint.fullHex record).localKey =
      some (fingerprintKey fingerprint.fullHex) := file.localKey_setLocal fingerprint
  have old : ∀ group ∈ (file.enlist fingerprint.fullHex record).groups, group ∈ file.groups :=
    fun group member => ((mem_setLocal sound).mp member).1
  rcases cases with ⟨kept, greater⟩ | ⟨kept, -⟩
  · rw [kept] at adopted
    cases adopted
    refine ⟨admitted.store valid ⟨_, own, named⟩ (le_max_right _ _), le_max_left _ _, ?_⟩
    intro group member
    rcases mem_store member with ⟨stays, _⟩ | rfl
    · exact .inl (old group stays)
    right
    intro held heldMember same
    have inside : held ∈ (file.enlist fingerprint.fullHex group).groups :=
      (mem_setLocal sound).mpr ⟨heldMember, same ▸ named⟩
    cases found : (file.enlist fingerprint.fullHex group).held group.memberKeys with
    | none =>
      have none_ := find?_eq_none.mp found held inside
      simp [same] at none_
    | some other =>
      obtain ⟨otherMember, otherKeys⟩ := held_eq_some found
      rw [admitted.eq_of_keys inside otherMember (same.trans otherKeys.symm)]
      exact greater other found
  · rw [kept] at adopted
    cases adopted
    exact ⟨admitted, le_max_left _ _, fun group member => .inl (old group member)⟩

/-! ## Local changes -/

omit [Format F] in
theorem saturatingSucc_eq (below : file.clock < u64Max) :
    saturatingSucc u64Max file.clock = file.clock + 1 := if_pos below

theorem touchActive_cases (file : SetupFile F) :
    file.touchActive = (file, false) ∨
      ∃ members touched, file.activeMembers = some members ∧ touched.Valid ∧
        touched.memberKeys = members ∧ touched.revision = saturatingSucc u64Max file.clock ∧
        file.touchActive =
          ({ file with
              groups := replaceFirst (fun group => group.memberKeys == members) touched file.groups
              clock := saturatingSucc u64Max file.clock }, true) := by
  unfold touchActive
  cases file.localName with
  | none => exact .inl rfl
  | some name =>
    cases file.activeMembers with
    | none => exact .inl rfl
    | some members =>
      cases made : (file.held members).bind fun held =>
          held.restamped (saturatingSucc u64Max file.clock) name with
      | none => exact .inl (by simp [made])
      | some touched =>
        right
        obtain ⟨held, found, stamped⟩ := bind_eq_some_iff.mp made
        obtain ⟨fingerprint, _, same, valid⟩ := restamped_eq_some.mp stamped
        refine ⟨members, touched, rfl, valid, ?_, by rw [same], by simp [made]⟩
        rw [same]
        exact (held_eq_some found).2

/-- Touching restamps a record in place. -/
theorem touchActive_keys (file : SetupFile F) :
    file.touchActive.1.groups.map memberKeys =
      file.groups.map memberKeys := by
  rcases file.touchActive_cases with idle | ⟨members, touched, _, _, keys, _, made⟩
  · rw [idle]
  · rw [made]
    exact map_replaceFirst fun group _ test => by rw [keys]; simpa using test

section
variable (sound : file.Sound)
include sound

theorem Sound.touchActive (below : file.clock < u64Max) : file.Advances file.touchActive.1 := by
  have sameKeys := file.touchActive_keys
  rcases file.touchActive_cases with idle | ⟨members, touched, active, valid, keys, revision, made⟩
  · rw [idle]
    exact sound.advances_of_same rfl rfl
  rw [saturatingSucc_eq below] at revision made
  rw [made] at sameKeys ⊢
  refine ⟨sound.regroup ?_ (sameKeys ▸ sound.sorted) (Nat.le_succ _) fun group member => ?_,
    Nat.le_succ _, fun group member => ?_⟩
  · have length := congrArg List.length sameKeys
    rw [length_map, length_map] at length
    exact length ▸ sound.fewGroups
  · rcases mem_of_mem_replaceFirst member with rfl | old
    · obtain ⟨_, key, here, _⟩ := activeMembers_eq_some.mp active
      exact .inr ⟨valid, ⟨key, here, keys ▸ (mem_activeMembers active).mpr (.inr here)⟩,
        le_of_eq revision⟩
    · exact .inl old
  · rcases mem_of_mem_replaceFirst member with rfl | old
    · exact .inr (by omega)
    · exact .inl old

theorem Sound.setActive {choice : Option CertificateFingerprint}
    (other : ∀ fingerprint ∈ choice, file.localKey ≠ some (fingerprintKey fingerprint.fullHex)) :
    file.Advances (file.setActive choice) := by
  cases choice with
  | none =>
    exact Sound.advances_of_same { sound with } rfl rfl
  | some fingerprint =>
    refine Sound.advances_of_same ?_ rfl rfl
    have one : 1 < maxGroupMembers := by decide
    refine { sound with fewEnabled := one, enabledSorted := pairwise_singleton _ _
                        peers := ?_, others := ?_ }
    · intro peer member
      exact ⟨fingerprint, mem_singleton.mp member⟩
    · intro peer member
      rw [mem_singleton.mp member]
      exact other fingerprint rfl

theorem Sound.choose (below : file.clock < u64Max)
    (other : file.localKey ≠ some (fingerprintKey fingerprint.fullHex)) :
    file.Advances (file.choose fingerprint) := by
  have chosen : file.Advances (file.setActive (some fingerprint)) :=
    sound.setActive fun _ same => by cases same; exact other
  unfold SetupFile.choose
  dsimp only
  split
  · exact chosen
  · have same : (file.setActive (some fingerprint)).groups = file.groups := rfl
    exact .of_same same rfl (chosen.sound.touchActive below)

theorem Sound.withoutPeer (key : Text) :
    Sound { file with enabled := file.enabled.filter fun peer => peer != key } :=
  { sound with
    fewEnabled := lt_of_le_of_lt (length_filter_le _ _) sound.fewEnabled
    enabledSorted := sound.enabledSorted.filter _
    peers := fun peer member => sound.peers peer (mem_filter.mp member).1
    others := fun peer member => sound.others peer (mem_filter.mp member).1 }

theorem Sound.withPeer (other : file.localKey ≠ some (fingerprintKey fingerprint.fullHex))
    (new : fingerprintKey fingerprint.fullHex ∉ file.enabled)
    (room : file.enabled.length + 1 < maxGroupMembers) :
    Sound { file with
      enabled := sortBy id (file.enabled ++ [fingerprintKey fingerprint.fullHex]) } := by
  have distinct : ((file.enabled ++ [fingerprintKey fingerprint.fullHex]).map id).Nodup := by
    rw [List.map_id, List.nodup_append]
    refine ⟨sound.enabledSorted.imp ne_of_lt, List.nodup_singleton _, ?_⟩
    intro first atFirst second atSecond same
    rw [mem_singleton.mp atSecond] at same
    exact new (same ▸ atFirst)
  have each : ∀ peer ∈ sortBy id (file.enabled ++ [fingerprintKey fingerprint.fullHex]),
      peer ∈ file.enabled ∨ peer = fingerprintKey fingerprint.fullHex := by
    intro peer member
    simpa using member
  refine { sound with fewEnabled := ?_, enabledSorted := sortBy_strict distinct
                      peers := ?_, others := ?_ }
  · show (sortBy id _).length < maxGroupMembers
    simpa using room
  · intro peer member
    rcases each peer member with old | rfl
    · exact sound.peers peer old
    · exact ⟨fingerprint, rfl⟩
  · intro peer member
    rcases each peer member with old | rfl
    · exact sound.others peer old
    · exact other

/-- Switching a computer on or off: the file as it was, a touched file, or the previous record
without that computer, kept as this computer's newest change. -/
theorem setEnabled_cases {enabled : Bool}
    (switched : file.setEnabled fingerprint enabled = .ok next) :
    next = file ∨
      ∃ base : SetupFile F, base.Sound ∧ base.groups = file.groups ∧ base.clock = file.clock ∧
        base.localKey = file.localKey ∧
        (next = base ∨ next = base.touchActive.1 ∨
          ∃ derived : GroupRecord F, derived.Valid ∧
            derived.revision = saturatingSucc u64Max file.clock ∧
            (∃ key, file.localKey = some key ∧ key ∈ derived.memberKeys) ∧
            next = { base with clock := saturatingSucc u64Max file.clock }.store derived) := by
  unfold SetupFile.setEnabled at switched
  dsimp only at switched
  split at switched
  · cases switched
  next other =>
  split at switched
  · cases switched
    exact .inl rfl
  right
  split at switched
  · -- Switching on.
    split at switched
    · cases switched
    next room =>
    cases switched
    by_cases was : fingerprintKey fingerprint.fullHex ∈ file.enabled
    · refine ⟨{ file with paused := false }, { sound with }, rfl, rfl, rfl, .inr (.inl ?_)⟩
      simp [was]
    refine ⟨{ file with
        enabled := sortBy id (file.enabled ++ [fingerprintKey fingerprint.fullHex])
        paused := false }, ?_, rfl, rfl, rfl, .inr (.inl ?_)⟩
    · have free : file.enabled.length + 1 < maxGroupMembers := by
        simpa [was] using room
      exact { sound.withPeer other was free with }
    · simp [was]
  · -- Switching off.
    refine ⟨_, sound.withoutPeer (fingerprintKey fingerprint.fullHex), rfl, rfl, rfl, ?_⟩
    split at switched
    · cases switched
      exact .inl rfl
    split at switched
    · cases switched
      exact .inr (.inl rfl)
    split at switched
    · next previous name _ here =>
      split at switched
      · next derived made =>
        cases switched
        obtain ⟨valid, revision, author, _⟩ := withoutMember_eq_some made
        refine .inr (.inr ⟨derived, valid, revision, ⟨fingerprintKey name, ?_, ?_⟩, rfl⟩)
        · exact congrArg (Option.map fingerprintKey) here
        · exact author ▸ valid.author_mem
      · cases switched
        exact .inl rfl
    · cases switched
      exact .inl rfl

theorem Sound.setEnabled (below : file.clock < u64Max) {enabled : Bool}
    (switched : file.setEnabled fingerprint enabled = .ok next) : file.Advances next := by
  rcases setEnabled_cases sound switched with rfl | ⟨base, whole, groups, clock, own, outcome⟩
  · exact sound.advances_of_same rfl rfl
  rcases outcome with rfl | rfl | ⟨derived, valid, revision, named, rfl⟩
  · exact whole.advances_of_same groups clock
  · exact .of_same groups clock (whole.touchActive (clock ▸ below))
  rw [saturatingSucc_eq below] at revision ⊢
  have later : Sound { base with clock := file.clock + 1 } :=
    { whole with revisions := fun group member =>
        Nat.le_succ_of_le (clock ▸ whole.revisions group member) }
  refine ⟨later.store valid (own ▸ named) (le_of_eq revision), Nat.le_succ _, ?_⟩
  intro group member
  rcases mem_store member with ⟨old, _⟩ | rfl
  · exact .inl (groups ▸ old)
  · exact .inr (by omega)

end

/-! ## Forgetting a computer -/

section Derive
variable {key name : Text} {revision : Nat}

/-- The records kept stay in front, each member set once; each other record is a local change at
the revision given. -/
theorem derive_spec {kept naming derived : List (GroupRecord F)}
    (made : derive key revision name kept naming = derived)
    (distinct : (kept.map memberKeys).Nodup) :
    kept <+: derived ∧ derived.length ≤ kept.length + naming.length ∧
      (derived.map memberKeys).Nodup ∧
      ∀ group ∈ derived, group ∈ kept ∨ group.Valid ∧ group.revision = revision ∧
        fingerprintKey name ∈ group.memberKeys := by
  induction naming generalizing kept with
  | nil =>
    cases made
    exact ⟨prefix_rfl, le_rfl, distinct, fun group => .inl⟩
  | cons first rest ih =>
    have skip (same : derive key revision name kept rest = derived) := ih same distinct
    unfold derive at made
    split at made
    · exact ⟨(skip made).1, Nat.le_succ_of_le (skip made).2.1, (skip made).2.2⟩
    next last without =>
    split at made
    · exact ⟨(skip made).1, Nat.le_succ_of_le (skip made).2.1, (skip made).2.2⟩
    next unheld =>
    obtain ⟨front, few, apart, each⟩ := ih made <| by
      rw [map_append, nodup_append]
      refine ⟨distinct, nodup_singleton _, ?_⟩
      intro first atFirst second atSecond same
      obtain ⟨held, member, rfl⟩ := mem_map.mp atFirst
      rw [map_singleton, mem_singleton] at atSecond
      exact unheld (any_eq_true.mpr ⟨held, member, by simp [same, atSecond]⟩)
    rw [length_append, add_assoc, add_comm _ rest.length] at few
    refine ⟨(prefix_append _ _).trans front, few, apart, fun group member => ?_⟩
    rcases each group member with old | new
    · rcases mem_append.mp old with stays | added
      · exact .inl stays
      · obtain ⟨valid, stamped, author, _⟩ := withoutMember_eq_some without
        cases mem_singleton.mp added
        exact .inr ⟨valid, stamped, author ▸ valid.author_mem⟩
    · exact .inr new

/-- The groups without a computer: those that do not name it stay, but for the active one, and
each other is a local change. -/
theorem withoutComputer_spec {active : Option (List Text)} {groups result : List (GroupRecord F)}
    {touched : Bool} (distinct : (groups.map memberKeys).Nodup)
    (done : withoutComputer key revision name active groups = (result, touched)) :
    result.length ≤ groups.length ∧ (result.map memberKeys).Pairwise (· < ·) ∧
      (∀ group ∈ groups, group.hasMember key = false →
        group.memberKeys ∈ result.map memberKeys) ∧
      (touched = false → ∀ group ∈ result, group ∈ groups) ∧
      ∀ group ∈ result, group ∈ groups ∨ group.Valid ∧ group.revision = revision ∧
        fingerprintKey name ∈ group.memberKeys := by
  unfold withoutComputer at done
  rw [partition_eq_filter_filter] at done
  dsimp only at done
  have whole : (groups.filter fun group => group.hasMember key).length +
      (groups.filter (not ∘ fun group => group.hasMember key)).length = groups.length :=
    (length_eq_length_filter_add _).symm
  generalize made : derive (F := F) key revision name _ _ = derived at done
  obtain ⟨front, few, apart, each⟩ :=
    derive_spec made (distinct.sublist (filter_sublist.map _))
  have stay : ∀ group ∈ groups, group.hasMember key = false → group ∈ derived :=
    fun group member absent => front.subset (mem_filter.mpr ⟨member, by simp [absent]⟩)
  have old : ∀ group ∈ derived, group ∈ groups ∨ group.Valid ∧ group.revision = revision ∧
      fingerprintKey name ∈ group.memberKeys :=
    fun group member => (each group member).imp_left fun kept => (mem_filter.mp kept).1
  split at done
  · next record made =>
    obtain ⟨held, found, stamped⟩ := bind_eq_some_iff.mp made
    obtain ⟨author, read, same, valid⟩ := restamped_eq_some.mp stamped
    have keys : (replaceFirst (fun group => some group.memberKeys == active) record derived).map
        memberKeys = derived.map memberKeys := by
      have isActive : some held.memberKeys = active := by simpa using find?_some found
      refine map_replaceFirst fun group _ test => ?_
      have equal : some group.memberKeys = some held.memberKeys := by
        rw [isActive]
        simpa using test
      rw [same]
      exact some.inj equal
    have length := congrArg List.length keys
    rw [length_map, length_map] at length
    cases done
    refine ⟨by rw [length_sortBy]; omega, pairwise_map.mpr (sortBy_strict (keys ▸ apart)), ?_,
      nofun, ?_⟩
    · intro group member absent
      rw [((sortBy_perm _ _).map memberKeys).mem_iff, keys]
      exact mem_map_of_mem (stay group member absent)
    intro group member
    rcases mem_of_mem_replaceFirst (mem_sortBy.mp member) with rfl | inside
    · refine .inr ⟨valid, by rw [same], ?_⟩
      have named := valid.author_mem
      rw [same] at named ⊢
      rwa [← fingerprintKey_of_parseFull read] at named
    · exact old group inside
  · cases done
    refine ⟨by rw [length_sortBy]; omega, pairwise_map.mpr (sortBy_strict apart), ?_, ?_, ?_⟩
    · intro group member absent
      exact mem_map_of_mem (mem_sortBy.mpr (stay group member absent))
    · intro unchanged group member
      -- Nothing was pushed, so only the records kept are there.
      have length : derived.length =
          (groups.filter (not ∘ fun group => group.hasMember key)).length := by
        simpa using unchanged
      have all : derived = groups.filter (not ∘ fun group => group.hasMember key) :=
        (front.eq_of_length length.symm).symm
      rw [mem_sortBy, all] at member
      exact (mem_filter.mp member).1
    · exact fun group member => old group (mem_sortBy.mp member)

end Derive

/-- Forgetting a computer: there were no records, or the groups give way to those without it. -/
theorem forget_cases (sound : file.Sound) (fingerprint : Text) :
    (file.groups = [] ∧ file.forget fingerprint =
      { file with enabled := file.enabled.filter fun peer => peer != fingerprintKey fingerprint }) ∨
      ∃ (name : Text) (active : Option (List Text)) (groups : List (GroupRecord F)) (touched : Bool),
        file.localKey = some (fingerprintKey name) ∧
        withoutComputer (fingerprintKey fingerprint) (saturatingSucc u64Max file.clock) name active
          file.groups = (groups, touched) ∧
        file.forget fingerprint =
          { file with
            enabled := file.enabled.filter fun peer => peer != fingerprintKey fingerprint
            groups, clock := if touched then saturatingSucc u64Max file.clock else file.clock } := by
  unfold forget
  dsimp only
  split
  · next here =>
    left
    refine ⟨eq_nil_iff_forall_not_mem.mpr fun group member => ?_, rfl⟩
    obtain ⟨key, own, _⟩ := sound.ours group member
    simp [localKey, here] at own
  · next name here =>
    right
    generalize made : withoutComputer _ _ _ _ file.groups = outcome
    obtain ⟨groups, touched⟩ := outcome
    exact ⟨name, _, groups, touched, congrArg (Option.map fingerprintKey) here, made, rfl⟩

theorem Sound.forget (sound : file.Sound) (below : file.clock < u64Max) (fingerprint : Text) :
    file.Advances (file.forget fingerprint) := by
  have base := sound.withoutPeer (fingerprintKey fingerprint)
  rcases forget_cases sound fingerprint with ⟨_, done⟩ | ⟨name, active, groups, touched, own, made, done⟩
  · rw [done]
    exact base.advances_of_same rfl rfl
  rw [saturatingSucc_eq below] at made done
  obtain ⟨few, sorted, _, unchanged, each⟩ := withoutComputer_spec sound.distinct made
  have later : file.clock ≤ if touched then file.clock + 1 else file.clock := by
    split <;> omega
  rw [done]
  refine ⟨base.regroup (le_trans few sound.fewGroups) sorted later fun group member => ?_, later,
    fun group member => ?_⟩
  · cases touched with
    | false => exact .inl (unchanged rfl group member)
    | true =>
      exact (each group member).imp_right fun ⟨valid, stamped, named⟩ =>
        ⟨valid, ⟨_, own, named⟩, le_of_eq stamped⟩
  · rcases each group member with old | ⟨_, stamped, _⟩
    · exact .inl old
    · exact .inr (by omega)

/-! ## The active group's record stays -/

omit [Format F] in
theorem holds_iff : file.Holds members ↔ members ∈ file.groups.map memberKeys :=
  mem_map.symm

/-- A record the file held for the group enabled now is still there. -/
def KeepsActive (file next : SetupFile F) : Prop :=
  ∀ members, next.activeMembers = some members → file.Holds members → next.Holds members

omit [Format F] in
theorem keepsActive_of_keys
    (keys : next.groups.map memberKeys = file.groups.map memberKeys) :
    file.KeepsActive next := by
  intro members _ held
  rw [holds_iff] at held ⊢
  rwa [keys]

theorem adopt_keepsActive (sound : file.Sound) {name : Text} {newer : Bool}
    (adopted : file.adopt name record = .ok (next, newer)) : file.KeepsActive next := by
  rcases file.adopt_cases with failed | ⟨fingerprint, _, valid, named, cases⟩
  · rw [failed] at adopted
    cases adopted
  intro members active held
  have enabled := @activeMembers_enlist F _ file record fingerprint valid named
  -- The group enabled now is the record's own, so its records name this computer.
  have stays (same : record.memberKeys = members) :
      (file.enlist fingerprint.fullHex record).Holds members := by
    obtain ⟨group, member, keys⟩ := held
    exact ⟨group, (mem_setLocal sound).mpr ⟨member, keys ▸ same ▸ named⟩, keys⟩
  rcases cases with ⟨kept, -⟩ | ⟨kept, -⟩
  · rw [kept] at adopted
    cases adopted
    have same : record.memberKeys = members := some.inj (enabled.symm.trans active)
    exact holds_store (enabled.trans (congrArg some same)) (.inr same)
  · rw [kept] at adopted
    cases adopted
    exact stays (some.inj (enabled.symm.trans active))

theorem setEnabled_keepsActive (sound : file.Sound)
    {enabled : Bool} (switched : file.setEnabled fingerprint enabled = .ok next) :
    file.KeepsActive next := by
  rcases setEnabled_cases sound switched with rfl | ⟨base, _, groups, _, _, outcome⟩
  · exact keepsActive_of_keys rfl
  rcases outcome with rfl | rfl | ⟨derived, _, _, _, rfl⟩
  · exact keepsActive_of_keys (by rw [groups])
  · exact keepsActive_of_keys (by rw [touchActive_keys, groups])
  · intro members active held
    refine holds_store active (.inl ?_)
    exact groups ▸ held

/-- Forgetting a computer keeps a record for every group that does not name it. -/
theorem forget_holds (sound : file.Sound) {fingerprint : Text}
    (member : group ∈ file.groups) (absent : fingerprintKey fingerprint ∉ group.memberKeys) :
    (file.forget fingerprint).Holds group.memberKeys := by
  rcases forget_cases sound fingerprint with ⟨empty, _⟩ | ⟨name, active, groups, touched, _, made, done⟩
  · rw [empty] at member
    cases member
  obtain ⟨_, _, stay, _⟩ := withoutComputer_spec sound.distinct made
  rw [done, holds_iff]
  apply stay group member
  rw [← Bool.not_eq_true, hasMember_iff, fingerprintKey_fingerprintKey]
  exact absent

/-! ## Saving -/

theorem size_jsonNat_le {value : Nat} (wide : value ≤ u64Max) : (jsonNat value).size ≤ 20 := by
  have ascii : ∀ char ∈ Nat.toDigits 10 value, char.toNat < 128 := by
    intro char member
    have digit : char.isDigit = true := Nat.isDigit_of_mem_toDigits (by decide) (by decide) member
    simp only [Char.isDigit, Bool.and_eq_true, decide_eq_true_eq, ge_iff_le,
      UInt32.le_iff_toNat_le] at digit
    exact lt_of_le_of_lt digit.2 (by decide)
  show textSize (Nat.toDigits 10 value) ≤ 20
  rw [textSize_ascii ascii, Nat.length_toDigits_le_iff (by decide) (by decide)]
  exact lt_of_le_of_lt wide (by decide)

/-- A fingerprint in either case is 64 plain characters. -/
theorem size_fingerprint :
    (Json.string fingerprint.fullHex).size = 66 ∧
      (Json.string (fingerprintKey fingerprint.fullHex)).size = 66 := by
  have all : ∀ digit : Fin 16, Json.escape (upperHex digit.val) = [upperHex digit.val] ∧
      Json.escape (upperHex digit.val).toLower = [(upperHex digit.val).toLower] ∧
      (upperHex digit.val).toNat < 128 ∧ (upperHex digit.val).toLower.toNat < 128 := by decide
  have each (nibble : Nat) (member : nibble ∈ fingerprint.nibbles) :=
    all ⟨nibble, fingerprint.nibbles_lt nibble member⟩
  have plain {spell : Nat → Char}
      (spelled : ∀ nibble ∈ fingerprint.nibbles, Json.escape (spell nibble) = [spell nibble] ∧
        (spell nibble).toNat < 128) : (Json.string (fingerprint.nibbles.map spell)).size = 66 := by
    rw [Json.size_string_plain, textSize_ascii, length_map, fingerprint.length_nibbles]
    · intro char member
      obtain ⟨nibble, at_, rfl⟩ := mem_map.mp member
      exact (spelled nibble at_).2
    · intro char member
      obtain ⟨nibble, at_, rfl⟩ := mem_map.mp member
      exact (spelled nibble at_).1
  constructor
  · exact plain fun nibble member => ⟨(each nibble member).1, (each nibble member).2.2.1⟩
  · rw [fingerprintKey, fullHex, List.map_map]
    exact plain fun nibble member => ⟨(each nibble member).2.1, (each nibble member).2.2.2⟩

theorem size_optional_le {text : Option Text} {key : String} {first bound : Nat}
    (named : (Json.string key.toList).size = first)
    (short : ∀ value, text = some value → (Json.string value).size ≤ bound) :
    ((text.map fun value => field key (.string value)).toList.map
      fun field => (Json.string field.1).size + field.2.size + 2).sum ≤ first + bound + 2 := by
  cases text with
  | none => simp
  | some value =>
    have size := short value rfl
    simp only [map_some, toList_some, map_cons, map_nil, sum_cons, sum_nil, field, named]
    omega

/-- A valid file is never too large to save: sixteen records leave room for the rest. -/
theorem Sound.json_size_le (sound : file.Sound) (wide : file.clock ≤ u64Max) :
    file.json.size ≤ maxSetupFileBytes := by
  have version : (jsonNat file.version).size ≤ 1 := by
    rw [sound.version]
    decide
  have network : ((file.interfaceId.map fun id => field "interfaceId" (.string id)).toList.map
      fun field => (Json.string field.1).size + field.2.size + 2).sum ≤ 13 + 3074 + 2 := by
    refine size_optional_le (by decide) fun id chosen => ?_
    have text := Json.size_string_le id
    have short := (sound.network id chosen).2
    unfold maxInterfaceIdBytes at short
    omega
  have name : ((file.localName.map fun name => field "local" (.string name)).toList.map
      fun field => (Json.string field.1).size + field.2.size + 2).sum ≤ 7 + 66 + 2 := by
    refine size_optional_le (by decide) fun name here => ?_
    obtain ⟨fingerprint, rfl⟩ := sound.named name here
    exact le_of_eq size_fingerprint.1
  have enabled : (Json.array (file.enabled.map .string)).size ≤ 7 * (66 + 1) + 2 := by
    refine Json.size_array_le_of_le ?_ ?_
    · rw [length_map]
      exact Nat.le_of_lt_succ sound.fewEnabled
    · intro item member
      obtain ⟨peer, at_, rfl⟩ := mem_map.mp member
      obtain ⟨fingerprint, rfl⟩ := sound.peers peer at_
      exact le_of_eq size_fingerprint.2
  have paused : (Json.bool file.paused).size ≤ 5 := by
    cases file.paused <;> decide
  have clock := size_jsonNat_le wide
  have groups : (Json.array (file.groups.map (·.json))).size ≤ 16 * (maxRecordBytes + 1) + 2 := by
    refine Json.size_array_le_of_le ?_ ?_
    · rw [length_map]
      exact sound.fewGroups
    · intro item member
      obtain ⟨group, at_, rfl⟩ := mem_map.mp member
      exact (valid_iff.mp (sound.valid group at_)).fits
  have keys : (Json.string "version".toList).size = 9 ∧ (Json.string "enabled".toList).size = 9 ∧
      (Json.string "paused".toList).size = 8 ∧ (Json.string "clock".toList).size = 7 ∧
      (Json.string "groups".toList).size = 8 := by decide
  refine le_trans Json.size_object_le ?_
  simp only [map_append, sum_append, map_cons, map_nil, sum_cons, sum_nil] at network name ⊢
  simp only [field, keys] at network name ⊢
  unfold maxSetupFileBytes
  have record : maxRecordBytes = 32512 := rfl
  omega

/-- A save of a valid file is never refused as invalid. -/
theorem Sound.save_ne (sound : file.Sound) (wide : file.clock ≤ u64Max) :
    file.save ≠ .error .invalidData := by
  have passed : file.validate.isOk = true := by
    rw [validate_eq_ok.mpr sound]
    rfl
  have fits := sound.json_size_le wide
  unfold save
  cases file.newer <;> simp [ensure, passed, fits, bind, Except.bind, pure, Except.pure]

end SetupFile
end Monhop.Setup
