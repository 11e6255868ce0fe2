import Monhop.Setup.FileSafety

/-! # Runs of the setup file

A run is a sequence of changes, each made here or brought by a record adopted.  Beside the
file a run keeps every revision held or observed so far, so that what a change stamps can be
compared with all of them.

* `setup_file_runs` — along every run the file stays valid, no record is replaced by an older
  one, and what is stamped here is newer than anything seen before.
-/

namespace Monhop.Setup

open Monhop.Core Library Protocol List
variable {F : Type} [Format F]

inductive Change (F : Type) where
  | adopt (name : Text) (record : GroupRecord F)
  | choose (fingerprint : CertificateFingerprint)
  | setActive (choice : Option CertificateFingerprint)
  | setEnabled (fingerprint : CertificateFingerprint) (enabled : Bool)
  | resume
  | touchActive
  | observeClock (seen : Nat)
  | forget (fingerprint : Text)

namespace SetupFile

/-- A change that fails leaves the file as it was. -/
def apply (file : SetupFile F) : Change F → SetupFile F
  | .adopt name record =>
    match file.adopt name record with
    | .ok (next, _) => next
    | .error _ => file
  | .choose fingerprint => file.choose fingerprint
  | .setActive choice => file.setActive choice
  | .setEnabled fingerprint enabled =>
    match file.setEnabled fingerprint enabled with
    | .ok next => next
    | .error _ => file
  | .resume => file.resume
  | .touchActive => file.touchActive.1
  | .observeClock seen => file.observeClock seen
  | .forget fingerprint => file.forget fingerprint

end SetupFile

namespace Change

/-- The revisions a change brings from elsewhere. -/
def observed (file : SetupFile F) : Change F → List Nat
  | .adopt name record =>
    match file.adopt name record with
    | .ok _ => [record.revision]
    | .error _ => []
  | .observeClock seen => [seen]
  | _ => []

/-- Made here, and not a record taken over. -/
def isLocal : Change F → Bool
  | .adopt _ _ => false
  | _ => true

/-- Revisions are 64-bit numbers, and the computer chosen is another one. -/
def Allowed (file : SetupFile F) : Change F → Prop
  | .adopt _ record => record.revision ≤ u64Max
  | .choose fingerprint => file.localKey ≠ some (fingerprintKey fingerprint.fullHex)
  | .setActive choice =>
    ∀ fingerprint ∈ choice, file.localKey ≠ some (fingerprintKey fingerprint.fullHex)
  | .observeClock seen => seen ≤ u64Max
  | _ => True

/-- The records a change has to keep a successor of: those of the group it leaves enabled, and,
when it forgets a computer, those that do not name it. -/
def Keeps (next : SetupFile F) (group : GroupRecord F) : Change F → Prop
  | .forget fingerprint => fingerprintKey fingerprint ∉ group.memberKeys
  | _ => next.activeMembers = some group.memberKeys

end Change

/-- A file and every revision it held or observed. -/
structure History (F : Type) where
  file : SetupFile F
  seen : List Nat

def History.after (history : History F) (change : Change F) : History F where
  file := history.file.apply change
  seen := history.seen ++ change.observed history.file ++
    (history.file.apply change).groups.map (·.revision)

/-- The runs of a valid file whose clock stays below its maximum before each change. -/
def setupRuns (F : Type) [Format F] : Lts (History F) (Change F) where
  init history :=
    history.file.validate = .ok () ∧ history.file.clock ≤ u64Max ∧
      history.seen = history.file.groups.map (·.revision)
  step history change next :=
    history.file.clock < u64Max ∧ change.Allowed history.file ∧ next = history.after change

/-! ## One change -/

namespace SetupFile

variable {file : SetupFile F} {change : Change F}

theorem Sound.apply_local (sound : file.Sound) (below : file.clock < u64Max)
    (allowed : change.Allowed file) (here : change.isLocal = true) :
    file.Advances (file.apply change) := by
  cases change with
  | adopt name record => cases here
  | choose fingerprint => exact sound.choose below allowed
  | setActive choice => exact sound.setActive allowed
  | setEnabled fingerprint enabled =>
    cases switched : file.setEnabled fingerprint enabled with
    | error _ =>
      rw [apply, switched]
      exact sound.advances_of_same rfl rfl
    | ok next =>
      rw [apply, switched]
      exact sound.setEnabled below switched
  | resume => exact Sound.advances_of_same { sound with } rfl rfl
  | touchActive => exact sound.touchActive below
  | observeClock seen =>
    refine ⟨{ sound with revisions := ?_ }, le_max_left _ _, fun _ member => .inl member⟩
    exact fun group member => le_trans (sound.revisions group member) (le_max_left _ _)
  | forget fingerprint => exact sound.forget below fingerprint

theorem Sound.apply (sound : file.Sound) (below : file.clock < u64Max)
    (allowed : change.Allowed file) : file.Evolves (file.apply change) := by
  cases here : change.isLocal with
  | true => exact (sound.apply_local below allowed here).evolves sound
  | false =>
    cases change with
    | adopt name record =>
      cases adopted : file.adopt name record with
      | error _ =>
        rw [SetupFile.apply, adopted]
        exact (sound.advances_of_same rfl rfl).evolves sound
      | ok outcome =>
        rw [SetupFile.apply, adopted]
        exact sound.adopt name record adopted
    | _ => cases here

theorem touchActive_clock : file.touchActive.1.clock = file.clock ∨
    file.touchActive.1.clock = saturatingSucc u64Max file.clock := by
  rcases file.touchActive_cases with idle | ⟨_, _, _, _, _, _, made⟩
  · exact .inl (by rw [idle])
  · exact .inr (by rw [made])

theorem Sound.setEnabled_clock (sound : file.Sound) {fingerprint : CertificateFingerprint}
    {enabled : Bool} {next : SetupFile F}
    (switched : file.setEnabled fingerprint enabled = .ok next) :
    next.clock = file.clock ∨ next.clock = saturatingSucc u64Max file.clock := by
  rcases setEnabled_cases sound switched with rfl | ⟨base, _, _, clock, _, outcome⟩
  · exact .inl rfl
  rcases outcome with rfl | rfl | ⟨derived, _, _, _, rfl⟩
  · exact .inl clock
  · exact clock ▸ touchActive_clock
  · exact .inr rfl

/-- A change leaves the clock or counts on, or takes over the revision it brings. -/
theorem Sound.apply_clock (sound : file.Sound) (change : Change F) :
    (change.observed file = [] ∧ ((file.apply change).clock = file.clock ∨
        (file.apply change).clock = saturatingSucc u64Max file.clock)) ∨
      ∃ seen, change.observed file = [seen] ∧ (change.Allowed file → seen ≤ u64Max) ∧
        (file.apply change).clock = max file.clock seen := by
  cases change with
  | adopt name record =>
    rcases file.adopt_cases with failed | ⟨fingerprint, _, _, _, kept⟩
    · exact .inl ⟨by rw [Change.observed, failed], .inl (by rw [SetupFile.apply, failed])⟩
    · rcases kept with ⟨kept, -⟩ | ⟨kept, -⟩ <;>
        exact .inr ⟨record.revision, by rw [Change.observed, kept], id,
          by rw [SetupFile.apply, kept]; rfl⟩
  | choose fingerprint =>
    refine .inl ⟨rfl, ?_⟩
    show (file.choose fingerprint).clock = _ ∨ (file.choose fingerprint).clock = _
    unfold SetupFile.choose
    dsimp only
    split
    · exact .inl rfl
    · exact touchActive_clock
  | setActive choice => exact .inl ⟨rfl, .inl (by cases choice <;> rfl)⟩
  | setEnabled fingerprint enabled =>
    refine .inl ⟨rfl, ?_⟩
    cases switched : file.setEnabled fingerprint enabled with
    | error _ => exact .inl (by rw [SetupFile.apply, switched])
    | ok next =>
      rw [SetupFile.apply, switched]
      exact sound.setEnabled_clock switched
  | resume => exact .inl ⟨rfl, .inl rfl⟩
  | touchActive => exact .inl ⟨rfl, touchActive_clock⟩
  | observeClock seen => exact .inr ⟨seen, rfl, id, rfl⟩
  | forget fingerprint =>
    refine .inl ⟨rfl, ?_⟩
    show (file.forget fingerprint).clock = _ ∨ (file.forget fingerprint).clock = _
    rcases forget_cases sound fingerprint with ⟨_, done⟩ | ⟨_, _, _, touched, _, _, done⟩
    · exact .inl (by rw [done])
    · rw [done]
      cases touched
      · exact .inl rfl
      · exact .inr rfl

theorem Sound.observed_le_clock (sound : file.Sound) (change : Change F) :
    ∀ seen ∈ change.observed file, seen ≤ (file.apply change).clock := by
  rcases sound.apply_clock change with ⟨none, _⟩ | ⟨brought, only, _, clock⟩
  · rw [none]
    nofun
  · rw [only, clock]
    exact forall_mem_singleton.mpr (le_max_right _ _)

theorem Sound.apply_clock_le (sound : file.Sound) (below : file.clock < u64Max)
    (allowed : change.Allowed file) : (file.apply change).clock ≤ u64Max := by
  have same := le_of_lt below
  rcases sound.apply_clock change with ⟨_, stays | ticks⟩ | ⟨seen, _, wide, clock⟩
  · exact stays ▸ same
  · rw [ticks, saturatingSucc, if_pos below]
    exact below
  · exact clock ▸ Nat.max_le.mpr ⟨same, wide allowed⟩

theorem Sound.apply_keeps (sound : file.Sound) {group : GroupRecord F} (member : group ∈ file.groups)
    (kept : change.Keeps (file.apply change) group) :
    (file.apply change).Holds group.memberKeys := by
  have held : file.Holds group.memberKeys := ⟨group, member, rfl⟩
  cases change with
  | adopt name record =>
    cases adopted : file.adopt name record with
    | error _ =>
      rw [SetupFile.apply, adopted]
      exact held
    | ok outcome =>
      simp only [Change.Keeps, SetupFile.apply, adopted] at kept ⊢
      exact adopt_keepsActive sound adopted _ kept held
  | choose fingerprint =>
    show (file.choose fingerprint).Holds group.memberKeys
    unfold SetupFile.choose
    dsimp only
    split
    · exact held
    · rw [holds_iff, touchActive_keys]
      exact holds_iff.mp held
  | setActive choice => cases choice <;> exact held
  | setEnabled fingerprint enabled =>
    cases switched : file.setEnabled fingerprint enabled with
    | error _ =>
      rw [SetupFile.apply, switched]
      exact held
    | ok next =>
      simp only [Change.Keeps, SetupFile.apply, switched] at kept ⊢
      exact setEnabled_keepsActive sound switched _ kept held
  | resume => exact held
  | touchActive =>
    show file.touchActive.1.Holds group.memberKeys
    rw [holds_iff, touchActive_keys]
    exact holds_iff.mp held
  | observeClock seen => exact held
  | forget fingerprint => exact forget_holds sound member kept

end SetupFile

/-! ## Whole runs -/

theorem History.reachable_sound {history : History F} (reachable : (setupRuns F).Reachable history) :
    history.file.Sound ∧ history.file.clock ≤ u64Max ∧
      ∀ seen ∈ history.seen, seen ≤ history.file.clock := by
  refine reachable.invariant
    (fun history => history.file.Sound ∧ history.file.clock ≤ u64Max ∧
      ∀ seen ∈ history.seen, seen ≤ history.file.clock) ?_ ?_
  · rintro history ⟨valid, wide, seen⟩
    have sound := SetupFile.validate_eq_ok.mp valid
    refine ⟨sound, wide, fun revision member => ?_⟩
    rw [seen] at member
    obtain ⟨group, at_, rfl⟩ := mem_map.mp member
    exact sound.revisions group at_
  · rintro history change _ ⟨sound, _, seen⟩ ⟨below, allowed, rfl⟩
    have evolves := sound.apply below allowed
    refine ⟨evolves.sound, sound.apply_clock_le below allowed, fun revision member => ?_⟩
    rw [History.after, mem_append, mem_append] at member
    rcases member with (old | new) | held
    · exact le_trans (seen revision old) evolves.clock
    · exact sound.observed_le_clock change revision new
    · obtain ⟨group, at_, rfl⟩ := mem_map.mp held
      exact evolves.sound.revisions group at_

/-- Along every run of a valid file: the file passes its own validation and a save is never
refused as invalid; it keeps at most `maxGroups` records, and the record of the enabled group is
not one that is dropped; a record is only replaced by one with a stamp at least as great; the
clock does not go back; and a record stamped here is newer than every revision held or observed
before. -/
theorem setup_file_runs {history : History F} (reachable : (setupRuns F).Reachable history) :
    history.file.validate = .ok () ∧ history.file.save ≠ .error .invalidData ∧
      history.file.groups.length ≤ maxGroups ∧
      ∀ change next, (setupRuns F).step history change next →
        history.file.clock ≤ next.file.clock ∧
        (∀ group ∈ history.file.groups, change.Keeps next.file group →
          next.file.Holds group.memberKeys) ∧
        (∀ held ∈ history.file.groups, ∀ group ∈ next.file.groups,
          group.memberKeys = held.memberKeys → held.stamp ≤ group.stamp) ∧
        (change.isLocal = true → ∀ group ∈ next.file.groups, group ∉ history.file.groups →
          ∀ seen ∈ history.seen, seen < group.revision) := by
  obtain ⟨sound, wide, seen⟩ := History.reachable_sound reachable
  refine ⟨SetupFile.validate_eq_ok.mpr sound, sound.save_ne wide, sound.fewGroups, ?_⟩
  rintro change _ ⟨below, allowed, rfl⟩
  have evolves := sound.apply below allowed
  refine ⟨evolves.clock, fun group member kept => sound.apply_keeps member kept,
    fun held heldMember group member same => evolves.stamp_le sound heldMember member same, ?_⟩
  intro here group member new revision old
  have advances := sound.apply_local below allowed here
  exact lt_of_le_of_lt (seen revision old) ((advances.records group member).resolve_left new)

namespace RecordRun

def fresh : History Int where
  file := SetupFile.default
  seen := []

/-- The first computer adopts the pair's record. -/
def adopted : History Int := fresh.after (.adopt (computer 10).fullHex (pair 1))

theorem adopted_reachable : (setupRuns Int).Reachable adopted := by
  have start : (setupRuns Int).init fresh := ⟨by decide +kernel, by decide +kernel, rfl⟩
  have narrow : (pair 1).revision ≤ u64Max := by decide +kernel
  have step : (setupRuns Int).step fresh (.adopt (computer 10).fullHex (pair 1)) adopted :=
    ⟨by decide +kernel, narrow, rfl⟩
  exact ⟨fresh, _, start, .single step⟩

/-- The pair's record is held, and touching it stamps a newer one. -/
theorem setup_file_runs_pair :
    adopted.file.groups.length = 1 ∧ adopted.file.validate = .ok () ∧
      ∀ group ∈ (adopted.after .touchActive).file.groups, group ∉ adopted.file.groups →
        1 < group.revision := by
  obtain ⟨valid, _, _, steps⟩ := setup_file_runs adopted_reachable
  refine ⟨by decide +kernel, valid, fun group member new => ?_⟩
  have step : (setupRuns Int).step adopted .touchActive (adopted.after .touchActive) :=
    ⟨by decide +kernel, trivial, rfl⟩
  exact (steps _ _ step).2.2.2 rfl group member new 1 (by decide +kernel)

end RecordRun
end Monhop.Setup
