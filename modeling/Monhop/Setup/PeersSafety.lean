import Monhop.Setup.Peers

/-! # A peer cannot override the user's choice

Whatever peers propose and whenever their proposals are committed, the computers the user
switched on stay on, the pause stays, records only get newer, and the clock moves by at most one
step a message.

* `commitFile_eq_some` — what a commit that writes has checked, and what it wrote.
* `Desk.reachable_sound` — what is staged, whatever was interleaved with it.
* `peer_cannot_override` — the statement over all runs.
-/

namespace Monhop.Setup

open Monhop.Core Library Protocol List Option SetupFile CertificateFingerprint Desk GroupRecord
variable {F : Type} [Format F]
variable {action : Action F} {disk : Bool} {here peer : CertificateFingerprint}
  {record : GroupRecord F} {seen : Nat} {next file : SetupFile F}

/-! ## The clock of a file only goes up -/

namespace SetupFile

variable {file : SetupFile F}

theorem le_saturatingSucc {clock : Nat} : clock ≤ saturatingSucc u64Max clock := by
  unfold saturatingSucc
  split <;> omega

theorem clock_le_setEnabled {fingerprint : CertificateFingerprint} {enabled : Bool}
    (sound : file.Sound) (switched : file.setEnabled fingerprint enabled = .ok next) :
    file.clock ≤ next.clock := by
  rcases sound.setEnabled_clock switched with same | ticks
  · exact same.ge
  · exact ticks ▸ le_saturatingSucc

theorem clock_le_apply (sound : file.Sound) (change : Change F) :
    file.clock ≤ (file.apply change).clock := by
  rcases sound.apply_clock change with ⟨_, same | ticks⟩ | ⟨_, _, _, clock⟩
  · exact same.ge
  · exact ticks ▸ le_saturatingSucc
  · exact clock ▸ le_max_left _ _

theorem Sound.observeClock (sound : file.Sound) (seen : Nat) : (file.observeClock seen).Sound :=
  { sound with
    revisions := fun group member =>
      le_trans (sound.revisions group member) (le_max_left _ _) }

end SetupFile

/-! ## What a proposal was checked for -/

theorem sharedGroupForLink_eq_ok {fresh : InspectedPeer F} {shared : Option (SharedGroup F)}
    {outcome : GroupRecord F × Bool} (passed : sharedGroupForLink fresh shared = .ok outcome) :
    ∃ proposal, shared = some proposal ∧ outcome = (proposal.record, proposal.leftOut) ∧
      proposal.record.Valid ∧
      fingerprintKey fresh.localFingerprint.fullHex ∈ proposal.record.memberKeys ∧
      fingerprintKey fresh.peerFingerprint.fullHex ∈ proposal.record.memberKeys := by
  cases shared with
  | none => cases passed
  | some proposal =>
    simp only [sharedGroupForLink, bind_eq_ok, ensure_eq_ok, exists_const, decide_eq_true_eq] at passed
    obtain ⟨_, _, valid, fits, made⟩ := passed
    cases made
    simp only [fitsLink, Bool.and_eq_true, List.all_eq_true] at fits
    refine ⟨proposal, rfl, rfl, valid, ?_, ?_⟩
    · exact hasMember_iff.mp (fits.1.2 _ (by simp))
    · exact hasMember_iff.mp (fits.1.2 _ (by simp))

/-- What holds of a proposal from when it is accepted until it is committed. -/
structure Staged.Sound (here peer : CertificateFingerprint) (staged : Staged F) : Prop where
  other : peer ≠ here
  valid : staged.shared.record.Valid
  ours : fingerprintKey here.fullHex ∈ staged.shared.record.memberKeys
  theirs : fingerprintKey peer.fullHex ∈ staged.shared.record.memberKeys
  near : staged.shared.record.revision ≤ staged.accepted + maxClockStep

theorem stageRecord_eq_ok {desk : Desk F} {link : Link} {fresh : InspectedPeer F}
    {shared : SharedGroup F} {outcome : GroupRecord F × Bool}
    (ends : link.peer ≠ here ∧ fresh.localFingerprint = here ∧ fresh.peerFingerprint = link.peer)
    (passed : desk.stageRecord link fresh (some shared) = .ok outcome) :
    ({ shared, accepted := desk.clock } : Staged F).Sound here link.peer := by
  simp only [stageRecord, bind_eq_ok, ensure_eq_ok, exists_const] at passed
  obtain ⟨staged, read, _, _, near, _⟩ := passed
  obtain ⟨other, own, far⟩ := ends
  have parsed : sharedGroupForLink fresh (some shared) = .ok staged := by
    revert read
    cases sharedGroupForLink fresh (some shared) with
    | error _ => intro read; cases read
    | ok _ =>
      intro read
      cases read
      rfl
  obtain ⟨proposal, same, rfl, valid, ours, theirs⟩ := sharedGroupForLink_eq_ok parsed
  cases same
  rw [own] at ours
  rw [far] at theirs
  refine ⟨other, valid, ours, theirs, ?_⟩
  simp only [withinClockStep, decide_eq_true_eq] at near
  exact le_trans near (min_le_left _ _)

/-! ## What a commit writes -/

/-- The other computers switched on. -/
def SetupFile.others (file : SetupFile F) (here : CertificateFingerprint) : List Text :=
  file.enabled.filter fun peer => peer != fingerprintKey here.fullHex

omit [Format F] in
theorem SetupFile.mem_others {other : Text} :
    other ∈ file.others here ↔ other ∈ file.enabled ∧ other ≠ fingerprintKey here.fullHex := by
  simp [SetupFile.others]

omit [Format F] in
theorem mem_activeMembers_desk {other : Text} :
    other ∈ activeMembers file here.fullHex ↔
      other ∈ file.enabled ∨ other = fingerprintKey here.fullHex := by
  simp [activeMembers, mem_dedup]

theorem tryUpdate_eq_some {edit : SetupFile F → Option (SetupFile F)}
    (done : tryUpdate file disk edit = some next) : edit file = some next ∧ next.Sound := by
  unfold tryUpdate at done
  split at done
  · cases done
  obtain ⟨made, saved⟩ := filter_eq_some_iff.mp done
  refine ⟨made, ?_⟩
  unfold SetupFile.save at saved
  cases valid : next.validate with
  | ok result => exact validate_eq_ok.mp valid
  | error _ =>
    cases newer : next.newer <;>
      simp [newer, valid, ensure, bind, Except.bind, Except.isOk, Except.toBool] at saved

/-- The records and the switches after a record was adopted. -/
theorem adopt_enabled {kept : Bool} (adopted : file.adopt here.fullHex record = .ok (next, kept)) :
    record.Valid ∧ next.paused = file.paused ∧ next.clock = max file.clock record.revision ∧
      next.enabled = record.memberKeys.filter fun member => member != fingerprintKey here.fullHex := by
  have paused : (file.setLocal here.fullHex).paused = file.paused := by
    unfold setLocal
    split <;> rfl
  rcases file.adopt_cases with failed | ⟨fingerprint, read, valid, _, done⟩
  · rw [failed] at adopted
    cases adopted
  rw [parseFull_fullHex] at read
  cases read
  rcases done with ⟨done, -⟩ | ⟨done, -⟩ <;> rw [done] at adopted <;> cases adopted <;>
    exact ⟨valid, paused, rfl, rfl⟩

theorem commitFile_eq_some (done : commitFile file seen record here.fullHex disk = some next) :
    keepsEnabled record (file.observeClock seen) here.fullHex = true ∧
      (∃ kept, (file.observeClock seen).adopt here.fullHex record = .ok (next, kept)) ∧
      next.Sound := by
  obtain ⟨made, sound⟩ := tryUpdate_eq_some done
  dsimp only at made
  split at made
  · next keeps =>
    refine ⟨keeps, ?_, sound⟩
    cases adopted : (file.observeClock seen).adopt here.fullHex record with
    | error _ => simp [adopted, Except.toOption] at made
    | ok outcome =>
      simp only [adopted, Except.toOption, map_some, some.injEq] at made
      exact ⟨outcome.2, by rw [← made]⟩
  · cases made

omit [Format F] in
/-- A record kept under the switches: nothing is switched off, and only the pair's own computer
may come on. -/
theorem keepsEnabled_others (other : peer ≠ here)
    (ours : fingerprintKey here.fullHex ∈ record.memberKeys)
    (theirs : fingerprintKey peer.fullHex ∈ record.memberKeys)
    (keeps : keepsEnabled record file here.fullHex = true) :
    (∀ computer ∈ file.others here, computer ∈ record.memberKeys) ∧
      ∀ computer ∈ record.memberKeys, computer ≠ fingerprintKey here.fullHex →
        computer ∉ file.others here →
          computer = fingerprintKey peer.fullHex ∧ file.others here = [] := by
  have apart : fingerprintKey here.fullHex ≠ fingerprintKey peer.fullHex := by
    intro same
    have read := congrArg parseFull same
    simp only [parseFull_key, some.injEq] at read
    exact other read.symm
  unfold keepsEnabled at keeps
  dsimp only at keeps
  split at keeps
  · -- A group is exactly the computers switched on, so nothing changes.
    have same := beq_iff_eq.mp keeps
    rw [same]
    constructor
    · exact fun computer member =>
        mem_activeMembers_desk.mpr (.inl (mem_others.mp member).1)
    · intro computer member notHere new
      have on := (mem_activeMembers_desk.mp member).resolve_right notHere
      exact absurd (mem_others.mpr ⟨on, notHere⟩) new
  · next few =>
    have inside : ∀ computer ∈ file.others here, computer ∈ record.memberKeys := by
      intro computer member
      have := List.all_eq_true.mp keeps computer
        (mem_activeMembers_desk.mpr (.inl (mem_others.mp member).1))
      simpa using this
    -- A pair has no members but its two ends.
    have pair : ∀ computer ∈ record.memberKeys, computer ≠ fingerprintKey here.fullHex →
        computer = fingerprintKey peer.fullHex := by
      intro computer member notHere
      by_contra third
      have three : [fingerprintKey here.fullHex, fingerprintKey peer.fullHex, computer].Nodup := by
        simp [apart, Ne.symm notHere, Ne.symm third]
      have subset : [fingerprintKey here.fullHex, fingerprintKey peer.fullHex, computer] ⊆
          record.memberKeys := by
        simp [ours, theirs, member]
      have long := (subperm_of_subset three subset).length_le
      simp at long
      omega
    refine ⟨inside, fun computer member notHere new => ?_⟩
    have isPeer := pair computer member notHere
    refine ⟨isPeer, eq_nil_iff_forall_not_mem.mpr fun on onMember => new ?_⟩
    have same := pair on (inside on onMember) (mem_others.mp onMember).2
    rw [isPeer, ← same]
    exact onMember

/-! ## What holds along a run -/

omit [Format F] in
theorem GroupRecord.memberKeys_relabeled (record : GroupRecord F) (known : KnownDisplays F) :
    (record.relabeled known).memberKeys = record.memberKeys := by
  unfold memberKeys GroupRecord.relabeled
  rw [List.map_map]
  refine List.map_congr_left fun member _ => ?_
  simp only [Function.comp_apply]
  cases known.get member <;> rfl

namespace Desk

variable {desk : Desk F}

structure Sound (here : CertificateFingerprint) (desk : Desk F) : Prop where
  file : desk.file.Sound
  staged : ∀ peer staged, (desk.peers peer).staged = some staged → staged.Sound here peer
  staging : ∀ call ∈ desk.staging, call.staged.Sound here call.link.peer
  completions : ∀ entry ∈ desk.completions, entry.2.Sound here entry.1
  committed : ∀ peer file, (desk.peers peer).committed = some file → file.clock ≤ desk.file.clock
  written : ∀ clock ∈ desk.written, clock ≤ desk.file.clock

section
variable (sound : desk.Sound here)
include sound

/-- A change to one peer's state that keeps what is staged and committed there. -/
theorem Sound.setPeer (peer : CertificateFingerprint) (change : PeerState F → PeerState F)
    (staged : ∀ staged, (change (desk.peers peer)).staged = some staged → staged.Sound here peer)
    (committed : ∀ file, (change (desk.peers peer)).committed = some file →
      file.clock ≤ desk.file.clock) : (desk.setPeer peer change).Sound here := by
  refine ⟨sound.file, fun other held found => ?_, sound.staging, sound.completions,
    fun other file found => ?_, sound.written⟩
  · simp only [Desk.setPeer] at found
    split at found
    · next same => exact same ▸ staged held found
    · exact sound.staged other held found
  · simp only [Desk.setPeer] at found
    split at found
    · exact committed file found
    · exact sound.committed other file found

theorem Sound.fewerStaging {staging : List (Staging F)}
    (fewer : ∀ call ∈ staging, call.staged.Sound here call.link.peer) :
    ({ desk with staging } : Desk F).Sound here :=
  { sound with staging := fewer }

/-- A file written over this one, its clock no lower. -/
theorem Sound.write (fileSound : file.Sound)
    (later : desk.file.clock ≤ file.clock) : ({ desk with file } : Desk F).Sound here :=
  { sound with
    file := fileSound
    committed := fun peer other found => le_trans (sound.committed peer other found) later
    written := fun clock member => le_trans (sound.written clock member) later }

theorem Sound.writeHere (fileSound : file.Sound)
    (later : desk.file.clock ≤ file.clock) : (desk.write file).Sound here :=
  { sound.write fileSound later with
    written := forall_mem_append.mpr ⟨(sound.write fileSound later).written,
      forall_mem_singleton.mpr le_rfl⟩ }

theorem Sound.landed {staged : Staged F} (passed : staged.Sound here peer)
    (fileSound : file.Sound) (later : desk.file.clock ≤ file.clock) :
    (desk.landed peer staged file).Sound here := by
  have written := sound.write fileSound later
  have queued : ({ desk with file, completions := desk.completions ++ [(peer, staged)] } :
      Desk F).Sound here :=
    { written with
      completions := forall_mem_append.mpr ⟨sound.completions, forall_mem_singleton.mpr passed⟩ }
  exact queued.setPeer peer _ (fun staged => queued.staged peer staged)
    fun other same => by cases same; exact le_rfl

end

/-- A commit does nothing, only takes what is staged, or writes it. -/
theorem commit_cases (desk : Desk F) {link : Link} {current : InspectedPeer F} :
    desk.commit link current disk = desk ∨
      ∃ staged, (desk.peers link.peer).staged = some staged ∧
        (desk.commit link current disk = desk.setPeer link.peer PeerState.discard ∨
          ∃ file, commitFile desk.file desk.clock
              (staged.shared.record.relabeled (KnownDisplays.ofLink current))
              current.localFingerprint.fullHex disk = some file ∧
            desk.commit link current disk =
              (desk.setPeer link.peer PeerState.discard).landed link.peer staged file) := by
  unfold Desk.commit
  split
  · next staged _ found =>
    right
    refine ⟨staged, found, ?_⟩
    dsimp only
    split
    · exact .inl rfl
    · next file done => exact .inr ⟨file, done, rfl⟩
  · exact .inl rfl

theorem clock_le_commitFile (done : commitFile file seen record here.fullHex disk = some next) :
    next.clock = max (max file.clock seen) record.revision ∧ next.Sound := by
  obtain ⟨_, ⟨kept, adopted⟩, sound⟩ := commitFile_eq_some done
  exact ⟨(adopt_enabled adopted).2.2.1, sound⟩

theorem Sound.discard (sound : desk.Sound here) (peer : CertificateFingerprint) :
    (desk.setPeer peer PeerState.discard).Sound here :=
  sound.setPeer peer _ nofun fun file => sound.committed peer file

theorem Sound.commit (sound : desk.Sound here) {link : Link} {current : InspectedPeer F}
    (own : current.localFingerprint = here) (disk : Bool) :
    (desk.commit link current disk).Sound here := by
  rcases desk.commit_cases with idle | ⟨staged, found, taken | ⟨file, done, made⟩⟩
  · rw [idle]
    exact sound
  · rw [taken]
    exact sound.discard link.peer
  rw [made]
  rw [own] at done
  obtain ⟨clock, fileSound⟩ := clock_le_commitFile done
  refine (sound.discard link.peer).landed (sound.staged link.peer staged found) fileSound ?_
  rw [clock]
  exact le_trans (le_max_left _ _) (le_max_left _ _)

theorem clock_le_editFile {change : Change F} (sound : file.Sound)
    (done : editFile file seen change disk = some next) : file.clock ≤ next.clock ∧ next.Sound := by
  obtain ⟨made, nextSound⟩ := tryUpdate_eq_some done
  have observed := sound.observeClock seen
  refine ⟨le_trans (le_max_left _ seen) ?_, nextSound⟩
  split at made
  · next fingerprint enabled =>
    cases switched : (file.observeClock seen).setEnabled fingerprint enabled with
    | error _ => simp [switched, Except.toOption] at made
    | ok result =>
      simp only [switched, Except.toOption, some.injEq] at made
      exact made ▸ clock_le_setEnabled observed switched
  · cases made
    exact clock_le_apply observed _

theorem clock_le_writtenRecord (done : writtenRecord file seen record here.fullHex disk = some next) :
    file.clock ≤ next.clock ∧ next.Sound := by
  obtain ⟨made, nextSound⟩ := tryUpdate_eq_some done
  refine ⟨?_, nextSound⟩
  simp only [bind_eq_bind, bind_eq_some_iff] at made
  obtain ⟨stamped, _, made⟩ := made
  cases adopted : (file.observeClock seen).resume.adopt here.fullHex stamped with
  | error _ => simp [adopted, Except.toOption] at made
  | ok outcome =>
    simp only [adopted, Except.toOption, map_some, some.injEq] at made
    have clock := (adopt_enabled (show _ = Except.ok (outcome.1, outcome.2) from adopted)).2.2.1
    rw [← made, clock]
    exact le_trans (le_max_left _ seen) (le_max_left _ _)

theorem Sound.after (sound : desk.Sound here) (allowed : action.Allowed here desk) :
    (desk.after here action).Sound here := by
  cases action with
  | propose link fresh shared =>
    show (desk.propose link fresh shared).Sound here
    unfold Desk.propose
    split
    · next proposal _ passed =>
      exact sound.fewerStaging (forall_mem_append.mpr
        ⟨sound.staging, forall_mem_singleton.mpr (stageRecord_eq_ok allowed passed)⟩)
    · exact sound
  | checkFile call readable =>
    show (desk.checkFile call readable).Sound here
    unfold checkFile
    split
    · exact sound
    next staging found =>
    have held := sound.staging staging (mem_of_getElem? found)
    split
    · refine sound.fewerStaging fun other member => ?_
      rcases mem_or_eq_of_mem_set member with old | rfl
      · exact sound.staging other old
      · exact held
    · exact sound.fewerStaging fun other member =>
        sound.staging other (mem_of_mem_eraseIdx member)
  | store call =>
    show (desk.store call).Sound here
    unfold Desk.store
    split
    · exact sound
    next staging found =>
    have held := sound.staging staging (mem_of_getElem? found)
    have fewer : ({ desk with staging := desk.staging.eraseIdx call } : Desk F).Sound here :=
      sound.fewerStaging fun other member =>
        sound.staging other (mem_of_mem_eraseIdx member)
    dsimp only
    split
    · exact fewer
    · exact fewer.setPeer _ _ (fun staged same => by cases same; exact held)
        fun file => fewer.committed _ file
  | commit link current disk => exact sound.commit allowed.1 disk
  | discard peer => exact sound.discard peer
  | summary peer summary =>
    show (desk.summary summary).Sound here
    unfold Desk.summary
    split
    · split
      · exact { sound with }
      · exact sound
    · exact sound
  | complete completion inspection =>
    show (desk.complete completion inspection).Sound here
    unfold Desk.complete
    split
    · exact sound
    next peer staged found =>
    have fewer : ({ desk with completions := desk.completions.eraseIdx completion } : Desk F).Sound
        here :=
      { sound with
        completions := fun entry member =>
          sound.completions entry (mem_of_mem_eraseIdx member) }
    split
    · exact fewer
    · have taken := fewer.setPeer peer
        (PeerState.complete inspection)
        (fun staged => fewer.staged peer staged) nofun
      exact { taken with }
  | edit seen change disk =>
    show (desk.edit seen change disk).Sound here
    unfold Desk.edit
    split
    · exact sound
    next file done =>
    obtain ⟨later, fileSound⟩ := clock_le_editFile sound.file done
    have noted := sound.writeHere fileSound later
    split
    · exact noted.setPeer _ _ nofun fun file => noted.committed _ file
    · exact noted
  | writeRecord seen record disk =>
    show (desk.writeRecord seen record here.fullHex disk).Sound here
    unfold writeRecord
    split
    · exact sound
    · next file done =>
      obtain ⟨later, fileSound⟩ := clock_le_writtenRecord done
      exact sound.writeHere fileSound later
  | mirror written => exact { sound with }
  | startLink peer =>
    exact sound.setPeer peer PeerState.start (fun staged => sound.staged peer staged)
      fun file => sound.committed peer file
  | retire peer =>
    exact sound.setPeer peer PeerState.retirePersistence nofun fun file =>
      sound.committed peer file
  | inspect peer inspection =>
    exact sound.setPeer peer (PeerState.inspect inspection) (fun staged => sound.staged peer staged)
      fun file => sound.committed peer file
  | shutDown => exact { sound with }

theorem reachable_sound (reachable : (deskRuns F here).Reachable desk) : desk.Sound here := by
  refine reachable.invariant (Desk.Sound here) ?_ ?_
  · rintro desk ⟨valid, staging, completions, written, peers⟩
    refine ⟨validate_eq_ok.mp valid, fun peer staged found => ?_, ?_, ?_,
      fun peer file found => ?_, ?_⟩
    · exact nomatch (peers peer).1.symm.trans found
    · rw [staging]
      nofun
    · rw [completions]
      nofun
    · exact nomatch (peers peer).2.symm.trans found
    · rw [written]
      nofun
  · rintro desk action _ sound ⟨allowed, rfl⟩
    exact sound.after allowed

/-- The highest revision this computer made or saw, in memory or on disk. -/
def clockNow (desk : Desk F) : Nat := max desk.clock desk.file.clock

/-- Neither the file nor the clock moved. -/
def Rests (desk next : Desk F) : Prop := next.file = desk.file ∧ next.clock = desk.clock

theorem propose_rests {link : Link} {fresh : InspectedPeer F} {shared : Option (SharedGroup F)} :
    desk.Rests (desk.propose link fresh shared) := by
  unfold Desk.propose
  split <;> exact ⟨rfl, rfl⟩

theorem checkFile_rests {call : Nat} {readable : Bool} :
    desk.Rests (desk.checkFile call readable) := by
  unfold checkFile
  split
  · exact ⟨rfl, rfl⟩
  · split <;> exact ⟨rfl, rfl⟩

omit [Format F] in
theorem store_rests {call : Nat} : desk.Rests (desk.store call) := by
  unfold Desk.store
  split
  · exact ⟨rfl, rfl⟩
  · dsimp only
    split <;> exact ⟨rfl, rfl⟩

theorem Sound.commit_file (sound : desk.Sound here) {staged : Staged F} {known : KnownDisplays F}
    (found : (desk.peers peer).staged = some staged)
    (done : commitFile desk.file desk.clock (staged.shared.record.relabeled known) here.fullHex
      disk = some next) :
    (∀ other ∈ desk.file.others here, other ∈ next.others here) ∧
      (∀ other ∈ next.others here, other ∉ desk.file.others here →
        other = fingerprintKey peer.fullHex ∧ desk.file.others here = []) ∧
      next.paused = desk.file.paused ∧
      ∀ held ∈ desk.file.groups, ∀ group ∈ next.groups,
        group.memberKeys = held.memberKeys → held.stamp ≤ group.stamp := by
  have staging := sound.staged peer staged found
  obtain ⟨keeps, ⟨kept, adopted⟩, _⟩ := commitFile_eq_some done
  obtain ⟨_, paused, _, enabled⟩ := adopt_enabled adopted
  have observed := sound.file.observeClock desk.clock
  have evolves := observed.adopt _ _ adopted
  have same := staged.shared.record.memberKeys_relabeled known
  have switches := keepsEnabled_others staging.other (same ▸ staging.ours)
    (same ▸ staging.theirs) keeps
  have members : ∀ other, other ∈ next.others here ↔
      other ∈ (staged.shared.record.relabeled known).memberKeys ∧
        other ≠ fingerprintKey here.fullHex := by
    intro other
    rw [mem_others, enabled]
    simp
  refine ⟨fun other on => ?_, fun other on new => ?_, paused, fun held old group new same => ?_⟩
  · exact (members other).mpr ⟨switches.1 other on, (mem_others.mp on).2⟩
  · obtain ⟨member, notHere⟩ := (members other).mp on
    exact switches.2 other member notHere new
  · exact evolves.stamp_le observed old new same

/-- Only a commit that passes its checks writes the file on a peer's behalf, and no step moves the
clock more than one step past its value when the message behind it was accepted. -/
theorem Sound.after_of_peer (sound : desk.Sound here) (driven : action.peer desk = some peer)
    (allowed : action.Allowed here desk) :
    ((desk.after here action).file = desk.file ∨ ∃ known disk staged,
      (desk.peers peer).staged = some staged ∧
      commitFile desk.file desk.clock (staged.shared.record.relabeled known) here.fullHex disk =
        some (desk.after here action).file) ∧
    (desk.after here action).clockNow ≤ max desk.clockNow (action.acceptedAt desk + maxClockStep) := by
  have still {next : Desk F} {most : Nat} (rests : desk.Rests next) :
      next.clockNow ≤ max desk.clockNow most := by
    rw [clockNow, rests.1, rests.2]
    exact le_max_left _ _
  cases action with
  | propose => exact ⟨.inl propose_rests.1, still propose_rests⟩
  | checkFile => exact ⟨.inl checkFile_rests.1, still checkFile_rests⟩
  | store => exact ⟨.inl store_rests.1, still store_rests⟩
  | discard => exact ⟨.inl rfl, still ⟨rfl, rfl⟩⟩
  | commit link current disk =>
    cases driven
    simp only [Desk.after]
    rcases desk.commit_cases with idle | ⟨staged, found, taken | ⟨file, done, made⟩⟩
    · exact idle.symm ▸ ⟨.inl rfl, still ⟨rfl, rfl⟩⟩
    · exact taken.symm ▸ ⟨.inl rfl, still ⟨rfl, rfl⟩⟩
    rw [allowed.1] at done
    have near := (sound.staged link.peer staged found).near
    have accepted : (Action.commit link current disk).acceptedAt desk = staged.accepted := by
      simp [Action.acceptedAt, found]
    rw [made, accepted]
    refine ⟨.inr ⟨_, disk, staged, found, done⟩, ?_⟩
    show max desk.clock file.clock ≤ max (max desk.clock desk.file.clock) _
    rw [(clock_le_commitFile done).1]
    show max desk.clock (max (max desk.file.clock desk.clock) staged.shared.record.revision) ≤ _
    omega
  | summary other summary =>
    show ((desk.summary summary).file = _ ∨ _) ∧
      (desk.summary summary).clockNow ≤ max desk.clockNow (desk.clock + maxClockStep)
    unfold Desk.summary
    split
    · next stamp =>
      split
      · next near =>
        refine ⟨.inl rfl, ?_⟩
        simp only [withinClockStep, decide_eq_true_eq] at near
        show max (max desk.clock stamp.revision) desk.file.clock ≤
          max (max desk.clock desk.file.clock) _
        omega
      · exact ⟨.inl rfl, still ⟨rfl, rfl⟩⟩
    · exact ⟨.inl rfl, still ⟨rfl, rfl⟩⟩
  | complete completion inspection =>
    show ((desk.complete completion inspection).file = _ ∨ _) ∧
      (desk.complete completion inspection).clockNow ≤ _
    unfold Desk.complete
    split
    · exact ⟨.inl rfl, still ⟨rfl, rfl⟩⟩
    next peer staged found =>
    have near : staged.shared.record.revision ≤ staged.accepted + maxClockStep :=
      (sound.completions _ (mem_of_getElem? found)).near
    have accepted : (Action.complete completion inspection).acceptedAt desk = staged.accepted := by
      simp [Action.acceptedAt, found]
    split
    · exact ⟨.inl rfl, still ⟨rfl, rfl⟩⟩
    next record leftOut parsed =>
    obtain ⟨_, same, made, _⟩ := sharedGroupForLink_eq_ok parsed
    cases same
    cases made
    refine ⟨.inl rfl, ?_⟩
    -- The file this link committed is not ahead of the file as it is now.
    have seen : ((desk.peers peer).committed.map (·.clock)).getD 0 ≤ desk.file.clock := by
      cases held : (desk.peers peer).committed with
      | none => exact Nat.zero_le _
      | some file => exact sound.committed peer file held
    show max (max (max desk.clock staged.shared.record.revision)
        (((desk.peers peer).committed.map (·.clock)).getD 0)) desk.file.clock ≤
      max (max desk.clock desk.file.clock) _
    omega
  | edit _ _ _ | writeRecord _ _ _ | mirror _ | startLink _ | retire _ | inspect _ _ | shutDown =>
    cases driven

end Desk

/-- In every run of one computer, with any number of peers, whatever they propose and tell and
however that is interleaved with the user's changes: a step on a peer's behalf switches no
computer off, switches at most that peer on, and only while no other computer is on; it leaves
the pause; it replaces no record by one with a smaller stamp; and it moves the clock at most one
step past its value when the message was accepted. -/
theorem peer_cannot_override {here : CertificateFingerprint} {desk next : Desk F}
    (reachable : (deskRuns F here).Reachable desk) {action : Action F}
    (step : (deskRuns F here).step desk action next) {peer : CertificateFingerprint}
    (driven : action.peer desk = some peer) :
    (∀ other ∈ desk.file.others here, other ∈ next.file.others here) ∧
      (∀ other ∈ next.file.others here, other ∉ desk.file.others here →
        other = fingerprintKey peer.fullHex ∧ desk.file.others here = []) ∧
      next.file.paused = desk.file.paused ∧
      (∀ held ∈ desk.file.groups, ∀ group ∈ next.file.groups,
        group.memberKeys = held.memberKeys → held.stamp ≤ group.stamp) ∧
      next.clockNow ≤ max desk.clockNow (action.acceptedAt desk + maxClockStep) := by
  have sound := reachable_sound reachable
  obtain ⟨allowed, rfl⟩ := step
  obtain ⟨same | ⟨known, disk, staged, found, done⟩, clock⟩ := sound.after_of_peer driven allowed
  · rw [same]
    refine ⟨fun _ on => on, fun other on new => absurd on new, rfl, ?_, clock⟩
    intro held old group new keys
    rw [sound.file.eq_of_keys old new keys.symm]
  · obtain ⟨on, off, paused, records⟩ := sound.commit_file found done
    exact ⟨on, off, paused, records, clock⟩

namespace RecordRun

def description (id : Nat) : DisplayDescription Int where
  id := ⟨id⟩
  name := "M"
  nativeWidth := 100
  nativeHeight := 100
  logicalOrigin := ⟨0, 0⟩
  logicalSize := ⟨100, 100⟩
  scaleFactor := ⟨0x3F800000⟩
  isPrimary := true
  monitor := none

/-- The link between the pair's computers, seen from the first. -/
def inspection : InspectedPeer Int where
  localDevice := deviceIdFromFingerprint (computer 10)
  peerDevice := deviceIdFromFingerprint (computer 11)
  localFingerprint := computer 10
  peerFingerprint := computer 11
  localPlatform := .windows
  peerPlatform := .windows
  localDisplays := ⟨[description 1]⟩
  peerDisplays := ⟨[description 2]⟩
  interfaceId := []

def link : Link where
  peer := computer 11
  generation := 0
  epoch := 0

/-- The second computer proposes the pair's record. -/
def proposal : SharedGroup Int where
  version := 3
  senderFingerprint := (computer 11).fullHex
  receiverFingerprint := (computer 10).fullHex
  record := pair 1
  leftOut := false

def start : Desk Int where
  file := SetupFile.default
  clock := 0
  shutdown := false
  peers _ :=
    { workerGeneration := 0, linkEpoch := 0, inspection := none, staged := none, committed := none }
  staging := []
  completions := []
  written := []

def proposed : Desk Int := start.after (computer 10) (.propose link inspection (some proposal))
def checked : Desk Int := proposed.after (computer 10) (.checkFile 0 true)
def staged : Desk Int := checked.after (computer 10) (.store 0)

theorem staged_reachable : (deskRuns Int (computer 10)).Reachable staged := by
  have initial : (deskRuns Int (computer 10)).init start :=
    ⟨by decide +kernel, rfl, rfl, rfl, fun _ => ⟨rfl, rfl⟩⟩
  have first : (deskRuns Int (computer 10)).step start (.propose link inspection (some proposal))
      proposed := ⟨⟨by decide, rfl, rfl⟩, rfl⟩
  have second : (deskRuns Int (computer 10)).step proposed (.checkFile 0 true) checked :=
    ⟨trivial, rfl⟩
  have third : (deskRuns Int (computer 10)).step checked (.store 0) staged := ⟨trivial, rfl⟩
  exact ⟨start, _, initial, .cons first (.cons second (.single third))⟩

/-- While nobody is switched on, the proposed pair switches its own computer on. -/
theorem peer_cannot_override_pair :
    staged.file.others (computer 10) = [] ∧
      (staged.after (computer 10) (.commit link inspection true)).file.others (computer 10) =
        [fingerprintKey (computer 11).fullHex] ∧
      (staged.after (computer 10) (.commit link inspection true)).file.paused =
        staged.file.paused ∧
      (staged.after (computer 10) (.commit link inspection true)).clockNow ≤
        max staged.clockNow (0 + maxClockStep) := by
  have step : (deskRuns Int (computer 10)).step staged (.commit link inspection true) _ :=
    ⟨⟨rfl, rfl⟩, rfl⟩
  have driven : (Action.commit link inspection true).peer staged = some (computer 11) := rfl
  obtain ⟨_, _, paused, _, clock⟩ := peer_cannot_override staged_reachable step driven
  have accepted : (Action.commit link inspection true).acceptedAt staged = 0 := by decide +kernel
  rw [accepted] at clock
  exact ⟨by decide +kernel, by decide +kernel, paused, clock⟩

end RecordRun
end Monhop.Setup
