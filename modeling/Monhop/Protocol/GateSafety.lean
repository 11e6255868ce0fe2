import Monhop.Protocol.Admission
import Monhop.Library.Transition
import Monhop.Library.Trace

/-! # What a sequence gate admits

A run of a gate is any sequence of its calls, with the heartbeat space seeded only before the first
frame is admitted.  The history notes each epoch activated and each frame admitted, with the
sequence space that admitted it.

* `GateCall.perform_cases` — all a call can do.
* `GateRun.Sound` — the gate against its history, kept by every call.
* `replays_refused` — what every run admits.
-/

namespace Monhop.Protocol

open Library List SequenceGate
variable {F : Type}

/-- The sequence spaces of a gate. -/
inductive FrameClass where
  | reliable
  | motion
  | heartbeat
  deriving DecidableEq

/-- The space of a frame given to `accept`. -/
def Frame.streamClass (frame : Frame F) : FrameClass :=
  match frame.delivery with
  | .reliable => .reliable
  | .motionDatagram => .motion

/-- In an earlier epoch, or earlier in the same one. -/
def Frame.Earlier (first second : Frame F) : Prop :=
  first.epoch.get < second.epoch.get ∨
    first.epoch = second.epoch ∧ first.sequence < second.sequence

theorem Frame.Earlier.ne {first second : Frame F} (earlier : first.Earlier second) :
    first ≠ second := by
  rintro rfl
  rcases earlier with below | ⟨_, below⟩ <;> omega

variable {gate : SequenceGate} {space : FrameClass} {sequence : Nat}

namespace SequenceGate

def last (gate : SequenceGate) : FrameClass → Option Nat
  | .reliable => gate.reliableSequence
  | .motion => gate.motionSequence
  | .heartbeat => gate.heartbeatSequence

/-- A space moves on to a sequence number. -/
def note (gate : SequenceGate) (space : FrameClass) (sequence : Nat) : SequenceGate :=
  match space with
  | .reliable => { gate with reliableSequence := some sequence }
  | .motion => { gate with motionSequence := some sequence }
  | .heartbeat => { gate with heartbeatSequence := some sequence }

@[simp] theorem note_activeEpoch : (gate.note space sequence).activeEpoch = gate.activeEpoch := by
  cases space <;> rfl

@[simp] theorem note_last_self : (gate.note space sequence).last space = some sequence := by
  cases space <;> rfl

theorem note_last_of_ne {space other : FrameClass} (different : other ≠ space) (sequence : Nat) :
    (gate.note space sequence).last other = gate.last other := by
  cases space <;> cases other <;> first | rfl | exact absurd rfl different

/-- The space has seen nothing as late as this sequence number. -/
def Fresh (gate : SequenceGate) (space : FrameClass) (sequence : Nat) : Prop :=
  ∀ last, gate.last space = some last → last < sequence

variable {frame : Frame F}

theorem checkEpoch_eq_ok : gate.checkEpoch frame = .ok () ↔ gate.activeEpoch = some frame.epoch := by
  unfold checkEpoch
  cases active : gate.activeEpoch with
  | none => simp
  | some epoch => by_cases same : epoch = frame.epoch <;> simp [same]

/-- A space that advances is noted, whatever its name; one that does not stays. -/
theorem advance_cases (space : FrameClass) (update : Option Nat → SequenceGate)
    (same : update (gate.last space) = gate)
    (noted : update (some sequence) = gate.note space sequence) :
    let moved := (advance (gate.last space) sequence).map id update
    (∃ error, moved = (.error error, gate)) ∨
      gate.Fresh space sequence ∧ moved = (.ok (), gate.note space sequence) := by
  dsimp only [advance]
  by_cases late : (gate.last space).any (sequence ≤ ·)
  · rw [if_pos late]
    exact .inl ⟨_, congrArg _ same⟩
  · rw [if_neg late]
    refine .inr ⟨fun last found => ?_, congrArg _ noted⟩
    simpa [found] using late

theorem accept_cases (gate : SequenceGate) (frame : Frame F) :
    (∃ error, gate.accept frame = (.error error, gate)) ∨
      gate.activeEpoch = some frame.epoch ∧ gate.Fresh frame.streamClass frame.sequence ∧
        gate.accept frame = (.ok (), gate.note frame.streamClass frame.sequence) := by
  unfold accept
  split
  · exact .inl ⟨_, rfl⟩
  next checked =>
  have active := checkEpoch_eq_ok.mp checked
  unfold Frame.streamClass
  cases frame.delivery with
  | reliable =>
    exact (advance_cases .reliable (fun reliableSequence => { gate with reliableSequence })
      rfl rfl).imp_right (And.intro active)
  | motionDatagram =>
    exact (advance_cases .motion (fun motionSequence => { gate with motionSequence })
      rfl rfl).imp_right (And.intro active)

theorem acceptHeartbeat_cases (gate : SequenceGate) (frame : Frame F) :
    (∃ error, gate.acceptHeartbeat frame = (.error error, gate)) ∨
      frame.message.isHeartbeat = true ∧ gate.activeEpoch = some frame.epoch ∧
        gate.Fresh .heartbeat frame.sequence ∧
        gate.acceptHeartbeat frame = (.ok (), gate.note .heartbeat frame.sequence) := by
  unfold acceptHeartbeat
  cases frame.message.isHeartbeat with
  | false => exact .inl ⟨_, rfl⟩
  | true =>
    rw [Bool.not_true, if_neg Bool.false_ne_true]
    split
    · exact .inl ⟨_, rfl⟩
    next checked =>
    exact (advance_cases .heartbeat (fun heartbeatSequence => { gate with heartbeatSequence })
      rfl rfl).imp_right fun moved => ⟨rfl, checkEpoch_eq_ok.mp checked, moved⟩

theorem activateEpoch_cases (gate : SequenceGate) (epoch : SessionEpoch) :
    (∃ error, gate.activateEpoch epoch = (.error error, gate)) ∨
      (∀ active, gate.activeEpoch = some active → active.get < epoch.get) ∧
        gate.activateEpoch epoch = (.ok (), { default with activeEpoch := some epoch }) := by
  unfold activateEpoch
  split
  · exact .inl ⟨_, rfl⟩
  next later => exact .inr ⟨fun active found => by simpa [found] using later, rfl⟩

end SequenceGate

/-! ## Runs -/

/-- The calls of a gate's owner. -/
inductive GateCall (F : Type) where
  | activateEpoch (epoch : SessionEpoch)
  | accept (frame : Frame F)
  | acceptHeartbeat (frame : Frame F)
  | seedHeartbeat (last : Option Nat)

/-- What a successful call leaves in the history. -/
inductive GateEvent (F : Type) where
  | activated (epoch : SessionEpoch)
  | admitted (space : FrameClass) (frame : Frame F)

/-- The epoch activated last. -/
def activatedLast (history : List (GateEvent F)) : Option SessionEpoch :=
  history.foldl (fun last event =>
    match event with
    | .activated epoch => some epoch
    | .admitted _ _ => last) none

/-- The frames one space admitted, in order. -/
def admittedBy (space : FrameClass) (history : List (GateEvent F)) : List (Frame F) :=
  history.filterMap fun event =>
    match event with
    | .activated _ => none
    | .admitted by_ frame => if by_ = space then some frame else none

namespace GateCall

/-- The answer of a call and the gate it leaves. -/
def perform (gate : SequenceGate) (call : GateCall F) :
    Except SequenceGateError Unit × SequenceGate :=
  match call with
  | .activateEpoch epoch => gate.activateEpoch epoch
  | .accept frame => gate.accept frame
  | .acceptHeartbeat frame => gate.acceptHeartbeat frame
  | .seedHeartbeat last => (.ok (), gate.seedHeartbeat last)

/-- What the call leaves in the history when it succeeds. -/
def event : GateCall F → Option (GateEvent F)
  | .activateEpoch epoch => some (.activated epoch)
  | .accept frame => some (.admitted frame.streamClass frame)
  | .acceptHeartbeat frame => some (.admitted .heartbeat frame)
  | .seedHeartbeat _ => none

end GateCall

/-- A gate and what it has let through. -/
structure GateRun (F : Type) where
  gate : SequenceGate
  history : List (GateEvent F)

namespace GateRun

def start : GateRun F := { gate := .default, history := [] }

def after (run : GateRun F) (call : GateCall F) : GateRun F :=
  match call.perform run.gate with
  | (.ok (), gate) => { gate, history := run.history ++ call.event.toList }
  | (.error _, gate) => { run with gate }

/-- No space has admitted a frame. -/
def Unused (run : GateRun F) : Prop := ∀ space, admittedBy space run.history = []

end GateRun

/-- Any calls, the heartbeat space seeded only before the first frame. -/
def gateRuns (F : Type) : Lts (GateRun F) (GateCall F) where
  init run := run = .start
  step first call second :=
    (∀ last, call = .seedHeartbeat last → first.Unused) ∧ second = first.after call

/-! ## What a call can do -/

/-- A call is refused and leaves the gate as it was, activates a later epoch with every space empty,
admits a fresh frame of the active epoch, or seeds the heartbeat space. -/
theorem GateCall.perform_cases (gate : SequenceGate) (call : GateCall F) :
    (∃ error, call.perform gate = (.error error, gate)) ∨
    (∃ epoch, call = .activateEpoch epoch ∧
      (∀ active, gate.activeEpoch = some active → active.get < epoch.get) ∧
      call.perform gate = (.ok (), { SequenceGate.default with activeEpoch := some epoch })) ∨
    (∃ space frame, call.event = some (.admitted space frame) ∧
      (space = frame.streamClass ∨ space = .heartbeat ∧ frame.message.isHeartbeat = true) ∧
      gate.activeEpoch = some frame.epoch ∧ gate.Fresh space frame.sequence ∧
      call.perform gate = (.ok (), gate.note space frame.sequence)) ∨
    ∃ last, call = .seedHeartbeat last ∧ call.perform gate = (.ok (), gate.seedHeartbeat last) := by
  cases call with
  | activateEpoch epoch =>
    rcases gate.activateEpoch_cases epoch with refused | ⟨later, opened⟩
    · exact .inl refused
    · exact .inr (.inl ⟨epoch, rfl, later, opened⟩)
  | accept frame =>
    rcases gate.accept_cases frame with refused | ⟨active, fresh, taken⟩
    · exact .inl refused
    · exact .inr (.inr (.inl ⟨_, frame, rfl, .inl rfl, active, fresh, taken⟩))
  | acceptHeartbeat frame =>
    rcases gate.acceptHeartbeat_cases frame with refused | ⟨heartbeat, active, fresh, taken⟩
    · exact .inl refused
    · exact .inr (.inr (.inl ⟨_, frame, rfl, .inr ⟨rfl, heartbeat⟩, active, fresh, taken⟩))
  | seedHeartbeat last => exact .inr (.inr (.inr ⟨last, rfl, rfl⟩))

/-! ## The gate against its history -/

theorem activatedLast_concat (history : List (GateEvent F)) (event : GateEvent F) :
    activatedLast (history ++ [event]) =
      match event with
      | .activated epoch => some epoch
      | .admitted _ _ => activatedLast history := by
  rw [activatedLast, foldl_concat]
  rfl

theorem admittedBy_activated (space : FrameClass) (history : List (GateEvent F))
    (epoch : SessionEpoch) :
    admittedBy space (history ++ [.activated epoch]) = admittedBy space history := by
  simp [admittedBy]

theorem admittedBy_admitted (space by_ : FrameClass) (history : List (GateEvent F))
    (frame : Frame F) :
    admittedBy space (history ++ [.admitted by_ frame]) =
      admittedBy space history ++ if by_ = space then [frame] else [] := by
  by_cases same : by_ = space <;> simp [admittedBy, same]

namespace GateRun

/-- The gate stands where its history left it, and every space was entered in order. -/
structure Sound (run : GateRun F) : Prop where
  active : run.gate.activeEpoch = activatedLast run.history
  /-- No admitted frame is past the active epoch, and none of that epoch past its space's last. -/
  seen : ∀ space, ∀ frame ∈ admittedBy space run.history, ∃ epoch,
    run.gate.activeEpoch = some epoch ∧ (frame.epoch.get < epoch.get ∨ frame.epoch = epoch ∧
      ∃ last, run.gate.last space = some last ∧ frame.sequence ≤ last)
  ordered : ∀ space, (admittedBy space run.history).Pairwise Frame.Earlier
  /-- A frame is of the epoch activated last before it. -/
  current : AtEach (fun before event => ∀ space frame, event = .admitted space frame →
    activatedLast before = some frame.epoch ∧
      (space = frame.streamClass ∨ space = .heartbeat ∧ frame.message.isHeartbeat = true))
    run.history
  /-- Epochs only grow. -/
  later : AtEach (fun before event => ∀ epoch active, event = .activated epoch →
    activatedLast before = some active → active.get < epoch.get) run.history

theorem start_sound : (start : GateRun F).Sound where
  active := rfl
  seen _ _ member := nomatch member
  ordered _ := .nil
  current := atEach_nil
  later := atEach_nil

variable {run : GateRun F}

section
variable (sound : run.Sound)
include sound

theorem Sound.activated {epoch : SessionEpoch}
    (later : ∀ active, run.gate.activeEpoch = some active → active.get < epoch.get) :
    Sound { gate := { SequenceGate.default with activeEpoch := some epoch }
            history := run.history ++ [.activated epoch] } where
  active := (activatedLast_concat run.history (.activated epoch)).symm
  seen space frame member := by
    -- What was admitted so far is of the epoch that ends here or of an earlier one.
    rw [admittedBy_activated] at member
    obtain ⟨active, found, before⟩ := sound.seen space frame member
    have ended := later active found
    refine ⟨epoch, rfl, .inl ?_⟩
    rcases before with before | ⟨same, _⟩
    · omega
    · rwa [same]
  ordered space := by
    rw [admittedBy_activated]
    exact sound.ordered space
  current := atEach_concat.mpr ⟨sound.current, fun _ _ other => nomatch other⟩
  later := by
    refine atEach_concat.mpr ⟨sound.later, fun new active same found => ?_⟩
    cases same
    exact later active (sound.active.trans found)

theorem Sound.admitted {frame : Frame F}
    (kind : space = frame.streamClass ∨ space = .heartbeat ∧ frame.message.isHeartbeat = true)
    (active : run.gate.activeEpoch = some frame.epoch)
    (fresh : run.gate.Fresh space frame.sequence) :
    Sound { gate := run.gate.note space frame.sequence
            history := run.history ++ [.admitted space frame] } where
  active := by
    rw [activatedLast_concat]
    exact note_activeEpoch.trans sound.active
  seen other earlier member := by
    refine ⟨frame.epoch, note_activeEpoch.trans active, ?_⟩
    rw [admittedBy_admitted, mem_append] at member
    by_cases same : space = other
    · subst same
      rcases member with member | new
      · -- The space moves past every frame of this epoch it had admitted.
        obtain ⟨epoch, found, before⟩ := sound.seen space earlier member
        obtain rfl : frame.epoch = epoch := Option.some.inj (active.symm.trans found)
        rcases before with before | ⟨inside, last, seen, within⟩
        · exact .inl before
        · have below := fresh last seen
          exact .inr ⟨inside, frame.sequence, note_last_self, by omega⟩
      · obtain rfl : earlier = frame := by simpa using new
        exact .inr ⟨rfl, earlier.sequence, note_last_self, Nat.le_refl _⟩
    · have old : earlier ∈ admittedBy other run.history := by simpa [same] using member
      obtain ⟨epoch, found, before⟩ := sound.seen other earlier old
      obtain rfl : frame.epoch = epoch := Option.some.inj (active.symm.trans found)
      rwa [note_last_of_ne (Ne.symm same)]
  ordered other := by
    rw [admittedBy_admitted]
    by_cases same : space = other
    · subst same
      rw [if_pos rfl, pairwise_concat]
      refine ⟨sound.ordered space, fun earlier member => ?_⟩
      obtain ⟨epoch, found, before⟩ := sound.seen space earlier member
      obtain rfl : frame.epoch = epoch := Option.some.inj (active.symm.trans found)
      rcases before with before | ⟨inside, seen, at_, within⟩
      · exact .inl before
      · have below := fresh seen at_
        exact .inr ⟨inside, by omega⟩
    · rw [if_neg same, append_nil]
      exact sound.ordered other
  current := by
    refine atEach_concat.mpr ⟨sound.current, fun by_ new same => ?_⟩
    cases same
    exact ⟨sound.active.symm.trans active, kind⟩
  later := atEach_concat.mpr ⟨sound.later, fun _ _ other => nomatch other⟩

theorem Sound.seeded (unused : run.Unused) (last : Option Nat) :
    Sound { run with gate := run.gate.seedHeartbeat last } where
  active := sound.active
  seen space frame member := by
    rw [unused space] at member
    cases member
  ordered := sound.ordered
  current := sound.current
  later := sound.later

theorem Sound.after {call : GateCall F}
    (unused : ∀ last, call = .seedHeartbeat last → run.Unused) : (run.after call).Sound := by
  unfold GateRun.after
  rcases call.perform_cases run.gate with ⟨error, answer⟩ | ⟨epoch, rfl, later, answer⟩ |
    ⟨space, frame, event, kind, active, fresh, answer⟩ | ⟨last, rfl, answer⟩
  · rw [answer]
    exact sound
  · rw [answer]
    exact sound.activated later
  · rw [answer, event]
    exact sound.admitted kind active fresh
  · rw [answer]
    have seeded := sound.seeded (unused last rfl) last
    simpa [GateCall.event] using seeded

end

theorem reachable_sound (reachable : (gateRuns F).Reachable run) : run.Sound := by
  refine reachable.invariant Sound ?_ ?_
  · rintro _ rfl
    exact start_sound
  · rintro first call _ sound ⟨unused, rfl⟩
    exact sound.after unused

end GateRun

theorem mem_admittedBy {frame : Frame F} {history : List (GateEvent F)} :
    frame ∈ admittedBy space history ↔ .admitted space frame ∈ history := by
  simp only [admittedBy, mem_filterMap]
  constructor
  · rintro ⟨event, member, found⟩
    cases event with
    | activated epoch => cases found
    | admitted by_ other =>
      by_cases same : by_ = space
      · obtain rfl : other = frame := by simpa [same] using found
        exact same ▸ member
      · simp [same] at found
  · intro member
    exact ⟨_, member, if_pos rfl⟩

/-- Replay protection.  In every run the frames each space admitted are strictly increasing in
epoch and sequence, so none is admitted twice by one space; a frame two spaces admitted is a
heartbeat given to both calls.  A frame is admitted only in the epoch activated last, and every
refused call leaves the gate as it was. -/
theorem replays_refused {run : GateRun F} (reachable : (gateRuns F).Reachable run) :
    (∀ space, (admittedBy space run.history).Pairwise Frame.Earlier ∧
      (admittedBy space run.history).Nodup) ∧
    (∀ first second frame, first ≠ second → frame ∈ admittedBy first run.history →
      frame ∈ admittedBy second run.history → frame.message.isHeartbeat = true) ∧
    (∀ before space frame after, run.history = before ++ .admitted space frame :: after →
      activatedLast before = some frame.epoch) ∧
    (∀ before epoch after active, run.history = before ++ .activated epoch :: after →
      activatedLast before = some active → active.get < epoch.get) ∧
    ∀ call : GateCall F, ∀ error, (call.perform run.gate).1 = .error error →
      (call.perform run.gate).2 = run.gate := by
  have sound := GateRun.reachable_sound reachable
  refine ⟨fun space => ⟨sound.ordered space, (sound.ordered space).imp Frame.Earlier.ne⟩,
    ?_, ?_, ?_, ?_⟩
  · intro first second frame different here there
    have kind {space : FrameClass} (member : frame ∈ admittedBy space run.history) :
        space = frame.streamClass ∨ frame.message.isHeartbeat = true := by
      obtain ⟨before, after, split⟩ := append_of_mem (mem_admittedBy.mp member)
      exact (sound.current before _ after split space frame rfl).2.imp_right And.right
    rcases kind here with same | heartbeat
    · rcases kind there with also | heartbeat
      · exact absurd (same.trans also.symm) different
      · exact heartbeat
    · exact heartbeat
  · intro before space frame after split
    exact (sound.current before _ after split space frame rfl).1
  · intro before epoch after active split found
    exact sound.later before _ after split epoch active rfl found
  · intro call error refused
    rcases call.perform_cases run.gate with ⟨_, answer⟩ | ⟨_, _, _, answer⟩ |
      ⟨_, _, _, _, _, _, answer⟩ | ⟨_, _, answer⟩ <;> rw [answer] at refused
    · rw [answer]
    · cases refused
    · cases refused
    · cases refused

namespace GateRun

def beat : Frame Int := .new ⟨1, Nat.one_pos⟩ 1 (.ping 7)

/-- The heartbeat given to both calls. -/
def both : GateRun Int :=
  ((start.after (.activateEpoch ⟨1, Nat.one_pos⟩)).after (.accept beat)).after
    (.acceptHeartbeat beat)

theorem both_reachable : (gateRuns Int).Reachable both :=
  ⟨start, [.activateEpoch ⟨1, Nat.one_pos⟩, .accept beat, .acceptHeartbeat beat], rfl,
    .cons ⟨fun _ other => (nomatch other), rfl⟩ (.cons ⟨fun _ other => (nomatch other), rfl⟩
      (.cons ⟨fun _ other => (nomatch other), rfl⟩ (.nil _)))⟩

/-- Each call admits the one frame, in its own space. -/
theorem both_admit : (gateRuns Int).Reachable both ∧ both.history =
    [.activated ⟨1, Nat.one_pos⟩, .admitted .reliable beat, .admitted .heartbeat beat] :=
  ⟨both_reachable, rfl⟩

theorem replays_refused_both :
    (gateRuns Int).Reachable both ∧ (admittedBy .heartbeat both.history).Pairwise Frame.Earlier :=
  ⟨both_reachable, ((replays_refused both_reachable).1 .heartbeat).1⟩

end GateRun
end Monhop.Protocol
