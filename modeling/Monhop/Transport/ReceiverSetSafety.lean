import Monhop.Transport.ReceiverClaim
import Monhop.Transport.ReceiverSet

/-! # One injector at a time

Runs of a receiver set: any calls on any slots, with take-backs, moves of the source half
and native failures at any access.  Each slot's receiver keeps its own claim and leaves the
others' alone, so what one receiver keeps holds of the set.
-/

namespace Monhop.Transport

open Monhop.Core Protocol List Function ReceiverSet
open Library (Program Trail Answered Lts)
open Library.Program
variable {F : Type}
variable {index : Fin maxGroupPeers} {slot : FloorPeer} {start : FloorSnapshot}
  {set : ReceiverSet F} {entry : Slot F}

/-- The peer a slot's index belongs to. -/
def peerAt (index : Fin maxGroupPeers) : FloorPeer := ⟨index + 1⟩

theorem peerAt_of_slotIndex (found : slotIndex slot = some index) : peerAt index = slot := by
  obtain ⟨raw⟩ := slot
  simp only [slotIndex, Option.dite_none_right_eq_some, Option.some.injEq] at found
  obtain ⟨bounds, rfl⟩ := found
  simp only [peerAt, FloorPeer.mk.injEq]
  omega

theorem peerAt_injective {first second : Fin maxGroupPeers} (same : peerAt first = peerAt second) :
    first = second := by
  simp only [peerAt, FloorPeer.mk.injEq, add_right_cancel_iff] at same
  exact Fin.ext same

/-- A slot's receiver is shared, for its own peer, and its claim is the floor. -/
structure SlotKept (floor : FloorSnapshot) (index : Fin maxGroupPeers) (receiver : InputReceiver F) :
    Prop where
  slot : receiver.slot = peerAt index
  shared : receiver.shared = true
  claim : ∀ generation, receiver.floorGeneration = some generation →
    Claimed floor (peerAt index) generation

/-- Every slot of a set is kept, and its trace is orderly. -/
structure SetKept (start : FloorSnapshot) (set : ReceiverSet F) : Prop where
  accounted : Accounted start set.world
  slots : ∀ index entry, set.slots index = some entry →
    SlotKept set.world.gate.floor index entry.receiver

/-- A set's step: the trace grows, and while generations stay below their wrap the slots
are kept. -/
def SetMoves (start : FloorSnapshot) (first second : ReceiverSet F) : Prop :=
  (∃ events, second.world.trace = first.world.trace ++ events) ∧
    (Below start second.world.trace → SetKept start first → SetKept start second)

section Sets
variable {first second third : ReceiverSet F}

theorem SetMoves.refl (set : ReceiverSet F) : SetMoves start set set :=
  ⟨⟨[], (append_nil _).symm⟩, fun _ kept => kept⟩

theorem SetMoves.below (moves : SetMoves start first second) (below : Below start second.world.trace) :
    Below start first.world.trace := by
  obtain ⟨events, same⟩ := moves.1
  rw [same] at below
  exact below.front

theorem SetMoves.trans (leading : SetMoves start first second)
    (trailing : SetMoves start second third) : SetMoves start first third := by
  refine ⟨?_, fun below kept => trailing.2 below (leading.2 (trailing.below below) kept)⟩
  obtain ⟨front, front_eq⟩ := leading.1
  obtain ⟨back, back_eq⟩ := trailing.1
  exact ⟨front ++ back, by rw [back_eq, front_eq, append_assoc]⟩

theorem SlotKept.shift {floor changed : FloorSnapshot} {receiver : InputReceiver F}
    (kept : SlotKept floor index receiver)
    (claims : ∀ generation, Claimed floor (peerAt index) generation →
      Claimed changed (peerAt index) generation) :
    SlotKept changed index receiver :=
  ⟨kept.slot, kept.shared, fun generation claim => claims generation (kept.claim generation claim)⟩

variable {set : ReceiverSet F}

theorem setMoves_shift {world : World F} (shifts : set.world.Shifts world) :
    SetMoves start set { set with world } := by
  refine ⟨shifts.grows, fun below kept => ?_⟩
  obtain ⟨events, same⟩ := shifts.grows
  have bound : set.world.gate.floor.generation < maxGeneration :=
    kept.accounted.below (same ▸ below : Below start (set.world.trace ++ events)).front
  refine ⟨kept.accounted.shift shifts, fun index entry found => ?_⟩
  exact (kept.slots index entry found).shift fun _ claimed => shifts.claimed bound claimed

/-- A slot's receiver, seen as a session, keeps its claim. -/
theorem SetKept.keeper (kept : SetKept start set) (found : slotIndex slot = some index)
    (runs : set.slots index = some entry) : Keeper start (set.session slot entry) := by
  have slotKept := kept.slots index entry runs
  have own : entry.receiver.slot = slot := slotKept.slot.trans (peerAt_of_slotIndex found)
  refine ⟨congrArg Port.guarded own.symm, slotKept.shared, kept.accounted, fun generation claim => ?_⟩
  show Claimed set.world.gate.floor entry.receiver.slot generation
  rw [slotKept.slot]
  exact slotKept.claim generation claim

/-- What one slot's receiver keeps, the set keeps. -/
theorem setMoves_session (found : slotIndex slot = some index) (runs : set.slots index = some entry)
    {session : Session F} (moved : (keeping start).holds (set.session slot entry) session)
    (changed : Option (Slot F))
    (stays : ∀ kept, changed = some kept → kept.receiver = session.receiver) :
    SetMoves start set { slots := update set.slots index changed, world := session.world } := by
  refine ⟨moved.1, fun below kept => ?_⟩
  have after := moved.2 below (kept.keeper found runs)
  have own : entry.receiver.slot = peerAt index := (kept.slots index entry runs).slot
  refine ⟨after.keeper.accounted, fun other kept' present => ?_⟩
  replace present : update set.slots index changed other = some kept' := present
  by_cases same : other = index
  · subst same
    rw [update_self] at present
    have slotSame : session.receiver.slot = peerAt other := after.slot.trans own
    rw [stays kept' present]
    refine ⟨slotSame, after.keeper.shared, fun generation claim => ?_⟩
    rw [← slotSame]
    exact after.keeper.claim generation claim
  · rw [update_of_ne same] at present
    refine (kept.slots other kept' present).shift fun generation claimed => ?_
    refine after.others (peerAt other) generation (fun peers => same ?_) claimed
    exact peerAt_injective (peers.trans own)

theorem entry_eq_some (present : set.entry slot = some (index, entry)) :
    slotIndex slot = some index ∧ set.slots index = some entry := by
  simp only [ReceiverSet.entry, Option.bind_eq_bind, Option.pure_def, Option.bind_eq_some_iff,
    Option.some.injEq, Prod.mk.injEq] at present
  obtain ⟨_, found, _, runs, rfl, rfl⟩ := present
  exact ⟨found, runs⟩

theorem respond_moves {trail : Trail (Session F)} (stops : Moves trail (Session.stop .peerStopped))
    (response : Option (Message F)) (sequences : OutputSequences) (session : Session F) :
    trail.holds session (respond response sequences session).2.2 := by
  unfold respond
  split
  · exact trail.refl session
  · split
    · exact trail.refl session
    · exact stops session

/-- A call on one slot runs its receiver along a trail. -/
theorem drive_moves {trail : Trail (Session F)} (stops : Moves trail (Session.stop .peerStopped))
    {program : ReceiverProgram F (Option (Message F))} (moves : Moves trail program) :
    (set.drive slot program).2 = set ∨
      ∃ index entry session kept, slotIndex slot = some index ∧ set.slots index = some entry ∧
        trail.holds (set.session slot entry) session ∧ Slot.receiver kept = session.receiver ∧
        (set.drive slot program).2 =
          { slots := update set.slots index (some kept), world := session.world } := by
  unfold ReceiverSet.drive
  split
  · exact .inl rfl
  next index entry present =>
  obtain ⟨found, runs⟩ := entry_eq_some present
  have moved := moves (set.session slot entry)
  split
  · next failure session ran =>
    rw [ran] at moved
    exact .inr ⟨index, entry, session, _, found, runs, moved, rfl, rfl⟩
  · next response session ran =>
    rw [ran] at moved
    have answered := trail.trans moved (respond_moves stops response entry.sequences session)
    exact .inr ⟨index, entry, _, _, found, runs, answered, rfl, rfl⟩

theorem setMoves_drive
    {program : ReceiverProgram F (Option (Message F))} (moves : Moves (keeping start) program) :
    SetMoves start set (set.drive slot program).2 := by
  rcases drive_moves ((keeping_grips start).stop .peerStopped) moves with
    same | ⟨index, entry, session, kept, found, runs, moved, stays, same⟩
  · rw [same]
    exact .refl set
  · rw [same]
    exact setMoves_session found runs moved _ (by rintro _ ⟨⟩; exact stays)

theorem setMoves_remove : SetMoves start set (set.remove slot).2 := by
  unfold ReceiverSet.remove
  split
  · exact .refl set
  next index entry present =>
  obtain ⟨found, runs⟩ := entry_eq_some present
  have moved := (keeping_grips start).stop .peerStopped (set.session slot entry)
  simp only
  split
  · exact setMoves_session found runs moved _ (by rintro _ ⟨⟩; rfl)
  · exact setMoves_session found runs moved none fun _ empty => by cases empty

/-- A receiver fresh from startup has no claim. -/
theorem setMoves_add {receiver : InputReceiver F}
    (fresh : receiver.floorGeneration = none) (localLower enabled : Bool) {nextHeartbeatOut : Nat} :
    SetMoves start set (set.add slot receiver localLower enabled nextHeartbeatOut).2 := by
  unfold ReceiverSet.add
  split
  · exact .refl set
  next index found =>
  split
  · exact .refl set
  refine ⟨⟨[], (append_nil _).symm⟩, fun _ kept => ⟨kept.accounted, ?_⟩⟩
  intro other entry present
  replace present : update set.slots index _ other = some entry := present
  by_cases same : other = index
  · subst same
    rw [update_self] at present
    cases present
    refine ⟨(peerAt_of_slotIndex found).symm, rfl, fun generation claim => ?_⟩
    replace claim : receiver.floorGeneration = some generation := claim
    rw [fresh] at claim
    cases claim
  · rw [update_of_ne same] at present
    exact kept.slots other entry present

theorem keeping_answerTakeBack {generation : Nat} :
    Moves (keeping start) (answerTakeBack generation : ReceiverProgram F _) := by
  refine Books.receiverState.bind fun receiver => ?_
  split
  · exact moves_throw _
  · exact (keeping_grips start).yieldToLocal generation

/-- A take-back is a few accesses, and perhaps a call on the slot that the floor names. -/
theorem takeBack_moves {moves : ReceiverSet F → ReceiverSet F → Prop}
    (shifts : ∀ set world, set.world.Shifts world → moves set { set with world })
    (trans : ∀ {first second third}, moves first second → moves second third → moves first third)
    (drives : ∀ set slot generation, moves set (set.drive slot (answerTakeBack generation)).2) :
    moves set set.takeBack.2 := by
  have advances : moves set { set with world := set.world.advance.2 } :=
    shifts set _ set.world.advance_shifts
  have takes : moves set { set with world := (set.world.advance.2.takeTriggered).2 } := by
    refine trans advances (shifts _ _ (.inl ?_))
    simp [World.takeTriggered, TakeBackGate.takeTriggered, World.setGate]
  unfold takeBack
  split
  · next world taken =>
    rw [taken] at takes
    exact takes
  next generation world taken =>
  rw [taken] at takes
  have looks := trans takes (shifts _ _ world.advance_shifts)
  unfold handTrigger
  simp only
  split
  · exact looks
  · exact trans looks (drives _ _ generation)

theorem setMoves_takeBack : SetMoves start set set.takeBack.2 :=
  takeBack_moves (fun _ _ => setMoves_shift) SetMoves.trans
    fun _ _ _ => setMoves_drive keeping_answerTakeBack

end Sets

/-! ## Runs -/

inductive ReceiverSetCall (F : Type) where
  | add (slot : FloorPeer) (receiver : InputReceiver F) (localLower enabled : Bool)
    (nextHeartbeatOut : Nat)
  | remove (slot : FloorPeer)
  | receive (slot : FloorPeer) (frame : Frame F) (now : Duration)
  | tick (slot : FloorPeer) (now : Duration)
  | flush (slot : FloorPeer)
  | takeBack

namespace ReceiverSetCall

/-- Receivers are added fresh from startup. -/
def Permitted : ReceiverSetCall F → Prop
  | .add _ receiver _ _ _ => receiver.floorGeneration = none
  | _ => True

variable [Scalar F]

def run (call : ReceiverSetCall F) (set : ReceiverSet F) : ReceiverSet F :=
  match call with
  | .add slot receiver localLower enabled nextHeartbeatOut =>
    (set.add slot receiver localLower enabled nextHeartbeatOut).2
  | .remove slot => (set.remove slot).2
  | .receive slot frame now => (set.receive slot frame now).2
  | .tick slot now => (set.tick slot now).2
  | .flush slot => (set.flush slot).2
  | .takeBack => set.takeBack.2

theorem run_moves {call : ReceiverSetCall F} (permitted : call.Permitted) (set : ReceiverSet F) :
    SetMoves start set (call.run set) := by
  have handles := keeping_handles (F := F) start
  cases call with
  | add slot receiver localLower enabled nextHeartbeatOut =>
    exact setMoves_add permitted localLower enabled
  | remove slot => exact setMoves_remove
  | receive slot frame now => exact setMoves_drive (keeping_receive start)
  | tick slot now => exact setMoves_drive (handles.ends.tick now)
  | flush slot => exact setMoves_drive (handles.ends.flush.bind fun _ => moves_pure)
  | takeBack => exact setMoves_takeBack

end ReceiverSetCall

/-- A call, with what other threads do and which native actions fail at its accesses. -/
structure ReceiverSetStep (F : Type) where
  call : ReceiverSetCall F
  script : List Moment

def ReceiverSetStep.next [Scalar F] (step : ReceiverSetStep F) (set : ReceiverSet F) : ReceiverSet F :=
  step.call.run { set with world := { set.world with script := step.script } }

/-- A set's runs from an empty set on a gate whose floor is `start`. -/
def receiverSetLts (F : Type) [Scalar F] (start : FloorSnapshot) :
    Lts (ReceiverSet F) (ReceiverSetStep F) where
  init set := (∀ index, set.slots index = none) ∧ set.world.gate.floor = start ∧ set.world.trace = []
  step first step second := step.call.Permitted ∧ second = step.next first

variable [Scalar F]

theorem run_steps {steps : List (ReceiverSetStep F)}
    (permitted : ∀ step ∈ steps, step.call.Permitted) (set : ReceiverSet F) :
    (receiverSetLts F start).Run set steps (steps.foldl (fun set step => step.next set) set) := by
  induction steps generalizing set with
  | nil => exact .nil set
  | cons step steps ih =>
    refine .cons ⟨permitted step mem_cons_self, rfl⟩ (ih ?_ _)
    exact fun later member => permitted later (mem_cons_of_mem _ member)

theorem reachable_setKept (reachable : (receiverSetLts F start).Reachable set) :
    Below start set.world.trace → SetKept start set := by
  refine reachable.invariant (fun set => Below start set.world.trace → SetKept start set) ?_ ?_
  · intro fresh ⟨empty, floor, trace⟩ _
    refine ⟨⟨?_, trace ▸ orderly_nil⟩, fun index entry present => ?_⟩
    · rw [floor, trace]
      rfl
    · rw [empty index] at present
      cases present
  · rintro first step _ kept ⟨permitted, rfl⟩ below
    -- the script is not part of what is kept
    have moves : SetMoves start { first with world := { first.world with script := step.script } }
        (step.next first) := step.call.run_moves permitted _
    have before := kept (moves.below below)
    exact moves.2 below ⟨⟨before.accounted.floor, before.accounted.orderly⟩, before.slots⟩

/-- One injector at a time.  In every run below the wrap of the floor's generations: an
action that is no release is posted only by the slot that holds the floor inbound at that
moment; nothing at all is posted by a slot while another holds it inbound; and whenever the
floor is not held inbound, every press has been followed by a successful release of
everything. -/
theorem one_injector {start : FloorSnapshot} {set : ReceiverSet F}
    (reachable : (receiverSetLts F start).Reachable set) (below : Below start set.world.trace) :
    set.world.gate.floor = floorAfter start set.world.trace ∧
    (∀ before slot inert action delivered after,
      set.world.trace = before ++ .post slot inert action delivered :: after →
        (action.isRelease = false → isInbound (floorAfter start before) = true ∧
          (floorAfter start before).peer = slot) ∧
        (isInbound (floorAfter start before) = true → (floorAfter start before).peer = slot)) ∧
    (∀ before after, set.world.trace = before ++ after →
      isInbound (floorAfter start before) = false →
        Answered TraceEvent.presses TraceEvent.lifts before) := by
  obtain ⟨floor, orderly⟩ := (reachable_setKept reachable below).accounted
  refine ⟨floor, ?_, fun before after split idle => (orderly.rests before after split idle).presses⟩
  intro before slot inert action delivered after split
  obtain ⟨own, allowed⟩ := orderly.guarded before _ after split
  refine ⟨fun injects => ?_, own⟩
  rw [injects] at allowed
  have inbound := allowed.resolve_right nofun
  exact ⟨inbound, own inbound⟩

namespace ReceiverSetRun

/-- A receiver with one display of a hundred by a hundred. -/
def receiver : InputReceiver Int :=
  .new [⟨⟨1⟩, ⟨⟨0, 0⟩, ⟨100, 100⟩⟩⟩] ⟨1, Nat.one_pos⟩ 0 none

def empty : ReceiverSet Int := .new ⟨.new .fresh, [], []⟩

/-- A frame for slot 1, with what the callback does at its accesses. -/
def framed (sequence : Nat) (message : Message Int) (outside : List Outside) :
    ReceiverSetStep Int where
  call := .receive ⟨1⟩ (.new ⟨2, Nat.two_pos⟩ sequence message) 1
  script := outside.map (⟨·, false⟩)

def added (slot : FloorPeer) : ReceiverSetStep Int := ⟨.add slot receiver false true 0, []⟩

/-- Two slots; the first is activated and presses a key, the callback yields the floor while
the barrier is handled, and the second is removed. -/
def steps : List (ReceiverSetStep Int) :=
  [added ⟨1⟩, added ⟨2⟩, framed 0 (.activateDisplayAt ⟨1⟩ ⟨10, 10⟩ false) [],
    framed 1 (.key ⟨⟨4⟩, true, false, ⟨0⟩⟩) [], framed 2 .releaseAll [.quiet, .yield],
    ⟨.remove ⟨2⟩, []⟩]

@[irreducible] def yielded : ReceiverSet Int := steps.foldl (fun set step => step.next set) empty

theorem yielded_reachable : (receiverSetLts Int .fresh).Reachable yielded := by
  unfold yielded
  exact ⟨empty, steps, ⟨fun _ => rfl, rfl, rfl⟩, run_steps (by simp [steps, added, framed,
    ReceiverSetCall.Permitted, receiver, InputReceiver.new]) empty⟩

theorem yielded_below : Below .fresh yielded.world.trace := by
  decide +kernel

theorem yielded_idle : isInbound (floorAfter .fresh yielded.world.trace) = false := by
  decide +kernel

theorem yielded_pressed : yielded.world.trace.any TraceEvent.presses = true := by
  decide +kernel

theorem one_injector_yielded :
    yielded.world.trace.any TraceEvent.presses = true ∧
      Answered TraceEvent.presses TraceEvent.lifts yielded.world.trace :=
  ⟨yielded_pressed, (one_injector yielded_reachable yielded_below).2.2 yielded.world.trace []
    (append_nil _).symm yielded_idle⟩

end ReceiverSetRun
end Monhop.Transport
