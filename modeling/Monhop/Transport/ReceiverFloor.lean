import Monhop.Transport.ReceiverCleanup

/-! # One claim on the floor

A receiver that shares its gate acts on the destination only through its slot's guard.
What its parts keep, whatever other threads do between two accesses:

* its claim, while it has one, is the floor, held inbound for its slot (`Keeper.claim`);
* another slot's claim is left alone (`Kept.others`);
* at every moment of the trace, what is posted passed the guard, and a floor that nobody
  holds inbound finds everything released (`Orderly`).

The floor's generations stay below their wrap; a claim is recognised by its generation.
-/

namespace Monhop.Transport

open Monhop.Core Protocol List
open Library (Program Trail Always)
open Library.Program
variable {F : Type}
variable {start changed : FloorSnapshot} {trace : List (TraceEvent F)} {generation : Nat}
  {first second : Session F} {world after : World F}

/-! ## The floor at every moment -/

/-- The floor after an event. -/
def TraceEvent.leaves (floor : FloorSnapshot) : TraceEvent F → FloorSnapshot
  | .floor changed => changed
  | .post _ _ _ _ => floor

section
variable (start trace)

/-- The floor after a trace that began at `start`. -/
def floorAfter : FloorSnapshot :=
  trace.foldl TraceEvent.leaves start

@[simp] theorem floorAfter_concat (event : TraceEvent F) :
    floorAfter start (trace ++ [event]) = event.leaves (floorAfter start trace) := by
  simp [floorAfter]

/-- A post at its moment: no slot acts while another holds the floor inbound, and only
releases are posted while nobody does. -/
def TraceEvent.Guarded (floor : FloorSnapshot) : TraceEvent F → Prop
  | .floor _ => True
  | .post slot _ action _ =>
    (isInbound floor = true → floor.peer = slot) ∧ (isInbound floor = true ∨ action.isRelease = true)

/-- Every moment of a trace. -/
structure Orderly : Prop where
  guarded : ∀ before event after, trace = before ++ event :: after →
    event.Guarded (floorAfter start before)
  rests : Always (fun before => isInbound (floorAfter start before) = false → Settled before) trace

end

theorem orderly_nil : Orderly start ([] : List (TraceEvent F)) where
  guarded before event after split := by simp at split
  rests := Library.always_nil fun _ => ⟨trivial, trivial⟩

theorem Orderly.concat {event : TraceEvent F} (orderly : Orderly start trace)
    (guarded : event.Guarded (floorAfter start trace))
    (rests : isInbound (event.leaves (floorAfter start trace)) = false → Settled (trace ++ [event])) :
    Orderly start (trace ++ [event]) where
  guarded := by
    intro before other after split
    rcases eq_nil_or_concat after with rfl | ⟨rest, last, rfl⟩
    · obtain ⟨rfl, same⟩ := append_inj' split rfl
      cases same
      exact guarded
    · rw [concat_eq_append, ← cons_append, ← append_assoc] at split
      exact orderly.guarded before other rest (append_inj' split rfl).1
  rests := Library.always_concat.mpr ⟨orderly.rests, by rwa [floorAfter_concat]⟩

/-- A floor below the generation that wraps. -/
def TraceEvent.isBelow : TraceEvent F → Bool
  | .floor changed => decide (changed.generation < maxGeneration)
  | .post _ _ _ _ => true

section
variable (start trace)

/-- No floor of the trace has reached the generation that wraps. -/
def Below : Prop :=
  start.generation < maxGeneration ∧ trace.all TraceEvent.isBelow = true

instance : Decidable (Below start trace) := inferInstanceAs (Decidable (_ ∧ _))

end

theorem Below.front {front back : List (TraceEvent F)} (below : Below start (front ++ back)) :
    Below start front := by
  simp only [Below, all_append, Bool.and_eq_true] at below ⊢
  exact ⟨below.1, below.2.1⟩

theorem Below.floorAfter (below : Below start trace) :
    (floorAfter start trace).generation < maxGeneration := by
  induction trace using List.reverseRecOn with
  | nil => exact below.1
  | append_singleton trace event ih =>
    rw [floorAfter_concat]
    cases event with
    | floor floor => simpa [TraceEvent.isBelow, TraceEvent.leaves] using all_eq_true.mp below.2 (.floor floor)
    | post slot inert action delivered => exact ih below.front

/-! ## Claims -/

/-- The floor is held inbound for `peer` by the claim made at `generation`. -/
def Claimed (floor : FloorSnapshot) (peer : FloorPeer) (generation : Nat) : Prop :=
  floor.peer = peer ∧ isInboundClaim floor generation = true

variable {floor : FloorSnapshot}

theorem Claimed.inbound {peer : FloorPeer}
    (claimed : Claimed floor peer generation) : isInbound floor = true := by
  have claim := claimed.2
  unfold isInboundClaim at claim
  cases state : floor.state with
  | receiving | yielding => simp [isInbound, state, FloorState.owner]
  | free | requesting | sending | returning => simp [state] at claim

/-- What other threads may do to the floor: yield a claim, or move a floor nobody holds
inbound. -/
def OutsideMove (floor changed : FloorSnapshot) : Prop :=
  (floor.state = .receiving ∧ changed = floor.next .yielding floor.peer) ∨
    (isInbound floor = false ∧ isInbound changed = false)

theorem OutsideMove.claimed (moved : OutsideMove floor changed)
    (below : floor.generation < maxGeneration) {peer : FloorPeer}
    (claimed : Claimed floor peer generation) : Claimed changed peer generation := by
  rcases moved with ⟨receiving, rfl⟩ | ⟨idle, _⟩
  · obtain ⟨samePeer, claim⟩ := claimed
    refine ⟨samePeer, ?_⟩
    simp only [isInboundClaim, receiving, beq_iff_eq] at claim
    have bound := FloorSnapshot.maxGeneration_lt
    have next : FloorSnapshot.nextGeneration generation = generation + 1 := by
      unfold FloorSnapshot.nextGeneration
      rw [if_neg (by omega)]
    have fits : checkedSucc generation = some (generation + 1) :=
      checkedSucc_eq_some.mpr ⟨by unfold u64Max; omega, rfl⟩
    simp [isInboundClaim, FloorSnapshot.next, claim, next, fits]
  · rw [claimed.inbound] at idle
    cases idle

theorem OutsideMove.inbound (moved : OutsideMove floor changed) :
    isInbound changed = isInbound floor := by
  rcases moved with ⟨receiving, rfl⟩ | ⟨idle, still⟩
  · simp [isInbound, receiving, FloorState.owner]
  · rw [idle, still]

theorem OutsideMove.peer (moved : OutsideMove floor changed)
    (inbound : isInbound floor = true) : changed.peer = floor.peer := by
  rcases moved with ⟨_, rfl⟩ | ⟨idle, _⟩
  · rfl
  · rw [inbound] at idle
    cases idle

/-! ## What a shared receiver keeps -/

/-- The trace accounts for the floor, and was orderly throughout. -/
structure Accounted (start : FloorSnapshot) (world : World F) : Prop where
  floor : world.gate.floor = floorAfter start world.trace
  orderly : Orderly start world.trace

section
variable (accounted : Accounted start world)
include accounted

theorem Accounted.settled (idle : isInbound world.gate.floor = false) : Settled world.trace :=
  accounted.orderly.rests.last (accounted.floor ▸ idle)

theorem Accounted.below (below : Below start world.trace) :
    world.gate.floor.generation < maxGeneration :=
  accounted.floor ▸ below.floorAfter

omit accounted in
theorem settled_floor (settled : Settled trace) : Settled (trace ++ [.floor floor]) :=
  settled.append fun event member => by
    rw [mem_singleton.mp member]
    exact ⟨rfl, rfl⟩

omit accounted in
theorem settled_setGate (settled : Settled world.trace) (gate : TakeBackGate) :
    Settled (world.setGate gate).trace := by
  obtain ⟨events, same, only⟩ := world.setGate_trace
  rw [same]
  refine settled.append fun event member => ?_
  obtain ⟨floor, rfl⟩ := only event member
  exact ⟨rfl, rfl⟩

/-- A change of the floor that leaves nothing pressed behind. -/
theorem Accounted.record (trace : after.trace = world.trace ++ [.floor after.gate.floor])
    (settles : isInbound after.gate.floor = false → Settled world.trace) :
    Accounted start after := by
  constructor
  · rw [trace, floorAfter_concat]
    rfl
  · rw [trace]
    exact accounted.orderly.concat trivial fun idle => settled_floor (settles idle)

theorem Accounted.setGate (gate : TakeBackGate)
    (settles : isInbound gate.floor = false → Settled world.trace) :
    Accounted start (world.setGate gate) := by
  by_cases same : gate.floor = world.gate.floor
  · have unchanged : world.setGate gate = { world with gate } := by simp [World.setGate, same]
    rw [unchanged]
    exact ⟨same.trans accounted.floor, accounted.orderly⟩
  · have changed : world.setGate gate =
        { world with gate, trace := world.trace ++ [.floor gate.floor] } := by
      simp [World.setGate, same]
    rw [changed]
    exact accounted.record rfl settles

end

@[simp] theorem World.setGate_gate (world : World F) (gate : TakeBackGate) :
    (world.setGate gate).gate = gate := by
  unfold World.setGate
  split <;> rfl

/-- What other threads may have done between two accesses. -/
def World.Shifts (world after : World F) : Prop :=
  (after.gate.floor = world.gate.floor ∧ after.trace = world.trace) ∨
    (OutsideMove world.gate.floor after.gate.floor ∧
      after.trace = world.trace ++ [.floor after.gate.floor])

theorem World.advance_shifts (world : World F) : world.Shifts world.advance.2 := by
  unfold World.advance
  split
  · exact .inl ⟨rfl, rfl⟩
  next moment script _ =>
  by_cases same : (moment.outside.act world.gate).floor = world.gate.floor
  · simp only [World.setGate, same, ↓reduceIte]
    exact .inl ⟨same, rfl⟩
  simp only [World.setGate, same, ↓reduceIte]
  refine .inr ⟨?_, rfl⟩
  -- a floor that changed was yielded, or moved by the source half
  cases outside : moment.outside with
  | quiet | gate => simp [outside, Outside.act] at same
  | yield =>
    simp only [outside, Outside.act] at same ⊢
    split at same
    · next receiving => simpa [receiving] using .inl ⟨receiving, rfl⟩
    · exact (same rfl).elim
  | floor target =>
    simp only [outside, Outside.act] at same ⊢
    split at same
    · next allowed =>
      simp only [allowed, ↓reduceIte]
      simp only [Bool.and_eq_true, Bool.not_eq_true'] at allowed
      exact .inr allowed.1
    · exact (same rfl).elim

section
variable (shifts : world.Shifts after)
include shifts

theorem World.Shifts.grows : ∃ events, after.trace = world.trace ++ events := by
  rcases shifts with ⟨_, same⟩ | ⟨_, grown⟩
  · exact ⟨[], by simp [same]⟩
  · exact ⟨_, grown⟩

theorem World.Shifts.inbound : isInbound after.gate.floor = isInbound world.gate.floor := by
  rcases shifts with ⟨same, _⟩ | ⟨moved, _⟩
  · rw [same]
  · exact moved.inbound

theorem World.Shifts.peer (inbound : isInbound world.gate.floor = true) :
    after.gate.floor.peer = world.gate.floor.peer := by
  rcases shifts with ⟨same, _⟩ | ⟨moved, _⟩
  · rw [same]
  · exact moved.peer inbound

theorem World.Shifts.claimed
    (below : world.gate.floor.generation < maxGeneration) {peer : FloorPeer}
    (claimed : Claimed world.gate.floor peer generation) :
    Claimed after.gate.floor peer generation := by
  rcases shifts with ⟨same, _⟩ | ⟨moved, _⟩
  · rwa [same]
  · exact moved.claimed below claimed

end

theorem Accounted.shift (accounted : Accounted start world) (shifts : world.Shifts after) :
    Accounted start after := by
  rcases shifts with ⟨same, trace⟩ | ⟨moved, trace⟩
  · exact ⟨by rw [same, trace]; exact accounted.floor, trace ▸ accounted.orderly⟩
  · refine accounted.record trace fun idle => accounted.settled ?_
    rwa [← moved.inbound]

/-- A shared receiver: its claim, while it has one, is the floor. -/
structure Keeper (start : FloorSnapshot) (session : Session F) : Prop where
  port : session.port = .guarded session.receiver.slot
  shared : session.receiver.shared = true
  accounted : Accounted start session.world
  claim : ∀ generation, session.receiver.floorGeneration = some generation →
    Claimed session.world.gate.floor session.receiver.slot generation

/-- What a part of a shared receiver leaves. -/
structure Kept (start : FloorSnapshot) (first second : Session F) : Prop where
  keeper : Keeper start second
  slot : second.receiver.slot = first.receiver.slot
  others : ∀ peer generation, peer ≠ first.receiver.slot →
    Claimed first.world.gate.floor peer generation → Claimed second.world.gate.floor peer generation

theorem Kept.trans {third : Session F} (leading : Kept start first second)
    (trailing : Kept start second third) : Kept start first third where
  keeper := trailing.keeper
  slot := trailing.slot.trans leading.slot
  others peer generation other claimed :=
    trailing.others peer generation (leading.slot ▸ other) (leading.others _ _ other claimed)

/-- The trace grows from `first` to `second`. -/
def Grows (first second : Session F) : Prop :=
  ∃ events, second.world.trace = first.world.trace ++ events

theorem Grows.trans {third : Session F} (leading : Grows first second)
    (trailing : Grows second third) : Grows first third := by
  obtain ⟨front, front_eq⟩ := leading
  obtain ⟨back, back_eq⟩ := trailing
  exact ⟨front ++ back, by rw [back_eq, front_eq, append_assoc]⟩

theorem Grows.below (grows : Grows first second) (below : Below start second.world.trace) :
    Below start first.world.trace := by
  obtain ⟨events, same⟩ := grows
  rw [same] at below
  exact below.front

/-- The trail of a shared receiver, while the generations stay below their wrap. -/
def keeping (start : FloorSnapshot) : Trail (Session F) where
  holds first second := Grows first second ∧
    (Below start second.world.trace → Keeper start first → Kept start first second)
  refl session := ⟨⟨[], by simp⟩, fun _ keeper => ⟨keeper, rfl, fun _ _ _ claimed => claimed⟩⟩
  trans := by
    intro first second third ⟨grows, kept⟩ ⟨laterGrows, laterKept⟩
    refine ⟨grows.trans laterGrows, fun below keeper => ?_⟩
    have leading := kept (laterGrows.below below) keeper
    exact leading.trans (laterKept below leading.keeper)

section Keeping
variable (start)
variable (session : Session F)

theorem keeping_shift (shifts : session.world.Shifts world) :
    (keeping start).holds session { session with world } := by
  refine ⟨shifts.grows, fun below keeper => ?_⟩
  obtain ⟨events, same⟩ := shifts.grows
  have bound : session.world.gate.floor.generation < maxGeneration :=
    keeper.accounted.below (same ▸ below : Below start (session.world.trace ++ events)).front
  refine ⟨⟨keeper.port, keeper.shared, keeper.accounted.shift shifts, ?_⟩, rfl, ?_⟩
  · exact fun generation claim => shifts.claimed bound (keeper.claim generation claim)
  · exact fun peer generation _ claimed => shifts.claimed bound claimed

theorem keeping_access : Moves (keeping start) (Session.access : ReceiverProgram F _) :=
  fun session => keeping_shift start session session.world.advance_shifts

theorem keeping_update (change : InputReceiver F → InputReceiver F)
    (same : ∀ receiver, SameClaim receiver (change receiver)) :
    Moves (keeping start) (Session.update change) := by
  intro session
  have kept := same session.receiver
  refine ⟨⟨[], (append_nil _).symm⟩, fun _ keeper => ?_⟩
  refine ⟨⟨?_, kept.shared.trans keeper.shared, keeper.accounted, ?_⟩, kept.slot, ?_⟩
  · exact keeper.port.trans (congrArg Port.guarded kept.slot.symm)
  · intro generation claim
    show Claimed session.world.gate.floor (change session.receiver).slot generation
    rw [kept.slot]
    exact keeper.claim generation (kept.floorGeneration.symm.trans claim)
  · exact fun _ _ _ claimed => claimed

variable (action : DestinationAction F)

section
variable (own : isInbound session.world.gate.floor = true →
    session.world.gate.floor.peer = session.receiver.slot)
  (allowed : isInbound session.world.gate.floor = true ∨ action.isRelease = true)
include own allowed

theorem keeping_record (inert delivered : Bool) :
    (keeping start).holds session { session with
      world := session.world.record (.post session.receiver.slot inert action delivered) } := by
  refine ⟨⟨_, rfl⟩, fun _ keeper => ?_⟩
  have accounted := keeper.accounted
  refine ⟨⟨keeper.port, keeper.shared, ⟨?_, ?_⟩, keeper.claim⟩, rfl, fun _ _ _ same => same⟩
  · show session.world.gate.floor = floorAfter start (session.world.trace ++ [_])
    rw [floorAfter_concat]
    exact accounted.floor
  refine accounted.orderly.concat (accounted.floor ▸ ⟨own, allowed⟩) fun idle => ?_
  replace idle : isInbound session.world.gate.floor = false := by rw [accounted.floor]; exact idle
  refine (accounted.settled idle).append fun event member => ?_
  rw [mem_singleton.mp member]
  -- nobody holds the floor inbound, so this is a release
  rw [idle] at allowed
  exact OnlyReleases.idle inert action (allowed.resolve_left nofun)

theorem keeping_post :
    (keeping start).holds session ((Session.post action).exec session).2 := by
  have shifts := session.world.advance_shifts
  refine (keeping start).trans (keeping_shift start session shifts) ?_
  refine keeping_record start { session with world := session.world.advance.2 } action ?_ ?_ _ _
  · intro inbound
    have before : isInbound session.world.gate.floor = true := shifts.inbound ▸ inbound
    exact (shifts.peer before).trans (own before)
  · rw [shifts.inbound]
    exact allowed

end

theorem apply_guarded {session : Session F} {slot : FloorPeer} (port : session.port = .guarded slot)
    {action : DestinationAction F} {post : Except ReceiverFailure Bool → Session F → Prop}
    (ensures : (Session.applyGuarded slot action).Ensures session post) :
    (Session.apply action).Ensures session post := by
  simpa [Session.apply, port] using ensures

theorem keeping_applyGuarded :
    (Session.applyGuarded session.receiver.slot action).Ensures session fun _ after =>
      (keeping start).holds session after := by
  refine snapshot_returns.bind ?_
  rintro floor after ⟨rfl, rfl⟩
  have looked := keeping_shift start session session.world.advance_shifts
  split
  · exact looked
  next admitted =>
  refine (keeping start).trans looked (keeping_post start _ action ?_ ?_)
  · intro inbound
    simpa [Session.guardAdmits, inbound] using admitted
  · by_cases inbound : isInbound session.world.advance.2.gate.floor = true
    · exact .inl inbound
    · exact .inr (by simpa [Session.guardAdmits, inbound] using admitted)

theorem keeping_apply : Moves (keeping start) (Session.apply action) := by
  intro session
  have grows : Grows session ((Session.apply action).exec session).2 := by
    obtain ⟨events, same, _⟩ := ((quiet_covers fun _ => True).apply action trivial session).2.2
    exact ⟨events, same⟩
  refine ⟨grows, fun below keeper => ?_⟩
  have goes := apply_guarded keeper.port (keeping_applyGuarded start session action)
  exact goes.2 below keeper

theorem keeping_covers : Covers (keeping start : Trail (Session F)) fun _ => True where
  access := keeping_access start
  gate change same := by
    refine (keeping_access start).bind fun _ session => keeping_shift start session (.inl ?_)
    simp [World.setGate, same]
  keep change same := keeping_update start change fun receiver =>
    (SameCore.of_books (same receiver)).toSameClaim
  bookkeep change same := keeping_update start change fun receiver => (same receiver).toSameClaim
  apply action _ := keeping_apply start action

end Keeping
end Monhop.Transport
