import Monhop.Core.FloorSafety
import Monhop.Transport.ReceiverFloor

/-! # Claiming the floor and giving it back

An activation claims a floor nobody holds inbound.  Every path that gives a claim back
releases what was injected first, and a release that fails keeps the claim: `GivesBack`
says what freeing needs, and the parts of a receiver establish it.  A receiver knows its claim by
the generation it remembered, and loses the claim of the last generation once it is yielded.
-/

namespace Monhop.Transport

open Monhop.Core Protocol List Option Session World
open Library (Program Trail)
open Library.Program
variable {F : Type}
variable {floor start : FloorSnapshot} {first second third : Session F}

/-! ## Claiming and freeing the floor -/

variable {session : Session F}

/-- A swap acts on the floor as other threads left it. -/
theorem swap_returns {operation : FloorOp} :
    (Session.swap operation).Returns session fun swapped after =>
      swapped = operation.run session.world.advance.2.gate.floor ∧
        after = { session with world := (session.world.advance.2.swapFloor operation).2 } := by
  refine ⟨_, rfl, ?_, rfl⟩
  show (session.world.advance.2.swapFloor operation).1 = _
  unfold swapFloor
  split
  · next same => exact same.symm
  · next same => exact same.symm

theorem claim_run {current source target : FloorSnapshot} {peer : FloorPeer}
    (claimed : (FloorOp.claim source .receiving peer).run current = .ok target) :
    current = source ∧ target = source.next .receiving peer := by
  have planned := FloorOp.run_eq_ok claimed
  simp only [FloorOp.plan, FloorSnapshot.claim, map_eq_some_iff, Prod.mk.injEq,
    ite_none_left_eq_some, some.injEq] at planned
  obtain ⟨_, ⟨_, rfl⟩, rfl, rfl⟩ := planned
  exact ⟨rfl, rfl⟩

/-- A floor an activation may claim is not held inbound. -/
theorem admissionAt_idle {receiver : InputReceiver F}
    (claimable : admissionAt receiver floor = none) : isInbound floor = false := by
  unfold admissionAt at claimable
  cases state : floor.state with
  | free | requesting | sending | returning => simp [isInbound, state, FloorState.owner]
  | receiving | yielding =>
    simp only [state] at claimable
    split at claimable <;> cases claimable

/-- The session once its receiver notes the claim it made. -/
def Session.noteClaim (session : Session F) (generation : Nat) : Session F :=
  { session with receiver := { session.receiver with floorGeneration := some generation } }

/-- A floor nobody held inbound becomes this receiver's. -/
theorem keeping_take (idle : isInbound session.world.gate.floor = false) :
    let receiving := session.world.gate.floor.next .receiving session.receiver.slot
    (keeping start).holds session (noteClaim
      { session with world := session.world.setGate { session.world.gate with floor := receiving } }
      receiving.generation) := by
  obtain ⟨events, grown, _⟩ := session.world.setGate_trace
  refine ⟨⟨events, grown⟩, fun _ keeper => ⟨⟨keeper.port, keeper.shared, ?_, ?_⟩, rfl, ?_⟩⟩
  · exact keeper.accounted.setGate _ nofun
  · intro generation claim
    cases claim
    show Claimed (session.world.setGate _).gate.floor session.receiver.slot _
    rw [setGate_gate]
    exact ⟨rfl, by simp [isInboundClaim]⟩
  · intro peer generation _ claimed
    rw [claimed.inbound] at idle
    cases idle

/-- Only a shared receiver is on this trail. -/
theorem keeping_pairwise (grows : Grows first second) (pairwise : first.receiver.shared = false) :
    (keeping start).holds first second := by
  refine ⟨grows, fun _ keeper => ?_⟩
  rw [keeper.shared] at pairwise
  cases pairwise

/-- A claim that succeeds makes the floor this receiver's. -/
theorem keeping_claimFloor (start : FloorSnapshot)
    (claimable : admissionAt session.receiver floor = none) :
    (claimFloor floor).Returns session fun claimed after =>
      match claimed with
      | .error _ => (keeping start).holds session after
      | .ok receiving => (keeping start).holds session (after.noteClaim receiving.generation) := by
  refine ensures_receiverState.mpr ?_
  cases sharing : session.receiver.shared with
  | false =>
    refine (swap_returns).mono ?_
    rintro claimed after ⟨_, rfl⟩
    obtain ⟨front, front_eq⟩ := session.world.advance_shifts.grows
    obtain ⟨back, back_eq, _⟩ := session.world.advance.2.swapFloor_trace
    have grown := back_eq.trans (congrArg (· ++ back) front_eq)
    have grows : ∀ second : Session F, second.world =
        (session.world.advance.2.swapFloor (.transition floor .receiving)).2 → Grows session second :=
      fun second same => ⟨front ++ back, by rw [same, grown, append_assoc]⟩
    cases claimed with
    | error | ok => exact keeping_pairwise (grows _ rfl) sharing
  | true =>
    refine (swap_returns).mono ?_
    rintro claimed after ⟨ran, rfl⟩
    have shifted := keeping_shift start session session.world.advance_shifts
    simp only [↓reduceIte] at ran
    cases claimed with
    | error current =>
      simp only [swapFloor, ↓reduceIte, ← ran]
      exact shifted
    | ok receiving =>
      obtain ⟨same, rfl⟩ := claim_run ran.symm
      subst same
      simp only [swapFloor, ↓reduceIte, ← ran]
      exact (keeping start).trans shifted (keeping_take (admissionAt_idle claimable))

theorem keeping_admitLoop (fuel : Nat) :
    Moves (keeping start) (admitLoop fuel : ReceiverProgram F _) := by
  induction fuel with
  | zero => exact moves_pure
  | succ fuel ih =>
    refine (keeping_covers start).snapshot.bind fun floor session => ?_
    -- from here the receiver and the floor it saw are fixed
    show (receiverState >>= _).Ensures session fun _ after =>
      (keeping start).holds session after
    refine ensures_receiverState.mpr ?_
    split
    · exact (keeping start).refl session
    next claimable =>
    refine (keeping_claimFloor start claimable).bind fun claimed after moved => ?_
    cases claimed with
    | error current =>
      have retries : Moves (keeping start) (if session.receiver.shared && current == floor then
          pure (some .busy) else admitLoop fuel : ReceiverProgram F _) :=
        .ite (fun _ => moves_pure) fun _ => ih
      exact (keeping start).trans moved (retries after)
    | ok receiving =>
      have opens : Moves (keeping start) (updateGate
          (fun gate => gate.openInjection receiving.generation) >>= fun _ =>
            pure none : ReceiverProgram F (Option DeclineReason)) :=
        ((keeping_covers start).openInjection _).bind fun _ => moves_pure
      exact (keeping start).trans moved (opens (after.noteClaim receiving.generation))

theorem keeping_admitActivation : Moves (keeping start) (admitActivation : ReceiverProgram F _) :=
  Books.receiverState.bind fun _ => .ite (fun _ => moves_pure) fun _ =>
    Books.retries.bind fun _ => keeping_admitLoop _

/-- Frees the receiver's own claim once everything is released. -/
def Frees (start : FloorSnapshot) (generation : Nat) (first second : Session F) : Prop :=
  Grows first second ∧ (Below start second.world.trace → Keeper start first →
    first.receiver.floorGeneration = none →
    Claimed first.world.gate.floor first.receiver.slot generation → Settled first.world.trace →
      Kept start first second)

variable {generation : Nat}

theorem frees_refl : Frees start generation session session :=
  ⟨⟨[], (append_nil _).symm⟩, fun _ keeper _ _ _ => ⟨keeper, rfl, fun _ _ _ same => same⟩⟩

theorem World.Shifts.settled {world after : World F} (shifts : world.Shifts after)
    (settled : Settled world.trace) : Settled after.trace := by
  rcases shifts with ⟨_, same⟩ | ⟨_, grown⟩
  · rwa [same]
  · rw [grown]
    exact settled_floor settled

theorem Frees.shifted {world : World F} (shifts : first.world.Shifts world)
    (frees : Frees start generation { first with world } third) :
    Frees start generation first third := by
  have shifted := keeping_shift start first shifts
  refine ⟨shifted.1.trans frees.1, fun below keeper unclaimed claimed settled => ?_⟩
  have belowSecond : Below start world.trace := frees.1.below below
  have leading := shifted.2 belowSecond keeper
  have bound := keeper.accounted.below (shifted.1.below belowSecond)
  exact leading.trans (frees.2 below leading.keeper unclaimed (shifts.claimed bound claimed)
    (shifts.settled settled))

theorem frees_setGate (gate : TakeBackGate) :
    Frees start generation session { session with world := session.world.setGate gate } := by
  obtain ⟨events, grown, _⟩ := session.world.setGate_trace
  refine ⟨⟨events, grown⟩, fun _ keeper unclaimed claimed settled => ?_⟩
  refine ⟨⟨keeper.port, keeper.shared, keeper.accounted.setGate gate fun _ => settled, ?_⟩, rfl, ?_⟩
  · intro other claim
    rw [show session.receiver.floorGeneration = none from unclaimed] at claim
    cases claim
  · intro peer other different elsewhere
    exact (different (elsewhere.1.symm.trans claimed.1)).elim

theorem releaseInbound_frees {fuel : Nat} (current : FloorSnapshot) (session : Session F) :
    (releaseInbound generation fuel current).Ensures session fun _ after =>
      Frees start generation session after := by
  induction fuel generalizing current session with
  | zero => exact frees_refl
  | succ fuel ih =>
    unfold releaseInbound
    split
    · exact frees_refl
    refine (swap_returns).bind ?_
    rintro swapped after ⟨ran, rfl⟩
    have shifts := session.world.advance_shifts
    cases swapped with
    | ok target =>
      simp only [swapFloor, ← ran]
      exact Frees.shifted shifts (frees_setGate _)
    | error changed =>
      simp only [swapFloor, ← ran]
      exact (ih changed _).mono fun _ _ frees => frees.shifted shifts

/-- The claim is dropped from the receiver before the floor is freed. -/
theorem releaseClaim_kept (start : FloorSnapshot) :
    (releaseClaim (some generation)).Ensures session fun _ after => Grows session after ∧
      (Below start after.world.trace → Keeper start session →
        session.receiver.floorGeneration = some generation → Settled session.world.trace →
          Kept start session after) := by
  refine (update_returns _ session).bind fun _ dropped ⟨port, world, receiver⟩ => ?_
  refine (snapshot_returns).bind ?_
  rintro floor looked ⟨rfl, rfl⟩
  have frees : ∀ fuel, (releaseInbound generation fuel
      dropped.world.advance.2.gate.floor).Ensures { dropped with world := dropped.world.advance.2 }
        fun _ after => Frees start generation dropped after :=
    fun fuel => (releaseInbound_frees _ _).mono fun _ _ freed =>
      freed.shifted dropped.world.advance_shifts
  have counts : Session.retries.Returns { dropped with world := dropped.world.advance.2 }
      fun _ after => after = { dropped with world := dropped.world.advance.2 } := ⟨_, rfl, rfl⟩
  refine counts.bind ?_
  rintro fuel _ rfl
  refine (frees fuel).mono fun _ after ⟨grows, kept⟩ => ?_
  have same : Grows session dropped := ⟨[], by rw [world, append_nil]⟩
  refine ⟨same.trans grows, fun below keeper claim settled => ?_⟩
  have slot : dropped.receiver.slot = session.receiver.slot := by rw [receiver]
  have unclaimed : dropped.receiver.floorGeneration = none := by rw [receiver]
  have without : Keeper start dropped := by
    refine ⟨?_, ?_, world ▸ keeper.accounted, ?_⟩
    · rw [port, slot, keeper.port]
    · rw [receiver]
      exact keeper.shared
    · rw [unclaimed]
      exact nofun
  have leading : Kept start session dropped := ⟨without, slot, fun _ _ _ claimed => world ▸ claimed⟩
  refine leading.trans (kept below without unclaimed ?_ (world ▸ settled))
  rw [world, slot]
  exact keeper.claim generation claim

/-- Giving the floor back needs everything released, if there is a claim to give back. -/
def GivesBack (start : FloorSnapshot) (first second : Session F) : Prop :=
  Grows first second ∧ (Below start second.world.trace → Keeper start first →
    (first.receiver.floorGeneration ≠ none → Settled first.world.trace) → Kept start first second)

theorem releaseFloor_givesBack (start : FloorSnapshot) (session : Session F) :
    releaseFloor.Ensures session fun _ after => GivesBack start session after := by
  have yields : Moves (keeping start) (Session.update fun receiver : InputReceiver F =>
      { receiver with yielding := false }) :=
    keeping_update start _ fun _ => by repeat' constructor
  refine ensures_receiverState.mpr ?_
  cases claim : session.receiver.floorGeneration with
  | none =>
    obtain ⟨grows, kept⟩ := yields session
    exact ⟨grows, fun below keeper _ => kept below keeper⟩
  | some generation =>
    refine (releaseClaim_kept start).bind ?_ ?_
    · intro _ freed ⟨grows, kept⟩
      obtain ⟨laterGrows, laterKept⟩ := yields freed
      refine ⟨grows.trans laterGrows, fun below keeper settles => ?_⟩
      have leading := kept (laterGrows.below below) keeper claim (settles (by simp [claim]))
      exact leading.trans (laterKept below leading.keeper)
    · exact fun _ _ ⟨grows, kept⟩ =>
        ⟨grows, fun below keeper settles => kept below keeper claim (settles (by simp [claim]))⟩

/-! ## Releasing before freeing -/

variable {action : DestinationAction F}

/-- An action reaches the destination, or the guard of a receiver without a claim drops it. -/
theorem apply_returns (start : FloorSnapshot) :
    (Session.apply action).Returns session fun delivered after =>
      after.port = session.port ∧ after.receiver = session.receiver ∧ ∃ floors,
        (∀ event ∈ floors, ∃ floor, event = .floor floor) ∧
        (after.world.trace = session.world.trace ++ floors ++
            [.post session.receiver.slot session.receiver.isInert action delivered] ∨
          after.world.trace = session.world.trace ++ floors ∧ session.port ≠ .direct ∧
            (Keeper start session → Below start after.world.trace →
              session.receiver.floorGeneration = none)) := by
  cases port : session.port with
  | direct =>
    refine apply_direct port (post_returns.mono ?_)
    rintro delivered after ⟨same, receiver, floors, posted, only⟩
    exact ⟨same.trans port, receiver, floors, only, .inl posted⟩
  | guarded slot =>
    refine apply_guarded port ((snapshot_returns).bind ?_)
    rintro floor looked ⟨rfl, rfl⟩
    have shifts := session.world.advance_shifts
    obtain ⟨front, front_eq, frontOnly⟩ := session.world.advance_trace
    split
    · next dropped =>
      refine returns_pure
        ⟨port, rfl, front, frontOnly, .inr ⟨front_eq, Port.noConfusion, fun keeper below => ?_⟩⟩
      -- a claim passes its own slot's guard
      refine eq_none_iff_forall_ne_some.mpr fun generation claim => ?_
      have kept := (keeping_shift start session shifts).2 below keeper
      have claimed := kept.keeper.claim generation claim
      have own := keeper.port.symm.trans port
      cases own
      simp only [guardAdmits, claimed.inbound, ↓reduceIte, Bool.not_eq_true', beq_eq_false_iff_ne,
        ne_eq] at dropped
      exact dropped claimed.1
    · refine post_returns.mono ?_
      rintro delivered after ⟨same, receiver, floors, trace, only⟩
      refine ⟨same.trans port, receiver, front ++ floors,
        forall_mem_append.mpr ⟨frontOnly, only⟩, .inl ?_⟩
      rw [trace]
      simp only [front_eq, append_assoc]

/-- Whoever holds the floor reaches the destination. -/
theorem apply_claimed (start : FloorSnapshot) :
    (Session.apply action).Returns session fun delivered after =>
      after.receiver = session.receiver ∧ (Keeper start session →
      session.receiver.floorGeneration ≠ none → Below start after.world.trace → ∃ floors,
        after.world.trace = session.world.trace ++ floors ++
          [.post session.receiver.slot session.receiver.isInert action delivered] ∧
        ∀ event ∈ floors, ∃ floor, event = .floor floor) := by
  refine (apply_returns start).mono ?_
  rintro delivered after ⟨_, same, floors, only, posted⟩
  refine ⟨same, fun keeper claims below => ⟨floors, ?_, only⟩⟩
  rcases posted with posted | ⟨_, _, unclaimed⟩
  · exact posted
  · exact (claims (unclaimed keeper below)).elim

/-- A successful release by whoever holds the floor settles everything. -/
theorem releaseInjected_claimed (start : FloorSnapshot) :
    releaseInjected.Returns session fun released after =>
      after.receiver.floorGeneration = session.receiver.floorGeneration ∧
        (released = true → Below start after.world.trace → Keeper start session →
          session.receiver.floorGeneration ≠ none → Settled after.world.trace) := by
  have closes : Moves (keeping start) (Session.update fun receiver : InputReceiver F =>
      { receiver.closeGestures with keyboard := receiver.keyboard.clear }) :=
    keeping_update start _ fun _ => by repeat' constructor
  refine (closes.returns (update_returns _ session)).bind ?_
  intro _ closed ⟨closing, _, _, closedReceiver⟩
  have sameClaim : closed.receiver.floorGeneration = session.receiver.floorGeneration := by
    rw [closedReceiver]
    rfl
  refine ((keeping_apply start _).returns (apply_claimed start)).bind ?_
  intro ended middle ⟨⟨middleGrows, middleKept⟩, middleReceiver, endPosted⟩
  refine ((keeping_apply start _).returns (apply_claimed start)).bind ?_
  intro released after ⟨⟨grows, kept⟩, receiver, releasePosted⟩
  refine returns_pure ⟨by rw [receiver, middleReceiver, sameClaim], fun both below keeper claims => ?_⟩
  obtain ⟨rfl, rfl⟩ := Bool.and_eq_true_iff.mp both
  have middleBelow := grows.below below
  have closedKept := closing.2 (middleGrows.below middleBelow) keeper
  have closedClaims : closed.receiver.floorGeneration ≠ none := sameClaim ▸ claims
  have midwayKept := middleKept middleBelow closedKept.keeper
  obtain ⟨floors, trace, _⟩ := endPosted closedKept.keeper closedClaims middleBelow
  obtain ⟨laterFloors, laterTrace, laterOnly⟩ :=
    releasePosted midwayKept.keeper (middleReceiver ▸ closedClaims) below
  rw [laterTrace, trace]
  exact settled_of_releases laterOnly ..

/-- A receiver that may not release has no claim to give back. -/
theorem mayRelease_claimed (start : FloorSnapshot) :
    mayRelease.Returns session fun native after => after.receiver = session.receiver ∧
      (Below start after.world.trace → Keeper start session →
        session.receiver.floorGeneration ≠ none → native = true) := by
  refine (snapshot_returns).bind ?_
  rintro floor looked ⟨rfl, rfl⟩
  refine ensures_receiverState.mpr (returns_pure ⟨rfl, fun below keeper claims => ?_⟩)
  obtain ⟨generation, claim⟩ := ne_none_iff_exists'.mp claims
  have kept := (keeping_shift start session session.world.advance_shifts).2 below keeper
  have claimed := kept.keeper.claim generation claim
  have held : session.receiver.holds session.world.advance.2.gate.floor = true := by
    simp only [InputReceiver.holds, claim, Bool.or_eq_true, Bool.and_eq_true, beq_iff_eq]
    exact .inr claimed
  simp [held]

/-- A trail that also keeps the claim, and whatever is settled. -/
def steadfast (start : FloorSnapshot) : Trail (Session F) where
  holds first second := (keeping start).holds first second ∧
    second.receiver.floorGeneration = first.receiver.floorGeneration ∧
      (Settled first.world.trace → Settled second.world.trace)
  refl session := ⟨(keeping start).refl session, rfl, id⟩
  trans leading trailing := ⟨(keeping start).trans leading.1 trailing.1,
    trailing.2.1.trans leading.2.1, trailing.2.2 ∘ leading.2.2⟩

theorem GivesBack.keeping (moved : (keeping start).holds first second)
    (back : GivesBack start second third)
    (ready : Below start second.world.trace → Keeper start first →
      second.receiver.floorGeneration ≠ none → Settled second.world.trace) :
    (keeping start).holds first third := by
  refine ⟨moved.1.trans back.1, fun below keeper => ?_⟩
  have middle := back.1.below below
  have kept := moved.2 middle keeper
  exact kept.trans (back.2 below kept.keeper (ready middle keeper))

theorem GivesBack.after (moved : (steadfast start).holds first second)
    (back : GivesBack start second third) : GivesBack start first third := by
  obtain ⟨⟨grows, kept⟩, claim, settles⟩ := moved
  refine ⟨grows.trans back.1, fun below keeper settled => ?_⟩
  have leading := kept (back.1.below below) keeper
  exact leading.trans (back.2 below leading.keeper fun claims => settles (settled (claim ▸ claims)))

section Steadfast
variable (start)

theorem steadfast_update {change : InputReceiver F → InputReceiver F}
    (same : ∀ receiver, SameClaim receiver (change receiver)) :
    Moves (steadfast start) (Session.update change) :=
  fun session => ⟨keeping_update start change same session, (same _).floorGeneration, id⟩

theorem steadfast_noteInjectedReleased :
    Moves (steadfast start)
      (updateGate TakeBackGate.noteInjectedReleased : ReceiverProgram F _) := by
  intro session
  refine ⟨(keeping_covers start).noteInjectedReleased session, rfl, fun settled => ?_⟩
  exact settled_setGate (session.world.advance_shifts.settled settled) _

theorem givesBack_bind {Value Result : Type} {first : ReceiverProgram F Result}
    {rest : Result → ReceiverProgram F Value} (moves : Moves (steadfast start) first)
    (backs : ∀ value session, (rest value).Ensures session fun _ after => GivesBack start session after)
    (session : Session F) :
    (first >>= rest).Ensures session fun _ after => GivesBack start session after := by
  refine (moves.ensures session).bind (fun value middle moved => ?_) fun _ after moved => ?_
  · exact (backs value middle).mono fun _ after back => .after moved back
  · exact ⟨moved.1.1, fun below keeper _ => moved.1.2 below keeper⟩

theorem finishCleanup_givesBack (native : Bool) :
    (finishCleanup native).Ensures session fun _ after => GivesBack start session after := by
  refine givesBack_bind start ?_ (fun _ => givesBack_bind start ?_ fun _ => ?_) session
  · exact steadfast_update start fun _ => by repeat' constructor
  · exact .runIf fun _ => steadfast_noteInjectedReleased start
  · exact releaseFloor_givesBack start

theorem keeping_releaseInjected : Moves (keeping start) (releaseInjected : ReceiverProgram F _) :=
  (keeping_covers start).releaseInjected fun _ _ => trivial

/-- A cleanup gives the floor back only after a successful release, or has none to give. -/
theorem keeping_retryCleanup : Moves (keeping start) (retryCleanup : ReceiverProgram F _) := by
  intro session
  show retryCleanup.Ensures session fun _ after => (keeping start).holds session after
  refine ensures_receiverState.mpr ?_
  split
  · exact (keeping start).refl session
  refine ((keeping_covers start).mayRelease.returns (mayRelease_claimed start)).bind ?_
  intro native looked ⟨moved, same, allowed⟩
  cases native with
  | false =>
    refine (finishCleanup_givesBack start false).mono fun _ after back => ?_
    refine GivesBack.keeping moved back fun below keeper claims => ?_
    cases allowed below keeper (same ▸ claims)
  | true =>
    refine ((keeping_releaseInjected start).returns (releaseInjected_claimed start)).bind ?_
    intro released after ⟨releasing, claim, settles⟩
    have path := (keeping start).trans moved releasing
    cases released with
    | false => exact path
    | true =>
      refine (finishCleanup_givesBack start true).mono fun _ last back => ?_
      refine GivesBack.keeping path back fun below keeper claims => ?_
      have lookedKept := moved.2 (releasing.1.below below) keeper
      exact settles rfl below lookedKept.keeper (claim ▸ claims)

/-- A barrier's native release makes ready whatever claim there is. -/
theorem releaseNative_ready (releases : Bool) :
    (releaseNative releases).Ensures session fun result after =>
      (keeping start).holds session after ∧ (result = .ok () → Below start after.world.trace →
        Keeper start session → (releases = false → session.receiver.floorGeneration = none) →
          after.receiver.floorGeneration ≠ none → Settled after.world.trace) := by
  cases releases with
  | false =>
    have closes : Moves (steadfast start) (Session.update InputReceiver.closeGestures :
        ReceiverProgram F _) := steadfast_update start fun _ => by repeat' constructor
    refine (closes.ensures session).mono fun _ after moved => ⟨moved.1, ?_⟩
    intro _ _ _ none claims
    exact (claims (moved.2.1.trans (none rfl))).elim
  | true =>
    refine ((keeping_releaseInjected start).returns (releaseInjected_claimed start)).bind ?_
    intro released after ⟨moved, claim, settles⟩
    cases released with
    | false => exact ⟨moved, nofun⟩
    | true =>
      refine ((steadfast_noteInjectedReleased start).ensures after).mono fun _ last noted => ?_
      refine ⟨(keeping start).trans moved noted.1, fun _ below keeper _ claims => ?_⟩
      have claimed : session.receiver.floorGeneration ≠ none := by rwa [← claim, ← noted.2.1]
      exact noted.2.2 (settles rfl (noted.1.1.below below) keeper claimed)

theorem keeping_releaseControl : Moves (keeping start) (releaseControl : ReceiverProgram F _) := by
  intro session
  show releaseControl.Ensures session fun _ after => (keeping start).holds session after
  refine ((keeping_covers start).mayRelease.returns (mayRelease_claimed start)).bind ?_
  intro releases looked ⟨moved, same, allowed⟩
  refine (releaseNative_ready start releases).bind ?_ fun _ after ⟨released, _⟩ =>
    (keeping start).trans moved released
  intro _ ready ⟨released, settles⟩
  refine (releaseFloor_givesBack start ready).mono fun _ after back => ?_
  refine GivesBack.keeping ((keeping start).trans moved released) back fun below keeper => ?_
  have lookedBelow := released.1.below below
  refine settles rfl below (moved.2 lookedBelow keeper).keeper fun refused => ?_
  -- a refusal to release means that there is no claim
  by_contra claims
  rw [refused] at allowed
  cases allowed lookedBelow keeper (same ▸ claims)

/-! ## Whole parts -/

/-- A take-back's yielding floor is the claim the receiver already has. -/
theorem keeping_noteYield
    (seen : session.world.gate.floor = floor) (held : session.receiver.holds floor = true)
    (yielding : floor.state = .yielding) (same : floor.generation = generation) :
    (keeping start).holds session { session with receiver :=
      { session.receiver with
        floorGeneration := some generation, yielding := true, pendingMove := none } } := by
  refine ⟨⟨[], (append_nil _).symm⟩, fun _ keeper => ?_⟩
  refine ⟨⟨keeper.port, keeper.shared, keeper.accounted, ?_⟩, rfl, fun _ _ _ claimed => claimed⟩
  intro noted claim
  cases claim
  have own : floor.peer = session.receiver.slot := by
    unfold InputReceiver.holds at held
    split at held
    · cases held
    · simp only [keeper.shared, Bool.not_true, Bool.false_or, Bool.and_eq_true, beq_iff_eq] at held
      exact held.1
  subst seen
  exact ⟨own, by simp [isInboundClaim, yielding, same]⟩

theorem keeping_grips : Grips (keeping start : Trail (Session F)) where
  access := keeping_access start
  gate := (keeping_covers start).gate
  update change same := keeping_update start change fun receiver => by
    have kept := same receiver
    simp only [InputReceiver.grip, Prod.mk.injEq] at kept
    exact ⟨kept.1, kept.2.1, kept.2.2.1⟩
  apply action _ := keeping_apply start action
  releaseInjected := keeping_releaseInjected start
  retryCleanup := keeping_retryCleanup start
  releaseControl := keeping_releaseControl start
  admitActivation := keeping_admitActivation
  noteYield generation session _ := keeping_noteYield start

section Frames
variable [Scalar F]

theorem keeping_handles : Handles (keeping start : Trail (Session F)) where
  covers :=
    { access := keeping_access start
      gate := (keeping_covers start).gate
      keep := (keeping_covers start).keep
      bookkeep := (keeping_covers start).bookkeep
      apply := fun action _ => keeping_apply start action }
  retryCleanup := keeping_retryCleanup start
  stop := (keeping_grips start).stop
  hold := (keeping_grips start).hold
  applyPendingMove := (keeping_grips start).applyPendingMove
  receiveRelease := (keeping_grips start).receiveRelease
  receiveInput message now := (keeping_grips start).receiveInput message now fun gesture _ =>
    (keeping_covers start).receiveGesture (fun _ => trivial) gesture now

theorem keeping_receive {frame : Frame F} {now : Duration} :
    Moves (keeping start) (Session.receive frame now) := by
  have handles := keeping_handles (F := F) start
  refine Books.receiverState.bind fun receiver => ?_
  split
  · exact moves_throw _
  refine Moves.tryCatch ?_ fun _ => moves_stopWith (handles.stop _)
  refine (handles.ends.detectHold now).bind fun held => ((keeping_covers start).limitRate now).bind
    fun _ => ?_
  split
  · exact (keeping_covers start).receiveHeartbeat held frame now
  · exact (keeping_covers start).receiveHeartbeat held frame now
  · exact (keeping_grips start).receiveActivation held frame _ _ _
  · exact handles.receiveSequenced held frame now

end Frames
end Steadfast

/-! ## The generation that wraps -/

variable {claim : FloorSnapshot}

/-- A claim, or the yielding that a take-back makes of it. -/
def OwnState (claim floor : FloorSnapshot) : Prop :=
  floor = claim ∨ floor = claim.next .yielding claim.peer

section
variable (receiving : claim.state = .receiving)
include receiving

theorem OwnState.shift {world after : World F} (own : OwnState claim world.gate.floor)
    (shifts : world.Shifts after) : OwnState claim after.gate.floor := by
  rcases shifts with ⟨same, -⟩ | ⟨⟨yields, yielded⟩ | ⟨idle, -⟩, -⟩
  · rwa [same]
  · rcases own with same | same
    · exact .inr (same ▸ yielded)
    · simp [same] at yields
  · rcases own with same | same <;>
      simp [same, isInbound, receiving, FloorState.owner] at idle

theorem OwnState.claimed (own : OwnState claim floor) (below : claim.generation < maxGeneration) :
    isInboundClaim floor claim.generation = true := by
  have claimed : Claimed claim claim.peer claim.generation :=
    ⟨rfl, by simp [isInboundClaim, receiving]⟩
  rcases own with rfl | rfl
  · exact claimed.2
  · exact (OutsideMove.claimed (.inl ⟨receiving, rfl⟩) below claimed).2

variable (wellFormed : claim.WellFormed)
include wellFormed

theorem OwnState.frees (own : OwnState claim floor)
    (current : FloorSnapshot) : (FloorOp.transition floor .free).run current =
      if current = floor then .ok floor.freed else .error current := by
  have held := wellFormed.free_iff
  have formed : floor.WellFormed := by
    rcases own with rfl | rfl
    · exact wellFormed
    · exact .next wellFormed.peer_le (by simp_all)
  have leaves : floor.state.allows .free = true := by
    rcases own with rfl | rfl <;> simp [receiving, FloorState.allows]
  simp [FloorOp.run, FloorOp.plan, FloorSnapshot.transition, leaves, FloorSnapshot.freed,
    FloorSnapshot.isWellFormed_iff.mpr formed, FloorSnapshot.swapExact]

end

open FloorSystem

/-- In some run of callers on the floor it shows `floor` so many changes after `claim`. -/
def Follows (claim floor : FloorSnapshot) (changes : Nat) : Prop :=
  ∃ (earlier later : FloorSystem Nat) (labels : List (FloorLabel Nat)),
    (floorLts Nat).Reachable earlier ∧ (floorLts Nat).Run earlier labels later ∧
    FloorSnapshot.unpack earlier.word = some claim ∧ FloorSnapshot.unpack later.word = some floor ∧
    later.changes = earlier.changes + changes

theorem Follows.counted {changes : Nat} (follows : Follows claim floor changes) :
    ∃ count, claim.generation = generationAfter count ∧
      floor.generation = generationAfter (count + changes) := by
  obtain ⟨earlier, later, labels, reachable, run, before, after, counted⟩ := follows
  obtain ⟨_, sound⟩ := sound_of_reachable reachable
  obtain ⟨_, laterSound⟩ := sound_of_reachable (reachable.extend run)
  rw [sound.unpack] at before
  rw [laterSound.unpack] at after
  cases before
  cases after
  exact ⟨_, sound.generation, counted ▸ laterSound.generation⟩

end Monhop.Transport
