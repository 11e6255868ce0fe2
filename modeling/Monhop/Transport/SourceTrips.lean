import Monhop.Transport.SourceChains

/-! # The pointer's way as chains of moves

Crossings, hops and motion.  What the controller tracks of the pointer, the pushes and the
seams does not show in the view; a crossing shows as a claim and a request, a hop as a
request, and motion on the peer as positions offered to the pacer.
-/

namespace Monhop.Transport

open Monhop.Core Protocol View
open Relation (ReflTransGen)
variable {F : Type} [Scalar F] {call : SourceCall F}
variable {epoch : SessionEpoch} {turn : Turn F}

/-! ## What tracking the pointer leaves alone -/

variable {now : Duration}

namespace SourceController

/-- A controller that differs at most in what it tracks. -/
structure Tracks (source other : SourceController F) : Prop where
  setup : other.toSourceSetup = source.toSourceSetup
  duties : other.toSourceDuties = source.toSourceDuties

omit [Scalar F] in
theorem Tracks.view_with {source other : SourceController F} (tracks : source.Tracks other) :
    ({ turn with source := other } : Turn F).view = ({ turn with source } : Turn F).view := by
  obtain ⟨setup, tracking, duties⟩ := other
  obtain ⟨sameSetup, sameDuties⟩ := tracks
  cases sameSetup
  cases sameDuties
  rfl

omit [Scalar F] in
theorem Tracks.view {other : SourceController F} (tracks : turn.source.Tracks other) :
    ({ turn with source := other } : Turn F).view = turn.view :=
  tracks.view_with

variable (source : SourceController F)

theorem guardedEntryEdge_tracks (id : DisplayId)
    (position : Point F) : source.Tracks (source.guardedEntryEdge id position).2 := by
  unfold guardedEntryEdge
  split
  · exact ⟨rfl, rfl⟩
  · split <;> exact ⟨rfl, rfl⟩

theorem pushBy_tracks (display : DisplayId) (edge : Edge)
    (delta : Point F) (now : Duration) : source.Tracks (source.pushBy display edge delta now).2 :=
  ⟨rfl, rfl⟩

theorem pushTo_tracks (display : DisplayId) (edge : Edge)
    (bounds : LogicalRect F) (previous : Option (Point F)) (sample : Point F) (now : Duration) :
    source.Tracks (source.pushTo display edge bounds previous sample now).2 :=
  ⟨rfl, rfl⟩

end SourceController

variable {position returnPosition : Point F} {target : PointerTarget}
variable {source : PointerTarget} {transition : EdgeTransition F} {motion : Relative F}

namespace Turn

/-! ## Activations -/

theorem flushMotion_of_still (still : turn.source.pacer.waiting = none) :
    turn.flushMotion = (true, turn) := by
  unfold flushMotion MotionPacer.flush
  rw [still]
  rfl

theorem pushInput_of_still (still : turn.source.pacer.waiting = none) (message : Message F)
    (plain : ∀ position, message ≠ .motion (.absolute position)) :
    turn.pushInput message = turn.sendInput message := by
  unfold pushInput
  split
  · exact absurd rfl (plain _)
  · rw [flushMotion_of_still still]

omit [Scalar F] in
theorem nextInputEpoch_get {source : SourceController F}
    (opened : source.nextInputEpoch = some epoch) : epoch.get = source.inputEpoch.get + 1 := by
  unfold SourceController.nextInputEpoch at opened
  split at opened
  · cases opened
  next value following =>
  obtain ⟨-, rfl⟩ := checkedSucc_eq_some.mp following
  have positive : 0 < source.inputEpoch.get + 1 := Nat.succ_pos _
  cases opened
  rfl

omit [Scalar F] in
theorem opening_overflow {view : View F} (alive : view.Alive) (full : view.hasRoom = false)
    (following : epoch.get = view.inputEpoch.get + 1) (display : DisplayId) (crossing : Bool)
    (inputSequence : Nat) (restore : DisplayId) :
    Move call view (View.fail { view.opening display crossing epoch with inputSequence }
      .effectCapacityExceeded restore position) := by
  obtain ⟨inputEpoch, baseEpoch, slot, claim, floor, handover, route⟩ :=
    fail_rest
  have trace : (View.fail { view.opening display crossing epoch with inputSequence }
      .effectCapacityExceeded restore position).trace = view.trace :=
    fail_trace_of_full full
  refine .overflow _ alive full fail_failure trace ?_ baseEpoch slot claim floor handover
    route
  rw [inputEpoch]
  exact following ▸ Nat.le_succ _

/-- The request that opens an epoch goes out, or leaves a failed controller. -/
theorem activate_ends {view : View F} {opened : Turn F} (alive : view.Alive)
    (still : view.waiting = none) {display : DisplayId} {crossing : Bool}
    (following : epoch.get = view.inputEpoch.get + 1)
    (seen : opened.view = view.opening display crossing epoch)
    (leaves : view.Departs call crossing) (translate : Bool) :
    Ends call view (fun view => view.phase = .asking display crossing false)
      (opened.pushInput (.activateDisplayAt display position translate)) := by
  have lives : opened.Alive := isFailed_of_view (by rw [seen]; exact alive)
  have quiet : opened.source.pacer.waiting = none := (congrArg View.waiting seen).trans still
  have first : opened.source.outboundInputSequence = 0 := congrArg inputSequence seen
  rw [pushInput_of_still quiet (.activateDisplayAt display position translate) nofun]
  unfold sendInput
  rw [first]
  show Ends call view _ (pushEffect _ _).2
  unfold pushEffect
  split
  · next room =>
    have sent : (push (opened.update fun source => { source with outboundInputSequence := 1 })
        (.remoteFrame (.new opened.source.inputEpoch 0
          (.activateDisplayAt display position translate)))).view =
        (view.opening display crossing epoch).sendInput
          (.activateDisplayAt display position translate) := by
      rw [push_view, View.push, if_pos (by exact room), ← seen]
      unfold View.sendInput
      rw [view_inputSequence, first]
      rfl
    refine ⟨.single ?_, fun _ => ?_⟩
    · show Move call view (push _ _).view
      rw [sent]
      exact .ask display position translate crossing epoch following alive still leaves
    · show (push _ _).view.phase = _
      rw [sent]
      rfl
  · next full =>
    have same : (opened.update fun source =>
        { source with outboundInputSequence := 0 + 1 }).view =
        { view.opening display crossing epoch with inputSequence := 1 } := by
      rw [← seen]
      rfl
    have full : view.hasRoom = false := by
      have trace : opened.view.trace = view.trace := by rw [seen]; rfl
      rw [← hasRoom_congr trace]
      exact Bool.eq_false_iff.mpr full
    refine ⟨.single ?_, fun lives => absurd lives (fail_dead _ _)⟩
    rw [fail_view (by exact lives), same]
    exact opening_overflow alive full following ..

theorem openEpoch_ends (alive : turn.Alive) (still : turn.view.waiting = none)
    (following : epoch.get = turn.view.inputEpoch.get + 1) (wait : Activation F) (toEdge : Edge)
    (fresh : wait.handover = false) (leaves : turn.view.Departs call (!wait.captureAlreadyRemote)) :
    Ends call turn.view
      (fun view => view.phase = .asking wait.target.display (!wait.captureAlreadyRemote) false)
      (turn.openEpoch epoch wait toEdge) := by
  refine activate_ends alive.seen still following ?_ leaves _
  unfold View.opening
  rw [← fresh]
  rfl

theorem beginRemoteActivation_ends (alive : turn.Alive) {captureAlreadyRemote : Bool}
    (leaves : turn.view.Departs call (!captureAlreadyRemote))
    (target : PointerTarget) (entry : Point F) (toEdge : Edge) (returnTarget : PointerTarget)
    (returnPosition : Point F) :
    Ends call turn.view
      (fun view => view.phase = .asking target.display (!captureAlreadyRemote) false)
      (turn.beginRemoteActivation target entry toEdge returnTarget returnPosition
        captureAlreadyRemote) := by
  unfold beginRemoteActivation
  rcases beginOwnershipTransition_spec turn target with
    ⟨ownershipEpoch, ownership, begun⟩ | ⟨failing, begun, same⟩
  · simp only [begun]
    have same : (turn.update fun source => { source with ownership }).view = turn.view := rfl
    generalize turn.update (fun source => { source with ownership }) = owner at same ⊢
    rw [← same] at leaves ⊢
    have lively : owner.Alive := alive.of_eq same
    split
    · exact ⟨fail_here lively trivial, fun lives => absurd lives (fail_dead _ _)⟩
    next epoch opened =>
    rcases flushMotion_spec lively.seen (View.Apart.refl owner.view) with
      ⟨after, flushed, seen, lives⟩ | ⟨after, flushed, jammed, stopped, moves⟩
    · simp only [flushed]
      have grows : owner.view.Grows after.view := seen ▸ grows_flushed _
      have following : epoch.get = after.view.inputEpoch.get + 1 := by
        rw [grows.inputEpoch]
        exact nextInputEpoch_get opened
      have ends : Ends call after.view _ _ := openEpoch_ends lives
        (by rw [seen, flushed_waiting]) following
        { target, entry, returnTarget, returnPosition, ownershipEpoch, captureAlreadyRemote
          carried := .origin, atButton := none, handover := false } toEdge rfl
        (by rw [seen]; simpa [View.Departs] using leaves)
      have flush : Moves call owner.view after.view :=
        seen ▸ flushed_moves lively.seen
      exact ⟨flush.trans ends.moves, ends.living⟩
    · simp only [flushed]
      exact ⟨moves, fun lives => absurd lives jammed.dead⟩
  · simp only [begun]
    exact ⟨fail_same same alive trivial, fun lives => absurd lives (fail_dead _ _)⟩

/-! ## Crossing -/

omit [Scalar F] in
theorem withState_view {state : State F} (same : state.phase = turn.view.phase) :
    (turn.update fun source => { source with state }).view = turn.view := by
  show { turn.view with phase := state.phase } = _
  rw [same]

omit [Scalar F] in
theorem setLocal_view (home : turn.view.phase = .home) (target : PointerTarget)
    (cursor : Option (Point F)) : (turn.setLocal target cursor).view = turn.view :=
  withState_view home.symm

theorem adoptLocalTarget_moves (alive : turn.Alive) (home : turn.view.phase = .home)
    (target : PointerTarget) (cursor : Point F) :
    Moves call turn.view (turn.adoptLocalTarget target cursor).view := by
  unfold adoptLocalTarget
  rcases beginOwnershipTransition_spec turn target with
    ⟨epoch, ownership, begun⟩ | ⟨failing, begun, same⟩
  · simp only [begun]
    split
    · exact fail_same (by rfl) alive trivial
    next command owner acknowledged =>
    have same : (turn.update fun source =>
        { source with
          ownership := owner, edgePushes := .none, state := .localInput target (some cursor) }).view =
        turn.view := setLocal_view home target (some cursor)
    exact same ▸ .refl
  · simp only [begun]
    exact fail_same same alive trivial

omit [Scalar F] in
theorem pressDeclined_view (turn : Turn F) (source target : DisplayId) :
    (turn.pressDeclined source target).2.view = turn.view := by
  unfold pressDeclined
  split
  · rfl
  · split <;> rfl

theorem claim_names {source floor requesting : FloorSnapshot} {target : FloorState}
    {peer : FloorPeer} (swap : (FloorOp.claim source target peer).run floor = .ok requesting) :
    (FloorOp.claim floor target peer).run floor = .ok requesting := by
  have planned := FloorOp.run_eq_ok swap
  cases claimed : source.claim target peer with
  | none => simp [FloorOp.plan, claimed] at planned
  | some next =>
    simp only [FloorOp.plan, claimed, Option.map_some, Option.some.injEq, Prod.mk.injEq] at planned
    rw [← planned.1] at swap ⊢
    exact swap

theorem requestCrossing_moves (alive : turn.Alive) (home : turn.view.phase = .home)
    (free : turn.view.heldSince = none) :
    Moves call turn.view (turn.requestCrossing source target transition returnPosition).view := by
  have pressed := pressDeclined_view turn source.display target.display
  unfold requestCrossing
  split
  · next after declined =>
    rw [declined] at pressed
    exact pressed ▸ .refl
  next after declined =>
  rw [declined] at pressed
  simp only [floorSnapshot]
  rw [← pressed] at home free ⊢
  have lives : after.Alive := alive.of_eq pressed
  have moves : Moves call after.view after.arrive.arrive.view :=
    (arrive_moves after).trans (arrive_moves after.arrive)
  rcases floorCall_spec after.arrive
      (.claim after.arrive.floor .requesting after.arrive.source.slot) with
    ⟨requesting, swap, called⟩ | ⟨found, called⟩
  · simp only [called]
    have same : ((after.arrive.arrive.swapped requesting).update fun source =>
        { source with floorClaim := some requesting, declined := none }).view =
        after.arrive.arrive.view.swapClaim requesting := rfl
    generalize (after.arrive.arrive.swapped requesting).update (fun source =>
      { source with floorClaim := some requesting, declined := none }) = claimer at same ⊢
    have home : after.arrive.arrive.view.phase = .home := by simpa using home
    have free : after.arrive.arrive.view.heldSince = none := by simpa using free
    have claimed : Moves call after.view claimer.view := by
      rw [same]
      refine moves.tail (.claim requesting lives.arrive.arrive.seen home free ?_)
      rw [view_slot, arrive_source after.arrive]
      exact claim_names swap
    have departs : claimer.view.Departs call (!false) := by
      rw [same]
      exact .inl ⟨home, free, rfl, .inl rfl⟩
    have ends : Ends call claimer.view _ _ := beginRemoteActivation_ends
      (isFailed_of_view (by rw [same]; exact lives.arrive.arrive.seen)) departs
      target transition.entryPoint transition.toEdge source returnPosition
    exact claimed.trans ends.moves
  · simp only [called]
    exact moves

omit [Scalar F] in
theorem localCrossingAllowed_view (turn : Turn F) :
    turn.localCrossingAllowed.2.view = turn.arrive.view := by
  unfold localCrossingAllowed floorSnapshot
  simp only []
  split
  · rfl
  · split <;> rfl

theorem crossSeam_moves (alive : turn.Alive) (home : turn.view.phase = .home) :
    Moves call turn.view (turn.crossSeam source target transition returnPosition).view := by
  unfold crossSeam
  split
  · exact setLocal_view home _ _ ▸ .refl
  next open_ =>
  have free : turn.view.heldSince = none := by
    simp only [Bool.or_eq_true, not_or] at open_
    exact heldSince_view open_.1.1
  have seen := localCrossingAllowed_view turn
  split
  · next after refused =>
    rw [refused] at seen
    exact seen ▸ arrive_moves turn
  next after allowed =>
  rw [allowed] at seen
  have lives : after.Alive := alive.arrive.of_eq seen
  have home : after.view.phase = .home := by rw [seen]; simpa using home
  have free : after.view.heldSince = none := by rw [seen]; simpa using free
  have moves : Moves call turn.view after.view := seen ▸ arrive_moves turn
  split
  · have same : ((after.update fun source => { source with edgePushes := .none }).setLocal source
        (some returnPosition)).view = after.view := setLocal_view home _ _
    exact same ▸ moves
  · exact moves.trans (requestCrossing_moves lives home free)

theorem beginEdgeTransition_moves (alive : turn.Alive) (home : turn.view.phase = .home) :
    Moves call turn.view (turn.beginEdgeTransition source transition).view := by
  unfold beginEdgeTransition
  split
  · exact fail_here alive trivial
  simp only []
  split
  · exact adoptLocalTarget_moves alive home ..
  · split
    · exact fail_here alive trivial
    · exact crossSeam_moves alive home

/-! ## Motion at home -/

theorem noteDeclined_view (current : Point F) : (turn.noteDeclined current).view = turn.view := by
  unfold noteDeclined
  split
  · rfl
  · split <;> rfl

section
variable (alive : turn.Alive)
include alive
variable {cursor : Option (Point F)}
variable {guarded : Option Edge}

theorem pressSeam_moves (home : turn.view.phase = .home) (current anchor : Point F) :
    Moves call turn.view (turn.pressSeam target cursor current anchor guarded now).view := by
  have same := setLocal_view home target (some anchor)
  unfold pressSeam
  simp only []
  generalize turn.setLocal target (some anchor) = settled at same ⊢
  rw [← same] at home ⊢
  have lives : settled.Alive := alive.of_eq same
  split
  · exact fail_here lives trivial
  · exact .refl
  next edge transition linked =>
  split
  · exact .refl
  split
  · exact fail_here lives trivial
  next display found =>
  have tracks := settled.source.pushTo_tracks target.display edge display.bounds cursor current now
  split
  · next source pushed =>
    rw [pushed] at tracks
    exact tracks.view ▸ .refl
  · next beyond source pushed =>
    rw [pushed] at tracks
    have same : ({ settled with source } : Turn F).view = settled.view := tracks.view
    rw [← same] at home ⊢
    exact beginEdgeTransition_moves (lives.of_eq same) home ..

theorem followLocal_moves (home : turn.view.phase = .home)
    (current : Point F) (localTarget : Option PointerTarget) :
    Moves call turn.view (turn.followLocal target cursor current localTarget guarded now).view := by
  unfold followLocal
  simp only []
  split
  · exact fail_here alive trivial
  · split
    · exact beginEdgeTransition_moves alive home ..
    · exact pressSeam_moves alive home ..

theorem applyLocalMotion_moves {current : Point F} :
    Moves call turn.view (turn.applyLocalMotion current now).view := by
  unfold applyLocalMotion
  split
  · next target cursor state =>
    have home : turn.view.phase = .home := by rw [view_phase, state]; rfl
    have same := (noteDeclined_view current).trans
      (turn.source.guardedEntryEdge_tracks target.display current).view
    simp only []
    generalize noteDeclined _ current = noted at same ⊢
    rw [← same] at home ⊢
    have lives : noted.Alive := alive.of_eq same
    split
    · exact fail_here lives trivial
    · split
      · exact adoptLocalTarget_moves lives home ..
      · exact followLocal_moves lives home ..
  · exact .refl

theorem pushLocal_moves (home : turn.view.phase = .home) (anchor : Point F) :
    Moves call turn.view (turn.pushLocal target anchor motion now).view := by
  have ended : (turn.endInward target.display motion.delta).view = turn.view := rfl
  unfold pushLocal
  simp only []
  generalize turn.endInward target.display motion.delta = inward at ended ⊢
  have same := (inward.source.guardedEntryEdge_tracks target.display anchor).view
  generalize inward.source.guardedEntryEdge target.display anchor = guard at same ⊢
  rw [← same] at ended
  rw [← ended] at home ⊢
  have lives : ({ inward with source := guard.2 } : Turn F).Alive :=
    alive.of_eq ended
  split
  · exact fail_here lives trivial
  · exact .refl
  next edge transition linked =>
  split
  · exact beginEdgeTransition_moves lives home ..
  have tracks := guard.2.pushBy_tracks target.display edge motion.delta now
  split
  · next source pushed =>
    rw [pushed] at tracks
    have same : ({ inward with source } : Turn F).view =
      ({ inward with source := guard.2 } : Turn F).view := tracks.view_with
    exact same ▸ .refl
  · next beyond source pushed =>
    rw [pushed] at tracks
    have same : ({ inward with source } : Turn F).view =
      ({ inward with source := guard.2 } : Turn F).view := tracks.view_with
    rw [← same] at home ⊢
    exact beginEdgeTransition_moves (lives.of_eq same) home ..

theorem applyLocalRelative_moves :
    Moves call turn.view (turn.applyLocalRelative motion now).view := by
  have same : (turn.heads motion now).view = turn.view := rfl
  unfold applyLocalRelative
  simp only []
  split
  · next target anchor state =>
    have home : (turn.heads motion now).view.phase = .home := congrArg State.phase state
    have lives : (turn.heads motion now).Alive := alive
    exact pushLocal_moves lives home ..
  · exact .refl

end

/-! ## Motion on the peer -/

theorem applyRemoteEdge_moves (alive : turn.Alive) (away : turn.view.phase = .away)
    (leaving returnTarget : PointerTarget) :
    Moves call turn.view
      (turn.applyRemoteEdge leaving returnTarget returnPosition transition).view := by
  unfold applyRemoteEdge
  split
  · exact fail_here alive trivial
  simp only []
  split
  · exact (beginReturnTo_moves alive (.inl away) ..).1
  split
  · exact (beginRemoteActivation_ends alive (.inr ⟨away, rfl⟩) ..).moves
  · split
    · exact (beginReturnTo_moves alive (.inl away) ..).1
    · exact fail_here alive trivial

omit [Scalar F] in
theorem carryHop_view (turn : Turn F) (carried : Point F) :
    (turn.carryHop carried).view = turn.view := by
  unfold carryHop
  split
  · next wait state => exact withState_view (congrArg State.phase state).symm
  · rfl

section
variable (alive : turn.Alive)
include alive
variable {stay : RemoteStay F}

theorem moveRemote_moves (away : turn.view.phase = .away) (next : Point F) :
    Moves call turn.view (turn.moveRemote stay next).view := by
  refine sendMoved_away ?_ (by exact alive) rfl _ _ _
  have same : (({ turn with
      source := turn.source.endUntouched stay.target.display next } : Turn F).update fun source =>
      { source with state := .remote { stay with position := next } }).view = turn.view := by
    show { turn.view with phase := .away } = _
    rw [← away]
  exact same ▸ .refl

theorem pushRemote_moves (away : turn.view.phase = .away)
    (next : Point F) (seam : Option (Edge × EdgeTransition F)) :
    Moves call turn.view (turn.pushRemote stay next seam motion now).view := by
  unfold pushRemote
  split
  · exact moveRemote_moves alive away ..
  next edge transition =>
  have tracks := turn.source.pushBy_tracks stay.target.display edge motion.delta now
  split
  · next source pushed =>
    rw [pushed] at tracks
    have same : ({ turn with source } : Turn F).view = turn.view := tracks.view
    rw [← same] at away ⊢
    exact moveRemote_moves (alive.of_eq same) away ..
  · next beyond source pushed =>
    rw [pushed] at tracks
    have same : ({ turn with source } : Turn F).view = turn.view := tracks.view
    rw [← same] at away ⊢
    exact applyRemoteEdge_moves (alive.of_eq same) away ..

theorem followRemote_moves (away : turn.view.phase = .away)
    (display : Display F) (desired : Point F) :
    Moves call turn.view (turn.followRemote stay display desired motion now).view := by
  unfold followRemote
  simp only []
  have same := (turn.source.guardedEntryEdge_tracks stay.target.display stay.position).view
  generalize turn.source.guardedEntryEdge stay.target.display stay.position = guard at same ⊢
  rw [← same] at away ⊢
  have lives : ({ turn with source := guard.2 } : Turn F).Alive :=
    alive.of_eq same
  split
  · exact fail_here lives trivial
  · split
    · rw [carryHop_view]
      exact applyRemoteEdge_moves lives away ..
    · exact pushRemote_moves lives away ..

theorem applyRemoteMotion_moves (motion : Relative F)
    (now : Duration) : Moves call turn.view (turn.applyRemoteMotion motion now).view := by
  have same : (turn.heads motion now).view = turn.view := rfl
  unfold applyRemoteMotion
  split
  · next stay state =>
    have away : (turn.heads motion now).view.phase = .away := congrArg State.phase state
    have lives : (turn.heads motion now).Alive := alive
    simp only []
    rw [← same]
    split
    · exact fail_here lives trivial
    · split
      · exact fail_here lives trivial
      · exact followRemote_moves lives away ..
  · exact .refl

end

omit [Scalar F] in
theorem carryPending_view [Scalar F] (turn : Turn F) (motion : Relative F) :
    ({ turn with source := (turn.source.carryPending motion).2 } : Turn F).view = turn.view := by
  unfold SourceController.carryPending
  split
  · next wait state => exact withState_view (congrArg State.phase state).symm
  · next wait state => exact withState_view (congrArg State.phase state).symm
  · next wait state =>
    split
    · rfl
    · exact withState_view (congrArg State.phase state).symm
  · rfl

end Turn
end Monhop.Transport
