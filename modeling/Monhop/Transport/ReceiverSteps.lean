import Monhop.Transport.Receiver

/-! # What the receiver's parts leave alone

Most parts of the receiver only let other threads act, post actions and keep books; they
leave alone what its safety depends on (`SameCore`).  A trail that covers those steps is
followed by every such part, so what a run of the receiver keeps is proved from the few
parts that do more.
-/

namespace Monhop.Transport

open Monhop.Core Protocol Session
open Library (Program Trail)
open Library.Program
variable {F : Type}

section
variable (first second : InputReceiver F)

/-- Two states of a receiver that agree on its claim. -/
structure SameClaim : Prop where
  floorGeneration : second.floorGeneration = first.floorGeneration
  slot : second.slot = first.slot
  shared : second.shared = first.shared

/-- Two states of a receiver that agree on its activation. -/
structure SameRest : Prop where
  shared : second.shared = first.shared
  active : second.active = first.active
  pendingMove : second.pendingMove = first.pendingMove

/-- Two states of a receiver that agree on its activation and its cleanup. -/
structure SameActivity : Prop extends SameRest first second where
  failure : second.failure = first.failure
  cleanupPending : second.cleanupPending = first.cleanupPending
  heldSince : second.heldSince = first.heldSince

/-- Two states of a receiver that agree on its claim, its activation and its cleanup. -/
structure SameCore : Prop extends SameClaim first second, SameActivity first second where
  yielding : second.yielding = first.yielding

end

namespace Session

/-! ## Reading and writing the receiver -/

variable {Value : Type} {session : Session F} {post : Except ReceiverFailure Value → Session F → Prop}

theorem ensures_receiverState {rest : InputReceiver F → ReceiverProgram F Value} :
    (receiverState >>= rest).Ensures session post ↔ (rest session.receiver).Ensures session post :=
  Iff.rfl

theorem update_returns (change : InputReceiver F → InputReceiver F) (session : Session F) :
    (update change).Returns session fun _ after =>
      after.port = session.port ∧ after.world = session.world ∧
        after.receiver = change session.receiver :=
  ⟨(), rfl, rfl, rfl, rfl⟩

end Session

theorem snapshot_returns {session : Session F} :
    Session.snapshot.Returns session fun floor after =>
      after = { session with world := session.world.advance.2 } ∧ floor = after.world.gate.floor :=
  ⟨_, rfl, rfl, rfl⟩

/-- What `SameCore` is about, and the gestures a receiver has open. -/
def InputReceiver.books (receiver : InputReceiver F) :=
  (receiver.floorGeneration, receiver.slot, receiver.shared, receiver.yielding, receiver.active,
    receiver.pendingMove, receiver.failure, receiver.cleanupPending, receiver.heldSince,
    receiver.openMagnify, receiver.openRotate)

theorem SameCore.of_books {first second : InputReceiver F} (same : second.books = first.books) :
    SameCore first second := by
  simp only [InputReceiver.books, Prod.mk.injEq] at same
  repeat' constructor
  all_goals simp only [same]

/-- A gesture, or the end of all of them. -/
def DestinationAction.touches : DestinationAction F → Bool
  | .gesture _ | .endGestures => true
  | _ => false

/-- A trail that every access, allowed action and update of other fields stays on. -/
structure Books (trail : Trail (Session F)) (allowed : DestinationAction F → Prop) : Prop where
  access : Moves trail Session.access
  gate : ∀ change : TakeBackGate → TakeBackGate, (∀ gate, (change gate).floor = gate.floor) →
    Moves trail (updateGate change)
  keep : ∀ change : InputReceiver F → InputReceiver F,
    (∀ receiver, (change receiver).books = receiver.books) → Moves trail (Session.update change)
  apply : ∀ action, allowed action → Moves trail (Session.apply action)

/-- A trail that also stays with what a receiver notes about its gestures. -/
structure Covers (trail : Trail (Session F)) (allowed : DestinationAction F → Prop) : Prop
    extends Books trail allowed where
  bookkeep : ∀ change : InputReceiver F → InputReceiver F,
    (∀ receiver, SameCore receiver (change receiver)) → Moves trail (Session.update change)

namespace Books

open Session
variable {trail : Trail (Session F)} {allowed : DestinationAction F → Prop}

theorem receiverState : Moves trail (receiverState : ReceiverProgram F _) :=
  moves_get.bind fun _ => moves_pure

theorem snapshot (books : Books trail allowed) : Moves trail (snapshot : ReceiverProgram F _) :=
  books.access.bind fun _ => moves_get.bind fun _ => moves_pure

theorem retries : Moves trail (retries : ReceiverProgram F _) :=
  moves_get.bind fun _ => moves_pure

section
variable (books : Books trail allowed)
include books

theorem suppressInjection : Moves trail (suppressInjection : ReceiverProgram F _) :=
  receiverState.bind fun _ => .ite (fun _ => moves_pure) fun _ =>
    books.snapshot.bind fun _ => moves_pure

theorem ownsNative : Moves trail (ownsNative : ReceiverProgram F _) :=
  receiverState.bind fun _ => .ite (fun _ => moves_pure) fun _ =>
    books.snapshot.bind fun _ => moves_pure

theorem mayRelease : Moves trail (mayRelease : ReceiverProgram F _) :=
  books.snapshot.bind fun _ => receiverState.bind fun _ => moves_pure

theorem openInjection (generation : Nat) :
    Moves trail (updateGate fun gate => gate.openInjection generation : ReceiverProgram F _) :=
  books.gate _ fun _ => rfl

theorem noteInjectedReleased :
    Moves trail (updateGate TakeBackGate.noteInjectedReleased : ReceiverProgram F _) :=
  books.gate _ fun _ => rfl

theorem deliver {action : DestinationAction F}
    (may : allowed action) : Moves trail (deliver action) :=
  (books.apply action may).bind fun _ => .ite (fun _ => moves_throw _) fun _ => moves_pure

theorem deliverKeys {steps : List KeyStep}
    (may : ∀ step ∈ steps, allowed (.key step.usage step.pressed)) :
    Moves trail (deliverKeys steps) := by
  induction steps with
  | nil => exact moves_pure
  | cons step steps ih =>
    refine (books.deliver (may step List.mem_cons_self)).bind fun _ => ?_
    exact ih fun later member => may later (List.mem_cons_of_mem _ member)

end

/-! ## The floor -/

theorem releaseInbound (swaps : ∀ operation, Moves trail (swap operation)) (generation fuel : Nat)
    (current : FloorSnapshot) :
    Moves trail (releaseInbound generation fuel current : ReceiverProgram F _) := by
  induction fuel generalizing current with
  | zero => exact moves_pure
  | succ fuel ih =>
    refine .ite (fun _ => moves_pure) fun _ => (swaps _).bind fun swapped => ?_
    cases swapped with
    | ok floor => exact moves_pure
    | error changed => exact ih changed

section
variable (books : Books trail allowed) (swaps : ∀ operation, Moves trail (swap operation))
include books swaps

theorem releaseFloor
    (drops : Moves trail (update fun receiver => { receiver with floorGeneration := none }))
    (yields : Moves trail (update fun receiver => { receiver with yielding := false })) :
    Moves trail (releaseFloor : ReceiverProgram F _) := by
  have claims : ∀ claim, Moves trail (releaseClaim claim) := by
    intro claim
    cases claim with
    | none => exact moves_pure
    | some generation =>
      exact drops.bind fun _ => books.snapshot.bind fun _ => retries.bind fun _ =>
        releaseInbound swaps generation _ _
  exact receiverState.bind fun _ => (claims _).bind fun _ => yields

variable (notes : ∀ generation, Moves trail (update fun receiver =>
  { receiver with floorGeneration := some generation }))
include notes

theorem admitLoop (fuel : Nat) :
    Moves trail (admitLoop fuel : ReceiverProgram F _) := by
  induction fuel with
  | zero => exact moves_pure
  | succ fuel ih =>
    refine books.snapshot.bind fun floor => receiverState.bind fun receiver => ?_
    split
    · exact moves_pure
    have claims : Moves trail (claimFloor floor) := receiverState.bind fun _ => swaps _
    refine claims.bind fun claimed => ?_
    cases claimed with
    | ok receiving =>
      exact (notes _).bind fun _ => (books.openInjection _).bind fun _ => moves_pure
    | error current => exact .ite (fun _ => moves_pure) fun _ => ih

theorem admitActivation : Moves trail (admitActivation : ReceiverProgram F _) :=
  receiverState.bind fun _ => .ite (fun _ => moves_pure) fun _ =>
    retries.bind fun _ => books.admitLoop swaps notes _

end

/-! ## Frames -/

section
variable (books : Books trail allowed)
include books

theorem limitRate (now : Duration) : Moves trail (limitRate now : ReceiverProgram F _) := by
  refine receiverState.bind fun receiver => ?_
  refine (books.keep _ fun _ => by rfl).bind fun _ => ?_
  split
  · exact moves_pure
  · exact moves_throw _

theorem setHealth {health : PeerHealth} :
    Moves trail (update fun receiver => { receiver with health } : ReceiverProgram F _) :=
  books.keep _ fun _ => by rfl

theorem receivePong (held : Bool) (token : Nat) (now : Duration) :
    Moves trail (receivePong held token now : ReceiverProgram F _) := by
  refine receiverState.bind fun receiver => ?_
  refine (books.setHealth).bind fun _ => ?_
  split
  · exact moves_pure
  · exact moves_throw _

theorem receiveHeartbeat (held : Bool) (frame : Frame F)
    (now : Duration) : Moves trail (receiveHeartbeat held frame now) := by
  refine receiverState.bind fun receiver => (books.keep _ fun _ => by rfl).bind fun _ => ?_
  split
  · exact moves_pure
  split
  · exact moves_pure
  · exact (books.receivePong held _ now).bind fun _ => moves_pure
  · exact moves_pure

theorem admitSequence [Scalar F] (frame : Frame F) : Moves trail (admitSequence frame) := by
  refine receiverState.bind fun receiver => .ite (fun _ => .ite ?_ ?_) fun _ => ?_
  · exact fun _ => moves_pure
  · exact fun _ => moves_throw _
  · refine (books.keep _ fun _ => by rfl).bind fun _ => ?_
    split
    · exact .ite (fun _ => moves_pure) fun _ => moves_throw _
    · exact moves_pure

theorem admitEpoch [Scalar F] (frame : Frame F)
    (displayId : DisplayId) (position : Point F) (controlAsCommand : Bool) :
    Moves trail (admitEpoch frame displayId position controlAsCommand) := by
  refine receiverState.bind fun receiver => .ite (fun _ => moves_throw _) fun _ => ?_
  split
  · exact moves_throw _
  refine (books.keep _ fun _ => by rfl).bind fun _ => ?_
  split
  · exact moves_throw _
  refine (books.keep _ fun _ => by rfl).bind fun _ => ?_
  split
  · exact moves_throw _
  · exact books.keep _ fun _ => by rfl

end

theorem requireActive [Scalar F] : Moves trail (requireActive : ReceiverProgram F _) := by
  refine receiverState.bind fun receiver => ?_
  split
  · exact moves_throw _
  · exact moves_pure

/-! ## Injected input -/

section Injection
variable [Scalar F] (books : Books trail allowed)
  (may : ∀ action : DestinationAction F, action.touches = false → allowed action)
include books may

omit [Scalar F] in
theorem injectKey (key : Key) : Moves trail (injectKey key : ReceiverProgram F _) :=
  receiverState.bind fun _ => (books.keep _ fun _ => by rfl).bind fun _ =>
    books.deliverKeys fun _ _ => may _ rfl

theorem receiveKey (key : Key) : Moves trail (receiveKey key : ReceiverProgram F _) := by
  refine requireActive.bind fun _ => receiverState.bind fun receiver => ?_
  refine .ite (fun _ => moves_throw _) fun _ => .ite (fun _ => moves_throw _) fun _ => ?_
  refine (books.keep _ fun _ => by rfl).bind fun _ => receiverState.bind fun receiver => ?_
  refine .ite (fun _ => moves_throw _) fun _ => books.suppressInjection.bind fun _ => ?_
  exact .runIf fun _ => books.injectKey may key

omit [Scalar F] in
theorem injectClick : Moves trail (injectClick : ReceiverProgram F _) :=
  receiverState.bind fun _ => (books.keep _ fun _ => by rfl).bind fun _ =>
    books.deliverKeys fun _ _ => may _ rfl

omit [Scalar F] in
theorem injectButton (button : Button) : Moves trail (injectButton button : ReceiverProgram F _) :=
  (Moves.runIf fun _ => books.injectClick may).bind fun _ => books.deliver (may _ rfl)

theorem receiveButton (button : Button) :
    Moves trail (receiveButton button : ReceiverProgram F _) := by
  refine requireActive.bind fun _ => receiverState.bind fun receiver => ?_
  refine .ite (fun _ => moves_throw _) fun _ => books.suppressInjection.bind fun _ => ?_
  exact (Moves.runIf fun _ => books.injectButton may button).bind fun _ => books.keep _ fun _ => by rfl

theorem receiveScroll (scroll : Scroll F) : Moves trail (receiveScroll scroll) := by
  refine requireActive.bind fun _ => .ite (fun _ => moves_throw _) fun _ => ?_
  exact books.suppressInjection.bind fun _ => .runIf fun _ => books.deliver (may _ rfl)

theorem receiveSystemGesture (gesture : SystemGesture) :
    Moves trail (receiveSystemGesture gesture : ReceiverProgram F _) :=
  requireActive.bind fun _ => books.suppressInjection.bind fun _ =>
    .runIf fun _ => books.deliver (may _ rfl)

end Injection
end Books

namespace Covers

open Session Books
variable {trail : Trail (Session F)} {allowed : DestinationAction F → Prop}

theorem releaseInjected (covers : Covers trail allowed)
    (may : ∀ action : DestinationAction F, action.isRelease = true → allowed action) :
    Moves trail (releaseInjected : ReceiverProgram F _) := by
  refine (covers.bookkeep _ fun _ => by repeat' constructor).bind ?_
  intro _
  exact (covers.apply _ (may _ rfl)).bind fun _ => (covers.apply _ (may _ rfl)).bind fun _ =>
    moves_pure

section Gestures
variable [Scalar F] (covers : Covers trail allowed)
  (may : ∀ action : DestinationAction F, allowed action)
include covers may
variable (gesture : PointerGesture F)

theorem repairPhase (repair : Option GesturePhase) : Moves trail (repairPhase gesture repair) := by
  cases repair with
  | none => exact moves_pure
  | some boundary => exact (covers.keep normalize fun _ => rfl).bind fun _ => covers.deliver (may _)

theorem applyPhase (phase : GesturePhase)
    (isOpen : InputReceiver F → Bool) (setOpen : Bool → InputReceiver F → InputReceiver F)
    (books : ∀ value receiver, SameCore receiver (setOpen value receiver)) :
    Moves trail (applyPhase gesture phase isOpen setOpen) := by
  refine receiverState.bind fun receiver => ?_
  split
  · exact covers.keep normalize fun _ => rfl
  · exact (covers.repairPhase may gesture _).bind fun _ =>
      (covers.bookkeep _ (books _)).bind fun _ => covers.deliver (may _)

theorem applyGesture : Moves trail (applyGesture gesture) := by
  cases gesture with
  | magnify | rotate =>
    simp only [applyGesture]
    apply covers.applyPhase may
    intro value receiver
    repeat' constructor
  | smartMagnify | forceClick => exact covers.deliver (may _)

theorem receiveGesture (now : Duration) : Moves trail (receiveGesture gesture now) := by
  refine requireActive.bind fun _ => ?_
  split
  · exact moves_throw _
  · exact (covers.keep _ fun _ => by rfl).bind fun _ => covers.suppressInjection.bind fun _ =>
      .runIf fun _ => covers.applyGesture may gesture

end Gestures
end Covers

/-! ## Ending control -/

/-- A trail that also stays with the parts that end control. -/
structure Ends (trail : Trail (Session F)) (allowed : DestinationAction F → Prop) : Prop
    extends Books trail allowed where
  retryCleanup : Moves trail retryCleanup
  stop : ∀ failure, Moves trail (Session.stop failure)
  hold : ∀ now, Moves trail (Session.hold now)
  endIdleGestures : ∀ now, Moves trail (endIdleGestures now)
  applyPendingMove : Moves trail applyPendingMove

theorem moves_stopWith {trail : Trail (Session F)} {Value : Type} {failure : ReceiverFailure}
    (stops : Moves trail (Session.stop failure)) :
    Moves trail (stopWith failure : ReceiverProgram F Value) :=
  stops.bind fun _ => moves_throw _

namespace Ends

open Session
variable {trail : Trail (Session F)} {allowed : DestinationAction F → Prop}
  (ends : Ends trail allowed)
include ends

theorem flush : Moves trail (flush : ReceiverProgram F _) := by
  refine Books.receiverState.bind fun receiver => ?_
  split
  · exact moves_throw _
  · exact ends.applyPendingMove.tryCatch fun _ => moves_stopWith (ends.stop _)

theorem tick (now : Duration) : Moves trail (tick now : ReceiverProgram F _) := by
  refine Books.receiverState.bind fun receiver => ?_
  split
  · exact ends.retryCleanup.bind fun _ => moves_throw _
  · refine .ite (fun _ => moves_stopWith (ends.stop _)) fun _ => ends.retryCleanup.bind fun _ => ?_
    refine Books.receiverState.bind fun receiver => (ends.setHealth).bind fun _ => ?_
    split
    · exact moves_pure
    · exact moves_stopWith (ends.stop _)
  · refine (ends.endIdleGestures now).bind fun _ => Books.receiverState.bind fun receiver => ?_
    refine (ends.setHealth).bind fun _ => ?_
    split
    · exact moves_pure
    · exact (ends.hold now).bind fun _ => moves_pure
    · exact moves_stopWith (ends.stop _)

theorem detectHold (now : Duration) : Moves trail (detectHold now : ReceiverProgram F _) := by
  refine Books.receiverState.bind fun receiver => .ite (fun _ => moves_pure) fun _ => ?_
  refine (ends.setHealth).bind fun _ => ?_
  split
  · exact moves_pure
  · exact .ite (fun _ => moves_throw _) fun _ => (ends.hold now).bind fun _ => moves_pure

end Ends

/-- A trail that also stays with the parts that inject input. -/
structure Handles [Scalar F] (trail : Trail (Session F)) : Prop where
  covers : Covers trail fun action => action.isRelease = true
  retryCleanup : Moves trail retryCleanup
  stop : ∀ failure, Moves trail (Session.stop failure)
  hold : ∀ now, Moves trail (Session.hold now)
  applyPendingMove : Moves trail applyPendingMove
  receiveRelease : ∀ held now, Moves trail (receiveRelease held now)
  receiveInput : ∀ message now, Moves trail (receiveInput message now)

namespace Handles

open Session
variable [Scalar F] {trail : Trail (Session F)} (handles : Handles trail)
include handles

theorem ends : Ends trail fun action => action.isRelease = true where
  toBooks := handles.covers.toBooks
  retryCleanup := handles.retryCleanup
  stop := handles.stop
  hold := handles.hold
  applyPendingMove := handles.applyPendingMove
  endIdleGestures now := by
    refine Books.receiverState.bind fun receiver => .ite (fun _ => ?_) fun _ => moves_pure
    refine (handles.covers.bookkeep _ fun _ => by repeat' constructor).bind fun _ => ?_
    refine handles.covers.mayRelease.bind fun _ => .ite (fun _ => moves_pure) fun _ => ?_
    exact (handles.covers.deliver rfl).tryCatch fun _ => moves_stopWith (handles.stop _)

theorem receiveSequenced (held : Bool) (frame : Frame F) (now : Duration) :
    Moves trail (receiveSequenced held frame now) := by
  refine (handles.covers.admitSequence frame).bind fun admitted => ?_
  refine .ite (fun _ => moves_pure) fun _ => ?_
  refine (Moves.runIf fun _ => handles.applyPendingMove).bind fun _ => ?_
  unfold receiveMessage
  split
  · exact handles.receiveRelease held now
  · exact moves_throw _
  · exact moves_throw _
  · exact .ite (fun _ => moves_pure) fun _ =>
      (handles.receiveInput _ now).bind fun _ => moves_pure

end Handles

/-- The claim, and the gestures a receiver has open. -/
def InputReceiver.grip (receiver : InputReceiver F) :=
  (receiver.floorGeneration, receiver.slot, receiver.shared, receiver.openMagnify,
    receiver.openRotate)

theorem InputReceiver.grip_of_books {first second : InputReceiver F}
    (same : second.books = first.books) : second.grip = first.grip := by
  simp only [books, Prod.mk.injEq] at same
  simp only [grip, same]

/-- A trail of what a receiver has its hands on: it stays with every update of other fields,
with releases and with activations. -/
structure Grips (trail : Trail (Session F)) : Prop where
  access : Moves trail Session.access
  gate : ∀ change : TakeBackGate → TakeBackGate, (∀ gate, (change gate).floor = gate.floor) →
    Moves trail (updateGate change)
  update : ∀ change : InputReceiver F → InputReceiver F,
    (∀ receiver, (change receiver).grip = receiver.grip) → Moves trail (Session.update change)
  apply : ∀ action : DestinationAction F, action.touches = false → Moves trail (Session.apply action)
  releaseInjected : Moves trail releaseInjected
  retryCleanup : Moves trail retryCleanup
  releaseControl : Moves trail releaseControl
  admitActivation : Moves trail admitActivation
  /-- A take-back's yielding floor is noted by the receiver that holds it. -/
  noteYield : ∀ (generation : Nat) (session : Session F) (floor : FloorSnapshot),
    session.world.gate.floor = floor → session.receiver.holds floor = true →
      floor.state = .yielding → floor.generation = generation →
        trail.holds session { session with receiver :=
          { session.receiver with
            floorGeneration := some generation, yielding := true, pendingMove := none } }

namespace Grips

open Session
variable {trail : Trail (Session F)} (grips : Grips trail)
include grips

theorem books : Books trail fun action => action.touches = false where
  access := grips.access
  gate := grips.gate
  keep change same := grips.update change fun receiver => InputReceiver.grip_of_books (same receiver)
  apply := grips.apply

theorem quiesce : Moves trail (quiesce : ReceiverProgram F _) := by
  refine grips.books.ownsNative.bind fun owns => ?_
  refine (Moves.runIf fun _ => grips.books.openInjection 0).bind fun _ => ?_
  exact (grips.update _ fun _ => by rfl).bind fun _ => grips.retryCleanup

theorem stop (failure : ReceiverFailure) : Moves trail (stop failure : ReceiverProgram F _) :=
  Books.receiverState.bind fun _ => (grips.update _ fun _ => by rfl).bind fun _ =>
    grips.quiesce.bind fun _ => moves_pure

theorem hold (now : Duration) : Moves trail (hold now : ReceiverProgram F _) := by
  refine grips.quiesce.bind fun _ => Books.receiverState.bind fun receiver => ?_
  refine (grips.books.setHealth).bind fun _ => ?_
  split
  · exact moves_stopWith (grips.stop _)
  · exact grips.update _ fun _ => by rfl

theorem endHold (now : Duration) : Moves trail (endHold now : ReceiverProgram F _) := by
  refine (grips.update _ fun _ => by rfl).bind fun _ => ?_
  refine (grips.update _ fun receiver => ?_).bind fun _ => Books.receiverState.bind
    fun receiver => (grips.books.setHealth).bind fun _ => ?_
  · cases receiver.heldSince <;> rfl
  · split
    · exact moves_throw _
    · exact moves_pure

theorem receiveRelease (held : Bool) (now : Duration) :
    Moves trail (receiveRelease held now : ReceiverProgram F _) := by
  refine grips.books.ownsNative.bind fun owns => Books.receiverState.bind fun receiver => ?_
  refine (Moves.runIf fun _ => grips.books.openInjection 0).bind fun _ => ?_
  refine grips.releaseControl.bind fun _ => (grips.update _ fun _ => by rfl).bind fun _ => ?_
  exact (Moves.runIf fun _ => grips.endHold now).bind fun _ => moves_pure

theorem applyPendingMove : Moves trail (applyPendingMove : ReceiverProgram F _) := by
  refine grips.books.suppressInjection.bind fun _ => .ite (fun _ => ?_) fun _ => ?_
  · exact grips.update _ fun _ => by rfl
  · refine Books.receiverState.bind fun receiver => ?_
    split
    · exact moves_pure
    · exact (grips.books.deliver rfl).bind fun _ => grips.update _ fun _ => by rfl

theorem yieldToLocal (generation : Nat) :
    Moves trail (yieldToLocal generation : ReceiverProgram F _) := by
  intro session
  show (Session.yieldToLocal generation).Ensures session fun _ after => trail.holds session after
  refine (snapshot_returns).bind ?_
  rintro floor looked ⟨rfl, rfl⟩
  have moved : trail.holds session { session with world := session.world.advance.2 } :=
    grips.access session
  refine ensures_receiverState.mpr ?_
  split
  · exact moved
  next answered =>
  simp only [Bool.or_eq_true, Bool.not_eq_true', bne_iff_ne, ne_eq, not_or, Bool.not_eq_false,
    Decidable.not_not] at answered
  obtain ⟨⟨held, yielding⟩, same⟩ := answered
  have noted := grips.noteYield generation { session with world := session.world.advance.2 } _
    rfl held yielding same
  have rest : Moves trail (Session.releaseInjected >>= fun released =>
      if !released then Session.stopWith .nativeDelivery
      else updateGate TakeBackGate.noteInjectedReleased >>= fun _ =>
        pure (some .takeBack) : ReceiverProgram F (Option (Message F))) := by
    refine grips.releaseInjected.bind fun released => .ite (fun _ => ?_) fun _ => ?_
    · exact moves_stopWith (grips.stop _)
    · exact grips.books.noteInjectedReleased.bind fun _ => moves_pure
  exact trail.trans moved (trail.trans noted (rest _))

variable [Scalar F]

theorem receiveActivation (held : Bool) (frame : Frame F) (displayId : DisplayId)
    (position : Point F) (controlAsCommand : Bool) :
    Moves trail (receiveActivation held frame displayId position controlAsCommand) := by
  refine (grips.books.admitEpoch frame displayId position controlAsCommand).bind fun _ =>
    .ite (fun _ => moves_pure) fun _ => grips.admitActivation.bind fun declined => ?_
  cases declined with
  | some reason => exact moves_pure
  | none =>
    refine (grips.update _ fun _ => by rfl).bind fun _ => grips.books.suppressInjection.bind
      fun suppressed => (Moves.runIf fun _ => grips.books.deliver rfl).bind fun _ => ?_
    exact (grips.update _ fun _ => by rfl).bind fun _ => moves_pure

/-- Every message but a gesture. -/
theorem receiveInput (message : Message F) (now : Duration)
    (gestures : ∀ gesture, message = .gesture gesture → Moves trail (receiveGesture gesture now)) :
    Moves trail (receiveInput message now) := by
  have may : ∀ action : DestinationAction F, action.touches = false → action.touches = false :=
    fun _ => id
  cases message with
  | key key => exact grips.books.receiveKey may key
  | button button => exact grips.books.receiveButton may button
  | scroll scroll => exact grips.books.receiveScroll may scroll
  | gesture gesture => exact gestures gesture rfl
  | systemGesture gesture => exact grips.books.receiveSystemGesture may gesture
  | motion motion =>
    refine Books.requireActive.bind fun active => Books.receiverState.bind fun receiver => ?_
    split
    · exact moves_throw _
    · exact grips.update _ fun _ => by rfl
  | _ => exact moves_throw _

end Grips
end Monhop.Transport
