import Monhop.Core.CapturePhysical
import Monhop.Library.Transition

/-! # Runs of the capture callback

The steps one `PhysicalCapture` and its queue take: physical events and ticks, handoffs
whose successful injections are reported back, input found held at start and later found
up, barriers pushed by the native adapter, and what other threads do in between (they
change the take-back gate, stop capture, and consume the queue).
-/

namespace Monhop.Core

open List Function PhysicalCapture

def LocalTransfer.input : LocalTransfer → HeldInput
  | .key usage _ => .key usage
  | .button mouse _ => .button mouse

def LocalTransfer.pressed : LocalTransfer → Bool
  | .key _ pressed | .button _ pressed => pressed

/-- The key or button an event presses or releases. -/
def CaptureEvent.input {F : Type} : CaptureEvent F → Option (HeldInput × Bool)
  | .key usage pressed _ _ => some (.key usage, pressed)
  | .button mouse pressed _ => some (.button mouse, pressed)
  | _ => none

inductive CaptureLabel (F : Type) where
  | process (event : CaptureEvent F) (travel : Option (F × F)) (remote : Bool) (now : Duration)
  | tick (now : Duration)
  /-- The injections of a handoff plan that succeeded. -/
  | handoff (remote : Bool) (done : List LocalTransfer)
  | releaseInjected (done : List LocalTransfer)
  /-- The system reports the input down to local applications. -/
  | seed (held : HeldInput)
  /-- The system reads the input as up. -/
  | forget (held : HeldInput)
  | setRoutingRevision (revision : Nat)
  | barrier (remote : Bool) (revision floorGeneration : Nat)
  /-- Other threads change the shared gate. -/
  | gate (gate : TakeBackGate)
  | stop (reason : StopReason)
  | consume

/-- The callback's state with its queue. -/
structure CaptureUnit (F : Type) where
  capture : PhysicalCapture F
  channel : CaptureChannel F

namespace CaptureUnit

variable {F : Type}

/-- What a step needs of the state it leaves: only planned injections are executed. -/
def Allows (unit : CaptureUnit F) : CaptureLabel F → Prop
  | .handoff remote done => done.Sublist (unit.capture.handoffPlan remote)
  | .releaseInjected done => done.Sublist unit.capture.releaseInjectedPlan
  | .gate _ => unit.capture.takeBack.isSome
  | _ => True

variable [Scalar F]

def next (unit : CaptureUnit F) : CaptureLabel F → CaptureUnit F
  | .process event travel remote now =>
    let (_, capture, channel) :=
      unit.capture.processWithTravel event travel remote now unit.channel
    { capture, channel }
  | .tick now =>
    let (capture, channel) := unit.capture.tick now unit.channel
    { capture, channel }
  | .handoff _ done | .releaseInjected done =>
    { unit with capture := done.foldl applyTransferSuccess unit.capture }
  | .seed held => { unit with capture := unit.capture.seedLocallyHeld held }
  | .forget held => { unit with capture := (unit.capture.forgetInitiallyHeld held).2 }
  | .setRoutingRevision revision =>
    { unit with capture := unit.capture.setRoutingRevision revision }
  | .barrier remote revision floorGeneration =>
    let record :=
      { event := .routeChanged remote revision, routingRevision := revision, remote
        floorGeneration }
    { unit with channel := (unit.channel.tryPushTagged record).2 }
  | .gate gate => { unit with capture := { unit.capture with takeBack := some gate } }
  | .stop reason => { unit with channel := unit.channel.stop reason }
  | .consume => { unit with channel := unit.channel.tryPopTagged.2 }

end CaptureUnit

/-! ## What a physical event does to the tables -/

namespace Press

/-- The verdict and the new state of the event's own press, given what was decided about
queueing and suppressing it. -/
def outcome (base previous : Press) (pressed withholding suppress queued : Bool) : Bool × Press :=
  match withholdPress base previous pressed withholding with
  | (some suppressed, state) => (suppressed, state)
  | (none, state) => settlePress state previous pressed suppress queued withholding

theorem outcome_visible {base previous : Press} {pressed withholding : Bool} (suppress queued : Bool)
    (visible : previous.withheld = false)
    (stale : (withholding && pressed && !previous.physical) = false) :
    outcome base previous pressed withholding suppress queued =
      settlePress base previous pressed suppress queued withholding := by
  simp only [outcome, withholdPress, visible, stale, Bool.false_eq_true, ↓reduceIte]

theorem outcome_fresh {base previous : Press} {pressed withholding : Bool} (suppress queued : Bool)
    (visible : previous.withheld = false)
    (fresh : (withholding && pressed && !previous.physical) = true) :
    outcome base previous pressed withholding suppress queued =
      (true, { base with physical := true, withheld := true }) := by
  simp only [outcome, withholdPress, visible, fresh, Bool.false_eq_true, ↓reduceIte]

/-- What holds of every table entry: an entry that is up is empty, and a press that was
withheld or found held at start was never queued. -/
structure Regular (press : Press) : Prop where
  up : press.physical = false → press = .default
  withheld_unqueued : press.withheld = true → press.queuedDown = false
  initial_unqueued : press.initiallyHeld = true → press.queuedDown = false

theorem Regular.default : Press.default.Regular := ⟨fun _ => rfl, nofun, nofun⟩

theorem Regular.initial : Press.initial.Regular := ⟨nofun, nofun, fun _ => rfl⟩

variable {previous : Press}

theorem Regular.physical_of_withheld (regular : previous.Regular)
    (withheld : previous.withheld = true) : previous.physical = true := by
  cases held : previous.physical with
  | true => rfl
  | false => rw [regular.up held] at withheld; cases withheld

/-- The fields a settled press keeps from its entry. -/
theorem settlePress_pressed (base previous : Press) (suppress queued withholding : Bool) :
    let settled := (settlePress base previous true suppress queued withholding).2
    settled.physical = true ∧ settled.withheld = base.withheld ∧
      settled.initiallyHeld = base.initiallyHeld ∧
        settled.queuedDown = (queued || base.queuedDown) := by
  cases suppressed : previous.suppressedDown <;>
    cases taken : (suppress && !previous.initiallyHeld) <;>
      cases seen : previous.localDown <;> cases queued <;>
        simp [settlePress, updatePress, suppressed, taken, seen]

theorem outcome_released (base previous : Press) (withholding suppress queued : Bool) :
    (outcome base previous false withholding suppress queued).2 = .default := by
  cases withheld : previous.withheld <;>
    simp [outcome, withholdPress, settlePress, updatePress, withheld]

theorem Regular.outcome (regular : previous.Regular) {base : Press} {pressed : Bool}
    (withholding suppress : Bool) {queued : Bool}
    (base_eq : base = previous ∨ base = { previous with physical := pressed })
    (queueable : queued = true → previous.initiallyHeld = false) :
    (Press.outcome base previous pressed withholding suppress queued).2.Regular := by
  cases pressed with
  | false =>
    rw [outcome_released]
    exact Regular.default
  | true =>
    have flags : base.withheld = previous.withheld ∧ base.initiallyHeld = previous.initiallyHeld ∧
        base.queuedDown = previous.queuedDown := by
      rcases base_eq with rfl | rfl <;> exact ⟨rfl, rfl, rfl⟩
    obtain ⟨withheld_eq, initial_eq, queued_eq⟩ := flags
    cases withheld : previous.withheld with
    | true =>
      have held := regular.physical_of_withheld withheld
      have same : base = previous := by
        rcases base_eq with rfl | rfl
        · rfl
        · rw [← held]
      simpa [Press.outcome, withholdPress, withheld, same] using regular
    | false =>
      cases fresh : (withholding && true && !previous.physical) with
      | true =>
        have released : previous.physical = false := by
          simpa using (Bool.and_eq_true_iff.mp fresh).2
        have empty := regular.up released
        rw [outcome_fresh suppress queued withheld fresh]
        refine ⟨nofun, fun _ => ?_, fun _ => ?_⟩ <;> simp [queued_eq, empty, Press.default]
      | false =>
        obtain ⟨down, visible, initial, queues⟩ :=
          settlePress_pressed base previous suppress queued withholding
        rw [outcome_visible suppress queued withheld fresh]
        refine ⟨fun released => absurd released (by simp [down]),
          fun kept => absurd kept (by simp [visible, withheld_eq, withheld]), fun kept => ?_⟩
        rw [initial, initial_eq] at kept
        have unqueued : queued = false := by
          cases queued with
          | false => rfl
          | true => rw [queueable rfl] at kept; cases kept
        rw [queues, unqueued, queued_eq, regular.initial_unqueued kept]
        rfl

end Press

variable {withholding stopped remote pressed : Bool} {now : Duration}

namespace PhysicalCapture

variable {F : Type}
variable {capture : PhysicalCapture F}

@[simp] theorem setKey_keys_self (capture : PhysicalCapture F) (index : Nat) (press : Press) :
    (capture.setKey index press).keys index = press :=
  update_self ..

theorem setKey_keys_of_ne {index other : Nat} {press : Press}
    (different : other ≠ index) : (capture.setKey index press).keys other = capture.keys other :=
  update_of_ne different ..

@[simp] theorem setButton_buttons_self (button : MouseButton) (press : Press) :
    (capture.setButton button press).buttons button = press :=
  update_self ..

/-- A state that differs in the clock, the motion windows and the take-back only. -/
def WithClock (first second : PhysicalCapture F) : Prop :=
  ∃ lastTime motion travel takeBack withholdingSince,
    second = { first with lastTime, motion, travel, takeBack, withholdingSince }

variable {channel : CaptureChannel F}

theorem tick_withClock : capture.WithClock (capture.tick now channel).1 := by
  unfold tick
  split
  · exact ⟨_, _, _, _, _, rfl⟩
  · simp only
    split <;> exact ⟨_, _, _, _, _, rfl⟩

theorem WithClock.trans {first second third : PhysicalCapture F} (leading : first.WithClock second)
    (trailing : second.WithClock third) : first.WithClock third := by
  obtain ⟨_, _, _, _, _, rfl⟩ := leading
  obtain ⟨_, _, _, _, _, rfl⟩ := trailing
  exact ⟨_, _, _, _, _, rfl⟩

variable [Scalar F] {event : CaptureEvent F} {travel : Option (F × F)}

/-- Looking at an event moves the motion windows only. -/
theorem deliberate_windows (capture : PhysicalCapture F) {generation : Nat} :
    ∃ motion window, (capture.deliberate event travel generation now).2 =
      { capture with motion, travel := window } := by
  unfold deliberate
  split
  · exact ⟨_, _, rfl⟩
  cases event with
  | absoluteMotion | logicalAbsoluteMotion =>
    cases travel with
    | none => exact ⟨_, _, rfl⟩
    | some travelled =>
      simp only
      split <;> exact ⟨_, _, rfl⟩
  | _ => exact ⟨_, _, rfl⟩

theorem deliberate_withClock (capture : PhysicalCapture F) (event : CaptureEvent F)
    (travel : Option (F × F)) (generation : Nat) (now : Duration) :
    capture.WithClock (capture.deliberate event travel generation now).2 := by
  obtain ⟨motion, window, looked⟩ := capture.deliberate_windows
  exact ⟨_, _, _, _, _, looked⟩

theorem observeTakeBack_withClock :
    capture.WithClock (capture.observeTakeBack event travel now stopped).2 := by
  unfold observeTakeBack
  split
  · exact ⟨_, _, _, _, _, rfl⟩
  next gate _ =>
  have looked := capture.deliberate_withClock event travel gate.floor.generation now
  split
  · exact ⟨_, _, _, _, _, rfl⟩
  · simp only
    split
    · exact looked
    · exact looked.trans ⟨_, _, _, _, _, rfl⟩

omit [Scalar F] in
theorem withholding_withClock : capture.WithClock (capture.withholding now stopped).2 := by
  unfold withholding
  split
  · exact ⟨_, _, _, _, _, rfl⟩
  · simp only
    split <;> split <;> exact ⟨_, _, _, _, _, rfl⟩

theorem prepare_withClock (capture : PhysicalCapture F) (event : CaptureEvent F)
    (travel : Option (F × F)) (remote : Bool) (now : Duration) (channel : CaptureChannel F) :
    capture.WithClock (capture.prepare event travel remote now channel).capture :=
  tick_withClock.trans <|
    observeTakeBack_withClock.trans withholding_withClock

/-- What one processed key or button does to the tables: only its own press changes, by
`Press.outcome` with some decision about queueing and suppressing it. -/
structure Settles (held : HeldInput) (pressed : Bool) (first : PhysicalCapture F)
    (suppressed : Bool) (second : PhysicalCapture F) : Prop where
  own : ∃ base withholding suppress queued,
    (base = first.press held ∨ base = { first.press held with physical := pressed }) ∧
      (queued = true → (first.press held).initiallyHeld = false) ∧
        suppressed =
          (Press.outcome base (first.press held) pressed withholding suppress queued).1 ∧
        second.press held =
          (Press.outcome base (first.press held) pressed withholding suppress queued).2
  others : ∀ other, other ≠ held → second.press other = first.press other

variable {other held : HeldInput} {transfer : LocalTransfer}

section

omit [Scalar F]

theorem setKey_press_of_ne {usage : HidUsage} {press : Press} (different : other ≠ .key usage) :
    (capture.setKey usage.code press).press other = capture.press other := by
  cases other with
  | key otherUsage =>
    apply setKey_keys_of_ne
    intro same
    exact different (congrArg HeldInput.key (by cases otherUsage; cases usage; simp_all))
  | button mouse => rfl

theorem setButton_press_of_ne {mouse : MouseButton} {press : Press}
    (different : other ≠ .button mouse) :
    (capture.setButton mouse press).press other = capture.press other := by
  cases other with
  | key usage => rfl
  | button otherMouse =>
    apply update_of_ne
    intro same
    exact different (congrArg HeldInput.button same)

@[simp] theorem setPress_press_self (capture : PhysicalCapture F) (held : HeldInput)
    (press : Press) : (capture.setPress held press).press held = press := by
  cases held <;> simp [setPress, PhysicalCapture.press]

theorem setPress_press_of_ne {press : Press} (different : other ≠ held) :
    (capture.setPress held press).press other = capture.press other := by
  cases held with
  | key usage => exact setKey_press_of_ne different
  | button mouse => exact setButton_press_of_ne different

theorem observeChord_keys (usage : HidUsage) (pressed : Bool) (now : Duration) :
    ((capture.setKey usage.code { capture.keys usage.code with physical := pressed }).observeChord
      usage pressed now).keys usage.code = { capture.keys usage.code with physical := pressed } :=
  setKey_keys_self ..

end

theorem pushWhen_offered {initial wanted queued : Bool} {record : CapturedEvent F}
    {channel after : CaptureChannel F}
    (push : pushWhen (!initial && wanted) record channel = (queued, after))
    (admitted : queued = true) : initial = false := by
  cases initial with
  | false => rfl
  | true =>
    simp only [pushWhen, Bool.not_true, Bool.false_and, Bool.false_eq_true, ↓reduceIte,
      Prod.mk.injEq] at push
    cases push.1.trans admitted

theorem processKey_settles (usage : HidUsage) (tagged : CaptureEvent F → CapturedEvent F) :
    let result := capture.processKey usage pressed remote withholding tagged now channel
    Settles (.key usage) pressed capture result.1 result.2.1 := by
  cases withheld : withholdPress { capture.keys usage.code with physical := pressed }
      (capture.keys usage.code) pressed withholding with
  | mk verdict state =>
    cases verdict with
    | some suppress =>
      simp only [processKey, observeChord_keys, withheld]
      refine ⟨⟨_, withholding, false, false, .inr rfl, nofun, ?_⟩, ?_⟩
      · simp [press, Press.outcome, withheld]
      · exact fun _ other => (setKey_press_of_ne other).trans (setKey_press_of_ne other)
    | none =>
      simp only [processKey, observeChord_keys, withheld]
      generalize push : pushWhen _ _ channel = pushed
      obtain ⟨queued, channel⟩ := pushed
      generalize (remote && queued || _) = suppress
      refine ⟨⟨_, withholding, suppress, queued, .inr rfl, pushWhen_offered push, ?_⟩, ?_⟩
      · simp [press, Press.outcome, withheld]
      · exact fun _ other => (setKey_press_of_ne other).trans (setKey_press_of_ne other)

theorem processButton_settles (mouse : MouseButton) (record : CapturedEvent F) :
    let result := capture.processButton mouse pressed remote withholding record channel
    Settles (.button mouse) pressed capture result.1 result.2.1 := by
  cases withheld : withholdPress (capture.buttons mouse) (capture.buttons mouse) pressed
      withholding with
  | mk verdict state =>
    cases verdict with
    | some suppress =>
      simp only [processButton, withheld]
      refine ⟨⟨_, withholding, false, false, .inl rfl, nofun, ?_⟩, fun _ => setButton_press_of_ne⟩
      simp [press, Press.outcome, withheld]
    | none =>
      simp only [processButton, withheld]
      generalize push : pushWhen _ _ channel = pushed
      obtain ⟨queued, channel⟩ := pushed
      refine ⟨⟨_, withholding, remote && queued, queued, .inl rfl, pushWhen_offered push, ?_⟩,
        fun _ => setButton_press_of_ne⟩
      simp [press, Press.outcome, withheld]

omit [Scalar F] in
theorem WithClock.press {first second : PhysicalCapture F} (clock : first.WithClock second)
    (held : HeldInput) : second.press held = first.press held := by
  obtain ⟨_, _, _, _, _, rfl⟩ := clock
  cases held <;> rfl

/-- A physical event for a key or button with a slot. -/
theorem processWithTravel_settles (capture : PhysicalCapture F)
    (input : event.input = some (held, pressed)) (known : held.isKnown = true) :
    let result := capture.processWithTravel event travel remote now channel
    Settles held pressed capture result.1 result.2.1 := by
  have clock := capture.prepare_withClock event travel remote now channel
  have settles : Settles held pressed (capture.prepare event travel remote now channel).capture
      (capture.processWithTravel event travel remote now channel).1
      (capture.processWithTravel event travel remote now channel).2.1 := by
    cases event with
    | key usage down isRepeat modifiers =>
      cases input
      have valid : usage.isValid = true := known
      simp only [processWithTravel, valid]
      exact processKey_settles ..
    | button mouse down time =>
      cases input
      exact processButton_settles ..
    | _ => cases input
  refine ⟨?_, fun other different => (settles.others other different).trans (clock.press other)⟩
  simpa only [clock.press held] using settles.own

theorem processWithTravel_press (capture : PhysicalCapture F) (travel : Option (F × F))
    (remote : Bool) (now : Duration) (channel : CaptureChannel F)
    (other : ∀ held pressed, event.input = some (held, pressed) → held.isKnown = false)
    (held : HeldInput) :
    (capture.processWithTravel event travel remote now channel).2.1.press held =
      capture.press held := by
  have clock := capture.prepare_withClock event travel remote now channel
  rw [← clock.press held]
  cases event with
  | key usage pressed isRepeat modifiers =>
    have invalid : usage.isValid = false := other _ _ rfl
    simp [processWithTravel, invalid]
  | button mouse pressed time => cases other _ _ rfl
  | _ => rfl

theorem processWithTravel_press_of_ne (capture : PhysicalCapture F)
    (other : ∀ pressed, event.input ≠ some (held, pressed)) :
    (capture.processWithTravel event travel remote now channel).2.1.press held =
      capture.press held := by
  by_cases own : ∃ input pressed, event.input = some (input, pressed) ∧ input.isKnown = true
  · obtain ⟨input, pressed, found, known⟩ := own
    refine (capture.processWithTravel_settles found known).others held ?_
    rintro rfl
    exact other pressed found
  · apply capture.processWithTravel_press
    intro input pressed found
    cases known : input.isKnown with
    | true => exact absurd ⟨input, pressed, found, known⟩ own
    | false => rfl

/-! ## Input held since capture started -/

omit [Scalar F] in
/-- Forgetting clears exactly the entry it returns true for. -/
theorem forgetInitiallyHeld_press {forgotten : HeldInput}
    (cleared : (capture.forgetInitiallyHeld forgotten).1 = true) :
    forgotten.isKnown = true ∧ (capture.press forgotten).initiallyHeld = true ∧ ∀ held,
      (capture.forgetInitiallyHeld forgotten).2.press held =
        (capture.setPress forgotten .default).press held := by
  unfold forgetInitiallyHeld at *
  split at cleared
  · cases cleared
  next refused =>
  simp only [Bool.or_eq_true, Bool.not_eq_true', not_or, Bool.not_eq_false] at refused
  refine ⟨refused.1, refused.2, fun held => ?_⟩
  rw [if_neg (by simp [refused])]
  cases held <;> rfl

omit [Scalar F] in
theorem forgetInitiallyHeld_of_not {forgotten : HeldInput}
    (kept : (capture.forgetInitiallyHeld forgotten).1 = false) :
    (capture.forgetInitiallyHeld forgotten).2 = capture := by
  unfold forgetInitiallyHeld at *
  split at kept
  · next refused => rw [if_pos refused]
  · cases kept

/-! ## Transfers -/

section

omit [Scalar F]

theorem applyTransferSuccess_press (capture : PhysicalCapture F)
    (known : transfer.input.isKnown = true) :
    (capture.applyTransferSuccess transfer).press transfer.input =
        transferred (capture.press transfer.input) transfer.pressed ∧
      ∀ other, other ≠ transfer.input →
        (capture.applyTransferSuccess transfer).press other = capture.press other := by
  cases transfer with
  | key usage pressed =>
    have valid : usage.isValid = true := known
    simp only [applyTransferSuccess, valid]
    exact ⟨setKey_keys_self .., fun other => setKey_press_of_ne⟩
  | button mouse pressed =>
    exact ⟨setButton_buttons_self .., fun other => setButton_press_of_ne⟩

theorem mem_handoffPlan (planned : transfer ∈ capture.handoffPlan remote) :
    transfer.input.isKnown = true ∧ (capture.press transfer.input).physical = true := by
  simp only [handoffPlan, buttonTransfers, mem_append, mem_map, mem_filter] at planned
  rcases planned with ⟨index, ⟨_, selected⟩, rfl⟩ | ⟨mouse, ⟨_, selected⟩, rfl⟩
  · simp only [Bool.and_eq_true, Bool.not_eq_true', Bool.or_eq_false_iff, Bool.not_eq_false'] at selected
    exact ⟨selected.1.2, selected.1.1.1.1⟩
  · simp only [Bool.and_eq_true] at selected
    exact ⟨rfl, selected.1.1.1⟩

/-- What the plan of releases moves is down for local applications, through an injection. -/
theorem mem_releaseInjectedPlan (planned : transfer ∈ capture.releaseInjectedPlan) :
    (capture.press transfer.input).locallyInjected = true ∧
      (capture.press transfer.input).localDown = true := by
  simp only [releaseInjectedPlan, buttonTransfers, mem_append, mem_map, mem_filter] at planned
  rcases planned with ⟨index, ⟨_, selected⟩, rfl⟩ | ⟨mouse, ⟨_, selected⟩, rfl⟩
  · simp only [Bool.and_eq_true] at selected
    exact selected
  · simp only [Bool.and_eq_true] at selected
    exact selected

end

/-- Two entries that agree on everything queueing reads. -/
structure SameQueueing (first second : Press) : Prop where
  physical : second.physical = first.physical
  withheld : second.withheld = first.withheld
  initiallyHeld : second.initiallyHeld = first.initiallyHeld
  queuedDown : second.queuedDown = first.queuedDown

omit [Scalar F] in
/-- Injections for inputs that are down keep every entry regular and its queueing. -/
theorem applyTransfers_press {done : List LocalTransfer}
    (planned : ∀ transfer ∈ done, transfer.input.isKnown = true ∧
      (capture.press transfer.input).physical = true) (held : HeldInput) :
    SameQueueing (capture.press held) ((done.foldl applyTransferSuccess capture).press held) ∧
      ((capture.press held).Regular →
        ((done.foldl applyTransferSuccess capture).press held).Regular) ∧
      (held.isKnown = false →
        (done.foldl applyTransferSuccess capture).press held = capture.press held) := by
  induction done generalizing capture with
  | nil => exact ⟨⟨rfl, rfl, rfl, rfl⟩, id, fun _ => rfl⟩
  | cons transfer done ih =>
    obtain ⟨known, down⟩ := planned transfer mem_cons_self
    obtain ⟨own, others⟩ := capture.applyTransferSuccess_press known
    have first : ∀ held,
        SameQueueing (capture.press held) ((capture.applyTransferSuccess transfer).press held) ∧
          ((capture.press held).Regular →
            ((capture.applyTransferSuccess transfer).press held).Regular) ∧
          (held.isKnown = false →
            (capture.applyTransferSuccess transfer).press held = capture.press held) := by
      intro held
      by_cases same : held = transfer.input
      · subst same
        rw [own]
        refine ⟨⟨rfl, rfl, rfl, rfl⟩, fun regular => ?_, fun unknown => ?_⟩
        · exact ⟨fun up => absurd up (by simp [transferred, down]), regular.withheld_unqueued,
            regular.initial_unqueued⟩
        · rw [known] at unknown
          cases unknown
      · rw [others held same]
        exact ⟨⟨rfl, rfl, rfl, rfl⟩, id, fun _ => rfl⟩
    have later : ∀ later ∈ done, later.input.isKnown = true ∧
        ((capture.applyTransferSuccess transfer).press later.input).physical = true := by
      intro later member
      obtain ⟨laterKnown, laterDown⟩ := planned later (mem_cons_of_mem _ member)
      exact ⟨laterKnown, (first later.input).1.physical.trans laterDown⟩
    obtain ⟨same, regular, untouched⟩ := first held
    obtain ⟨restSame, restRegular, restUntouched⟩ := ih later
    refine ⟨⟨?_, ?_, ?_, ?_⟩, fun before => restRegular (regular before), fun unknown =>
      (restUntouched unknown).trans (untouched unknown)⟩
    · exact restSame.physical.trans same.physical
    · exact restSame.withheld.trans same.withheld
    · exact restSame.initiallyHeld.trans same.initiallyHeld
    · exact restSame.queuedDown.trans same.queuedDown

end PhysicalCapture

/-! ## Every entry stays regular -/

namespace CaptureUnit

variable {F : Type}

/-- Every entry is regular, and keys without a slot are never touched. -/
structure Regular (unit : CaptureUnit F) : Prop where
  press : ∀ held, (unit.capture.press held).Regular
  unknown : ∀ held, held.isKnown = false → unit.capture.press held = .default

variable {unit : CaptureUnit F}

theorem Regular.planned (regular : unit.Regular) {transfer : LocalTransfer}
    (shown : (unit.capture.press transfer.input).localDown = true) :
    transfer.input.isKnown = true ∧ (unit.capture.press transfer.input).physical = true := by
  constructor
  · cases known : transfer.input.isKnown with
    | true => rfl
    | false => rw [regular.unknown _ known] at shown; cases shown
  · cases down : (unit.capture.press transfer.input).physical with
    | true => rfl
    | false => rw [(regular.press _).up down] at shown; cases shown

theorem Regular.transfers (regular : unit.Regular) {done : List LocalTransfer}
    (planned : ∀ transfer ∈ done, transfer.input.isKnown = true ∧
      (unit.capture.press transfer.input).physical = true) :
    Regular { unit with
      capture := done.foldl applyTransferSuccess unit.capture } := by
  constructor
  · intro held
    exact (applyTransfers_press planned held).2.1 (regular.press held)
  · intro held unknown
    exact ((applyTransfers_press planned held).2.2 unknown).trans
      (regular.unknown held unknown)

theorem Regular.of_press {first second : CaptureUnit F} (regular : first.Regular)
    (same : ∀ held, second.capture.press held = first.capture.press held) : second.Regular :=
  ⟨fun held => same held ▸ regular.press held,
    fun held unknown => (same held).trans (regular.unknown held unknown)⟩

theorem Regular.setPress (regular : unit.Regular) {held : HeldInput} {press : Press}
    (known : held.isKnown = true) (settled : press.Regular) :
    Regular { unit with capture := unit.capture.setPress held press } := by
  constructor
  · intro other
    by_cases same : other = held
    · subst same
      rw [setPress_press_self]
      exact settled
    · rw [setPress_press_of_ne same]
      exact regular.press other
  · intro other unknown
    have different : other ≠ held := by
      rintro rfl
      rw [known] at unknown
      cases unknown
    exact (setPress_press_of_ne different).trans (regular.unknown other unknown)

variable [Scalar F]

theorem next_process (unit : CaptureUnit F) (event : CaptureEvent F) (travel : Option (F × F))
    (remote : Bool) (now : Duration) :
    unit.next (.process event travel remote now) =
      { capture := (unit.capture.processWithTravel event travel remote now unit.channel).2.1
        channel := (unit.capture.processWithTravel event travel remote now unit.channel).2.2 } := rfl

theorem Regular.process (regular : unit.Regular) (event : CaptureEvent F) (travel : Option (F × F))
    (remote : Bool) (now : Duration) : (unit.next (.process event travel remote now)).Regular := by
  by_cases own : ∃ held pressed, event.input = some (held, pressed) ∧ held.isKnown = true
  · obtain ⟨held, pressed, input, known⟩ := own
    obtain ⟨⟨base, withholding, suppress, queued, base_eq, queueable, _, entry⟩, others⟩ :=
      unit.capture.processWithTravel_settles input known
    constructor
    · intro other
      by_cases same : other = held
      · subst same
        rw [next_process, entry]
        exact (regular.press other).outcome withholding suppress base_eq queueable
      · rw [next_process, others other same]
        exact regular.press other
    · intro other unknown
      have different : other ≠ held := by
        rintro rfl
        rw [known] at unknown
        cases unknown
      exact (others other different).trans (regular.unknown other unknown)
  · apply regular.of_press
    intro other
    apply unit.capture.processWithTravel_press travel remote now unit.channel
    intro held pressed input
    cases known : held.isKnown with
    | true => exact absurd ⟨held, pressed, input, known⟩ own
    | false => rfl

theorem Regular.next {label : CaptureLabel F} (regular : unit.Regular) (allowed : unit.Allows label) :
    (unit.next label).Regular := by
  cases label with
  | process event travel remote now => exact regular.process event travel remote now
  | tick now => exact regular.of_press unit.capture.tick_withClock.press
  | handoff remote done =>
    exact regular.transfers fun transfer member =>
      mem_handoffPlan (allowed.subset member)
  | releaseInjected done =>
    exact regular.transfers fun transfer member =>
      regular.planned (mem_releaseInjectedPlan (allowed.subset member)).2
  | seed held =>
    simp only [CaptureUnit.next, seedLocallyHeld]
    split
    · next known => exact regular.setPress known Press.Regular.initial
    · exact regular
  | forget held =>
    cases cleared : (unit.capture.forgetInitiallyHeld held).1 with
    | true =>
      obtain ⟨known, _, entry⟩ := forgetInitiallyHeld_press cleared
      exact (regular.setPress known Press.Regular.default).of_press entry
    | false =>
      simp only [CaptureUnit.next, forgetInitiallyHeld_of_not cleared]
      exact regular
  | gate | setRoutingRevision => exact regular.of_press fun held => by cases held <;> rfl
  | barrier | stop | consume => exact regular.of_press fun _ => rfl

end CaptureUnit
end Monhop.Core
