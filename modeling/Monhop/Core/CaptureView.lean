import Monhop.Core.CaptureRun

/-! # What local applications believe

Beside the callback's state a run carries what the local applications believe about each
key and button: a delivered event or an injection moves the belief, a suppressed event
does not.  `Press.Tracks` ties each entry of the callback's tables to that belief and to
the physical state; every step keeps it, and the balance of presses and releases follows.
-/

namespace Monhop.Core

open Function PhysicalCapture

/-- A table entry that knows what local applications believe and whether the input is
physically down. -/
structure Press.Tracks (press : Press) (view down : Bool) : Prop where
  view_eq : press.localDown = view
  down_eq : press.physical = down
  hidden : press.physical = true → press.localDown = false →
    press.suppressedDown = true ∨ press.withheld = true

namespace Press

theorem Tracks.default : Press.default.Tracks false false :=
  ⟨rfl, rfl, nofun⟩

theorem Tracks.initial : Press.initial.Tracks true true :=
  ⟨rfl, rfl, nofun⟩

variable {previous : Press} {view down : Bool}

/-- An event the withholding lets through: a release of what local applications saw down
is delivered, anything about a press hidden from them is not. -/
theorem Tracks.settlePress (tracks : previous.Tracks view down) (visible : previous.withheld = false)
    {base : Press} {pressed : Bool} (suppress queued withholding : Bool)
    (base_eq : base = previous ∨ base = { previous with physical := pressed })
    (repeats : withholding = true → pressed = true → previous.physical = true) :
    let settled := settlePress base previous pressed suppress queued withholding
    settled.2.Tracks (if settled.1 then view else pressed) pressed ∧
      (pressed = false → view = true → settled.1 = false) ∧
        (down = true → view = false → settled.1 = true) := by
  obtain ⟨view_eq, down_eq, hidden⟩ := tracks
  subst view_eq down_eq
  cases pressed with
  | false =>
    simp only [Core.settlePress, updatePress, Bool.not_false, ↓reduceIte, Bool.and_false, Bool.or_false,
      Bool.false_and, Bool.false_eq_true]
    refine ⟨?_, ?_, ?_⟩
    · cases shown : previous.localDown <;> simp [Tracks.default]
    · intro _ shown
      simp [shown]
    · intro held unseen
      simp_all
  | true =>
    have unseen_suppressed : previous.physical = true → previous.localDown = false →
        previous.suppressedDown = true := by
      intro held unseen
      simpa [visible] using hidden held unseen
    have base_local : base.localDown = previous.localDown := by
      rcases base_eq with rfl | rfl <;> rfl
    have base_suppressed : base.suppressedDown = previous.suppressedDown := by
      rcases base_eq with rfl | rfl <;> rfl
    cases suppressed : previous.suppressedDown with
    | true =>
      simp only [Core.settlePress, updatePress, suppressed]
      cases queued <;> refine ⟨⟨?_, ?_, ?_⟩, ?_, ?_⟩ <;> simp [base_local, base_suppressed, suppressed]
    | false =>
      cases taken : (suppress && !previous.initiallyHeld) with
      | true =>
        simp only [Core.settlePress, updatePress, suppressed, taken]
        cases seen : previous.localDown <;> cases queued <;>
          refine ⟨⟨?_, ?_, ?_⟩, ?_, ?_⟩ <;> simp [base_local, seen]
      | false =>
        -- a repeat dropped by the withholding is of a press local applications saw
        simp only [Core.settlePress, updatePress, suppressed, taken]
        cases withholding <;> cases queued <;> refine ⟨⟨?_, ?_, ?_⟩, ?_, ?_⟩ <;> simp_all

/-- The same for every event, the withheld ones included. -/
theorem Tracks.outcome (tracks : previous.Tracks view down) (regular : previous.Regular)
    {base : Press} {pressed : Bool} (withholding suppress queued : Bool)
    (base_eq : base = previous ∨ base = { previous with physical := pressed }) :
    let outcome := Press.outcome base previous pressed withholding suppress queued
    outcome.2.Tracks (if outcome.1 then view else pressed) pressed ∧
      (pressed = false → view = true → outcome.1 = false) ∧
        (down = true → view = false → outcome.1 = true) := by
  cases withheld : previous.withheld with
  | true =>
    have held := regular.physical_of_withheld withheld
    have shown := tracks.view_eq
    cases pressed with
    | false =>
      simp only [Press.outcome, withholdPress, withheld, shown]
      cases view <;> simp [Tracks.default]
    | true =>
      have same : base = previous := by
        rcases base_eq with rfl | rfl
        · rfl
        · rw [← held]
      subst same
      have still : base.Tracks view true := ⟨tracks.view_eq, held, tracks.hidden⟩
      simpa [Press.outcome, withholdPress, withheld] using still
  | false =>
    cases fresh : (withholding && pressed && !previous.physical) with
    | true =>
      -- a press that starts while withholding is dropped and remembered as withheld
      simp only [Bool.and_eq_true, Bool.not_eq_true'] at fresh
      obtain ⟨⟨rfl, rfl⟩, released⟩ := fresh
      have notShown : view = false := by
        rw [← tracks.view_eq, regular.up released]
        rfl
      have notDown : down = false := tracks.down_eq ▸ released
      subst notShown notDown
      have unseen : base.localDown = false := by
        rcases base_eq with rfl | rfl <;> rw [regular.up released] <;> rfl
      rw [outcome_fresh suppress queued withheld (by simp [released])]
      refine ⟨⟨?_, ?_, ?_⟩, ?_, ?_⟩ <;> simp [unseen]
    | false =>
      have repeats : withholding = true → pressed = true → previous.physical = true := by
        intro withholds presses
        simpa [withholds, presses] using fresh
      rw [outcome_visible suppress queued withheld fresh]
      exact tracks.settlePress withheld suppress queued withholding base_eq repeats

/-- An injection for a press that is down moves the belief with it. -/
theorem Tracks.transferred (tracks : previous.Tracks view down) (held : previous.physical = true)
    (pressed : Bool) : (PhysicalCapture.transferred previous pressed).Tracks pressed down := by
  refine ⟨rfl, tracks.down_eq, ?_⟩
  intro _ unseen
  have lifted : pressed = false := unseen
  exact .inl (by simp [PhysicalCapture.transferred, held, lifted])

end Press

/-! ## The run with its observers -/

/-- The callback with what local applications believe and what is physically down. -/
structure CaptureSystem (F : Type) extends CaptureUnit F where
  view : HeldInput → Bool
  down : HeldInput → Bool

namespace CaptureSystem

variable {F : Type}

/-- The belief after injections that succeeded. -/
def injected (view : HeldInput → Bool) (done : List LocalTransfer) : HeldInput → Bool :=
  done.foldl (fun view transfer => update view transfer.input transfer.pressed) view

variable [Scalar F]

/-- Whether the event is withheld from local applications. -/
def suppresses (system : CaptureSystem F) (event : CaptureEvent F) (travel : Option (F × F))
    (remote : Bool) (now : Duration) : Bool :=
  (system.capture.processWithTravel event travel remote now system.channel).1

def next (system : CaptureSystem F) (label : CaptureLabel F) : CaptureSystem F :=
  let moved := { system with toCaptureUnit := system.toCaptureUnit.next label }
  match label with
  | .process event travel remote now =>
    match event.input with
    | some (held, pressed) =>
      { moved with
        view := if system.suppresses event travel remote now then system.view
          else update system.view held pressed
        down := update system.down held pressed }
    | none => moved
  | .handoff _ done | .releaseInjected done => { moved with view := injected system.view done }
  | .seed held =>
    { moved with
      view := update system.view held true
      down := update system.down held true }
  | .forget held =>
    if (system.capture.forgetInitiallyHeld held).1 then
      { moved with
        view := update system.view held false
        down := update system.down held false }
    else moved
  | _ => moved

/-- A fresh callback, with or without the local emergency chord and a gate. -/
structure Initial (system : CaptureSystem F) : Prop where
  capture : ∃ now intercepts takeBack,
    system.capture = { PhysicalCapture.new now with interceptsEscape := intercepts, takeBack }
  channel : system.channel = .new
  view : system.view = fun _ => false
  down : system.down = fun _ => false

end CaptureSystem

def captureLts (F : Type) [Scalar F] : Library.Lts (CaptureSystem F) (CaptureLabel F) where
  init := CaptureSystem.Initial
  step first label second := first.Allows label ∧ second = first.next label

namespace CaptureSystem

variable {F : Type}

/-- The tables track every key they have a slot for; other keys are always delivered. -/
def Tracks (system : CaptureSystem F) (held : HeldInput) : Prop :=
  (held.isKnown = true →
    (system.capture.press held).Tracks (system.view held) (system.down held)) ∧
  (held.isKnown = false → system.view held = system.down held)

variable {held : HeldInput}

theorem Tracks.of_eq {first second : CaptureSystem F} (tracks : first.Tracks held)
    (press : second.capture.press held = first.capture.press held)
    (view : second.view held = first.view held) (down : second.down held = first.down held) :
    second.Tracks held := by
  unfold Tracks
  rw [press, view, down]
  exact tracks

variable {system : CaptureSystem F}

theorem initial_tracks [Scalar F] (initial : system.Initial)
    (held : HeldInput) : system.Tracks held := by
  obtain ⟨⟨now, intercepts, takeBack, capture⟩, _, view, down⟩ := initial
  have press : system.capture.press held = .default := by
    rw [capture]
    cases held <;> rfl
  unfold Tracks
  rw [press, view, down]
  exact ⟨fun _ => Press.Tracks.default, fun _ => rfl⟩

variable {first : CaptureSystem F}

theorem tracks_injected {done : List LocalTransfer} (tracks : ∀ held, first.Tracks held)
    (held : ∀ transfer ∈ done, transfer.input.isKnown = true ∧
      (first.capture.press transfer.input).physical = true) {input : HeldInput} :
    Tracks
      { first with
        capture := done.foldl applyTransferSuccess first.capture
        view := injected first.view done } input := by
  induction done generalizing first with
  | nil => exact tracks input
  | cons transfer done ih =>
    obtain ⟨known, physical⟩ := held transfer List.mem_cons_self
    obtain ⟨own, others⟩ := first.capture.applyTransferSuccess_press known
    -- the first transfer alone keeps every entry tracked and every input down
    have moved : ∀ input, Tracks
        { first with
          capture := first.capture.applyTransferSuccess transfer
          view := update first.view transfer.input transfer.pressed } input := by
      intro input
      by_cases same : input = transfer.input
      · subst same
        refine ⟨fun _ => ?_, fun unknown => absurd unknown (by simp [known])⟩
        simp only [own, update_self]
        exact ((tracks _).1 known).transferred physical _
      · exact (tracks input).of_eq (others input same) (update_of_ne same ..) rfl
    refine ih moved ?_
    intro later member
    obtain ⟨laterKnown, laterPhysical⟩ := held later (List.mem_cons_of_mem _ member)
    refine ⟨laterKnown, ?_⟩
    by_cases same : later.input = transfer.input
    · simp only [same, own]
      exact physical
    · rw [others later.input same]
      exact laterPhysical

variable [Scalar F]
variable {event : CaptureEvent F}

/-- The verdict on an event for a key or button with a slot, and its entry after it. -/
theorem process_known {pressed : Bool} (regular : first.Regular) (tracks : first.Tracks held)
    (input : event.input = some (held, pressed)) (known : held.isKnown = true)
    (travel : Option (F × F)) (remote : Bool) (now : Duration) :
    ((first.capture.processWithTravel event travel remote now first.channel).2.1.press held).Tracks
        (if first.suppresses event travel remote now then first.view held else pressed) pressed ∧
      (pressed = false → first.view held = true →
        first.suppresses event travel remote now = false) ∧
      (first.down held = true → first.view held = false →
        first.suppresses event travel remote now = true) := by
  obtain ⟨⟨base, withholding, suppress, queued, base_eq, _, verdict, entry⟩, _⟩ :=
    first.capture.processWithTravel_settles input known
  have verdict : first.suppresses event travel remote now = _ := verdict
  rw [verdict, entry]
  exact (tracks.1 known).outcome (regular.press held) withholding suppress queued base_eq

/-- A key the tables have no slot for is delivered. -/
theorem process_unknown
    {pressed : Bool} (input : event.input = some (held, pressed)) (unknown : held.isKnown = false)
    (travel : Option (F × F)) (remote : Bool) (now : Duration) :
    first.suppresses event travel remote now = false := by
  cases event with
  | key usage down isRepeat modifiers =>
    cases input
    have invalid : usage.isValid = false := unknown
    simp [suppresses, processWithTravel, invalid]
  | button mouse down time =>
    cases input
    cases unknown
  | _ => cases input

theorem tracks_process (regular : first.Regular) (tracks : ∀ held, first.Tracks held)
    {travel : Option (F × F)} {remote : Bool} {now : Duration} :
    (first.next (.process event travel remote now)).Tracks held := by
  cases input : event.input with
  | none =>
    simp only [next, input]
    refine (tracks held).of_eq ?_ rfl rfl
    exact first.capture.processWithTravel_press travel remote now first.channel
      (fun _ _ some => by rw [input] at some; cases some) held
  | some pair =>
    obtain ⟨own, pressed⟩ := pair
    simp only [next, input]
    by_cases same : held = own
    · subst same
      cases known : held.isKnown with
      | true =>
        refine ⟨fun _ => ?_, fun unknown => absurd unknown (by simp [known])⟩
        have entry := (process_known regular (tracks held) input known travel remote now).1
        cases verdict : first.suppresses event travel remote now <;>
          simpa [CaptureUnit.next, verdict] using entry
      | false =>
        refine ⟨fun slot => absurd slot (by simp [known]), fun _ => ?_⟩
        have delivered := @process_unknown F _ first _ _ _ input known travel remote now
        simp [delivered]
    · have other : ∀ pressed, event.input ≠ some (held, pressed) := by
        rintro _ found
        rw [input] at found
        cases found
        exact same rfl
      refine (tracks held).of_eq (first.capture.processWithTravel_press_of_ne other) ?_
        (update_of_ne same ..)
      cases first.suppresses event travel remote now
      · exact update_of_ne same ..
      · rfl

omit [Scalar F] in
theorem tracks_seed (tracks : ∀ held, first.Tracks held) {seeded : HeldInput} :
    Tracks
      { first with
        capture := first.capture.seedLocallyHeld seeded
        view := update first.view seeded true
        down := update first.down seeded true } held := by
  by_cases same : held = seeded
  · subst same
    cases known : held.isKnown with
    | true =>
      refine ⟨fun _ => ?_, fun unknown => absurd unknown (by simp [known])⟩
      simp only [seedLocallyHeld, known, ↓reduceIte, setPress_press_self, update_self]
      exact Press.Tracks.initial
    | false =>
      refine ⟨fun slot => absurd slot (by simp [known]), fun _ => ?_⟩
      simp only [update_self]
  · refine (tracks held).of_eq ?_ (update_of_ne same ..) (update_of_ne same ..)
    simp only [seedLocallyHeld]
    split
    · exact setPress_press_of_ne same
    · rfl

omit [Scalar F] in
theorem tracks_forget (tracks : ∀ held, first.Tracks held)
    {forgotten : HeldInput} (cleared : (first.capture.forgetInitiallyHeld forgotten).1 = true) :
    Tracks
      { first with
        capture := (first.capture.forgetInitiallyHeld forgotten).2
        view := update first.view forgotten false
        down := update first.down forgotten false } held := by
  obtain ⟨_, _, entry⟩ := forgetInitiallyHeld_press cleared
  by_cases same : held = forgotten
  · subst same
    unfold Tracks
    simp only [entry, setPress_press_self, update_self]
    exact ⟨fun _ => Press.Tracks.default, fun _ => trivial⟩
  · refine (tracks held).of_eq ?_ (update_of_ne same ..) (update_of_ne same ..)
    rw [entry held]
    exact setPress_press_of_ne same

theorem tracks_next {label : CaptureLabel F} (regular : first.Regular)
    (tracks : ∀ held, first.Tracks held) (allowed : first.Allows label) (held : HeldInput) :
    (first.next label).Tracks held := by
  cases label with
  | process event travel remote now => exact tracks_process regular tracks
  | tick now =>
    exact (tracks held).of_eq (first.capture.tick_withClock.press held) rfl rfl
  | handoff remote done =>
    exact tracks_injected tracks
      (fun transfer member => mem_handoffPlan (allowed.subset member))
  | releaseInjected done =>
    exact tracks_injected tracks (fun transfer member => regular.planned
      (mem_releaseInjectedPlan (allowed.subset member)).2)
  | seed seeded => exact tracks_seed tracks
  | forget forgotten =>
    cases cleared : (first.capture.forgetInitiallyHeld forgotten).1 with
    | true =>
      simp only [next, cleared]
      exact tracks_forget tracks cleared
    | false =>
      simp only [next, cleared]
      refine (tracks held).of_eq ?_ rfl rfl
      simp [CaptureUnit.next, forgetInitiallyHeld_of_not cleared]
  | gate | setRoutingRevision => exact (tracks held).of_eq (by cases held <;> rfl) rfl rfl
  | barrier | stop | consume => exact (tracks held).of_eq rfl rfl rfl

theorem next_toCaptureUnit (system : CaptureSystem F) (label : CaptureLabel F) :
    (system.next label).toCaptureUnit = system.toCaptureUnit.next label := by
  cases label with
  | process event travel remote now =>
    simp only [next]
    split <;> rfl
  | forget held =>
    simp only [next]
    split <;> rfl
  | _ => rfl

theorem initial_regular (initial : system.Initial) : system.Regular := by
  obtain ⟨⟨now, intercepts, takeBack, capture⟩, _, _, _⟩ := initial
  have press : ∀ held, system.capture.press held = .default := by
    intro held
    rw [capture]
    cases held <;> rfl
  exact ⟨fun held => press held ▸ Press.Regular.default, fun held _ => press held⟩

theorem tracks_of_reachable (reachable : (captureLts F).Reachable system) :
    system.Regular ∧ ∀ held, system.Tracks held := by
  refine reachable.invariant (fun system => system.Regular ∧ ∀ held, system.Tracks held) ?_ ?_
  · intro system initial
    exact ⟨initial_regular initial, initial_tracks initial⟩
  intro first label second tracked step
  rw [step.2]
  refine ⟨?_, tracks_next tracked.1 tracked.2 step.1⟩
  rw [next_toCaptureUnit]
  exact tracked.1.next step.1

/-- Along every run, for every key and button an event presses or releases: a physical
release of what local applications last saw down is delivered; a repeat or release of a
press they did not see, or saw taken away, is not; and after a physical release they do
not believe it is down. -/
theorem local_view_balanced {system : CaptureSystem F}
    (reachable : (captureLts F).Reachable system) {event : CaptureEvent F} {held : HeldInput}
    {pressed : Bool} (input : event.input = some (held, pressed)) (travel : Option (F × F))
    (remote : Bool) (now : Duration) :
    (pressed = false → system.view held = true →
      system.suppresses event travel remote now = false) ∧
    (system.down held = true → system.view held = false →
      system.suppresses event travel remote now = true) ∧
    (pressed = false → (system.next (.process event travel remote now)).view held = false) := by
  obtain ⟨regular, tracked⟩ := tracks_of_reachable reachable
  have tracks := tracked held
  have balanced : (pressed = false → system.view held = true →
      system.suppresses event travel remote now = false) ∧
      (system.down held = true → system.view held = false →
        system.suppresses event travel remote now = true) := by
    cases known : held.isKnown with
    | true => exact (process_known regular tracks input known travel remote now).2
    | false =>
      -- a key without a slot is always delivered, so it is never down unseen
      refine ⟨fun _ _ => process_unknown input known travel remote now, fun down unseen => ?_⟩
      rw [tracks.2 known, down] at unseen
      cases unseen
  refine ⟨balanced.1, balanced.2, fun released => ?_⟩
  subst released
  simp only [next, input]
  cases shown : system.view held with
  | true => simp [balanced.1 rfl shown]
  | false => cases system.suppresses event travel remote now <;> simp [shown]

def fresh : CaptureSystem F :=
  { capture := .new 0, channel := .new, view := fun _ => false, down := fun _ => false }

theorem fresh_initial : (fresh : CaptureSystem F).Initial :=
  ⟨⟨0, true, none, rfl⟩, rfl, rfl, rfl⟩

def pressA : CaptureLabel Int := .process (.key ⟨4⟩ true false ⟨0⟩) none false 0

def takeA : CaptureLabel Int := .handoff true [.key ⟨4⟩ false]

def handedOff : CaptureSystem Int := (fresh.next pressA).next takeA

theorem handedOff_reachable : (captureLts Int).Reachable handedOff := by
  have press : (captureLts Int).step fresh pressA (fresh.next pressA) := ⟨trivial, rfl⟩
  have planned : [LocalTransfer.key ⟨4⟩ false].Sublist
      ((fresh.next pressA).capture.handoffPlan true) := by decide
  have handoff : (captureLts Int).step (fresh.next pressA) takeA handedOff := ⟨planned, rfl⟩
  exact ⟨fresh, _, fresh_initial, .cons press (.single handoff)⟩

theorem local_view_balanced_handedOff :
    (handedOff.down (.key ⟨4⟩) = true ∧ handedOff.view (.key ⟨4⟩) = false) ∧
      handedOff.suppresses (.key ⟨4⟩ false false ⟨0⟩) none true 0 = true :=
  ⟨⟨rfl, rfl⟩, (local_view_balanced handedOff_reachable rfl none true 0).2.1 rfl rfl⟩

end CaptureSystem
end Monhop.Core
