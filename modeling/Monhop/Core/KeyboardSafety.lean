import Monhop.Core.Keyboard
import Monhop.Library.Trace
import Monhop.Library.Transition

/-! # Translated keys are conserved

The plans a translator returns are replayed on a destination that starts with nothing
held.  Whatever the calls and however the direction changes between them, the destination
holds exactly the targets of the physical keys that are down.

* `Translator.Shows` — a destination holds what a keyboard's keys map to.
* `translation_conserves_keys` — the result, over every run.
-/

namespace Monhop.Core

open Function Option Bool Translator

/-- What is held at the destination, by usage. -/
abbrev HeldKeys := HidUsage → Bool

def KeyStep.apply (held : HeldKeys) (step : KeyStep) : HeldKeys :=
  update held step.usage step.pressed

/-- The destination after a plan. -/
def replay (held : HeldKeys) (plan : List KeyStep) : HeldKeys := plan.foldl KeyStep.apply held

@[simp] theorem replay_nil (held : HeldKeys) : replay held [] = held := rfl

@[simp] theorem replay_append (held : HeldKeys) (first second : List KeyStep) :
    replay held (first ++ second) = replay (replay held first) second :=
  List.foldl_append

@[simp] theorem replay_single (held : HeldKeys) (step : KeyStep) :
    replay held [step] = step.apply held := rfl

/-- Each step presses a key that is up or releases one that is down, the exempt steps
apart. -/
def Clean (exempt : KeyStep → Prop) (held : HeldKeys) (plan : List KeyStep) : Prop :=
  ∀ before step after, plan = before ++ step :: after →
    replay held before step.usage = !step.pressed ∨ exempt step

variable {exempt : KeyStep → Prop} {held : HeldKeys}

theorem clean_nil : Clean exempt held [] := Library.atEach_nil

theorem clean_single {step : KeyStep} (fresh : held step.usage = !step.pressed ∨ exempt step) :
    Clean exempt held [step] :=
  Library.atEach_single.mpr fresh

theorem Clean.append {first second : List KeyStep} (leading : Clean exempt held first)
    (trailing : Clean exempt (replay held first) second) : Clean exempt held (first ++ second) := by
  refine Library.atEach_append.mpr ⟨leading, fun before step after split => ?_⟩
  simpa only [replay_append] using trailing before step after split

variable {plan : List KeyStep}

theorem Clean.mono {weaker : KeyStep → Prop} (clean : Clean exempt held plan)
    (implies : ∀ step, exempt step → weaker step) : Clean weaker held plan :=
  fun before step after split => (clean before step after split).imp_right (implies step)

/-- The step that leaves a key as wanted, none where it already is. -/
def setStep (held : HeldKeys) (usage : HidUsage) (pressed : Bool) : List KeyStep :=
  if held usage = pressed then [] else [⟨usage, pressed⟩]

theorem replay_setStep (held : HeldKeys) (usage : HidUsage) (pressed : Bool) :
    replay held (setStep held usage pressed) = update held usage pressed := by
  unfold setStep
  split
  · next already => rw [replay_nil, ← already, update_eq_self]
  · rfl

variable {pressed : Bool}

theorem clean_setStep {usage : HidUsage} : Clean exempt held (setStep held usage pressed) := by
  unfold setStep
  split
  · exact clean_nil
  · next different => exact clean_single (.inl (eq_not.mpr different))

/-- A step on one key leaves what another key needs. -/
theorem setStep_update {usage other : HidUsage} (different : usage ≠ other) {value : Bool} :
    setStep (update held other value) usage pressed = setStep held usage pressed := by
  rw [setStep, setStep, update_of_ne different]

theorem replay_setSteps {first second : HidUsage} (different : first ≠ second)
    {pressed value : Bool} :
    replay held (setStep held first pressed ++ setStep held second value) =
      update (update held first pressed) second value := by
  rw [replay_append, replay_setStep, ← setStep_update different.symm, replay_setStep]

theorem clean_setSteps {first second : HidUsage} (different : first ≠ second)
    {pressed value : Bool} :
    Clean exempt held (setStep held first pressed ++ setStep held second value) := by
  refine (clean_setStep).append ?_
  rw [replay_setStep, ← setStep_update different.symm]
  exact clean_setStep

variable {entry : Option Held} {index : Nat} {usage : HidUsage}

namespace Translator

/-- What the destination holds for a physical key; an unmapped key stands for itself. -/
def target (keyboard : Translator) (usage : HidUsage) : HidUsage :=
  ((keyboard.held usage.code).map Held.target).getD usage

variable {keyboard : Translator}

theorem holds_iff {target : HidUsage} :
    keyboard.holds target = true ↔
      ∃ index < 256, ∃ held, keyboard.held index = some held ∧ held.target = target := by
  simp [holds, any_eq_true]

/-- The table with one entry changed. -/
def put (keyboard : Translator) (index : Nat) (entry : Option Held) : Translator :=
  { keyboard with held := update keyboard.held index entry }

@[simp] theorem put_self (keyboard : Translator) (index : Nat) (entry : Option Held) :
    (keyboard.put index entry).held index = entry :=
  update_self ..

theorem put_of_ne {index other : Nat}
    (different : other ≠ index) : (keyboard.put index entry).held other = keyboard.held other :=
  update_of_ne different ..

theorem put_held (keyboard : Translator) (index : Nat) :
    keyboard.put index (keyboard.held index) = keyboard := by
  unfold put
  rw [update_eq_self]

/-- A target is held by the entry or by another key. -/
theorem holds_put (bound : index < 256)
    (entry : Option Held) (target : HidUsage) : (keyboard.put index entry).holds target =
      (entry.any (·.target == target) || (keyboard.put index none).holds target) := by
  rw [Bool.eq_iff_iff, or_eq_true, holds_iff, holds_iff]
  constructor
  · rintro ⟨other, otherBound, maps, found, same⟩
    by_cases isIndex : other = index
    · subst isIndex
      rw [put_self] at found
      exact .inl (by simp [found, same])
    · rw [put_of_ne isIndex] at found
      exact .inr ⟨other, otherBound, maps, by rwa [put_of_ne isIndex], same⟩
  · rintro (own | ⟨other, otherBound, maps, found, same⟩)
    · obtain ⟨maps, found, same⟩ := (any_eq_true _ _).mp own
      exact ⟨index, bound, maps, by rw [put_self, found], by simpa using same⟩
    have isOther : other ≠ index := by
      rintro rfl
      simp at found
    rw [put_of_ne isOther] at found
    exact ⟨other, otherBound, maps, by rwa [put_of_ne isOther], same⟩

/-- What the keyboard holds, seen from one of its keys. -/
theorem holds_eq (bound : index < 256) (found : keyboard.held index = entry) (target : HidUsage) :
    keyboard.holds target =
      (entry.any (·.target == target) || (keyboard.put index none).holds target) := by
  rw [← holds_put bound, ← found, put_held]

/-! ## What a destination shows -/

/-- The destination holds what the keyboard's keys map to, and the keys outside its table. -/
structure Shows (keyboard : Translator) (outside held : HeldKeys) : Prop where
  shown : ∀ target, held target = (keyboard.holds target || outside target)
  bounded : ∀ index entry, keyboard.held index = some entry → entry.target.code < 256
  apart : ∀ usage, usage.code < 256 → outside usage = false

variable {outside : HeldKeys}

/-- A changed entry, once the destination follows it. -/
theorem Shows.put {after : HeldKeys} (shows : keyboard.Shows outside held) (bound : index < 256)
    (fits : ∀ held, entry = some held → held.target.code < 256)
    (shown : ∀ target, after target = (entry.any (·.target == target) ||
      (keyboard.put index none).holds target || outside target)) :
    (keyboard.put index entry).Shows outside after := by
  refine ⟨fun target => by rw [shown, holds_put bound entry], fun other maps found => ?_,
    shows.apart⟩
  by_cases same : other = index
  · subst same
    rw [put_self] at found
    exact fits maps found
  · rw [put_of_ne same] at found
    exact shows.bounded other maps found

theorem Shows.down {entry : Held} (shows : keyboard.Shows outside held)
    (bound : index < 256) (found : keyboard.held index = some entry) :
    held entry.target = true := by
  rw [shows.shown, holds_eq bound found]
  simp

/-! ## Moving a modifier -/

/-- One entry's target for another: what other keys hold stays down. -/
def moveSteps (keyboard : Translator) (index : Nat) (old new : Held) (pressesFirst : Bool) :
    List KeyStep :=
  let moves := new.target != old.target
  let presses := if moves && !keyboard.holds new.target then [KeyStep.mk new.target true] else []
  let releases := if moves && !(keyboard.put index (some new)).holds old.target then
    [KeyStep.mk old.target false] else []
  if pressesFirst then presses ++ releases else releases ++ presses

section Move
variable {old new : Held} {pressesFirst : Bool}

theorem moveSteps_still (same : new.target = old.target) :
    keyboard.moveSteps index old new pressesFirst = [] := by
  simp [moveSteps, same]

variable (bound : index < 256) (found : keyboard.held index = some old)
  (shows : keyboard.Shows outside held) (fits : new.target.code < 256)
include bound found shows fits

/-- A move presses its new target and leaves its old one as the other keys have it. -/
theorem moveSteps_eq (moves : new.target ≠ old.target) :
    keyboard.moveSteps index old new pressesFirst =
      let presses := setStep held new.target true
      let releases := setStep held old.target ((keyboard.put index none).holds old.target)
      if pressesFirst then presses ++ releases else releases ++ presses := by
  have newHolds : keyboard.holds new.target = (keyboard.put index none).holds new.target := by
    rw [holds_eq bound found]
    simp [Ne.symm moves]
  have newHeld : held new.target = (keyboard.put index none).holds new.target := by
    rw [shows.shown, shows.apart _ fits, newHolds, Bool.or_false]
  have oldHolds : (keyboard.put index (some new)).holds old.target =
      (keyboard.put index none).holds old.target := by
    rw [holds_put bound]
    simp [moves]
  simp only [moveSteps, setStep, newHeld, shows.down bound found, newHolds, oldHolds,
    bne_iff_ne.mpr moves]
  cases (keyboard.put index none).holds new.target <;>
    cases (keyboard.put index none).holds old.target <;> rfl

theorem moveSteps_clean : Clean exempt held (keyboard.moveSteps index old new pressesFirst) := by
  by_cases moves : new.target = old.target
  · rw [moveSteps_still moves]
    exact clean_nil
  · rw [moveSteps_eq bound found shows fits moves]
    cases pressesFirst with
    | true => exact clean_setSteps moves
    | false => exact clean_setSteps (Ne.symm moves)

theorem moveSteps_shows :
    (keyboard.put index (some new)).Shows outside
      (replay held (keyboard.moveSteps index old new pressesFirst)) := by
  refine shows.put bound (by simpa using fits) fun target => ?_
  by_cases moves : new.target = old.target
  · rw [moveSteps_still moves, replay_nil, shows.shown, holds_eq bound found]
    simp [moves]
  have distinct : old.target ≠ new.target := Ne.symm moves
  have replayed : replay held (keyboard.moveSteps index old new pressesFirst) =
      update (update held new.target true) old.target
        ((keyboard.put index none).holds old.target) := by
    rw [moveSteps_eq bound found shows fits moves]
    cases pressesFirst with
    | true => exact replay_setSteps moves
    | false =>
      rw [update_comm moves]
      exact replay_setSteps distinct
  rw [replayed]
  by_cases isOld : target = old.target
  · subst isOld
    simp [shows.apart _ (shows.bounded index old found), moves]
  by_cases isNew : target = new.target
  · subst isNew
    simp [moves]
  · rw [update_of_ne isOld, update_of_ne isNew, shows.shown, holds_eq bound found]
    simp [beq_eq_false_iff_ne.mpr (Ne.symm isOld), beq_eq_false_iff_ne.mpr (Ne.symm isNew)]

end Move

theorem usage_code_lt {modifier : SemanticModifier} : modifier.usage.code < 256 := by
  obtain ⟨_ | _, _ | _ | _ | _⟩ := modifier <;> decide

/-- The same keys are down in two tables. -/
def SameKeys (first second : Translator) : Prop :=
  ∀ index, (first.held index).isSome = (second.held index).isSome

/-- A plan so far: the destination shows where it led, cleanly. -/
structure Follows (start : Translator) (outside held : HeldKeys)
    (state : Translator × List KeyStep) : Prop where
  shows : state.1.Shows outside (replay held state.2)
  clean : ∀ exempt, Clean exempt held state.2
  same : state.1.SameKeys start

theorem Shows.follows (shows : keyboard.Shows outside held) :
    Follows keyboard outside held (keyboard, []) :=
  ⟨shows, fun _ => clean_nil, fun _ => rfl⟩

theorem followOne_eq (direction : Direction) (key : Option HidUsage) (kinds : Kinds)
    (keyboard : Translator) (plan : List KeyStep) (usage : Nat) :
    followOne direction key kinds (keyboard, plan) usage =
      match (keyboard.held usage).filter Held.follows, semanticModifier ⟨usage⟩ with
      | some old, some modifier =>
        let new := wanted direction modifier old key kinds
        (keyboard.put usage (some new),
          plan ++ keyboard.moveSteps usage old new direction.pressesFirst)
      | _, _ => (keyboard, plan) := rfl

theorem Follows.followOne {start : Translator} {state : Translator × List KeyStep}
    (follows : Follows start outside held state) (direction : Direction) (key : Option HidUsage)
    (kinds : Kinds) {usage : Nat} (bound : usage < 256) :
    Follows start outside held (followOne direction key kinds state usage) := by
  obtain ⟨keyboard, plan⟩ := state
  rw [followOne_eq]
  split
  · next old modifier following known =>
    have found : keyboard.held usage = some old := (filter_eq_some_iff.mp following).1
    have fits : (wanted direction modifier old key kinds).target.code < 256 := usage_code_lt
    refine ⟨?_, fun exempt => ?_, fun index => ?_⟩
    · rw [replay_append]
      exact moveSteps_shows bound found follows.shows fits
    · exact (follows.clean exempt).append (moveSteps_clean bound found follows.shows fits)
    rw [← follows.same index]
    by_cases isUsage : index = usage
    · subst isUsage
      simp [found]
    · rw [put_of_ne isUsage]
  · exact follows

theorem Shows.follow (shows : keyboard.Shows outside held) (direction : Direction)
    (key : Option HidUsage) : Follows keyboard outside held (keyboard.follow direction key) := by
  refine List.foldlRecOn _ _ shows.follows fun state follows usage member => ?_
  exact follows.followOne direction key _ (by simp at member; omega)

/-! ## One key -/

/-- What delivering a key leaves: the destination shows the key as it now is, and a step
is clean unless it only says again how the key already was. -/
structure Delivered (start : Translator) (outside held : HeldKeys) (usage : HidUsage)
    (pressed : Bool) (result : List KeyStep × Translator) : Prop where
  shows : result.2.Shows outside (replay held result.1)
  clean : Clean (fun step => (start.held usage.code).isSome = pressed ∧
    step = ⟨result.2.target usage, pressed⟩) held result.1
  keys : ∀ index, (result.2.held index).isSome =
    if index = usage.code then pressed else (start.held index).isSome

/-- A key that is up goes down with one entry, its own usage where nothing is translated. -/
theorem press_up (bound : usage.code < 256)
    (up : keyboard.held usage.code = none) (translate : Option Direction) :
    ∃ entry : Held, entry.target.code < 256 ∧ (translate = none → entry = .fixed usage) ∧
      keyboard.press usage translate plan =
        (if keyboard.holds entry.target then plan else plan ++ [⟨entry.target, true⟩],
          keyboard.put usage.code (some entry)) := by
  unfold Translator.press
  rw [up]
  refine ⟨_, ?_, ?_, rfl⟩
  · split
    · exact usage_code_lt
    · exact bound
  · intro off
    simp [off]

theorem press_down {entry : Held}
    (down : keyboard.held usage.code = some entry) (translate : Option Direction) :
    keyboard.press usage translate plan = (plan ++ [⟨entry.target, true⟩], keyboard) := by
  unfold Translator.press
  rw [down]

theorem Follows.press {start : Translator}
    (follows : Follows start outside held (keyboard, plan)) (bound : usage.code < 256)
    (translate : Option Direction) :
    Delivered start outside held usage true (keyboard.press usage translate plan) := by
  have same : keyboard.SameKeys start := follows.same
  have shows : keyboard.Shows outside (replay held plan) := follows.shows
  cases found : keyboard.held usage.code with
  | some entry =>
    -- a repeat presses its target again, which is down already
    rw [press_down found]
    have again : (start.held usage.code).isSome = true := by rw [← same, found]; rfl
    refine ⟨?_, (follows.clean _).append (clean_single (.inr ⟨again, ?_⟩)), fun index => ?_⟩
    · rw [replay_append, replay_single, KeyStep.apply, ← shows.down bound found, update_eq_self]
      exact shows
    · simp [target, found]
    · by_cases isUsage : index = usage.code
      · simp [isUsage, found]
      · simp [isUsage, same index]
  | none =>
    obtain ⟨entry, fits, _, pressed⟩ := @press_up plan usage keyboard bound found translate
    have alone : keyboard.put usage.code none = keyboard := by rw [← found, put_held]
    have steps : (if keyboard.holds entry.target then plan else plan ++ [⟨entry.target, true⟩]) =
        plan ++ setStep (replay held plan) entry.target true := by
      rw [setStep, shows.shown, shows.apart _ fits, Bool.or_false]
      split <;> simp
    rw [pressed, steps]
    refine ⟨?_, (follows.clean _).append clean_setStep, fun index => ?_⟩
    · rw [replay_append, replay_setStep]
      refine shows.put bound (by simpa using fits) fun target => ?_
      by_cases isTarget : target = entry.target
      · simp [isTarget]
      · rw [update_of_ne isTarget, shows.shown, alone]
        simp [beq_eq_false_iff_ne.mpr (Ne.symm isTarget)]
    · by_cases isUsage : index = usage.code
      · simp [isUsage]
      · rw [put_of_ne isUsage, same index, if_neg isUsage]

section
variable (shows : keyboard.Shows outside held)
include shows

theorem Shows.release (bound : usage.code < 256) :
    Delivered keyboard outside held usage false (keyboard.release usage) := by
  have keys : ∀ index, ((keyboard.put usage.code none).held index).isSome =
      if index = usage.code then false else (keyboard.held index).isSome := by
    intro index
    by_cases isUsage : index = usage.code
    · simp [isUsage]
    · rw [put_of_ne isUsage, if_neg isUsage]
  cases found : keyboard.held usage.code with
  | some entry =>
    have steps : keyboard.release usage = (setStep held entry.target
        ((keyboard.put usage.code none).holds entry.target), keyboard.put usage.code none) := by
      rw [setStep, shows.down bound found]
      show (if (keyboard.put usage.code none).holds _ then _ else _, _) = _
      simp only [found, map_some, getD_some]
      cases (keyboard.put usage.code none).holds entry.target <;> rfl
    rw [steps]
    refine ⟨?_, clean_setStep, keys⟩
    rw [replay_setStep]
    refine shows.put bound (by simp) fun target => ?_
    by_cases isTarget : target = entry.target
    · simp [isTarget, shows.apart _ (shows.bounded _ _ found)]
    · rw [update_of_ne isTarget, shows.shown, holds_eq bound found]
      simp [beq_eq_false_iff_ne.mpr (Ne.symm isTarget)]
  | none =>
    -- nothing is known of the key: its own release, unless another key holds that usage
    have alone : keyboard.put usage.code none = keyboard := by rw [← found, put_held]
    have steps : keyboard.release usage =
        (if keyboard.holds usage then [] else [⟨usage, false⟩], keyboard) := by
      show (if (keyboard.put usage.code none).holds _ then _ else _, keyboard.put _ none) = _
      simp [alone, found]
    rw [steps]
    have up : keyboard.holds usage = false → held usage = false := by
      intro free
      rw [shows.shown, free, shows.apart usage bound]
      rfl
    refine ⟨?_, ?_, by rw [alone] at keys; exact keys⟩
    · cases free : keyboard.holds usage with
      | true => simpa using shows
      | false =>
        have still : replay held [⟨usage, false⟩] = held := by
          rw [replay_single, KeyStep.apply, ← up free, update_eq_self]
        simpa [still] using shows
    · split
      · exact clean_nil
      · exact clean_single (.inr ⟨by simp [found], by simp [target, found]⟩)

omit shows in
theorem key_release (bound : usage.code < 256) (translate : Option Direction) :
    keyboard.key usage false translate = keyboard.release usage :=
  if_neg (Nat.not_le.mpr bound)

omit shows in
theorem key_press (bound : usage.code < 256) (translate : Option Direction) :
    keyboard.key usage true translate = match translate, semanticModifier usage with
      | some direction, none =>
        (keyboard.follow direction (some usage)).1.press usage translate
          (keyboard.follow direction (some usage)).2
      | _, _ => keyboard.press usage translate [] :=
  if_neg (Nat.not_le.mpr bound)

theorem Shows.key (bound : usage.code < 256) (pressed : Bool) (translate : Option Direction) :
    Delivered keyboard outside held usage pressed (keyboard.key usage pressed translate) := by
  cases pressed with
  | false =>
    rw [key_release bound]
    exact shows.release bound
  | true =>
    rw [key_press bound]
    split
    · exact (shows.follow _ _).press bound _
    · exact shows.follows.press bound _

omit shows in
/-- A key outside the table is passed on as it is. -/
theorem key_untabled (past : 256 ≤ usage.code) (pressed : Bool) (translate : Option Direction) :
    keyboard.key usage pressed translate = ([⟨usage, pressed⟩], keyboard) := by
  unfold Translator.key
  rw [if_pos past]

theorem Shows.holds_untabled (past : 256 ≤ usage.code) : keyboard.holds usage = false := by
  rw [eq_false_iff, Ne, holds_iff]
  rintro ⟨index, _, entry, found, rfl⟩
  exact absurd (shows.bounded index entry found) (by omega)

end
end Translator

/-! ## Runs -/

inductive TranslatorCall where
  | key (usage : HidUsage) (pressed : Bool) (translate : Option Direction)
  | click (translate : Option Direction)
  | clear

/-- A translator, the physical keys it knows to be down, and the destination its plans were
replayed on. -/
structure Typing where
  keyboard : Translator
  physical : HeldKeys
  destination : HeldKeys

def Typing.start : Typing :=
  { keyboard := .default, physical := fun _ => false, destination := fun _ => false }

namespace TranslatorCall

variable (call : TranslatorCall)

def run (keyboard : Translator) : List KeyStep × Translator :=
  match call with
  | .key usage pressed translate => keyboard.key usage pressed translate
  | .click translate => keyboard.click translate
  | .clear => ([], keyboard.clear)

def translate : TranslatorCall → Option Direction
  | .key _ _ translate | .click translate => translate
  | .clear => none

/-- The physical keys known to be down after the call. -/
def track (physical : HeldKeys) : HeldKeys :=
  match call with
  | .key usage pressed _ => update physical usage pressed
  | .click _ => physical
  | .clear => fun _ => false

/-- A clear reports that the destination released every key. -/
def deliver (plan : List KeyStep) (destination : HeldKeys) : HeldKeys :=
  match call with
  | .clear => fun _ => false
  | _ => replay destination plan

def next (typing : Typing) : Typing :=
  let (plan, keyboard) := call.run typing.keyboard
  { keyboard, physical := call.track typing.physical
    destination := call.deliver plan typing.destination }

/-- The step of a call that reports a key as it already was: a repeated press, or the
release of a key not known to be down. -/
def Restates (typing : Typing) (step : KeyStep) : Prop :=
  ∃ usage pressed translate, call = .key usage pressed translate ∧
    typing.physical usage = pressed ∧ step = ⟨(call.next typing).keyboard.target usage, pressed⟩

/-- The call's own key, passed on as it is. -/
def ownSteps : TranslatorCall → List KeyStep
  | .key usage pressed _ => [⟨usage, pressed⟩]
  | .click _ | .clear => []

end TranslatorCall

def typingLts : Library.Lts Typing TranslatorCall where
  init typing := typing = .start
  step first call second := second = call.next first

namespace Typing

/-- The keys down outside the translator's table. -/
def outside (physical : HeldKeys) : HeldKeys := fun usage => decide (256 ≤ usage.code) && physical usage

theorem outside_of_tabled {physical : HeldKeys} (bound : usage.code < 256) :
    outside physical usage = false := by
  simp [outside]
  omega

/-- The table knows exactly the physical keys, and the destination shows it. -/
structure Kept (typing : Typing) : Prop where
  shows : typing.keyboard.Shows (outside typing.physical) typing.destination
  tabled : ∀ usage, usage.code < 256 →
    (typing.keyboard.held usage.code).isSome = typing.physical usage
  untabled : ∀ index, 256 ≤ index → typing.keyboard.held index = none

theorem start_kept : start.Kept := by
  refine ⟨⟨fun target => ?_, nofun, fun _ bound => outside_of_tabled bound⟩, fun _ _ => rfl,
    fun _ _ => rfl⟩
  simp [start, outside, Translator.default, Translator.holds]

variable {typing : Typing}

theorem Kept.delivered (kept : typing.Kept)
    (bound : usage.code < 256) {result : List KeyStep × Translator}
    (delivered : Translator.Delivered typing.keyboard (outside typing.physical)
      typing.destination usage pressed result) :
    Kept ⟨result.2, update typing.physical usage pressed, replay typing.destination result.1⟩ := by
  have same : outside (update typing.physical usage pressed) = outside typing.physical := by
    funext other
    by_cases isUsage : other = usage
    · rw [isUsage, outside_of_tabled bound, outside_of_tabled bound]
    · simp [outside, isUsage]
  refine ⟨same ▸ delivered.shows, fun other otherBound => ?_, fun index past => ?_⟩
  · show (result.2.held other.code).isSome = update typing.physical usage pressed other
    rw [delivered.keys]
    by_cases isUsage : other = usage
    · simp [isUsage]
    · have different : other.code ≠ usage.code := fun equal => isUsage (by cases other; cases usage; simp_all)
      rw [if_neg different, update_of_ne isUsage, kept.tabled other otherBound]
  · have free := delivered.keys index
    rw [if_neg (by omega), kept.untabled index past] at free
    simpa using free

theorem Kept.untabled_key (kept : typing.Kept) (past : 256 ≤ usage.code) :
    Kept ⟨typing.keyboard, update typing.physical usage pressed,
      update typing.destination usage pressed⟩ := by
  refine ⟨⟨fun target => ?_, kept.shows.bounded, fun _ => outside_of_tabled⟩,
    fun other bound => ?_, kept.untabled⟩
  · by_cases isUsage : target = usage
    · simp [isUsage, kept.shows.holds_untabled past, outside, past]
    · simp [isUsage, outside, kept.shows.shown]
  · have different : other ≠ usage := by
      rintro rfl
      omega
    simpa [different] using kept.tabled other bound

theorem Kept.call (kept : typing.Kept) (call : TranslatorCall) :
    (call.next typing).Kept ∧
      Clean (call.Restates typing) typing.destination (call.run typing.keyboard).1 := by
  cases call with
  | key usage pressed translate =>
    rcases Nat.lt_or_ge usage.code 256 with bound | past
    · have delivered := kept.shows.key bound pressed translate
      refine ⟨kept.delivered bound delivered, delivered.clean.mono fun step restates => ?_⟩
      exact ⟨usage, pressed, translate, rfl, kept.tabled usage bound ▸ restates.1, restates.2⟩
    have passed := @Translator.key_untabled usage typing.keyboard past pressed translate
    have next : TranslatorCall.next (.key usage pressed translate) typing =
        ⟨typing.keyboard, update typing.physical usage pressed,
          update typing.destination usage pressed⟩ := by
      simp only [TranslatorCall.next, TranslatorCall.run, passed]
      rfl
    refine ⟨next ▸ kept.untabled_key past, ?_⟩
    simp only [TranslatorCall.run, passed]
    refine clean_single ?_
    by_cases same : typing.physical usage = pressed
    · refine .inr ⟨usage, pressed, translate, rfl, same, ?_⟩
      rw [next]
      simp [Translator.target, kept.untabled usage.code past]
    · refine .inl ?_
      rw [kept.shows.shown, kept.shows.holds_untabled past]
      simpa [outside, past, eq_not] using same
  | click translate =>
    cases translate with
    | none => exact ⟨kept, clean_nil⟩
    | some direction =>
      have follows := kept.shows.follow direction none
      refine ⟨⟨follows.shows, fun usage bound => ?_, fun index past => ?_⟩, follows.clean _⟩
      · exact (follows.same usage.code).trans (kept.tabled usage bound)
      · have free := follows.same index
        rw [kept.untabled index past] at free
        show (typing.keyboard.follow direction none).1.held index = none
        simpa using free
  | clear => exact ⟨start_kept, clean_nil⟩

theorem reachable_kept (reachable : typingLts.Reachable typing) : typing.Kept := by
  refine reachable.invariant Kept ?_ ?_
  · rintro _ rfl
    exact start_kept
  · rintro first call _ kept rfl
    exact (kept.call call).1

/-- The destination holds the targets of the physical keys. -/
theorem Kept.destination_iff (kept : typing.Kept) (target : HidUsage) :
    typing.destination target = true ↔
      ∃ usage, typing.physical usage = true ∧ typing.keyboard.target usage = target := by
  rw [kept.shows.shown, or_eq_true, holds_iff]
  constructor
  · rintro (⟨index, bound, entry, found, rfl⟩ | outside)
    · have down := kept.tabled ⟨index⟩ bound
      exact ⟨⟨index⟩, by simpa [found] using down.symm, by simp [Translator.target, found]⟩
    · simp only [Typing.outside, and_eq_true, decide_eq_true_eq] at outside
      refine ⟨target, outside.2, ?_⟩
      simp [Translator.target, kept.untabled _ outside.1]
  · rintro ⟨usage, down, rfl⟩
    rcases Nat.lt_or_ge usage.code 256 with bound | past
    · have known := kept.tabled usage bound
      rw [down, isSome_iff_exists] at known
      obtain ⟨entry, found⟩ := known
      exact .inl ⟨usage.code, bound, entry, found, by simp [Translator.target, found]⟩
    · refine .inr ?_
      simp [Translator.target, kept.untabled _ past, outside, past, down]

/-! ## Translation off -/

/-- Every key that is down stands for itself. -/
def Plain (keyboard : Translator) : Prop :=
  ∀ index entry, keyboard.held index = some entry → entry = .fixed ⟨index⟩

variable {keyboard : Translator}

theorem Plain.put (plain : Plain keyboard)
    (own : ∀ held, entry = some held → held = .fixed ⟨index⟩) : Plain (keyboard.put index entry) := by
  intro other held found
  by_cases same : other = index
  · subst same
    rw [put_self] at found
    exact own held found
  · rw [put_of_ne same] at found
    exact plain other held found

/-- No other key stands for a key that is up. -/
theorem Plain.holds_up (plain : Plain keyboard) (up : keyboard.held usage.code = none) :
    keyboard.holds usage = false := by
  rw [eq_false_iff, Ne, holds_iff]
  rintro ⟨index, _, entry, found, same⟩
  rw [plain index entry found] at same
  subst same
  have none : keyboard.held index = none := up
  rw [none] at found
  cases found

/-- Untranslated, a call passes its own key on and keeps every key itself. -/
theorem Plain.call (plain : Plain keyboard) {call : TranslatorCall} (off : call.translate = none) :
    (call.run keyboard).1 = call.ownSteps ∧ Plain (call.run keyboard).2 := by
  cases call with
  | click translate =>
    cases off
    exact ⟨rfl, plain⟩
  | clear => exact ⟨rfl, nofun⟩
  | key usage pressed translate =>
    cases off
    rcases Nat.lt_or_ge usage.code 256 with bound | past
    · cases pressed with
      | false =>
        have own : keyboard.target usage = usage := by
          unfold Translator.target
          cases found : keyboard.held usage.code with
          | none => rfl
          | some entry => rw [plain _ entry found]; rfl
        have lifted : Plain (keyboard.put usage.code none) := plain.put nofun
        have released : keyboard.key usage false none =
            (if (keyboard.put usage.code none).holds (keyboard.target usage) then []
              else [⟨keyboard.target usage, false⟩], keyboard.put usage.code none) :=
          key_release bound none
        simp only [TranslatorCall.run, released, own, lifted.holds_up (put_self ..)]
        exact ⟨rfl, lifted⟩
      | true =>
        simp only [TranslatorCall.run, key_press bound]
        cases found : keyboard.held usage.code with
        | some entry =>
          rw [press_down found, plain _ entry found]
          exact ⟨rfl, plain⟩
        | none =>
          obtain ⟨entry, _, fixed, down⟩ := @Translator.press_up [] usage keyboard bound found none
          rw [down, fixed rfl]
          simp only [Held.fixed, plain.holds_up found]
          exact ⟨rfl, plain.put (by rintro _ ⟨⟩; rfl)⟩
    · simp only [TranslatorCall.run, key_untabled past]
      exact ⟨rfl, plain⟩

theorem untranslated_plain
    (reachable : (typingLts.restrict fun _ call => call.translate = none).Reachable typing) :
    Plain typing.keyboard := by
  refine reachable.invariant (fun typing => Plain typing.keyboard) ?_ ?_
  · rintro _ rfl
    exact nofun
  · rintro first call _ plain ⟨off, rfl⟩
    exact (plain.call off).2

end Typing

/-- Translation conserves keys.  After every call the destination holds exactly the targets
of the physical keys that are down, so nothing once all are up; each step presses a key
that is up or releases one that is down, unless its call only says again how its own key
already was.  With translation always off a call passes on its own key. -/
theorem translation_conserves_keys :
    (∀ typing, typingLts.Reachable typing →
      (∀ target, typing.destination target = true ↔
        ∃ usage, typing.physical usage = true ∧ typing.keyboard.target usage = target) ∧
      ((∀ usage, typing.physical usage = false) → ∀ target, typing.destination target = false) ∧
      ∀ call : TranslatorCall,
        Clean (call.Restates typing) typing.destination (call.run typing.keyboard).1) ∧
    ∀ typing, (typingLts.restrict fun _ call => call.translate = none).Reachable typing →
      ∀ call : TranslatorCall, call.translate = none →
        (call.run typing.keyboard).1 = call.ownSteps := by
  refine ⟨fun typing reachable => ?_, fun typing reachable call off => ?_⟩
  · have kept := Typing.reachable_kept reachable
    refine ⟨kept.destination_iff, fun up target => ?_, fun call => (kept.call call).2⟩
    rw [eq_false_iff, Ne, kept.destination_iff]
    rintro ⟨usage, down, _⟩
    rw [up usage] at down
    cases down
  · exact ((Typing.untranslated_plain reachable).call off).1

namespace TypingRun

/-- Ctrl and Tab on a Windows keyboard that drives a Mac. -/
def switching : Typing :=
  (TranslatorCall.key HID_TAB true (some .windowsOnMac)).next
    ((TranslatorCall.key ⟨0xE0⟩ true (some .windowsOnMac)).next .start)

theorem switching_reachable : typingLts.Reachable switching :=
  ⟨.start, [_, _], rfl, .cons rfl (.single rfl)⟩

/-- Control is down for Ctrl again, as Tab wants it. -/
theorem translation_conserves_keys_switching :
    switching.keyboard.target ⟨0xE0⟩ = ⟨0xE0⟩ ∧ switching.destination ⟨0xE0⟩ = true :=
  ⟨by decide +kernel,
    ((translation_conserves_keys.1 switching switching_reachable).1 ⟨0xE0⟩).mpr
      ⟨⟨0xE0⟩, by decide +kernel, by decide +kernel⟩⟩

def repeating : Typing := (TranslatorCall.key ⟨4⟩ true none).next .start

/-- A repeat presses a key that is held. -/
theorem repeat_presses_held_key :
    typingLts.Reachable repeating ∧ repeating.destination ⟨4⟩ = true ∧
      ((TranslatorCall.key ⟨4⟩ true none).run repeating.keyboard).1 = [⟨⟨4⟩, true⟩] :=
  ⟨⟨.start, [_], rfl, .single rfl⟩, by decide +kernel, by decide +kernel⟩

end TypingRun
end Monhop.Core
