import Monhop.Core.KeyboardSafety

/-! # A modifier moves without a gap

On Windows a modifier that moves to another target presses it before the old one is lifted.  A
plan moves one modifier after the other, and one may stand on the target another leaves.

* `moveSteps_spares` — a modifier that moves never lifts the target of another.
* `moveSteps_bridges` — it presses its own new target first.
* `retarget_leaves_no_gap` — every plan of every run.
-/

namespace Monhop.Core

open List Function Option Translator
open Library (Always always_append always_nil)
variable {held : HeldKeys} {property : HeldKeys → Prop}

/-- The property holds of what is held before, between and after the steps. -/
def Throughout (property : HeldKeys → Prop) (held : HeldKeys) (plan : List KeyStep) : Prop :=
  Always (fun front => property (replay held front)) plan

theorem throughout_nil (holds : property held) : Throughout property held [] := always_nil holds

theorem throughout_append {first second : List KeyStep} :
    Throughout property held (first ++ second) ↔
      Throughout property held first ∧ Throughout property (replay held first) second := by
  unfold Throughout
  rw [always_append]
  simp only [replay_append]

theorem throughout_single {step : KeyStep} (before : property held) (after : property (step.apply held)) :
    Throughout property held [step] := by
  intro front back split
  cases front with
  | nil => exact before
  | cons first front =>
    cases front with
    | nil =>
      cases split
      exact after
    | cons _ _ => simp at split

theorem throughout_setStep {usage : HidUsage} {pressed : Bool} (before : property held)
    (after : property (update held usage pressed)) :
    Throughout property held (setStep held usage pressed) := by
  unfold setStep
  split
  · exact throughout_nil before
  · exact throughout_single before after

theorem update_true_of (usage : HidUsage) {target : HidUsage} (down : held target = true) :
    update held usage true target = true := by
  by_cases same : target = usage
  · rw [same, update_self]
  · rw [update_of_ne same, down]

namespace Translator

variable {keyboard : Translator} {outside : HeldKeys} {index other : Nat} {old new entry : Held}

section
variable (bound : index < 256) (found : keyboard.held index = some old)
  (shows : keyboard.Shows outside held) (fits : new.target.code < 256)
include bound found shows fits

/-- A move steps through two updates, the press first. -/
theorem moveSteps_throughout (moves : new.target ≠ old.target) (before : property held)
    (between : property (update held new.target true))
    (after : property (update (update held new.target true) old.target
      ((keyboard.put index none).holds old.target))) :
    Throughout property held (keyboard.moveSteps index old new true) := by
  rw [moveSteps_eq bound found shows fits moves]
  refine throughout_append.mpr ⟨throughout_setStep before between, ?_⟩
  rw [replay_setStep, ← setStep_update moves.symm]
  exact throughout_setStep between after

/-- A modifier that moves leaves the targets of the other keys down. -/
theorem moveSteps_spares (otherBound : other < 256) (different : other ≠ index)
    (holds : keyboard.held other = some entry) :
    Throughout (· entry.target = true) held (keyboard.moveSteps index old new true) := by
  have down := shows.down otherBound holds
  by_cases moves : new.target = old.target
  · rw [moveSteps_still moves]
    exact throughout_nil down
  have pressed := update_true_of new.target down
  refine moveSteps_throughout bound found shows fits moves down pressed ?_
  by_cases same : entry.target = old.target
  · have still : (keyboard.put index none).holds old.target = true :=
      holds_iff.mpr ⟨other, otherBound, entry, by rwa [put_of_ne different], same⟩
    rw [same, update_self, still]
  · rwa [update_of_ne same]

/-- Its own new target is down before the old one is up. -/
theorem moveSteps_bridges (moves : new.target ≠ old.target) :
    Throughout (fun held => held old.target = true ∨ held new.target = true) held
      (keyboard.moveSteps index old new true) := by
  refine moveSteps_throughout bound found shows fits moves (.inl (shows.down bound found))
    (.inr (update_self ..)) (.inr ?_)
  rw [update_of_ne moves, update_self]

end

/-! ## A plan -/

/-- A plan so far, with one key on its entry and the property of the destination all along. -/
structure Carried (property : HeldKeys → Prop) (start : Translator) (outside held : HeldKeys)
    (index : Nat) (entry : Held) (state : Translator × List KeyStep) : Prop where
  follows : Follows start outside held state
  found : state.1.held index = some entry
  throughout : Throughout property held state.2

variable {start : Translator} {state : Translator × List KeyStep} {key : Option HidUsage}
  {kinds : Kinds} {usage : Nat}

/-- The turn of another modifier keeps what the key's own target gives. -/
theorem Carried.followOne (carried : Carried property start outside held index entry state)
    (gives : ∀ held : HeldKeys, held entry.target = true → property held) (bound : usage < 256)
    (indexBound : index < 256) (different : index ≠ usage) :
    Carried property start outside held index entry
      (followOne .macOnWindows key kinds state usage) := by
  refine ⟨carried.follows.followOne _ key kinds bound, ?_, ?_⟩ <;>
    obtain ⟨⟨shows, clean, same⟩, found, throughout⟩ := carried <;>
    obtain ⟨keyboard, plan⟩ := state <;> rw [followOne_eq] <;> split
  · exact (put_of_ne different).trans found
  · exact found
  · next old modifier following known =>
    have turn : keyboard.held usage = some old := (filter_eq_some_iff.mp following).1
    have fits : (wanted .macOnWindows modifier old key kinds).target.code < 256 := usage_code_lt
    have spared := moveSteps_spares bound turn shows fits indexBound different found
    exact throughout_append.mpr ⟨throughout, spared.mono fun _ => gives _⟩
  · exact throughout

theorem Carried.foldl {usages : List Nat}
    (carried : Carried property start outside held index entry state)
    (key : Option HidUsage) (kinds : Kinds)
    (gives : ∀ held : HeldKeys, held entry.target = true → property held)
    (bounds : ∀ usage ∈ usages, usage < 256) (indexBound : index < 256) (absent : index ∉ usages) :
    Carried property start outside held index entry
      (usages.foldl (Translator.followOne .macOnWindows key kinds) state) := by
  induction usages generalizing state with
  | nil => exact carried
  | cons usage usages ih =>
    rw [mem_cons, not_or] at absent
    refine ih ?_ (fun other member => bounds other (by simp [member])) absent.2
    exact carried.followOne gives (bounds usage (by simp)) indexBound absent.1

/-- One of the two targets of a key that moves is down. -/
def Either (old new : Held) (held : HeldKeys) : Prop :=
  held old.target = true ∨ held new.target = true

theorem Carried.turn (carried : Carried (· old.target = true) start outside held index old state)
    (bound : index < 256)
    (found : (Translator.followOne .macOnWindows key kinds state index).1.held index = some new)
    (moves : new.target ≠ old.target) :
    Carried (Either old new) start outside held index new
      (Translator.followOne .macOnWindows key kinds state index) := by
  refine ⟨carried.follows.followOne _ key kinds bound, found, ?_⟩
  obtain ⟨⟨shows, clean, same⟩, stands, down⟩ := carried
  obtain ⟨keyboard, plan⟩ := state
  rw [followOne_eq] at found ⊢
  split at found
  · next before modifier following known =>
    have same : before = old := by
      have turn := (filter_eq_some_iff.mp following).1
      exact some.inj (turn.symm.trans stands)
    subst same
    simp only [put_self, some.injEq] at found
    subst found
    exact throughout_append.mpr ⟨down.mono fun _ => Or.inl,
      moveSteps_bridges bound stands shows usage_code_lt moves⟩
  · -- no turn at all leaves the key where it is
    have same : some new = some old := found.symm.trans stands
    cases same
    exact absurd rfl moves

theorem Shows.follow_bridges (shows : keyboard.Shows outside held) (bound : index < 256)
    (found : keyboard.held index = some old)
    (moved : (keyboard.follow .macOnWindows key).1.held index = some new)
    (moves : new.target ≠ old.target) :
    Throughout (Either old new) held (keyboard.follow .macOnWindows key).2 := by
  have carried : Carried (· old.target = true) keyboard outside held index old (keyboard, []) :=
    ⟨shows.follows, found, throughout_nil (shows.down bound found)⟩
  have bounds : ∀ usage ∈ [0xE0, 0xE1, 0xE2, 0xE3, 0xE4, 0xE5, 0xE6, 0xE7], usage < 256 := by decide
  have once : [0xE0, 0xE1, 0xE2, 0xE3, 0xE4, 0xE5, 0xE6, 0xE7].Nodup := by decide
  unfold Translator.follow at moved ⊢
  generalize [0xE0, 0xE1, 0xE2, 0xE3, 0xE4, 0xE5, 0xE6, 0xE7] = usages at *
  by_cases member : index ∈ usages
  · obtain ⟨before, after, rfl⟩ := append_of_mem member
    obtain ⟨notBefore, notAfter⟩ : index ∉ before ∧ index ∉ after := by
      simp only [nodup_append, nodup_cons] at once
      exact ⟨fun early => once.2.2 index early index (by simp) rfl, once.2.1.1⟩
    rw [foldl_append, foldl_cons] at moved ⊢
    have ends : ∀ usage ∈ after, usage < 256 := fun usage inside => bounds usage (by simp [inside])
    have first := carried.foldl key keyboard.kinds (fun _ => id)
      (fun usage inside => bounds usage (by simp [inside])) bound notBefore
    have turned := first.follows.followOne .macOnWindows key keyboard.kinds bound
    -- the key is on its new entry from its own turn on
    obtain ⟨entry, stands⟩ := isSome_iff_exists.mp ((turned.same index).trans (by rw [found]; rfl))
    have rest : Carried (fun _ => True) keyboard outside held index entry _ :=
      ⟨turned, stands, fun _ _ _ => trivial⟩
    have later := rest.foldl key keyboard.kinds (fun _ _ => trivial) ends bound notAfter
    have same : some entry = some new := later.found.symm.trans moved
    cases same
    exact ((first.turn bound stands moves).foldl key keyboard.kinds (fun _ => Or.inr) ends bound
      notAfter).throughout
  · have still := carried.foldl key keyboard.kinds (fun _ => id) bounds bound member
    have same : some new = some old := moved.symm.trans still.found
    cases same
    exact absurd rfl moves

/-! ## A call -/

theorem press_keeps {plan : List KeyStep} {key : HidUsage} (keyBound : key.code < 256)
    {translate : Option Direction} (found : keyboard.held index = some entry) :
    (keyboard.press key translate plan).2.held index = some entry := by
  cases known : keyboard.held key.code with
  | some other =>
    rw [press_down known]
    exact found
  | none =>
    obtain ⟨first, _, _, press⟩ := @press_up plan key keyboard keyBound known translate
    have different : index ≠ key.code := by
      rintro rfl
      rw [known] at found
      cases found
    rw [press]
    exact (put_of_ne different).trans found

/-- A press lifts nothing. -/
theorem press_throughout {plan : List KeyStep} {key : HidUsage} (keyBound : key.code < 256)
    {translate : Option Direction}
    (gives : ∀ (held : HeldKeys) usage, property held → property (update held usage true))
    (throughout : Throughout property held plan) :
    Throughout property held (keyboard.press key translate plan).1 := by
  have pressed (usage : HidUsage) : Throughout property held (plan ++ [⟨usage, true⟩]) :=
    throughout_append.mpr
      ⟨throughout, throughout_single throughout.last (gives _ usage throughout.last)⟩
  cases known : keyboard.held key.code with
  | some other =>
    rw [press_down known]
    exact pressed _
  | none =>
    obtain ⟨first, _, _, press⟩ := @press_up plan key keyboard keyBound known translate
    rw [press]
    split
    · exact throughout
    · exact pressed _

theorem Either.press (either : Either old new held) (usage : HidUsage) :
    Either old new (update held usage true) :=
  either.imp (update_true_of usage) (update_true_of usage)

end Translator

open Translator (Either)

/-- A call that moves a key keeps one of its two targets down. -/
theorem TranslatorCall.bridges {typing : Typing} (kept : typing.Kept) {call : TranslatorCall}
    (translates : call.translate = some .macOnWindows) {index : Nat} {old new : Held}
    (found : typing.keyboard.held index = some old)
    (moved : (call.run typing.keyboard).2.held index = some new) (moves : new.target ≠ old.target) :
    Throughout (Either old new) typing.destination (call.run typing.keyboard).1 := by
  have bound : index < 256 := by
    by_contra past
    rw [kept.untabled index (Nat.not_lt.mp past)] at found
    cases found
  cases call with
  | clear => cases translates
  | click translate =>
    cases translates
    exact kept.shows.follow_bridges bound found moved moves
  | key usage pressed translate =>
    cases translates
    have still (same : (TranslatorCall.run (.key usage pressed (some .macOnWindows))
        typing.keyboard).2.held index = some old) : False := by
      cases moved.symm.trans same
      exact moves rfl
    simp only [TranslatorCall.run] at moved still ⊢
    rcases Nat.lt_or_ge usage.code 256 with keyBound | past
    · cases pressed with
      | false =>
        have released : (typing.keyboard.key usage false (some .macOnWindows)).2 =
            typing.keyboard.put usage.code none :=
          congrArg Prod.snd (key_release keyBound _)
        rw [released] at moved still
        by_cases own : index = usage.code
        · rw [own, put_self] at moved
          cases moved
        · exact (still ((put_of_ne own).trans found)).elim
      | true =>
        cases modifier : semanticModifier usage with
        | some _ =>
          simp only [key_press keyBound, modifier] at still
          exact (still (press_keeps keyBound found)).elim
        | none =>
          simp only [key_press keyBound, modifier] at moved ⊢
          have follows := kept.shows.follow .macOnWindows (some usage)
          obtain ⟨entry, stands⟩ := isSome_iff_exists.mp
            ((follows.same index).trans (by rw [found]; rfl))
          have same : some entry = some new :=
            (press_keeps keyBound stands).symm.trans moved
          cases same
          exact press_throughout keyBound (fun _ usage either => either.press usage)
            (kept.shows.follow_bridges bound found stands moves)
    · rw [key_untabled past] at still
      exact (still found).elim

/-- What is down after some steps was down before them or is pressed by one. -/
theorem pressed_or_held {front : List KeyStep} {target : HidUsage}
    (down : replay held front target = true) : held target = true ∨ ⟨target, true⟩ ∈ front := by
  induction front generalizing held with
  | nil => exact .inl down
  | cons step front ih =>
    rcases @ih (step.apply held) down with early | later
    · by_cases same : target = step.usage
      · subst same
        rw [KeyStep.apply, update_self] at early
        exact .inr (by cases step; cases early; exact mem_cons_self)
      · rw [KeyStep.apply, update_of_ne same] at early
        exact .inl early
    · exact .inr (mem_cons_of_mem _ later)

/-- **No gap.**  In every plan for Windows that moves a key that is down from one target to
another, one of the two is down before, between and after all steps; and a step that lifts the old
target finds the new one down, from before the plan or from an earlier press. -/
theorem retarget_leaves_no_gap {typing : Typing} (reachable : typingLts.Reachable typing)
    {call : TranslatorCall} (translates : call.translate = some .macOnWindows) {index : Nat}
    {old new : Held} (found : typing.keyboard.held index = some old)
    (moved : (call.run typing.keyboard).2.held index = some new) (moves : new.target ≠ old.target) :
    (∀ front back, (call.run typing.keyboard).1 = front ++ back →
        replay typing.destination front old.target = true ∨
          replay typing.destination front new.target = true) ∧
      ∀ front back, (call.run typing.keyboard).1 = front ++ ⟨old.target, false⟩ :: back →
        replay typing.destination front new.target = true ∧
          (typing.destination new.target = true ∨ ⟨new.target, true⟩ ∈ front) := by
  have throughout := call.bridges (Typing.reachable_kept reachable) translates found moved moves
  refine ⟨throughout, fun front back split => ?_⟩
  -- the old target is up right after the step, so the new one is down, and was before it
  have after := throughout (front ++ [⟨old.target, false⟩]) back (by rw [split]; simp)
  simp only [replay_append, replay_single, KeyStep.apply, Either, update_self,
    update_of_ne moves, Bool.false_eq_true, false_or] at after
  exact ⟨after, pressed_or_held after⟩

namespace TypingRun

/-- Command held on a Mac keyboard that drives Windows, where it is Ctrl. -/
def command : Typing := (TranslatorCall.key ⟨0xE3⟩ true (some .macOnWindows)).next .start

/-- Tab moves it to Alt, which goes down first. -/
theorem retarget_leaves_no_gap_tab :
    ((TranslatorCall.key HID_TAB true (some .macOnWindows)).run command.keyboard).1 =
        [⟨⟨0xE2⟩, true⟩] ++ ⟨⟨0xE0⟩, false⟩ :: [⟨HID_TAB, true⟩] ∧
      replay command.destination [⟨⟨0xE2⟩, true⟩] ⟨0xE2⟩ = true :=
  ⟨by decide +kernel,
    ((@retarget_leaves_no_gap command ⟨.start, [_], rfl, .single rfl⟩
      (.key HID_TAB true (some .macOnWindows)) rfl 0xE3 ⟨⟨0xE0⟩, true, false⟩ ⟨⟨0xE2⟩, true, true⟩
      (by decide +kernel) (by decide +kernel) (by decide +kernel)).2 _ [⟨HID_TAB, true⟩]
        (by decide +kernel)).1⟩

end TypingRun
end Monhop.Core
