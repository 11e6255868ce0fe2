import Monhop.Core.KeyboardSafety

/-! # Key plans fit their array

A plan is built by pushing steps into an array of `MAX_CHORD_STEPS`.  A call moves the following
modifiers of each side among three targets, so a side never takes more than four steps.

* `cost_le_four` — three modifiers, each moved once among three targets.
* `Placed` — what a following modifier's target can be, kept by every call.
* `key_plans_fit` — every plan of every run.
-/

namespace Monhop.Core

open List

/-! ## Plans -/

/-- Four modifier presses, the key down and up, four modifier releases. -/
def MAX_CHORD_STEPS : Nat := 10

/-- An ordered press and release sequence. -/
structure KeyPlan where
  steps : List KeyStep
  fits : steps.length ≤ MAX_CHORD_STEPS

namespace KeyPlan

def EMPTY : KeyPlan := { steps := [], fits := Nat.zero_le _ }

/-- `none` runs past the array. -/
def push (plan : KeyPlan) (step : KeyStep) : Option KeyPlan :=
  if room : plan.steps.length < MAX_CHORD_STEPS then
    some { steps := plan.steps ++ [step], fits := by rw [length_append]; exact room }
  else none

def ofSteps (steps : List KeyStep) : Option KeyPlan := steps.foldlM push EMPTY

theorem foldlM_push {steps : List KeyStep} {plan : KeyPlan}
    (room : plan.steps.length + steps.length ≤ MAX_CHORD_STEPS) :
    ∃ built, steps.foldlM push plan = some built ∧ built.steps = plan.steps ++ steps := by
  induction steps generalizing plan with
  | nil => exact ⟨plan, rfl, (append_nil _).symm⟩
  | cons step steps ih =>
    rw [length_cons] at room
    have below : plan.steps.length < MAX_CHORD_STEPS := by omega
    let longer : KeyPlan := ⟨plan.steps ++ [step], by rw [length_append]; exact below⟩
    have left : longer.steps.length + steps.length ≤ MAX_CHORD_STEPS := by
      simp only [longer, length_append, length_singleton]
      omega
    obtain ⟨built, made, all⟩ := ih left
    refine ⟨built, ?_, by rw [all, append_assoc, singleton_append]⟩
    rw [foldlM_cons, push, dif_pos below]
    exact made

end KeyPlan

/-! ## Three modifiers among three targets -/

instance : Fintype SemanticModifierKind where
  elems := {.control, .shift, .alternate, .system}
  complete kind := by cases kind <;> decide

/-- The steps of moving one modifier while two others hold their targets. -/
def cost (old new first second : SemanticModifierKind) : Nat :=
  if new = old then 0
  else (if new = first ∨ new = second then 0 else 1) + if old = first ∨ old = second then 0 else 1

theorem cost_le_four : ∀ first : SemanticModifierKind, first ≠ .shift →
    ∀ second : SemanticModifierKind, second ≠ .shift → ∀ third : SemanticModifierKind,
    third ≠ .shift → ∀ newFirst : SemanticModifierKind, newFirst ≠ .shift →
    ∀ newSecond : SemanticModifierKind, newSecond ≠ .shift → ∀ newThird : SemanticModifierKind,
    newThird ≠ .shift → cost first newFirst second third + cost second newSecond newFirst third +
      cost third newThird newFirst newSecond ≤ 4 := by
  decide +kernel

/-! ## Following modifiers -/

theorem semanticModifier_usage (modifier : SemanticModifier) :
    semanticModifier modifier.usage = some modifier := by
  obtain ⟨_ | _, _ | _ | _ | _⟩ := modifier <;> rfl

theorem usage_code_injective {first second : SemanticModifier}
    (same : first.usage.code = second.usage.code) : first = second := by
  have usages : first.usage = second.usage := congrArg HidUsage.mk same
  have known := semanticModifier_usage first
  rw [usages, semanticModifier_usage] at known
  exact (Option.some.inj known).symm

/-- An entry whose target may move stands, like its target, on a modifier of the side other than
Shift. -/
def Roams (modifier : SemanticModifier) (held : Held) : Prop :=
  modifier.kind ≠ .shift ∧
    ∃ kind, kind ≠ .shift ∧ held.target = SemanticModifier.usage ⟨modifier.side, kind⟩

theorem roams_firstHeld {direction : Direction} {modifier : SemanticModifier}
    (follows : (firstHeld direction modifier).follows = true) :
    Roams modifier (firstHeld direction modifier) := by
  obtain ⟨side, kind⟩ := modifier
  cases kind with
  | control => exact ⟨nofun, .system, nofun, rfl⟩
  | shift => cases direction <;> cases follows
  | alternate => exact ⟨nofun, .alternate, nofun, rfl⟩
  | system => exact ⟨nofun, .control, nofun, rfl⟩

/-- Whatever a key wants of a modifier other than Shift, it is another than Shift. -/
theorem roams_wanted {direction : Direction} {modifier : SemanticModifier} {held : Held}
    {key : Option HidUsage} {kinds : Kinds} (other : modifier.kind ≠ .shift) :
    Roams modifier (wanted direction modifier held key kinds) := by
  obtain ⟨side, kind⟩ := modifier
  refine ⟨other, ?_⟩
  unfold wanted
  cases direction <;> cases kind <;> dsimp only <;> (try split_ifs) <;>
    first
    | exact ⟨.system, nofun, rfl⟩
    | exact ⟨.alternate, nofun, rfl⟩
    | exact ⟨.control, nofun, rfl⟩
    | exact absurd rfl other

namespace Translator

/-- Every following entry roams. -/
def Placed (keyboard : Translator) : Prop :=
  ∀ modifier held, keyboard.held (SemanticModifier.usage modifier).code = some held →
    held.follows = true → Roams modifier held

variable {keyboard : Translator}

theorem placed_default : default.Placed := nofun

theorem Placed.put (placed : keyboard.Placed) {index : Nat} {entry : Option Held}
    (roams : ∀ modifier held, (SemanticModifier.usage modifier).code = index → entry = some held →
      held.follows = true → Roams modifier held) : (keyboard.put index entry).Placed := by
  intro modifier held found follows
  by_cases same : (SemanticModifier.usage modifier).code = index
  · rw [same, put_self] at found
    exact roams modifier held same found follows
  · rw [put_of_ne same] at found
    exact placed modifier held found follows

/-! ### Moving one modifier -/

/-- The steps one modifier takes and the table it leaves. -/
def moveOne (direction : Direction) (key : Option HidUsage) (kinds : Kinds) (keyboard : Translator)
    (modifier : SemanticModifier) : Translator × List KeyStep :=
  followOne direction key kinds (keyboard, []) modifier.usage.code

variable {direction : Direction} {key : Option HidUsage} {kinds : Kinds}
  {modifier : SemanticModifier}

theorem followOne_modifier (plan : List KeyStep) :
    followOne direction key kinds (keyboard, plan) modifier.usage.code =
      ((moveOne direction key kinds keyboard modifier).1,
        plan ++ (moveOne direction key kinds keyboard modifier).2) := by
  unfold moveOne
  rw [followOne_eq, followOne_eq]
  split
  · rfl
  · simp

/-- A modifier that is up or does not follow stays where it is. -/
theorem moveOne_still
    (still : ∀ held, keyboard.held modifier.usage.code = some held → held.follows = false) :
    moveOne direction key kinds keyboard modifier = (keyboard, []) := by
  unfold moveOne
  rw [followOne_eq]
  split
  · next held _ found _ =>
    obtain ⟨at_, follows⟩ := Option.filter_eq_some_iff.mp found
    exact absurd (still held at_) (by simp [follows])
  · rfl

theorem moveOne_of_follows {held : Held} (found : keyboard.held modifier.usage.code = some held)
    (follows : held.follows = true) :
    moveOne direction key kinds keyboard modifier =
      (keyboard.put modifier.usage.code (some (wanted direction modifier held key kinds)),
        keyboard.moveSteps modifier.usage.code held (wanted direction modifier held key kinds)
          direction.pressesFirst) := by
  unfold moveOne
  rw [followOne_eq, found, Option.filter_some_pos follows]
  have known : semanticModifier ⟨modifier.usage.code⟩ = some modifier :=
    semanticModifier_usage modifier
  rw [known]
  rfl

theorem moveSteps_length_le {index : Nat} {old new : Held} {pressesFirst : Bool} :
    (keyboard.moveSteps index old new pressesFirst).length ≤ 2 := by
  unfold moveSteps
  cases pressesFirst <;> dsimp only <;> split_ifs <;> simp

theorem moveOne_length_le : (moveOne direction key kinds keyboard modifier).2.length ≤ 2 := by
  unfold moveOne
  rw [followOne_eq]
  split
  · exact moveSteps_length_le
  · exact Nat.zero_le _

/-! ### Moving a side -/

/-- A modifier that follows. -/
def Following (keyboard : Translator) (modifier : SemanticModifier) : Prop :=
  ∃ held, keyboard.held modifier.usage.code = some held ∧ held.follows = true

theorem moveOne_of_not_following (still : ¬ keyboard.Following modifier) :
    moveOne direction key kinds keyboard modifier = (keyboard, []) := by
  refine moveOne_still fun held found => ?_
  cases follows : held.follows with
  | false => rfl
  | true => exact absurd ⟨held, found, follows⟩ still

theorem following_of_moves (moves : 0 < (moveOne direction key kinds keyboard modifier).2.length) :
    keyboard.Following modifier := by
  by_contra still
  rw [moveOne_of_not_following still] at moves
  exact lt_irrefl 0 moves

variable {other : SemanticModifier}

theorem moveOne_other (different : other ≠ modifier) :
    (moveOne direction key kinds keyboard modifier).1.held other.usage.code =
      keyboard.held other.usage.code := by
  unfold moveOne
  rw [followOne_eq]
  split
  · exact put_of_ne (mt usage_code_injective different)
  · rfl

theorem Placed.after_move (placed : keyboard.Placed) :
    (moveOne direction key kinds keyboard modifier).1.Placed := by
  by_cases following : keyboard.Following modifier
  · obtain ⟨held, found, follows⟩ := following
    rw [moveOne_of_follows found follows]
    refine placed.put fun other entry same entered _ => ?_
    obtain rfl := usage_code_injective same
    cases entered
    exact roams_wanted (placed _ _ found follows).1
  · rwa [moveOne_of_not_following following]

def moveAll (direction : Direction) (key : Option HidUsage) (kinds : Kinds) :
    Translator → List SemanticModifier → Translator × List KeyStep
  | keyboard, [] => (keyboard, [])
  | keyboard, modifier :: rest =>
    let moved := moveOne direction key kinds keyboard modifier
    let others := moveAll direction key kinds moved.1 rest
    (others.1, moved.2 ++ others.2)

/-- The modifiers of a side, in the order of their usages. -/
def sideModifiers (side : ModifierSide) : List SemanticModifier :=
  [⟨side, .control⟩, ⟨side, .shift⟩, ⟨side, .alternate⟩, ⟨side, .system⟩]

theorem foldl_followOne (modifiers : List SemanticModifier) (plan : List KeyStep) :
    (modifiers.map fun modifier => modifier.usage.code).foldl (followOne direction key kinds)
      (keyboard, plan) =
      ((moveAll direction key kinds keyboard modifiers).1,
        plan ++ (moveAll direction key kinds keyboard modifiers).2) := by
  induction modifiers generalizing keyboard plan with
  | nil => simp [moveAll]
  | cons modifier rest ih =>
    rw [map_cons, foldl_cons, followOne_modifier, ih]
    simp [moveAll]

theorem moveAll_append (first second : List SemanticModifier) :
    moveAll direction key kinds keyboard (first ++ second) =
      let leading := moveAll direction key kinds keyboard first
      let trailing := moveAll direction key kinds leading.1 second
      (trailing.1, leading.2 ++ trailing.2) := by
  induction first generalizing keyboard with
  | nil => simp [moveAll]
  | cons modifier rest ih => simp [moveAll, ih]

theorem follow_eq (keyboard : Translator) (direction : Direction) (key : Option HidUsage) :
    keyboard.follow direction key = moveAll direction key keyboard.kinds keyboard
      (sideModifiers .left ++ sideModifiers .right) := by
  have moved := @foldl_followOne keyboard direction key keyboard.kinds
    (sideModifiers .left ++ sideModifiers .right) []
  exact moved

theorem Placed.after_moves (placed : keyboard.Placed) (direction : Direction)
    (key : Option HidUsage) (kinds : Kinds) (modifiers : List SemanticModifier) :
    (moveAll direction key kinds keyboard modifiers).1.Placed := by
  induction modifiers generalizing keyboard with
  | nil => exact placed
  | cons modifier rest ih => exact ih placed.after_move

theorem following_moveOne (different : other ≠ modifier) :
    (moveOne direction key kinds keyboard modifier).1.Following other ↔
      keyboard.Following other := by
  unfold Following
  rw [moveOne_other different]

/-- A following modifier stands on a target of its side. -/
def Stands (keyboard : Translator) (modifier : SemanticModifier) (kind : SemanticModifierKind) :
    Prop :=
  ∃ held, keyboard.held modifier.usage.code = some held ∧ held.follows = true ∧
    held.target = SemanticModifier.usage ⟨modifier.side, kind⟩

/-- A modifier that follows stands on one of three targets. -/
theorem Placed.stands (placed : keyboard.Placed) (following : keyboard.Following modifier) :
    ∃ kind, kind ≠ .shift ∧ keyboard.Stands modifier kind := by
  obtain ⟨held, found, follows⟩ := following
  obtain ⟨_, kind, other, target⟩ := placed modifier held found follows
  exact ⟨kind, other, held, found, follows, target⟩

theorem stands_moveOne (different : other ≠ modifier)
    {kind : SemanticModifierKind} (stands : keyboard.Stands other kind) :
    (moveOne direction key kinds keyboard modifier).1.Stands other kind := by
  unfold Stands
  rwa [moveOne_other different]

section
variable {side : ModifierSide} {own one two old new first second : SemanticModifierKind}
  (firstStands : keyboard.Stands ⟨side, one⟩ first)
  (secondStands : keyboard.Stands ⟨side, two⟩ second)
  (firstOther : SemanticModifier.mk side one ≠ ⟨side, own⟩)
  (secondOther : SemanticModifier.mk side two ≠ ⟨side, own⟩)
include firstStands secondStands firstOther secondOther

/-- What other modifiers hold is neither pressed nor released. -/
theorem moveSteps_length_le_cost {before after : Held} {pressesFirst : Bool}
    (oldTarget : before.target = SemanticModifier.usage ⟨side, old⟩)
    (newTarget : after.target = SemanticModifier.usage ⟨side, new⟩) :
    (keyboard.moveSteps (SemanticModifier.usage ⟨side, own⟩).code before after
      pressesFirst).length ≤ cost old new first second := by
  by_cases same : new = old
  · rw [moveSteps_still (by rw [newTarget, oldTarget, same])]
    exact Nat.zero_le _
  obtain ⟨_, firstFound, _, firstTarget⟩ := firstStands
  obtain ⟨_, secondFound, _, secondTarget⟩ := secondStands
  have firstOther := mt usage_code_injective firstOther
  have secondOther := mt usage_code_injective secondOther
  have presses : new = first ∨ new = second → keyboard.holds after.target = true := by
    rintro (rfl | rfl)
    · exact holds_iff.mpr ⟨_, usage_code_lt, _, firstFound, firstTarget.trans newTarget.symm⟩
    · exact holds_iff.mpr ⟨_, usage_code_lt, _, secondFound, secondTarget.trans newTarget.symm⟩
  have releases : old = first ∨ old = second → (keyboard.put
      (SemanticModifier.usage ⟨side, own⟩).code (some after)).holds before.target = true := by
    rintro (rfl | rfl)
    · exact holds_iff.mpr ⟨_, usage_code_lt, _, (put_of_ne firstOther).trans firstFound,
        firstTarget.trans oldTarget.symm⟩
    · exact holds_iff.mpr ⟨_, usage_code_lt, _, (put_of_ne secondOther).trans secondFound,
        secondTarget.trans oldTarget.symm⟩
  unfold moveSteps cost
  rw [if_neg same]
  by_cases pressed : new = first ∨ new = second <;>
    by_cases released : old = first ∨ old = second <;>
    cases pressesFirst <;>
    simp only [pressed, released, presses, releases, if_true, if_false] <;>
    split_ifs <;> simp_all

/-- The steps of a following modifier while two others of its side stand on their targets. -/
theorem moveOne_cost (stands : keyboard.Stands ⟨side, own⟩ old) (other : own ≠ .shift) :
    ∃ new, new ≠ .shift ∧
      (moveOne direction key kinds keyboard ⟨side, own⟩).1.Stands ⟨side, own⟩ new ∧
      (moveOne direction key kinds keyboard ⟨side, own⟩).2.length ≤ cost old new first second := by
  obtain ⟨held, found, follows, target⟩ := stands
  have roams : Roams ⟨side, own⟩ (wanted direction ⟨side, own⟩ held key kinds) :=
    roams_wanted other
  obtain ⟨_, new, shifted, newTarget⟩ := roams
  rw [moveOne_of_follows found follows]
  exact ⟨new, shifted, ⟨_, put_self _ _ _, follows, newTarget⟩, moveSteps_length_le_cost
    firstStands secondStands firstOther secondOther target newTarget⟩

end

section
variable (placed : keyboard.Placed)
include placed

/-- The modifiers of one side take at most four steps: two of them at most two each, three of them
by `cost_le_four`. -/
theorem Placed.side_length_le {side : ModifierSide} :
    (moveAll direction key kinds keyboard (sideModifiers side)).2.length ≤ 4 := by
  -- Shift never follows.
  have shift {keyboard : Translator} (placed : keyboard.Placed) :
      moveOne direction key kinds keyboard ⟨side, .shift⟩ = (keyboard, []) := by
    refine moveOne_of_not_following fun ⟨held, found, follows⟩ => ?_
    exact (placed _ _ found follows).1 rfl
  let control := moveOne direction key kinds keyboard ⟨side, .control⟩
  let alternate := moveOne direction key kinds control.1 ⟨side, .alternate⟩
  let system := moveOne direction key kinds alternate.1 ⟨side, .system⟩
  have whole : (moveAll direction key kinds keyboard (sideModifiers side)).2 =
      control.2 ++ alternate.2 ++ system.2 := by
    simp only [sideModifiers, moveAll, shift placed.after_move, nil_append, append_nil,
      append_assoc]
    rfl
  rw [whole, length_append, length_append]
  have first : control.2.length ≤ 2 := moveOne_length_le
  have second : alternate.2.length ≤ 2 := moveOne_length_le
  have third : system.2.length ≤ 2 := moveOne_length_le
  have alternateOther : SemanticModifier.mk side .alternate ≠ ⟨side, .control⟩ := nofun
  have systemOther : SemanticModifier.mk side .system ≠ ⟨side, .control⟩ := nofun
  have systemLast : SemanticModifier.mk side .system ≠ ⟨side, .alternate⟩ := nofun
  by_contra long
  have followsControl : keyboard.Following ⟨side, .control⟩ :=
    following_of_moves (show 0 < control.2.length by omega)
  have followsAlternate : keyboard.Following ⟨side, .alternate⟩ :=
    (following_moveOne alternateOther).mp
      (following_of_moves (show 0 < alternate.2.length by omega))
  have followsSystem : control.1.Following ⟨side, .system⟩ :=
    (following_moveOne systemLast).mp (following_of_moves (show 0 < system.2.length by omega))
  obtain ⟨a, aKind, aStands⟩ := placed.stands followsControl
  obtain ⟨b, bKind, bStands⟩ := placed.stands followsAlternate
  obtain ⟨c, cKind, cStands⟩ := placed.stands ((following_moveOne systemOther).mp followsSystem)
  obtain ⟨newA, newAKind, aLater, aCost⟩ :=
    moveOne_cost bStands cStands alternateOther systemOther aStands nofun
  have bLater : control.1.Stands ⟨side, .alternate⟩ b := stands_moveOne alternateOther bStands
  have cLater : control.1.Stands ⟨side, .system⟩ c := stands_moveOne systemOther cStands
  obtain ⟨newB, newBKind, bLast, bCost⟩ :=
    moveOne_cost aLater cLater alternateOther.symm systemLast bLater nofun
  have aLast : alternate.1.Stands ⟨side, .control⟩ newA :=
    stands_moveOne alternateOther.symm aLater
  have cLast : alternate.1.Stands ⟨side, .system⟩ c := stands_moveOne systemLast cLater
  obtain ⟨newC, newCKind, _, cCost⟩ := moveOne_cost aLast bLast systemOther.symm systemLast.symm cLast nofun
  have bound := cost_le_four a aKind b bKind c cKind newA newAKind newB newBKind newC newCKind
  have aCost : control.2.length ≤ cost a newA b c := aCost
  have bCost : alternate.2.length ≤ cost b newB newA c := bCost
  have cCost : system.2.length ≤ cost c newC newA newB := cCost
  omega

/-- Following a key or a click takes at most four steps on each side. -/
theorem Placed.follow_length_le :
    (keyboard.follow direction key).2.length ≤ 8 ∧
      (keyboard.follow direction key).1.Placed := by
  rw [follow_eq, moveAll_append]
  have left := placed.after_moves direction key keyboard.kinds (sideModifiers .left)
  refine ⟨?_, left.after_moves direction key keyboard.kinds _⟩
  rw [length_append]
  exact Nat.add_le_add placed.side_length_le left.side_length_le

/-! ## Calls -/

theorem Placed.release (usage : HidUsage) :
    (keyboard.release usage).1.length ≤ 1 ∧ (keyboard.release usage).2.Placed := by
  constructor
  · unfold Translator.release
    dsimp only
    split_ifs <;> simp
  · change (keyboard.put usage.code none).Placed
    exact placed.put fun _ _ _ other => nomatch other

theorem Placed.press (usage : HidUsage) (translate : Option Direction)
    (plan : List KeyStep) : (keyboard.press usage translate plan).1.length ≤ plan.length + 1 ∧
      (keyboard.press usage translate plan).2.Placed := by
  unfold Translator.press
  split
  · exact ⟨by simp, placed⟩
  constructor
  · dsimp only
    split_ifs <;> simp
  refine placed.put fun modifier held same entered follows => ?_
  obtain rfl : modifier.usage = usage := congrArg HidUsage.mk same
  rw [semanticModifier_usage] at entered
  cases translate with
  | none =>
    cases entered
    cases follows
  | some direction =>
    cases entered
    exact roams_firstHeld follows

theorem Placed.keyed (usage : HidUsage) (pressed : Bool)
    (translate : Option Direction) : (keyboard.key usage pressed translate).1.length ≤ 9 ∧
      (keyboard.key usage pressed translate).2.Placed := by
  unfold Translator.key
  split
  · exact ⟨by simp, placed⟩
  split
  · exact ⟨le_trans (placed.release usage).1 (by decide), (placed.release usage).2⟩
  split
  · next direction _ =>
    -- The modifiers move first, eight steps at most, then the key itself.
    obtain ⟨steps, follows⟩ := placed.follow_length_le
    obtain ⟨one, pressed⟩ := follows.press usage (some direction)
      (keyboard.follow direction (some usage)).2
    exact ⟨Nat.le_trans one (Nat.add_le_add_right steps 1), pressed⟩
  · next other _ _ _ =>
    have one := placed.press usage other []
    exact ⟨le_trans one.1 (by decide), one.2⟩

theorem Placed.run (call : TranslatorCall) :
    (call.run keyboard).1.length ≤ 9 ∧ (call.run keyboard).2.Placed := by
  cases call with
  | key usage pressed translate => exact placed.keyed usage pressed translate
  | click translate =>
    cases translate with
    | none => exact ⟨by simp [TranslatorCall.run, click], placed⟩
    | some direction =>
      obtain ⟨steps, follows⟩ := placed.follow_length_le
      exact ⟨le_trans steps (by decide), follows⟩
  | clear => exact ⟨by simp [TranslatorCall.run], placed_default⟩

end
end Translator

theorem reachable_placed {typing : Typing} (reachable : typingLts.Reachable typing) :
    typing.keyboard.Placed := by
  refine reachable.invariant (fun typing => typing.keyboard.Placed) ?_ ?_
  · rintro _ rfl
    exact Translator.placed_default
  · rintro first call _ placed rfl
    exact (placed.run call).2

/-- Key plans always fit: whatever the calls before it, with translation switched on, off and
between the directions at will, a call's plan has no more steps than the array, and pushing them
one by one never runs past it. -/
theorem key_plans_fit {typing : Typing} (reachable : typingLts.Reachable typing)
    (call : TranslatorCall) : (call.run typing.keyboard).1.length ≤ MAX_CHORD_STEPS ∧
      ∃ plan, KeyPlan.ofSteps (call.run typing.keyboard).1 = some plan ∧
        plan.steps = (call.run typing.keyboard).1 := by
  have fits : (call.run typing.keyboard).1.length ≤ MAX_CHORD_STEPS :=
    Nat.le_trans ((reachable_placed reachable).run call).1 (by decide)
  obtain ⟨plan, made, steps⟩ := @KeyPlan.foldlM_push _ .EMPTY ((Nat.zero_add _).le.trans fits)
  exact ⟨fits, plan, made, steps⟩

namespace TypingRun

/-- Ctrl and Alt of both sides held from a Windows keyboard. -/
def allHeld : Typing :=
  [0xE0, 0xE2, 0xE4, 0xE6].foldl
    (fun typing usage => (TranslatorCall.key ⟨usage⟩ true (some .windowsOnMac)).next typing) .start

theorem allHeld_reachable : typingLts.Reachable allHeld :=
  ⟨.start, [0xE0, 0xE2, 0xE4, 0xE6].map fun usage => .key ⟨usage⟩ true (some .windowsOnMac), rfl,
    .cons rfl (.cons rfl (.cons rfl (.cons rfl (.nil _))))⟩

/-- Tab moves all four, each with a release and a press. -/
theorem key_plans_fit_tab :
    typingLts.Reachable allHeld ∧
      (TranslatorCall.run (.key HID_TAB true (some .windowsOnMac)) allHeld.keyboard).1.length = 9 ∧
      (TranslatorCall.run (.key HID_TAB true (some .windowsOnMac)) allHeld.keyboard).1.length ≤
        MAX_CHORD_STEPS :=
  ⟨allHeld_reachable, by decide +kernel, (key_plans_fit allHeld_reachable _).1⟩

end TypingRun
end Monhop.Core
