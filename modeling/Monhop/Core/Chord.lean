import Monhop.Core.Pointer
import Monhop.Core.KeyboardPlans

/-! # Chords for system gestures

A receiver answers a system gesture with a chord: it presses the modifiers that are not held,
taps the key and releases what it pressed.

* `ChordModifiers.contains_iff` — a kind is one bit of a set of kinds.
* `heldKinds_eq_some` — what the walk over the held keys finds.
* `chord_leaves_no_trace` — the plan of every chord over every list of held keys.
-/

namespace Monhop.Core

open List Function

/-! ## Modifier kinds -/

/-- Modifier kinds a chord needs; either side of a held modifier satisfies its kind. -/
structure ChordModifiers where
  bits : BitVec 8
  deriving DecidableEq

namespace ChordModifiers

def NONE : ChordModifiers := ⟨0⟩
def CONTROL : ChordModifiers := ⟨1⟩
def SHIFT : ChordModifiers := ⟨1 <<< 1⟩
def ALTERNATE : ChordModifiers := ⟨1 <<< 2⟩
/-- Windows key on Windows, Command on macOS. -/
def SYSTEM : ChordModifiers := ⟨1 <<< 3⟩

def union (kinds other : ChordModifiers) : ChordModifiers := ⟨kinds.bits ||| other.bits⟩

def contains (kinds other : ChordModifiers) : Bool := kinds.bits &&& other.bits == other.bits

def without (kinds other : ChordModifiers) : ChordModifiers := ⟨kinds.bits &&& ~~~other.bits⟩

end ChordModifiers

variable {kinds : ChordModifiers} {key : HidUsage} {exempt : KeyStep → Prop} {held : List HidUsage}

/-- HID modifier order: each side's usages run in it. -/
def MODIFIER_KINDS : List ChordModifiers := [.CONTROL, .SHIFT, .ALTERNATE, .SYSTEM]

def HID_LEFT_CONTROL : HidUsage := ⟨0xE0⟩

/-- The kind of a modifier key, whichever side it is on. -/
def kindOf (usage : HidUsage) : ChordModifiers :=
  MODIFIER_KINDS.getD ((usage.code - HID_LEFT_CONTROL.code) % 4) .NONE

/-! ## Chords -/

/-- The key may itself be a modifier: a Windows-key tap is the left system key with no modifiers. -/
structure Chord where
  modifiers : ChordModifiers
  key : HidUsage

/-- The kinds among the held keys; none when the chord's own key is one of them. -/
def heldKinds (key : HidUsage) : ChordModifiers → List HidUsage → Option ChordModifiers
  | kinds, [] => some kinds
  | kinds, usage :: rest =>
    if usage = key then none
    else heldKinds key (if usage.isModifier then kinds.union (kindOf usage) else kinds) rest

def leftKey (index : Nat) : HidUsage := ⟨HID_LEFT_CONTROL.code + index⟩

variable (missing : ChordModifiers)

/-- One step for each missing kind, on its left key. -/
def missingSteps (pressed : Bool) (kinds : List (ChordModifiers × Nat)) : List KeyStep :=
  kinds.filterMap fun (kind, index) =>
    if missing.contains kind then some ⟨leftKey index, pressed⟩ else none

/-- Presses only the chord modifiers `held` lacks, taps the key, then releases only what it
pressed, in reverse; `none` runs past the array. -/
def chordPlan (held : List HidUsage) (chord : Chord) : Option KeyPlan :=
  match heldKinds chord.key .NONE held with
  | none => some .EMPTY
  | some kinds =>
    let missing := chord.modifiers.without kinds
    KeyPlan.ofSteps (missingSteps missing true MODIFIER_KINDS.zipIdx ++
      [⟨chord.key, true⟩, ⟨chord.key, false⟩] ++
      missingSteps missing false MODIFIER_KINDS.zipIdx.reverse)

/-! ## The chords of system gestures -/

/-- The default chord Windows binds to a gesture; none for back and forward, which it takes as
mouse clicks. -/
def windowsChord : SystemGesture → Option Chord
  | .overview | .appWindows => some ⟨.SYSTEM, HID_TAB⟩
  | .desktopPrevious => some ⟨.union .CONTROL .SYSTEM, HID_LEFT_ARROW⟩
  | .desktopNext => some ⟨.union .CONTROL .SYSTEM, HID_RIGHT_ARROW⟩
  | .showDesktop => some ⟨.SYSTEM, ⟨0x07⟩⟩
  | .launcher => some ⟨.NONE, ⟨0xE3⟩⟩
  | .notificationCenter => some ⟨.SYSTEM, ⟨0x11⟩⟩
  | .search => some ⟨.SYSTEM, ⟨0x16⟩⟩
  | .switchAppNext => some ⟨.ALTERNATE, HID_TAB⟩
  | .switchAppPrevious => some ⟨.union .ALTERNATE .SHIFT, HID_TAB⟩
  | .navigateBack | .navigateForward => none

/-- None for the launcher and the notification center, which macOS binds to no key by default. -/
def macChord : SystemGesture → Option Chord
  | .overview => some ⟨.CONTROL, ⟨0x52⟩⟩
  | .appWindows => some ⟨.CONTROL, ⟨0x51⟩⟩
  | .desktopPrevious => some ⟨.CONTROL, HID_LEFT_ARROW⟩
  | .desktopNext => some ⟨.CONTROL, HID_RIGHT_ARROW⟩
  | .showDesktop => some ⟨.NONE, ⟨0x44⟩⟩
  | .navigateBack => some ⟨.SYSTEM, ⟨0x2F⟩⟩
  | .navigateForward => some ⟨.SYSTEM, ⟨0x30⟩⟩
  | .search => some ⟨.SYSTEM, ⟨0x2C⟩⟩
  | .switchAppNext => some ⟨.SYSTEM, HID_TAB⟩
  | .switchAppPrevious => some ⟨.union .SYSTEM .SHIFT, HID_TAB⟩
  | .launcher | .notificationCenter => none

def systemChord : Platform → SystemGesture → Option Chord
  | .windows => windowsChord
  | .macOs => macChord

/-- The chord's key is no modifier of a kind the chord needs. -/
def Chord.Apart (chord : Chord) : Prop :=
  chord.key.isModifier = true → chord.modifiers.contains (kindOf chord.key) = false

theorem systemChord_apart (destination : Platform) (gesture : SystemGesture) {chord : Chord}
    (bound : systemChord destination gesture = some chord) : chord.Apart := by
  unfold Chord.Apart
  cases destination <;> cases gesture <;> cases bound <;> decide

/-! ## Kinds as bits -/

namespace ChordModifiers

variable {other : ChordModifiers} {index : Nat}

theorem contains_iff (below : index < 4) :
    kinds.contains (MODIFIER_KINDS.getD index .NONE) = kinds.bits.getLsbD index := by
  have bit : ∀ bits : BitVec 8, ∀ index < 4,
      (bits &&& (MODIFIER_KINDS.getD index .NONE).bits == (MODIFIER_KINDS.getD index .NONE).bits) =
        bits.getLsbD index := by decide +kernel
  exact bit kinds.bits index below

theorem bits_kind {bit : Nat} (below : index < 4) :
    (MODIFIER_KINDS.getD index .NONE).bits.getLsbD bit = decide (bit = index) := by
  by_cases inside : bit < 8
  · have single : ∀ index < 4, ∀ bit < 8,
        (MODIFIER_KINDS.getD index .NONE).bits.getLsbD bit = decide (bit = index) := by decide
    exact single index below bit inside
  · rw [BitVec.getLsbD_of_ge _ _ (not_lt.mp inside), decide_eq_false (by omega)]

theorem bits_union {bit : Nat} :
    (kinds.union other).bits.getLsbD bit = (kinds.bits.getLsbD bit || other.bits.getLsbD bit) :=
  BitVec.getLsbD_or

theorem bits_without (below : index < 4) :
    (kinds.without other).bits.getLsbD index =
      (kinds.bits.getLsbD index && !other.bits.getLsbD index) := by
  rw [without, BitVec.getLsbD_and, BitVec.getLsbD_not, decide_eq_true (by omega), Bool.true_and]

end ChordModifiers

open ChordModifiers

theorem mem_modifierKinds {kind : ChordModifiers} :
    kind ∈ MODIFIER_KINDS ↔ ∃ index < 4, MODIFIER_KINDS.getD index .NONE = kind := by
  constructor
  · intro member
    obtain ⟨index, below, rfl⟩ := getElem_of_mem member
    exact ⟨index, below, (getElem_eq_getD _).symm⟩
  · rintro ⟨index, below, rfl⟩
    have all : ∀ index < 4, MODIFIER_KINDS.getD index .NONE ∈ MODIFIER_KINDS := by decide
    exact all index below

/-- A modifier key is of the kind its index names. -/
def OfKind (index : Nat) (usage : HidUsage) : Prop :=
  usage.isModifier = true ∧ index = (usage.code - HID_LEFT_CONTROL.code) % 4

theorem leftKey_ofKind {index : Nat} (below : index < 4) : OfKind index (leftKey index) := by
  have all : ∀ index < 4, (leftKey index).isModifier = true ∧
      index = ((leftKey index).code - HID_LEFT_CONTROL.code) % 4 := by decide
  exact all index below

/-- The walk ends early exactly at the chord's own key, and otherwise finds the kinds held. -/
theorem heldKinds_eq_some {found : ChordModifiers} (walked : heldKinds key kinds held = some found) :
    key ∉ held ∧ ∀ index < 4,
      (found.bits.getLsbD index = true ↔
        kinds.bits.getLsbD index = true ∨ ∃ usage ∈ held, OfKind index usage) := by
  induction held generalizing kinds with
  | nil =>
    cases walked
    simp
  | cons usage rest ih =>
    rw [heldKinds] at walked
    split at walked
    · cases walked
    next other =>
    obtain ⟨absent, bits⟩ := ih walked
    refine ⟨by simp [Ne.symm other, absent], fun index below => ?_⟩
    rw [bits index below, exists_mem_cons_iff, ← or_assoc]
    refine or_congr_left ?_
    split
    · next modifier =>
      have kind : (kindOf usage).bits.getLsbD index =
          decide (index = (usage.code - HID_LEFT_CONTROL.code) % 4) :=
        bits_kind (Nat.mod_lt _ (by decide))
      simp [bits_union, kind, OfKind, modifier]
    · next plain => simp [OfKind, plain]

theorem heldKinds_eq_none : heldKinds key kinds held = none ↔ key ∈ held := by
  induction held generalizing kinds with
  | nil => simp [heldKinds]
  | cons usage rest ih =>
    rw [heldKinds]
    split
    · next same => simp [same]
    · next other => rw [ih, mem_cons, or_iff_right (Ne.symm other)]

/-! ## Pressing and releasing fresh keys -/

section Fresh
variable {held : HeldKeys} {keys : List HidUsage}

theorem replay_all (pressed : Bool) (usage : HidUsage) :
    replay held (keys.map (⟨·, pressed⟩)) usage = if usage ∈ keys then pressed else held usage := by
  induction keys generalizing held with
  | nil => simp
  | cons key keys ih =>
    rw [map_cons, replay, foldl_cons, ← replay, ih, KeyStep.apply, update_apply]
    by_cases same : usage = key <;> simp [same]

theorem replay_tap (up : held key = false) : replay held [⟨key, true⟩, ⟨key, false⟩] = held := by
  simp only [replay, foldl_cons, foldl_nil, KeyStep.apply]
  rw [update_idem, ← up, update_eq_self]

/-- A tap between the presses of fresh keys and their releases leaves what was held. -/
theorem replay_wrapped (up : held key = false) (fresh : ∀ usage ∈ keys, held usage = false)
    (other : key ∉ keys) :
    replay held (keys.map (⟨·, true⟩) ++ [⟨key, true⟩, ⟨key, false⟩] ++
      keys.reverse.map (⟨·, false⟩)) = held := by
  funext usage
  have still : replay held (keys.map (⟨·, true⟩)) key = false := by
    simp [replay_all, up, other]
  rw [replay_append, replay_all, replay_append, replay_tap still, replay_all]
  by_cases member : usage ∈ keys
  · simp [member, fresh usage member]
  · simp [member]

theorem clean_all {pressed : Bool} (once : keys.Nodup)
    (other : ∀ usage ∈ keys, held usage = !pressed) :
    Clean exempt held (keys.map (⟨·, pressed⟩)) := by
  induction keys generalizing held with
  | nil => exact clean_nil
  | cons key keys ih =>
    obtain ⟨apart, once⟩ := nodup_cons.mp once
    obtain ⟨here, other⟩ := forall_mem_cons.mp other
    refine (clean_single (.inl here)).append (ih once fun usage member => ?_)
    have different : usage ≠ key := fun same => apart (same ▸ member)
    rw [replay_single, KeyStep.apply, update_of_ne different, other usage member]

theorem clean_wrapped (up : held key = false) (once : keys.Nodup)
    (fresh : ∀ usage ∈ keys, held usage = false) (other : key ∉ keys) :
    Clean exempt held (keys.map (⟨·, true⟩) ++ [⟨key, true⟩, ⟨key, false⟩] ++
      keys.reverse.map (⟨·, false⟩)) := by
  have still : replay held (keys.map (⟨·, true⟩)) key = false := by
    simp [replay_all, up, other]
  have tap : Clean exempt (replay held (keys.map (⟨·, true⟩)))
      ([⟨key, true⟩] ++ [⟨key, false⟩]) :=
    (clean_single (.inl still)).append (clean_single (.inl (by simp [KeyStep.apply])))
  refine ((clean_all once fresh).append tap).append
    (clean_all (nodup_reverse.mpr once) fun usage member => ?_)
  rw [replay_append, singleton_append, replay_tap still, replay_all, if_pos (mem_reverse.mp member)]
  rfl

end Fresh

/-! ## The plan -/

/-- The left keys of the missing kinds, in HID order. -/
def missingKeys : List HidUsage :=
  ((List.range 4).filter fun index => missing.bits.getLsbD index).map leftKey

theorem mem_missingKeys {missing : ChordModifiers} {usage : HidUsage} :
    usage ∈ missingKeys missing ↔
      ∃ index < 4, missing.bits.getLsbD index = true ∧ leftKey index = usage := by
  simp [missingKeys, and_assoc]

theorem missingSteps_indices {missing : ChordModifiers} {pressed : Bool} {indices : List Nat}
    (below : ∀ index ∈ indices, index < 4) :
    missingSteps missing pressed
        (indices.map fun index => (MODIFIER_KINDS.getD index .NONE, index)) =
      ((indices.filter fun index => missing.bits.getLsbD index).map leftKey).map (⟨·, pressed⟩) := by
  induction indices with
  | nil => rfl
  | cons index indices ih =>
    obtain ⟨here, later⟩ := forall_mem_cons.mp below
    have rest := ih later
    simp only [missingSteps, map_cons, filterMap_cons, filter_cons,
      contains_iff here] at rest ⊢
    cases missing.bits.getLsbD index with
    | false => exact rest
    | true => exact congrArg (List.cons _) rest

theorem zipIdx_eq : MODIFIER_KINDS.zipIdx =
    (List.range 4).map fun index => (MODIFIER_KINDS.getD index .NONE, index) := rfl

theorem missingSteps_eq (pressed : Bool) :
    missingSteps missing pressed MODIFIER_KINDS.zipIdx =
      (missingKeys missing).map (⟨·, pressed⟩) := by
  rw [zipIdx_eq, missingSteps_indices fun index => mem_range.mp, missingKeys]

theorem missingSteps_reverse (pressed : Bool) :
    missingSteps missing pressed MODIFIER_KINDS.zipIdx.reverse =
      (missingKeys missing).reverse.map (⟨·, pressed⟩) := by
  rw [zipIdx_eq, ← map_reverse,
    missingSteps_indices fun index member => mem_range.mp (mem_reverse.mp member),
    missingKeys, filter_reverse, map_reverse]

theorem missingKeys_length_le : (missingKeys missing).length ≤ 4 := by
  rw [missingKeys, length_map]
  exact length_filter_le _ (List.range 4)

theorem missingKeys_nodup : (missingKeys missing).Nodup := by
  refine (nodup_range.filter _).map fun first second same => ?_
  simpa [leftKey] using same

/-- The steps of a chord whose key is not held. -/
theorem chordPlan_eq_some {chord : Chord} (walked : heldKinds chord.key .NONE held = some kinds) :
    ∃ plan, chordPlan held chord = some plan ∧
      plan.steps = (missingKeys (chord.modifiers.without kinds)).map (⟨·, true⟩) ++
        [⟨chord.key, true⟩, ⟨chord.key, false⟩] ++
        (missingKeys (chord.modifiers.without kinds)).reverse.map (⟨·, false⟩) := by
  have few := missingKeys_length_le (chord.modifiers.without kinds)
  simp only [chordPlan, walked, missingSteps_eq, missingSteps_reverse]
  refine @KeyPlan.foldlM_push _ .EMPTY ?_
  simp only [KeyPlan.EMPTY, length_append, length_map, length_reverse, length_cons, length_nil,
    MAX_CHORD_STEPS]
  omega

def heldBy (held : List HidUsage) : HeldKeys := fun usage => decide (usage ∈ held)

section Missing
variable {chord : Chord} (walked : heldKinds chord.key .NONE held = some kinds)
include walked

/-- A key the chord presses is of a kind it needs and nothing held has. -/
theorem missing_fresh {usage : HidUsage}
    (missing : usage ∈ missingKeys (chord.modifiers.without kinds)) : usage ∉ held ∧
      ∃ index < 4, chord.modifiers.bits.getLsbD index = true ∧ leftKey index = usage := by
  obtain ⟨index, below, lacking, rfl⟩ := mem_missingKeys.mp missing
  rw [bits_without below, Bool.and_eq_true, Bool.not_eq_true'] at lacking
  obtain ⟨needed, absent⟩ := lacking
  refine ⟨fun member => ?_, index, below, needed, rfl⟩
  have found := ((heldKinds_eq_some walked).2 index below).mpr
    (.inr ⟨_, member, leftKey_ofKind below⟩)
  rw [absent] at found
  cases found

/-- Every kind the chord needs is held once the missing keys are down. -/
theorem needed_held {index : Nat} (below : index < 4)
    (needed : chord.modifiers.bits.getLsbD index = true) : ∃ usage, OfKind index usage ∧
      replay (heldBy held) ((missingKeys (chord.modifiers.without kinds)).map (⟨·, true⟩)) usage =
        true := by
  cases has : kinds.bits.getLsbD index with
  | true =>
    obtain nothing | ⟨usage, member, kind⟩ := ((heldKinds_eq_some walked).2 index below).mp has
    · simp [ChordModifiers.NONE] at nothing
    · exact ⟨usage, kind, by simp [replay_all, heldBy, member]⟩
  | false =>
    have missing : leftKey index ∈ missingKeys (chord.modifiers.without kinds) :=
      mem_missingKeys.mpr ⟨index, below, by simp [bits_without below, needed, has],
        rfl⟩
    exact ⟨leftKey index, leftKey_ofKind below, by simp [replay_all, missing]⟩

/-- The key of a chord set apart is none of those it presses. -/
theorem key_not_missing (apart : chord.Apart) :
    chord.key ∉ missingKeys (chord.modifiers.without kinds) := by
  intro member
  obtain ⟨-, index, below, needed, same⟩ := missing_fresh walked member
  obtain ⟨modifier, kind⟩ := leftKey_ofKind below
  rw [same] at modifier kind
  have refused := apart modifier
  rw [kindOf, ← kind, contains_iff below, needed] at refused
  cases refused

end Missing

/-- Chord plans leave no trace.  Whatever keys are held, the plan of a chord whose key is no
modifier of a kind it needs is empty exactly when that key is held.  Otherwise it touches no key
that is held, each of its steps presses a key that is up or releases one that is down, every kind
the chord needs is held when its key goes down, what was pressed is released in reverse order, and
what is held in the end is what was held before. -/
theorem chord_leaves_no_trace (held : List HidUsage) (chord : Chord) (apart : chord.Apart) :
    ∃ plan, chordPlan held chord = some plan ∧ (plan.steps = [] ↔ chord.key ∈ held) ∧
      (chord.key ∉ held → ∃ pressed : List HidUsage,
        plan.steps = pressed.map (⟨·, true⟩) ++ [⟨chord.key, true⟩, ⟨chord.key, false⟩] ++
          pressed.reverse.map (⟨·, false⟩) ∧
        (∀ step ∈ plan.steps, step.usage ∉ held) ∧
        Clean (fun _ => False) (heldBy held) plan.steps ∧
        (∀ kind ∈ MODIFIER_KINDS, chord.modifiers.contains kind = true →
          ∃ usage, usage.isModifier = true ∧ kindOf usage = kind ∧
            replay (heldBy held) (pressed.map (⟨·, true⟩)) usage = true) ∧
        replay (heldBy held) plan.steps = heldBy held) := by
  cases walked : heldKinds chord.key .NONE held with
  | none =>
    have member := heldKinds_eq_none.mp walked
    exact ⟨.EMPTY, by simp [chordPlan, walked], by simp [KeyPlan.EMPTY, member],
      fun absent => absurd member absent⟩
  | some kinds =>
    obtain ⟨plan, made, steps⟩ := chordPlan_eq_some walked
    have absent := (heldKinds_eq_some walked).1
    have other := key_not_missing walked apart
    have up : heldBy held chord.key = false := by simp [heldBy, absent]
    have fresh : ∀ usage ∈ missingKeys (chord.modifiers.without kinds),
        heldBy held usage = false :=
      fun usage missing => by simp [heldBy, (missing_fresh walked missing).1]
    refine ⟨plan, made, by simp [steps, absent], fun _ => ⟨_, steps, ?_, ?_, ?_, ?_⟩⟩
    · intro step member
      rw [steps] at member
      simp only [mem_append, mem_map, mem_cons, mem_reverse, not_mem_nil, or_false] at member
      rcases member with (⟨usage, missing, rfl⟩ | rfl | rfl) | ⟨usage, missing, rfl⟩
      · exact (missing_fresh walked missing).1
      · exact absent
      · exact absent
      · exact (missing_fresh walked missing).1
    · rw [steps]
      exact clean_wrapped up (missingKeys_nodup _) fresh other
    · intro kind member needed
      obtain ⟨index, below, rfl⟩ := mem_modifierKinds.mp member
      rw [contains_iff below] at needed
      obtain ⟨usage, ⟨modifier, same⟩, down⟩ := needed_held walked below needed
      exact ⟨usage, modifier, by rw [kindOf, ← same], down⟩
    · rw [steps]
      exact replay_wrapped up fresh other

/-- The chord of the previous app on macOS, while the right Command key is held. -/
theorem chord_leaves_no_trace_right_command :
    Chord.Apart ⟨.union .SYSTEM .SHIFT, HID_TAB⟩ ∧
      (chordPlan [⟨0xE7⟩] ⟨.union .SYSTEM .SHIFT, HID_TAB⟩).map KeyPlan.steps =
        some [⟨⟨0xE1⟩, true⟩, ⟨HID_TAB, true⟩, ⟨HID_TAB, false⟩, ⟨⟨0xE1⟩, false⟩] ∧
      ∃ plan, chordPlan [⟨0xE7⟩] ⟨.union .SYSTEM .SHIFT, HID_TAB⟩ = some plan ∧
        (plan.steps = [] ↔ HID_TAB ∈ [(⟨0xE7⟩ : HidUsage)]) := by
  have apart : Chord.Apart ⟨.union .SYSTEM .SHIFT, HID_TAB⟩ := by
    unfold Chord.Apart
    decide
  obtain ⟨plan, made, empty, -⟩ := chord_leaves_no_trace [⟨0xE7⟩] _ apart
  exact ⟨apart, by decide, plan, made, empty⟩

end Monhop.Core
