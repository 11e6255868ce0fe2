import Monhop.Core.Types
import Monhop.Library.Mask

/-! # The source's key and button tables

What the source controller remembers of each key and button: whether captured records
left it physically down, and whether it was pressed on the peer.
-/

namespace Monhop.Transport

open Monhop.Core Function

structure KeyState where
  physical : Bool
  remote : Bool

/-- What a key was before a captured record changed it. -/
structure KeyChange where
  wasPhysical : Bool
  wasRemote : Bool

/-- Keys by usage code. -/
abbrev KeyTable := Nat → KeyState

structure ButtonState where
  physical : Bool
  remote : Bool
  /-- Sent with the remote press and repeated on its release. -/
  remoteClicks : Nat

structure ButtonChange where
  wasPhysical : Bool
  wasRemote : Bool

abbrev ButtonTable := MouseButton → ButtonState

variable {pressed isRepeat : Bool} {usage : HidUsage} {keys : KeyTable} {modifiers : ModifierState}

def modifierMask : Nat → Nat
  | 0xe0 => 1
  | 0xe1 => 2
  | 0xe2 => 4
  | 0xe3 => 8
  | 0xe4 => 16
  | 0xe5 => 32
  | 0xe6 => 64
  | 0xe7 => 128
  | _ => 0

namespace KeyTable

def up : KeyTable := fun _ => { physical := false, remote := false }

/-- The mask of the modifiers a flag selects. -/
def modifiersBy (keys : KeyTable) (flag : KeyState → Bool) : ModifierState :=
  ⟨[0xe0, 0xe1, 0xe2, 0xe3, 0xe4, 0xe5, 0xe6, 0xe7].foldl
    (fun mask index => if flag (keys index) then mask ||| modifierMask index else mask) 0⟩

def physicalModifiers (keys : KeyTable) : ModifierState := keys.modifiersBy KeyState.physical

def remoteModifiers (keys : KeyTable) : ModifierState := keys.modifiersBy KeyState.remote

theorem modifiersBy_eq (keys : KeyTable) (flag : KeyState → Bool) :
    keys.modifiersBy flag = ⟨Library.mask 8 fun index => flag (keys (0xe0 + index))⟩ := rfl

def setPhysical (keys : KeyTable) (index : Nat) (physical : Bool) : KeyTable :=
  update keys index { keys index with physical }

def setRemote (keys : KeyTable) (index : Nat) (remote : Bool) : KeyTable :=
  update keys index { keys index with remote }

def clearRemote (keys : KeyTable) : KeyTable := fun index => { keys index with remote := false }

/-- Applies one captured key record; `none` is a record that contradicts the table.  The
table keeps the record's change even where its modifiers contradict. -/
def updateKey (keys : KeyTable) (usage : HidUsage) (pressed isRepeat : Bool)
    (modifiers : ModifierState) : KeyTable × Option KeyChange :=
  if !usage.isValid then (keys, none)
  else
    let state := keys usage.code
    let change := { wasPhysical := state.physical, wasRemote := state.remote }
    let checked := fun (keys : KeyTable) =>
      (keys, if keys.physicalModifiers = modifiers then some change else none)
    if pressed then
      if state.physical then if !isRepeat then (keys, none) else checked keys
      else if isRepeat then (keys, none)
      else checked (keys.setPhysical usage.code true)
    else if isRepeat then (keys, none)
    else if state.physical then checked (keys.setPhysical usage.code false)
    else (keys, some { wasPhysical := false, wasRemote := false })

@[simp] theorem setPhysical_self (keys : KeyTable) (index : Nat) (physical : Bool) :
    keys.setPhysical index physical index = { keys index with physical } :=
  update_self ..

theorem setPhysical_of_ne {index other : Nat} {physical : Bool} (different : other ≠ index) :
    keys.setPhysical index physical other = keys other :=
  update_of_ne different ..

theorem setPhysical_same {index : Nat} {physical : Bool} (same : (keys index).physical = physical) :
    keys.setPhysical index physical = keys := by
  subst same
  exact update_eq_self ..

/-- What an accepted record does, and what it found. -/
theorem updateKey_some {after : KeyTable} {change : KeyChange}
    (updated : keys.updateKey usage pressed isRepeat modifiers = (after, some change)) :
    after = keys.setPhysical usage.code pressed ∧
      change.wasPhysical = (keys usage.code).physical ∧
      change.wasRemote = ((pressed || (keys usage.code).physical) && (keys usage.code).remote) ∧
      isRepeat = (pressed && (keys usage.code).physical) := by
  have checked : ∀ (table : KeyTable) (found : KeyChange),
      (table, if table.physicalModifiers = modifiers then some found else none) =
        (after, some change) → after = table ∧ change = found := by
    intro table found same
    split at same <;> cases same
    exact ⟨rfl, rfl⟩
  unfold updateKey at updated
  cases valid : usage.isValid with
  | false => simp [valid] at updated
  | true =>
    cases pressed with
    | true =>
      cases down : (keys usage.code).physical <;> cases isRepeat <;>
        simp only [valid, down, Bool.not_true, Bool.not_false, Bool.false_eq_true, if_true,
          if_false] at updated
      · obtain ⟨rfl, rfl⟩ := checked _ _ updated
        simp
      · cases updated
      · cases updated
      · obtain ⟨rfl, rfl⟩ := checked _ _ updated
        simp [setPhysical_same down]
    | false =>
      cases isRepeat with
      | true => simp [valid] at updated
      | false =>
        cases down : (keys usage.code).physical <;>
          simp only [valid, down, Bool.not_true, Bool.false_eq_true, if_true, if_false] at updated
        · cases updated
          simp [setPhysical_same down]
        · obtain ⟨rfl, rfl⟩ := checked _ _ updated
          simp

/-- A record the table agrees with: a press repeats exactly when the key is down, a
release finds it down, and the modifiers are those left down. -/
structure Agrees (keys : KeyTable) (usage : HidUsage) (pressed isRepeat : Bool)
    (modifiers : ModifierState) : Prop where
  repeats : isRepeat = true ↔ pressed = true ∧ (keys usage.code).physical = true
  releases : pressed = false → (keys usage.code).physical = true
  modifiers_eq : (keys.setPhysical usage.code pressed).physicalModifiers = modifiers

/-- Such a record is accepted and leaves the key as it says. -/
theorem Agrees.updateKey (agrees : keys.Agrees usage pressed isRepeat modifiers)
    (valid : usage.isValid = true) :
    (keys.updateKey usage pressed isRepeat modifiers).1 = keys.setPhysical usage.code pressed ∧
      (keys.updateKey usage pressed isRepeat modifiers).2.isSome = true := by
  obtain ⟨repeats, releases, modifiers_eq⟩ := agrees
  cases pressed with
  | true =>
    cases down : (keys usage.code).physical with
    | true =>
      have isRepeat : isRepeat = true := repeats.mpr ⟨rfl, down⟩
      rw [setPhysical_same down] at modifiers_eq ⊢
      simp [updateKey, valid, down, isRepeat, modifiers_eq]
    | false =>
      have isFirst : isRepeat = false := by simpa [down] using repeats
      simp [updateKey, valid, down, isFirst, modifiers_eq]
  | false =>
    have isRelease : isRepeat = false := by simpa using repeats
    simp [updateKey, valid, releases rfl, isRelease, modifiers_eq]

/-- A press the table accepts, or a release of a key that is down, agrees with it. -/
theorem agrees_of_updateKey
    (accepted : (keys.updateKey usage pressed isRepeat modifiers).2.isSome = true)
    (releases : pressed = false → (keys usage.code).physical = true) :
    keys.Agrees usage pressed isRepeat modifiers := by
  cases valid : usage.isValid with
  | false => simp [updateKey, valid] at accepted
  | true =>
    cases pressed with
    | true =>
      cases down : (keys usage.code).physical with
      | true =>
        cases isRepeat with
        | false => simp [updateKey, valid, down] at accepted
        | true =>
          refine ⟨by simp [down], nofun, ?_⟩
          rw [setPhysical_same down]
          simpa [updateKey, valid, down] using accepted
      | false =>
        cases isRepeat with
        | true => simp [updateKey, valid, down] at accepted
        | false =>
          refine ⟨by simp [down], nofun, ?_⟩
          simpa [updateKey, valid, down] using accepted
    | false =>
      have down := releases rfl
      cases isRepeat with
      | true => simp [updateKey, valid] at accepted
      | false =>
        refine ⟨by simp, fun _ => down, ?_⟩
        simpa [updateKey, valid, down] using accepted

end KeyTable

namespace ButtonTable

def up : ButtonTable := fun _ => { physical := false, remote := false, remoteClicks := 0 }

variable (buttons : ButtonTable)

def setPhysical (button : MouseButton) (physical : Bool) : ButtonTable :=
  update buttons button { buttons button with physical }

/-- A press on the peer, with its click count. -/
def pressRemote (button : MouseButton) (clicks : Nat) : ButtonTable :=
  update buttons button { buttons button with remote := true, remoteClicks := clicks }

def releaseRemote (button : MouseButton) : ButtonTable :=
  update buttons button { buttons button with remote := false }

def clearRemote : ButtonTable :=
  fun button => { buttons button with remote := false }

def updateButton (button : MouseButton) (pressed : Bool) : ButtonTable × ButtonChange :=
  (buttons.setPhysical button pressed,
    { wasPhysical := (buttons button).physical, wasRemote := (buttons button).remote })

@[simp] theorem setPhysical_self (button : MouseButton) (physical : Bool) :
    buttons.setPhysical button physical button = { buttons button with physical } :=
  update_self ..

end ButtonTable
end Monhop.Transport
