import Mathlib

/-! # Bit masks of a predicate

`mask width flag` has bit `index` set exactly for the indices below `width` the predicate
selects, built by the loop that sets one bit at a time.
-/

namespace Monhop.Library

def mask : Nat → (Nat → Bool) → Nat
  | 0, _ => 0
  | width + 1, flag => if flag width then mask width flag ||| 1 <<< width else mask width flag

theorem testBit_mask (width : Nat) (flag : Nat → Bool) (index : Nat) :
    (mask width flag).testBit index = (decide (index < width) && flag index) := by
  induction width with
  | zero => simp [mask]
  | succ width ih =>
    have shifted : (1 <<< width).testBit index = decide (width = index) := by
      rw [Nat.shiftLeft_eq, one_mul, Nat.testBit_two_pow]
    cases set : flag width with
    | false =>
      simp only [mask, set, Bool.false_eq_true, ↓reduceIte, ih]
      rcases lt_trichotomy index width with below | rfl | above
      · simp [below, Nat.lt_succ_of_lt below]
      · simp [set]
      · simp [not_lt.mpr above.le, not_lt.mpr (Nat.succ_le_of_lt above)]
    | true =>
      simp only [mask, set, ↓reduceIte, Nat.testBit_or, ih, shifted]
      rcases lt_trichotomy index width with below | rfl | above
      · simp [below, Nat.lt_succ_of_lt below, below.ne']
      · simp [set]
      · simp [not_lt.mpr above.le, not_lt.mpr (Nat.succ_le_of_lt above), above.ne]

/-- Two masks are equal exactly when the predicates agree below the width. -/
theorem mask_eq_iff {width : Nat} {first second : Nat → Bool} :
    mask width first = mask width second ↔ ∀ index < width, first index = second index := by
  constructor
  · intro same index below
    have bit := congrArg (Nat.testBit · index) same
    simpa [testBit_mask, below] using bit
  intro agree
  apply Nat.eq_of_testBit_eq
  intro index
  rw [testBit_mask, testBit_mask]
  by_cases below : index < width
  · rw [agree index below]
  · simp [below]

end Monhop.Library
