import Mathlib

/-! # Cyclic redundancy checks

Long division of binary polynomials held in a word: from the highest bit down to the generator's
degree, a set bit takes the generator, shifted under it, away.

* `divide_xor` — the remainder is linear in exclusive or.
* `divide_of_below` — what is below the degree already is its own remainder.
* `divide_below` — a generator whose highest bit is its degree leaves nothing at or above it.
-/

namespace Monhop.Library.Crc

variable {width : Nat}

/-- No bit is set from `bound` on. -/
def Below (bound : Nat) (word : BitVec width) : Prop :=
  ∀ bit, bound ≤ bit → word.getLsbD bit = false

variable {word : BitVec width}

theorem below_iff_lt {bound : Nat} : Below bound word ↔ word.toNat < 2 ^ bound := by
  constructor
  · intro below
    refine Nat.lt_pow_two_of_testBit _ fun bit above => ?_
    exact below bit above
  · intro small bit above
    exact Nat.testBit_lt_two_pow (Nat.lt_of_lt_of_le small (Nat.pow_le_pow_right (by decide) above))

def divideBit (generator : BitVec width) (degree : Nat) (remainder : BitVec width) (bit : Nat) :
    BitVec width :=
  if remainder.getLsbD bit then remainder ^^^ generator <<< (bit - degree) else remainder

/-- The division from bit `degree + count - 1` down to bit `degree`. -/
def divide (generator : BitVec width) (degree : Nat) : Nat → BitVec width → BitVec width
  | 0, remainder => remainder
  | count + 1, remainder =>
    divide generator degree count (divideBit generator degree remainder (degree + count))

variable {generator : BitVec width} {degree : Nat}

theorem divideBit_xor (first second : BitVec width) (bit : Nat) :
    divideBit generator degree (first ^^^ second) bit =
      divideBit generator degree first bit ^^^ divideBit generator degree second bit := by
  unfold divideBit
  rw [BitVec.getLsbD_xor]
  generalize generator <<< (bit - degree) = shifted
  apply BitVec.eq_of_getLsbD_eq
  intro place _
  -- Bit by bit: the shifted generator is taken away once, twice or not at all.
  cases first.getLsbD bit <;> cases second.getLsbD bit <;>
    simp only [BitVec.getLsbD_xor, Bool.false_bne, Bool.true_bne, Bool.not_false,
      Bool.false_eq_true, if_true, if_false, bne_self_eq_false] <;>
    cases first.getLsbD place <;> cases second.getLsbD place <;> cases shifted.getLsbD place <;> rfl

theorem divide_xor (count : Nat) (first second : BitVec width) :
    divide generator degree count (first ^^^ second) =
      divide generator degree count first ^^^ divide generator degree count second := by
  induction count generalizing first second with
  | zero => rfl
  | succ count ih =>
    simp only [divide]
    rw [divideBit_xor, ih]

theorem divide_of_below {count : Nat} (below : Below degree word) :
    divide generator degree count word = word := by
  induction count with
  | zero => rfl
  | succ count ih =>
    have clear : divideBit generator degree word (degree + count) = word := by
      simp [divideBit, below (degree + count) (Nat.le_add_right _ _)]
    rw [divide, clear, ih]

theorem divideBit_below (top : generator.getLsbD degree = true)
    (monic : Below (degree + 1) generator) {bit : Nat} (reaches : degree ≤ bit)
    (fits : bit < width) (below : Below (bit + 1) word) :
    Below bit (divideBit generator degree word bit) := by
  intro other above
  unfold divideBit
  by_cases same : other = bit
  · subst same
    cases set : word.getLsbD other with
    | false => simp [set]
    | true =>
      have shifted : other - (other - degree) = degree := by omega
      have under : ¬ other < other - degree := by omega
      simp only [if_true, BitVec.getLsbD_xor, BitVec.getLsbD_shiftLeft, set, shifted, top, fits,
        under, decide_true, decide_false, Bool.not_false, Bool.and_self, bne_self_eq_false]
  · have past : bit + 1 ≤ other := by omega
    cases set : word.getLsbD bit with
    | false => simpa using below other past
    | true =>
      have zero : generator.getLsbD (other - (bit - degree)) = false := monic _ (by omega)
      simp [below other past, zero]

theorem divide_below (top : generator.getLsbD degree = true) (monic : Below (degree + 1) generator)
    {count : Nat} (fits : degree + count ≤ width)
    (below : Below (degree + count) word) : Below degree (divide generator degree count word) := by
  induction count generalizing word with
  | zero => exact below
  | succ count ih =>
    rw [divide]
    apply ih (by omega)
    exact divideBit_below top monic (Nat.le_add_right _ _) (by omega) below

end Monhop.Library.Crc
