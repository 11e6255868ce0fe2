import Mathlib

/-! # Bit fields packed into one word

A word holds a low field of `lowBits` bits, a middle field of `middleBits` bits above it
and a high field above both.  While each of the two lower fields fits its bits, packing
is positional notation, and shifting and masking read every field back.
-/

namespace Monhop.Library.Fields

variable {lowBits middleBits high middle low : Nat}

/-- The word that holds the three fields. -/
def pack (lowBits middleBits high middle low : Nat) : Nat :=
  high <<< (lowBits + middleBits) ||| middle <<< lowBits ||| low

section
variable (middleFits : middle < 2 ^ middleBits)
include middleFits

section
variable (lowFits : low < 2 ^ lowBits)
include lowFits

theorem pack_eq :
    pack lowBits middleBits high middle low =
      (high * 2 ^ middleBits + middle) * 2 ^ lowBits + low := by
  unfold pack
  have lower : high <<< (lowBits + middleBits) ||| middle <<< lowBits =
      (high * 2 ^ middleBits + middle) <<< lowBits := by
    rw [add_comm lowBits, Nat.shiftLeft_add, ← Nat.shiftLeft_or_distrib,
      ← Nat.shiftLeft_add_eq_or_of_lt middleFits, Nat.shiftLeft_eq high]
  rw [lower, ← Nat.shiftLeft_add_eq_or_of_lt lowFits, Nat.shiftLeft_eq]

theorem pack_low : pack lowBits middleBits high middle low &&& (2 ^ lowBits - 1) = low := by
  rw [Nat.and_two_pow_sub_one_eq_mod, pack_eq middleFits lowFits, Nat.mul_add_mod_self_right,
    Nat.mod_eq_of_lt lowFits]

theorem pack_middle :
    (pack lowBits middleBits high middle low >>> lowBits) &&& (2 ^ middleBits - 1) = middle := by
  rw [Nat.and_two_pow_sub_one_eq_mod, pack_eq middleFits lowFits, Nat.shiftRight_eq_div_pow,
    mul_comm _ (2 ^ lowBits), Nat.mul_add_div (Nat.two_pow_pos _),
    Nat.div_eq_of_lt lowFits, add_zero, Nat.mul_add_mod_self_right, Nat.mod_eq_of_lt middleFits]

theorem pack_high : pack lowBits middleBits high middle low >>> (lowBits + middleBits) = high := by
  rw [pack_eq middleFits lowFits, Nat.shiftRight_eq_div_pow, pow_add, ← Nat.div_div_eq_div_mul,
    mul_comm _ (2 ^ lowBits), Nat.mul_add_div (Nat.two_pow_pos _), Nat.div_eq_of_lt lowFits,
    add_zero, mul_comm high, Nat.mul_add_div (Nat.two_pow_pos _),
    Nat.div_eq_of_lt middleFits, add_zero]

end
end

/-- A field above the bits of what is there adds its value. -/
theorem or_shiftLeft (lowFits : low < 2 ^ lowBits) (high : Nat) :
    low ||| high <<< lowBits = low + high * 2 ^ lowBits := by
  rw [Nat.or_comm, ← Nat.shiftLeft_add_eq_or_of_lt lowFits, Nat.shiftLeft_eq, Nat.add_comm]

end Monhop.Library.Fields
