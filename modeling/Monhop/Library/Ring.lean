import Mathlib

/-! # Rings of numbered slots

A bounded queue of one producer and one consumer in which each slot carries a number.  The
slot of position `n` is `n % capacity`.  Its number says who owns it: `n` while it is free for
the record at position `n`, `n + 1` once that record is in it.  Numbers and positions are
machine words, so they are kept modulo `modulus`.

* `Ring.Numbered` — the numbers between the consumer's position and the producer's.
* `Numbered.free_iff`, `Numbered.ready_iff` — what each side learns from one number.
* `Numbered.push`, `Numbered.pop` — what storing the next number makes of it.
* `Ring.Filled` — the payloads of the records not yet taken.
-/

namespace Monhop.Library.Ring

open Function

/-- A capacity that divides the range of the position words, and is smaller. -/
structure Sized (capacity modulus : Nat) : Prop where
  two : 2 ≤ capacity
  below : capacity < modulus
  divides : capacity ∣ modulus

variable {capacity modulus : Nat}

/-- A position word has the slot of its position. -/
theorem Sized.index_word (sized : Sized capacity modulus) {position : Nat} :
    position % modulus % capacity = position % capacity :=
  Nat.mod_mod_of_dvd position sized.divides

/-- Positions less than a capacity apart have different slots. -/
theorem index_ne {base first second : Nat} (firstFrom : base ≤ first)
    (firstBelow : first < base + capacity) (secondFrom : base ≤ second)
    (secondBelow : second < base + capacity) (different : first ≠ second) :
    first % capacity ≠ second % capacity := by
  refine fun same => different (Nat.ModEq.eq_of_abs_lt same ?_)
  rw [abs_lt]
  omega

/-- Words less than a modulus apart differ. -/
theorem word_ne {base distance : Nat} (positive : 0 < distance) (below : distance < modulus) :
    (base + distance) % modulus ≠ base % modulus :=
  index_ne (by omega) (by omega) (le_refl base) (by omega) (by omega)

/-! ## Numbers -/

/-- The slots from `head` up to `tail` are filled, those from `tail` to a capacity past `head`
are free. -/
structure Numbered (capacity modulus : Nat) (number : Nat → Nat) (head tail : Nat) : Prop where
  ordered : head ≤ tail
  bounded : tail ≤ head + capacity
  filled : ∀ position, head ≤ position → position < tail →
    number (position % capacity) = (position + 1) % modulus
  free : ∀ position, tail ≤ position → position < head + capacity →
    number (position % capacity) = position % modulus

namespace Numbered

variable {number : Nat → Nat} {head tail : Nat}

theorem start (sized : Sized capacity modulus) (own : ∀ index < capacity, number index = index) :
    Numbered capacity modulus number 0 0 where
  ordered := Nat.le_refl 0
  bounded := Nat.zero_le _
  filled _ _ below := absurd below (Nat.not_lt_zero _)
  free position _ below := by
    have inside : position < capacity := by omega
    rw [Nat.mod_eq_of_lt inside, own position inside, Nat.mod_eq_of_lt (inside.trans sized.below)]

section
variable (numbered : Numbered capacity modulus number head tail)
include numbered

/-- The producer finds its position on the slot exactly when there is room. -/
theorem free_iff (sized : Sized capacity modulus) :
    number (tail % capacity) = tail % modulus ↔ tail < head + capacity := by
  constructor
  · intro own
    apply lt_of_le_of_ne numbered.bounded
    rintro rfl
    -- a full ring has the record at `head` in the producer's slot
    have two := sized.two
    have below := sized.below
    have oldest := numbered.filled head (le_refl head) (by omega)
    rw [Nat.add_mod_right, oldest] at own
    apply word_ne (show 0 < capacity - 1 by omega) (show capacity - 1 < modulus by omega)
    rw [own]
    congr 1
    omega
  · intro room
    exact numbered.free tail (le_refl tail) room

/-- The consumer finds the number after its position exactly when a record is there. -/
theorem ready_iff (sized : Sized capacity modulus) :
    number (head % capacity) = (head + 1) % modulus ↔ head < tail := by
  constructor
  · intro ready
    apply lt_of_le_of_ne numbered.ordered
    rintro rfl
    have two := sized.two
    have below := sized.below
    rw [numbered.free head (le_refl head) (by omega)] at ready
    exact word_ne Nat.one_pos (by omega) ready.symm
  · exact numbered.filled head (le_refl head)

/-- The producer numbers its slot as filled. -/
theorem push (room : tail < head + capacity) :
    Numbered capacity modulus
      (update number (tail % capacity) ((tail + 1) % modulus)) head (tail + 1) where
  ordered := Nat.le_succ_of_le numbered.ordered
  bounded := room
  filled position atLeast below := by
    by_cases last : position = tail
    · rw [last, update_self]
    · rw [update_of_ne (index_ne atLeast (by omega) numbered.ordered room last)]
      exact numbered.filled position atLeast (by omega)
  free position atLeast below := by
    have from_head := numbered.ordered
    rw [update_of_ne (index_ne (by omega) below numbered.ordered room (by omega))]
    exact numbered.free position (by omega) below

/-- The consumer numbers its slot for the record a capacity further on. -/
theorem pop (ready : head < tail) :
    Numbered capacity modulus
      (update number (head % capacity) ((head + capacity) % modulus)) (head + 1) tail where
  ordered := ready
  bounded := by
    have := numbered.bounded
    omega
  filled position atLeast below := by
    have bounded := numbered.bounded
    rw [update_of_ne (index_ne (by omega) (by omega) (le_refl head) (by omega) (by omega))]
    exact numbered.filled position (by omega) below
  free position atLeast below := by
    by_cases last : position = head + capacity
    · rw [last, Nat.add_mod_right, update_self]
    rw [update_of_ne (index_ne (by omega) (by omega) (le_refl head) (by omega) (by omega))]
    exact numbered.free position atLeast (by omega)

end
end Numbered

/-! ## Payloads -/

section
variable {Record Payload : Type*}

/-- Every record from `head` on is in its slot. -/
def Filled (capacity : Nat) (code : Record → Payload) (payload : Nat → Payload)
    (records : List Record) (head : Nat) : Prop :=
  ∀ position record, head ≤ position → records[position]? = some record →
    payload (position % capacity) = code record

variable {code : Record → Payload} {payload : Nat → Payload} {records : List Record} {head : Nat}

section
variable (filled : Filled capacity code payload records head)
include filled

/-- Storing in the producer's own slot keeps every record not yet taken. -/
theorem Filled.store
    (ordered : head ≤ records.length) (room : records.length < head + capacity) (value : Payload) :
    Filled capacity code (update payload (records.length % capacity) value) records
      head := by
  intro position record atLeast found
  have below := (List.getElem?_eq_some_iff.mp found).1
  rw [update_of_ne (index_ne atLeast (by omega) ordered room below.ne)]
  exact filled position record atLeast found

/-- A record counts as there once its payload is complete. -/
theorem Filled.concat (record : Record)
    (stored : payload (records.length % capacity) = code record) :
    Filled capacity code payload (records ++ [record]) head := by
  intro position other atLeast found
  rcases lt_trichotomy position records.length with before | rfl | after
  · rw [List.getElem?_append_left before] at found
    exact filled position other atLeast found
  · rw [List.getElem?_concat_length, Option.some.injEq] at found
    rw [stored, found]
  · rw [List.getElem?_eq_none (by simp; omega)] at found
    cases found

theorem Filled.mono {later : Nat}
    (further : head ≤ later) : Filled capacity code payload records later :=
  fun position record atLeast found => filled position record (further.trans atLeast) found

end

/-- Reading one offset after another. -/
theorem mapM_range {Item : Type*} {read : Nat → Option Item} {items : List Item}
    (each : ∀ offset item, items[offset]? = some item → read offset = some item) :
    (List.range items.length).mapM read = some items := by
  induction items using List.reverseRecOn with
  | nil => rfl
  | append_singleton items item ih =>
    have last : read items.length = some item := each _ _ (by simp)
    have front := ih fun offset item found =>
      each offset item (List.getElem?_append_left (List.getElem?_eq_some_iff.mp found).1 ▸ found)
    simp [List.range_succ, front, last]

end
end Monhop.Library.Ring
