import Monhop.Library.Crc
import Monhop.Library.Check

/-! # The short pairing code

Twelve symbols carry 55 data bits and five check bits.

* `PairingCode.parse_eq_ok` — which strings are read, and as what.
* `PairingCode.parse_display` — a displayed code reads back.
* `PairingCode.parse_replaced` — one wrong symbol in an accepted string is noticed.
* `pairing_code_detects` — the three together.
-/

namespace Monhop.Transport

open Library List

def PAIRING_CODE_SYMBOLS : Nat := 12
def MAX_PAIRING_CODE_INPUT_BYTES : Nat := 64
def GROUP_SYMBOLS : Nat := 4
def SYMBOL_BITS : Nat := 5
def DATA_BITS : Nat := 55
def CHECK_BITS : Nat := 5

def ascii (char : Char) : UInt8 := UInt8.ofNat char.toNat

/-- Crockford base32: no I, L, O or U, which read as other symbols. -/
def ALPHABET : List UInt8 :=
  ['0', '1', '2', '3', '4', '5', '6', '7', '8', '9', 'A', 'B', 'C', 'D', 'E', 'F', 'G', 'H', 'J',
    'K', 'M', 'N', 'P', 'Q', 'R', 'S', 'T', 'V', 'W', 'X', 'Y', 'Z'].map ascii

/-- `x ^ 5 + x ^ 2 + 1`. -/
def CHECK_GENERATOR : BitVec 64 := 0b100101

inductive PairingCodeError where
  | incomplete
  | mistyped
  | offNetwork
  | unavailable

/-- The 55 data bits, in a 64-bit word. -/
structure PairingCode where
  data : BitVec 64
  fits : data.toNat < 2 ^ DATA_BITS

def mask (bits : Nat) : BitVec 64 := 1#64 <<< bits - 1#64

def toAsciiUppercase (byte : UInt8) : UInt8 :=
  if ascii 'a' ≤ byte ∧ byte ≤ ascii 'z' then byte - 32 else byte

/-- Space, tab, line feed, form feed and carriage return. -/
def isAsciiWhitespace (byte : UInt8) : Bool :=
  byte == 0x20 || byte == 0x09 || byte == 0x0A || byte == 0x0C || byte == 0x0D

def symbolValue (byte : UInt8) : Option Nat :=
  if byte = ascii 'O' then some 0
  else if byte = ascii 'I' ∨ byte = ascii 'L' then some 1
  else ALPHABET.findIdx? (· == byte)

/-- The CRC-5 of the data bits: the remainder of `data * x ^ 5` divided by the generator. -/
def check (data : BitVec 64) : BitVec 64 :=
  Crc.divide CHECK_GENERATOR CHECK_BITS DATA_BITS (data <<< CHECK_BITS)

def skipped (byte : UInt8) : Bool := byte == ascii '-' || isAsciiWhitespace byte

def shiftIn (value : BitVec 64) (symbol : Nat) : BitVec 64 :=
  value <<< SYMBOL_BITS ||| BitVec.ofNat 64 symbol

/-- The loop of `parse`: the value read so far and its number of symbols. -/
def readSymbols : List UInt8 → BitVec 64 → Nat → Except PairingCodeError (BitVec 64 × Nat)
  | [], value, symbols => .ok (value, symbols)
  | byte :: rest, value, symbols =>
    if skipped byte then readSymbols rest value symbols
    else
      match symbolValue (toAsciiUppercase byte) with
      | none => .error .incomplete
      | some symbol =>
        if symbols + 1 > PAIRING_CODE_SYMBOLS then .error .incomplete
        else readSymbols rest (shiftIn value symbol) (symbols + 1)

variable {byte : UInt8}

theorem symbolValue_lt {symbol : Nat} (found : symbolValue byte = some symbol) : symbol < 32 := by
  unfold symbolValue at found
  split at found
  · cases found
    decide
  split at found
  · cases found
    decide
  · have bound := (findIdx?_eq_some_iff_findIdx_eq.mp found).1
    exact bound

variable {value : BitVec 64}

/-- The last symbol's bits, then those before it. -/
theorem getLsbD_shiftIn {symbol : Nat} (small : symbol < 32) (bit : Nat) :
    (shiftIn value symbol).getLsbD bit = (decide (bit < 64) &&
      if bit < 5 then symbol.testBit bit else value.getLsbD (bit - 5)) := by
  unfold shiftIn SYMBOL_BITS
  rw [BitVec.getLsbD_or, BitVec.getLsbD_shiftLeft, BitVec.getLsbD_ofNat]
  by_cases low : bit < 5
  · simp [low]
  · have high : symbol.testBit bit = false :=
      Nat.testBit_lt_two_pow (lt_of_lt_of_le small
        (Nat.pow_le_pow_right (by decide) (not_lt.mp low) : 2 ^ 5 ≤ 2 ^ bit))
    simp [low, high]

theorem shiftIn_below {count symbol : Nat} (below : Crc.Below (5 * count) value)
    (small : symbol < 32) : Crc.Below (5 * (count + 1)) (shiftIn value symbol) := by
  intro bit above
  have high : ¬ bit < 5 := by omega
  rw [getLsbD_shiftIn small, if_neg high, below (bit - 5) (by omega), Bool.and_false]

variable {input : List UInt8}

theorem readSymbols_below {value after : BitVec 64} {symbols count : Nat}
    (read : readSymbols input value symbols = .ok (after, count))
    (below : Crc.Below (5 * symbols) value) (few : symbols ≤ PAIRING_CODE_SYMBOLS) :
    Crc.Below (5 * count) after ∧ count ≤ PAIRING_CODE_SYMBOLS := by
  induction input generalizing value symbols with
  | nil =>
    cases read
    exact ⟨below, few⟩
  | cons byte rest ih =>
    unfold readSymbols at read
    split at read
    · exact ih read below few
    split at read
    · cases read
    next symbol found =>
    split at read
    · cases read
    · next room =>
      exact ih read (shiftIn_below below (symbolValue_lt found)) (by omega)

variable (code : PairingCode)

namespace PairingCode

theorem fits_of_read {symbols : Nat} (read : readSymbols input 0 0 = .ok (value, symbols)) :
    (value >>> CHECK_BITS).toNat < 2 ^ DATA_BITS := by
  have none : Crc.Below (5 * 0) (0 : BitVec 64) := fun _ _ => BitVec.getLsbD_zero
  obtain ⟨below, few⟩ := readSymbols_below read none (Nat.zero_le _)
  refine Crc.below_iff_lt.mp fun bit above => ?_
  rw [BitVec.getLsbD_ushiftRight]
  refine below _ ?_
  unfold PAIRING_CODE_SYMBOLS at few
  unfold DATA_BITS at above
  unfold CHECK_BITS
  omega

/-- Case-insensitive; dashes and white space are ignored, O reads as 0 and I or L as 1. -/
def parse (input : List UInt8) : Except PairingCodeError PairingCode :=
  if input.length > MAX_PAIRING_CODE_INPUT_BYTES then .error .incomplete
  else
    match read : readSymbols input 0 0 with
    | .error error => .error error
    | .ok (value, symbols) =>
      if symbols ≠ PAIRING_CODE_SYMBOLS then .error .incomplete
      else
        let code : PairingCode := { data := value >>> CHECK_BITS, fits := fits_of_read read }
        if check code.data ≠ value &&& mask CHECK_BITS then .error .mistyped else .ok code

/-- The data bits followed by their check bits. -/
def checked : BitVec 64 := code.data <<< CHECK_BITS ||| check code.data

/-- One symbol's value of a displayed code. -/
def digit (value : BitVec 64) (index : Nat) : Nat :=
  (value >>> (SYMBOL_BITS * (PAIRING_CODE_SYMBOLS - 1 - index)) &&& mask SYMBOL_BITS).toNat

/-- `XXXX-XXXX-XXXX`, for the showing computer's screen only. -/
def display : List UInt8 :=
  (List.range PAIRING_CODE_SYMBOLS).flatMap fun index =>
    (if index > 0 ∧ index % GROUP_SYMBOLS = 0 then [ascii '-'] else []) ++
      [ALPHABET.getD (digit code.checked index) 0]

end PairingCode

/-! ## What a string spells -/

/-- O, I and L read as digits. -/
def plainSymbol (byte : UInt8) : UInt8 :=
  if byte = ascii 'O' then ascii '0'
  else if byte = ascii 'I' ∨ byte = ascii 'L' then ascii '1'
  else byte

/-- Dashes and white space removed, case folded, and O, I and L read as digits. -/
def normalise (input : List UInt8) : List UInt8 :=
  (input.filter fun byte => !skipped byte).map fun byte => plainSymbol (toAsciiUppercase byte)

def spelledFrom (value : BitVec 64) (text : List UInt8) : BitVec 64 :=
  text.foldl (fun value symbol => shiftIn value (ALPHABET.idxOf symbol)) value

/-- The number the symbols spell, five bits each. -/
def spelled (text : List UInt8) : BitVec 64 := spelledFrom 0 text

/-- The required number of symbols of the alphabet, with the right check bits. -/
structure WellSpelled (text : List UInt8) : Prop where
  length : text.length = PAIRING_CODE_SYMBOLS
  symbols : ∀ symbol ∈ text, symbol ∈ ALPHABET
  checks : check (spelled text >>> CHECK_BITS) = spelled text &&& mask CHECK_BITS

theorem symbolValue_eq_some {symbol : Nat} :
    symbolValue byte = some symbol ↔
      plainSymbol byte ∈ ALPHABET ∧ ALPHABET.idxOf (plainSymbol byte) = symbol := by
  unfold symbolValue plainSymbol
  split
  · next isO =>
    have zero : ascii '0' ∈ ALPHABET ∧ ALPHABET.idxOf (ascii '0') = 0 := by decide
    rw [zero.2, and_iff_right zero.1, Option.some.injEq]
  split
  · next isOne =>
    have one : ascii '1' ∈ ALPHABET ∧ ALPHABET.idxOf (ascii '1') = 1 := by decide
    rw [one.2, and_iff_right one.1, Option.some.injEq]
  rw [findIdx?_eq_some_iff_findIdx_eq]
  constructor
  · rintro ⟨inside, rfl⟩
    exact ⟨idxOf_lt_length_iff.mp inside, rfl⟩
  · rintro ⟨member, rfl⟩
    exact ⟨idxOf_lt_length_iff.mpr member, rfl⟩

theorem symbolValue_eq_none : symbolValue byte = none ↔ plainSymbol byte ∉ ALPHABET := by
  constructor
  · intro none_ member
    have found := symbolValue_eq_some.mpr ⟨member, rfl⟩
    cases none_.symm.trans found
  · intro missing
    cases found : symbolValue byte with
    | none => rfl
    | some symbol => exact absurd (symbolValue_eq_some.mp found).1 missing

theorem normalise_cons_skipped (skips : skipped byte = true) (rest : List UInt8) :
    normalise (byte :: rest) = normalise rest := by
  simp [normalise, skips]

theorem normalise_cons (reads : skipped byte = false) (rest : List UInt8) :
    normalise (byte :: rest) = plainSymbol (toAsciiUppercase byte) :: normalise rest := by
  simp [normalise, reads]

/-- The loop reads what the string normalises to. -/
theorem readSymbols_eq_ok {value after : BitVec 64} {symbols count : Nat}
    (few : symbols ≤ PAIRING_CODE_SYMBOLS) :
    readSymbols input value symbols = .ok (after, count) ↔
      (∀ symbol ∈ normalise input, symbol ∈ ALPHABET) ∧
        symbols + (normalise input).length ≤ PAIRING_CODE_SYMBOLS ∧
        after = spelledFrom value (normalise input) ∧
        count = symbols + (normalise input).length := by
  induction input generalizing value symbols with
  | nil =>
    have nothing : normalise [] = [] := rfl
    simp only [readSymbols, nothing, spelledFrom, Except.ok.injEq, Prod.mk.injEq, length_nil,
      foldl_nil, add_zero, few, not_mem_nil]
    constructor
    · rintro ⟨rfl, rfl⟩
      simp
    · rintro ⟨_, _, rfl, rfl⟩
      simp
  | cons byte rest ih =>
    unfold readSymbols
    cases skips : skipped byte with
    | true =>
      rw [normalise_cons_skipped skips, if_pos rfl]
      exact ih few
    | false =>
      rw [normalise_cons skips, if_neg Bool.false_ne_true, length_cons]
      cases found : symbolValue (toAsciiUppercase byte) with
      | none =>
        have missing := symbolValue_eq_none.mp found
        simp [missing]
      | some symbol =>
        obtain ⟨member, rfl⟩ := symbolValue_eq_some.mp found
        by_cases full : symbols + 1 > PAIRING_CODE_SYMBOLS
        · have past : ¬ symbols + ((normalise rest).length + 1) ≤ PAIRING_CODE_SYMBOLS := by omega
          simp [full, past]
        · rw [forall_mem_cons, and_iff_right member]
          simp only [full, if_false]
          rw [ih (by omega), add_assoc symbols 1, add_comm 1]
          rfl

namespace PairingCode

/-- A string is read exactly if it is short enough and normalises to a well spelled text. -/
theorem parse_eq_ok {code : PairingCode} :
    parse input = .ok code ↔ input.length ≤ MAX_PAIRING_CODE_INPUT_BYTES ∧
      WellSpelled (normalise input) ∧ code.data = spelled (normalise input) >>> CHECK_BITS := by
  have loop {value : BitVec 64} {symbols : Nat} :=
    @readSymbols_eq_ok input 0 value 0 symbols (Nat.zero_le _)
  unfold parse
  split
  · next long =>
    simp [not_le.mpr long]
  next short =>
  rw [and_iff_right (not_lt.mp short)]
  split
  · next error read =>
    -- The loop failed, so no text of twelve symbols was spelled.
    simp only [reduceCtorEq, false_iff, not_and]
    intro well
    have ended := loop.mpr ⟨well.symbols, by rw [well.length]; exact le_rfl, rfl, rfl⟩
    cases read.symm.trans ended
  · next value symbols read =>
    obtain ⟨inside, _, value_, counted⟩ := loop.mp read
    obtain rfl : value = spelled (normalise input) := value_
    rw [zero_add] at counted
    by_cases count : symbols = PAIRING_CODE_SYMBOLS
    · rw [if_neg (not_not.mpr count)]
      by_cases checks : check (spelled (normalise input) >>> CHECK_BITS) =
          spelled (normalise input) &&& mask CHECK_BITS
      · have well : WellSpelled (normalise input) := ⟨counted.symm.trans count, inside, checks⟩
        rw [if_neg (not_not.mpr checks), and_iff_right well, Except.ok.injEq]
        constructor
        · rintro rfl
          rfl
        · intro same
          obtain ⟨data, fits⟩ := code
          cases same
          rfl
      · dsimp only
        rw [if_pos checks]
        simp only [reduceCtorEq, false_iff, not_and]
        exact fun well => absurd well.checks checks
    · rw [if_pos count]
      simp only [reduceCtorEq, false_iff, not_and]
      exact fun well => absurd (counted.trans well.length) count

end PairingCode

/-! ## The check bits -/

theorem getLsbD_mask (bit : Nat) : (mask CHECK_BITS).getLsbD bit = decide (bit < 5) := by
  have ones : mask CHECK_BITS = BitVec.ofNat 64 (2 ^ 5 - 1) := by decide
  rw [ones, BitVec.getLsbD_ofNat, Nat.testBit_two_pow_sub_one]
  by_cases low : bit < 5
  · simp [low, show bit < 64 by omega]
  · simp [low]

theorem split_value (value : BitVec 64) :
    value >>> CHECK_BITS <<< CHECK_BITS ^^^ (value &&& mask CHECK_BITS) = value := by
  apply BitVec.eq_of_getLsbD_eq
  intro bit inside
  rw [BitVec.getLsbD_xor, BitVec.getLsbD_and, getLsbD_mask]
  simp only [BitVec.getLsbD_shiftLeft, BitVec.getLsbD_ushiftRight, CHECK_BITS, inside]
  by_cases low : bit < 5
  · simp [low]
  · have back : 5 + (bit - 5) = bit := by omega
    simp [low, back]

theorem mask_below : Crc.Below CHECK_BITS (value &&& mask CHECK_BITS) := by
  intro bit above
  have high : ¬ bit < 5 := not_lt.mpr above
  rw [BitVec.getLsbD_and, getLsbD_mask]
  simp [high]

/-- The check bits match exactly when the generator divides the whole value. -/
theorem check_eq_iff :
    check (value >>> CHECK_BITS) = value &&& mask CHECK_BITS ↔
      Crc.divide CHECK_GENERATOR CHECK_BITS DATA_BITS value = 0 := by
  have whole : Crc.divide CHECK_GENERATOR CHECK_BITS DATA_BITS value =
      check (value >>> CHECK_BITS) ^^^ (value &&& mask CHECK_BITS) := by
    rw [check, ← Crc.divide_of_below mask_below, ← Crc.divide_xor, split_value]
  rw [whole]
  exact BitVec.xor_eq_zero_iff.symm

/-- The generator divides no single symbol, in any of the twelve places. -/
theorem divide_symbol_ne_zero : ∀ place : Fin 12, ∀ symbol : Fin 32, symbol ≠ 0 →
    Crc.divide CHECK_GENERATOR CHECK_BITS DATA_BITS
      (BitVec.ofNat 64 symbol.val <<< (5 * place.val)) ≠ 0 := by
  decide +kernel

/-! ## One wrong symbol -/

theorem idxOf_lt {symbol : UInt8} (member : symbol ∈ ALPHABET) : ALPHABET.idxOf symbol < 32 :=
  idxOf_lt_length_iff.mpr member

/-- Two values that go on alike differ where they differed. -/
theorem spelledFrom_xor (first second : BitVec 64) {text : List UInt8}
    (symbols : ∀ symbol ∈ text, symbol ∈ ALPHABET) :
    spelledFrom first text ^^^ spelledFrom second text =
      (first ^^^ second) <<< (5 * text.length) := by
  induction text generalizing first second with
  | nil => simp [spelledFrom]
  | cons symbol rest ih =>
    rw [forall_mem_cons] at symbols
    have shifted : shiftIn first (ALPHABET.idxOf symbol) ^^^
        shiftIn second (ALPHABET.idxOf symbol) = (first ^^^ second) <<< 5 := by
      apply BitVec.eq_of_getLsbD_eq
      intro bit inside
      rw [BitVec.getLsbD_xor, getLsbD_shiftIn (idxOf_lt symbols.1),
        getLsbD_shiftIn (idxOf_lt symbols.1), BitVec.getLsbD_shiftLeft, BitVec.getLsbD_xor]
      by_cases low : bit < 5 <;> simp [low, inside]
    have later := ih (shiftIn first (ALPHABET.idxOf symbol))
      (shiftIn second (ALPHABET.idxOf symbol)) symbols.2
    rw [shifted, ← BitVec.shiftLeft_add] at later
    rw [length_cons, Nat.mul_succ, add_comm]
    exact later

theorem shiftIn_xor {first second : Nat} (one : first < 32) (two : second < 32) :
    shiftIn value first ^^^ shiftIn value second = BitVec.ofNat 64 (first ^^^ second) := by
  apply BitVec.eq_of_getLsbD_eq
  intro bit inside
  rw [BitVec.getLsbD_xor, getLsbD_shiftIn one, getLsbD_shiftIn two, BitVec.getLsbD_ofNat,
    Nat.testBit_xor]
  by_cases low : bit < 5
  · simp [low, inside]
  · have high {symbol : Nat} (small : symbol < 32) : symbol.testBit bit = false :=
      Nat.testBit_lt_two_pow (lt_of_lt_of_le small
        (Nat.pow_le_pow_right (by decide) (not_lt.mp low) : 2 ^ 5 ≤ 2 ^ bit))
    simp [low, high one, high two]

/-- Two well spelled texts never differ in one symbol only. -/
theorem WellSpelled.eq_of_one {front back : List UInt8} {first second : UInt8}
    (one : WellSpelled (front ++ first :: back)) (two : WellSpelled (front ++ second :: back)) :
    first = second := by
  have places : back.length < 12 := by
    have length := one.length
    simp only [length_append, length_cons, PAIRING_CODE_SYMBOLS] at length
    omega
  have backs : ∀ symbol ∈ back, symbol ∈ ALPHABET := fun symbol member =>
    one.symbols symbol (mem_append_right _ (mem_cons_of_mem _ member))
  have firstIn := one.symbols first (mem_append_right _ mem_cons_self)
  have secondIn := two.symbols second (mem_append_right _ mem_cons_self)
  have difference : spelled (front ++ first :: back) ^^^ spelled (front ++ second :: back) =
      BitVec.ofNat 64 (ALPHABET.idxOf first ^^^ ALPHABET.idxOf second) <<< (5 * back.length) := by
    have later := spelledFrom_xor (shiftIn (spelled front) (ALPHABET.idxOf first))
      (shiftIn (spelled front) (ALPHABET.idxOf second)) backs
    rw [shiftIn_xor (idxOf_lt firstIn) (idxOf_lt secondIn)] at later
    simpa only [spelled, spelledFrom, foldl_append, foldl_cons] using later
  have divides : Crc.divide CHECK_GENERATOR CHECK_BITS DATA_BITS
      (spelled (front ++ first :: back) ^^^ spelled (front ++ second :: back)) = _ :=
    Crc.divide_xor DATA_BITS _ _
  rw [check_eq_iff.mp one.checks, check_eq_iff.mp two.checks, difference] at divides
  have small : ALPHABET.idxOf first ^^^ ALPHABET.idxOf second < 32 :=
    Nat.xor_lt_two_pow (n := 5) (idxOf_lt firstIn) (idxOf_lt secondIn)
  by_contra different
  have nonzero : (⟨_, small⟩ : Fin 32) ≠ 0 := by
    intro zero
    have same : ALPHABET.idxOf first = ALPHABET.idxOf second :=
      Nat.xor_eq_zero_iff.mp (congrArg Fin.val zero)
    exact different ((idxOf_inj firstIn).mp same)
  exact divide_symbol_ne_zero ⟨back.length, places⟩ ⟨_, small⟩ nonzero (by simpa using divides)

namespace PairingCode

theorem parse_replaced {front back : List UInt8} {old new : UInt8} {code : PairingCode}
    (accepted : parse (front ++ old :: back) = .ok code) (symbol : skipped old = false)
    (different : symbolValue (toAsciiUppercase new) ≠ symbolValue (toAsciiUppercase old)) :
    ∃ error, parse (front ++ new :: back) = .error error := by
  cases read : parse (front ++ new :: back) with
  | error error => exact ⟨error, rfl⟩
  | ok other =>
    exfalso
    obtain ⟨_, one, _⟩ := parse_eq_ok.mp accepted
    obtain ⟨_, two, _⟩ := parse_eq_ok.mp read
    have apart (input rest : List UInt8) :
        normalise (input ++ rest) = normalise input ++ normalise rest := by simp [normalise]
    rw [apart, normalise_cons symbol] at one
    rw [apart] at two
    cases skips : skipped new with
    | true =>
      have long := one.length
      have short := two.length
      rw [normalise_cons_skipped skips, length_append] at short
      rw [length_append, length_cons] at long
      omega
    | false =>
      rw [normalise_cons skips] at two
      have same := one.eq_of_one two
      have member := one.symbols _ (mem_append_right _ mem_cons_self)
      refine different ?_
      rw [symbolValue_eq_some.mpr ⟨same ▸ member, rfl⟩, symbolValue_eq_some.mpr ⟨member, rfl⟩, same]

/-! ## Displayed codes -/

theorem alphabet_spells : ∀ index : Fin 32, skipped (ALPHABET.getD index 0) = false ∧
    plainSymbol (toAsciiUppercase (ALPHABET.getD index 0)) = ALPHABET.getD index 0 ∧
    ALPHABET.getD index 0 ∈ ALPHABET ∧ ALPHABET.idxOf (ALPHABET.getD index 0) = index := by
  decide +kernel

theorem digit_lt {index : Nat} : digit value index < 32 :=
  Crc.below_iff_lt.mp mask_below

theorem normalise_display :
    normalise code.display =
      (List.range PAIRING_CODE_SYMBOLS).map fun index =>
        ALPHABET.getD (digit code.checked index) 0 := by
  have piece (index : Nat) :
      normalise ((if index > 0 ∧ index % GROUP_SYMBOLS = 0 then [ascii '-'] else []) ++
        [ALPHABET.getD (digit code.checked index) 0]) =
      [ALPHABET.getD (digit code.checked index) 0] := by
    obtain ⟨reads, plain, _⟩ := alphabet_spells ⟨_, digit_lt⟩
    have dash : skipped (ascii '-') = true := by decide
    split
    · rw [singleton_append, normalise_cons_skipped dash, normalise_cons reads, plain]
      rfl
    · rw [nil_append, normalise_cons reads, plain]
      rfl
  have pieces (indices : List Nat) (part : Nat → List UInt8) :
      normalise (indices.flatMap part) = indices.flatMap fun index => normalise (part index) := by
    simp [normalise, filter_flatMap, map_flatMap]
  rw [display, pieces]
  simp only [piece]
  exact (map_eq_flatMap).symm

theorem shiftIn_low :
    shiftIn (value >>> SYMBOL_BITS) (value &&& mask SYMBOL_BITS).toNat = value := by
  have small : (value &&& mask SYMBOL_BITS).toNat < 32 := Crc.below_iff_lt.mp mask_below
  apply BitVec.eq_of_getLsbD_eq
  intro bit inside
  rw [getLsbD_shiftIn small, BitVec.getLsbD_ushiftRight, SYMBOL_BITS]
  by_cases low : bit < 5
  · have masked : (value &&& mask CHECK_BITS).getLsbD bit = value.getLsbD bit := by
      rw [BitVec.getLsbD_and, getLsbD_mask, decide_eq_true low, Bool.and_true]
    rw [if_pos low, decide_eq_true inside, Bool.true_and]
    exact masked
  · have back : 5 + (bit - 5) = bit := by omega
    rw [if_neg low, decide_eq_true inside, Bool.true_and, back]

theorem spelled_concat (text : List UInt8) (symbol : UInt8) :
    spelled (text ++ [symbol]) = shiftIn (spelled text) (ALPHABET.idxOf symbol) :=
  foldl_concat ..

/-- The first symbols of a displayed value spell its high bits. -/
theorem spelled_digits (below : Crc.Below 60 value) {count : Nat}
    (within : count ≤ PAIRING_CODE_SYMBOLS) :
    spelled ((List.range count).map fun index => ALPHABET.getD (digit value index) 0) =
      value >>> (SYMBOL_BITS * (PAIRING_CODE_SYMBOLS - count)) := by
  induction count with
  | zero =>
    apply BitVec.eq_of_getLsbD_eq
    intro bit _
    rw [BitVec.getLsbD_ushiftRight]
    have high : value.getLsbD (SYMBOL_BITS * (PAIRING_CODE_SYMBOLS - 0) + bit) = false :=
      below _ (Nat.le_add_right 60 bit)
    rw [high]
    exact BitVec.getLsbD_zero
  | succ count ih =>
    have spells : ALPHABET.idxOf (ALPHABET.getD (digit value count) 0) = digit value count :=
      (alphabet_spells ⟨_, digit_lt⟩).2.2.2
    have earlier := ih (by omega)
    have shift : SYMBOL_BITS * (PAIRING_CODE_SYMBOLS - count) =
        SYMBOL_BITS * (PAIRING_CODE_SYMBOLS - 1 - count) + SYMBOL_BITS := by
      unfold SYMBOL_BITS PAIRING_CODE_SYMBOLS at *
      omega
    rw [range_succ, map_append, map_singleton, spelled_concat, earlier, spells,
      shift, BitVec.shiftRight_add]
    refine shiftIn_low.trans ?_
    congr 2
    omega

theorem check_below {data : BitVec 64} (fits : data.toNat < 2 ^ DATA_BITS) :
    Crc.Below CHECK_BITS (check data) := by
  refine Crc.divide_below (by decide) ?_ (by decide) ?_
  · intro bit above
    exact Crc.below_iff_lt.mpr (by decide) bit above
  intro bit above
  rw [BitVec.getLsbD_shiftLeft]
  have high : data.getLsbD (bit - CHECK_BITS) = false := by
    refine Crc.below_iff_lt.mpr fits _ ?_
    omega
  rw [high, Bool.and_false]

theorem checked_facts : Crc.Below 60 code.checked ∧
    code.checked >>> CHECK_BITS = code.data ∧
    code.checked &&& mask CHECK_BITS = check code.data := by
  have low := check_below code.fits
  have high : Crc.Below DATA_BITS code.data := Crc.below_iff_lt.mpr code.fits
  have bits (bit : Nat) : code.checked.getLsbD bit =
      (decide (bit < 64) && !decide (bit < 5) && code.data.getLsbD (bit - 5) ||
        (check code.data).getLsbD bit) := by
    rw [checked, BitVec.getLsbD_or, BitVec.getLsbD_shiftLeft]
    rfl
  refine ⟨fun bit above => ?_, ?_, ?_⟩
  · rw [bits, high (bit - 5) (by unfold DATA_BITS; omega), low bit (by unfold CHECK_BITS; omega)]
    simp
  · apply BitVec.eq_of_getLsbD_eq
    intro bit inside
    rw [BitVec.getLsbD_ushiftRight, bits, low _ (Nat.le_add_right _ _)]
    by_cases past : 55 ≤ bit
    · rw [high bit past, high (CHECK_BITS + bit - 5) (by unfold CHECK_BITS DATA_BITS; omega)]
      simp
    · have back : CHECK_BITS + bit - 5 = bit := by unfold CHECK_BITS; omega
      simp [CHECK_BITS, show 5 + bit < 64 by omega, show ¬ 5 + bit < 5 by omega]
  · apply BitVec.eq_of_getLsbD_eq
    intro bit inside
    rw [BitVec.getLsbD_and, getLsbD_mask, bits]
    by_cases under : bit < 5
    · simp [under]
    · rw [low bit (not_lt.mp under)]
      simp [under]

theorem length_display : code.display.length = 14 := by
  have piece (index : Nat) :
      ((if index > 0 ∧ index % GROUP_SYMBOLS = 0 then [ascii '-'] else []) ++
        [ALPHABET.getD (digit code.checked index) 0]).length =
      if index > 0 ∧ index % GROUP_SYMBOLS = 0 then 2 else 1 := by
    split <;> rfl
  rw [display, length_flatMap]
  simp only [piece]
  decide

theorem parse_display : parse code.display = .ok code := by
  obtain ⟨below, data, low⟩ := checked_facts code
  have spelling : spelled (normalise code.display) = code.checked := by
    rw [normalise_display, spelled_digits below (Nat.le_refl _), Nat.sub_self, Nat.mul_zero,
      BitVec.ushiftRight_zero]
  refine parse_eq_ok.mpr ⟨length_display code ▸ (by decide), ⟨?_, ?_, ?_⟩, ?_⟩
  · rw [normalise_display, length_map, length_range]
  · intro symbol member
    rw [normalise_display] at member
    obtain ⟨index, _, rfl⟩ := mem_map.mp member
    exact (alphabet_spells ⟨_, digit_lt⟩).2.2.1
  · rw [spelling, data, low]
  · rw [spelling, data]

end PairingCode

open PairingCode

/-- Pairing codes detect typing errors.  A displayed code reads back; a displayed code with one
symbol replaced by a byte that is no other spelling of it is refused; a string is read exactly if
it has no more than 64 bytes and, with dashes and white space removed, case folded and O, I and L
read as digits, is a well spelled text; so strings that normalise alike and are read give the same
code. -/
theorem pairing_code_detects :
    (∀ code : PairingCode, PairingCode.parse code.display = .ok code) ∧
    (∀ (code : PairingCode) front old back new, code.display = front ++ old :: back →
      old ∈ ALPHABET →
      symbolValue (toAsciiUppercase new) ≠ symbolValue (toAsciiUppercase old) →
      ∃ error, PairingCode.parse (front ++ new :: back) = .error error) ∧
    (∀ input code, PairingCode.parse input = .ok code ↔
      input.length ≤ MAX_PAIRING_CODE_INPUT_BYTES ∧ WellSpelled (normalise input) ∧
        code.data = spelled (normalise input) >>> CHECK_BITS) ∧
    ∀ first second one two, normalise first = normalise second →
      PairingCode.parse first = .ok one → PairingCode.parse second = .ok two → one = two := by
  refine ⟨parse_display, ?_, fun _ _ => parse_eq_ok, ?_⟩
  · intro code front old back new split symbol different
    have accepted := parse_display code
    rw [split] at accepted
    have reads : skipped old = false := by
      have all : ∀ byte ∈ ALPHABET, skipped byte = false := by decide +kernel
      exact all old symbol
    exact parse_replaced accepted reads different
  · intro first second one two same read also
    obtain ⟨_, _, data⟩ := parse_eq_ok.mp read
    obtain ⟨_, _, other⟩ := parse_eq_ok.mp also
    rw [same] at data
    obtain ⟨_, _⟩ := one
    obtain ⟨_, _⟩ := two
    cases data.trans other.symm
    rfl

/-- The displayed code zero behind 53 dashes normalises to twelve symbols with the right check bits,
and is refused for its length. -/
theorem long_spelling_refused :
    WellSpelled (normalise (List.replicate 53 (ascii '-') ++ List.replicate 12 (ascii '0'))) ∧
      PairingCode.parse (List.replicate 53 (ascii '-') ++ List.replicate 12 (ascii '0')) =
        .error .incomplete := by
  refine ⟨⟨by decide +kernel, by decide +kernel, by decide +kernel⟩, ?_⟩
  rw [PairingCode.parse, if_pos (by decide)]

end Monhop.Transport
