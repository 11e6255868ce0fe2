import Monhop.Library.Program

/-! # Byte strings and their parsers

Big-endian numbers, enumerations by code, and parsers that consume a byte string from the
front.  A parser is a `Program` on the bytes left; `Yields` says what it reads and leaves.
Each reader comes with an equivalence between what it accepts and the bytes it consumed,
so one statement about a parser gives both that it accepts what was written and that it
accepts nothing else.

* `toBytes`, `ofBytes` — a number in a fixed number of bytes, and back.
* `Table` — values with consecutive codes.
* `Program.yields_bind` — how reading composes.
* `take_yields`, `natural_yields`, `zeros_yields`, `repeated_yields` — the readers.
-/

namespace Monhop.Library

open List

/-! ## Numbers -/

/-- The low `width` bytes of a number, the highest first. -/
def toBytes : Nat → Nat → List UInt8
  | 0, _ => []
  | width + 1, value => toBytes width (value / 256) ++ [UInt8.ofNat value]

/-- The number a byte string spells, the highest byte first. -/
def ofBytes (bytes : List UInt8) : Nat := bytes.foldl (fun total byte => total * 256 + byte.toNat) 0

@[simp] theorem length_toBytes (width value : Nat) : (toBytes width value).length = width := by
  induction width generalizing value with
  | zero => rfl
  | succ width ih => simp [toBytes, ih]

@[simp] theorem ofBytes_concat (bytes : List UInt8) (byte : UInt8) :
    ofBytes (bytes ++ [byte]) = ofBytes bytes * 256 + byte.toNat := by
  simp [ofBytes]

theorem ofBytes_toBytes {width value : Nat} (fits : value < 256 ^ width) :
    ofBytes (toBytes width value) = value := by
  induction width generalizing value with
  | zero =>
    have : value = 0 := by simpa using fits
    simp [this, toBytes, ofBytes]
  | succ width ih =>
    have high : value / 256 < 256 ^ width := by
      rw [Nat.div_lt_iff_lt_mul (by decide)]
      rwa [Nat.pow_succ] at fits
    rw [toBytes, ofBytes_concat, ih high, UInt8.toNat_ofNat']
    omega

theorem toBytes_inj {width first second : Nat} (firstFits : first < 256 ^ width)
    (secondFits : second < 256 ^ width) :
    toBytes width first = toBytes width second ↔ first = second := by
  constructor
  · intro same
    rw [← ofBytes_toBytes firstFits, same, ofBytes_toBytes secondFits]
  · rintro rfl
    rfl

theorem ofBytes_lt {bytes : List UInt8} : ofBytes bytes < 256 ^ bytes.length := by
  induction bytes using List.reverseRecOn with
  | nil => simp [ofBytes]
  | append_singleton bytes byte ih =>
    have low : byte.toNat < 256 := byte.toNat_lt
    rw [ofBytes_concat, length_append, length_singleton, Nat.pow_succ]
    omega

theorem toBytes_ofBytes (bytes : List UInt8) : toBytes bytes.length (ofBytes bytes) = bytes := by
  induction bytes using List.reverseRecOn with
  | nil => rfl
  | append_singleton bytes byte ih =>
    have low : byte.toNat < 256 := byte.toNat_lt
    have high : (ofBytes bytes * 256 + byte.toNat) / 256 = ofBytes bytes := by omega
    rw [ofBytes_concat, length_append, length_singleton, toBytes, high, ih]
    congr 2
    rw [← UInt8.toNat_inj, UInt8.toNat_ofNat']
    omega

/-! ## Enumerations -/

/-- Values with consecutive codes. -/
structure Table (Value : Type) where
  first : Nat
  values : List Value
  complete : ∀ value, value ∈ values
  distinct : values.Nodup

namespace Table

variable {Value : Type} [DecidableEq Value]

def code (table : Table Value) (value : Value) : Nat := table.first + table.values.idxOf value

def value? (table : Table Value) (code : Nat) : Option Value :=
  if code < table.first then none else (table.values.drop (code - table.first)).head?

theorem value?_eq_some {table : Table Value} {code : Nat} {value : Value} :
    table.value? code = some value ↔ code = table.code value := by
  have position : table.values[table.values.idxOf value]? = some value :=
    getElem?_idxOf (table.complete value)
  simp only [value?, Table.code, head?_drop]
  constructor
  · intro found
    split at found
    · cases found
    next above =>
    have bound : code - table.first < table.values.length :=
      (List.getElem?_eq_some_iff.mp found).1
    have same := (getElem?_inj bound table.distinct).mp (found.trans position.symm)
    omega
  · rintro rfl
    rw [if_neg (by omega), Nat.add_sub_cancel_left]
    exact position

theorem value?_code (table : Table Value) (value : Value) :
    table.value? (table.code value) = some value :=
  value?_eq_some.mpr rfl

end Table

/-! ## Reading -/

namespace Program

variable {State Error Value Result : Type}

/-- Run from `state`, the program returns `value` and leaves `after`. -/
def Yields (program : Program State Error Value) (state : State) (value : Value) (after : State) :
    Prop :=
  program.exec state = (.ok value, after)

variable {state after : State} {value : Value}

@[simp] theorem yields_pure {other : Value} :
    Yields (pure other : Program State Error Value) state value after ↔
      other = value ∧ state = after := by
  show ((Except.ok other : Except Error Value), state) = (.ok value, after) ↔ _
  simp

@[simp] theorem yields_throw {error : Error} :
    ¬Yields (throw error : Program State Error Value) state value after := by
  show ¬((Except.error error : Except Error Value), state) = (.ok value, after)
  simp

theorem yields_bind {first : Program State Error Result}
    {rest : Result → Program State Error Value} :
    Yields (first >>= rest) state value after ↔
      ∃ middle between, first.Yields state middle between ∧
        (rest middle).Yields between value after := by
  have run : (first >>= rest).exec state =
      match first.exec state with
      | (.ok middle, between) => (rest middle).exec between
      | (.error error, between) => (.error error, between) := by
    simp only [exec, ExceptT.run_bind, StateT.run_bind]
    rcases first.run.run state with ⟨_ | _, _⟩ <;> rfl
  unfold Yields
  rw [run]
  rcases leading : first.exec state with ⟨error | middle, between⟩
  · simp
  simp only [Prod.mk.injEq, Except.ok.injEq]
  constructor
  · intro yields
    exact ⟨middle, between, ⟨rfl, rfl⟩, yields⟩
  · rintro ⟨_, _, ⟨rfl, rfl⟩, yields⟩
    exact yields

/-- Goes on only where the condition holds. -/
def require (condition : Bool) (error : Error) : Program State Error Unit :=
  if condition then pure () else throw error

@[simp] theorem yields_require {condition : Bool} {error : Error} {done : Unit} :
    Yields (require condition error : Program State Error Unit) state done after ↔
      condition = true ∧ state = after := by
  cases condition <;> simp [require]

/-- The value of a check that may fail. -/
def check (result : Except Error Value) : Program State Error Value :=
  match result with
  | .ok value => pure value
  | .error error => throw error

@[simp] theorem yields_check {result : Except Error Value} :
    Yields (check result : Program State Error Value) state value after ↔
      result = .ok value ∧ state = after := by
  cases result <;> simp [check]

end Program

/-- A program on the bytes that are left. -/
abbrev Parser (Error Value : Type) := Program (List UInt8) Error Value

namespace Parser

open Program (require)
variable {Error Value : Type} {input rest : List UInt8}

def take (truncated : Error) (count : Nat) : Parser Error (List UInt8) := do
  let bytes ← get
  if bytes.length < count then throw truncated
  else do
    set (bytes.drop count)
    pure (bytes.take count)

theorem take_yields {truncated : Error} {count : Nat} {bytes : List UInt8} :
    (take truncated count).Yields input bytes rest ↔
      bytes.length = count ∧ input = bytes ++ rest := by
  have run : (take truncated count).exec input =
      if input.length < count then (.error truncated, input)
      else (.ok (input.take count), input.drop count) := by
    unfold take
    show Program.exec (if input.length < count then _ else _) input = _
    split <;> rfl
  unfold Program.Yields
  rw [run]
  split
  · next short =>
    simp only [Prod.mk.injEq, reduceCtorEq, false_and, false_iff, not_and]
    rintro rfl rfl
    rw [length_append] at short
    omega
  · next long =>
    simp only [Prod.mk.injEq, Except.ok.injEq]
    constructor
    · rintro ⟨rfl, rfl⟩
      exact ⟨by simp; omega, (take_append_drop ..).symm⟩
    · rintro ⟨rfl, rfl⟩
      simp

def natural (truncated : Error) (width : Nat) : Parser Error Nat := do
  let bytes ← take truncated width
  pure (ofBytes bytes)

theorem natural_yields {truncated : Error} {width value : Nat} :
    (natural truncated width).Yields input value rest ↔
      value < 256 ^ width ∧ input = toBytes width value ++ rest := by
  simp only [natural, Program.yields_bind, take_yields, Program.yields_pure]
  constructor
  · rintro ⟨bytes, _, ⟨rfl, rfl⟩, rfl, rfl⟩
    exact ⟨ofBytes_lt, by rw [toBytes_ofBytes]⟩
  · rintro ⟨fits, rfl⟩
    exact ⟨toBytes width value, rest, ⟨length_toBytes .., rfl⟩, ofBytes_toBytes fits, rfl⟩

/-- Bytes that must all be zero. -/
def zeros (truncated reserved : Error) (count : Nat) : Parser Error Unit := do
  let bytes ← take truncated count
  require (!bytes.any (· != 0)) reserved

theorem zeros_yields {truncated reserved : Error} {count : Nat} {done : Unit} :
    (zeros truncated reserved count).Yields input done rest ↔
      input = List.replicate count 0 ++ rest := by
  simp only [zeros, Program.yields_bind, take_yields, Program.yields_require]
  constructor
  · rintro ⟨bytes, _, ⟨rfl, rfl⟩, clear, rfl⟩
    have same : bytes = List.replicate bytes.length 0 := by
      rw [eq_replicate_iff]
      simpa using clear
    rw [← same]
  · rintro rfl
    exact ⟨List.replicate count 0, rest, ⟨by simp, rfl⟩, by simp, rfl⟩

def repeated (item : Parser Error Value) : Nat → Parser Error (List Value)
  | 0 => pure []
  | count + 1 => do
    let first ← item
    let others ← repeated item count
    pure (first :: others)

/-- What a list of items was read from, given how each item may have been spelled. -/
theorem repeated_yields {item : Parser Error Value} {spelled : Value → List UInt8 → Prop}
    (reads : ∀ {input value rest}, item.Yields input value rest ↔
      ∃ bytes, spelled value bytes ∧ input = bytes ++ rest) {count : Nat} {values : List Value} :
    (repeated item count).Yields input values rest ↔
      values.length = count ∧ ∃ parts, List.Forall₂ spelled values parts ∧
        input = parts.flatten ++ rest := by
  induction count generalizing input rest values with
  | zero =>
    simp only [repeated, Program.yields_pure, length_eq_zero_iff]
    constructor
    · rintro ⟨rfl, rfl⟩
      exact ⟨rfl, [], .nil, rfl⟩
    · rintro ⟨rfl, parts, matched, rfl⟩
      cases matched
      exact ⟨rfl, rfl⟩
  | succ count ih =>
    simp only [repeated, Program.yields_bind, Program.yields_pure, reads, ih]
    constructor
    · rintro ⟨first, _, ⟨bytes, own, rfl⟩, others, _, ⟨size, parts, matched, rfl⟩, rfl, rfl⟩
      exact ⟨by simp [size], bytes :: parts, .cons own matched, by simp⟩
    rintro ⟨size, parts, matched, rfl⟩
    cases matched with
    | nil => simp at size
    | cons own matched =>
      refine ⟨_, _, ⟨_, own, ?_⟩, _, _, ⟨by simpa using size, _, matched, rfl⟩, rfl, rfl⟩
      simp

end Parser

/-! ## Streams -/

/-- Of two words at the head of a stream one begins the other. -/
theorem uniquelyDecodable_of_antichain {Byte : Type} {words : Set (List Byte)}
    (apart : IsAntichain (· <+: ·) words) (nonempty : [] ∉ words) :
    InformationTheory.UniquelyDecodable words := by
  intro first
  induction first with
  | nil =>
    rintro (_ | ⟨word, second⟩) - accepted same
    · rfl
    · cases (append_eq_nil_iff.mp same.symm).1
      exact absurd (accepted [] mem_cons_self) nonempty
  | cons word first ih =>
    intro second firsts seconds same
    obtain ⟨member, accepted⟩ := forall_mem_cons.mp firsts
    cases second with
    | nil =>
      cases (append_eq_nil_iff.mp same).1
      exact absurd member nonempty
    | cons other second =>
      obtain ⟨otherMember, others⟩ := forall_mem_cons.mp seconds
      have ahead : word <+: (other :: second).flatten := same ▸ prefix_append word first.flatten
      have equal : word = other := by
        rcases prefix_or_prefix_of_prefix ahead ( prefix_append _ _) with begins | begins
        · exact apart.eq member otherMember begins
        · exact (apart.eq otherMember member begins).symm
      subst equal
      rw [ih second accepted others (append_cancel_left same)]

end Monhop.Library
