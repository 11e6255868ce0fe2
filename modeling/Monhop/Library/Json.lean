import Mathlib

/-! # JSON text

Values and the compact text a serialiser writes for them: no blanks, fields in the order
given, strings escaped only where they must be.  A number carries its own text, so the
module does not depend on how numbers are printed.

* `Json.write` — the text of a value.
* `Json.write_injective` — the text determines the value.
* `Json.size_string_le`, `Json.size_array_le`, `Json.size_object_le` — how long the text is.
-/

namespace Monhop.Library

open List

def textSize (text : List Char) : Nat := (text.map Char.utf8Size).sum

@[simp] theorem textSize_nil : textSize [] = 0 := rfl

@[simp] theorem textSize_cons (char : Char) (text : List Char) :
    textSize (char :: text) = char.utf8Size + textSize text := by
  simp [textSize]

@[simp] theorem textSize_append (front back : List Char) :
    textSize (front ++ back) = textSize front + textSize back := by
  simp [textSize]

theorem utf8Size_ascii {char : Char} (ascii : char.toNat < 128) : char.utf8Size = 1 := by
  rw [Char.utf8Size_eq_one_iff, UInt32.le_iff_toNat_le]
  exact Nat.le_of_lt_succ ascii

theorem textSize_ascii {text : List Char} (ascii : ∀ char ∈ text, char.toNat < 128) :
    textSize text = text.length := by
  induction text with
  | nil => rfl
  | cons char text ih =>
    rw [textSize_cons, utf8Size_ascii (ascii char mem_cons_self),
      ih fun other member => ascii other (mem_cons_of_mem _ member),
      length_cons, add_comm]

/-- The characters a number may be written with. -/
def isNumberChar (char : Char) : Bool :=
  char.isDigit || char == '-' || char == '+' || char == '.' || char == 'e' || char == 'E'

/-- The text of a number: it starts with a digit or a sign and keeps to its characters. -/
structure Number where
  text : List Char
  lead : ∃ first rest, text = first :: rest ∧ (first.isDigit = true ∨ first = '-')
  plain : ∀ char ∈ text, isNumberChar char = true

/-- A JSON value; an object keeps its fields in order. -/
inductive Json where
  | null
  | bool (value : Bool)
  | number (value : Number)
  | string (text : List Char)
  | array (items : List Json)
  | object (fields : List (List Char × Json))

variable {rest : List Char} {items : List Json} {fields : List (List Char × Json)}

namespace Json

/-! ## Writing -/

def hexDigit (value : Nat) : Char :=
  if value < 10 then Char.ofNat (48 + value) else Char.ofNat (87 + value)

def escape (char : Char) : List Char :=
  if char = '"' then ['\\', '"']
  else if char = '\\' then ['\\', '\\']
  else if char.toNat = 8 then ['\\', 'b']
  else if char.toNat = 9 then ['\\', 't']
  else if char.toNat = 10 then ['\\', 'n']
  else if char.toNat = 12 then ['\\', 'f']
  else if char.toNat = 13 then ['\\', 'r']
  else if char.toNat < 32 then
    ['\\', 'u', '0', '0', hexDigit (char.toNat / 16), hexDigit (char.toNat % 16)]
  else [char]

/-- A string after its opening quote, the closing one included. -/
def writeText : List Char → List Char
  | [] => ['"']
  | char :: rest => escape char ++ writeText rest

mutual

def write : Json → List Char
  | .null => ['n', 'u', 'l', 'l']
  | .bool true => ['t', 'r', 'u', 'e']
  | .bool false => ['f', 'a', 'l', 's', 'e']
  | .number value => value.text
  | .string text => '"' :: writeText text
  | .array [] => ['[', ']']
  | .array (item :: items) => '[' :: (item.write ++ writeItems items)
  | .object [] => ['\x7b', '\x7d']
  | .object ((key, value) :: fields) =>
    '\x7b' :: '"' :: (writeText key ++ ':' :: (value.write ++ writeFields fields))

/-- The items after the first, up to the closing bracket. -/
def writeItems : List Json → List Char
  | [] => [']']
  | item :: items => ',' :: (item.write ++ writeItems items)

/-- The fields after the first, up to the closing brace. -/
def writeFields : List (List Char × Json) → List Char
  | [] => ['\x7d']
  | (key, value) :: fields =>
    ',' :: '"' :: (writeText key ++ ':' :: (value.write ++ writeFields fields))

end

/-! ## Strings read back -/

def hexValue (char : Char) : Nat :=
  if char.toNat < 58 then char.toNat - 48 else char.toNat - 87

theorem hexValue_hexDigit {value : Nat} (bound : value < 16) :
    hexValue (hexDigit value) = value := by
  have all : ∀ digit : Fin 16, hexValue (hexDigit digit.val) = digit.val := by decide
  exact all ⟨value, bound⟩

/-- The character a letter after a backslash stands for. -/
def escaped (letter : Char) : Char :=
  if letter = 'b' then Char.ofNat 8
  else if letter = 't' then Char.ofNat 9
  else if letter = 'n' then Char.ofNat 10
  else if letter = 'f' then Char.ofNat 12
  else if letter = 'r' then Char.ofNat 13
  else letter

/-- The next character of a string; none at its end. -/
def readChar : List Char → Option (Char × List Char)
  | [] => none
  | first :: rest =>
    if first = '"' then none
    else if first = '\\' then
      match rest with
      | 'u' :: _ :: _ :: high :: low :: rest =>
        some (Char.ofNat (hexValue high * 16 + hexValue low), rest)
      | letter :: rest => some (escaped letter, rest)
      | [] => none
    else some (first, rest)

@[simp] theorem readChar_quote : readChar ('"' :: rest) = none := rfl

@[simp] theorem readChar_escape (char : Char) (rest : List Char) :
    readChar (escape char ++ rest) = some (char, rest) := by
  have code (number : Nat) (is : char.toNat = number) : char = Char.ofNat number := by
    rw [← is, Char.ofNat_toNat]
  unfold escape
  split
  · next quote => rw [quote]; rfl
  split
  · next backslash => rw [backslash]; rfl
  split
  · next is => rw [code 8 is]; rfl
  split
  · next is => rw [code 9 is]; rfl
  split
  · next is => rw [code 10 is]; rfl
  split
  · next is => rw [code 12 is]; rfl
  split
  · next is => rw [code 13 is]; rfl
  split
  · next control =>
    have high := hexValue_hexDigit (show char.toNat / 16 < 16 by omega)
    have low := hexValue_hexDigit (show char.toNat % 16 < 16 by omega)
    have number : char.toNat / 16 * 16 + char.toNat % 16 = char.toNat := by omega
    show some (Char.ofNat (hexValue _ * 16 + hexValue _), rest) = some (char, rest)
    rw [high, low, number, Char.ofNat_toNat]
  · next quote backslash _ _ _ _ _ _ => simp [readChar, quote, backslash]

theorem writeText_cancel {first second front back : List Char}
    (same : writeText first ++ front = writeText second ++ back) :
    first = second ∧ front = back := by
  induction first generalizing second with
  | nil =>
    cases second with
    | nil => exact ⟨rfl, by simpa [writeText] using same⟩
    | cons char second =>
      have read := congrArg readChar same
      simp [writeText] at read
  | cons char first ih =>
    cases second with
    | nil =>
      have read := congrArg readChar same
      simp [writeText] at read
    | cons other second =>
      have read := congrArg readChar same
      simp only [writeText, append_assoc, readChar_escape, Option.some.injEq, Prod.mk.injEq] at read
      obtain ⟨rest, tail⟩ := ih read.2
      exact ⟨by rw [read.1, rest], tail⟩

/-! ## The text determines the value -/

/-- No number runs on into this text. -/
def Delimited (text : List Char) : Prop := ∀ char ∈ text.head?, isNumberChar char = false

theorem delimited_cons {char : Char} (other : isNumberChar char = false) :
    Delimited (char :: rest) := by
  intro first found
  cases found
  exact other

variable {front back : List Char}

theorem number_cancel {first second : Number} (frontEnds : Delimited front)
    (backEnds : Delimited back) (same : first.text ++ front = second.text ++ back) :
    first = second ∧ front = back := by
  have ends {text : List Char} (delimited : Delimited text) : text.takeWhile isNumberChar = [] := by
    cases text with
    | nil => rfl
    | cons char rest => rw [takeWhile_cons_of_neg (by simp [delimited char rfl])]
  have texts : first.text = second.text := by
    have taken := congrArg (List.takeWhile isNumberChar) same
    rwa [takeWhile_append_of_pos first.plain, takeWhile_append_of_pos second.plain,
      ends frontEnds, ends backEnds, append_nil, append_nil] at taken
  rw [texts] at same
  exact ⟨by cases first; cases second; simp_all, append_cancel_left same⟩

/-- What kind of value starts with a character. -/
def leadKind (char : Char) : Nat :=
  if char = 'n' then 0
  else if char = 't' ∨ char = 'f' then 1
  else if char = '"' then 3
  else if char = '[' then 4
  else if char = '\x7b' then 5
  else if char.isDigit ∨ char = '-' then 2
  else 6

def kind : Json → Nat
  | .null => 0
  | .bool _ => 1
  | .number _ => 2
  | .string _ => 3
  | .array _ => 4
  | .object _ => 5

theorem leadKind_write (value : Json) (rest : List Char) :
    (value.write ++ rest).head?.map leadKind = some value.kind := by
  cases value with
  | null => simp [write, leadKind, kind]
  | bool flag => cases flag <;> simp [write, leadKind, kind]
  | number number =>
    obtain ⟨first, tail, text, lead⟩ := number.lead
    simp only [write, text, List.cons_append, List.head?_cons, Option.map_some, kind]
    have plain : first ≠ 'n' ∧ first ≠ 't' ∧ first ≠ 'f' ∧ first ≠ '"' ∧ first ≠ '[' ∧
        first ≠ '\x7b' := by
      refine ⟨?_, ?_, ?_, ?_, ?_, ?_⟩ <;> rintro rfl <;> revert lead <;> decide
    simp [leadKind, plain, lead]
  | string text => simp [write, leadKind, kind]
  | array items => cases items <;> simp [write, leadKind, kind]
  | object fields => cases fields <;> simp [write, leadKind, kind]

theorem delimited_writeItems : Delimited (writeItems items ++ rest) := by
  cases items <;> exact delimited_cons (by decide)

theorem delimited_writeFields : Delimited (writeFields fields ++ rest) := by
  cases fields <;> exact delimited_cons (by decide)

/-- A closing bracket is the lead of no value. -/
theorem write_ne_bracket {value : Json} : value.write ++ front ≠ ']' :: back := by
  intro same
  have lead := leadKind_write value front
  rw [same] at lead
  have impossible : value.kind = 6 := by simpa [leadKind] using lead.symm
  cases value <;> simp [kind] at impossible

theorem kind_eq {first second : Json}
    (same : first.write ++ front = second.write ++ back) : first.kind = second.kind := by
  have lead := congrArg (fun text => text.head?.map leadKind) same
  simpa only [leadKind_write, Option.some.injEq] using lead

mutual

/-- Two texts that start with a value each start with the same value. -/
theorem write_cancel : ∀ {first second : Json} {front back : List Char}, Delimited front →
    Delimited back → first.write ++ front = second.write ++ back → first = second ∧ front = back
  | first, second, front, back, frontEnds, backEnds, same => by
    have kinds := kind_eq same
    cases first <;> cases second <;> simp [kind] at kinds
    case null.null => exact ⟨rfl, by simpa [write] using same⟩
    case bool.bool flag other => cases flag <;> cases other <;> simp_all [write]
    case number.number =>
      obtain ⟨numbers, rest⟩ := number_cancel frontEnds backEnds (by simpa [write] using same)
      exact ⟨by rw [numbers], rest⟩
    case string.string =>
      obtain ⟨texts, rest⟩ := writeText_cancel (by simpa [write] using same)
      exact ⟨by rw [texts], rest⟩
    case array.array items others =>
      cases items <;> cases others <;> simp only [write, cons_append, nil_append,
        append_assoc, List.cons.injEq, true_and] at same
      case nil.nil => exact ⟨rfl, same⟩
      case nil.cons => exact absurd same.symm write_ne_bracket
      case cons.nil => exact absurd same write_ne_bracket
      case cons.cons item items other others =>
        obtain ⟨all, ends⟩ := @writeItems_cancel (item :: items) (other :: others) front back
          (by simpa [writeItems] using same)
        exact ⟨by rw [all], ends⟩
    case object.object fields others =>
      rcases fields with _ | ⟨⟨key, value⟩, fields⟩ <;>
        rcases others with _ | ⟨⟨otherKey, other⟩, others⟩
      · exact ⟨rfl, by simpa [write] using same⟩
      · simp [write] at same
      · simp [write] at same
      · obtain ⟨all, ends⟩ := @writeFields_cancel ((key, value) :: fields) ((otherKey, other) :: others)
          front back (by simpa [write, writeFields] using same)
        exact ⟨by rw [all], ends⟩

theorem writeItems_cancel : ∀ {first second : List Json} {front back : List Char},
    writeItems first ++ front = writeItems second ++ back → first = second ∧ front = back
  | [], [], front, back, same => ⟨rfl, by simpa [writeItems] using same⟩
  | [], _ :: _, front, back, same => by simp [writeItems] at same
  | _ :: _, [], front, back, same => by simp [writeItems] at same
  | item :: items, other :: others, front, back, same => by
    simp only [writeItems, cons_append, append_assoc, List.cons.injEq, true_and] at same
    obtain ⟨heads, tails⟩ := write_cancel delimited_writeItems delimited_writeItems same
    obtain ⟨rest, ends⟩ := writeItems_cancel tails
    exact ⟨by rw [heads, rest], ends⟩

theorem writeFields_cancel : ∀ {first second : List (List Char × Json)} {front back : List Char},
    writeFields first ++ front = writeFields second ++ back → first = second ∧ front = back
  | [], [], front, back, same => ⟨rfl, by simpa [writeFields] using same⟩
  | [], _ :: _, front, back, same => by simp [writeFields] at same
  | _ :: _, [], front, back, same => by simp [writeFields] at same
  | (key, value) :: fields, (otherKey, other) :: others, front, back, same => by
    simp only [writeFields, cons_append, append_assoc, List.cons.injEq, true_and] at same
    obtain ⟨keys, rest⟩ := writeText_cancel same
    rw [List.cons.injEq] at rest
    obtain ⟨heads, tails⟩ := write_cancel delimited_writeFields delimited_writeFields rest.2
    obtain ⟨rest, ends⟩ := writeFields_cancel tails
    exact ⟨by rw [keys, heads, rest], ends⟩

end

theorem write_injective : Function.Injective write := by
  intro first second same
  have ends : Delimited [] := nofun
  exact (write_cancel ends ends (by rw [same])).1

/-! ## How long a text is -/

def size (value : Json) : Nat := textSize value.write

theorem textSize_escape_le (char : Char) : textSize (escape char) ≤ 6 * char.utf8Size := by
  have positive : 0 < char.utf8Size := Char.utf8Size_pos char
  have digits : ∀ digit : Fin 16, (hexDigit digit.val).utf8Size = 1 := by decide
  have pair {letter : Char} (ascii : letter.toNat < 128) :
      textSize ['\\', letter] ≤ 6 * char.utf8Size := by
    simp (disch := first | decide | exact ascii) only [textSize_cons, textSize_nil, utf8Size_ascii]
    omega
  unfold escape
  iterate 7 (split; · exact pair (by decide))
  split
  · next control =>
    have high := digits ⟨char.toNat / 16, by omega⟩
    have low := digits ⟨char.toNat % 16, by omega⟩
    simp only at high low
    simp (disch := decide) only [textSize_cons, textSize_nil, high, low, utf8Size_ascii]
    omega
  · simp only [textSize_cons, textSize_nil]
    omega

theorem size_string_le (text : List Char) : (string text).size ≤ 6 * textSize text + 2 := by
  have quote : '"'.utf8Size = 1 := by decide
  have tail : textSize (writeText text) ≤ 6 * textSize text + 1 := by
    induction text with
    | nil => simp [writeText, quote]
    | cons char text ih =>
      have head := textSize_escape_le char
      simp only [writeText, textSize_append, textSize_cons]
      omega
  simp only [size, write, textSize_cons]
  omega

/-- A string without characters to escape takes its own length and two quotes. -/
theorem size_string_plain {text : List Char} (plain : ∀ char ∈ text, escape char = [char]) :
    (string text).size = textSize text + 2 := by
  have quote : '"'.utf8Size = 1 := by decide
  have tail : textSize (writeText text) = textSize text + 1 := by
    induction text with
    | nil => simp [writeText, quote]
    | cons char text ih =>
      rw [writeText, plain char mem_cons_self, textSize_append,
        ih fun other member => plain other (mem_cons_of_mem _ member)]
      simp only [textSize_cons, textSize_nil]
      omega
  simp only [size, write, textSize_cons]
  omega

theorem textSize_writeItems (items : List Json) :
    textSize (writeItems items) = (items.map fun item => item.size + 1).sum + 1 := by
  induction items with
  | nil => rfl
  | cons item items ih =>
    have comma : ','.utf8Size = 1 := by decide
    simp only [writeItems, textSize_cons, textSize_append, ih, map_cons, sum_cons, size]
    omega

/-- An array takes its items, a comma before each but the first, and two brackets. -/
theorem size_array_le : (array items).size ≤ (items.map fun item => item.size + 1).sum + 2 := by
  cases items with
  | nil => exact le_refl 2
  | cons item items =>
    have bracket : '['.utf8Size = 1 := by decide
    simp only [size, write, textSize_cons, textSize_append, textSize_writeItems, map_cons, sum_cons]
    omega

theorem textSize_writeFields (fields : List (List Char × Json)) : textSize (writeFields fields) =
      (fields.map fun field => (string field.1).size + field.2.size + 2).sum + 1 := by
  induction fields with
  | nil => rfl
  | cons field fields ih =>
    obtain ⟨key, value⟩ := field
    have comma : ','.utf8Size = 1 := by decide
    have colon : ':'.utf8Size = 1 := by decide
    simp only [writeFields, textSize_cons, textSize_append, ih, map_cons, sum_cons, size, write]
    omega

/-- An array of at most `count` items of at most `bound` bytes. -/
theorem size_array_le_of_le {items : List Json} {count bound : Nat} (few : items.length ≤ count)
    (small : ∀ item ∈ items, item.size ≤ bound) : (array items).size ≤ count * (bound + 1) + 2 := by
  have total : (items.map fun item => item.size + 1).sum ≤ items.length * (bound + 1) := by
    have each : ∀ size ∈ items.map fun item => item.size + 1, size ≤ bound + 1 := by
      intro size member
      obtain ⟨item, at_, rfl⟩ := mem_map.mp member
      exact Nat.succ_le_succ (small item at_)
    have bounded := sum_le_card_nsmul _ _ each
    rwa [length_map, smul_eq_mul] at bounded
  have rows : items.length * (bound + 1) ≤ count * (bound + 1) := Nat.mul_le_mul_right _ few
  exact Nat.le_trans size_array_le (Nat.add_le_add_right (Nat.le_trans total rows) 2)

/-- An object takes its keys and values, a colon and a comma for each, and two braces. -/
theorem size_object_le : (object fields).size ≤
      (fields.map fun field => (string field.1).size + field.2.size + 2).sum + 2 := by
  cases fields with
  | nil => exact le_refl 2
  | cons field fields =>
    obtain ⟨key, value⟩ := field
    have brace : '\x7b'.utf8Size = 1 := by decide
    have colon : ':'.utf8Size = 1 := by decide
    simp only [size, write, textSize_cons, textSize_append, textSize_writeFields, map_cons,
      sum_cons]
    omega

end Json
end Monhop.Library
