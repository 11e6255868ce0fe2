import Monhop.Core.Types
import Monhop.Library.Json

/-! # The names a saved layout uses

Computers are named by their certificate fingerprint in hexadecimal, displays by their id in
decimal.  A saved name is canonical: a fingerprint in upper case, an id without leading
zeros.  Keys are fingerprints in lower case, and ids in a layout are compared as numbers in
one place and as texts in another, so both forms matter.
-/

namespace Monhop.Setup

open Monhop.Core Library List Option

/-- A text by its characters; the order of texts is that of their bytes. -/
abbrev Text := List Char

/-! ## Fingerprints -/

/-- The value of a hexadecimal digit in either case. -/
def hexNibble (char : Char) : Option Nat :=
  if 48 ≤ char.toNat ∧ char.toNat ≤ 57 then some (char.toNat - 48)
  else if 97 ≤ char.toNat ∧ char.toNat ≤ 102 then some (char.toNat - 97 + 10)
  else if 65 ≤ char.toNat ∧ char.toNat ≤ 70 then some (char.toNat - 65 + 10)
  else none

def upperHex (nibble : Nat) : Char :=
  if nibble < 10 then Char.ofNat (48 + nibble) else Char.ofNat (55 + nibble)

/-- A certificate's digest: 32 bytes, kept as their 64 half bytes, the higher half first. -/
structure CertificateFingerprint where
  nibbles : List Nat
  length_nibbles : nibbles.length = 64
  nibbles_lt : ∀ nibble ∈ nibbles, nibble < 16
  deriving DecidableEq

namespace CertificateFingerprint

theorem ext_nibbles {first second : CertificateFingerprint}
    (same : first.nibbles = second.nibbles) : first = second := by
  cases first
  cases second
  simp_all

/-- The whole fingerprint in upper case. -/
def fullHex (fingerprint : CertificateFingerprint) : Text := fingerprint.nibbles.map upperHex

end CertificateFingerprint

theorem hexNibble_lt {char : Char} {nibble : Nat} (read : hexNibble char = some nibble) :
    nibble < 16 := by
  unfold hexNibble at read
  split at read
  · cases read; omega
  split at read
  · cases read; omega
  split at read
  · cases read; omega
  · cases read

variable {text : Text}

theorem mapM_hexNibble_lt {nibbles : List Nat}
    (read : text.mapM hexNibble = some nibbles) : ∀ nibble ∈ nibbles, nibble < 16 := by
  induction text generalizing nibbles with
  | nil => cases read; nofun
  | cons char text ih =>
    simp only [mapM_cons, bind_eq_bind, bind_eq_some_iff] at read
    obtain ⟨first, head, rest, tail, whole⟩ := read
    cases whole
    intro nibble member
    cases mem_cons.mp member with
    | inl same => rw [same]; exact hexNibble_lt head
    | inr later => exact ih tail nibble later

/-- Exactly 64 hexadecimal digits in any case. -/
def CertificateFingerprint.parseFull (text : Text) : Option CertificateFingerprint :=
  match read : text.mapM hexNibble with
  | some nibbles =>
    if length_nibbles : nibbles.length = 64 then
      some { nibbles, length_nibbles, nibbles_lt := mapM_hexNibble_lt read }
    else none
  | none => none

open CertificateFingerprint

/-- The lower-case form every view and file key uses. -/
def fingerprintKey (fingerprint : Text) : Text := fingerprint.map Char.toLower

def asciiUppercase (text : Text) : Text := text.map Char.toUpper

/-- The saved form of a fingerprint: full and in upper case. -/
def validFingerprint (text : Text) : Bool :=
  match parseFull text with
  | some fingerprint => fingerprint.fullHex == text
  | none => false

def canonicalFingerprint (text : Text) : Option Text :=
  (parseFull text).map (·.fullHex)

/-- A device's id is the first 16 bytes of its fingerprint. -/
def deviceIdFromFingerprint (fingerprint : CertificateFingerprint) : DeviceId :=
  ⟨(fingerprint.nibbles.take 32).foldl (fun value nibble => value * 16 + nibble) 0⟩

def deviceOf (fingerprint : Text) : Option DeviceId :=
  (parseFull fingerprint).map deviceIdFromFingerprint

/-! ### What the two cases have in common -/

/-- Only the letters `a` to `z` and `A` to `Z` change their case. -/
theorem case_of_not_ascii {char : Char} (wide : ¬ char.toNat < 128) :
    char.toUpper = char ∧ char.toLower = char := by
  constructor
  · rw [Char.toUpper, dif_neg]
    rintro ⟨_, upTo⟩
    exact wide (lt_of_le_of_lt upTo (by decide))
  · rw [Char.toLower, dif_neg]
    rintro ⟨_, upTo⟩
    exact wide (lt_of_le_of_lt upTo (by decide))

theorem toLower_case {char : Char} :
    char.toUpper.toLower = char.toLower ∧ char.toLower.toLower = char.toLower := by
  by_cases ascii : char.toNat < 128
  · have all : ∀ code : Fin 128,
        (Char.ofNat code.val).toUpper.toLower = (Char.ofNat code.val).toLower ∧
          (Char.ofNat code.val).toLower.toLower = (Char.ofNat code.val).toLower := by
      decide +kernel
    have this := all ⟨char.toNat, ascii⟩
    rwa [Char.ofNat_toNat] at this
  · simp [case_of_not_ascii ascii]

@[simp] theorem fingerprintKey_fingerprintKey (text : Text) :
    fingerprintKey (fingerprintKey text) = fingerprintKey text := by
  simp [fingerprintKey, Function.comp_def, toLower_case.2]

theorem fingerprintKey_asciiUppercase (text : Text) :
    fingerprintKey (asciiUppercase text) = fingerprintKey text := by
  simp [fingerprintKey, asciiUppercase, Function.comp_def, toLower_case.1]

theorem toLower_upperHex {nibble : Nat} (bound : nibble < 16) :
    (upperHex nibble).toLower.toUpper = upperHex nibble ∧
      hexNibble (upperHex nibble) = some nibble ∧
      hexNibble (upperHex nibble).toLower = some nibble := by
  have all : ∀ digit : Fin 16, (upperHex digit.val).toLower.toUpper = upperHex digit.val ∧
      hexNibble (upperHex digit.val) = some digit.val ∧
      hexNibble (upperHex digit.val).toLower = some digit.val := by decide
  exact all ⟨nibble, bound⟩

theorem mapM_hexNibble_map {nibbles : List Nat} {spell : Nat → Char}
    (spelled : ∀ nibble ∈ nibbles, hexNibble (spell nibble) = some nibble) :
    (nibbles.map spell).mapM hexNibble = some nibbles := by
  induction nibbles with
  | nil => rfl
  | cons nibble nibbles ih =>
    simp only [map_cons, mapM_cons, spelled nibble mem_cons_self,
      ih fun other member => spelled other (mem_cons_of_mem _ member)]
    rfl

theorem parseFull_eq_some {fingerprint : CertificateFingerprint} :
    parseFull text = some fingerprint ↔
      text.mapM hexNibble = some fingerprint.nibbles := by
  unfold parseFull
  split
  · next nibbles read =>
    split
    · next sized =>
      rw [some.injEq]
      constructor
      · rintro rfl
        exact read
      · intro same
        exact ext_nibbles (some.inj (read.symm.trans same))
    · next sized =>
      constructor
      · nofun
      · intro same
        cases read.symm.trans same
        exact absurd fingerprint.length_nibbles sized
  · next read => exact ⟨nofun, fun same => nomatch read.symm.trans same⟩

namespace CertificateFingerprint

variable (fingerprint : CertificateFingerprint)

@[simp] theorem parseFull_fullHex : parseFull fingerprint.fullHex = some fingerprint :=
  parseFull_eq_some.mpr (mapM_hexNibble_map fun nibble member =>
    (toLower_upperHex (fingerprint.nibbles_lt nibble member)).2.1)

@[simp] theorem parseFull_key : parseFull (fingerprintKey fingerprint.fullHex) = some fingerprint := by
  rw [fingerprintKey, fullHex, List.map_map]
  exact parseFull_eq_some.mpr (mapM_hexNibble_map fun nibble member =>
    (toLower_upperHex (fingerprint.nibbles_lt nibble member)).2.2)

@[simp] theorem validFingerprint_fullHex : validFingerprint fingerprint.fullHex = true := by
  simp [validFingerprint]

@[simp] theorem asciiUppercase_key :
    asciiUppercase (fingerprintKey fingerprint.fullHex) = fingerprint.fullHex := by
  simp only [asciiUppercase, fingerprintKey, fullHex, List.map_map]
  exact List.map_congr_left fun nibble member =>
    (toLower_upperHex (fingerprint.nibbles_lt nibble member)).1

end CertificateFingerprint

theorem validFingerprint_iff :
    validFingerprint text = true ↔
      ∃ fingerprint : CertificateFingerprint, text = fingerprint.fullHex := by
  constructor
  · intro valid
    unfold validFingerprint at valid
    split at valid
    · next fingerprint _ => exact ⟨fingerprint, (beq_iff_eq.mp valid).symm⟩
    · cases valid
  · rintro ⟨fingerprint, rfl⟩
    exact fingerprint.validFingerprint_fullHex

theorem canonicalFingerprint_eq_some {text canonical : Text} :
    canonicalFingerprint text = some canonical ↔
      ∃ fingerprint, parseFull text = some fingerprint ∧
        canonical = fingerprint.fullHex := by
  simp [canonicalFingerprint, eq_comm]

theorem toLower_of_hexNibble {char : Char} {nibble : Nat} (spelled : hexNibble char = some nibble) :
    char.toLower = (upperHex nibble).toLower := by
  have ascii : char.toNat < 128 := by
    unfold hexNibble at spelled
    by_contra above
    rw [if_neg (by omega), if_neg (by omega), if_neg (by omega)] at spelled
    cases spelled
  have all : ∀ code : Fin 128, ∀ digit : Fin 16, hexNibble (Char.ofNat code.val) = some digit.val →
      (Char.ofNat code.val).toLower = (upperHex digit.val).toLower := by decide +kernel
  have this := all ⟨char.toNat, ascii⟩ ⟨nibble, hexNibble_lt spelled⟩
  rw [Char.ofNat_toNat] at this
  exact this spelled

/-- Case does not matter to a fingerprint's key. -/
theorem fingerprintKey_of_parseFull {fingerprint : CertificateFingerprint}
    (read : parseFull text = some fingerprint) :
    fingerprintKey text = fingerprintKey fingerprint.fullHex := by
  have texts : ∀ (text : Text) (nibbles : List Nat), text.mapM hexNibble = some nibbles →
      text.map Char.toLower = (nibbles.map upperHex).map Char.toLower := by
    intro text
    induction text with
    | nil => intro nibbles whole; cases whole; rfl
    | cons char text ih =>
      intro nibbles whole
      simp only [mapM_cons, bind_eq_bind, bind_eq_some_iff] at whole
      obtain ⟨first, head, rest, tail, whole⟩ := whole
      cases whole
      simp only [map_cons, toLower_of_hexNibble head, ih rest tail]
  exact texts text fingerprint.nibbles (parseFull_eq_some.mp read)

/-! ## Display ids -/

def chooseDisplay : String := "Choose an inspected display."

/-- A display id as a layout writes it: at most 20 decimal digits below `2 ^ 64`, leading
zeros allowed. -/
def parseDisplay (text : Text) : Except String DisplayId :=
  if text.isEmpty || decide (textSize text > 20) || !text.all Char.isDigit then
    .error chooseDisplay
  else if Nat.ofDigitChars 10 text 0 < 2 ^ 64 then .ok ⟨Nat.ofDigitChars 10 text 0⟩
  else .error chooseDisplay

/-- A display id in canonical form. -/
def displayText (id : DisplayId) : Text := Nat.toDigits 10 id.raw

/-- The number a text is sorted by; a text that is no id comes first. -/
def displayNumber (text : Text) : WithBot Nat :=
  match parseDisplay text with
  | .ok id => (id.raw : Nat)
  | .error _ => ⊥

/-- Ids by their number, then by their text. -/
def displayOrder (text : Text) : WithBot Nat ×ₗ Text := toLex (displayNumber text, text)

theorem displayOrder_injective : Function.Injective displayOrder := by
  intro first second same
  exact congrArg (fun order => (ofLex order).2) same

end Monhop.Setup
