import Monhop.Library.Json
import Monhop.Library.Lines

/-! # Line ends of clipboard text

Text goes out with LF line ends and is pasted on Windows with CRLF ones; the echo guard compares
texts with every CR before an LF dropped.  Each of the three passes treats the lines that an LF ends
one by one, and the comparing one undoes what the others do to a line.
-/

namespace Monhop.Desktop

open Library List Option

inductive TextSkip where
  | empty
  | tooLarge
  deriving DecidableEq

def maxClipboardText : Nat := 1024 * 1024

def beforeNul (text : List Char) : List Char := text.takeWhile (· != '\x00')

/-- `str::replace` of CRLF by LF. -/
def replaceCrlf : List Char → List Char
  | '\r' :: '\n' :: rest => '\n' :: replaceCrlf rest
  | char :: rest => char :: replaceCrlf rest
  | [] => []

/-- Wire text: CRLF becomes LF, everything from the first NUL on is dropped, never empty, capped. -/
def normalizeOutgoing (raw : List Char) : Except TextSkip (List Char) :=
  let text := replaceCrlf (beforeNul raw)
  if text.isEmpty then .error .empty
  else if textSize text > maxClipboardText then .error .tooLarge
  else .ok text

def endsWithCr (text : List Char) : Bool := text.getLast? == some '\r'

/-- The loop's body for every line but the first. -/
def pushLine (out line : List Char) : List Char :=
  out ++ (if endsWithCr out then ['\n'] else ['\r', '\n']) ++ line

def pushLines (text : List Char) : List Char :=
  match text.splitOn '\n' with
  | [] => []
  | first :: rest => rest.foldl pushLine first

/-- Windows paste side: every LF without a CR before it gains one. -/
def windowsLineEnds (text : List Char) : List Char :=
  let loneLf := (text.splitOn '\n').reverse.tail.any fun line => !endsWithCr line
  if loneLf then pushLines text else text

/-- `str::split_inclusive` at every LF. -/
def splitInclusive : List Char → List (List Char)
  | [] => []
  | char :: rest =>
    if char = '\n' then [char] :: splitInclusive rest
    else match splitInclusive rest with
      | [] => [[char]]
      | piece :: pieces => (char :: piece) :: pieces

/-- `str::trim_end_matches` of CR. -/
def trimCr (line : List Char) : List Char := line.rdropWhile (· == '\r')

def lfPiece (piece : List Char) : List Char :=
  if piece.getLast? = some '\n' then trimCr piece.dropLast ++ ['\n'] else piece

/-- Drops every CR directly before an LF, whole runs of them where `normalizeOutgoing` drops one. -/
def lfLineEnds (text : List Char) : List Char :=
  if ['\r', '\n'] <:+: text then (splitInclusive text).flatMap lfPiece else text

/-! ## One line -/

/-- What `normalizeOutgoing` does to a line. -/
def dropCr (line : List Char) : List Char := if endsWithCr line then line.dropLast else line

/-- What `windowsLineEnds` does to a line. -/
def addCr (line : List Char) : List Char := if endsWithCr line then line else line ++ ['\r']

variable {char : Char} {line text : List Char}

theorem endsWithCr_iff : endsWithCr line = true ↔ ∃ front, line = front ++ ['\r'] := by
  rw [endsWithCr, beq_iff_eq, getLast?_eq_some_iff]

theorem endsWithCr_concat (front : List Char) : endsWithCr (front ++ ['\r']) = true := by
  simp [endsWithCr]

theorem endsWithCr_ended (line more : List Char) :
    endsWithCr (line ++ '\n' :: more) = endsWithCr more := by
  cases more with
  | nil => simp [endsWithCr]
  | cons first more => simp [endsWithCr, getLast?_cons_cons]

theorem endsWithCr_addCr (line : List Char) : endsWithCr (addCr line) = true := by
  unfold addCr
  split
  · assumption
  · exact endsWithCr_concat line

theorem addCr_of_endsWithCr (ends : endsWithCr line = true) : addCr line = line := if_pos ends

theorem dropCr_addCr (plain : endsWithCr line = false) : dropCr (addCr line) = line := by
  simp [addCr, dropCr, plain, endsWithCr_concat]

theorem trimCr_concat (front : List Char) : trimCr (front ++ ['\r']) = trimCr front :=
  rdropWhile_concat_pos _ _ _ rfl

theorem trimCr_of_plain (plain : endsWithCr line = false) : trimCr line = line := by
  refine rdropWhile_eq_self_iff.mpr fun full ends => ?_
  rw [endsWithCr, getLast?_eq_some_getLast full, beq_eq_false_iff_ne] at plain
  exact plain (congrArg some (beq_iff_eq.mp ends))

section
variable (line)

theorem endsWithCr_trimCr : endsWithCr (trimCr line) = false := by
  rw [← Bool.not_eq_true, endsWithCr_iff]
  rintro ⟨front, same⟩
  have again : trimCr (trimCr line) = trimCr line := rdropWhile_idempotent _ _
  rw [same, trimCr_concat] at again
  have shorter : (trimCr front).length ≤ front.length := ( rdropWhile_prefix _ _).length_le
  rw [again, length_append] at shorter
  exact absurd shorter (Nat.not_succ_le_self _)

theorem trimCr_addCr : trimCr (addCr line) = trimCr line := by
  unfold addCr
  split
  · rfl
  · exact trimCr_concat line

theorem trimCr_dropCr : trimCr (dropCr line) = trimCr line := by
  unfold dropCr
  split
  next ends =>
    obtain ⟨front, rfl⟩ := endsWithCr_iff.mp ends
    rw [dropLast_concat, trimCr_concat]
  · rfl

theorem not_mem_addCr (other : char ≠ '\r') (line : List Char) (absent : char ∉ line) :
    char ∉ addCr line := by
  unfold addCr
  split
  · exact absent
  · simp [absent, other]

theorem not_mem_dropCr (absent : char ∉ line) : char ∉ dropCr line := by
  unfold dropCr
  split
  · exact fun member => absent (mem_of_mem_dropLast member)
  · exact absent

theorem not_mem_trimCr (absent : char ∉ line) : char ∉ trimCr line :=
  fun member => absent (( rdropWhile_prefix _ _).subset member)

end

/-! ## The passes -/

/-- Every LF has a CR before it, or none has. -/
def EveryLf (afterCr : Bool) (text : List Char) : Prop :=
  ∀ before after, text = before ++ '\n' :: after → endsWithCr before = afterCr

variable {afterCr : Bool} {change : List Char → List Char}

theorem everyLf_ended {rest : List Char} (free : '\n' ∉ line) :
    EveryLf afterCr (line ++ '\n' :: rest) ↔ endsWithCr line = afterCr ∧ EveryLf afterCr rest := by
  refine ⟨fun every => ⟨every line rest rfl, fun before after same => ?_⟩,
    fun ⟨here, every⟩ before after same => ?_⟩
  · rw [← endsWithCr_ended line before]
    exact every _ after (by simp [same])
  · rcases append_eq_append_iff.mp same with ⟨more, rfl, split⟩ | ⟨more, rfl, split⟩
    · cases more with
      | nil => simpa using here
      | cons first more =>
        obtain ⟨rfl, later⟩ := List.cons.inj split
        rw [endsWithCr_ended]
        exact every more after later
    · cases more with
      | nil => simpa using here
      | cons first more =>
        obtain ⟨rfl, -⟩ := List.cons.inj split
        simp at free

theorem everyLf_onLines (kept : ∀ line, '\n' ∉ line → '\n' ∉ change line)
    (ends : ∀ line, endsWithCr (change line) = afterCr) :
    EveryLf afterCr (onLines '\n' change text) := by
  induction text using line_induction '\n' with
  | last line free =>
    rw [onLines_last free]
    rintro before after rfl
    simp at free
  | ended line rest free ih =>
    rw [onLines_ended free]
    exact (everyLf_ended (kept line free)).mpr ⟨ends line, ih⟩

/-- A pass leaves a text whose lines it leaves. -/
theorem onLines_of_everyLf (fixed : ∀ line, endsWithCr line = afterCr → change line = line)
    (every : EveryLf afterCr text) : onLines '\n' change text = text := by
  induction text using line_induction '\n' with
  | last line free => exact onLines_last free
  | ended line rest free ih =>
    obtain ⟨here, every⟩ := (everyLf_ended free).mp every
    rw [onLines_ended free, fixed line here, ih every]

theorem replaceCrlf_eq (text : List Char) : replaceCrlf text = onLines '\n' dropCr text := by
  refine eq_onLines (fun line free => ?_) (fun line rest free => ?_)
  · fun_induction replaceCrlf line with
    | case1 rest ih => simp at free
    | case2 first rest shape ih => rw [ih (by simp_all)]
    | case3 => rfl
  · fun_induction replaceCrlf line with
    | case1 more ih => simp at free
    | case2 first more shape ih =>
      cases more with
      | nil =>
        by_cases ends : first = '\r'
        · simp [ends, replaceCrlf, dropCr, endsWithCr]
        · simp [replaceCrlf, dropCr, endsWithCr, ends]
      | cons second more =>
        have here : second ≠ '\n' := by rintro rfl; simp at free
        have deeper : dropCr (first :: second :: more) = first :: dropCr (second :: more) := by
          simp only [dropCr, endsWithCr, getLast?_cons_cons, dropLast_cons_cons]
          exact (apply_ite (first :: ·) ..).symm
        rw [cons_append, replaceCrlf, ih (by simp_all), deeper]
        · rfl
        · simp [here]
    | case3 => simp [replaceCrlf, dropCr, endsWithCr]

/-- What the loop pushed up to an LF stays. -/
theorem foldl_pushLine (lines : List (List Char)) (front line : List Char) :
    lines.foldl pushLine (front ++ '\n' :: line) = front ++ '\n' :: lines.foldl pushLine line := by
  induction lines generalizing line with
  | nil => rfl
  | cons next lines ih =>
    have pushed : pushLine (front ++ '\n' :: line) next = front ++ '\n' :: pushLine line next := by
      simp [pushLine, endsWithCr_ended]
    rw [foldl_cons, foldl_cons, pushed, ih]

theorem pushLines_eq : pushLines text = onLines '\n' addCr text := by
  refine eq_onLines (fun line free => ?_) (fun line rest free => ?_)
  · rw [pushLines, splitOn_eq_singleton free]
    rfl
  · have pushed : ∀ first, pushLine line first = addCr line ++ '\n' :: first := by
      intro first
      unfold pushLine addCr
      split <;> simp
    rw [pushLines, pushLines, splitOn_append_cons_self_of_not_mem free]
    cases lines : rest.splitOn '\n' with
    | nil => exact absurd lines (splitOn_ne_nil _ _)
    | cons first others =>
      show others.foldl pushLine (pushLine line first) = _
      rw [pushed, foldl_pushLine]

theorem windowsLineEnds_eq (text : List Char) : windowsLineEnds text = onLines '\n' addCr text := by
  unfold windowsLineEnds
  simp only []
  split
  · exact pushLines_eq
  next none =>
  rw [tail_reverse, any_reverse] at none
  refine (onLines_of_everyLf (fun line ends => addCr_of_endsWithCr ends) ?_).symm
  induction text using line_induction '\n' with
  | last line free =>
    rintro before after rfl
    simp at free
  | ended line rest free ih =>
    obtain ⟨first, others, lines⟩ := exists_cons_of_ne_nil (splitOn_ne_nil '\n' rest)
    rw [splitOn_append_cons_self_of_not_mem free, lines] at none
    rw [lines] at ih
    simp only [dropLast_cons_cons, any_cons, Bool.or_eq_true, not_or] at none
    exact (everyLf_ended free).mpr ⟨by simpa using none.1, ih none.2⟩

theorem splitInclusive_ended (free : '\n' ∉ line) (rest : List Char) :
    splitInclusive (line ++ '\n' :: rest) = (line ++ ['\n']) :: splitInclusive rest := by
  induction line with
  | nil => simp [splitInclusive]
  | cons first line ih =>
    simp only [mem_cons, not_or] at free
    rw [cons_append, splitInclusive, if_neg (Ne.symm free.1), ih free.2]
    rfl

theorem flatMap_lfPiece (free : '\n' ∉ line) : (splitInclusive line).flatMap lfPiece = line := by
  have whole : ∀ line : List Char, '\n' ∉ line → line ≠ [] → splitInclusive line = [line] := by
    intro line free full
    induction line with
    | nil => exact absurd rfl full
    | cons first line ih =>
      simp only [mem_cons, not_or] at free
      rw [splitInclusive, if_neg (Ne.symm free.1)]
      cases line with
      | nil => rfl
      | cons second line => rw [ih free.2 (cons_ne_nil _ _)]
  by_cases full : line = []
  · rw [full]
    rfl
  · rw [whole line free full, flatMap_singleton, lfPiece, if_neg]
    exact fun last => free (mem_of_getLast? last)

theorem lfLineEnds_eq (text : List Char) : lfLineEnds text = onLines '\n' trimCr text := by
  unfold lfLineEnds
  split
  · refine eq_onLines (fun line free => flatMap_lfPiece free) (fun line rest free => ?_)
    rw [splitInclusive_ended free, flatMap_cons, lfPiece, if_pos (by simp)]
    simp
  next absent =>
  refine (onLines_of_everyLf (fun line plain => trimCr_of_plain plain) ?_).symm
  rintro before after rfl
  rw [← Bool.not_eq_true, endsWithCr_iff]
  rintro ⟨front, rfl⟩
  exact absent ⟨front, after, by simp⟩

/-! ## Their laws -/

inductive LineEndPass where
  | normalize
  | windows
  | lf

/-- A pass over a text; `normalizeOutgoing` may skip it. -/
def LineEndPass.run : LineEndPass → List Char → Option (List Char)
  | normalize, text => (normalizeOutgoing text).toOption
  | windows, text => some (windowsLineEnds text)
  | lf, text => some (lfLineEnds text)

theorem beforeNul_eq (plain : '\x00' ∉ text) : beforeNul text = text := by
  refine takeWhile_eq_self_iff.mpr fun char member => bne_iff_ne.mpr ?_
  rintro rfl
  exact plain member

/-- No pass brings a NUL, and each keeps what `lfLineEnds` makes of the text. -/
theorem LineEndPass.run_spec {pass : LineEndPass} {result : List Char} (plain : '\x00' ∉ text)
    (ran : pass.run text = some result) :
    '\x00' ∉ result ∧ lfLineEnds result = lfLineEnds text := by
  have rewritten : ∀ change : List Char → List Char, (∀ line, '\n' ∉ line → '\n' ∉ change line) →
      (∀ line, '\x00' ∉ line → '\x00' ∉ change line) → trimCr ∘ change = trimCr →
      '\x00' ∉ onLines '\n' change text ∧
        lfLineEnds (onLines '\n' change text) = lfLineEnds text := by
    intro change free kept same
    refine ⟨not_mem_onLines kept plain, ?_⟩
    rw [lfLineEnds_eq, onLines_onLines free, same, ← lfLineEnds_eq]
  cases pass with
  | normalize =>
    have normalized : onLines '\n' dropCr text = result := by
      simp only [run, normalizeOutgoing, beforeNul_eq plain, replaceCrlf_eq] at ran
      split at ran
      · cases ran
      split at ran
      · cases ran
      · exact some.inj ran
    rw [← normalized]
    exact rewritten dropCr not_mem_dropCr not_mem_dropCr (funext trimCr_dropCr)
  | windows =>
    obtain rfl := some.inj ran
    rw [windowsLineEnds_eq]
    exact rewritten addCr (not_mem_addCr (by decide)) (not_mem_addCr (by decide))
      (funext trimCr_addCr)
  | lf =>
    obtain rfl := some.inj ran
    have again := rewritten trimCr not_mem_trimCr not_mem_trimCr
      (funext fun line => rdropWhile_idempotent _ line)
    rwa [← lfLineEnds_eq] at again

theorem lfLineEnds_passes {passes : List LineEndPass} {result : List Char} (plain : '\x00' ∉ text)
    (ran : passes.foldlM (fun text pass => pass.run text) text = some result) :
    lfLineEnds result = lfLineEnds text := by
  induction passes generalizing text with
  | nil =>
    obtain rfl := some.inj ran
    rfl
  | cons pass passes ih =>
    rw [foldlM_cons, bind_eq_bind, bind_eq_some_iff] at ran
    obtain ⟨middle, first, rest⟩ := ran
    obtain ⟨plain, same⟩ := LineEndPass.run_spec plain first
    rw [ih plain rest, same]

/-- The Windows and the compared line ends are fixed by a second pass and have every CR or none;
comparing sees through any sequence of passes, and a text without CRs before its LFs comes back
from Windows unless it is empty or too large to go out. -/
theorem line_end_laws (text : List Char) (plain : '\x00' ∉ text) :
    windowsLineEnds (windowsLineEnds text) = windowsLineEnds text ∧
      EveryLf true (windowsLineEnds text) ∧
      lfLineEnds (lfLineEnds text) = lfLineEnds text ∧
      EveryLf false (lfLineEnds text) ∧
      (∀ (passes : List LineEndPass) (result : List Char),
        passes.foldlM (fun text pass => pass.run text) text = some result →
          lfLineEnds result = lfLineEnds text) ∧
      (EveryLf false text → text ≠ [] → textSize text ≤ maxClipboardText →
        normalizeOutgoing (windowsLineEnds text) = .ok text) := by
  have windowed : EveryLf true (windowsLineEnds text) := by
    rw [windowsLineEnds_eq]
    exact everyLf_onLines (not_mem_addCr (by decide)) endsWithCr_addCr
  have compared : EveryLf false (lfLineEnds text) := by
    rw [lfLineEnds_eq]
    exact everyLf_onLines not_mem_trimCr endsWithCr_trimCr
  refine ⟨?_, windowed, ?_, compared, fun passes result => lfLineEnds_passes plain,
    fun every full fits => ?_⟩
  · rw [windowsLineEnds_eq (windowsLineEnds text)]
    exact onLines_of_everyLf (fun line => addCr_of_endsWithCr) windowed
  · rw [lfLineEnds_eq (lfLineEnds text)]
    exact onLines_of_everyLf (fun line => trimCr_of_plain) compared
  · have back : replaceCrlf (beforeNul (windowsLineEnds text)) = text := by
      rw [windowsLineEnds_eq, beforeNul_eq (not_mem_onLines (not_mem_addCr (by decide)) plain),
        replaceCrlf_eq, onLines_onLines (not_mem_addCr (by decide))]
      exact onLines_of_everyLf (fun line => dropCr_addCr) every
    simp [normalizeOutgoing, back, full, not_lt.mpr fits]

/-- An empty text does not come back. -/
theorem empty_text_skipped :
    EveryLf false [] ∧ normalizeOutgoing (windowsLineEnds []) = .error .empty := by
  refine ⟨fun before after same => ?_, by decide⟩
  simp at same

theorem line_end_laws_mixed :
    let text := ['a', '\r', '\r', '\n', 'b', '\n']
    windowsLineEnds text = ['a', '\r', '\r', '\n', 'b', '\r', '\n'] ∧
      lfLineEnds text = ['a', '\n', 'b', '\n'] ∧
      lfLineEnds (windowsLineEnds text) = lfLineEnds text :=
  ⟨by decide, by decide, (line_end_laws _ (by decide)).2.2.2.2.1 [.windows] _ rfl⟩

end Monhop.Desktop
