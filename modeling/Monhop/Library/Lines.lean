import Mathlib

/-! # Texts by lines

A text is read as lines, each but the last ended by a separator.  `onLines` rewrites every ended
line.  A pass that treats its ended lines one by one is `onLines` of what it does to a line
(`eq_onLines`), so passes compose as what they do to a line does (`onLines_onLines`).
-/

namespace Monhop.Library

open List
variable {Entry : Type} [DecidableEq Entry] {separator entry : Entry} {line rest text : List Entry}
variable {change first second pass : List Entry → List Entry}

/-- Rewrites the ended lines of a text, `line` being what was read of the first. -/
def onLinesFrom (separator : Entry) (change : List Entry → List Entry) (line : List Entry) :
    List Entry → List Entry
  | [] => line
  | entry :: rest =>
    if entry = separator then change line ++ separator :: onLinesFrom separator change [] rest
    else onLinesFrom separator change (line ++ [entry]) rest

def onLines (separator : Entry) (change : List Entry → List Entry) (text : List Entry) :
    List Entry :=
  onLinesFrom separator change [] text

/-- A text is a line, or a line that is ended and a text. -/
theorem line_induction (separator : Entry) {property : List Entry → Prop}
    (last : ∀ line, separator ∉ line → property line)
    (ended : ∀ line rest, separator ∉ line → property rest → property (line ++ separator :: rest))
    (text : List Entry) : property text := by
  suffices read : ∀ line, separator ∉ line → property (line ++ text) from read [] not_mem_nil
  induction text with
  | nil =>
    intro line free
    rw [append_nil]
    exact last line free
  | cons entry rest ih =>
    intro line free
    by_cases same : entry = separator
    · subst same
      exact ended line rest free (ih [] not_mem_nil)
    · rw [append_cons]
      exact ih _ (by simp [free, Ne.symm same])

theorem onLinesFrom_append (free : separator ∉ line) (read : List Entry) :
    onLinesFrom separator change read (line ++ rest) =
      onLinesFrom separator change (read ++ line) rest := by
  induction line generalizing read with
  | nil => rw [nil_append, append_nil]
  | cons entry line ih =>
    simp only [mem_cons, not_or] at free
    rw [cons_append, onLinesFrom, if_neg (Ne.symm free.1), ih free.2, ← append_cons]

theorem onLines_last (free : separator ∉ line) : onLines separator change line = line := by
  have read := @onLinesFrom_append _ _ separator line [] change free []
  rwa [append_nil] at read

theorem onLines_ended (free : separator ∉ line) :
    onLines separator change (line ++ separator :: rest) =
      change line ++ separator :: onLines separator change rest := by
  rw [onLines, onLinesFrom_append free, onLinesFrom, if_pos rfl]
  rfl

theorem eq_onLines (last : ∀ line, separator ∉ line → pass line = line)
    (ended : ∀ line rest, separator ∉ line →
      pass (line ++ separator :: rest) = change line ++ separator :: pass rest) :
    pass text = onLines separator change text := by
  induction text using line_induction separator with
  | last line free => rw [last line free, onLines_last free]
  | ended line rest free ih => rw [ended line rest free, ih, onLines_ended free]

theorem onLines_onLines (kept : ∀ line, separator ∉ line → separator ∉ second line)
    (text : List Entry) :
    onLines separator first (onLines separator second text) =
      onLines separator (first ∘ second) text := by
  induction text using line_induction separator with
  | last line free => rw [onLines_last free, onLines_last free, onLines_last free]
  | ended line rest free ih =>
    rw [onLines_ended free, onLines_ended (kept line free), ih, onLines_ended free]
    rfl

theorem not_mem_onLines (kept : ∀ line, entry ∉ line → entry ∉ change line)
    (absent : entry ∉ text) : entry ∉ onLines separator change text := by
  induction text using line_induction separator with
  | last line free => rwa [onLines_last free]
  | ended line rest free ih =>
    simp only [mem_append, mem_cons, not_or] at absent
    rw [onLines_ended free]
    simp only [mem_append, mem_cons, not_or]
    exact ⟨kept line absent.1, absent.2.1, ih absent.2.2⟩

end Monhop.Library
