import Mathlib

/-! # Sliding windows

A queue of timed entries, oldest first.  Giving up its oldest entries while they are as old as
the window leaves exactly the entries of the window, because the entries stand in order.
-/

namespace Monhop.Library

open List
variable {Entry : Type} {time : Entry → Nat} {window now : Nat} {entries : List Entry}

/-- The entries younger than `window` at `now`. -/
def recent (time : Entry → Nat) (window now : Nat) (entries : List Entry) : List Entry :=
  entries.filter fun entry => decide (now - time entry < window)

theorem recent_append (first second : List Entry) :
    recent time window now (first ++ second) =
      recent time window now first ++ recent time window now second :=
  filter_append ..

theorem recent_sublist : (recent time window now entries).Sublist entries :=
  filter_sublist

theorem recent_eq_nil (old : ∀ entry ∈ entries, window ≤ now - time entry) :
    recent time window now entries = [] := by
  simpa [recent] using old

/-- Giving up the oldest entries leaves the recent ones, as they are the last of the queue. -/
theorem dropWhile_eq_recent (ordered : (entries.map time).Pairwise (· ≤ ·)) :
    entries.dropWhile (fun entry => decide (window ≤ now - time entry)) =
      recent time window now entries := by
  induction entries with
  | nil => rfl
  | cons first rest ih =>
    obtain ⟨before, ordered⟩ := pairwise_cons.mp ordered
    by_cases old : window ≤ now - time first
    · rw [dropWhile_cons_of_pos (by simpa using old), ih ordered, recent, recent,
        filter_cons_of_neg (by simpa using old)]
    rw [dropWhile_cons_of_neg (by simpa using old), recent, filter_eq_self.mpr]
    intro entry member
    rcases mem_cons.mp member with rfl | member
    · simpa using old
    · have later := before _ (mem_map_of_mem member)
      simp only [decide_eq_true_eq]
      omega

end Monhop.Library
