import Mathlib

/-! # A bounded list of items

Replacing the first item that passes a test, dropping the oldest items past a bound while some
of them are protected, and keeping the newest of the items met.  An item is loose when it may
be dropped.
-/

namespace Monhop.Library

open List
variable {Item : Type}

/-! ## Replacing one item -/

/-- The list with its first item that passes the test replaced. -/
def replaceFirst (test : Item → Bool) (new : Item) : List Item → List Item
  | [] => []
  | item :: rest => if test item then new :: rest else item :: replaceFirst test new rest

variable {items : List Item}

theorem mem_of_mem_replaceFirst {test : Item → Bool} {new item : Item}
    (member : item ∈ replaceFirst test new items) : item = new ∨ item ∈ items := by
  induction items with
  | nil => cases member
  | cons first rest ih =>
    unfold replaceFirst at member
    split at member
    · exact (mem_cons.mp member).imp_right (mem_cons_of_mem _)
    · cases mem_cons.mp member with
      | inl same => exact .inr (mem_cons.mpr (.inl same))
      | inr later => exact (ih later).imp_right (mem_cons_of_mem _)

/-- What the new item shares with every item it may replace stays as it was. -/
theorem map_replaceFirst {Key : Type} {key : Item → Key} {test : Item → Bool} {new : Item}
    (same : ∀ item ∈ items, test item = true → key item = key new) :
    (replaceFirst test new items).map key = items.map key := by
  induction items with
  | nil => rfl
  | cons first rest ih =>
    unfold replaceFirst
    split
    · next passes => rw [map_cons, map_cons, same first mem_cons_self passes]
    · rw [map_cons, map_cons, ih fun item member => same item (mem_cons_of_mem _ member)]

/-- Items with keys of their own and one key between them are at most one item. -/
theorem length_le_one_of_key {Key : Type} {key : Item → Key} {shared : Key}
    (distinct : (items.map key).Nodup) (same : ∀ item ∈ items, key item = shared) :
    items.length ≤ 1 := by
  have all : items.map key = List.replicate items.length shared := by
    rw [eq_replicate_iff, length_map]
    refine ⟨rfl, fun value member => ?_⟩
    obtain ⟨item, at_, rfl⟩ := mem_map.mp member
    exact same item at_
  rwa [all, nodup_replicate] at distinct

/-! ## Dropping past a bound -/

variable {Age : Type} [LinearOrder Age] {loose : Item → Bool} {age : Item → Age}
  {items left : List Item}

/-- The items without the oldest loose one; none when every item is protected. -/
def dropOldest (loose : Item → Bool) (age : Item → Age) (items : List Item) : Option (List Item) :=
  ((items.filter loose).argmin age).map fun oldest =>
    items.eraseP fun item => loose item && age item == age oldest

/-- Drops the oldest loose items, one a round, while there are more than `bound`. -/
def dropPastBound (bound : Nat) (loose : Item → Bool) (age : Item → Age) :
    Nat → List Item → List Item
  | 0, items => items
  | rounds + 1, items =>
    if items.length > bound then
      match dropOldest loose age items with
      | none => items
      | some left => dropPastBound bound loose age rounds left
    else items

/-- One loose item goes, and no loose item that stays is older. -/
theorem dropOldest_eq_some (dropped : dropOldest loose age items = some left) :
    ∃ gone ∈ items, loose gone = true ∧ (∀ item ∈ items, loose item = true → age gone ≤ age item) ∧
      left.Sublist items ∧ left.length + 1 = items.length ∧
      ∀ item ∈ items, loose item = false → item ∈ left := by
  unfold dropOldest at dropped
  obtain ⟨gone, least, rfl⟩ := Option.map_eq_some_iff.mp dropped
  obtain ⟨inside, isLoose⟩ := mem_filter.mp (argmin_mem least)
  refine ⟨gone, inside, isLoose, ?_, eraseP_sublist, ?_, ?_⟩
  · intro item at_ itemLoose
    exact le_of_mem_argmin (mem_filter.mpr ⟨at_, itemLoose⟩) least
  · have erased : (items.eraseP fun item => loose item && age item == age gone).length =
        items.length - 1 := length_eraseP_of_mem inside (by simp [isLoose])
    have positive := length_pos_of_mem inside
    omega
  · intro item at_ held
    exact (mem_eraseP_of_neg (by simp [held])).mpr at_

theorem dropOldest_eq_none (stuck : dropOldest loose age items = none) :
    ∀ item ∈ items, loose item = false := by
  intro item member
  by_contra isLoose
  have empty : items.filter loose = [] :=
    argmin_eq_none.mp (Option.map_eq_none_iff.mp stuck)
  have inside : item ∈ items.filter loose :=
    mem_filter.mpr ⟨member, by simpa using isLoose⟩
  rw [empty] at inside
  cases inside

variable {bound rounds : Nat}

theorem dropPastBound_sublist : (dropPastBound bound loose age rounds items).Sublist items := by
  induction rounds generalizing items with
  | zero => exact List.Sublist.refl _
  | succ rounds ih =>
    unfold dropPastBound
    split
    · split
      · exact List.Sublist.refl _
      · next left dropped =>
        obtain ⟨_, _, _, _, sublist, _⟩ := dropOldest_eq_some dropped
        exact ih.trans sublist
    · exact List.Sublist.refl _

theorem mem_dropPastBound {item : Item} (member : item ∈ items)
    (held : loose item = false) : item ∈ dropPastBound bound loose age rounds items := by
  induction rounds generalizing items with
  | zero => exact member
  | succ rounds ih =>
    unfold dropPastBound
    split
    · split
      · exact member
      · next left dropped =>
        obtain ⟨_, _, _, _, _, _, keeps⟩ := dropOldest_eq_some dropped
        exact ih (keeps item member held)
    · exact member

/-- As many rounds as there are items are enough, when the bound has room for the protected. -/
theorem length_dropPastBound_le (enough : items.length ≤ bound + rounds)
    (room : (items.filter fun item => !loose item).length ≤ bound) :
    (dropPastBound bound loose age rounds items).length ≤ bound := by
  induction rounds generalizing items with
  | zero => exact enough
  | succ rounds ih =>
    unfold dropPastBound
    split
    · next past =>
      split
      · next stuck =>
        have all : (items.filter fun item => !loose item) = items :=
          filter_eq_self.mpr fun item member => by simp [dropOldest_eq_none stuck item member]
        rw [all] at room
        exact room
      · next left dropped =>
        obtain ⟨_, _, _, _, sublist, shorter, _⟩ := dropOldest_eq_some dropped
        exact ih (by omega) (le_trans (sublist.filter _).length_le room)
    · next within => omega

/-! ## Keeping the newest -/

/-- The item met replaces the one held unless that one is newer. -/
def newest (age : Item → Age) : Option Item → Item → Item
  | none, met => met
  | some held, met => if age held ≤ age met then met else held

/-- The newest after a whole schedule: one that was met, no older than any other met, unless the
one held at the start was newer than all of them. -/
theorem foldl_newest (age : Item → Age) (held : Option Item) (schedule : List Item) :
    match schedule.foldl (fun held met => some (newest age held met)) held with
    | none => held = none ∧ schedule = []
    | some last => (∀ met ∈ schedule, age met ≤ age last) ∧
        (last ∈ schedule ∨ held = some last ∧ ∀ met ∈ schedule, age met < age last) := by
  induction schedule using List.reverseRecOn with
  | nil => cases held <;> simp
  | append_singleton schedule met ih =>
    rw [foldl_append, foldl_cons, foldl_nil]
    cases found : schedule.foldl (fun held met => some (newest age held met)) held with
    | none =>
      rw [found] at ih
      obtain ⟨_, rfl⟩ := ih
      simp [newest]
    | some last =>
      rw [found] at ih
      obtain ⟨greatest, origin⟩ := ih
      simp only [newest]
      split
      · next newer =>
        exact ⟨forall_mem_append.mpr
          ⟨fun other member => le_trans (greatest other member) newer,
            forall_mem_singleton.mpr le_rfl⟩, .inl (by simp)⟩
      · next older =>
        have below : age met < age last := not_le.mp older
        refine ⟨forall_mem_append.mpr ⟨greatest, forall_mem_singleton.mpr below.le⟩, ?_⟩
        exact origin.imp (mem_append_left _) fun ⟨start, all⟩ =>
          ⟨start, forall_mem_append.mpr ⟨all, forall_mem_singleton.mpr below⟩⟩

end Monhop.Library
