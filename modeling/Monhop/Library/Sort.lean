import Mathlib

/-! # Sorting by a key

A list sorted by a key, equal keys in the order they had.  Where a key tells the items
apart, the sorted list is the same for every order of the items: it stands for the
collection itself.
-/

namespace Monhop.Library

variable {Item Key : Type} [LinearOrder Key] {key : Item → Key} {items others : List Item}

/-- The items in order of their keys; items of one key keep their order. -/
def sortBy (key : Item → Key) (items : List Item) : List Item :=
  items.insertionSort fun first second => key first ≤ key second

instance total_key (key : Item → Key) : Std.Total fun first second : Item => key first ≤ key second :=
  ⟨fun first second => le_total (key first) (key second)⟩

instance trans_key (key : Item → Key) : IsTrans Item fun first second => key first ≤ key second :=
  ⟨fun _ _ _ => le_trans⟩

theorem sortBy_perm (key : Item → Key) (items : List Item) : (sortBy key items).Perm items :=
  List.perm_insertionSort _ items

@[simp] theorem mem_sortBy {item : Item} : item ∈ sortBy key items ↔ item ∈ items :=
  (sortBy_perm key items).mem_iff

@[simp] theorem length_sortBy (key : Item → Key) (items : List Item) :
    (sortBy key items).length = items.length :=
  (sortBy_perm key items).length_eq

theorem sortBy_sorted : (sortBy key items).Pairwise fun first second => key first ≤ key second :=
  List.pairwise_insertionSort _ items

theorem sortBy_eq_self (sorted : items.Pairwise fun first second => key first ≤ key second) :
    sortBy key items = items :=
  List.Pairwise.insertionSort_eq sorted

/-- The keys tell the items apart. -/
def KeyedBy (key : Item → Key) (items : List Item) : Prop :=
  ∀ first ∈ items, ∀ second ∈ items, key first = key second → first = second

/-- One collection, listed in two orders, sorts to one list. -/
theorem sortBy_eq_of_perm (keyed : KeyedBy key items) (same : items.Perm others) :
    sortBy key items = sortBy key others := by
  refine ((sortBy_perm key items).trans (same.trans (sortBy_perm key others).symm)).eq_of_pairwise
    ?_ sortBy_sorted sortBy_sorted
  intro first second firstMember secondMember le ge
  exact keyed first (mem_sortBy.mp firstMember) second
    (same.mem_iff.mpr (mem_sortBy.mp secondMember)) (le_antisymm le ge)

theorem perm_of_sortBy_eq (same : sortBy key items = sortBy key others) : items.Perm others :=
  (sortBy_perm key items).symm.trans (same ▸ sortBy_perm key others)

/-- Where distinct items are told apart by the key, sorting identifies exactly the reorderings. -/
theorem sortBy_eq_iff (keyed : KeyedBy key items) :
    sortBy key items = sortBy key others ↔ items.Perm others :=
  ⟨perm_of_sortBy_eq, sortBy_eq_of_perm keyed⟩

theorem sortBy_map {Other : Type} {change : Item → Other} {otherKey : Other → Key}
    (kept : ∀ item, otherKey (change item) = key item) :
    (sortBy key items).map change = sortBy otherKey (items.map change) := by
  exact List.map_insertionSort _ _ change items fun first _ second _ => by simp [kept]

theorem sortBy_strict (distinct : (items.map key).Nodup) :
    (sortBy key items).Pairwise fun first second => key first < key second := by
  have apart : ((sortBy key items).map key).Nodup :=
    ((sortBy_perm key items).map key).nodup_iff.mpr distinct
  have different : (sortBy key items).Pairwise fun first second => key first ≠ key second :=
    List.pairwise_map.mp apart
  exact (sortBy_sorted.and different).imp fun both => lt_of_le_of_ne both.1 both.2

end Monhop.Library
