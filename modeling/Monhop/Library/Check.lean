import Mathlib

/-! # Checks that fail with an error

A check is a computation in `Except`: it passes or names what is wrong.  The lemmas say when
a check made of parts passes.
-/

namespace Monhop.Library

open List
variable {Error Value Result : Type}

/-- Passes when the condition holds. -/
def ensure (condition : Bool) (error : Error) : Except Error Unit :=
  if condition then .ok () else .error error

@[simp] theorem ensure_eq_ok {condition : Bool} {error : Error} {result : Unit} :
    ensure condition error = .ok result ↔ condition = true := by
  cases condition <;> simp [ensure]

theorem bind_eq_ok {check : Except Error Value} {next : Value → Except Error Result}
    {result : Result} :
    (check >>= next) = .ok result ↔ ∃ value, check = .ok value ∧ next value = .ok result := by
  cases check with
  | error error => exact ⟨nofun, fun ⟨_, passed, _⟩ => nomatch passed⟩
  | ok value =>
    constructor
    · exact fun passed => ⟨value, rfl, passed⟩
    · rintro ⟨_, same, passed⟩
      cases same
      exact passed

variable {items : List Value}

/-- A check of every item passes when each does. -/
theorem forM_eq_ok {check : Value → Except Error Unit} {result : Unit} :
    forM items check = .ok result ↔ ∀ item ∈ items, check item = .ok () := by
  induction items with
  | nil => exact ⟨fun _ => nofun, fun _ => rfl⟩
  | cons item items ih =>
    rw [forM_cons, bind_eq_ok]
    constructor
    · rintro ⟨_, passed, rest⟩ other member
      cases mem_cons.mp member with
      | inl same => rw [same, passed]
      | inr later => exact ih.mp rest other later
    · intro all
      exact ⟨(), all item mem_cons_self,
        ih.mpr fun other member => all other (mem_cons_of_mem _ member)⟩

theorem mapM_eq_ok {parse : Value → Except Error Result} {results : List Result} :
    items.mapM parse = .ok results ↔
      List.Forall₂ (fun item result => parse item = .ok result) items results := by
  induction items generalizing results with
  | nil =>
    constructor
    · rintro (_ | _)
      exact .nil
    · rintro ⟨⟩
      rfl
  | cons item items ih =>
    rw [mapM_cons, bind_eq_ok]
    constructor
    · rintro ⟨value, passed, rest⟩
      obtain ⟨values, others, last⟩ := bind_eq_ok.mp rest
      cases last
      exact .cons passed (ih.mp others)
    · rintro (_ | ⟨passed, rest⟩)
      exact ⟨_, passed, bind_eq_ok.mpr ⟨_, ih.mpr rest, rfl⟩⟩

/-- Lists map to one list exactly when they match item by item. -/
theorem map_eq_map_iff_forall₂ {Item Other : Type} {change : Item → Other}
    {first second : List Item} :
    first.map change = second.map change ↔
      List.Forall₂ (fun item other => change item = change other) first second := by
  rw [← forall₂_eq_eq_eq, forall₂_map_left_iff, forall₂_map_right_iff]

theorem exists_of_mapM_left {parse : Value → Except Error Result}
    {results : List Result} (passed : items.mapM parse = .ok results) {item : Value}
    (member : item ∈ items) : ∃ result ∈ results, parse item = .ok result := by
  induction mapM_eq_ok.mp passed with
  | nil => cases member
  | cons head tail ih =>
    cases mem_cons.mp member with
    | inl same => exact ⟨_, mem_cons_self, same ▸ head⟩
    | inr later =>
      obtain ⟨result, at_, read⟩ := ih (mapM_eq_ok.mpr tail) later
      exact ⟨result, mem_cons_of_mem _ at_, read⟩

/-- A loop that collects the names used: every name is fresh exactly when no name is taken and
no two items share one. -/
theorem forall_fresh_cons {Item Name : Type} {name : Item → Name} {good : Item → Prop}
    {used : List Name} {item : Item} {rest : List Item} :
    ((∀ other ∈ item :: rest, good other ∧ name other ∉ used) ∧
        ((item :: rest).map name).Nodup) ↔
      (good item ∧ name item ∉ used) ∧
        (∀ other ∈ rest, good other ∧ name other ∉ used ++ [name item]) ∧
        (rest.map name).Nodup := by
  simp only [forall_mem_cons, map_cons, nodup_cons, mem_append,
    mem_singleton, mem_map, not_or, not_exists, not_and]
  constructor
  · rintro ⟨⟨first, others⟩, apart, distinct⟩
    exact ⟨first, fun other member => ⟨(others other member).1, (others other member).2,
      apart other member⟩, distinct⟩
  · rintro ⟨first, others, distinct⟩
    exact ⟨⟨first, fun other member => ⟨(others other member).1, (others other member).2.1⟩⟩,
      fun other member => (others other member).2.2, distinct⟩

end Monhop.Library
