import Monhop.Setup.Layout

/-! # Which display is which

Displays remembered from earlier are paired with those shown now: by the monitor's identity where
each list reports it for exactly one display, otherwise by id.  `Named` and `Numbered` say when
two displays are paired by the one or the other, in terms that do not change when the two lists
are swapped or reordered; `mem_pairDisplays` says that the two passes pair exactly those.
-/

namespace Monhop.Setup

open List Option
variable {F : Type}

/-- The monitor's identity when the list reports it for exactly one display. -/
def usableMonitor (display : DisplaySnapshot F) (displays : List (DisplaySnapshot F)) :
    Option Text :=
  display.monitor.filter fun key =>
    (displays.filter fun other => other.monitor == some key).length == 1

section
variable (remembered live : List (DisplaySnapshot F))

/-- The live display with the same identity, where both lists report it for one display. -/
def byMonitor (display : DisplaySnapshot F) : Option (DisplaySnapshot F) :=
  (usableMonitor display remembered).bind fun key =>
    live.find? fun candidate => usableMonitor candidate live == some key

/-- Two displays that report different identities never pair by id. -/
def compatible (display candidate : DisplaySnapshot F) : Bool :=
  display.monitor.isNone || candidate.monitor.isNone || display.monitor == candidate.monitor

/-- The live display with the same id, unless it is taken or reports another identity. -/
def byId (pairs : List (DisplaySnapshot F × DisplaySnapshot F))
    (display : DisplaySnapshot F) : Option (DisplaySnapshot F) :=
  live.find? fun candidate =>
    candidate.id == display.id && !(pairs.any fun pair => pair.2.id == candidate.id) &&
      compatible display candidate

/-- One display of the second pass. -/
def pairById (pairs : List (DisplaySnapshot F × DisplaySnapshot F)) (display : DisplaySnapshot F) :
    List (DisplaySnapshot F × DisplaySnapshot F) :=
  if (byMonitor remembered live display).isSome then pairs
  else pairs ++ ((byId live pairs display).map fun candidate => (display, candidate)).toList

/-- The pairs of the first pass. -/
def identified : List (DisplaySnapshot F × DisplaySnapshot F) :=
  remembered.filterMap fun display =>
    (byMonitor remembered live display).map fun candidate => (display, candidate)

/-- Pairs remembered displays with the live ones that are the same monitor. -/
def pairDisplays : List (DisplaySnapshot F × DisplaySnapshot F) :=
  remembered.foldl (pairById remembered live) (identified remembered live)

end

variable {remembered live : List (DisplaySnapshot F)} {display candidate : DisplaySnapshot F}

/-! ## By identity -/

/-- The list reports the identity for one display only. -/
def ReportedOnce (displays : List (DisplaySnapshot F)) (key : Text) : Prop :=
  (displays.filter fun other => other.monitor == some key).length = 1

/-- The two displays report an identity that each list reports once. -/
def Named (remembered live : List (DisplaySnapshot F)) (display candidate : DisplaySnapshot F) :
    Prop :=
  display ∈ remembered ∧ candidate ∈ live ∧ ∃ key,
    usableMonitor display remembered = some key ∧ usableMonitor candidate live = some key

theorem usableMonitor_eq_some {displays : List (DisplaySnapshot F)} {key : Text} :
    usableMonitor display displays = some key ↔
      display.monitor = some key ∧ ReportedOnce displays key := by
  simp [usableMonitor, ReportedOnce, filter_eq_some_iff]

theorem ReportedOnce.unique {displays : List (DisplaySnapshot F)} {key : Text}
    (once : ReportedOnce displays key) {first second : DisplaySnapshot F}
    (firstIn : first ∈ displays) (secondIn : second ∈ displays) (firstKey : first.monitor = some key)
    (secondKey : second.monitor = some key) : first = second := by
  obtain ⟨only, kept⟩ := length_eq_one_iff.mp once
  have named : ∀ {shown}, shown ∈ displays → shown.monitor = some key → shown = only := by
    intro shown member reports
    have found : shown ∈ displays.filter fun other => other.monitor == some key :=
      mem_filter.mpr ⟨member, by simp [reports]⟩
    rw [kept] at found
    exact mem_singleton.mp found
  exact (named firstIn firstKey).trans (named secondIn secondKey).symm

theorem Named.swap (named : Named remembered live display candidate) :
    Named live remembered candidate display :=
  have ⟨shown, found, key, first, second⟩ := named
  ⟨found, shown, key, second, first⟩

variable {other : DisplaySnapshot F}

theorem Named.unique (named : Named remembered live display candidate)
    (again : Named remembered live display other) : candidate = other := by
  obtain ⟨-, found, key, reports, own⟩ := named
  obtain ⟨-, otherFound, otherKey, otherReports, otherOwn⟩ := again
  cases reports.symm.trans otherReports
  rw [usableMonitor_eq_some] at own otherOwn
  exact own.2.unique found otherFound own.1 otherOwn.1

theorem find?_eq_some_of_unique {Value : Type} {values : List Value} {passes : Value → Bool}
    (unique : ∀ first ∈ values, ∀ second ∈ values, passes first = true → passes second = true →
      first = second) {value : Value} :
    values.find? passes = some value ↔ value ∈ values ∧ passes value = true := by
  constructor
  · intro found
    exact ⟨mem_of_find?_eq_some found, find?_some found⟩
  rintro ⟨member, passed⟩
  cases found : values.find? passes with
  | none => exact absurd passed (find?_eq_none.mp found value member)
  | some other =>
    rw [unique other (mem_of_find?_eq_some found) value member (find?_some found) passed]

theorem byMonitor_eq_some (shown : display ∈ remembered) :
    byMonitor remembered live display = some candidate ↔ Named remembered live display candidate := by
  rw [byMonitor, bind_eq_some_iff, Named]
  simp only [shown, true_and]
  have found {key : Text} :
      (live.find? fun candidate => usableMonitor candidate live == some key) = some candidate ↔
        candidate ∈ live ∧ usableMonitor candidate live = some key := by
    rw [find?_eq_some_of_unique, beq_iff_eq]
    intro first firstIn second secondIn own other
    rw [beq_iff_eq, usableMonitor_eq_some] at own other
    exact own.2.unique firstIn secondIn own.1 other.1
  simp only [found]
  constructor
  · rintro ⟨key, reports, member, own⟩
    exact ⟨member, key, reports, own⟩
  · rintro ⟨member, key, reports, own⟩
    exact ⟨key, reports, member, own⟩

theorem mem_identified :
    (display, candidate) ∈ identified remembered live ↔ Named remembered live display candidate := by
  simp only [identified, mem_filterMap, map_eq_some_iff, Prod.mk.injEq]
  constructor
  · rintro ⟨_, shown, _, found, rfl, rfl⟩
    exact (byMonitor_eq_some shown).mp found
  · intro named
    exact ⟨display, named.1, candidate, (byMonitor_eq_some named.1).mpr named, rfl, rfl⟩

/-! ## By id -/

/-- The two displays have one id, no namesakes and no different identities. -/
def Numbered (remembered live : List (DisplaySnapshot F)) (display candidate : DisplaySnapshot F) :
    Prop :=
  display ∈ remembered ∧ candidate ∈ live ∧ display.id = candidate.id ∧
    compatible display candidate = true ∧ (∀ other, ¬Named remembered live display other) ∧
    ∀ other, ¬Named remembered live other candidate

theorem compatible_comm : compatible display candidate = compatible candidate display := by
  unfold compatible
  rw [Bool.or_comm display.monitor.isNone, Bool.beq_comm]

theorem Numbered.swap (numbered : Numbered remembered live display candidate) :
    Numbered live remembered candidate display :=
  have ⟨shown, found, same, agrees, free, untaken⟩ := numbered
  ⟨found, shown, same.symm, compatible_comm.trans agrees, fun other named => untaken other named.swap,
    fun other named => free other named.swap⟩

variable (distinct : (remembered.map (·.id)).Nodup) (apart : (live.map (·.id)).Nodup)
include distinct in
theorem eq_of_id (shown : display ∈ remembered)
    (otherShown : other ∈ remembered) (same : display.id = other.id) : display = other :=
  inj_on_of_nodup_map distinct shown otherShown same

/-- What the second pass adds for one display, given only what the first pass took. -/
def numbered? (remembered live : List (DisplaySnapshot F)) (display : DisplaySnapshot F) :
    Option (DisplaySnapshot F × DisplaySnapshot F) :=
  if (byMonitor remembered live display).isSome then none
  else (byId live (identified remembered live) display).map fun candidate => (display, candidate)

/-- Displays of different ids do not compete in the second pass. -/
theorem foldl_pairById {rest : List (DisplaySnapshot F)} (restDistinct : (rest.map (·.id)).Nodup)
    {more : List (DisplaySnapshot F × DisplaySnapshot F)}
    (behind : ∀ pair ∈ more, pair.2.id ∉ rest.map (·.id)) :
    rest.foldl (pairById remembered live) (identified remembered live ++ more) =
      identified remembered live ++ more ++ rest.filterMap (numbered? remembered live) := by
  induction rest generalizing more with
  | nil => simp
  | cons first rest ih =>
    rw [map_cons, nodup_cons] at restDistinct
    have own : byId live (identified remembered live ++ more) first =
        byId live (identified remembered live) first := by
      unfold byId
      congr 1
      funext candidate
      by_cases same : candidate.id = first.id
      · have untaken : (more.any fun pair => pair.2.id == candidate.id) = false := by
          simp only [List.any_eq_false, beq_iff_eq]
          intro pair member taken
          exact behind pair member (by simp [taken, same])
        simp [any_append, untaken]
      · rw [beq_eq_false_iff_ne.mpr same, Bool.false_and, Bool.false_and, Bool.false_and,
          Bool.false_and]
    have later : ∀ pair ∈ more, pair.2.id ∉ rest.map (·.id) := fun pair member inside =>
      behind pair member (mem_cons_of_mem _ inside)
    rw [foldl_cons, filterMap_cons, pairById, numbered?, own]
    split
    · exact ih restDistinct.2 later
    cases found : byId live (identified remembered live) first with
    | none => simpa using ih restDistinct.2 later
    | some candidate =>
      have same : candidate.id = first.id := by
        have passed := find?_some found
        simp only [Bool.and_eq_true, beq_iff_eq] at passed
        exact passed.1.1
      have both : ∀ pair ∈ more ++ [(first, candidate)], pair.2.id ∉ rest.map (·.id) :=
        forall_mem_append.mpr ⟨later, forall_mem_singleton.mpr (same ▸ restDistinct.1)⟩
      simpa using ih restDistinct.2 both

include distinct in
theorem pairDisplays_eq :
    pairDisplays remembered live =
      identified remembered live ++ remembered.filterMap (numbered? remembered live) := by
  have pairs := @foldl_pairById F remembered live remembered distinct [] (by simp)
  simpa [pairDisplays] using pairs

include apart in
/-- The first pass took a live display exactly where it has a namesake. -/
theorem any_identified (found : candidate ∈ live) :
    ((identified remembered live).any fun pair => pair.2.id == candidate.id) = true ↔
      ∃ other, Named remembered live other candidate := by
  simp only [List.any_eq_true, beq_iff_eq, Prod.exists, mem_identified]
  constructor
  · rintro ⟨other, taken, named, same⟩
    exact ⟨other, eq_of_id apart named.2.1 found same ▸ named⟩
  · rintro ⟨other, named⟩
    exact ⟨other, candidate, named, rfl⟩

include apart in
theorem numbered?_eq_some {pair : DisplaySnapshot F × DisplaySnapshot F}
    (shown : display ∈ remembered) :
    numbered? remembered live display = some pair ↔
      pair.1 = display ∧ Numbered remembered live display pair.2 := by
  have nameless : (byMonitor remembered live display).isSome = true ↔
      ∃ other, Named remembered live display other := by
    rw [isSome_iff_exists]
    exact exists_congr fun other => byMonitor_eq_some shown
  have found : byId live (identified remembered live) display = some pair.2 ↔
      pair.2 ∈ live ∧ display.id = pair.2.id ∧ compatible display pair.2 = true ∧
        ∀ other, ¬Named remembered live other pair.2 := by
    rw [byId, find?_eq_some_of_unique]
    · refine and_congr_right fun member => ?_
      rw [Bool.and_eq_true, Bool.and_eq_true, beq_iff_eq, Bool.not_eq_true', Bool.eq_false_iff,
        Ne, any_identified apart member, not_exists, and_assoc, eq_comm]
      exact and_congr_right fun _ => and_comm
    · intro first firstIn second secondIn own other
      simp only [Bool.and_eq_true, beq_iff_eq] at own other
      exact eq_of_id apart firstIn secondIn (own.1.1.trans other.1.1.symm)
  obtain ⟨first, second⟩ := pair
  unfold numbered? Numbered
  by_cases named : ∃ other, Named remembered live display other
  · rw [if_pos (nameless.mpr named)]
    obtain ⟨other, named⟩ := named
    simp only [reduceCtorEq, false_iff]
    exact fun ⟨_, _, _, _, _, free, _⟩ => free other named
  · rw [if_neg (mt nameless.mp named), map_eq_some_iff]
    simp only [Prod.mk.injEq, exists_eq_right_right, found, shown, not_exists.mp named, true_and,
      not_false_eq_true, implies_true]
    tauto

include distinct apart in
/-- The two passes pair the displays that are paired by identity or by id. -/
theorem mem_pairDisplays :
    (display, candidate) ∈ pairDisplays remembered live ↔
      Named remembered live display candidate ∨ Numbered remembered live display candidate := by
  rw [pairDisplays_eq distinct, mem_append, mem_identified, mem_filterMap]
  refine or_congr_right ⟨?_, fun numbered => ?_⟩
  · rintro ⟨first, shown, made⟩
    obtain ⟨rfl, numbered⟩ := (numbered?_eq_some apart shown).mp made
    exact numbered
  · exact ⟨display, numbered.1, (numbered?_eq_some apart numbered.1).mpr ⟨rfl, numbered⟩⟩

/-! ## The matching -/

theorem fst_of_numbered? {pair : DisplaySnapshot F × DisplaySnapshot F}
    (made : numbered? remembered live display = some pair) : pair.1 = display := by
  unfold numbered? at made
  split at made
  · cases made
  · obtain ⟨_, -, rfl⟩ := map_eq_some_iff.mp made
    rfl

include distinct apart in
theorem nodup_pairDisplays : (pairDisplays remembered live).Nodup := by
  rw [pairDisplays_eq distinct, nodup_append]
  refine ⟨distinct.of_map.filterMap ?_, distinct.of_map.filterMap ?_, ?_⟩
  · intro first second pair firstMade secondMade
    obtain ⟨_, -, rfl⟩ := map_eq_some_iff.mp firstMade
    obtain ⟨_, -, same⟩ := map_eq_some_iff.mp secondMade
    exact (congrArg Prod.fst same).symm
  · intro first second pair firstMade secondMade
    exact (fst_of_numbered? firstMade).symm.trans (fst_of_numbered? secondMade)
  · rintro ⟨display, candidate⟩ named other numbered rfl
    obtain ⟨first, shown, made⟩ := mem_filterMap.mp numbered
    obtain ⟨rfl, _, _, _, _, free, _⟩ := (numbered?_eq_some apart shown).mp made
    exact free candidate (mem_identified.mp named)

include apart in
theorem eq_of_paired
    (paired : Named remembered live display candidate ∨ Numbered remembered live display candidate)
    (again : Named remembered live display other ∨ Numbered remembered live display other) :
    candidate = other := by
  rcases paired with named | numbered
  · rcases again with otherNamed | otherNumbered
    · exact named.unique otherNamed
    · exact absurd named (otherNumbered.2.2.2.2.1 candidate)
  · rcases again with otherNamed | otherNumbered
    · exact absurd otherNamed (numbered.2.2.2.2.1 other)
    · exact eq_of_id apart numbered.2.1 otherNumbered.2.1
        (numbered.2.2.1.symm.trans otherNumbered.2.2.1)

theorem usableMonitor_perm {first second : List (DisplaySnapshot F)} (same : first.Perm second) :
    usableMonitor display first = usableMonitor display second := by
  unfold usableMonitor
  simp only [(same.filter _).length_eq]

include distinct apart in
theorem pairDisplays_perm {first second : List (DisplaySnapshot F)}
    (sameRemembered : first.Perm remembered) (sameLive : second.Perm live) :
    (pairDisplays first second).Perm (pairDisplays remembered live) := by
  have firstDistinct := (sameRemembered.map (·.id)).nodup_iff.mpr distinct
  have secondApart := (sameLive.map (·.id)).nodup_iff.mpr apart
  refine (List.perm_ext_iff_of_nodup (nodup_pairDisplays firstDistinct secondApart)
    (nodup_pairDisplays distinct apart)).mpr ?_
  rintro ⟨display, candidate⟩
  simp only [mem_pairDisplays firstDistinct secondApart, mem_pairDisplays distinct apart, Named,
    Numbered, usableMonitor_perm sameRemembered, usableMonitor_perm sameLive,
    sameRemembered.mem_iff, sameLive.mem_iff]

include distinct apart in
theorem pairDisplays_swap :
    (pairDisplays live remembered).Perm ((pairDisplays remembered live).map Prod.swap) := by
  refine (List.perm_ext_iff_of_nodup (nodup_pairDisplays apart distinct)
    ((nodup_pairDisplays distinct apart).map Prod.swap_injective)).mpr ?_
  rintro ⟨candidate, display⟩
  rw [← Prod.swap_prod_mk, List.mem_map_of_injective Prod.swap_injective, Prod.swap_prod_mk,
    mem_pairDisplays apart distinct, mem_pairDisplays distinct apart]
  exact or_congr ⟨Named.swap, Named.swap⟩ ⟨Numbered.swap, Numbered.swap⟩

/-- Pairing is a one-to-one matching of the two lists that the order of neither changes, the
converse when they are swapped; it joins no different identities and every namesake. -/
theorem pairing_is_symmetric (distinct : (remembered.map (·.id)).Nodup)
    (apart : (live.map (·.id)).Nodup) :
    (pairDisplays remembered live).Nodup ∧
      (∀ pair ∈ pairDisplays remembered live, pair.1 ∈ remembered ∧ pair.2 ∈ live) ∧
      (∀ first ∈ pairDisplays remembered live, ∀ second ∈ pairDisplays remembered live,
        first.1 = second.1 ↔ first.2 = second.2) ∧
      (∀ first second, first.Perm remembered → second.Perm live →
        (pairDisplays first second).Perm (pairDisplays remembered live)) ∧
      (pairDisplays live remembered).Perm ((pairDisplays remembered live).map Prod.swap) ∧
      (∀ pair ∈ pairDisplays remembered live, ∀ first second, pair.1.monitor = some first →
        pair.2.monitor = some second → first = second) ∧
      ∀ before ∈ remembered, ∀ after ∈ live, ∀ key, before.monitor = some key →
        after.monitor = some key → ReportedOnce remembered key → ReportedOnce live key →
        (before, after) ∈ pairDisplays remembered live := by
  have paired {pair : DisplaySnapshot F × DisplaySnapshot F}
      (member : pair ∈ pairDisplays remembered live) :=
    (mem_pairDisplays distinct apart).mp member
  refine ⟨nodup_pairDisplays distinct apart, ?_, ?_, fun _ _ => pairDisplays_perm distinct apart,
    pairDisplays_swap distinct apart, ?_, ?_⟩
  · intro pair member
    exact (paired member).elim (fun named => ⟨named.1, named.2.1⟩)
      fun numbered => ⟨numbered.1, numbered.2.1⟩
  · rintro ⟨display, candidate⟩ first ⟨other, second⟩ again
    constructor
    · rintro rfl
      exact eq_of_paired apart (paired first) (paired again)
    · rintro rfl
      exact eq_of_paired distinct ((paired first).imp Named.swap Numbered.swap)
        ((paired again).imp Named.swap Numbered.swap)
  · rintro ⟨display, candidate⟩ member first second (own : display.monitor = _)
      (reported : candidate.monitor = _)
    rcases paired member with ⟨-, -, key, named, namesake⟩ | numbered
    · rw [usableMonitor_eq_some] at named namesake
      cases own.symm.trans named.1
      cases reported.symm.trans namesake.1
      rfl
    · have agrees := numbered.2.2.2.1
      simpa [compatible, own, reported] using agrees
  · intro before shown after found key own reported once onceLive
    refine (mem_pairDisplays distinct apart).mpr (.inl ⟨shown, found, key, ?_, ?_⟩)
    · exact usableMonitor_eq_some.mpr ⟨own, once⟩
    · exact usableMonitor_eq_some.mpr ⟨reported, onceLive⟩

namespace PairingRun

def screen (id : Text) (monitor : Option Text) : DisplaySnapshot Int :=
  { id, name := [], origin := ⟨0, 0⟩, size := ⟨1, 1⟩, nativeSize := ⟨1, 1⟩, scale := ⟨0⟩
    primary := false, monitor }

/-- Two monitors swapped their ids; a third lost its identity. -/
def before : List (DisplaySnapshot Int) :=
  [screen ['1'] (some ['a']), screen ['2'] (some ['b']), screen ['3'] (some ['c'])]

def after : List (DisplaySnapshot Int) :=
  [screen ['1'] (some ['b']), screen ['2'] (some ['a']), screen ['3'] none]

/-- Each swapped monitor is found under its new id, the third by its old one. -/
theorem pairing_is_symmetric_swapped :
    pairDisplays before after =
        [(screen ['1'] (some ['a']), screen ['2'] (some ['a'])),
          (screen ['2'] (some ['b']), screen ['1'] (some ['b'])),
          (screen ['3'] (some ['c']), screen ['3'] none)] ∧
      (pairDisplays after before).Perm ((pairDisplays before after).map Prod.swap) :=
  ⟨by decide, (pairing_is_symmetric (by decide) (by decide)).2.2.2.2.1⟩

end PairingRun
end Monhop.Setup
