import Std.Data.ExtTreeMap
import Std.Data.ExtTreeSet
import Mathlib.Order.Basic

/-!
# Ordered maps

Facts about ordered maps over arbitrary keys: orders given by an injective key,
pairs in lexicographic order, and what a scan of the entries of a map finds.
-/

set_option autoImplicit false

namespace Famp.Data

open Std

instance pairOrd {α β : Type} [Ord α] [Ord β] : Ord (α × β) := lexOrd

theorem compareOn_lawfulEq {α κ : Type} [Ord κ] [LawfulEqOrd κ] {key : α → κ}
    (injective : Function.Injective key) : LawfulEqCmp (compareOn key) where
  compare_self {a} := compare_self (a := key a)
  eq_of_compare same := injective (Std.compare_eq_iff_eq.mp same)

/-! ## Lookups by equality of keys -/

section Lookup
variable {κ ν : Type} [Ord κ] [TransOrd κ] [LawfulEqOrd κ] [DecidableEq κ]

theorem lookup_insert (map : ExtTreeMap κ ν) (key other : κ) (value : ν) :
    (map.insert key value)[other]? = if key = other then some value else map[other]? := by
  simp only [ExtTreeMap.getElem?_insert, Std.compare_eq_iff_eq]

theorem lookup_erase (map : ExtTreeMap κ ν) (key other : κ) :
    (map.erase key)[other]? = if key = other then none else map[other]? := by
  simp only [ExtTreeMap.getElem?_erase, Std.compare_eq_iff_eq]

theorem lookup_modify (map : ExtTreeMap κ ν) (key other : κ) (change : ν → ν) :
    (map.modify key change)[other]? =
      if key = other then map[other]?.map change else map[other]? := by
  simp only [ExtTreeMap.getElem?_modify, Std.compare_eq_iff_eq]
  by_cases same : key = other
  · rw [if_pos same, if_pos same, same]
  · rw [if_neg same, if_neg same]

theorem getD_insert (map : ExtTreeMap κ ν) (key other : κ) (value default : ν) :
    (map.insert key value).getD other default = if key = other then value else map.getD other default := by
  rw [ExtTreeMap.getD_eq_getD_getElem?, ExtTreeMap.getD_eq_getD_getElem?, lookup_insert]
  split <;> rfl

omit [DecidableEq κ] in
/-- A change of all values, where those that it makes the default are taken out. -/
theorem getD_map_filter (map : ExtTreeMap κ ν) (key : κ) {change : ν → ν} {keep : ν → Bool} {default : ν}
    (dropped : ∀ value, keep value = false → value = default) (fixed : change default = default) :
    ((map.map fun _ value => change value).filter fun _ value => keep value).getD key default =
      change (map.getD key default) := by
  rw [ExtTreeMap.getD_eq_getD_getElem?, ExtTreeMap.getD_eq_getD_getElem?, ExtTreeMap.getElem?_filter',
    ExtTreeMap.getElem?_map]
  cases map[key]? with
  | none => exact fixed.symm
  | some value =>
    cases kept : keep (change value) with
    | false =>
      have gone := dropped _ kept
      rw [Option.map_some, Option.filter, kept]
      exact gone.symm
    | true => simp [Option.filter, kept]

omit [LawfulEqOrd κ] [DecidableEq κ] in
theorem mem_iff_lookup (map : ExtTreeMap κ ν) (key : κ) :
    key ∈ map ↔ ∃ value, map[key]? = some value := by
  rw [ExtTreeMap.mem_iff_isSome_getElem?, Option.isSome_iff_exists]

omit [DecidableEq κ] in
theorem mem_set_insert (set : ExtTreeSet κ) (key other : κ) :
    other ∈ set.insert key ↔ key = other ∨ other ∈ set := by
  rw [ExtTreeSet.mem_insert, Std.compare_eq_iff_eq]

omit [DecidableEq κ] in
theorem mem_set_erase (set : ExtTreeSet κ) (key other : κ) :
    other ∈ set.erase key ↔ key ≠ other ∧ other ∈ set := by
  rw [ExtTreeSet.mem_erase, ne_eq, Std.compare_eq_iff_eq]

end Lookup

/-! ## Scans of the entries -/

section Scan
variable {κ ν : Type} [Ord κ] [TransOrd κ] [LawfulEqOrd κ]

theorem mem_toList_iff (map : ExtTreeMap κ ν) (key : κ) (value : ν) :
    (key, value) ∈ map.toList ↔ map[key]? = some value :=
  ExtTreeMap.mem_toList_iff_getElem?_eq_some

variable {map : ExtTreeMap κ ν} {test : κ → ν → Bool} {key : κ}

/-- The entries of a map that holds the entries of another whose keys are kept. -/
theorem toList_eq_filter {kept : ExtTreeMap κ ν} (keep : κ → Bool)
    (lookups : ∀ key, kept[key]? = if keep key then map[key]? else none) :
    kept.toList = map.toList.filter fun entry => keep entry.1 := by
  have nodup : ∀ {entries : List (κ × ν)},
      entries.Pairwise (fun a b => compare a.1 b.1 = .lt) → entries.Nodup := by
    intro entries ordered
    refine ordered.imp ?_
    rintro a b before rfl
    rw [Std.compare_eq_iff_eq.mpr rfl] at before
    cases before
  have sorted : kept.toList.Pairwise fun a b => compare a.1 b.1 = .lt :=
    ExtTreeMap.ordered_keys_toList
  have filtered : (map.toList.filter fun entry => keep entry.1).Pairwise
      fun a b => compare a.1 b.1 = .lt := ExtTreeMap.ordered_keys_toList.filter _
  refine List.Perm.eq_of_pairwise ?_ sorted filtered ?_
  · intro a b _ _ before after
    have swapped : compare b.1 a.1 = (compare a.1 b.1).swap := Std.OrientedCmp.eq_swap
    rw [swapped, before] at after
    cases after
  · refine (List.perm_ext_iff_of_nodup (nodup sorted) (nodup filtered)).mpr ?_
    rintro ⟨key, value⟩
    rw [mem_toList_iff, lookups, List.mem_filter, mem_toList_iff]
    cases keep key <;> simp

/-- What is gathered from the entries depends on what each key shows of its entry. -/
theorem filterMap_toList_congr {γ : Type} {other : ExtTreeMap κ ν} {view : κ → ν → Option γ}
    (agree : ∀ key, (map[key]?).bind (view key) = (other[key]?).bind (view key)) :
    (map.toList.filterMap fun entry => view entry.1 entry.2) =
      other.toList.filterMap fun entry => view entry.1 entry.2 := by
  have gathered : ∀ map : ExtTreeMap κ ν,
      (map.toList.filterMap fun entry => view entry.1 entry.2) =
        (map.filterMap view).toList.map Prod.snd := by
    intro map
    rw [ExtTreeMap.toList_filterMap, List.map_filterMap]
    congr 1
    funext entry
    cases view entry.1 entry.2 <;> rfl
  have same : map.filterMap view = other.filterMap view := by
    refine ExtTreeMap.ext_getElem? fun key => ?_
    rw [ExtTreeMap.getElem?_filterMap', ExtTreeMap.getElem?_filterMap']
    exact agree key
  rw [gathered, gathered, same]

theorem any_toList_iff (map : ExtTreeMap κ ν) (test : κ → ν → Bool) :
    (map.toList.any fun entry => test entry.1 entry.2) = true ↔
      ∃ key value, map[key]? = some value ∧ test key value = true := by
  simp only [List.any_eq_true]
  constructor
  · rintro ⟨⟨key, value⟩, member, passes⟩
    exact ⟨key, value, (mem_toList_iff map key value).mp member, passes⟩
  · rintro ⟨key, value, found, passes⟩
    exact ⟨(key, value), (mem_toList_iff map key value).mpr found, passes⟩

/-- The first key whose entry passes the test. -/
def findKey? (map : ExtTreeMap κ ν) (test : κ → ν → Bool) : Option κ :=
  (map.toList.find? fun entry => test entry.1 entry.2).map Prod.fst

theorem findKey?_some (found : findKey? map test = some key) :
    ∃ value, map[key]? = some value ∧ test key value = true := by
  simp only [findKey?, Option.map_eq_some_iff] at found
  obtain ⟨⟨first, value⟩, found, rfl⟩ := found
  exact ⟨value, (mem_toList_iff map first value).mp (List.mem_of_find?_eq_some found),
    List.find?_some (p := fun entry : κ × ν => test entry.1 entry.2) found⟩

theorem findKey?_none (missing : findKey? map test = none) {value : ν}
    (stored : map[key]? = some value) : test key value = false := by
  simp only [findKey?, Option.map_eq_none_iff, List.find?_eq_none] at missing
  simpa using missing (key, value) ((mem_toList_iff map key value).mpr stored)

theorem findKey?_congr {other : ExtTreeMap κ ν}
    (agree : ∀ key, (map[key]?).any (test key) = (other[key]?).any (test key)) :
    findKey? map test = findKey? other test := by
  have scanned : ∀ entries : List (κ × ν),
      (entries.find? fun entry => test entry.1 entry.2).map Prod.fst =
        (entries.filterMap fun entry => if test entry.1 entry.2 then some entry.1 else none).head? := by
    intro entries
    induction entries with
    | nil => rfl
    | cons entry rest ih =>
      cases passes : test entry.1 entry.2 with
      | true => simp [passes]
      | false => simpa [passes] using ih
  have shown : ∀ (key : κ) (found : Option ν),
      (found.bind fun value => if test key value then some key else none) =
        if found.any (test key) then some key else none := by
    intro key found
    cases found <;> rfl
  have same : ∀ key, ((map[key]?).bind fun value => if test key value then some key else none) =
      (other[key]?).bind fun value => if test key value then some key else none := by
    intro key
    rw [shown, shown, agree key]
  rw [findKey?, findKey?, scanned, scanned, filterMap_toList_congr same]

theorem findKey?_eq_of_unique {value : ν} (stored : map[key]? = some value)
    (passes : test key value = true)
    (unique : ∀ other found, map[other]? = some found → test other found = true → other = key) :
    findKey? map test = some key := by
  cases found : findKey? map test with
  | none =>
    have fails := findKey?_none found stored
    rw [passes] at fails
    cases fails
  | some other =>
    obtain ⟨held, stored, passes⟩ := findKey?_some found
    rw [unique other held stored passes]

end Scan

end Famp.Data
