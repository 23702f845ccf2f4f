import Mathlib.Data.List.Sort
import Mathlib.Order.Basic
import Mathlib.Data.String.Basic

/-!
# JSON trees and JSON values

`Tree` is the syntax tree a parser hands out: an object is the list of its
members in text order, repeated keys included.  `Value` is the tree of a parsed
document whose objects are ordered maps: every object lists its members in
strictly increasing key order, so equality of values is equality of trees.
`Tree.normalize` is the passage from one to the other, with the last of several
members of one key kept.

A number is an integer or a finite double, carried by its bits, and the integer
`1` and the double `1.0` are different values.  Canonical text does not tell
them apart, and it changes an integer that no double represents; `mapNumbers` is
a change of the numbers of a value that leaves the rest of it alone, and
`Number.Exact` holds of the numbers that canonical text keeps.
-/

set_option autoImplicit false

namespace Famp.Json

inductive Number where
  | int (value : Int)
  | float (bits : UInt64)
  deriving DecidableEq, Repr

/-- Integers up to `2 ^ 53` in magnitude, and doubles with a fractional part: a
nonzero double below one, or one with a bit set below the units position. -/
def Number.Exact : Number → Prop
  | .int value => value.natAbs ≤ 2 ^ 53
  | .float bits =>
    let exponent := bits.toNat / 2 ^ 52 % 2 ^ 11
    (exponent < 1023 ∧ bits.toNat % 2 ^ 63 ≠ 0) ∨
      (1023 ≤ exponent ∧ exponent < 1075 ∧ bits.toNat % 2 ^ (1075 - exponent) ≠ 0)

instance : DecidablePred Number.Exact
  | .int _ => inferInstanceAs (Decidable (_ ≤ _))
  | .float _ => inferInstanceAs (Decidable (_ ∨ _))

inductive Tree where
  | null
  | bool (value : Bool)
  | num (value : Number)
  | str (value : String)
  | arr (items : List Tree)
  | obj (fields : List (String × Tree))
  deriving Repr, Inhabited

variable {change : Number → Number} {holds : Number → Prop}

namespace Tree

/-! ## Decidable equality -/

mutual
def decEq : (left right : Tree) → Decidable (left = right)
  | .null, .null => isTrue rfl
  | .bool a, .bool b => decidable_of_iff (a = b) (by simp)
  | .num a, .num b => decidable_of_iff (a = b) (by simp)
  | .str a, .str b => decidable_of_iff (a = b) (by simp)
  | .arr a, .arr b =>
    match decEqItems a b with
    | isTrue same => isTrue (by rw [same])
    | isFalse differ => isFalse (by simpa using differ)
  | .obj a, .obj b =>
    match decEqFields a b with
    | isTrue same => isTrue (by rw [same])
    | isFalse differ => isFalse (by simpa using differ)
  | .null, .bool _ | .null, .num _ | .null, .str _ | .null, .arr _ | .null, .obj _
  | .bool _, .null | .bool _, .num _ | .bool _, .str _ | .bool _, .arr _ | .bool _, .obj _
  | .num _, .null | .num _, .bool _ | .num _, .str _ | .num _, .arr _ | .num _, .obj _
  | .str _, .null | .str _, .bool _ | .str _, .num _ | .str _, .arr _ | .str _, .obj _
  | .arr _, .null | .arr _, .bool _ | .arr _, .num _ | .arr _, .str _ | .arr _, .obj _
  | .obj _, .null | .obj _, .bool _ | .obj _, .num _ | .obj _, .str _ | .obj _, .arr _ =>
    isFalse (by simp)

def decEqItems : (left right : List Tree) → Decidable (left = right)
  | [], [] => isTrue rfl
  | [], _ :: _ | _ :: _, [] => isFalse (by simp)
  | a :: as, b :: bs =>
    match decEq a b, decEqItems as bs with
    | isTrue same, isTrue sameRest => isTrue (by rw [same, sameRest])
    | isFalse differ, _ => isFalse (by simp [differ])
    | _, isFalse differ => isFalse (by simp [differ])

def decEqFields : (left right : List (String × Tree)) → Decidable (left = right)
  | [], [] => isTrue rfl
  | [], _ :: _ | _ :: _, [] => isFalse (by simp)
  | (j, a) :: as, (k, b) :: bs =>
    match decEq a b, decEqFields as bs with
    | isTrue same, isTrue sameRest =>
      if key : j = k then isTrue (by rw [key, same, sameRest]) else isFalse (by simp [key])
    | isFalse differ, _ => isFalse (by simp [differ])
    | _, isFalse differ => isFalse (by simp [differ])
end

instance : DecidableEq Tree := decEq

/-! ## Reading a tree -/

/-- The member named `key`, of an object that has one. -/
def get? (key : String) : Tree → Option Tree
  | .obj fields => (fields.find? fun field => field.1 == key).map Prod.snd
  | _ => none

def asStr? : Tree → Option String
  | .str value => some value
  | _ => none

/-- Number of members of an object. -/
def objectLen? : Tree → Option Nat
  | .obj fields => some fields.length
  | _ => none

/-! ## Ordered trees -/

mutual
/-- Every object of the tree lists its members in strictly increasing key
order. -/
def isOrdered : Tree → Bool
  | .arr items => itemsOrdered items
  | .obj fields => fieldsOrdered fields
  | _ => true

def itemsOrdered : List Tree → Bool
  | [] => true
  | item :: rest => item.isOrdered && itemsOrdered rest

def fieldsOrdered : List (String × Tree) → Bool
  | [] => true
  | (key, item) :: rest =>
    item.isOrdered && rest.all (fun field => decide (key < field.1)) && fieldsOrdered rest
end

mutual
/-- Some object of the tree, at any depth, repeats a key. -/
def hasDuplicateKey : Tree → Bool
  | .arr items => itemsDuplicateKey items
  | .obj fields => fieldsDuplicateKey fields
  | _ => false

def itemsDuplicateKey : List Tree → Bool
  | [] => false
  | item :: rest => item.hasDuplicateKey || itemsDuplicateKey rest

def fieldsDuplicateKey : List (String × Tree) → Bool
  | [] => false
  | (key, item) :: rest =>
    item.hasDuplicateKey || rest.any (fun field => field.1 == key) || fieldsDuplicateKey rest
end

/-- Insertion into an ordered map, an equal key replaced. -/
def insertField (key : String) (item : Tree) : List (String × Tree) → List (String × Tree)
  | [] => [(key, item)]
  | (other, found) :: rest =>
    if key < other then (key, item) :: (other, found) :: rest
    else if key = other then (key, item) :: rest
    else (other, found) :: insertField key item rest

mutual
/-- The ordered tree of a parsed document: members are inserted in text order,
so the last member of a repeated key is the one kept. -/
def normalize : Tree → Tree
  | .arr items => .arr (normalizeItems items)
  | .obj fields => .obj (normalizeFields [] fields)
  | other => other

def normalizeItems : List Tree → List Tree
  | [] => []
  | item :: rest => item.normalize :: normalizeItems rest

def normalizeFields (done : List (String × Tree)) :
    List (String × Tree) → List (String × Tree)
  | [] => done
  | (key, item) :: rest => normalizeFields (insertField key item.normalize done) rest
end

/-! ## Normalization yields ordered trees and fixes them -/

theorem insertField_keys (key : String) (item : Tree) (fields : List (String × Tree)) :
    ∀ field ∈ insertField key item fields, field.1 = key ∨ field ∈ fields := by
  induction fields with
  | nil =>
    intro field member
    simp only [insertField, List.mem_singleton] at member
    exact Or.inl (by rw [member])
  | cons head rest ih =>
    obtain ⟨other, found⟩ := head
    intro field member
    simp only [insertField] at member
    split at member
    · rcases List.mem_cons.mp member with rfl | member
      · exact Or.inl rfl
      · exact Or.inr member
    · split at member
      · rcases List.mem_cons.mp member with rfl | member
        · exact Or.inl rfl
        · exact Or.inr (List.mem_cons_of_mem _ member)
      · rcases List.mem_cons.mp member with rfl | member
        · exact Or.inr (List.mem_cons_self ..)
        · rcases ih field member with same | member
          · exact Or.inl same
          · exact Or.inr (List.mem_cons_of_mem _ member)

theorem fieldsOrdered_cons {key : String} {item : Tree} {rest : List (String × Tree)} :
    fieldsOrdered ((key, item) :: rest) = true ↔
      (item.isOrdered = true ∧ ∀ field ∈ rest, key < field.1) ∧ fieldsOrdered rest = true := by
  simp only [fieldsOrdered, Bool.and_eq_true, List.all_eq_true, decide_eq_true_eq]

theorem fieldsOrdered_insertField (key : String) (item : Tree)
    (itemOrdered : item.isOrdered = true) :
    ∀ fields : List (String × Tree), fieldsOrdered fields = true →
      fieldsOrdered (insertField key item fields) = true := by
  intro fields
  induction fields with
  | nil => intro _; simp [insertField, fieldsOrdered, itemOrdered]
  | cons head rest ih =>
    obtain ⟨other, found⟩ := head
    intro ordered
    obtain ⟨⟨foundOrdered, above⟩, restOrdered⟩ := fieldsOrdered_cons.mp ordered
    simp only [insertField]
    split
    · rename_i below
      simp only [fieldsOrdered_cons, List.mem_cons]
      refine ⟨⟨itemOrdered, ?_⟩, ⟨foundOrdered, above⟩, restOrdered⟩
      rintro field (rfl | member)
      · exact below
      · exact lt_trans below (above field member)
    · rename_i notBelow
      split
      · rename_i same
        exact fieldsOrdered_cons.mpr ⟨⟨itemOrdered, same ▸ above⟩, restOrdered⟩
      · rename_i differ
        refine fieldsOrdered_cons.mpr ⟨⟨foundOrdered, ?_⟩, ih restOrdered⟩
        intro field member
        rcases insertField_keys key item rest field member with same | member
        · rw [same]
          exact lt_of_le_of_ne (not_lt.mp notBelow) (Ne.symm differ)
        · exact above field member

mutual
theorem normalize_isOrdered : ∀ tree : Tree, tree.normalize.isOrdered = true
  | .null => rfl
  | .bool _ => rfl
  | .num _ => rfl
  | .str _ => rfl
  | .arr items => normalizeItems_ordered items
  | .obj fields => normalizeFields_ordered fields [] rfl

theorem normalizeItems_ordered : ∀ items : List Tree,
    itemsOrdered (normalizeItems items) = true
  | [] => rfl
  | item :: rest => by
    simp [normalizeItems, itemsOrdered, normalize_isOrdered item, normalizeItems_ordered rest]

theorem normalizeFields_ordered : ∀ (fields done : List (String × Tree)),
    fieldsOrdered done = true → fieldsOrdered (normalizeFields done fields) = true
  | [], _, ordered => ordered
  | (key, item) :: rest, done, ordered =>
    normalizeFields_ordered rest (insertField key item.normalize done)
      (fieldsOrdered_insertField key item.normalize (normalize_isOrdered item) done ordered)
end

theorem insertField_last (key : String) (item : Tree) :
    ∀ fields : List (String × Tree), (∀ field ∈ fields, field.1 < key) →
      insertField key item fields = fields ++ [(key, item)] := by
  intro fields
  induction fields with
  | nil => intro _; rfl
  | cons head rest ih =>
    obtain ⟨other, found⟩ := head
    intro below
    have headBelow : other < key := below (other, found) (List.mem_cons_self ..)
    have restBelow : ∀ field ∈ rest, field.1 < key :=
      fun field member => below field (List.mem_cons_of_mem _ member)
    simp [insertField, not_lt_of_gt headBelow, ne_of_gt headBelow, ih restBelow]

mutual
theorem normalize_of_isOrdered : ∀ tree : Tree, tree.isOrdered = true → tree.normalize = tree
  | .null, _ => rfl
  | .bool _, _ => rfl
  | .num _, _ => rfl
  | .str _, _ => rfl
  | .arr items, ordered => by
    simp only [normalize]
    rw [normalizeItems_of_ordered items ordered]
  | .obj fields, ordered => by
    simp only [normalize]
    rw [normalizeFields_of_ordered fields [] ordered (by simp)]
    rfl

theorem normalizeItems_of_ordered : ∀ items : List Tree, itemsOrdered items = true →
    normalizeItems items = items
  | [], _ => rfl
  | item :: rest, ordered => by
    simp only [itemsOrdered, Bool.and_eq_true] at ordered
    simp only [normalizeItems]
    rw [normalize_of_isOrdered item ordered.1, normalizeItems_of_ordered rest ordered.2]

theorem normalizeFields_of_ordered : ∀ (fields done : List (String × Tree)),
    fieldsOrdered fields = true → (∀ before ∈ done, ∀ field ∈ fields, before.1 < field.1) →
      normalizeFields done fields = done ++ fields
  | [], done, _, _ => by simp [normalizeFields]
  | (key, item) :: rest, done, ordered, below => by
    obtain ⟨⟨itemOrdered, above⟩, restOrdered⟩ := fieldsOrdered_cons.mp ordered
    have doneBelow : ∀ before ∈ done, before.1 < key :=
      fun before member => below before member (key, item) (List.mem_cons_self ..)
    simp only [normalizeFields]
    rw [normalize_of_isOrdered item itemOrdered, insertField_last key item done doneBelow,
      normalizeFields_of_ordered rest (done ++ [(key, item)]) restOrdered]
    · simp
    · intro before member field later
      rcases List.mem_append.mp member with member | member
      · exact below before member field (List.mem_cons_of_mem _ later)
      · rw [List.mem_singleton.mp member]
        exact above field later
end

mutual
theorem hasDuplicateKey_of_isOrdered : ∀ tree : Tree, tree.isOrdered = true →
    tree.hasDuplicateKey = false
  | .null, _ => rfl
  | .bool _, _ => rfl
  | .num _, _ => rfl
  | .str _, _ => rfl
  | .arr items, ordered => itemsDuplicateKey_of_ordered items ordered
  | .obj fields, ordered => fieldsDuplicateKey_of_ordered fields ordered

theorem itemsDuplicateKey_of_ordered : ∀ items : List Tree, itemsOrdered items = true →
    itemsDuplicateKey items = false
  | [], _ => rfl
  | item :: rest, ordered => by
    simp only [itemsOrdered, Bool.and_eq_true] at ordered
    simp [itemsDuplicateKey, hasDuplicateKey_of_isOrdered item ordered.1,
      itemsDuplicateKey_of_ordered rest ordered.2]

theorem fieldsDuplicateKey_of_ordered : ∀ fields : List (String × Tree),
    fieldsOrdered fields = true → fieldsDuplicateKey fields = false
  | [], _ => rfl
  | (key, item) :: rest, ordered => by
    obtain ⟨⟨itemOrdered, above⟩, restOrdered⟩ := fieldsOrdered_cons.mp ordered
    simp only [fieldsDuplicateKey, hasDuplicateKey_of_isOrdered item itemOrdered,
      fieldsDuplicateKey_of_ordered rest restOrdered, Bool.false_or, Bool.or_false,
      List.any_eq_false, beq_iff_eq]
    intro field member
    exact ne_of_gt (above field member)
end

/-! ## Members of ordered objects -/

theorem isOrdered_of_mem_fields : ∀ fields : List (String × Tree), fieldsOrdered fields = true →
    ∀ field ∈ fields, field.2.isOrdered = true
  | (key, item) :: rest, ordered, field, member => by
    simp only [fieldsOrdered, Bool.and_eq_true] at ordered
    rcases List.mem_cons.mp member with rfl | member
    · exact ordered.1.1
    · exact isOrdered_of_mem_fields rest ordered.2 field member

theorem isOrdered_of_get? {tree item : Tree} {key : String} (ordered : tree.isOrdered = true)
    (found : tree.get? key = some item) : item.isOrdered = true := by
  cases tree with
  | obj fields =>
    simp only [get?, Option.map_eq_some_iff] at found
    obtain ⟨field, found, rfl⟩ := found
    exact isOrdered_of_mem_fields fields ordered field (List.mem_of_find?_eq_some found)
  | _ => simp [get?] at found

/-! ## Leaving members out -/

def remove (key : String) : Tree → Tree
  | .obj fields => .obj (fields.filter fun field => field.1 != key)
  | tree => tree

theorem fieldsOrdered_filter (keep : String × Tree → Bool) : ∀ fields : List (String × Tree),
    fieldsOrdered fields = true → fieldsOrdered (fields.filter keep) = true
  | [], _ => rfl
  | (key, item) :: rest, ordered => by
    simp only [fieldsOrdered, Bool.and_eq_true, List.all_eq_true] at ordered
    obtain ⟨⟨itemOrdered, above⟩, restOrdered⟩ := ordered
    have filtered := fieldsOrdered_filter keep rest restOrdered
    rw [List.filter_cons]
    split
    · simp only [fieldsOrdered, Bool.and_eq_true, List.all_eq_true]
      exact ⟨⟨itemOrdered, fun field kept => above field (List.mem_of_mem_filter kept)⟩, filtered⟩
    · exact filtered

theorem remove_isOrdered (key : String) {tree : Tree} (ordered : tree.isOrdered = true) :
    (tree.remove key).isOrdered = true := by
  cases tree with
  | obj fields => exact fieldsOrdered_filter _ fields ordered
  | _ => exact ordered

theorem get?_remove {key other : String} (different : other ≠ key) (tree : Tree) :
    (tree.remove key).get? other = tree.get? other := by
  cases tree with
  | obj fields =>
    have kept : ∀ field : String × Tree,
        decide ((field.1 != key) = true ∧ (field.1 == other) = true) = (field.1 == other) := by
      intro field
      by_cases same : field.1 = other
      · simp [same, different]
      · simp [same]
    simp only [remove, get?, List.find?_filter, kept]
  | _ => rfl

/-! ## Changing the numbers of a tree -/

mutual
def mapNumbers (change : Number → Number) : Tree → Tree
  | .num value => .num (change value)
  | .arr items => .arr (mapNumbersItems change items)
  | .obj fields => .obj (mapNumbersFields change fields)
  | other => other

def mapNumbersItems (change : Number → Number) : List Tree → List Tree
  | [] => []
  | item :: rest => item.mapNumbers change :: mapNumbersItems change rest

def mapNumbersFields (change : Number → Number) : List (String × Tree) → List (String × Tree)
  | [] => []
  | (key, item) :: rest => (key, item.mapNumbers change) :: mapNumbersFields change rest
end

mutual
/-- Every number of the tree satisfies `holds`. -/
def NumbersAll (holds : Number → Prop) : Tree → Prop
  | .num value => holds value
  | .arr items => ItemsNumbersAll holds items
  | .obj fields => FieldsNumbersAll holds fields
  | _ => True

def ItemsNumbersAll (holds : Number → Prop) : List Tree → Prop
  | [] => True
  | item :: rest => item.NumbersAll holds ∧ ItemsNumbersAll holds rest

def FieldsNumbersAll (holds : Number → Prop) : List (String × Tree) → Prop
  | [] => True
  | (_, item) :: rest => item.NumbersAll holds ∧ FieldsNumbersAll holds rest
end

theorem mem_mapNumbersFields (change : Number → Number) {field : String × Tree} :
    ∀ {fields : List (String × Tree)}, field ∈ mapNumbersFields change fields →
      ∃ before ∈ fields, before.1 = field.1
  | (key, item) :: rest, member => by
    rcases List.mem_cons.mp member with rfl | member
    · exact ⟨(key, item), List.mem_cons_self .., rfl⟩
    · obtain ⟨before, earlier, same⟩ := mem_mapNumbersFields change member
      exact ⟨before, List.mem_cons_of_mem _ earlier, same⟩

mutual
theorem mapNumbers_isOrdered (change : Number → Number) : ∀ tree : Tree,
    tree.isOrdered = true → (tree.mapNumbers change).isOrdered = true
  | .null, _ => rfl
  | .bool _, _ => rfl
  | .num _, _ => rfl
  | .str _, _ => rfl
  | .arr items, ordered => mapNumbersItems_ordered change items ordered
  | .obj fields, ordered => mapNumbersFields_ordered change fields ordered

theorem mapNumbersItems_ordered (change : Number → Number) : ∀ items : List Tree,
    itemsOrdered items = true → itemsOrdered (mapNumbersItems change items) = true
  | [], _ => rfl
  | item :: rest, ordered => by
    simp only [itemsOrdered, Bool.and_eq_true] at ordered
    simp only [mapNumbersItems, itemsOrdered, mapNumbers_isOrdered change item ordered.1,
      mapNumbersItems_ordered change rest ordered.2, Bool.and_true]

theorem mapNumbersFields_ordered (change : Number → Number) : ∀ fields : List (String × Tree),
    fieldsOrdered fields = true → fieldsOrdered (mapNumbersFields change fields) = true
  | [], _ => rfl
  | (key, item) :: rest, ordered => by
    obtain ⟨⟨itemOrdered, above⟩, restOrdered⟩ := fieldsOrdered_cons.mp ordered
    simp only [mapNumbersFields, fieldsOrdered, mapNumbers_isOrdered change item itemOrdered,
      mapNumbersFields_ordered change rest restOrdered, Bool.true_and, Bool.and_true,
      List.all_eq_true, decide_eq_true_eq]
    intro field member
    obtain ⟨before, earlier, same⟩ := mem_mapNumbersFields change member
    rw [← same]
    exact above before earlier
end

mutual
theorem mapNumbers_of_all (fixed : ∀ number, holds number → change number = number) :
    ∀ tree : Tree, tree.NumbersAll holds → tree.mapNumbers change = tree
  | .null, _ => rfl
  | .bool _, _ => rfl
  | .num value, all => by simp only [mapNumbers, fixed value all]
  | .str _, _ => rfl
  | .arr items, all => by simp only [mapNumbers, mapNumbersItems_of_all fixed items all]
  | .obj fields, all => by simp only [mapNumbers, mapNumbersFields_of_all fixed fields all]

theorem mapNumbersItems_of_all (fixed : ∀ number, holds number → change number = number) :
    ∀ items : List Tree, ItemsNumbersAll holds items → mapNumbersItems change items = items
  | [], _ => rfl
  | item :: rest, all => by
    simp only [mapNumbersItems, mapNumbers_of_all fixed item all.1,
      mapNumbersItems_of_all fixed rest all.2]

theorem mapNumbersFields_of_all (fixed : ∀ number, holds number → change number = number) :
    ∀ fields : List (String × Tree), FieldsNumbersAll holds fields →
      mapNumbersFields change fields = fields
  | [], _ => rfl
  | (key, item) :: rest, all => by
    simp only [mapNumbersFields, mapNumbers_of_all fixed item all.1,
      mapNumbersFields_of_all fixed rest all.2]
end

mutual
theorem mapNumbers_mapNumbers (first second : Number → Number) : ∀ tree : Tree,
    (tree.mapNumbers first).mapNumbers second = tree.mapNumbers fun number => second (first number)
  | .null => rfl
  | .bool _ => rfl
  | .num _ => rfl
  | .str _ => rfl
  | .arr items => congrArg Tree.arr (mapNumbersItems_mapNumbersItems first second items)
  | .obj fields => congrArg Tree.obj (mapNumbersFields_mapNumbersFields first second fields)

theorem mapNumbersItems_mapNumbersItems (first second : Number → Number) : ∀ items : List Tree,
    mapNumbersItems second (mapNumbersItems first items) =
      mapNumbersItems (fun number => second (first number)) items
  | [] => rfl
  | item :: rest => by
    simp only [mapNumbersItems, mapNumbers_mapNumbers first second item,
      mapNumbersItems_mapNumbersItems first second rest]

theorem mapNumbersFields_mapNumbersFields (first second : Number → Number) :
    ∀ fields : List (String × Tree),
      mapNumbersFields second (mapNumbersFields first fields) =
        mapNumbersFields (fun number => second (first number)) fields
  | [] => rfl
  | (key, item) :: rest => by
    simp only [mapNumbersFields, mapNumbers_mapNumbers first second item,
      mapNumbersFields_mapNumbersFields first second rest]
end

theorem mapNumbers_idem (idem : ∀ number, change (change number) = change number) (tree : Tree) :
    (tree.mapNumbers change).mapNumbers change = tree.mapNumbers change := by
  rw [mapNumbers_mapNumbers, funext idem]

theorem find?_mapNumbersFields (change : Number → Number) (key : String) :
    ∀ fields : List (String × Tree),
      ((mapNumbersFields change fields).find? fun field => field.1 == key).map Prod.snd =
        ((fields.find? fun field => field.1 == key).map Prod.snd).map (mapNumbers change)
  | [] => rfl
  | (other, item) :: rest => by
    simp only [mapNumbersFields, List.find?_cons]
    cases other == key with
    | true => rfl
    | false => exact find?_mapNumbersFields change key rest

theorem get?_mapNumbers (change : Number → Number) (key : String) (tree : Tree) :
    (tree.mapNumbers change).get? key = (tree.get? key).map (mapNumbers change) := by
  cases tree with
  | obj fields => exact find?_mapNumbersFields change key fields
  | _ => rfl

theorem asStr?_mapNumbers (change : Number → Number) (tree : Tree) :
    (tree.mapNumbers change).asStr? = tree.asStr? := by
  cases tree <;> rfl

end Tree

/-- A parsed JSON document: a tree whose objects are ordered maps. -/
abbrev Value := { tree : Tree // tree.isOrdered = true }

namespace Value

def ofTree (tree : Tree) : Value := ⟨tree.normalize, tree.normalize_isOrdered⟩

theorem ofTree_val (value : Value) : ofTree value.val = value :=
  Subtype.ext (Tree.normalize_of_isOrdered value.val value.property)

def get? (value : Value) (key : String) : Option Value :=
  match found : value.val.get? key with
  | none => none
  | some item => some ⟨item, Tree.isOrdered_of_get? value.property found⟩

def asStr? (value : Value) : Option String := value.val.asStr?

theorem get?_map_val (value : Value) (key : String) :
    (value.get? key).map Subtype.val = value.val.get? key := by
  unfold get?
  split
  · rename_i found
    exact found.symm
  · rename_i item found
    exact found.symm

def remove (value : Value) (key : String) : Value :=
  ⟨value.val.remove key, Tree.remove_isOrdered key value.property⟩

theorem foldl_remove_val (keys : List String) {value : Value} {members : List (String × Tree)}
    (isObject : value.val = .obj members) :
    (keys.foldl remove value).val =
      .obj (members.filter fun member => decide (member.1 ∉ keys)) := by
  induction keys generalizing value members with
  | nil => simpa using isObject
  | cons key rest ih =>
    have next : (value.remove key).val = .obj (members.filter fun member => member.1 != key) :=
      congrArg (Tree.remove key) isObject
    rw [List.foldl_cons, ih next, List.filter_filter]
    congr 2
    funext member
    by_cases same : member.1 = key <;> simp [same]

/-! ## Changing the numbers of a value -/

def mapNumbers (change : Number → Number) (value : Value) : Value :=
  ⟨value.val.mapNumbers change, Tree.mapNumbers_isOrdered change value.val value.property⟩

def NumbersAll (holds : Number → Prop) (value : Value) : Prop := value.val.NumbersAll holds

theorem mapNumbers_of_all (fixed : ∀ number, holds number → change number = number) {value : Value}
    (all : value.NumbersAll holds) : value.mapNumbers change = value :=
  Subtype.ext (Tree.mapNumbers_of_all fixed value.val all)

theorem mapNumbers_idem (idem : ∀ number, change (change number) = change number) (value : Value) :
    (value.mapNumbers change).mapNumbers change = value.mapNumbers change :=
  Subtype.ext (Tree.mapNumbers_idem idem value.val)

theorem mapNumbers_mapNumbers (first second : Number → Number) (value : Value) :
    (value.mapNumbers first).mapNumbers second =
      value.mapNumbers fun number => second (first number) :=
  Subtype.ext (Tree.mapNumbers_mapNumbers first second value.val)

theorem get?_mapNumbers (change : Number → Number) (value : Value) (key : String) :
    (value.mapNumbers change).get? key = (value.get? key).map (mapNumbers change) := by
  have changed := get?_map_val (value.mapNumbers change) key
  have original := get?_map_val value key
  simp only [mapNumbers, Tree.get?_mapNumbers, ← original, Option.map_map] at changed
  refine Option.map_injective Subtype.val_injective ?_
  simp only [mapNumbers, Option.map_map]
  exact changed

theorem asStr?_mapNumbers (change : Number → Number) (value : Value) :
    (value.mapNumbers change).asStr? = value.asStr? :=
  Tree.asStr?_mapNumbers change value.val

/-! ## Building values -/

def null : Value := ⟨.null, rfl⟩

def str (text : String) : Value := ⟨.str text, rfl⟩

def int (number : Int) : Value := ⟨.num (.int number), rfl⟩

def bool (flag : Bool) : Value := ⟨.bool flag, rfl⟩

theorem itemsOrdered_vals : ∀ items : List Value,
    Tree.itemsOrdered (items.map Subtype.val) = true
  | [] => rfl
  | item :: rest => by
    simp only [List.map_cons, Tree.itemsOrdered, item.property, itemsOrdered_vals rest,
      Bool.and_true]

def arr (items : List Value) : Value := ⟨.arr (items.map Subtype.val), itemsOrdered_vals items⟩

/-- Members listed in strictly increasing key order. -/
def KeysIncreasing (fields : List (String × Value)) : Prop :=
  fields.Pairwise fun before after => before.1 < after.1

instance (fields : List (String × Value)) : Decidable (KeysIncreasing fields) :=
  inferInstanceAs (Decidable (fields.Pairwise _))

/-- The tree member of a named value. -/
def member (field : String × Value) : String × Tree := (field.1, field.2.val)

theorem fieldsOrdered_members : ∀ fields : List (String × Value), KeysIncreasing fields →
    Tree.fieldsOrdered (fields.map member) = true
  | [], _ => rfl
  | (key, item) :: rest, increasing => by
    have parts := List.pairwise_cons.mp increasing
    simp only [List.map_cons, member, Tree.fieldsOrdered, item.property,
      fieldsOrdered_members rest parts.2, Bool.true_and, Bool.and_true, List.all_map,
      List.all_eq_true, Function.comp]
    intro field later
    exact decide_eq_true (parts.1 field later)

def obj (fields : List (String × Value)) (increasing : KeysIncreasing fields) : Value :=
  ⟨.obj (fields.map member), fieldsOrdered_members fields increasing⟩

theorem mapNumbersItems_vals (change : Number → Number) : ∀ items : List Value,
    Tree.mapNumbersItems change (items.map Subtype.val) =
      (items.map (mapNumbers change)).map Subtype.val
  | [] => rfl
  | item :: rest => by
    simp only [List.map_cons, Tree.mapNumbersItems, mapNumbersItems_vals change rest, mapNumbers]

theorem mapNumbers_arr (change : Number → Number) (items : List Value) :
    (arr items).mapNumbers change = arr (items.map (mapNumbers change)) :=
  Subtype.ext (congrArg Tree.arr (mapNumbersItems_vals change items))

theorem keysIncreasing_map (change : Value → Value) {fields : List (String × Value)}
    (increasing : KeysIncreasing fields) :
    KeysIncreasing (fields.map fun field => (field.1, change field.2)) :=
  List.pairwise_map.mpr increasing

theorem mapNumbersFields_vals (change : Number → Number) : ∀ fields : List (String × Value),
    Tree.mapNumbersFields change (fields.map member) =
      (fields.map fun field => (field.1, mapNumbers change field.2)).map member
  | [] => rfl
  | (key, item) :: rest => by
    simp only [List.map_cons, member, Tree.mapNumbersFields, mapNumbersFields_vals change rest,
      mapNumbers]

theorem mapNumbers_obj (change : Number → Number) (fields : List (String × Value))
    (increasing : KeysIncreasing fields) :
    (obj fields increasing).mapNumbers change =
      obj (fields.map fun field => (field.1, mapNumbers change field.2))
        (keysIncreasing_map (mapNumbers change) increasing) :=
  Subtype.ext (congrArg Tree.obj (mapNumbersFields_vals change fields))

theorem keysIncreasing_zip : ∀ {keys : List String}, keys.Pairwise (· < ·) →
    ∀ items : List Value, KeysIncreasing (keys.zip items)
  | [], _, _ => List.Pairwise.nil
  | _ :: _, _, [] => List.Pairwise.nil
  | key :: rest, increasing, item :: items => by
    have parts := List.pairwise_cons.mp increasing
    refine List.pairwise_cons.mpr ⟨?_, keysIncreasing_zip parts.2 items⟩
    intro field later
    exact parts.1 field.1 (List.of_mem_zip later).1

theorem increasing_singleton (key : String) : [key].Pairwise (· < ·) := List.pairwise_singleton _ _

/-- The object of `items` under `keys`, one by one. -/
def record (keys : List String) (increasing : keys.Pairwise (· < ·)) (items : List Value) : Value :=
  obj (keys.zip items) (keysIncreasing_zip increasing items)

theorem mapNumbers_record (change : Number → Number) (keys : List String)
    (increasing : keys.Pairwise (· < ·)) (items : List Value) :
    (record keys increasing items).mapNumbers change =
      record keys increasing (items.map (mapNumbers change)) := by
  refine (mapNumbers_obj change _ _).trans (Subtype.ext ?_)
  simp only [record, obj, List.zip_map_right, Prod.map_def, id_eq]

end Value

end Famp.Json
