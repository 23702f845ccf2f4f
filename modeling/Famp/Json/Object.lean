import Mathlib.Data.List.Induction
import Famp.Json.Serde
import Famp.Json.Text

/-!
# Objects built member by member

Insertion into the object of a value, objects made of the fields of a record that
are present, and that reading such an object gives the fields back.  An object is
determined by its members, so writing back what was read gives the object again.
-/

set_option autoImplicit false

namespace Famp.Json

variable {value : Value} {key : String} {item : Tree} {members : List (String × Tree)}

variable {fields rest : List (String × Tree)} {field : String × Tree} {other : String}
  {change : Number → Number} {limit : Nat} {bytes : Bytes} {items : List (Option Tree)}
  {holds : Number → Prop}

namespace Tree

theorem get?_cons (key : String) (item : Tree) (rest : List (String × Tree)) (other : String) :
    (Tree.obj ((key, item) :: rest)).get? other =
      if key = other then some item else (Tree.obj rest).get? other := by
  by_cases same : key = other
  · simp [get?, same]
  · simp [get?, same]

theorem get?_insertField (key : String) (item : Tree) (fields : List (String × Tree))
    (other : String) :
    (Tree.obj (insertField key item fields)).get? other =
      if key = other then some item else (Tree.obj fields).get? other := by
  induction fields with
  | nil => exact get?_cons key item [] other
  | cons head rest ih =>
    obtain ⟨present, found⟩ := head
    simp only [insertField]
    split
    · exact get?_cons ..
    · split
      next same =>
        subst same
        simp only [get?_cons]
        split <;> rfl
      next differ =>
        simp only [get?_cons, ih]
        by_cases here : present = other
        · have elsewhere : key ≠ other := fun same => differ (same.trans here.symm)
          simp [here, elsewhere]
        · simp [here]

theorem get?_eq_none_of_lt (above : ∀ field ∈ fields, key < field.1) :
    (Tree.obj fields).get? key = none := by
  have missing : fields.find? (fun field => field.1 == key) = none := by
    rw [List.find?_eq_none]
    intro field member same
    exact (above field member).ne' (by simpa using same)
  rw [get?, missing, Option.map_none]

theorem lt_of_fieldsOrdered (ordered : fieldsOrdered ((key, item) :: rest) = true) :
    ∀ field ∈ rest, key < field.1 :=
  (fieldsOrdered_cons.mp ordered).1.2

theorem fieldsOrdered_tail (ordered : fieldsOrdered (field :: rest) = true) :
    fieldsOrdered rest = true := by
  simp only [fieldsOrdered, Bool.and_eq_true] at ordered
  exact ordered.2

theorem fields_ext : ∀ {left right : List (String × Tree)}, fieldsOrdered left = true →
    fieldsOrdered right = true →
    (∀ key, (Tree.obj left).get? key = (Tree.obj right).get? key) → left = right
  | [], [], _, _, _ => rfl
  | [], (key, item) :: rest, _, _, same => by
    have absent := same key
    rw [get?_cons, if_pos rfl] at absent
    cases absent
  | (key, item) :: rest, [], _, _, same => by
    have absent := same key
    rw [get?_cons, if_pos rfl] at absent
    cases absent
  | (key, item) :: left, (key', item') :: right, orderedLeft, orderedRight, same => by
    have aboveLeft := lt_of_fieldsOrdered orderedLeft
    have aboveRight := lt_of_fieldsOrdered orderedRight
    -- Each first key is among the keys of the other side, so neither is the smaller one.
    have keys : key = key' := by
      rcases lt_trichotomy key key' with below | equal | below
      · have absent := same key
        rw [get?_cons, if_pos rfl, get?_cons, if_neg below.ne',
          get?_eq_none_of_lt fun field member => below.trans (aboveRight field member)] at absent
        cases absent
      · exact equal
      · have absent := same key'
        rw [get?_cons, if_neg below.ne', get?_cons, if_pos rfl,
          get?_eq_none_of_lt fun field member => below.trans (aboveLeft field member)] at absent
        cases absent
    subst keys
    have items := same key
    rw [get?_cons, if_pos rfl, get?_cons, if_pos rfl] at items
    have rests : left = right := by
      refine fields_ext (fieldsOrdered_tail orderedLeft) (fieldsOrdered_tail orderedRight) ?_
      intro other
      by_cases first : key = other
      · subst first
        rw [get?_eq_none_of_lt aboveLeft, get?_eq_none_of_lt aboveRight]
      · have later := same other
        rwa [get?_cons, if_neg first, get?_cons, if_neg first] at later
    rw [Option.some.inj items, rests]

theorem get?_remove_self (key : String) (tree : Tree) : (tree.remove key).get? key = none := by
  cases tree with
  | obj fields => simp [remove, get?, List.find?_filter]
  | _ => rfl

theorem get?_isSome_of_mem (member : field ∈ fields) :
    ((Tree.obj fields).get? field.1).isSome = true := by
  simp only [get?, Option.isSome_map, List.find?_isSome]
  exact ⟨field, member, by simp⟩

theorem mem_of_get? (found : (Tree.obj fields).get? key = some item) : (key, item) ∈ fields := by
  obtain ⟨field, stored, rfl⟩ := Option.map_eq_some_iff.mp found
  have same : field.1 = key := by simpa using List.find?_some stored
  subst same
  exact List.mem_of_find?_eq_some stored

end Tree

namespace Value

def IsObject (value : Value) : Prop := ∃ members, value.val = .obj members

/-- Insertion into the map of an object, an equal key replaced. -/
def insert (value : Value) (key : String) (item : Value) : Value :=
  match value with
  | ⟨.obj fields, ordered⟩ =>
    ⟨.obj (Tree.insertField key item.val fields),
      Tree.fieldsOrdered_insertField key item.val item.property fields ordered⟩
  | other => other

theorem depth_insert_le (value : Value) (key : String) (item : Value) :
    (value.insert key item).depth ≤ max (item.depth + 1) value.depth := by
  obtain ⟨tree, ordered⟩ := value
  cases tree with
  | obj fields =>
    have inserted := Tree.fieldsDepth_insertField_le key item.val fields
    simp only [insert, depth, Tree.depth]
    omega
  | _ => exact Nat.le_max_right _ _

theorem IsObject.insert (isObject : value.IsObject) (key : String) (item : Value) :
    (value.insert key item).IsObject := by
  obtain ⟨⟨_, ordered⟩, ⟨members, rfl⟩⟩ := value, isObject
  exact ⟨_, rfl⟩

theorem depth_lt_of_get? {item : Value} (found : value.get? key = some item) :
    item.depth < value.depth := by
  have stored : value.val.get? key = some item.val := by rw [← get?_map_val, found, Option.map_some]
  obtain ⟨tree, ordered⟩ := value
  cases tree with
  | obj fields =>
    exact Nat.lt_succ_of_le (Tree.fieldsDepth_le_iff.mp (Nat.le_refl _) _ (Tree.mem_of_get? stored))
  | _ => cases stored

theorem IsObject.remove (isObject : value.IsObject) (key : String) :
    (value.remove key).IsObject := by
  obtain ⟨members, same⟩ := isObject
  exact ⟨_, congrArg (Tree.remove key) same⟩

theorem get?_insert (isObject : value.IsObject) (key : String) (item : Value) (other : String) :
    (value.insert key item).val.get? other =
      if key = other then some item.val else value.val.get? other := by
  obtain ⟨⟨_, ordered⟩, ⟨members, rfl⟩⟩ := value, isObject
  exact Tree.get?_insertField key item.val members other

theorem lookup_insert (isObject : value.IsObject) (key : String) (item : Value) (other : String) :
    (value.insert key item).get? other = if key = other then some item else value.get? other := by
  refine Option.map_injective Subtype.val_injective ?_
  rw [get?_map_val, get?_insert isObject]
  split
  · rfl
  · rw [get?_map_val]

theorem lookup_remove (value : Value) (different : other ≠ key) :
    (value.remove key).get? other = value.get? other := by
  refine Option.map_injective Subtype.val_injective ?_
  rw [get?_map_val, get?_map_val, remove, Tree.get?_remove different]

theorem object_ext {left right : Value} (isObject : left.IsObject) (isObject' : right.IsObject)
    (same : ∀ key, left.val.get? key = right.val.get? key) : left = right := by
  obtain ⟨⟨_, ordered⟩, ⟨members, rfl⟩⟩ := left, isObject
  obtain ⟨⟨_, ordered'⟩, ⟨members', rfl⟩⟩ := right, isObject'
  exact Subtype.ext (congrArg Tree.obj (Tree.fields_ext ordered ordered' same))

theorem remove_insert_self (isObject : value.IsObject) (key : String) (item : Value) :
    (value.insert key item).remove key = value.remove key := by
  refine object_ext ((isObject.insert key item).remove key) (isObject.remove key) ?_
  intro other
  by_cases same : other = key
  · subst same
    exact (Tree.get?_remove_self other _).trans (Tree.get?_remove_self other _).symm
  · rw [remove, remove, Tree.get?_remove same, Tree.get?_remove same, get?_insert isObject,
      if_neg (Ne.symm same)]

theorem remove_of_absent (isObject : value.IsObject) (absent : value.val.get? key = none) :
    value.remove key = value := by
  refine object_ext (isObject.remove key) isObject ?_
  intro other
  by_cases same : other = key
  · rw [same, absent]
    exact Tree.get?_remove_self key _
  · rw [remove, Tree.get?_remove same]

theorem remove_insert (isObject : value.IsObject) (item : Value)
    (absent : value.val.get? key = none) : (value.insert key item).remove key = value := by
  rw [remove_insert_self isObject, remove_of_absent isObject absent]

theorem remove_insert_other (isObject : value.IsObject) (different : key ≠ other) (item : Value) :
    (value.insert key item).remove other = (value.remove other).insert key item := by
  refine object_ext ((isObject.insert key item).remove other)
    ((isObject.remove other).insert key item) ?_
  intro field
  rw [get?_insert (isObject.remove other)]
  by_cases same : field = other
  · subst same
    rw [if_neg different]
    exact (Tree.get?_remove_self field _).trans (Tree.get?_remove_self field _).symm
  · rw [remove, remove, Tree.get?_remove same, Tree.get?_remove same, get?_insert isObject]

theorem isObject_of_mapNumbers (isObject : (value.mapNumbers change).IsObject) :
    value.IsObject := by
  obtain ⟨members, same⟩ := isObject
  obtain ⟨tree, ordered⟩ := value
  cases tree with
  | obj fields => exact ⟨fields, rfl⟩
  | _ => simp [mapNumbers, Tree.mapNumbers] at same

/-! ## Several members at once -/

def insertAll (value : Value) (members : List (String × Value)) : Value :=
  members.foldl (fun done member => done.insert member.1 member.2) value

theorem IsObject.insertAll (isObject : value.IsObject) (members : List (String × Value)) :
    (value.insertAll members).IsObject := by
  induction members generalizing value with
  | nil => exact isObject
  | cons member rest ih => exact ih (isObject.insert member.1 member.2)

theorem depth_insertAll_le {members : List (String × Value)} (shallow : value.depth ≤ limit)
    (inner : ∀ member ∈ members, member.2.depth < limit) :
    (value.insertAll members).depth ≤ limit := by
  induction members generalizing value with
  | nil => exact shallow
  | cons member rest ih =>
    obtain ⟨first, others⟩ := List.forall_mem_cons.mp inner
    exact ih ((value.depth_insert_le _ _).trans (Nat.max_le.mpr ⟨first, shallow⟩)) others

theorem get?_insertAll_other (isObject : value.IsObject) {members : List (String × Value)}
    (other : key ∉ members.map Prod.fst) :
    (value.insertAll members).val.get? key = value.val.get? key := by
  induction members generalizing value with
  | nil => rfl
  | cons member rest ih =>
    simp only [List.map_cons, List.mem_cons, not_or] at other
    rw [insertAll, List.foldl_cons, ← insertAll, ih (isObject.insert _ _) other.2,
      get?_insert isObject, if_neg (Ne.symm other.1)]

theorem get?_insertAll (isObject : value.IsObject) {members : List (String × Value)}
    (distinct : (members.map Prod.fst).Nodup) :
    ∀ member ∈ members, (value.insertAll members).val.get? member.1 = some member.2.val := by
  induction members generalizing value with
  | nil => simp
  | cons first rest ih =>
    obtain ⟨fresh, distinct⟩ := List.nodup_cons.mp distinct
    rw [insertAll, List.foldl_cons, ← insertAll, List.forall_mem_cons]
    refine ⟨?_, ih (isObject.insert _ _) distinct⟩
    rw [get?_insertAll_other (isObject.insert _ _) fresh, get?_insert isObject, if_pos rfl]

theorem IsObject.foldl_remove (isObject : value.IsObject) (keys : List String) :
    (keys.foldl Value.remove value).IsObject := by
  induction keys generalizing value with
  | nil => exact isObject
  | cons key rest ih => exact ih (isObject.remove key)

theorem get?_foldl_remove (value : Value) (keys : List String) (key : String) :
    (keys.foldl Value.remove value).val.get? key =
      if key ∈ keys then none else value.val.get? key := by
  induction keys using List.reverseRecOn with
  | nil => rfl
  | append_singleton rest last ih =>
    rw [List.foldl_append, List.foldl_cons, List.foldl_nil]
    by_cases same : key = last
    · rw [same, if_pos (by simp)]
      exact Tree.get?_remove_self last _
    · rw [Value.remove, Tree.get?_remove same, ih]
      simp [same]

/-! ## Canonical bytes of a part of an object -/

theorem KeysIncreasing.filter {fields : List (String × Value)} (increasing : KeysIncreasing fields)
    (keep : String × Value → Bool) : KeysIncreasing (fields.filter keep) :=
  List.Pairwise.filter keep increasing

end Value

namespace Serde

/-! ## Reading the fields of an object -/

theorem fieldsOfObject_of_present {fields : List Field} (present : ∀ field ∈ fields,
      field.optional = true ∨ ((Tree.obj members).get? field.name).isSome = true) :
    fieldsOfObject members fields =
      some (fields.map fun field => (Tree.obj members).get? field.name) := by
  induction fields with
  | nil => rfl
  | cons field rest ih =>
    have later := ih fun other member => present other (List.mem_cons_of_mem _ member)
    have here := present field (List.mem_cons_self ..)
    simp only [Tree.get?] at here
    simp only [fieldsOfObject, later, List.map_cons, Tree.get?]
    cases found : members.find? fun member => member.1 == field.name with
    | some member => rfl
    | none =>
      rw [found] at here
      rw [if_pos (here.resolve_right (by simp))]
      rfl

theorem present_of_fieldsOfObject {fields : List Field}
    (read : fieldsOfObject members fields = some items) :
    ∀ field ∈ fields,
      field.optional = true ∨ ((Tree.obj members).get? field.name).isSome = true := by
  induction fields generalizing items with
  | nil => simp
  | cons field rest ih =>
    unfold fieldsOfObject at read
    rw [List.forall_mem_cons]
    split at read
    next member found =>
      obtain ⟨tail, readRest, -⟩ := Option.map_eq_some_iff.mp read
      exact ⟨.inr (by rw [Tree.get?, found]; rfl), ih readRest⟩
    next =>
      split at read
      next left =>
        obtain ⟨tail, readRest, -⟩ := Option.map_eq_some_iff.mp read
        exact ⟨.inl left, ih readRest⟩
      next => cases read

/-- A record is read from an object that has no unknown member and has the
required ones. -/
theorem recordFields_obj_iff {fields : List Field} :
    recordFields fields (.obj members) = some items ↔
      (∀ member ∈ members, member.1 ∈ fields.map Field.name) ∧
      (∀ field ∈ fields,
        field.optional = true ∨ ((Tree.obj members).get? field.name).isSome = true) ∧
      items = fields.map fun field => (Tree.obj members).get? field.name := by
  have known : (members.all fun member => fields.any fun field => field.name == member.1) = true ↔
      ∀ member ∈ members, member.1 ∈ fields.map Field.name := by
    simp
  simp only [recordFields]
  constructor
  · intro read
    split at read
    next all =>
      exact ⟨known.mp all, present_of_fieldsOfObject read, fieldsOfObject_eq read⟩
    next => cases read
  · rintro ⟨all, present, rfl⟩
    rw [if_pos (known.mpr all), fieldsOfObject_of_present present]

/-! ## Writing the fields of a record -/

/-- The object of the fields that are present. -/
def objectOf : List (String × Option Value) → Value
  | [] => ⟨.obj [], rfl⟩
  | (key, some item) :: rest => (objectOf rest).insert key item
  | (_, none) :: rest => objectOf rest

theorem objectOf_isObject : ∀ members : List (String × Option Value), (objectOf members).IsObject
  | [] => ⟨[], rfl⟩
  | (key, some item) :: rest => (objectOf_isObject rest).insert key item
  | (_, none) :: rest => objectOf_isObject rest

theorem get?_objectOf_absent : ∀ {members : List (String × Option Value)} {key : String},
    key ∉ members.map Prod.fst → (objectOf members).val.get? key = none
  | [], _, _ => rfl
  | (other, some item) :: rest, key, absent => by
    simp only [List.map_cons, List.mem_cons, not_or] at absent
    rw [objectOf, Value.get?_insert (objectOf_isObject rest), if_neg (Ne.symm absent.1)]
    exact get?_objectOf_absent absent.2
  | (other, none) :: rest, key, absent => by
    simp only [List.map_cons, List.mem_cons, not_or] at absent
    rw [objectOf]
    exact get?_objectOf_absent absent.2

theorem get?_objectOf : ∀ {members : List (String × Option Value)},
    (members.map Prod.fst).Nodup → ∀ member ∈ members,
      (objectOf members).val.get? member.1 = member.2.map Subtype.val
  | (other, item) :: rest, distinct, member, inside => by
    obtain ⟨fresh, distinct⟩ := List.nodup_cons.mp distinct
    rcases List.mem_cons.mp inside with rfl | later
    · cases item with
      | none =>
        rw [objectOf]
        exact get?_objectOf_absent fresh
      | some item => rw [objectOf, Value.get?_insert (objectOf_isObject rest), if_pos rfl]; rfl
    · have differ : other ≠ member.1 := by
        rintro rfl
        exact fresh (List.mem_map.mpr ⟨member, later, rfl⟩)
      have stored := get?_objectOf distinct member later
      cases item with
      | none => exact stored
      | some item =>
        rw [objectOf, Value.get?_insert (objectOf_isObject rest), if_neg differ, stored]

theorem numbersAll_insertField (key : String) (inside : item.NumbersAll holds)
    (all : Tree.FieldsNumbersAll holds fields) :
    Tree.FieldsNumbersAll holds (Tree.insertField key item fields) := by
  induction fields with
  | nil => exact ⟨inside, trivial⟩
  | cons first rest ih =>
    rw [Tree.insertField]
    split
    · exact ⟨inside, all⟩
    · split
      · exact ⟨inside, all.2⟩
      · exact ⟨all.1, ih all.2⟩

theorem numbersAll_objectOf : ∀ {members : List (String × Option Value)},
    (∀ member ∈ members, ∀ item ∈ member.2, item.NumbersAll holds) → (objectOf members).NumbersAll holds
  | [], _ => trivial
  | (key, none) :: rest, all => by
    rw [objectOf]
    exact numbersAll_objectOf fun member later => all member (List.mem_cons_of_mem _ later)
  | (key, some item) :: rest, all => by
    have inside := all _ (List.mem_cons_self ..) item rfl
    have others : (objectOf rest).NumbersAll holds :=
      numbersAll_objectOf fun member later => all member (List.mem_cons_of_mem _ later)
    obtain ⟨fields, isObject⟩ := objectOf_isObject rest
    rw [objectOf]
    generalize objectOf rest = object at others isObject
    obtain ⟨_, ordered⟩ := object
    obtain rfl := isObject
    exact numbersAll_insertField key inside others

theorem depth_objectOf_le : ∀ {members : List (String × Option Value)},
    (∀ member ∈ members, ∀ item ∈ member.2, item.depth ≤ limit) →
      (objectOf members).depth ≤ limit + 1
  | [], _ => Nat.le_add_left 1 limit
  | (key, none) :: rest, all => by
    rw [objectOf]
    exact depth_objectOf_le fun member later => all member (List.mem_cons_of_mem _ later)
  | (key, some item) :: rest, all => by
    have inside := all _ (List.mem_cons_self ..) item rfl
    have others : (objectOf rest).depth ≤ limit + 1 :=
      depth_objectOf_le fun member later => all member (List.mem_cons_of_mem _ later)
    have inserted := (objectOf rest).depth_insert_le key item
    rw [objectOf]
    omega

theorem recordFields_objectOf {fields : List Field} {members : List (String × Option Value)}
    (names : fields.map Field.name = members.map Prod.fst)
    (distinct : (fields.map Field.name).Nodup)
    (present : List.Forall₂ (fun field (member : String × Option Value) =>
      field.optional = true ∨ member.2.isSome = true) fields members) :
    recordFields fields (objectOf members).val =
      some (members.map fun member => member.2.map Subtype.val) := by
  have distinct' : (members.map Prod.fst).Nodup := names ▸ distinct
  have stored := get?_objectOf distinct'
  have absent := fun key => @get?_objectOf_absent members key
  obtain ⟨written, isObject⟩ := objectOf_isObject members
  rw [isObject] at stored absent ⊢
  refine recordFields_obj_iff.mpr ⟨?_, ?_, ?_⟩
  · intro member inside
    by_contra unknown
    have found := Tree.get?_isSome_of_mem inside
    rw [absent member.1 (names ▸ unknown)] at found
    cases found
  · intro field inside
    obtain ⟨i, bound, rfl⟩ := List.getElem_of_mem inside
    have bound' : i < members.length := present.length_eq ▸ bound
    have same : (fields[i]).name = (members[i]).1 := by
      have at_i := congrArg (fun list => list[i]?) names
      simpa [bound, bound'] using at_i
    rw [same, stored _ (List.getElem_mem bound'), Option.isSome_map]
    exact present.get bound bound'
  · have mapped : (members.map fun member => member.2.map Subtype.val) =
        (members.map Prod.fst).map fun name => (Tree.obj written).get? name := by
      rw [List.map_map]
      exact List.map_congr_left fun member inside => (stored member inside).symm
    rw [mapped, ← names, List.map_map]
    rfl

/-- Writing back the members of an object, up to a change of numbers, gives the
object. -/
theorem objectOf_mapNumbers {members : List (String × Option Value)} (isObject : value.IsObject)
    (distinct : (members.map Prod.fst).Nodup)
    (known : ∀ key, (value.val.get? key).isSome = true → key ∈ members.map Prod.fst)
    (same : ∀ member ∈ members, member.2.map (fun item => item.val.mapNumbers change) =
      (value.val.get? member.1).map (Tree.mapNumbers change)) :
    (objectOf members).mapNumbers change = value.mapNumbers change := by
  have changed : ∀ other : Value, other.IsObject → (other.mapNumbers change).IsObject := by
    rintro other ⟨fields, shown⟩
    exact ⟨_, congrArg (Tree.mapNumbers change) shown⟩
  refine Value.object_ext (changed _ (objectOf_isObject members)) (changed _ isObject) ?_
  intro key
  simp only [Value.mapNumbers, Tree.get?_mapNumbers]
  by_cases named : key ∈ members.map Prod.fst
  · obtain ⟨member, inside, rfl⟩ := List.mem_map.mp named
    rw [get?_objectOf distinct member inside, ← same member inside, Option.map_map]
    rfl
  · have missing : value.val.get? key = none := by
      by_contra present
      exact named (known key (Option.isSome_iff_ne_none.mpr present))
    rw [get?_objectOf_absent named, missing]

end Serde

end Famp.Json
