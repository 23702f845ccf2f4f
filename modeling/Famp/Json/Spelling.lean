import Famp.Json.Object

/-!
# Plain spelling

A derived deserializer takes several spellings of one record: null for an optional
field that is absent, an array for a record, an object with a null payload for the
name of a variant, and upper case in an identifier.  A derived serializer writes
one of them.  A `Shape` says where in a document these choices are, and the
document is plain where it makes them as the serializer does.  On plain documents
reading and writing are inverse to each other, up to the form of numbers.
-/

set_option autoImplicit false

namespace Famp.Json

/-- Every number taken as its double. -/
def Tree.doubles (tree : Tree) : Tree := tree.mapNumbers Number.asDouble

variable {value : Value} {members : List (String × Option Value)} {item : Option Value}
  {tree : Option Tree}

namespace Serde

inductive Shape where
  /-- A document that is spelled in one way. -/
  | any
  /-- A number, finite as every number that is read. -/
  | double
  /-- The name of a variant. -/
  | variant
  /-- An identifier whose letters may be of either case. -/
  | identifier
  | list (item : Shape)
  | record (fields : List (Field × Shape))

mutual
def Shape.plain : Shape → Tree → Bool
  | .any, _ => true
  | .double, .num number => number.toDouble.isFinite
  | .double, _ => false
  | .variant, tree => tree.asStr?.isSome
  | .identifier, .str text => text.toList.all fun c => !('A' ≤ c && c ≤ 'Z')
  | .identifier, _ => false
  | .list item, .arr items => items.all fun tree => item.plain tree
  | .list _, _ => false
  | .record fields, .obj members => fieldsPlain fields (.obj members)
  | .record _, _ => false

/-- No optional field is null, and every field is plain. -/
def fieldsPlain : List (Field × Shape) → Tree → Bool
  | [], _ => true
  | (field, shape) :: rest, tree =>
    (match tree.get? field.name with
      | none => true
      | some item => (!field.optional || decide (item ≠ .null)) && shape.plain item) &&
    fieldsPlain rest tree
end

mutual
theorem Shape.plain_doubles : ∀ (shape : Shape) (tree : Tree),
    shape.plain tree.doubles = shape.plain tree
  | .any, _ => by simp only [Shape.plain]
  | .double, tree => by cases tree <;> rfl
  | .variant, tree => by cases tree <;> rfl
  | .identifier, tree => by cases tree <;> rfl
  | .list item, .arr items => by
    simp only [Tree.doubles, Tree.mapNumbers, Shape.plain]
    induction items with
    | nil => rfl
    | cons first rest ih =>
      have head := Shape.plain_doubles item first
      simp only [Tree.doubles] at head
      simp only [Tree.mapNumbersItems, List.all_cons, head, ih]
  | .list _, .null | .list _, .bool _ | .list _, .num _ | .list _, .str _ | .list _, .obj _ => rfl
  | .record fields, .obj members => fieldsPlain_doubles fields (.obj members)
  | .record _, .null | .record _, .bool _ | .record _, .num _ | .record _, .str _
  | .record _, .arr _ => rfl

theorem fieldsPlain_doubles : ∀ (fields : List (Field × Shape)) (tree : Tree),
    fieldsPlain fields tree.doubles = fieldsPlain fields tree
  | [], _ => by simp only [fieldsPlain]
  | (field, shape) :: rest, tree => by
    have later := fieldsPlain_doubles rest tree
    have member : tree.doubles.get? field.name = (tree.get? field.name).map Tree.doubles :=
      Tree.get?_mapNumbers Number.asDouble field.name tree
    rw [fieldsPlain, fieldsPlain, later, member]
    cases tree.get? field.name with
    | none => rfl
    | some item =>
      have same := Shape.plain_doubles shape item
      have null : item.doubles = .null ↔ item = .null := by
        cases item <;> simp [Tree.doubles, Tree.mapNumbers]
      simp only [Option.map_some, same, ne_eq, null]
end

/-- A field of a plain record, as part of an ordered document. -/
structure PlainField (declared : Field × Shape) (item : Option Tree) : Prop where
  ordered : ∀ tree, item = some tree → tree.isOrdered = true
  present : declared.1.optional = true → item ≠ some .null
  plain : ∀ tree, item = some tree → declared.2.plain tree = true

theorem fieldsPlain_iff : ∀ {fields : List (Field × Shape)},
    fieldsPlain fields value.val = true ↔
      ∀ declared ∈ fields, PlainField declared (value.val.get? declared.1.name)
  | [] => by simp [fieldsPlain]
  | (field, shape) :: rest => by
    rw [fieldsPlain, Bool.and_eq_true, List.forall_mem_cons, fieldsPlain_iff]
    refine and_congr_left fun _ => ?_
    cases found : value.val.get? field.name with
    | none => exact ⟨fun _ => ⟨by simp, by simp, by simp⟩, fun _ => rfl⟩
    | some item =>
      have ordered := Tree.isOrdered_of_get? value.property found
      simp only [Bool.and_eq_true, Bool.or_eq_true, Bool.not_eq_true', decide_eq_true_eq]
      constructor
      · rintro ⟨present, plain⟩
        refine ⟨?_, ?_, ?_⟩
        · rintro tree ⟨⟩
          exact ordered
        · intro optional null
          exact present.elim (fun required => Bool.noConfusion (optional.symm.trans required))
            fun other => other (Option.some.inj null)
        · rintro tree ⟨⟩
          exact plain
      · intro plain
        refine ⟨?_, plain.plain item rfl⟩
        cases optional : field.optional with
        | false => exact .inl rfl
        | true => exact .inr fun null => plain.present optional (congrArg some null)

theorem Shape.plain_record {fields : List (Field × Shape)} :
    (Shape.record fields).plain value.val = true ↔
      value.IsObject ∧ ∀ declared ∈ fields, PlainField declared (value.val.get? declared.1.name) := by
  rw [← fieldsPlain_iff, Value.IsObject]
  cases value.val with
  | obj members => simp [Shape.plain]
  | _ => simp [Shape.plain]

/-- Two lists related item by item, as the conjunction that a proof takes apart. -/
def Aligned {α β : Type} (related : α → β → Prop) : List α → List β → Prop
  | [], [] => True
  | a :: as, b :: bs => related a b ∧ Aligned related as bs
  | _, _ => False

theorem aligned_iff {α β : Type} {related : α → β → Prop} : ∀ {as : List α} {bs : List β},
    Aligned related as bs ↔ List.Forall₂ related as bs
  | [], [] => by simp [Aligned]
  | [], _ :: _ => by simp [Aligned]
  | _ :: _, [] => by simp [Aligned]
  | a :: as, b :: bs => by rw [Aligned, List.forall₂_cons, aligned_iff]

theorem Shape.plain_items {declared : List (Field × Shape)} {fields : List Field}
    {items : List (Option Tree)} (plain : (Shape.record declared).plain value.val = true)
    (names : declared.map Prod.fst = fields) (read : recordFields fields value.val = some items) :
    Aligned PlainField declared items := by
  obtain ⟨⟨members, isObject⟩, each⟩ := Shape.plain_record.mp plain
  rw [isObject] at read each
  obtain ⟨-, -, rfl⟩ := recordFields_obj_iff.mp read
  rw [aligned_iff, ← names, List.map_map, List.forall₂_map_right_iff, List.forall₂_same]
  exact each

theorem Shape.plain_objectOf {declared : List (Field × Shape)}
    (plain : (Shape.record declared).plain (objectOf members).val = true)
    (names : (declared.map Prod.fst).map Field.name = members.map Prod.fst)
    (distinct : ((declared.map Prod.fst).map Field.name).Nodup) :
    Aligned (fun declared (member : String × Option Value) =>
      PlainField declared (member.2.map Subtype.val)) declared members := by
  obtain ⟨-, each⟩ := Shape.plain_record.mp plain
  have stored := get?_objectOf (names ▸ distinct)
  generalize (objectOf members).val = tree at each stored
  clear plain distinct
  induction declared generalizing members with
  | nil =>
    obtain rfl : members = [] := by simpa using names.symm
    trivial
  | cons first rest ih =>
    cases members with
    | nil => simp at names
    | cons member more =>
      simp only [List.map_cons, List.cons.injEq] at names
      rw [List.forall_mem_cons] at each stored
      refine ⟨?_, ih names.2 each.2 stored.2⟩
      have here := each.1
      rwa [names.1, stored.1] at here

theorem Shape.plain_of_aligned {declared : List (Field × Shape)}
    (aligned : Aligned (fun declared (member : String × Option Value) =>
      PlainField declared (member.2.map Subtype.val)) declared members)
    (names : (declared.map Prod.fst).map Field.name = members.map Prod.fst)
    (distinct : ((declared.map Prod.fst).map Field.name).Nodup) :
    (Shape.record declared).plain (objectOf members).val = true := by
  refine Shape.plain_record.mpr ⟨objectOf_isObject members, ?_⟩
  have stored := get?_objectOf (names ▸ distinct)
  generalize (objectOf members).val = tree at stored ⊢
  clear distinct
  induction declared generalizing members with
  | nil => simp
  | cons first rest ih =>
    cases members with
    | nil => cases aligned
    | cons member more =>
      simp only [List.map_cons, List.cons.injEq] at names
      rw [List.forall_mem_cons] at stored ⊢
      refine ⟨?_, ih aligned.2 names.2 stored.2⟩
      rw [names.1, stored.1]
      exact aligned.1

theorem objectOf_doubles {fields : List Field} {items : List (Option Tree)}
    (isObject : value.IsObject) (read : recordFields fields value.val = some items)
    (names : fields.map Field.name = members.map Prod.fst)
    (distinct : (fields.map Field.name).Nodup)
    (same : Aligned (fun item (member : String × Option Value) =>
      member.2.map (fun part => part.val.doubles) = item.map Tree.doubles) items members) :
    (objectOf members).val.doubles = value.val.doubles := by
  obtain ⟨written, shown⟩ := isObject
  rw [shown] at read
  obtain ⟨known, -, rfl⟩ := recordFields_obj_iff.mp read
  refine congrArg Subtype.val (objectOf_mapNumbers ⟨written, shown⟩ (names ▸ distinct) ?_ ?_)
  · intro key present
    rw [shown, Option.isSome_iff_exists] at present
    obtain ⟨item, found⟩ := present
    exact names ▸ known _ (Tree.mem_of_get? found)
  · have fields_eq : (fields.map fun field => (Tree.obj written).get? field.name) =
        members.map fun member => (Tree.obj written).get? member.1 := by
      have mapped := congrArg (List.map fun name => (Tree.obj written).get? name) names
      simpa only [List.map_map, Function.comp_def] using mapped
    rw [aligned_iff, fields_eq, List.forall₂_map_left_iff, List.forall₂_same] at same
    intro member inside
    rw [shown]
    exact same member inside

/-! ## Fields that are written plainly -/

theorem PlainField.of_value {field : Field} {shape : Shape} {item : Value}
    (plain : shape.plain item.val = true) (present : item.val ≠ .null) :
    PlainField (field, shape) (some item.val) where
  ordered := by
    rintro tree ⟨⟩
    exact item.property
  present _ null := present (Option.some.inj null)
  plain := by
    rintro tree ⟨⟩
    exact plain

theorem PlainField.of_required {name : String} {shape : Shape} {item : Value}
    (plain : shape.plain item.val = true) : PlainField (required name, shape) (some item.val) where
  ordered := by
    rintro tree ⟨⟩
    exact item.property
  present := by rintro ⟨⟩
  plain := by
    rintro tree ⟨⟩
    exact plain

theorem PlainField.of_option {α : Type} {write : α → Value} {field : Field} {shape : Shape}
    {item : Option α}
    (plain : ∀ content ∈ item, shape.plain (write content).val = true ∧ (write content).val ≠ .null) :
    PlainField (field, shape) ((item.map write).map Subtype.val) := by
  cases item with
  | none => exact ⟨by simp, by simp, by simp⟩
  | some content => exact .of_value (plain content rfl).1 (plain content rfl).2

theorem PlainField.of_optional_value {field : Field} (present : item ≠ some .null) :
    PlainField (field, .any) (item.map Subtype.val) := by
  cases item with
  | none => exact ⟨by simp, by simp, by simp⟩
  | some content =>
    exact .of_value rfl fun null => present (congrArg some (Subtype.ext null))

theorem objectOf_ne_null (members : List (String × Option Value)) :
    (objectOf members).val ≠ .null := by
  obtain ⟨fields, isObject⟩ := objectOf_isObject members
  rw [isObject]
  simp

/-! ## Readers and writers that belong together -/

/-- What is read from a plain document is written as that document. -/
structure Written {α : Type} (read : Tree → Option α) (write : α → Value) (shape : Shape) :
    Prop where
  write_read : ∀ {value : Value} {item : α}, shape.plain value.val = true →
    read value.val = some item → (write item).val.doubles = value.val.doubles

/-- And what is written as a plain document is read back. -/
structure Serialized {α : Type} (read : Tree → Option α) (write : α → Value) (shape : Shape) : Prop
    extends Written read write shape where
  read_write : ∀ item, shape.plain (write item).val = true → read (write item).val = some item

section Fields
variable {α : Type} {read : Tree → Option α} {write : α → Value} {shape : Shape}

theorem Serialized.readField_write (codec : Serialized read write shape) {field : Field} {item : α}
    (plain : PlainField (field, shape) (some (write item).val)) :
    readField read (some (write item).val) = some item :=
  codec.read_write item (plain.plain _ rfl)

theorem Serialized.readOption_write (codec : Serialized read write shape) {field : Field}
    {item : Option α} (optional : field.optional = true)
    (plain : PlainField (field, shape) ((item.map write).map Subtype.val)) :
    readOption read ((item.map write).map Subtype.val) = some item := by
  cases item with
  | none => rfl
  | some item =>
    have value := codec.read_write item (plain.plain _ rfl)
    have present := plain.present optional
    simp only [Option.map_some] at present ⊢
    unfold readOption
    split
    next absent => cases absent
    next null => exact absurd null present
    next tree same =>
      cases same
      rw [value, Option.map_some]

theorem Written.write_readField (codec : Written read write shape) {field : Field} {item : α}
    (plain : PlainField (field, shape) tree) (found : readField read tree = some item) :
    (some (write item)).map (fun value => value.val.doubles) = tree.map Tree.doubles := by
  cases tree with
  | none => cases found
  | some tree =>
    let value : Value := ⟨tree, plain.ordered tree rfl⟩
    exact congrArg some (@Written.write_read _ _ _ _ codec value item (plain.plain tree rfl) found)

theorem Written.write_readOption (codec : Written read write shape) {field : Field}
    {item : Option α} (optional : field.optional = true) (plain : PlainField (field, shape) tree)
    (found : readOption read tree = some item) :
    (item.map write).map (fun value => value.val.doubles) = tree.map Tree.doubles := by
  unfold readOption at found
  split at found
  next => obtain rfl := Option.some.inj found; rfl
  next => exact absurd rfl (plain.present optional)
  next tree _ =>
    obtain ⟨content, inner, rfl⟩ := Option.map_eq_some_iff.mp found
    let value : Value := ⟨tree, plain.ordered tree rfl⟩
    exact congrArg some
      (@Written.write_read _ _ _ _ codec value content (plain.plain tree rfl) inner)

end Fields

theorem readString_serialized : Serialized readString Value.str .any where
  read_write _ _ := rfl
  write_read {value item} _ found := by
    obtain ⟨tree, ordered⟩ := value
    cases tree <;> cases found
    rfl

theorem readBool_serialized : Serialized readBool Value.bool .any where
  read_write _ _ := rfl
  write_read {value item} _ found := by
    obtain ⟨tree, ordered⟩ := value
    cases tree <;> cases found
    rfl

theorem readBits_serialized (width : Nat) :
    Serialized (readBits width) (fun bits => Value.int bits.toNat) .any where
  read_write bits _ := by
    have bound : (bits.toNat : Int) < 2 ^ width := by exact_mod_cast bits.isLt
    simp [readBits, Value.int, readUnsigned, bound]
  write_read {value item} _ found := by
    obtain ⟨tree, ordered⟩ := value
    obtain ⟨value, read, rfl⟩ := Option.map_eq_some_iff.mp found
    cases tree with
    | num number =>
      cases number with
      | int number =>
        simp only [readUnsigned] at read
        split at read
        next bounds =>
          cases read
          have small : number.toNat < 2 ^ width :=
            (Int.toNat_lt bounds.1).mpr (by exact_mod_cast bounds.2)
          rw [BitVec.toNat_ofNat, Nat.mod_eq_of_lt small, Int.toNat_of_nonneg bounds.1]
          rfl
        next => cases read
      | float => cases read
    | _ => cases read

theorem readDouble_serialized : Serialized readDouble Double.toValue .double where
  read_write bits plain := by
    unfold Double.toValue at plain ⊢
    split at plain
    next finite =>
      rw [if_pos finite]
      rfl
    next => cases plain
  write_read {value bits} plain found := by
    obtain ⟨tree, ordered⟩ := value
    cases tree with
    | num number =>
      cases found
      have finite : number.toDouble.isFinite = true := plain
      rw [Double.toValue, if_pos finite]
      rfl
    | _ => cases found

theorem readValue_serialized : Serialized readValue (fun value => value) .any where
  read_write value _ := dif_pos value.property
  write_read {value item} _ found := by
    unfold readValue at found
    split at found
    next => obtain rfl := Option.some.inj found; rfl
    next => cases found

theorem readOption_value {field : Field} (optional : field.optional = true)
    (plain : PlainField (field, .any) (item.map Subtype.val)) :
    readOption readValue (item.map Subtype.val) = some item := by
  have read := @Serialized.readOption_write _ _ _ _ readValue_serialized field item optional
  rw [Option.map_id'] at read
  exact read plain

theorem write_readOption_value {field : Field} (optional : field.optional = true)
    (plain : PlainField (field, .any) tree) (found : readOption readValue tree = some item) :
    item.map (fun value => value.val.doubles) = tree.map Tree.doubles := by
  have written := readValue_serialized.write_readOption optional plain found
  rwa [Option.map_id'] at written

theorem readMap_serialized :
    Serialized readMap (fun members => ⟨.obj members.val, members.property⟩) .any where
  read_write members _ := dif_pos members.property
  write_read {value item} _ found := by
    unfold readMap at found
    split at found
    next members shown =>
      split at found
      next =>
        cases found
        rw [shown]
      next => cases found
    next => cases found

abbrev VariantSerialized {α : Type} (ofName : String → Option α) (name : α → String) : Prop :=
  Serialized (fun tree => (variantName tree).bind ofName) (fun variant => Value.str (name variant))
    .variant

theorem readVariant_serialized {α : Type} {ofName : String → Option α} {name : α → String}
    (ofName_name : ∀ variant, ofName (name variant) = some variant)
    (name_ofName : ∀ text variant, ofName text = some variant → name variant = text) :
    VariantSerialized ofName name where
  read_write variant _ := ofName_name variant
  write_read {value variant} plain found := by
    obtain ⟨tree, ordered⟩ := value
    cases tree with
    | str text =>
      rw [← name_ofName text variant found]
      rfl
    | _ => cases plain

theorem readList_serialized {α : Type} {read : Tree → Option α} {write : α → Value} {shape : Shape}
    (codec : Serialized read write shape) :
    Serialized (readList read) (fun items => Value.arr (items.map write)) (.list shape) where
  read_write items plain := by
    simp only [Value.arr, Shape.plain, List.map_map, List.all_map, List.all_eq_true,
      Function.comp] at plain
    simp only [Value.arr, readList]
    induction items with
    | nil => rfl
    | cons item rest ih =>
      rw [List.forall_mem_cons] at plain
      have later := ih plain.2
      simp only [List.map_cons, List.mapM_cons, codec.read_write item plain.1, later]
      rfl
  write_read {value items} plain found := by
    obtain ⟨tree, ordered⟩ := value
    cases tree with
    | arr trees =>
      simp only [Shape.plain, List.all_eq_true] at plain
      simp only [readList] at found
      refine congrArg Tree.arr ?_
      change Tree.itemsOrdered trees = true at ordered
      induction trees generalizing items with
      | nil =>
        obtain rfl : [] = items := Option.some.inj found
        rfl
      | cons tree rest ih =>
        simp only [Tree.itemsOrdered, Bool.and_eq_true] at ordered
        rw [List.forall_mem_cons] at plain
        rw [List.mapM_cons] at found
        obtain ⟨item, first, found⟩ := read_first found
        obtain ⟨more, later, found⟩ := read_first found
        cases found
        have head : ((write item).val).mapNumbers Number.asDouble =
            tree.mapNumbers Number.asDouble :=
          @Written.write_read _ _ _ _ codec.toWritten ⟨tree, ordered.1⟩ item plain.1 first
        simp only [List.map_cons, Tree.mapNumbersItems, head, ih later plain.2 ordered.2]
    | _ => cases found

theorem readValues_serialized : Serialized (readList readValue) Value.arr (.list .any) := by
  simpa only [List.map_id'] using readList_serialized readValue_serialized

/-! ## Records -/

/-- A field of a record: when a member is read as what the record has in it, and the
member that is written for it. -/
structure FieldCodec where
  declared : Field × Shape
  reads : Option Tree → Prop
  written : Option Value
  present : declared.1.optional = true ∨ written.isSome = true
  reads_written : PlainField declared (written.map Subtype.val) → reads (written.map Subtype.val)
  written_of_reads : ∀ {tree}, PlainField declared tree → reads tree →
    written.map (fun value => value.val.doubles) = tree.map Tree.doubles

section Record
variable {α : Type} {read : Tree → Option α} {write : α → Value} {shape : Shape}

@[simps reads]
def Serialized.field (codec : Serialized read write shape) (name : String) (item : α) :
    FieldCodec where
  declared := (required name, shape)
  reads tree := readField read tree = some item
  written := some (write item)
  present := .inr rfl
  reads_written := codec.readField_write
  written_of_reads := codec.write_readField

@[simps reads]
def Serialized.option (codec : Serialized read write shape) (name : String) (item : Option α) :
    FieldCodec where
  declared := (optional name, shape)
  reads tree := readOption read tree = some item
  written := item.map write
  present := .inl rfl
  reads_written := codec.readOption_write rfl
  written_of_reads := codec.write_readOption rfl

@[simps reads]
def optionalValue (name : String) (item : Option Value) : FieldCodec where
  declared := (optional name, .any)
  reads tree := readOption readValue tree = some item
  written := item
  present := .inl rfl
  reads_written := readOption_value rfl
  written_of_reads := write_readOption_value rfl

/-- A record is read and written field by field. -/
theorem Serialized.record {declared : List (Field × Shape)} (fields : α → List FieldCodec)
    (shape : ∀ item, (fields item).map FieldCodec.declared = declared)
    (writes : ∀ item, write item =
      objectOf ((fields item).map fun field => (field.declared.1.name, field.written)))
    (distinct : ((declared.map Prod.fst).map Field.name).Nodup)
    (read_iff : ∀ {tree item}, read tree = some item ↔ ∃ items,
      recordFields (declared.map Prod.fst) tree = some items ∧
        List.Forall₂ FieldCodec.reads (fields item) items) :
    Serialized read write (.record declared) := by
  have names : ∀ item, (declared.map Prod.fst).map Field.name =
      ((fields item).map fun field => (field.declared.1.name, field.written)).map Prod.fst := by
    intro item
    simp [← shape item, Function.comp_def]
  refine { write_read := fun {value item} plain found => ?_, read_write := fun item plain => ?_ }
  · obtain ⟨items, fieldsRead, reads⟩ := read_iff.mp found
    obtain ⟨isObject, -⟩ := Shape.plain_record.mp plain
    have each := Shape.plain_items plain rfl fieldsRead
    rw [writes]
    refine objectOf_doubles isObject fieldsRead (names item) distinct ?_
    rw [aligned_iff, ← shape item, List.forall₂_map_left_iff] at each
    rw [aligned_iff, List.forall₂_map_right_iff]
    exact (List.Forall₂.mp (fun field _ => field.written_of_reads) each reads).flip
  · rw [writes] at plain ⊢
    have aligned := Shape.plain_objectOf plain (names item) distinct
    refine read_iff.mpr ⟨_, recordFields_objectOf (names item) distinct ?_, ?_⟩
    · rw [← shape item]
      simp [FieldCodec.present]
    · rw [aligned_iff, ← shape item, List.forall₂_map_left_iff, List.forall₂_map_right_iff,
        List.forall₂_same] at aligned
      rw [List.forall₂_map_right_iff, List.forall₂_map_right_iff, List.forall₂_same]
      exact fun field inside => field.reads_written (aligned field inside)

end Record

end Serde

end Famp.Json
