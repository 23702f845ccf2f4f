import Famp.Json.Double
import Mathlib.Algebra.Group.Int.Defs

/-!
# Reading typed data from a JSON tree

The reading rules of the derived deserializers for records and for enumerations
without payload, as they apply to a parsed JSON document.  A record is read
from an object, unknown keys refused, or from an array of its fields in
declaration order; an enumeration from the name of a variant, or from an object
whose only member is the variant with a null payload.
-/

set_option autoImplicit false

namespace Famp.Json.Serde

structure Field where
  name : String
  /-- An object may leave the field out. -/
  optional : Bool := false
  /-- An array may end before the field. -/
  defaulted : Bool := false

def required (name : String) : Field := { name := name }

def optional (name : String) : Field := { name := name, optional := true }

def defaulted (name : String) : Field := { name := name, optional := true, defaulted := true }

@[simp] theorem optional_optional (name : String) : (optional name).optional = true := rfl

@[simp] theorem optional_defaulted (name : String) : (defaulted name).optional = true := rfl

def fieldsOfObject (members : List (String × Tree)) : List Field → Option (List (Option Tree))
  | [] => some []
  | field :: rest =>
    match members.find? fun member => member.1 == field.name with
    | some member => (fieldsOfObject members rest).map (some member.2 :: ·)
    | none =>
      if field.optional then (fieldsOfObject members rest).map (none :: ·) else none

theorem fieldsOfObject_eq {members : List (String × Tree)} {fields : List Field}
    {items : List (Option Tree)} (read : fieldsOfObject members fields = some items) :
    items = fields.map fun field => (Tree.obj members).get? field.name := by
  induction fields generalizing items with
  | nil => exact (Option.some.inj read).symm
  | cons field rest ih =>
    unfold fieldsOfObject at read
    rw [List.map_cons]
    split at read
    next member found =>
      obtain ⟨tail, readRest, rfl⟩ := Option.map_eq_some_iff.mp read
      rw [ih readRest, Tree.get?, found, Option.map_some]
    next missing =>
      split at read
      · obtain ⟨tail, readRest, rfl⟩ := Option.map_eq_some_iff.mp read
        rw [ih readRest, Tree.get?, missing, Option.map_none]
      · cases read

/-- The item of each declared field, the items taken in declaration order. -/
def fieldsOfArray : List Tree → List Field → Option (List (Option Tree))
  | [], [] => some []
  | _ :: _, [] => none
  | item :: items, _ :: rest => (fieldsOfArray items rest).map (some item :: ·)
  | [], field :: rest =>
    if field.defaulted then (fieldsOfArray [] rest).map (none :: ·) else none

def recordFields (fields : List Field) : Tree → Option (List (Option Tree))
  | .obj members =>
    if members.all fun member => fields.any fun field => field.name == member.1 then
      fieldsOfObject members fields
    else none
  | .arr items => fieldsOfArray items fields
  | _ => none

def variantName : Tree → Option String
  | .str name => some name
  | .obj [(name, .null)] => some name
  | _ => none

/-- The variant named by the tag of an internally tagged enumeration, and the
record of its fields. -/
def taggedContent (tag : String) : Tree → Option (String × Tree)
  | .obj members =>
    match members.find? fun member => member.1 == tag with
    | some (_, .str name) => some (name, .obj (members.filter fun member => member.1 != tag))
    | _ => none
  | .arr (.str name :: fields) => some (name, .arr fields)
  | _ => none

theorem read_first {α β : Type} {first : Option α} {rest : α → Option β} {result : β}
    (read : first >>= rest = some result) : ∃ item, first = some item ∧ rest item = some result :=
  Option.bind_eq_some_iff.mp read

/-- A field that is present and is read by `read`. -/
def readField {α : Type} (read : Tree → Option α) : Option Tree → Option α
  | some tree => read tree
  | none => none

theorem readField_eq_bind {α : Type} (read : Tree → Option α) (field : Option Tree) :
    readField read field = field.bind read := by
  cases field <;> rfl

theorem isSome_of_readField {α : Type} {read : Tree → Option α} {field : Option Tree} {item : α}
    (found : readField read field = some item) : field.isSome = true := by
  cases field with
  | none => cases found
  | some tree => rfl

/-- A field that may be absent or null. -/
def readOption {α : Type} (read : Tree → Option α) : Option Tree → Option (Option α)
  | none => some none
  | some .null => some none
  | some tree => (read tree).map some

/-- A field that takes a default value where it is absent. -/
def readDefault {α : Type} (default : α) (read : Tree → Option α) : Option Tree → Option α
  | none => some default
  | some tree => read tree

def readString : Tree → Option String := Tree.asStr?

def readBool : Tree → Option Bool
  | .bool flag => some flag
  | _ => none

/-- An unsigned integer of `width` bits. -/
def readUnsigned (width : Nat) : Tree → Option Nat
  | .num (.int value) => if 0 ≤ value ∧ value < 2 ^ width then some value.toNat else none
  | _ => none

def readBits (width : Nat) (tree : Tree) : Option (BitVec width) :=
  (readUnsigned width tree).map (BitVec.ofNat width)

def readDouble : Tree → Option Double
  | .num value => some value.toDouble
  | _ => none

/-- Any document.  The parts of a parsed document are parsed documents. -/
def readValue (tree : Tree) : Option Value :=
  if ordered : tree.isOrdered = true then some ⟨tree, ordered⟩ else none

def readList {α : Type} (read : Tree → Option α) : Tree → Option (List α)
  | .arr items => items.mapM read
  | _ => none

/-- An ordered map of documents. -/
abbrev Members := { members : List (String × Tree) // Tree.fieldsOrdered members = true }

def readMap : Tree → Option Members
  | .obj members =>
    if ordered : Tree.fieldsOrdered members = true then some ⟨members, ordered⟩ else none
  | _ => none

end Famp.Json.Serde
