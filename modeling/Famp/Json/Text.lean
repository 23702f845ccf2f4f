import Famp.Json.Double
import Famp.Json.Nesting
import Mathlib.Algebra.GroupWithZero.Nat

/-!
# JSON text

`Text` stands for the two library functions that turn bytes into a syntax tree
and a value into its canonical bytes.  Its laws are the documented facts that a
caller may rely on: canonical bytes are the text of the same value up to its
numbers, without a repeated key, they hold no line break, and an array or an
object is laid out from the canonical bytes of its parts.  The parser stops at its
recursion limit, and the printers have none: what is nested deeper is written and
not read back.

Canonical text writes every number as a double.  `number` is the number that is
read back from what was written: the same one where it is exact, and one that is
written in the same way where it is not.

`fromSlice` and `fromSliceStrict` are the two ways of reading a value: both
collect the members of an object in an ordered map, the strict one after
refusing a repeated key at any depth.
-/

set_option autoImplicit false

namespace Famp.Json

abbrev Bytes := List UInt8

/-- UTF-8 bytes of a string. -/
def utf8 (text : String) : Bytes := text.toUTF8.data.toList

@[simp] theorem utf8_quote : utf8 "\"" = [34] := by decide
@[simp] theorem utf8_quoteColon : utf8 "\":" = [34, 58] := by decide
@[simp] theorem utf8_colon : utf8 ":" = [58] := by decide
@[simp] theorem utf8_comma : utf8 "," = [44] := by decide
@[simp] theorem utf8_openBracket : utf8 "[" = [91] := by decide
@[simp] theorem utf8_closeBracket : utf8 "]" = [93] := by decide
@[simp] theorem utf8_openBrace : utf8 "\x7b" = [123] := by decide
@[simp] theorem utf8_closeBrace : utf8 "\x7d" = [125] := by decide

/-- Keys whose canonical text is the key itself between quotes, and whose order
is the order of their bytes. -/
def PlainKey (key : String) : Prop :=
  ∀ c ∈ key.toList, 0x20 ≤ c.toNat ∧ c.toNat < 0x7f ∧ c ≠ '"' ∧ c ≠ '\\'

/-- `parts` with a comma between each two. -/
def commaSeparated : List Bytes → Bytes
  | [] => []
  | [part] => part
  | part :: rest => part ++ utf8 "," ++ commaSeparated rest

def arrayText (parts : List Bytes) : Bytes := utf8 "[" ++ commaSeparated parts ++ utf8 "]"

def memberText (key : String) (part : Bytes) : Bytes := utf8 "\"" ++ utf8 key ++ utf8 "\":" ++ part

def objectText (members : List (String × Bytes)) : Bytes :=
  utf8 "\x7b" ++ commaSeparated (members.map fun member => memberText member.1 member.2) ++
    utf8 "\x7d"

/-- Canonical bytes of the members of an object, in order. -/
def canonicalMembers (canonicalize : Value → Except String Bytes) :
    List (String × Value) → Except String (List (String × Bytes))
  | [] => .ok []
  | (key, item) :: rest =>
    match canonicalize item with
    | .error error => .error error
    | .ok part =>
      match canonicalMembers canonicalize rest with
      | .error error => .error error
      | .ok members => .ok ((key, part) :: members)

def canonicalItems (canonicalize : Value → Except String Bytes) :
    List Value → Except String (List Bytes)
  | [] => .ok []
  | item :: rest =>
    match canonicalize item with
    | .error error => .error error
    | .ok part =>
      match canonicalItems canonicalize rest with
      | .error error => .error error
      | .ok parts => .ok (part :: parts)

/-- `serde_json` counts down from 128 and refuses the level at which it arrives at zero. -/
def maxNesting : Nat := 127

structure Text where
  parse : Bytes → Except String Tree
  canonicalize : Value → Except String Bytes
  number : Number → Number
  number_exact : ∀ value : Number, value.Exact → number value = value
  number_idem : ∀ value, number (number value) = number value
  canonicalize_number : ∀ value : Value,
    canonicalize (value.mapNumbers number) = canonicalize value
  parse_depth : ∀ bytes tree, parse bytes = .ok tree → tree.depth ≤ maxNesting
  parse_canonicalize : ∀ value bytes, canonicalize value = .ok bytes → value.depth ≤ maxNesting →
    ∃ tree, parse bytes = .ok tree ∧ tree.hasDuplicateKey = false ∧
      Value.ofTree tree = value.mapNumbers number
  parse_deep : ∀ value bytes, canonicalize value = .ok bytes → maxNesting < value.depth →
    ∃ error, parse bytes = .error error
  canonicalize_noLineBreak : ∀ value bytes, canonicalize value = .ok bytes → (10 : UInt8) ∉ bytes
  canonicalize_arr : ∀ items,
    canonicalize (Value.arr items) = (canonicalItems canonicalize items).map arrayText
  canonicalize_obj : ∀ fields increasing, (∀ field ∈ fields, PlainKey field.1) →
    canonicalize (Value.obj fields increasing) =
      (canonicalMembers canonicalize fields).map objectText

variable {value read : Value} {T : Text} {bytes : Bytes}

namespace Text

def fromSlice (T : Text) (input : Bytes) : Except String Value :=
  match T.parse input with
  | .error error => .error error
  | .ok tree => .ok (Value.ofTree tree)

def fromSliceStrict (T : Text) (input : Bytes) : Except String Value :=
  match T.parse input with
  | .error error => .error error
  | .ok tree =>
    if tree.hasDuplicateKey then .error "duplicate key in JSON object"
    else .ok (Value.ofTree tree)

theorem fromSlice_of_strict {input : Bytes} (parsed : T.fromSliceStrict input = .ok value) :
    T.fromSlice input = .ok value := by
  unfold fromSliceStrict at parsed
  unfold fromSlice
  split at parsed
  · cases parsed
  · split at parsed
    · cases parsed
    · exact parsed

/-- The value read back from the canonical bytes of `value`. -/
def reread (T : Text) (value : Value) : Value := value.mapNumbers T.number

theorem depth_reread (T : Text) (value : Value) : (T.reread value).depth = value.depth :=
  Value.depth_mapNumbers T.number value

theorem depth_of_fromSlice (read : T.fromSlice bytes = .ok value) : value.depth ≤ maxNesting := by
  unfold fromSlice at read
  split at read
  · cases read
  · next tree parsed =>
    cases read
    exact (Tree.depth_normalize_le tree).trans (T.parse_depth bytes tree parsed)

section Canonical
variable (T : Text) {value : Value} {bytes : Bytes} (canonical : T.canonicalize value = .ok bytes)
include canonical

theorem fromSliceStrict_canonicalize (shallow : value.depth ≤ maxNesting) :
    T.fromSliceStrict bytes = .ok (T.reread value) := by
  obtain ⟨tree, parsed, single, same⟩ := T.parse_canonicalize value bytes canonical shallow
  simp [fromSliceStrict, parsed, single, same, reread]

theorem fromSlice_canonicalize (shallow : value.depth ≤ maxNesting) :
    T.fromSlice bytes = .ok (T.reread value) :=
  fromSlice_of_strict (T.fromSliceStrict_canonicalize canonical shallow)

theorem shallow_of_fromSlice (taken : T.fromSlice bytes = .ok read) : value.depth ≤ maxNesting := by
  by_contra deep
  obtain ⟨error, refused⟩ := T.parse_deep value bytes canonical (Nat.lt_of_not_le deep)
  rw [fromSlice, refused] at taken
  cases taken

end Canonical

/-- Canonical text does not tell a number from the double it stands for. -/
def WritesDoubles (T : Text) : Prop :=
  ∀ value, T.canonicalize (value.mapNumbers Number.asDouble) = T.canonicalize value

/-- A printer that keeps every number: `serde_json::to_vec`, with doubles written
so that they are read back. -/
structure Printer (T : Text) where
  toVec : Value → Except String Bytes
  fromSliceStrict_toVec : ∀ {value : Value} {bytes : Bytes}, toVec value = .ok bytes →
    value.depth ≤ maxNesting → T.fromSliceStrict bytes = .ok value
  toVec_deep : ∀ {value : Value} {bytes : Bytes}, toVec value = .ok bytes →
    maxNesting < value.depth → ∃ error, T.parse bytes = .error error

theorem Printer.shallow_of_fromSlice (printer : T.Printer)
    (printed : printer.toVec value = .ok bytes) (taken : T.fromSlice bytes = .ok read) :
    value.depth ≤ maxNesting := by
  by_contra deep
  obtain ⟨error, refused⟩ := printer.toVec_deep printed (Nat.lt_of_not_le deep)
  rw [fromSlice, refused] at taken
  cases taken

theorem reread_of_exact (T : Text) (exact : value.NumbersAll Number.Exact) :
    T.reread value = value :=
  Value.mapNumbers_of_all T.number_exact exact

theorem reread_idem (T : Text) (value : Value) : T.reread (T.reread value) = T.reread value :=
  Value.mapNumbers_idem T.number_idem value

theorem canonicalize_reread (T : Text) (value : Value) :
    T.canonicalize (T.reread value) = T.canonicalize value :=
  T.canonicalize_number value

theorem get?_reread (T : Text) (value : Value) (key : String) :
    (T.reread value).get? key = (value.get? key).map T.reread :=
  Value.get?_mapNumbers T.number value key

theorem asStr?_reread (T : Text) (value : Value) : (T.reread value).asStr? = value.asStr? :=
  Value.asStr?_mapNumbers T.number value

/-- Number of canonical bytes of a value that has canonical bytes. -/
def canonicalLen? (T : Text) (value : Value) : Option Nat :=
  match T.canonicalize value with
  | .error _ => none
  | .ok bytes => some bytes.length

theorem canonicalize_of_len {len : Nat} (known : T.canonicalLen? value = some len) :
    ∃ bytes, T.canonicalize value = .ok bytes ∧ bytes.length = len := by
  unfold canonicalLen? at known
  split at known
  · cases known
  · rename_i bytes canonical
    exact ⟨bytes, canonical, Option.some.inj known⟩

/-- Plain strings are written between quotes, and whole numbers in decimal. -/
structure ExactLengths (T : Text) : Prop where
  str : ∀ content, PlainKey content →
    T.canonicalLen? (.str content) = some (content.toList.length + 2)
  nat : ∀ n : Nat, n ≤ 2 ^ 53 → T.canonicalLen? (.int n) = some (Nat.toDigits 10 n).length

/-! ## Lengths of arrays and objects -/

/-- Length of texts of the given lengths with a comma between each two. -/
def commaLen (lens : List Nat) : Nat := lens.sum + (lens.length - 1)

theorem length_commaSeparated (parts : List Bytes) :
    (commaSeparated parts).length = commaLen (parts.map List.length) := by
  induction parts with
  | nil => rfl
  | cons part rest ih =>
    cases rest with
    | nil => simp [commaSeparated, commaLen]
    | cons next rest =>
      rw [commaSeparated, List.length_append, List.length_append, utf8_comma, ih]
      · simp only [commaLen, List.map_cons, List.sum_cons, List.length_cons, List.length_map,
          List.length_nil]
        omega
      · simp

def arrayLen (lens : List Nat) : Nat := 2 + commaLen lens

/-- Length of an object with members of the given lengths under `keys`. -/
def objectLen (keys : List String) (lens : List Nat) : Nat :=
  2 + commaLen ((keys.zip lens).map fun member => (utf8 member.1).length + 3 + member.2)

theorem length_arrayText (parts : List Bytes) :
    (arrayText parts).length = arrayLen (parts.map List.length) := by
  simp [arrayText, utf8_openBracket, utf8_closeBracket, length_commaSeparated, arrayLen]
  omega

/-- Lengths of the canonical bytes of values that all have them. -/
def canonicalLens? (T : Text) : List Value → Option (List Nat)
  | [] => some []
  | item :: rest =>
    match T.canonicalLen? item, T.canonicalLens? rest with
    | some len, some lens => some (len :: lens)
    | _, _ => none

theorem canonicalLens?_eq (T : Text) : ∀ items : List Value,
    T.canonicalLens? items =
      ((canonicalItems T.canonicalize items).toOption.map fun parts => parts.map List.length)
  | [] => rfl
  | item :: rest => by
    simp only [canonicalLens?, canonicalLen?, canonicalItems, canonicalLens?_eq T rest]
    cases T.canonicalize item with
    | error error => rfl
    | ok part =>
      cases canonicalItems T.canonicalize rest <;> rfl

theorem canonicalLen?_arr (T : Text) (items : List Value) :
    T.canonicalLen? (Value.arr items) = (T.canonicalLens? items).map arrayLen := by
  rw [canonicalLens?_eq, canonicalLen?, T.canonicalize_arr]
  cases canonicalItems T.canonicalize items with
  | error error => rfl
  | ok parts => exact congrArg some (length_arrayText parts)

theorem canonicalMembers_zip (T : Text) : ∀ (keys : List String) (items : List Value),
    keys.length = items.length →
      canonicalMembers T.canonicalize (keys.zip items) =
        (canonicalItems T.canonicalize items).map fun parts => keys.zip parts
  | [], [], _ => rfl
  | key :: keys, item :: items, same => by
    have rest := canonicalMembers_zip T keys items (by simpa using same)
    simp only [List.zip_cons_cons, canonicalMembers, canonicalItems, rest]
    cases T.canonicalize item with
    | error error => rfl
    | ok part =>
      cases canonicalItems T.canonicalize items <;> rfl

theorem length_objectText_zip (keys : List String) (parts : List Bytes) :
    (objectText (keys.zip parts)).length = objectLen keys (parts.map List.length) := by
  have members : ((keys.zip parts).map fun member => memberText member.1 member.2).map List.length =
      (keys.zip (parts.map List.length)).map fun member =>
        (utf8 member.1).length + 3 + member.2 := by
    rw [List.zip_map_right, List.map_map, List.map_map]
    refine List.map_congr_left ?_
    intro member _
    simp [memberText, utf8_quote, utf8_quoteColon, id]
    omega
  simp [objectText, utf8_openBrace, utf8_closeBrace, length_commaSeparated, members, objectLen]
  omega

theorem canonicalLen?_record (T : Text) (keys : List String) (increasing : keys.Pairwise (· < ·))
    (items : List Value) (plain : ∀ key ∈ keys, PlainKey key)
    (same : keys.length = items.length) :
    T.canonicalLen? (Value.record keys increasing items) =
      (T.canonicalLens? items).map (objectLen keys) := by
  have plainFields : ∀ field ∈ keys.zip items, PlainKey field.1 :=
    fun field member => plain field.1 (List.of_mem_zip member).1
  rw [canonicalLens?_eq, canonicalLen?, Value.record, T.canonicalize_obj _ _ plainFields,
    canonicalMembers_zip T keys items same]
  cases canonicalItems T.canonicalize items with
  | error error => rfl
  | ok parts => exact congrArg some (length_objectText_zip keys parts)

end Text

end Famp.Json
