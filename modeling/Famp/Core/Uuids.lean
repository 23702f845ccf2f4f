import Mathlib.Data.List.Induction
import Famp.Core.Ids
import Famp.Json.Spelling

/-!
# Texts of UUIDs

The hyphenated text of a UUID in lower case is read back as that UUID, and a text
of a message id without upper-case letters is the hyphenated text of what it is
read as.
-/

set_option autoImplicit false

namespace Famp.Core

open Json Json.Serde

variable {value count : Nat} {c : Char} {digits : List Char} {id : Uuid}

namespace Uuid

/-! ## Hexadecimal digits -/

theorem hexDigit?_hexChar : ∀ digit < 16, hexDigit? (hexChar digit) = some digit := by decide

theorem hexChar_of_hexDigit? {digit : Nat} (read : hexDigit? c = some digit)
    (lower : ¬('A' ≤ c ∧ c ≤ 'Z')) : hexChar digit = c ∧ digit < 16 := by
  have digits : ('0'.toNat, '9'.toNat) = (48, 57) := rfl
  have letters : ('a'.toNat, 'f'.toNat) = (97, 102) := rfl
  simp only [Prod.mk.injEq] at digits letters
  have toNat_le : ∀ {a b : Char}, a ≤ b ↔ a.toNat ≤ b.toNat := by
    intro a b
    rw [Char.le_def, UInt32.le_iff_toNat_le]
    rfl
  unfold hexDigit? at read
  split at read
  next range =>
    cases read
    rw [toNat_le, toNat_le, digits.1, digits.2] at range
    rw [digits.1, hexChar, if_pos (by omega), digits.1,
      show 48 + (c.toNat - 48) = c.toNat by omega, Char.ofNat_toNat]
    exact ⟨rfl, by omega⟩
  next =>
    split at read
    next range =>
      cases read
      rw [toNat_le, toNat_le, letters.1, letters.2] at range
      rw [letters.1, hexChar, if_neg (by omega), letters.1,
        show 97 + (c.toNat - 97 + 10 - 10) = c.toNat by omega, Char.ofNat_toNat]
      exact ⟨rfl, by omega⟩
    next =>
      split at read
      next upper =>
        have top : ('F' : Char) ≤ 'Z' := by decide
        exact absurd ⟨upper.1, upper.2.trans top⟩ lower
      next => cases read

theorem parseHex_append (digits : List Char) (c : Char) :
    parseHex (digits ++ [c]) =
      (parseHex digits).bind fun value => (hexDigit? c).map fun digit => 16 * value + digit := by
  rw [parseHex, List.foldlM_append]
  simp [parseHex]

theorem length_hexChars (count value : Nat) : (hexChars count value).length = count := by
  induction count generalizing value with
  | zero => rfl
  | succ count ih => rw [hexChars, List.length_append, ih, List.length_singleton]

theorem mem_hexChars (member : c ∈ hexChars count value) : ∃ digit < 16, c = hexChar digit := by
  induction count generalizing value with
  | zero => cases member
  | succ count ih =>
    rw [hexChars, List.mem_append, List.mem_singleton] at member
    rcases member with early | last
    · exact ih early
    · exact ⟨value % 16, Nat.mod_lt _ (by decide), last⟩

theorem parseHex_hexChars (bound : value < 16 ^ count) :
    parseHex (hexChars count value) = some value := by
  induction count generalizing value with
  | zero =>
    obtain rfl : value = 0 := by omega
    rfl
  | succ count ih =>
    have upper : value / 16 < 16 ^ count := by
      rw [pow_succ'] at bound
      exact Nat.div_lt_of_lt_mul bound
    rw [hexChars, parseHex_append, ih upper,
      Option.bind_some, hexDigit?_hexChar _ (Nat.mod_lt _ (by decide)), Option.map_some,
      Nat.div_add_mod]

theorem hexChars_parseHex (read : parseHex digits = some value)
    (lower : ∀ c ∈ digits, ¬('A' ≤ c ∧ c ≤ 'Z')) :
    hexChars digits.length value = digits ∧ value < 16 ^ digits.length := by
  induction digits using List.reverseRecOn generalizing value with
  | nil =>
    obtain rfl : 0 = value := Option.some.inj read
    exact ⟨rfl, by simp⟩
  | append_singleton digits c ih =>
    rw [parseHex_append] at read
    obtain ⟨upper, readUpper, read⟩ := Option.bind_eq_some_iff.mp read
    obtain ⟨digit, readDigit, rfl⟩ := Option.map_eq_some_iff.mp read
    obtain ⟨same, bound⟩ := ih readUpper fun other member => lower other (by simp [member])
    obtain ⟨char, small⟩ := hexChar_of_hexDigit? readDigit (lower c (by simp))
    have above : (16 * upper + digit) / 16 = upper := by omega
    have below : (16 * upper + digit) % 16 = digit := by omega
    rw [List.length_append, List.length_singleton, hexChars, above, below, same, char, pow_succ']
    exact ⟨rfl, by omega⟩

theorem hexDigit?_isSome_of_parseHex (read : parseHex digits = some value) :
    ∀ c ∈ digits, (hexDigit? c).isSome = true := by
  induction digits using List.reverseRecOn generalizing value with
  | nil => simp
  | append_singleton digits c ih =>
    rw [parseHex_append] at read
    obtain ⟨upper, readUpper, read⟩ := Option.bind_eq_some_iff.mp read
    obtain ⟨digit, readDigit, -⟩ := Option.map_eq_some_iff.mp read
    intro other member
    rcases List.mem_append.mp member with early | last
    · exact ih readUpper other early
    · rw [List.mem_singleton.mp last, readDigit]
      rfl

/-! ## Sizes of texts -/

theorem length_le_utf8Len : ∀ chars : List Char, chars.length ≤ String.utf8Len chars
  | [] => Nat.le_refl _
  | c :: rest => by
    rw [String.utf8Len_cons, List.length_cons]
    exact Nat.add_le_add (length_le_utf8Len rest) (Char.utf8Size_pos c)

theorem utf8Len_of_ascii : ∀ {chars : List Char}, (∀ c ∈ chars, c.utf8Size = 1) →
    String.utf8Len chars = chars.length
  | [], _ => rfl
  | c :: rest, ascii => by
    rw [List.forall_mem_cons] at ascii
    rw [String.utf8Len_cons, List.length_cons, utf8Len_of_ascii ascii.2, ascii.1]

theorem utf8Size_of_hexDigit? (read : (hexDigit? c).isSome = true) : c.utf8Size = 1 := by
  have small : c.toNat < 128 := by
    have toNat_le : ∀ {a b : Char}, a ≤ b → a.toNat ≤ b.toNat := by
      intro a b le
      rwa [Char.le_def, UInt32.le_iff_toNat_le] at le
    have ends : ('9'.toNat, 'f'.toNat, 'F'.toNat) = (57, 102, 70) := rfl
    simp only [Prod.mk.injEq] at ends
    unfold hexDigit? at read
    split at read
    next range => have := toNat_le range.2; omega
    next =>
      split at read
      next range => have := toNat_le range.2; omega
      next =>
        split at read
        next range => have := toNat_le range.2; omega
        next => cases read
  rw [Char.utf8Size_eq_one_iff]
  rw [UInt32.le_iff_toNat_le]
  exact Nat.le_of_lt_succ small

/-! ## The hyphenated form -/

/-- Thirty-two digits in groups of 8, 4, 4, 4 and 12. -/
def groups (digits : List Char) : List (List Char) :=
  [digits.take 8, (digits.drop 8).take 4, (digits.drop 12).take 4, (digits.drop 16).take 4,
    digits.drop 20]

theorem groups_append {a b c d e : List Char} (ofA : a.length = 8) (ofB : b.length = 4)
    (ofC : c.length = 4) (ofD : d.length = 4) : groups (a ++ b ++ c ++ d ++ e) = [a, b, c, d, e] := by
  have gone : ∀ {n : Nat} {list : List Char}, list.length ≤ n → list.drop n = [] :=
    fun short => List.drop_eq_nil_of_le short
  simp [groups, List.drop_append, ofA, ofB, ofC, ofD, @gone 12 a (by omega),
    @gone 16 a (by omega), @gone 20 a (by omega), @gone 8 b (by omega), @gone 12 b (by omega),
    @gone 8 c (by omega)]

theorem toList_hyphenated (id : Uuid) :
    id.hyphenated.toList = ['-'].intercalate (groups (hexChars 32 id.bits.toNat)) := by
  simp [hyphenated, groups, List.intercalate, List.intersperse]

theorem parseHyphenated_groups (length : digits.length = 32) (dashless : '-' ∉ digits) :
    parseHyphenated (['-'].intercalate (groups digits)) = parseSimple digits := by
  have clean : ∀ group ∈ groups digits, '-' ∉ group := by
    intro group member dash
    simp only [groups, List.mem_cons, List.not_mem_nil, or_false] at member
    rcases member with rfl | rfl | rfl | rfl | rfl
    · exact dashless (List.mem_of_mem_take dash)
    · exact dashless (List.mem_of_mem_drop (List.mem_of_mem_take dash))
    · exact dashless (List.mem_of_mem_drop (List.mem_of_mem_take dash))
    · exact dashless (List.mem_of_mem_drop (List.mem_of_mem_take dash))
    · exact dashless (List.mem_of_mem_drop dash)
  rw [parseHyphenated, List.splitOn_intercalate '-' clean (by simp [groups])]
  have whole : digits.take 8 ++ (digits.drop 8).take 4 ++ (digits.drop 12).take 4 ++
      (digits.drop 16).take 4 ++ digits.drop 20 = digits := by
    rw [show (digits.drop 20) = (digits.drop 16).drop 4 by rw [List.drop_drop],
      List.append_assoc, List.take_append_drop,
      show (digits.drop 16) = (digits.drop 12).drop 4 by rw [List.drop_drop],
      List.append_assoc, List.take_append_drop,
      show (digits.drop 12) = (digits.drop 8).drop 4 by rw [List.drop_drop],
      List.append_assoc, List.take_append_drop, List.take_append_drop]
  simp only [groups, whole, List.length_take, List.length_drop, length]
  rfl

theorem utf8ByteSize_eq (text : String) : text.utf8ByteSize = String.utf8Len text.toList := by
  rw [← String.utf8ByteSize_ofList, String.ofList_toList]

theorem messageIdFromStr_hyphenated (id : Uuid) : messageIdFromStr id.hyphenated = some id := by
  have hex : ∀ c ∈ hexChars 32 id.bits.toNat, (hexDigit? c).isSome = true := by
    intro c member
    obtain ⟨digit, small, rfl⟩ := mem_hexChars member
    rw [hexDigit?_hexChar digit small]
    rfl
  have value : parseHex (hexChars 32 id.bits.toNat) = some id.bits.toNat :=
    parseHex_hexChars (by have := id.bits.isLt; omega)
  have text := toList_hyphenated id
  have count := length_hexChars 32 id.bits.toNat
  generalize hexChars 32 id.bits.toNat = digits at hex value text count
  have dashless : '-' ∉ digits := fun member => by cases hex '-' member
  have length : (['-'].intercalate (groups digits)).length = 36 := by
    simp [groups, List.intercalate, List.intersperse, count]
  have size : id.hyphenated.utf8ByteSize = 36 := by
    rw [utf8ByteSize_eq, text, utf8Len_of_ascii, length]
    intro c member
    simp only [groups, List.intercalate, List.intersperse, List.flatten_cons, List.flatten_nil,
      List.append_nil, List.mem_append, List.mem_singleton] at member
    have digit : c ∈ digits → c.utf8Size = 1 := fun inside => utf8Size_of_hexDigit? (hex c inside)
    rcases member with early | rfl | early | rfl | early | rfl | early | rfl | late
    · exact digit (List.mem_of_mem_take early)
    · rfl
    · exact digit (List.mem_of_mem_drop (List.mem_of_mem_take early))
    · rfl
    · exact digit (List.mem_of_mem_drop (List.mem_of_mem_take early))
    · rfl
    · exact digit (List.mem_of_mem_drop (List.mem_of_mem_take early))
    · rfl
    · exact digit (List.mem_of_mem_drop late)
  rw [messageIdFromStr, if_pos size]
  simp only [parseStr, text, length]
  rw [if_neg (by decide), if_pos trivial, parseHyphenated_groups count dashless, parseSimple,
    if_pos count, value, Option.map_some, BitVec.ofNat_toNat, BitVec.setWidth_eq]

theorem hyphenated_of_parseHyphenated {text : List Char} (read : parseHyphenated text = some id)
    (lower : ∀ c ∈ text, ¬('A' ≤ c ∧ c ≤ 'Z')) : text = id.hyphenated.toList := by
  unfold parseHyphenated at read
  have joined : ['-'].intercalate (text.splitOn '-') = text := List.intercalate_splitOn '-'
  split at read
  next a b c d e split =>
    rw [split] at joined
    split at read
    next lengths =>
      obtain ⟨ofA, ofB, ofC, ofD, ofE⟩ := lengths
      have inside : ∀ digit ∈ a ++ b ++ c ++ d ++ e, digit ∈ text := by
        intro digit member
        rw [← joined]
        simp only [List.intercalate, List.intersperse, List.flatten_cons, List.flatten_nil,
          List.append_nil, List.mem_append, List.mem_singleton] at member ⊢
        tauto
      have count : (a ++ b ++ c ++ d ++ e).length = 32 := by
        simp only [List.length_append]
        omega
      rw [parseSimple, if_pos count] at read
      obtain ⟨value, value_eq, rfl⟩ := Option.map_eq_some_iff.mp read
      obtain ⟨same, bound⟩ := hexChars_parseHex value_eq fun digit member =>
        lower digit (inside digit member)
      rw [count] at same bound
      rw [toList_hyphenated, BitVec.toNat_ofNat, Nat.mod_eq_of_lt (by omega),
        same, groups_append ofA ofB ofC ofD, joined]
    next => cases read
  next => cases read

/-- A message id without upper-case letters is written as the canonical text of
what it is read as. -/
theorem hyphenated_of_messageIdFromStr {text : String} (read : messageIdFromStr text = some id)
    (lower : ∀ c ∈ text.toList, ¬('A' ≤ c ∧ c ≤ 'Z')) : id.hyphenated = text := by
  unfold messageIdFromStr at read
  split at read
  next size =>
    rw [utf8ByteSize_eq] at size
    have short := length_le_utf8Len text.toList
    simp only [parseStr] at read
    split at read
    -- Thirty-two digits would take thirty-two bytes.
    next simple =>
      rw [parseSimple, if_pos simple] at read
      obtain ⟨value, digits, -⟩ := Option.map_eq_some_iff.mp read
      have ascii := utf8Len_of_ascii fun c member =>
        utf8Size_of_hexDigit? (hexDigit?_isSome_of_parseHex digits c member)
      omega
    next =>
      split at read
      next => rw [← String.toList_inj, ← hyphenated_of_parseHyphenated read lower]
      next =>
        split at read
        next braces => omega
        next =>
          split at read
          next urn => omega
          next => cases read
  next => cases read

end Uuid

theorem plain_hyphenated (id : Uuid) :
    Shape.identifier.plain (Value.str id.hyphenated).val = true := by
  have digits : ∀ c ∈ Uuid.hexChars 32 id.bits.toNat, ¬('A' ≤ c ∧ c ≤ 'Z') := by
    intro c member
    obtain ⟨digit, small, rfl⟩ := Uuid.mem_hexChars member
    exact (by decide : ∀ digit < 16,
      ¬('A' ≤ Uuid.hexChar digit ∧ Uuid.hexChar digit ≤ 'Z')) digit small
  have lower : ∀ c ∈ id.hyphenated.toList, ¬('A' ≤ c ∧ c ≤ 'Z') := by
    intro c member
    rw [Uuid.toList_hyphenated] at member
    have cases : c = '-' ∨ c ∈ Uuid.hexChars 32 id.bits.toNat := by
      simp only [Uuid.groups, List.intercalate, List.intersperse, List.flatten_cons,
        List.flatten_nil, List.append_nil, List.mem_append, List.mem_singleton] at member
      rcases member with a | rfl | b | rfl | d | rfl | e | rfl | f
      · exact .inr (List.mem_of_mem_take a)
      · exact .inl rfl
      · exact .inr (List.mem_of_mem_drop (List.mem_of_mem_take b))
      · exact .inl rfl
      · exact .inr (List.mem_of_mem_drop (List.mem_of_mem_take d))
      · exact .inl rfl
      · exact .inr (List.mem_of_mem_drop (List.mem_of_mem_take e))
      · exact .inl rfl
      · exact .inr (List.mem_of_mem_drop f)
    rcases cases with rfl | digit
    · decide
    · exact digits c digit
  simp only [Shape.plain, Value.str, List.all_eq_true, Bool.not_eq_true', Bool.and_eq_false_iff,
    decide_eq_false_iff_not, ← not_and_or]
  exact lower

theorem readMessageId_serialized :
    Serialized readMessageId (fun id => Value.str id.hyphenated) .identifier where
  read_write id _ := by
    simp only [readMessageId, Value.str, Tree.asStr?, Option.bind_some]
    exact Uuid.messageIdFromStr_hyphenated id
  write_read {value id} plain found := by
    obtain ⟨tree, ordered⟩ := value
    cases tree with
    | str text =>
      simp only [Shape.plain, List.all_eq_true, Bool.not_eq_true', Bool.and_eq_false_iff,
        decide_eq_false_iff_not, ← not_and_or] at plain
      rw [Uuid.hyphenated_of_messageIdFromStr found plain]
      rfl
    | _ => cases found

end Famp.Core
