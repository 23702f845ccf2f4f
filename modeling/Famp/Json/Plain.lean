import Famp.Json.Text

/-!
# The text library on plain documents

A parser and a canonical printer that satisfy the laws of `Text`.  A document is
plain when its strings and keys are printable ASCII without quote and backslash
and its integers are ones that a double represents; the printer refuses
everything else.  On plain documents it writes what the canonical form
prescribes: no white space, members in key order, integers in decimal.  Only a
number with a fraction is not written in decimal, but by its bits.
-/

set_option autoImplicit false

namespace Famp.Json.Plain

instance (key : String) : Decidable (PlainKey key) :=
  @List.decidableBAll _ _ (fun _ => inferInstance) key.toList

/-! ## Printing -/

/-- Decimal digits of a number below `10 ^ places`, the leading one first. -/
def digits : Nat → Nat → Bytes
  | 0, _ => []
  | places + 1, n =>
    if n < 10 then [UInt8.ofNat (48 + n)]
    else digits places (n / 10) ++ [UInt8.ofNat (48 + n % 10)]

def integerText (value : Int) : Bytes :=
  if value < 0 then 45 :: digits 17 value.natAbs else digits 17 value.natAbs

/-- A `d` and the bits. -/
def doubleText (bits : Double) : Bytes := 100 :: digits 20 bits.toNat

def stringText (text : String) : Bytes := utf8 "\"" ++ utf8 text ++ utf8 "\""

mutual
def render : Tree → Except String Bytes
  | .null => .ok (utf8 "null")
  | .bool true => .ok (utf8 "true")
  | .bool false => .ok (utf8 "false")
  | .num (.int value) =>
    if value.natAbs ≤ 2 ^ 53 then .ok (integerText value) else .error "number out of range"
  | .num (.float bits) => .ok (doubleText bits)
  | .str text => if PlainKey text then .ok (stringText text) else .error "string with escapes"
  | .arr items => (renderItems items).map arrayText
  | .obj fields => (renderFields fields).map objectText

def renderItems : List Tree → Except String (List Bytes)
  | [] => .ok []
  | item :: rest =>
    match render item with
    | .error error => .error error
    | .ok part =>
      match renderItems rest with
      | .error error => .error error
      | .ok parts => .ok (part :: parts)

def renderFields : List (String × Tree) → Except String (List (String × Bytes))
  | [] => .ok []
  | (key, item) :: rest =>
    if PlainKey key then
      match render item with
      | .error error => .error error
      | .ok part =>
        match renderFields rest with
        | .error error => .error error
        | .ok members => .ok ((key, part) :: members)
    else .error "key with escapes"
end

/-! ## Parsing -/

def isDigit (c : UInt8) : Bool := 48 ≤ c && c ≤ 57

/-- The number whose digits stand first, after `done`, and what follows it. -/
def readDigits (done : Nat) : Bytes → Nat × Bytes
  | [] => (done, [])
  | c :: rest =>
    if isDigit c then readDigits (done * 10 + (c.toNat - 48)) rest else (done, c :: rest)

/-- The characters before the closing quote, and what follows it. -/
def readQuoted : Bytes → Option (List Char × Bytes)
  | [] => none
  | c :: rest =>
    if c = 34 then some ([], rest)
    else (readQuoted rest).map fun read => (Char.ofNat c.toNat :: read.1, read.2)

def skip (expected input : Bytes) : Option Bytes :=
  if expected.isPrefixOf input then some (input.drop expected.length) else none

def readWord (word : String) (tree : Tree) (input : Bytes) : Option (Tree × Bytes) :=
  (skip (utf8 word) input).map fun rest => (tree, rest)

def readInteger (sign : Int) (input : Bytes) : Option (Tree × Bytes) :=
  match input with
  | [] => none
  | c :: _ =>
    if isDigit c then
      let read := readDigits 0 input
      some (.num (.int (sign * (read.1 : Int))), read.2)
    else none

def readDouble (input : Bytes) : Option (Tree × Bytes) :=
  match readInteger 1 input with
  | some (.num (.int value), rest) => some (.num (.float (UInt64.ofNat value.toNat)), rest)
  | _ => none

mutual
def readTree : Nat → Bytes → Option (Tree × Bytes)
  | 0, _ => none
  | _ + 1, [] => none
  | fuel + 1, c :: rest =>
    if c = 34 then (readQuoted rest).map fun read => (.str (String.ofList read.1), read.2)
    else if c = 91 then
      match skip (utf8 "]") rest with
      | some after => some (.arr [], after)
      | none => (readItems fuel rest).map fun read => (.arr read.1, read.2)
    else if c = 123 then
      match skip (utf8 "\x7d") rest with
      | some after => some (.obj [], after)
      | none => (readFields fuel rest).map fun read => (.obj read.1, read.2)
    else if c = 45 then readInteger (-1) rest
    else if isDigit c then readInteger 1 (c :: rest)
    else if c = 100 then readDouble rest
    else if c = 110 then readWord "null" .null (c :: rest)
    else if c = 116 then readWord "true" (.bool true) (c :: rest)
    else readWord "false" (.bool false) (c :: rest)

def readItems : Nat → Bytes → Option (List Tree × Bytes)
  | 0, _ => none
  | fuel + 1, input =>
    match readTree fuel input with
    | none => none
    | some (item, after) =>
      match skip (utf8 "]") after with
      | some rest => some ([item], rest)
      | none =>
        match skip (utf8 ",") after with
        | none => none
        | some more => (readItems fuel more).map fun read => (item :: read.1, read.2)

def readFields : Nat → Bytes → Option (List (String × Tree) × Bytes)
  | 0, _ => none
  | fuel + 1, input =>
    match (skip (utf8 "\"") input).bind readQuoted with
    | none => none
    | some (key, colon) =>
      match (skip (utf8 ":") colon).bind (readTree fuel) with
      | none => none
      | some (item, after) =>
        match skip (utf8 "\x7d") after with
        | some rest => some ([(String.ofList key, item)], rest)
        | none =>
          match skip (utf8 ",") after with
          | none => none
          | some more =>
            (readFields fuel more).map fun read =>
              ((String.ofList key, item) :: read.1, read.2)
end

def parse (input : Bytes) : Except String Tree :=
  match readTree (input.length + 1) input with
  | some (tree, []) =>
    if tree.depth ≤ maxNesting then .ok tree else .error "recursion limit exceeded"
  | _ => .error "malformed document"

/-! ## Reading back what is printed -/

theorem utf8_eq_flatMap (text : String) :
    utf8 text = text.toList.flatMap String.utf8EncodeChar := by
  have encoded : text.toByteArray = text.toList.utf8Encode := by
    rw [← String.toByteArray_ofList, String.ofList_toList]
  simp only [utf8, String.toUTF8, encoded, List.utf8Encode, List.toList_data_toByteArray]

theorem utf8_of_plain {text : String} (plain : PlainKey text) :
    utf8 text = text.toList.map fun c => UInt8.ofNat c.toNat := by
  have single : ∀ c ∈ text.toList, String.utf8EncodeChar c = [UInt8.ofNat c.toNat] := by
    intro c member
    have small : c.val.toNat ≤ 127 := Nat.le_of_lt (plain c member).2.1
    exact if_pos small
  rw [utf8_eq_flatMap, List.map_eq_flatMap]
  exact List.flatMap_congr single

theorem toNat_ofNat_plain {c : Char} (small : c.toNat < 0x7f) :
    (UInt8.ofNat c.toNat).toNat = c.toNat := by
  simp only [UInt8.toNat_ofNat']
  omega

theorem readQuoted_map : ∀ (chars : List Char) (rest : Bytes),
    (∀ c ∈ chars, c.toNat < 0x7f ∧ c ≠ '"') →
      readQuoted (chars.map (fun c => UInt8.ofNat c.toNat) ++ 34 :: rest) = some (chars, rest)
  | [], _, _ => rfl
  | c :: chars, rest, plain => by
    have ih := readQuoted_map chars rest fun d member => plain d (List.mem_cons_of_mem _ member)
    obtain ⟨small, notQuote⟩ := plain c (List.mem_cons_self ..)
    have value := toNat_ofNat_plain small
    have notEnd : UInt8.ofNat c.toNat ≠ 34 := by
      intro quote
      refine notQuote (Char.toNat_inj.mp ?_)
      rw [← value, quote]
      rfl
    simp only [List.map_cons, List.cons_append, readQuoted, if_neg notEnd, ih, Option.map_some,
      value, Char.ofNat_toNat]

theorem readQuoted_utf8 {text : String} (plain : PlainKey text) (rest : Bytes) :
    readQuoted (utf8 text ++ 34 :: rest) = some (text.toList, rest) := by
  rw [utf8_of_plain plain]
  exact readQuoted_map text.toList rest fun c member =>
    ⟨(plain c member).2.1, (plain c member).2.2.1⟩

/-- What follows a number does not continue it. -/
def Ends (rest : Bytes) : Prop := ∀ c ∈ rest.head?, isDigit c = false

theorem readDigits_of_ends (done : Nat) {rest : Bytes} (ends : Ends rest) :
    readDigits done rest = (done, rest) := by
  cases rest with
  | nil => rfl
  | cons c rest => simp [readDigits, ends c (by simp)]

theorem isDigit_digit {n : Nat} (small : n < 10) : isDigit (UInt8.ofNat (48 + n)) = true := by
  have all : ∀ digit : Fin 10, isDigit (UInt8.ofNat (48 + digit.val)) = true := by decide
  exact all ⟨n, small⟩

theorem toNat_digit {n : Nat} (small : n < 10) : (UInt8.ofNat (48 + n)).toNat - 48 = n := by
  simp only [UInt8.toNat_ofNat']
  omega

theorem readDigits_digits : ∀ (places n : Nat) (rest : Bytes), n < 10 ^ places →
    0 < places → readDigits 0 (digits places n ++ rest) = readDigits n rest
  | 0, _, _, _, positive => absurd positive (by decide)
  | places + 1, n, rest, bound, _ => by
    simp only [digits]
    by_cases small : n < 10
    · simp only [if_pos small, List.cons_append, List.nil_append, readDigits,
        isDigit_digit small, if_true, toNat_digit small, Nat.zero_mul, Nat.zero_add]
    · have quotient : n / 10 < 10 ^ places := by
        rw [pow_succ] at bound
        omega
      have positive : 0 < places := by
        by_contra zero
        have none : places = 0 := by omega
        subst none
        omega
      have last : n % 10 < 10 := Nat.mod_lt n (by decide)
      rw [if_neg small, List.append_assoc, readDigits_digits places (n / 10) _ quotient positive]
      simp only [List.cons_append, List.nil_append, readDigits, isDigit_digit last, if_true,
        toNat_digit last]
      rw [Nat.div_add_mod' n 10]

theorem digits_head : ∀ (places n : Nat), 0 < places →
    ∃ c rest, digits places n = c :: rest ∧ isDigit c = true
  | 0, _, positive => absurd positive (by decide)
  | 1, n, _ => by
    simp only [digits]
    by_cases small : n < 10
    · exact ⟨_, [], by simp [small], isDigit_digit small⟩
    · exact ⟨_, [], by simp [small], isDigit_digit (Nat.mod_lt n (by decide))⟩
  | places + 2, n, _ => by
    by_cases small : n < 10
    · exact ⟨_, [], by simp [digits, small], isDigit_digit small⟩
    · obtain ⟨c, rest, first, digit⟩ := digits_head (places + 1) (n / 10) (by omega)
      refine ⟨c, rest ++ [UInt8.ofNat (48 + n % 10)], ?_, digit⟩
      rw [digits, if_neg small, first, List.cons_append]

theorem skip_append (expected rest : Bytes) : skip expected (expected ++ rest) = some rest := by
  simp [skip]

theorem skip_cons (c : UInt8) (rest : Bytes) : skip [c] (c :: rest) = some rest := by
  simp [skip, List.isPrefixOf]

theorem skip_cons_ne {c d : UInt8} (differ : c ≠ d) (rest : Bytes) :
    skip [c] (d :: rest) = none := by
  simp [skip, List.isPrefixOf, differ]

theorem readInteger_digits (sign : Int) {places n : Nat} {rest : Bytes} (positive : 0 < places)
    (bound : n < 10 ^ places) (ends : Ends rest) :
    readInteger sign (digits places n ++ rest) = some (.num (.int (sign * (n : Int))), rest) := by
  have value : readDigits 0 (digits places n ++ rest) = (n, rest) := by
    rw [readDigits_digits places n rest bound positive, readDigits_of_ends n ends]
  obtain ⟨c, more, first, digit⟩ := digits_head places n positive
  rw [first] at value ⊢
  simp only [List.cons_append] at value ⊢
  simp only [readInteger, digit, if_true, value]

theorem readTree_integer {value : Int} {rest : Bytes} (fuel : Nat)
    (bound : value.natAbs ≤ 2 ^ 53) (ends : Ends rest) :
    readTree (fuel + 1) (integerText value ++ rest) = some (.num (.int value), rest) := by
  have small : value.natAbs < 10 ^ 17 := lt_of_le_of_lt bound (by decide)
  unfold integerText
  split
  · rename_i negative
    have read := readInteger_digits (-1) (by decide) small ends
    rw [show (-1 : Int) * (value.natAbs : Int) = value by omega] at read
    simp [readTree, read]
  · rename_i notNegative
    have sign : (1 : Int) * (value.natAbs : Int) = value := by omega
    have read := readInteger_digits 1 (by decide) small ends
    obtain ⟨c, more, first, digit⟩ := digits_head 17 value.natAbs (by decide)
    rw [first] at read ⊢
    have other : c ≠ 34 ∧ c ≠ 91 ∧ c ≠ 123 ∧ c ≠ 45 := by
      refine ⟨?_, ?_, ?_, ?_⟩ <;> (rintro rfl; exact absurd digit (by decide))
    obtain ⟨quote, bracket, brace, minus⟩ := other
    simp only [List.cons_append] at read ⊢
    simp only [readTree, if_neg quote, if_neg bracket, if_neg brace, if_neg minus, digit, if_true,
      read, sign]

theorem readTree_double {bits : Double} {rest : Bytes} (fuel : Nat) (ends : Ends rest) :
    readTree (fuel + 1) (doubleText bits ++ rest) = some (.num (.float bits), rest) := by
  have small : bits.toNat < 10 ^ 20 := bits.toNat_lt.trans (by decide)
  have read := readInteger_digits 1 (by decide) small ends
  simp [doubleText, readTree, readDouble, read, isDigit]

theorem skip_of_readTree {fuel : Nat} {input rest : Bytes} {tree : Tree}
    (read : readTree fuel input = some (tree, rest)) : skip (utf8 "]") input = none := by
  cases fuel with
  | zero => simp [readTree] at read
  | succ fuel =>
    cases input with
    | nil => simp [readTree] at read
    | cons c input =>
      refine skip_cons_ne (c := 93) ?_ input
      rintro rfl
      simp [readTree, readWord, isDigit, skip, List.isPrefixOf,
        show utf8 "false" = [102, 97, 108, 115, 101] from by decide] at read

theorem ends_cons {c : UInt8} (other : isDigit c = false) (rest : Bytes) : Ends (c :: rest) := by
  intro d member
  obtain rfl : c = d := by simpa using member
  exact other

theorem renderItems_cons {item : Tree} {items : List Tree} {parts : List Bytes}
    (rendered : renderItems (item :: items) = .ok parts) :
    ∃ part more, render item = .ok part ∧ renderItems items = .ok more ∧ parts = part :: more := by
  simp only [renderItems] at rendered
  cases first : render item with
  | error error => simp [first] at rendered
  | ok part =>
    cases others : renderItems items with
    | error error => simp [first, others] at rendered
    | ok more =>
      simp only [first, others, Except.ok.injEq] at rendered
      exact ⟨part, more, rfl, rfl, rendered.symm⟩

theorem renderFields_cons {key : String} {item : Tree} {fields : List (String × Tree)}
    {members : List (String × Bytes)}
    (rendered : renderFields ((key, item) :: fields) = .ok members) :
    PlainKey key ∧ ∃ part more, render item = .ok part ∧ renderFields fields = .ok more ∧
      members = (key, part) :: more := by
  simp only [renderFields] at rendered
  by_cases plain : PlainKey key
  · rw [if_pos plain] at rendered
    cases first : render item with
    | error error => simp [first] at rendered
    | ok part =>
      cases others : renderFields fields with
      | error error => simp [first, others] at rendered
      | ok more =>
        simp only [first, others, Except.ok.injEq] at rendered
        exact ⟨plain, part, more, rfl, rfl, rendered.symm⟩
  · simp [plain] at rendered

/-- The members of an object as they stand between the braces. -/
def membersText (members : List (String × Bytes)) : Bytes :=
  commaSeparated (members.map fun member => memberText member.1 member.2)

-- The fuel bounds the text that is left, which every recursive call shortens.
mutual
theorem readTree_render : ∀ (tree : Tree) (text : Bytes) (fuel : Nat) (rest : Bytes),
    render tree = .ok text → text.length < fuel → Ends rest →
      readTree fuel (text ++ rest) = some (tree, rest)
  | _, _, 0, _, _, short, _ => absurd short (by omega)
  | .null, _, fuel + 1, rest, rendered, _, _ => by
    obtain rfl : utf8 "null" = _ := Except.ok.inj rendered
    exact congrArg (Option.map _) (skip_append (utf8 "null") rest)
  | .bool true, _, fuel + 1, rest, rendered, _, _ => by
    obtain rfl : utf8 "true" = _ := Except.ok.inj rendered
    exact congrArg (Option.map _) (skip_append (utf8 "true") rest)
  | .bool false, _, fuel + 1, rest, rendered, _, _ => by
    obtain rfl : utf8 "false" = _ := Except.ok.inj rendered
    exact congrArg (Option.map _) (skip_append (utf8 "false") rest)
  | .num (.int value), _, fuel + 1, rest, rendered, _, ends => by
    simp only [render] at rendered
    split at rendered
    · rename_i bound
      obtain rfl : integerText value = _ := Except.ok.inj rendered
      exact readTree_integer fuel bound ends
    · simp at rendered
  | .num (.float bits), _, fuel + 1, rest, rendered, _, ends => by
    obtain rfl : doubleText bits = _ := Except.ok.inj rendered
    exact readTree_double fuel ends
  | .str text, _, fuel + 1, rest, rendered, _, _ => by
    simp only [render] at rendered
    split at rendered
    · rename_i plain
      obtain rfl : stringText text = _ := Except.ok.inj rendered
      have read := readQuoted_utf8 plain rest
      simp [stringText, readTree, read]
    · simp at rendered
  | .arr [], _, fuel + 1, rest, rendered, _, _ => by
    obtain rfl : arrayText [] = _ := Except.ok.inj rendered
    rfl
  | .arr (item :: items), _, fuel + 1, rest, rendered, short, _ => by
    cases inner : renderItems (item :: items) with
    | error error => simp [render, inner, Except.map] at rendered
    | ok parts =>
      obtain rfl : arrayText parts = _ := by
        simpa [render, inner, Except.map] using rendered
      simp only [arrayText, utf8_openBracket, utf8_closeBracket, List.length_append,
        List.length_singleton] at short
      obtain ⟨read, noBracket⟩ := readItems_render item items parts fuel rest inner (by omega)
      simp [arrayText, readTree, noBracket, read]
  | .obj [], _, fuel + 1, rest, rendered, _, _ => by
    obtain rfl : objectText [] = _ := Except.ok.inj rendered
    rfl
  | .obj (field :: fields), _, fuel + 1, rest, rendered, short, _ => by
    cases inner : renderFields (field :: fields) with
    | error error => simp [render, inner, Except.map] at rendered
    | ok members =>
      obtain rfl : objectText members = _ := by
        simpa [render, inner, Except.map] using rendered
      simp only [objectText, utf8_openBrace, utf8_closeBrace, List.length_append,
        List.length_singleton] at short
      obtain ⟨read, noBrace⟩ := readFields_render field fields members fuel rest inner
        (by simp only [membersText]; omega)
      simp only [membersText] at read noBrace
      simp [objectText, readTree, noBrace, read]

theorem readItems_render : ∀ (item : Tree) (items : List Tree) (parts : List Bytes) (fuel : Nat)
    (rest : Bytes), renderItems (item :: items) = .ok parts →
      (commaSeparated parts).length + 1 < fuel →
        readItems fuel (commaSeparated parts ++ 93 :: rest) = some (item :: items, rest) ∧
          skip [93] (commaSeparated parts ++ 93 :: rest) = none
  | _, _, _, 0, _, _, short => absurd short (by omega)
  | item, [], _, fuel + 1, rest, rendered, short => by
    obtain ⟨part, more, first, others, rfl⟩ := renderItems_cons rendered
    obtain rfl : [] = more := Except.ok.inj others
    simp only [commaSeparated] at short ⊢
    have read := readTree_render item part fuel (93 :: rest) first (by omega)
      (ends_cons (by decide) rest)
    refine ⟨?_, skip_of_readTree read⟩
    simp [readItems, read, skip_cons]
  | item, next :: items, _, fuel + 1, rest, rendered, short => by
    obtain ⟨part, more, first, others, rfl⟩ := renderItems_cons rendered
    obtain ⟨part', more', _, _, rfl⟩ := renderItems_cons others
    have layout : commaSeparated (part :: part' :: more') ++ 93 :: rest =
        part ++ 44 :: (commaSeparated (part' :: more') ++ 93 :: rest) := by
      simp [commaSeparated]
    have total : (commaSeparated (part :: part' :: more')).length =
        part.length + (1 + (commaSeparated (part' :: more')).length) := by
      simp [commaSeparated]
      omega
    rw [total] at short
    rw [layout]
    have read := readTree_render item part fuel
      (44 :: (commaSeparated (part' :: more') ++ 93 :: rest)) first (by omega)
      (ends_cons (by decide) _)
    obtain ⟨readMore, _⟩ := readItems_render next items (part' :: more') fuel rest others
      (by omega)
    refine ⟨?_, skip_of_readTree read⟩
    simp [readItems, read, skip_cons, readMore,
      skip_cons_ne (show (93 : UInt8) ≠ 44 from by decide)]

theorem readFields_render : ∀ (field : String × Tree) (fields : List (String × Tree))
    (members : List (String × Bytes)) (fuel : Nat) (rest : Bytes),
      renderFields (field :: fields) = .ok members → (membersText members).length + 1 < fuel →
        readFields fuel (membersText members ++ 125 :: rest) = some (field :: fields, rest) ∧
          skip [125] (membersText members ++ 125 :: rest) = none
  | _, _, _, 0, _, _, short => absurd short (by omega)
  | (key, item), [], _, fuel + 1, rest, rendered, short => by
    obtain ⟨plain, part, more, first, others, rfl⟩ := renderFields_cons rendered
    obtain rfl : [] = more := Except.ok.inj others
    have layout : membersText [(key, part)] ++ 125 :: rest =
        34 :: (utf8 key ++ 34 :: 58 :: (part ++ 125 :: rest)) := by
      simp [membersText, commaSeparated, memberText]
    have total : part.length < (membersText [(key, part)]).length := by
      simp [membersText, commaSeparated, memberText]
      omega
    rw [layout]
    have read := readTree_render item part fuel (125 :: rest) first (by omega)
      (ends_cons (by decide) rest)
    have readKey := readQuoted_utf8 plain (58 :: (part ++ 125 :: rest))
    refine ⟨?_, skip_cons_ne (by decide) _⟩
    simp [readFields, skip_cons, readKey, read]
  | (key, item), next :: fields, _, fuel + 1, rest, rendered, short => by
    obtain ⟨plain, part, more, first, others, rfl⟩ := renderFields_cons rendered
    obtain ⟨_, part', more', _, _, rfl⟩ := renderFields_cons others
    have layout : membersText ((key, part) :: (next.1, part') :: more') ++ 125 :: rest =
        34 :: (utf8 key ++ 34 :: 58 ::
          (part ++ 44 :: (membersText ((next.1, part') :: more') ++ 125 :: rest))) := by
      simp [membersText, commaSeparated, memberText]
    have total : part.length + (membersText ((next.1, part') :: more')).length + 1 <
        (membersText ((key, part) :: (next.1, part') :: more')).length := by
      simp [membersText, commaSeparated, memberText]
      omega
    rw [layout]
    have read := readTree_render item part fuel
      (44 :: (membersText ((next.1, part') :: more') ++ 125 :: rest)) first (by omega)
      (ends_cons (by decide) _)
    have readKey := readQuoted_utf8 plain
      (58 :: (part ++ 44 :: (membersText ((next.1, part') :: more') ++ 125 :: rest)))
    obtain ⟨readMore, _⟩ := readFields_render next fields ((next.1, part') :: more') fuel rest
      others (by omega)
    refine ⟨?_, skip_cons_ne (by decide) _⟩
    simp [readFields, skip_cons,
      readKey, read, readMore, skip_cons_ne (show (125 : UInt8) ≠ 44 from by decide)]
end

theorem parse_render {tree : Tree} {text : Bytes} (rendered : render tree = .ok text) :
    parse text =
      if tree.depth ≤ maxNesting then .ok tree else .error "recursion limit exceeded" := by
  have read := readTree_render tree text (text.length + 1) [] rendered (by omega)
    (by intro c member; simp at member)
  rw [List.append_nil] at read
  simp only [parse, read]

theorem depth_of_parse (input : Bytes) (tree : Tree) (parsed : parse input = .ok tree) :
    tree.depth ≤ maxNesting := by
  unfold parse at parsed
  split at parsed
  · split at parsed
    · cases parsed
      assumption
    · cases parsed
  · cases parsed

/-! ## No line break -/

theorem not_mem_utf8 {text : String} (plain : PlainKey text) : (10 : UInt8) ∉ utf8 text := by
  rw [utf8_of_plain plain]
  intro member
  obtain ⟨c, inside, lineBreak⟩ := List.mem_map.mp member
  obtain ⟨printable, small, _⟩ := plain c inside
  have value := toNat_ofNat_plain small
  rw [lineBreak] at value
  exact absurd value (by change 10 ≠ c.toNat; omega)

theorem not_mem_digits : ∀ places n : Nat, (10 : UInt8) ∉ digits places n
  | 0, _ => by simp [digits]
  | places + 1, n => by
    have digit : ∀ d, d < 10 → (10 : UInt8) ≠ UInt8.ofNat (48 + d) := by
      intro d small lineBreak
      have isOne := isDigit_digit small
      rw [← lineBreak] at isOne
      exact absurd isOne (by decide)
    simp only [digits]
    split
    · rename_i small
      exact fun member => digit n small (List.mem_singleton.mp member)
    · intro member
      rcases List.mem_append.mp member with member | member
      · exact not_mem_digits places (n / 10) member
      · exact digit (n % 10) (Nat.mod_lt n (by decide)) (List.mem_singleton.mp member)

theorem not_mem_commaSeparated : ∀ {parts : List Bytes}, (∀ part ∈ parts, (10 : UInt8) ∉ part) →
    (10 : UInt8) ∉ commaSeparated parts
  | [], _ => by simp [commaSeparated]
  | [part], clean => clean part (List.mem_singleton_self part)
  | part :: next :: rest, clean => by
    have first := clean part (List.mem_cons_self ..)
    have others := not_mem_commaSeparated
      fun later member => clean later (List.mem_cons_of_mem part member)
    simp [commaSeparated, first, others]

mutual
theorem not_mem_render : ∀ (tree : Tree) (text : Bytes), render tree = .ok text →
    (10 : UInt8) ∉ text
  | .null, _, rendered => by
    obtain rfl : utf8 "null" = _ := Except.ok.inj rendered
    decide
  | .bool true, _, rendered => by
    obtain rfl : utf8 "true" = _ := Except.ok.inj rendered
    decide
  | .bool false, _, rendered => by
    obtain rfl : utf8 "false" = _ := Except.ok.inj rendered
    decide
  | .num (.int value), _, rendered => by
    simp only [render] at rendered
    split at rendered
    · obtain rfl : integerText value = _ := Except.ok.inj rendered
      unfold integerText
      split <;> simp [not_mem_digits]
    · simp at rendered
  | .num (.float bits), _, rendered => by
    obtain rfl : doubleText bits = _ := Except.ok.inj rendered
    simp [doubleText, not_mem_digits]
  | .str text, _, rendered => by
    simp only [render] at rendered
    split at rendered
    · rename_i plain
      obtain rfl : stringText text = _ := Except.ok.inj rendered
      simp [stringText, not_mem_utf8 plain]
    · simp at rendered
  | .arr items, _, rendered => by
    cases inner : renderItems items with
    | error error => simp [render, inner, Except.map] at rendered
    | ok parts =>
      obtain rfl : arrayText parts = _ := by
        simpa [render, inner, Except.map] using rendered
      have clean := not_mem_commaSeparated (not_mem_renderItems items parts inner)
      simp [arrayText, clean]
  | .obj fields, _, rendered => by
    cases inner : renderFields fields with
    | error error => simp [render, inner, Except.map] at rendered
    | ok members =>
      obtain rfl : objectText members = _ := by
        simpa [render, inner, Except.map] using rendered
      have clean := not_mem_commaSeparated (not_mem_renderFields fields members inner)
      simp [objectText, clean]

theorem not_mem_renderItems : ∀ (items : List Tree) (parts : List Bytes),
    renderItems items = .ok parts → ∀ part ∈ parts, (10 : UInt8) ∉ part
  | [], _, rendered => by
    obtain rfl : [] = _ := Except.ok.inj rendered
    simp
  | item :: items, _, rendered => by
    obtain ⟨part, more, first, others, rfl⟩ := renderItems_cons rendered
    intro other member
    rcases List.mem_cons.mp member with rfl | member
    · exact not_mem_render item other first
    · exact not_mem_renderItems items more others other member

theorem not_mem_renderFields : ∀ (fields : List (String × Tree))
    (members : List (String × Bytes)), renderFields fields = .ok members →
      ∀ part ∈ members.map (fun member => memberText member.1 member.2), (10 : UInt8) ∉ part
  | [], _, rendered => by
    obtain rfl : [] = _ := Except.ok.inj rendered
    simp
  | (key, item) :: fields, _, rendered => by
    obtain ⟨plain, part, more, first, others, rfl⟩ := renderFields_cons rendered
    intro other member
    rcases List.mem_cons.mp member with rfl | member
    · have keyClean := not_mem_utf8 plain
      have partClean := not_mem_render item part first
      simp [memberText, keyClean, partClean]
    · exact not_mem_renderFields fields more others other member
end

/-! ## The laws -/

theorem renderItems_eq : ∀ items : List Value,
    renderItems (items.map Subtype.val) = canonicalItems (fun value => render value.val) items
  | [] => rfl
  | item :: items => by
    rw [List.map_cons, renderItems, renderItems_eq items]
    rfl

theorem renderFields_eq : ∀ fields : List (String × Value), (∀ field ∈ fields, PlainKey field.1) →
    renderFields (fields.map Value.member) =
      canonicalMembers (fun value => render value.val) fields
  | [], _ => rfl
  | (key, item) :: fields, plain => by
    have rest := renderFields_eq fields fun field later =>
      plain field (List.mem_cons_of_mem _ later)
    simp only [List.map_cons, Value.member, renderFields]
    rw [if_pos (plain (key, item) (List.mem_cons_self ..)), rest]
    rfl

mutual
theorem mapNumbers_id : ∀ tree : Tree, tree.mapNumbers id = tree
  | .null => rfl
  | .bool _ => rfl
  | .num _ => rfl
  | .str _ => rfl
  | .arr items => congrArg Tree.arr (mapNumbersItems_id items)
  | .obj fields => congrArg Tree.obj (mapNumbersFields_id fields)

theorem mapNumbersItems_id : ∀ items : List Tree, Tree.mapNumbersItems id items = items
  | [] => rfl
  | item :: items => by
    simp only [Tree.mapNumbersItems, mapNumbers_id item, mapNumbersItems_id items]

theorem mapNumbersFields_id : ∀ fields : List (String × Tree),
    Tree.mapNumbersFields id fields = fields
  | [] => rfl
  | (key, item) :: fields => by
    simp only [Tree.mapNumbersFields, mapNumbers_id item, mapNumbersFields_id fields]
end

theorem value_mapNumbers_id (value : Value) : value.mapNumbers id = value :=
  Subtype.ext (mapNumbers_id value.val)

/-- The text library that reads and writes plain documents. -/
def text : Text where
  parse := parse
  canonicalize value := render value.val
  number := id
  number_exact _ _ := rfl
  number_idem _ := rfl
  canonicalize_number value := by rw [value_mapNumbers_id]
  parse_depth := depth_of_parse
  parse_canonicalize value _ rendered shallow :=
    ⟨value.val, (parse_render rendered).trans (if_pos shallow),
      Tree.hasDuplicateKey_of_isOrdered value.val value.property,
      (Value.ofTree_val value).trans (value_mapNumbers_id value).symm⟩
  parse_deep _ _ rendered deep := ⟨_, (parse_render rendered).trans (if_neg (Nat.not_le.mpr deep))⟩
  canonicalize_noLineBreak value bytes := not_mem_render value.val bytes
  canonicalize_arr items := congrArg (Except.map arrayText) (renderItems_eq items)
  canonicalize_obj fields _ plain := congrArg (Except.map objectText) (renderFields_eq fields plain)

/-- The printer of exact numbers writes what the canonical one does. -/
def printer : Text.Printer text where
  toVec := text.canonicalize
  fromSliceStrict_toVec printed shallow := by
    rw [text.fromSliceStrict_canonicalize printed shallow]
    exact congrArg Except.ok (value_mapNumbers_id _)
  toVec_deep := text.parse_deep _ _

theorem reread_eq (value : Value) : text.reread value = value := value_mapNumbers_id value

theorem parse_canonicalize {value : Value} {bytes : Bytes}
    (canonical : text.canonicalize value = .ok bytes) (shallow : value.depth ≤ maxNesting) :
    text.parse bytes = .ok value.val :=
  (parse_render canonical).trans (if_pos shallow)

theorem canonicalLen?_str (content : String) (plain : PlainKey content) :
    text.canonicalLen? (.str content) = some (content.toList.length + 2) := by
  have rendered : text.canonicalize (.str content) = .ok (stringText content) := if_pos plain
  simp only [Text.canonicalLen?, rendered, stringText, utf8_of_plain plain, utf8_quote,
    List.length_append, List.length_map, List.length_singleton]
  congr 1
  omega

theorem canonicalLen?_replicate (size : Nat) :
    text.canonicalLen? (.str (String.ofList (List.replicate size 'x'))) = some (size + 2) := by
  have plain : PlainKey (String.ofList (List.replicate size 'x')) := by
    intro c member
    rw [String.toList_ofList] at member
    rw [List.eq_of_mem_replicate member]
    decide
  rw [canonicalLen?_str _ plain, String.toList_ofList, List.length_replicate]

theorem length_digits : ∀ {places n : Nat}, n < 10 ^ places →
    (digits places n).length = if places = 0 then 0 else (Nat.toDigits 10 n).length
  | 0, _, _ => rfl
  | places + 1, n, small => by
    rw [digits, if_neg (Nat.succ_ne_zero places)]
    split
    · next one => rw [Nat.toDigits_of_lt_base one, List.length_singleton, List.length_singleton]
    · next more =>
      have rest : n / 10 < 10 ^ places := by
        rw [Nat.pow_succ] at small
        omega
      have positive : places ≠ 0 := by
        rintro rfl
        omega
      rw [Nat.toDigits_of_base_le (by decide) (by omega), List.length_append, List.length_append,
        length_digits rest, if_neg positive]
      rfl

theorem exactLengths : text.ExactLengths where
  str := canonicalLen?_str
  nat n small := by
    have whole : (n : Int).natAbs = n := Int.natAbs_natCast n
    have positive : ¬ (n : Int) < 0 := by omega
    have bounded : n < 10 ^ 17 := by omega
    have rendered : text.canonicalize (.int n) = .ok (digits 17 n) := by
      show (if (n : Int).natAbs ≤ 2 ^ 53 then _ else _) = _
      rw [whole, if_pos small, integerText, if_neg positive, whole]
    simp only [Text.canonicalLen?, rendered]
    rw [length_digits bounded, if_neg (by decide)]

/-! ## Numbers written as doubles -/

/-- Canonical bytes of the document whose numbers are those of their doubles: the
integer `2 ^ 53 + 1`, which no double represents, is written as `2 ^ 53`. -/
def canonicalize (value : Value) : Except String Bytes :=
  text.canonicalize (value.mapNumbers Number.canonical)

theorem canonicalItems_mapNumbers : ∀ items : List Value,
    canonicalItems text.canonicalize (items.map (Value.mapNumbers Number.canonical)) =
      canonicalItems canonicalize items
  | [] => rfl
  | item :: items => by
    simp only [List.map_cons, canonicalItems, canonicalItems_mapNumbers items, canonicalize]

theorem canonicalMembers_mapNumbers : ∀ fields : List (String × Value),
    canonicalMembers text.canonicalize
        (fields.map fun field => (field.1, field.2.mapNumbers Number.canonical)) =
      canonicalMembers canonicalize fields
  | [] => rfl
  | (key, item) :: fields => by
    simp only [List.map_cons, canonicalMembers, canonicalMembers_mapNumbers fields, canonicalize]

/-- The text library on plain documents, with every number taken as a double. -/
def doubles : Text where
  parse := parse
  canonicalize := canonicalize
  number := Number.canonical
  number_exact := Number.canonical_of_exact
  number_idem := Number.canonical_idem
  canonicalize_number value := by
    rw [canonicalize, Value.mapNumbers_idem Number.canonical_idem, canonicalize]
  parse_depth := depth_of_parse
  parse_canonicalize value bytes canonical shallow := by
    rw [← Value.depth_mapNumbers Number.canonical value] at shallow
    have parsed := text.parse_canonicalize _ bytes canonical shallow
    rwa [show text.number = id from rfl, value_mapNumbers_id] at parsed
  parse_deep value bytes canonical deep := by
    rw [← Value.depth_mapNumbers Number.canonical value] at deep
    exact text.parse_deep _ bytes canonical deep
  canonicalize_noLineBreak value bytes := text.canonicalize_noLineBreak _ bytes
  canonicalize_arr items := by
    rw [canonicalize, Value.mapNumbers_arr, text.canonicalize_arr, canonicalItems_mapNumbers]
  canonicalize_obj fields increasing plain := by
    rw [canonicalize, Value.mapNumbers_obj, text.canonicalize_obj, canonicalMembers_mapNumbers]
    intro field member
    obtain ⟨original, inside, rfl⟩ := List.mem_map.mp member
    exact plain original inside

theorem doubles_writesDoubles : doubles.WritesDoubles := by
  intro value
  change text.canonicalize _ = text.canonicalize _
  rw [Value.mapNumbers_mapNumbers]
  rfl

def doublesPrinter : Text.Printer doubles where
  toVec := text.canonicalize
  fromSliceStrict_toVec := printer.fromSliceStrict_toVec
  toVec_deep := printer.toVec_deep

end Famp.Json.Plain
