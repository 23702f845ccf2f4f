import Famp.Keyring.Effect
import Mathlib.Data.String.Basic

/-!
# The keyring file

One line for each entry.  Saving orders the lines by principal and key; loading
refuses a second active entry of a principal and a second entry of a key.
-/

set_option autoImplicit false

namespace Famp.Keyring

open Std Famp.Core Data

/-- A principal with one of its entries: a line of the file. -/
abbrev Item (Key : Type) := ParsedPrincipal × KeyEntry Key

section File
variable {Key : Type} [DecidableEq Key] (crypto : KeyCrypto Key)

/-! ## Lines -/

def absent : String := "-"

def serializedFields (item : Item Key) : List String :=
  let (principal, entry) := item
  if entry.isLegacyShaped then [principal.text, crypto.toB64url entry.key]
  else
    [principal.text, crypto.toB64url entry.key, entry.state.asToken, entry.validUntil.getD absent,
      entry.pinnedAt.getD absent, entry.stateSince.getD absent]

/-- A line without its end. -/
def serializedLine (item : Item Key) : List Char :=
  spaced ((serializedFields crypto item).map String.toList)

def serializeEntry (item : Item Key) : List Char := serializedLine crypto item ++ ['\n']

def parseTs (line : Nat) (field raw : String) : Except KeyringError (Option String) :=
  if raw = absent then .ok none
  else if !isCanonicalUtc raw then .error (.malformedEntry line (.notCanonicalUtc field raw))
  else .ok (some raw)

/-- The principal and the key come first in both forms of a line. -/
def parseHead (line : Nat) (principal pubkey : String) : Except KeyringError (ParsedPrincipal × Key) :=
  match ParsedPrincipal.fromStr principal with
  | none => .error (.malformedEntry line .invalidPrincipal)
  | some principal =>
    match crypto.fromB64url pubkey with
    | none => .error .crypto
    | some key => .ok (principal, key)

def parseFields (line : Nat) : List String → Except KeyringError (Item Key)
  | [principal, pubkey] => do
    let (principal, key) ← parseHead crypto line principal pubkey
    return (principal, KeyEntry.legacy key)
  | [principal, pubkey, state, validUntil, pinnedAt, stateSince] => do
    let (principal, key) ← parseHead crypto line principal pubkey
    match KeyState.fromToken state with
    | none => .error (.malformedEntry line (.invalidState state))
    | some state =>
      let validUntil ← parseTs line "valid_until" validUntil
      let pinnedAt ← parseTs line "pinned_at" pinnedAt
      let stateSince ← parseTs line "state_since" stateSince
      return (principal, ⟨key, state, validUntil, pinnedAt, stateSince⟩)
  | fields => .error (.malformedEntry line (.fieldCount fields.length))

def parseLine (raw : List Char) (line : Nat) : Except KeyringError (Item Key) :=
  let text := if raw.getLast? = some '\r' then raw.dropLast else raw
  if '#' ∈ text then .error (.malformedEntry line .inlineComment)
  else parseFields crypto line ((words text).map String.ofList)

/-! ## Loading -/

structure LoadState (Key : Type) where
  map : Keyring Key
  seenKeys : List (Key × ParsedPrincipal)

def admitItem (line : Nat) (state : LoadState Key) (item : Item Key) :
    Except KeyringError (LoadState Key) :=
  let (principal, entry) := item
  let listed := entries state.map principal
  if entry.isActive && listed.any KeyEntry.isActive then .error (.duplicatePrincipal principal line)
  else
    match state.seenKeys.find? fun seen => seen.1 == entry.key with
    | some (_, existing) =>
      if existing = principal then .error (.duplicateKeyEntry principal line)
      else .error (.duplicatePubkey existing line)
    | none =>
      .ok ⟨state.map.insert principal (listed ++ [entry]), (entry.key, principal) :: state.seenKeys⟩

/-- A line of white space, or one that starts with a comment sign. -/
def isSkipped (raw : List Char) : Bool :=
  match raw.dropWhile isWhiteSpace with
  | [] => true
  | first :: _ => first == '#'

def loadLines : Nat → List (List Char) → LoadState Key → Except KeyringError (LoadState Key)
  | _, [], state => .ok state
  | line, raw :: rest, state =>
    if isSkipped raw then loadLines (line + 1) rest state
    else
      match parseLine crypto raw line with
      | .error error => .error error
      | .ok item =>
        match admitItem line state item with
        | .error error => .error error
        | .ok state => loadLines (line + 1) rest state

def load (text : List Char) : Except KeyringError (Keyring Key) :=
  (loadLines crypto 1 (lines text) ⟨∅, []⟩).map LoadState.map

/-! ## Saving -/

def sortEntries (list : List (KeyEntry Key)) : List (KeyEntry Key) :=
  list.mergeSort fun a b => decide (crypto.toB64url a.key ≤ crypto.toB64url b.key)

/-- The lines of a keyring in the order they are saved. -/
def items (keyring : Keyring Key) : List (Item Key) :=
  keyring.toList.flatMap fun (principal, list) =>
    (sortEntries crypto list).map fun entry => (principal, entry)

def save (keyring : Keyring Key) : List Char := (items crypto keyring).flatMap (serializeEntry crypto)

end File

/-! ## A line is read back -/

section Lines
variable {Key : Type} {crypto : KeyCrypto Key}

/-- A text that can stand in a field of a line. -/
structure IsField (field : String) : Prop where
  nonempty : field.toList ≠ []
  chars : ∀ c ∈ field.toList, Principal.TextChar c

theorem IsField.isWord {field : String} (isField : IsField field) : IsWord field.toList :=
  ⟨isField.nonempty, fun c member => (isField.chars c member).1⟩

theorem textChar_of_isDigit {c : Char} (digit : c.isDigit = true) : Principal.TextChar c := by
  refine Principal.isGraphic_of_word (.inl ?_)
  simp only [Char.isDigit, Bool.and_eq_true, decide_eq_true_eq] at digit
  simp only [Principal.isAsciiAlphanumeric, Bool.or_eq_true, Bool.and_eq_true, decide_eq_true_eq,
    Char.le_def]
  exact .inl (.inl digit)

theorem isField_of_canonical {text : String} (canonical : isCanonicalUtc text = true) : IsField text := by
  unfold isCanonicalUtc at canonical
  split at canonical
  next y₁ y₂ y₃ y₄ mo₁ mo₂ d₁ d₂ h₁ h₂ mi₁ mi₂ s₁ s₂ chars =>
    refine ⟨by simp [chars], fun c member => ?_⟩
    rw [chars] at member
    rw [List.all_eq_true] at canonical
    have punctuation : ∀ c ∈ ['-', 'T', ':', 'Z'], Principal.TextChar c :=
      Principal.textChars_of_all (by decide)
    have either : c ∈ ['-', 'T', ':', 'Z'] ∨ c.isDigit = true := by
      by_cases digit : c ∈ [y₁, y₂, y₃, y₄, mo₁, mo₂, d₁, d₂, h₁, h₂, mi₁, mi₂, s₁, s₂]
      · exact .inr (canonical c digit)
      · refine .inl ?_
        simp only [List.mem_cons, List.not_mem_nil, or_false, not_or] at member digit ⊢
        simpa only [digit, false_or, or_self_left] using member
    exact either.elim (punctuation c) textChar_of_isDigit
  next => cases canonical

theorem isField_optional {time : Option String} (canonical : optionalCanonical time = true) :
    IsField (time.getD absent) := by
  cases time with
  | none => exact ⟨by decide, Principal.textChars_of_all (by decide)⟩
  | some text => exact isField_of_canonical canonical

theorem parseTs_getD {line : Nat} {field : String} {time : Option String}
    (canonical : optionalCanonical time = true) : parseTs line field (time.getD absent) = .ok time := by
  cases time with
  | none => rfl
  | some text =>
    have canonical : isCanonicalUtc text = true := canonical
    have stamped : text ≠ absent := by
      rintro rfl
      cases canonical
    simp [parseTs, stamped, canonical]

theorem isField_b64url (key : Key) : IsField (crypto.toB64url key) := by
  refine ⟨crypto.b64url_nonempty key, fun c member => Principal.isGraphic_of_word ?_⟩
  rcases crypto.b64url_chars key c member with letter | dash | low
  · exact .inl letter
  · exact .inr (.inr (.inr dash))
  · exact .inr (.inr (.inl low))

theorem isField_asToken (state : KeyState) : IsField state.asToken := by
  cases state <;> exact ⟨by decide, Principal.textChars_of_all (by decide)⟩

theorem canonical_parts {entry : KeyEntry Key} (canonical : entry.isCanonical = true) :
    optionalCanonical entry.validUntil = true ∧ optionalCanonical entry.pinnedAt = true ∧
      optionalCanonical entry.stateSince = true := by
  simpa [KeyEntry.isCanonical, and_assoc] using canonical

theorem serializedFields_isField {item : Item Key} (canonical : item.2.isCanonical = true) :
    ∀ field ∈ serializedFields crypto item, IsField field := by
  obtain ⟨principal, entry⟩ := item
  obtain ⟨validUntil, pinnedAt, stateSince⟩ := canonical_parts canonical
  have named : IsField principal.text := ⟨principal.text_isWord.nonempty, principal.text_chars⟩
  simp only [serializedFields]
  split
  · simp only [List.mem_cons, List.not_mem_nil, or_false, forall_eq_or_imp, forall_eq]
    exact ⟨named, isField_b64url entry.key⟩
  · simp only [List.mem_cons, List.not_mem_nil, or_false, forall_eq_or_imp, forall_eq]
    exact ⟨named, isField_b64url entry.key, isField_asToken entry.state, isField_optional validUntil,
      isField_optional pinnedAt, isField_optional stateSince⟩

theorem parseHead_text (line : Nat) (principal : ParsedPrincipal) (key : Key) :
    parseHead crypto line principal.text (crypto.toB64url key) = .ok (principal, key) := by
  simp [parseHead, ParsedPrincipal.fromStr_text, crypto.fromB64url_toB64url]

theorem fromToken_asToken (state : KeyState) : KeyState.fromToken state.asToken = some state := by
  cases state <;> rfl

theorem legacy_of_shape {entry : KeyEntry Key} (shape : entry.isLegacyShaped = true) :
    entry = KeyEntry.legacy entry.key := by
  obtain ⟨key, state, validUntil, pinnedAt, stateSince⟩ := entry
  simp only [KeyEntry.isLegacyShaped, Bool.and_eq_true, beq_iff_eq, Option.isNone_iff_eq_none] at shape
  obtain ⟨⟨⟨rfl, rfl⟩, rfl⟩, rfl⟩ := shape
  rfl

theorem parseFields_serialized (line : Nat) {item : Item Key} (canonical : item.2.isCanonical = true) :
    parseFields crypto line (serializedFields crypto item) = .ok item := by
  obtain ⟨principal, entry⟩ := item
  obtain ⟨validUntil, pinnedAt, stateSince⟩ := canonical_parts canonical
  simp only [serializedFields]
  split
  next shape =>
    simp only [parseFields, parseHead_text]
    nth_rewrite 2 [legacy_of_shape shape]
    rfl
  next =>
    simp only [parseFields, parseHead_text, fromToken_asToken]
    simp only [parseTs_getD validUntil, parseTs_getD pinnedAt, parseTs_getD stateSince]
    rfl

theorem mem_serializedLine {item : Item Key} (canonical : item.2.isCanonical = true) {c : Char}
    (member : c ∈ serializedLine crypto item) : c = ' ' ∨ Principal.TextChar c := by
  rcases mem_spaced member with blank | ⟨word, within, inside⟩
  · exact .inl blank
  · obtain ⟨field, listed, rfl⟩ := List.mem_map.mp within
    exact .inr ((serializedFields_isField canonical field listed).chars c inside)

theorem clean_serializedLine {item : Item Key} (canonical : item.2.isCanonical = true) :
    ∀ c ∈ serializedLine crypto item, c ≠ '\r' ∧ c ≠ '\n' := by
  intro c member
  rcases mem_serializedLine canonical member with rfl | plain
  · decide
  · exact ⟨ne_of_isGraphic plain.1 (by decide), ne_of_isGraphic plain.1 (by decide)⟩

theorem parseLine_serialized (line : Nat) {item : Item Key} (canonical : item.2.isCanonical = true) :
    parseLine crypto (serializedLine crypto item) line = .ok item := by
  have no_return : (serializedLine crypto item).getLast? ≠ some '\r' := fun last =>
    (clean_serializedLine canonical _ (List.mem_of_getLast? last)).1 rfl
  have no_comment : '#' ∉ serializedLine crypto item := by
    intro member
    rcases mem_serializedLine canonical member with blank | plain
    · exact absurd blank (by decide)
    · exact plain.2 rfl
  have read : words (serializedLine crypto item) = (serializedFields crypto item).map String.toList := by
    refine words_spaced fun word within => ?_
    obtain ⟨field, listed, rfl⟩ := List.mem_map.mp within
    exact (serializedFields_isField canonical field listed).isWord
  simp only [parseLine, if_neg no_return, if_neg no_comment, read, List.map_map]
  rw [show String.ofList ∘ String.toList = id from funext fun text => String.ofList_toList,
    List.map_id, parseFields_serialized line canonical]

theorem serializedFields_head (item : Item Key) :
    ∃ rest, serializedFields crypto item = item.1.text :: rest := by
  simp only [serializedFields]
  split
  · exact ⟨_, rfl⟩
  · exact ⟨_, rfl⟩

theorem isSkipped_serialized (item : Item Key) : isSkipped (serializedLine crypto item) = false := by
  obtain ⟨rest, fields⟩ : ∃ rest, serializedFields crypto item = item.1.text :: rest :=
    serializedFields_head item
  obtain ⟨first, more, text⟩ := List.exists_cons_of_ne_nil item.1.text_isWord.nonempty
  obtain ⟨tail, line⟩ := spaced_cons item.1.text.toList (rest.map String.toList)
  have plain : Principal.TextChar first := item.1.text_chars first (by simp [text])
  have visible : isWhiteSpace first = false := not_isWhiteSpace_of_isGraphic plain.1
  rw [serializedLine, fields, List.map_cons, line, text, isSkipped]
  simp [visible, plain.2]

theorem lines_save {list : List (Item Key)} (canonical : ∀ item ∈ list, item.2.isCanonical = true) :
    lines (list.flatMap (serializeEntry crypto)) = list.map (serializedLine crypto) := by
  have clean : ∀ line ∈ list.map (serializedLine crypto), ∀ c ∈ line, c ≠ '\r' ∧ c ≠ '\n' := by
    intro line within
    obtain ⟨item, listed, rfl⟩ := List.mem_map.mp within
    exact clean_serializedLine (canonical item listed)
  have read := lines_flatMap clean
  rwa [List.flatMap_map] at read

end Lines

end Famp.Keyring
