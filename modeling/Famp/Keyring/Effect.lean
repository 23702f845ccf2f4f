import Mathlib.Algebra.GroupWithZero.Nat
import Famp.Keyring.Store

/-!
# What the calls of a keyring do

Every call changes the entries of one principal at most, in one of four ways.
-/

set_option autoImplicit false

namespace Famp.Keyring

open Std Famp.Core Data

theorem mem_modifyFirst_iff {α : Type} {test : α → Bool} {change : α → α} {list : List α} {x : α} :
    x ∈ modifyFirst test change list ↔
      x ∈ list.eraseP test ∨ ∃ first, list.find? test = some first ∧ x = change first := by
  induction list with
  | nil => simp [modifyFirst]
  | cons y rest ih =>
    by_cases passes : test y
    · simp [modifyFirst, passes, or_comm]
    · simp [modifyFirst, passes, ih, or_assoc]

theorem mem_iff_eraseP {α : Type} {test : α → Bool} {list : List α} {x : α} :
    x ∈ list ↔ x ∈ list.eraseP test ∨ list.find? test = some x := by
  induction list with
  | nil => simp
  | cons y rest ih =>
    by_cases passes : test y
    · simp [passes, or_comm, eq_comm]
    · simp [passes, ih, or_assoc]

theorem map_modifyFirst {α β : Type} {test : α → Bool} {change : α → α} {value : α → β}
    (kept : ∀ x, value (change x) = value x) (list : List α) :
    (modifyFirst test change list).map value = list.map value := by
  induction list with
  | nil => rfl
  | cons y rest ih =>
    unfold modifyFirst
    split
    · rw [List.map_cons, List.map_cons, kept]
    · rw [List.map_cons, List.map_cons, ih]

variable {principal : ParsedPrincipal} {now : String} {validUntil : Option String}
  {error : KeyringError}

section Effects
variable {Key : Type} [DecidableEq Key] {crypto : KeyCrypto Key}

def optionalCanonical : Option String → Bool
  | none => true
  | some text => isCanonicalUtc text

/-- The timestamps of an entry are canonical. -/
def KeyEntry.isCanonical (entry : KeyEntry Key) : Bool :=
  optionalCanonical entry.validUntil && optionalCanonical entry.pinnedAt &&
    optionalCanonical entry.stateSince

/-- The changes that calls make to the entries of a principal, each with the key of
the entry that it adds. -/
inductive Edit (crypto : KeyCrypto Key) :
    List (KeyEntry Key) → List (KeyEntry Key) → Option Key → Prop
  | pin {entries : List (KeyEntry Key)} {pinned : KeyEntry Key} :
      entries.find? KeyEntry.isActive = none → isRevokedIn entries pinned.key = false →
      pinned.state = .active → pinned.isCanonical = true →
      Edit crypto entries (entries ++ [pinned]) (some pinned.key)
  | rotate {entries : List (KeyEntry Key)} {old pinned : KeyEntry Key} {now : String} :
      entries.find? KeyEntry.isActive = some old → isRevokedIn entries pinned.key = false →
      pinned.state = .active → pinned.isCanonical = true → isCanonicalUtc now = true →
      Edit crypto entries
        (modifyFirst KeyEntry.isActive (·.inState .retired now) entries ++ [pinned]) (some pinned.key)
  | retire {entries : List (KeyEntry Key)} {entry : KeyEntry Key} {keyId : String} :
      entries.find? (hasId crypto keyId) = some entry → entry.state = .retired →
      Edit crypto entries (entries.eraseP (hasId crypto keyId)) none
  | revoke {entries : List (KeyEntry Key)} {entry : KeyEntry Key} {keyId now : String} :
      entries.find? (hasId crypto keyId) = some entry → isCanonicalUtc now = true →
      Edit crypto entries (modifyFirst (hasId crypto keyId) (·.inState .revoked now) entries) none

/-- The call changes the entries of one principal at most. -/
inductive Changed (crypto : KeyCrypto Key) (keyring changed : Keyring Key) :
    Option (ParsedPrincipal × Key) → Prop
  | same : changed = keyring → Changed crypto keyring changed none
  | edited {principal : ParsedPrincipal} {added : Option Key} :
      Edit crypto (entries keyring principal) (entries changed principal) added →
      (∀ other, principal ≠ other → entries changed other = entries keyring other) →
      Changed crypto keyring changed (added.map fun key => (principal, key))

omit [DecidableEq Key] in
theorem entries_insert (keyring : Keyring Key) (principal other : ParsedPrincipal)
    (list : List (KeyEntry Key)) :
    entries (keyring.insert principal list) other =
      if principal = other then list else entries keyring other :=
  getD_insert keyring principal other list []

omit [DecidableEq Key] in
theorem entries_erase (keyring : Keyring Key) (principal other : ParsedPrincipal) :
    entries (keyring.erase principal) other =
      if principal = other then [] else entries keyring other := by
  unfold entries
  rw [ExtTreeMap.getD_eq_getD_getElem?, lookup_erase]
  split
  · rfl
  · rw [ExtTreeMap.getD_eq_getD_getElem?]

variable {keyring changed : Keyring Key}

theorem Changed.insert {list : List (KeyEntry Key)} {added : Option Key}
    (edit : Edit crypto (entries keyring principal) list added) :
    Changed crypto keyring (keyring.insert principal list) (added.map fun key => (principal, key)) := by
  refine .edited ?_ fun other distinct => by rw [entries_insert, if_neg distinct]
  rw [entries_insert, if_pos rfl]
  exact edit

/-- The new entry that a call makes, if it makes one. -/
def added? (keyring : Keyring Key) : Call Key → Option (ParsedPrincipal × Key)
  | .pinTofu principal key | .withPeer principal key =>
    if isRevokedIn (entries keyring principal) key ||
        ((entries keyring principal).find? KeyEntry.isActive).isSome then none
    else some (principal, key)
  | .rotateTo principal newKey now validUntil confirmed =>
    if !isCanonicalUtc now || !optionalCanonical validUntil ||
        isRevokedIn (entries keyring principal) newKey then none
    else
      match (entries keyring principal).find? KeyEntry.isActive with
      | none => some (principal, newKey)
      | some old => if old.key ≠ newKey ∧ confirmed then some (principal, newKey) else none
  | _ => none

theorem pinTofu_changed {key : Key} (done : pinTofu crypto keyring principal key = .ok changed) :
    Changed crypto keyring changed (added? keyring (.pinTofu principal key)) := by
  simp only [pinTofu] at done
  split at done
  next => cases done
  next unrevoked =>
    have unrevoked : isRevokedIn (entries keyring principal) key = false := by simpa using unrevoked
    split at done
    next active found =>
      split at done
      · cases done
      · cases done
        simpa [added?, found] using Changed.same rfl
    next unfound =>
      cases done
      have edit : Edit crypto (entries keyring principal)
          (entries keyring principal ++ [KeyEntry.legacy key]) (some key) :=
        .pin unfound unrevoked rfl rfl
      simpa [added?, unfound, unrevoked] using Changed.insert edit

theorem checkTimestamps_ok_iff :
    checkTimestamps now validUntil = .ok () ↔
      isCanonicalUtc now = true ∧ optionalCanonical validUntil = true := by
  unfold checkTimestamps optionalCanonical
  cases isCanonicalUtc now with
  | false => simp
  | true =>
    cases validUntil with
    | none => simp
    | some text => cases isCanonicalUtc text <;> simp

theorem rotateTo_changed {newKey : Key} {confirmed : Bool} {outcome : RotationOutcome}
    (done : rotateTo crypto keyring principal newKey now validUntil confirmed =
      .ok (outcome, changed)) :
    Changed crypto keyring changed
      (added? keyring (.rotateTo principal newKey now validUntil confirmed)) := by
  simp only [rotateTo] at done
  split at done
  next => cases done
  next checked =>
    obtain ⟨canonical, canonical'⟩ := checkTimestamps_ok_iff.mp checked
    have pinned_canonical :
        (⟨newKey, .active, validUntil, some now, none⟩ : KeyEntry Key).isCanonical = true := by
      change (optionalCanonical validUntil && isCanonicalUtc now && true) = true
      rw [canonical, canonical']
      rfl
    split at done
    next => cases done
    next unrevoked =>
      have unrevoked : isRevokedIn (entries keyring principal) newKey = false := by simpa using unrevoked
      split at done
      next unfound =>
        obtain ⟨-, rfl⟩ := Prod.mk.inj (Except.ok.inj done)
        have edit : Edit crypto (entries keyring principal)
            (entries keyring principal ++ [⟨newKey, .active, validUntil, some now, none⟩])
            (some newKey) := .pin unfound unrevoked rfl pinned_canonical
        simpa [added?, canonical, canonical', unrevoked, unfound] using Changed.insert edit
      next old found =>
        split at done
        next same =>
          obtain ⟨-, rfl⟩ := Prod.mk.inj (Except.ok.inj done)
          simpa [added?, canonical, canonical', unrevoked, found, same] using Changed.same rfl
        next different =>
          split at done
          next => cases done
          next sure =>
            have sure : confirmed = true := by simpa using sure
            obtain ⟨-, rfl⟩ := Prod.mk.inj (Except.ok.inj done)
            have edit : Edit crypto (entries keyring principal)
                (modifyFirst KeyEntry.isActive (·.inState .retired now) (entries keyring principal) ++
                  [⟨newKey, .active, validUntil, some now, none⟩]) (some newKey) :=
              .rotate found unrevoked rfl pinned_canonical canonical
            simpa [added?, canonical, canonical', unrevoked, found, different, sure] using
              Changed.insert edit

theorem retire_changed {keyId : String}
    (done : retire crypto keyring principal keyId = .ok changed) :
    Changed crypto keyring changed none := by
  simp only [retire] at done
  split at done
  next => cases done
  next entry found =>
    split at done
    next => cases done
    next => cases done
    next retired =>
      have edit := Edit.retire found retired
      cases done
      split
      next empty =>
        rw [List.isEmpty_iff] at empty
        rw [empty] at edit
        have here : Edit crypto (entries keyring principal) (entries (keyring.erase principal) principal)
            none := by
          rw [entries_erase, if_pos rfl]
          exact edit
        exact Changed.edited here fun other distinct => by rw [entries_erase, if_neg distinct]
      next => exact Changed.insert edit

theorem revoke_changed {keyId : String}
    (done : revoke crypto keyring principal keyId now = .ok changed) :
    Changed crypto keyring changed none := by
  simp only [revoke] at done
  split at done
  next => cases done
  next canonical =>
    split at done
    next => cases done
    next entry found =>
      split at done
      next =>
        cases done
        exact .same rfl
      next =>
        cases done
        exact Changed.insert (.revoke found (by simpa using canonical))

omit [DecidableEq Key] in
theorem applySignedRevocation_ok {signed : SignedRevocation}
    (done : applySignedRevocation crypto keyring signed now = .ok changed) :
    isCanonicalUtc now = true ∧ isCanonicalUtc signed.statement.revokedAt = true ∧
      ∃ principal, ParsedPrincipal.fromStr signed.statement.principal = some principal ∧
        (entries keyring principal).any (hasId crypto signed.statement.revokedKeyId) = true ∧
        checkSignature crypto keyring signed principal = .ok () ∧
        revoke crypto keyring principal signed.statement.revokedKeyId signed.statement.revokedAt =
          .ok changed := by
  simp only [applySignedRevocation] at done
  split at done
  next => cases done
  next canonical =>
    split at done
    next => cases done
    next dated =>
      split at done
      next => cases done
      next principal parsed =>
        split at done
        next => cases done
        next present =>
          split at done
          next => cases done
          next verified =>
            exact ⟨by simpa using canonical, by simpa using dated, principal, parsed,
              by simpa using present, verified, done⟩

theorem outcome_changed {call : Call Key} (done : outcome crypto keyring call = .ok changed) :
    Changed crypto keyring changed (added? keyring call) := by
  cases call with
  | pinTofu principal key => exact pinTofu_changed done
  | withPeer principal key => exact pinTofu_changed done
  | rotateTo principal newKey now validUntil confirmed =>
    simp only [outcome] at done
    cases rotated : rotateTo crypto keyring principal newKey now validUntil confirmed with
    | error error => simp [rotated, Except.map] at done
    | ok result =>
      obtain ⟨outcome, changed'⟩ := result
      simp only [rotated, Except.map, Except.ok.injEq] at done
      subst done
      exact rotateTo_changed rotated
  | retire principal keyId => exact retire_changed done
  | revoke principal keyId now => exact revoke_changed done
  | applySignedRevocation signed now =>
    obtain ⟨-, -, principal, -, -, -, revoked⟩ := applySignedRevocation_ok done
    exact revoke_changed revoked

theorem added?_of_pin_error {key : Key}
    (failed : pinTofu crypto keyring principal key = .error error) :
    added? keyring (.pinTofu principal key) = none := by
  simp only [pinTofu] at failed
  split at failed
  next revoked => simp [added?, revoked]
  next =>
    split at failed
    next active found => simp [added?, found]
    next => cases failed

theorem added?_of_rotate_error {newKey : Key} {confirmed : Bool}
    (failed : rotateTo crypto keyring principal newKey now validUntil confirmed = .error error) :
    added? keyring (.rotateTo principal newKey now validUntil confirmed) = none := by
  simp only [rotateTo] at failed
  split at failed
  next refused =>
    have untimely : ¬(isCanonicalUtc now = true ∧ optionalCanonical validUntil = true) := by
      rw [← checkTimestamps_ok_iff, refused]
      exact nofun
    simp only [added?, ite_eq_left_iff, Bool.or_eq_true, not_or]
    rintro ⟨⟨timely, timely'⟩, -⟩
    exact absurd ⟨by simpa using timely, by simpa using timely'⟩ untimely
  next =>
    split at failed
    next revoked => simp [added?, revoked]
    next =>
      split at failed
      next => cases failed
      next old found =>
        split at failed
        next => cases failed
        next =>
          split at failed
          next unsure =>
            have unsure : confirmed = false := by simpa using unsure
            simp [added?, found, unsure]
          next => cases failed

theorem added?_of_error {call : Call Key} (failed : outcome crypto keyring call = .error error) :
    added? keyring call = none := by
  cases call with
  | pinTofu principal key => exact added?_of_pin_error failed
  | withPeer principal key => exact added?_of_pin_error failed
  | rotateTo principal newKey now validUntil confirmed =>
    simp only [outcome] at failed
    cases rotated : rotateTo crypto keyring principal newKey now validUntil confirmed with
    | error error => exact added?_of_rotate_error rotated
    | ok result => simp [rotated, Except.map] at failed
  | retire _ _ => rfl
  | revoke _ _ _ => rfl
  | applySignedRevocation _ _ => rfl

theorem perform_changed (crypto : KeyCrypto Key) (keyring : Keyring Key) (call : Call Key) :
    Changed crypto keyring (perform crypto keyring call).2 (added? keyring call) := by
  unfold perform
  split
  next changed done => exact outcome_changed done
  next error failed =>
    rw [added?_of_error failed]
    exact .same rfl

end Effects

/-! ## A keyring of three keys -/

scoped instance threeKeys : NeZero 3 := ⟨by decide⟩

def sampleText : Fin 3 → String
  | 0 => "keyA"
  | 1 => "keyB"
  | 2 => "keyC"

def sampleCrypto : KeyCrypto (Fin 3) where
  toB64url := sampleText
  fromB64url text := [0, 1, 2].find? fun key => sampleText key == text
  fromB64url_toB64url := by decide
  b64url_nonempty := by decide
  b64url_chars key c member := by
    have letters : ∀ key, (sampleText key).toList.all Principal.isAsciiAlphanumeric = true := by
      decide
    exact .inl (List.all_eq_true.mp (letters key) c member)
  keyId := sampleText
  keyId_injective a b := by revert a b; decide
  verifyStatement _ _ _ := true

def sampleAlice : ParsedPrincipal := ⟨⟨"peer.example", "alice"⟩, peerAlice_parses⟩

def sampleBob : ParsedPrincipal := ⟨⟨"peer.example", "bob"⟩, peerBob_parses⟩

/-- One key, another, and the first again. -/
def backAndForth : List (Call (Fin 3)) :=
  [.pinTofu sampleAlice 0, .rotateTo sampleAlice 1 "2026-11-16T12:00:00Z" none true,
    .rotateTo sampleAlice 0 "2026-11-16T13:00:00Z" none true]

end Famp.Keyring
