import Famp.Keyring.Effect

/-!
# Revocation is final

A key whose every entry for a principal is revoked stays so under all calls, and
is no longer handed out, nor pinned, nor retired.  A revocation revokes one entry
of the key, so it is final exactly where no other entry of it is left.
-/

set_option autoImplicit false

namespace Famp.Keyring

open Std Famp.Core Data

variable {keyId now : String} {principal : ParsedPrincipal}

section Finality
variable {Key : Type} [DecidableEq Key] {crypto : KeyCrypto Key}

/-! ## Revoked ids -/

/-- There is an entry with this key id, and all entries with it are revoked. -/
structure RevokedIn (crypto : KeyCrypto Key) (entries : List (KeyEntry Key)) (keyId : String) : Prop where
  present : ∃ entry ∈ entries, hasId crypto keyId entry = true
  revoked : ∀ entry ∈ entries, hasId crypto keyId entry = true → entry.state = .revoked

variable {keyring : Keyring Key} {entry : KeyEntry Key}

omit [DecidableEq Key] in
theorem hasId_unique {keyId' : String} (same : hasId crypto keyId entry = true)
    (same' : hasId crypto keyId' entry = true) : keyId = keyId' := by
  simp only [hasId, beq_iff_eq] at same same'
  rw [← same, ← same']

omit [DecidableEq Key] in
theorem RevokedIn.of_parts {entries changed : List (KeyEntry Key)}
    (revoked : RevokedIn crypto entries keyId)
    (kept : ∀ entry ∈ entries, hasId crypto keyId entry = true → entry.state = .revoked →
      ∃ entry' ∈ changed, hasId crypto keyId entry' = true)
    (only : ∀ entry ∈ changed, hasId crypto keyId entry = true → entry ∈ entries ∨ entry.state = .revoked) :
    RevokedIn crypto changed keyId := by
  obtain ⟨⟨entry, member, same⟩, all⟩ := revoked
  refine ⟨kept entry member same (all entry member same), fun entry' member' same' => ?_⟩
  rcases only entry' member' same' with old | revoked
  · exact all entry' old same'
  · exact revoked

theorem isRevokedIn_of_revoked {entries : List (KeyEntry Key)} {key : Key}
    (revoked : RevokedIn crypto entries (crypto.keyId key)) : isRevokedIn entries key = true := by
  obtain ⟨⟨entry, member, same⟩, all⟩ := revoked
  refine List.any_eq_true.mpr ⟨entry, member, ?_⟩
  have same_key : entry.key = key := crypto.keyId_injective (by simpa [hasId] using same)
  simp [all entry member same, same_key]

theorem Edit.keeps_revoked {entries changed : List (KeyEntry Key)} {added : Option Key}
    (edit : Edit crypto entries changed added) (revoked : RevokedIn crypto entries keyId) :
    RevokedIn crypto changed keyId := by
  -- A pinned key is none of the revoked ones.
  have unlike : ∀ pinned : KeyEntry Key, isRevokedIn entries pinned.key = false →
      ¬hasId crypto keyId pinned = true := by
    intro pinned unrevoked same
    have same : crypto.keyId pinned.key = keyId := by simpa [hasId] using same
    rw [← same] at revoked
    rw [isRevokedIn_of_revoked revoked] at unrevoked
    cases unrevoked
  cases edit with
  | @pin pinned unfound unrevoked _ _ =>
    refine revoked.of_parts (fun entry member same _ => ⟨entry, List.mem_append_left _ member, same⟩) ?_
    intro entry member same
    rcases List.mem_append.mp member with old | new
    · exact .inl old
    · obtain rfl := List.mem_singleton.mp new
      exact absurd same (unlike _ unrevoked)
  | @rotate old pinned now found unrevoked _ _ _ =>
    have old_active : old.state = .active := by
      simpa [KeyEntry.isActive] using List.find?_some found
    refine revoked.of_parts ?_ ?_
    · intro entry member same state
      refine ⟨entry, List.mem_append_left _ (mem_modifyFirst_iff.mpr (.inl ?_)), same⟩
      exact (List.mem_eraseP_of_neg (by simp [KeyEntry.isActive, state])).mpr member
    · intro entry member same
      rcases List.mem_append.mp member with changed | new
      · rcases mem_modifyFirst_iff.mp changed with kept | ⟨first, found', rfl⟩
        · exact .inl (List.mem_of_mem_eraseP kept)
        · obtain rfl : old = first := Option.some.inj (found.symm.trans found')
          have state := revoked.revoked old (List.mem_of_find?_eq_some found) same
          rw [old_active] at state
          cases state
      · obtain rfl := List.mem_singleton.mp new
        exact absurd same (unlike _ unrevoked)
  | @retire entry keyId' found retired =>
    refine revoked.of_parts ?_ fun entry member _ => .inl (List.mem_of_mem_eraseP member)
    intro entry' member same _
    have unlike_erased : ¬hasId crypto keyId' entry' = true := by
      intro same'
      obtain rfl := hasId_unique same same'
      have state := revoked.revoked entry (List.mem_of_find?_eq_some found) (List.find?_some found)
      rw [retired] at state
      cases state
    exact ⟨entry', (List.mem_eraseP_of_neg unlike_erased).mpr member, same⟩
  | @revoke entry keyId' now found _ =>
    refine revoked.of_parts ?_ ?_
    · intro entry' member same _
      by_cases same' : hasId crypto keyId' entry' = true
      · obtain rfl := hasId_unique same same'
        have marked : hasId crypto keyId entry = true := List.find?_some found
        exact ⟨_, mem_modifyFirst_iff.mpr (.inr ⟨entry, found, rfl⟩), marked⟩
      · exact ⟨entry', mem_modifyFirst_iff.mpr (.inl ((List.mem_eraseP_of_neg same').mpr member)), same⟩
    · intro entry' member same
      rcases mem_modifyFirst_iff.mp member with kept | ⟨first, found', rfl⟩
      · exact .inl (List.mem_of_mem_eraseP kept)
      · exact .inr rfl

theorem perform_keeps_revoked (call : Call Key)
    (revoked : RevokedIn crypto (entries keyring principal) keyId) :
    RevokedIn crypto (entries (perform crypto keyring call).2 principal) keyId := by
  have changed := perform_changed crypto keyring call
  generalize added? keyring call = added at changed
  cases changed with
  | same unchanged => rwa [unchanged]
  | @edited edited added edit others =>
    by_cases here : edited = principal
    · subst here
      exact edit.keeps_revoked revoked
    · rwa [others principal here]

/-! ## What is final about it -/

/-- The key with this id is out of use for the principal: no lookup returns it, it
may sign nothing, and it can neither be pinned again nor retired. -/
structure Final (crypto : KeyCrypto Key) (keyring : Keyring Key) (principal : ParsedPrincipal)
    (keyId : String) : Prop where
  active : ∀ now key, isCanonicalUtc now = true →
    activeKey keyring principal now = .active key → crypto.keyId key ≠ keyId
  get : ∀ key, get keyring principal = some key → crypto.keyId key ≠ keyId
  signer : ∀ id, ∀ key ∈ authorizedSignerFor crypto keyring principal id, crypto.keyId key ≠ keyId
  pin : ∀ key, crypto.keyId key = keyId →
    pinTofu crypto keyring principal key = .error (.keyRevoked principal keyId)
  rotate : ∀ key now validUntil confirmed, crypto.keyId key = keyId → isCanonicalUtc now = true →
    optionalCanonical validUntil = true →
      rotateTo crypto keyring principal key now validUntil confirmed =
        .error (.keyRevoked principal keyId)
  retire : retire crypto keyring principal keyId = .error (.cannotRetire principal keyId "revoked")

omit [DecidableEq Key] in
theorem RevokedIn.unfound {entries : List (KeyEntry Key)} (revoked : RevokedIn crypto entries keyId)
    (member : entry ∈ entries) (state : entry.state ≠ .revoked) :
    crypto.keyId entry.key ≠ keyId := fun same =>
  state (revoked.revoked entry member (by simpa [hasId] using same))

omit [DecidableEq Key] in
theorem find?_isActive_state {entries : List (KeyEntry Key)}
    (found : entries.find? KeyEntry.isActive = some entry) : entry.state ≠ .revoked := by
  have active : entry.state = .active := by simpa [KeyEntry.isActive] using List.find?_some found
  rw [active]
  decide

omit [DecidableEq Key] in
theorem activeKey_active {key : Key} (found : activeKey keyring principal now = .active key) :
    ∃ entry, (entries keyring principal).find? KeyEntry.isActive = some entry ∧ entry.key = key := by
  simp only [activeKey] at found
  split at found
  next => cases found
  next =>
    split at found
    next entry stored =>
      refine ⟨entry, stored, ?_⟩
      split at found
      next =>
        split at found
        · cases found
        · exact KeyLookupOutcome.active.inj found
      next => exact KeyLookupOutcome.active.inj found
    next =>
      split at found
      next => cases found
      next => split at found <;> cases found

theorem final_of_revoked (revoked : RevokedIn crypto (entries keyring principal) keyId) :
    Final crypto keyring principal keyId where
  active now key _ found := by
    obtain ⟨entry, stored, rfl⟩ := activeKey_active found
    exact revoked.unfound (List.mem_of_find?_eq_some stored) (find?_isActive_state stored)
  get key found := by
    obtain ⟨entry, stored, rfl⟩ := Option.map_eq_some_iff.mp found
    exact revoked.unfound (List.mem_of_find?_eq_some stored) (find?_isActive_state stored)
  signer id key member := by
    obtain ⟨entry, within, rfl⟩ := List.mem_map.mp member
    obtain ⟨stored, allowed⟩ := List.mem_filter.mp within
    simp only [Bool.and_eq_true, bne_iff_ne] at allowed
    exact revoked.unfound stored allowed.1
  pin key same := by
    subst same
    simp [pinTofu, isRevokedIn_of_revoked revoked]
  rotate key now validUntil confirmed same canonical canonical' := by
    subst same
    simp [rotateTo, checkTimestamps_ok_iff.mpr ⟨canonical, canonical'⟩, isRevokedIn_of_revoked revoked]
  retire := by
    obtain ⟨entry, member, same⟩ := revoked.present
    cases found : (entries keyring principal).find? (hasId crypto keyId) with
    | none => exact absurd same (List.find?_eq_none.mp found entry member)
    | some first =>
      have state := revoked.revoked first (List.mem_of_find?_eq_some found) (List.find?_some found)
      simp [Keyring.retire, found, state]

theorem Final.revoked (final : Final crypto keyring principal keyId)
    (member : entry ∈ entries keyring principal) (same : hasId crypto keyId entry = true) :
    entry.state = .revoked := by
  by_contra state
  refine final.signer keyId entry.key ?_ (by simpa [hasId] using same)
  refine List.mem_map.mpr ⟨entry, List.mem_filter.mpr ⟨member, ?_⟩, rfl⟩
  have same : crypto.keyId entry.key = keyId := by simpa [hasId] using same
  simp [state, same]

/-! ## Revocations -/

/-- The call revokes this key id of this principal. -/
def Revokes (principal : ParsedPrincipal) (keyId : String) : Call Key → Prop
  | .revoke principal' keyId' _ => principal' = principal ∧ keyId' = keyId
  | .applySignedRevocation signed _ =>
    ParsedPrincipal.fromStr signed.statement.principal = some principal ∧
      signed.statement.revokedKeyId = keyId
  | _ => False

/-- Of the entries with this key id all but the first are revoked already. -/
def OthersRevoked (crypto : KeyCrypto Key) (keyring : Keyring Key) (principal : ParsedPrincipal)
    (keyId : String) : Prop :=
  ∀ entry ∈ (entries keyring principal).eraseP (hasId crypto keyId),
    hasId crypto keyId entry = true → entry.state = .revoked

omit [DecidableEq Key] in
theorem revoke_entries {changed : Keyring Key}
    (done : revoke crypto keyring principal keyId now = .ok changed) :
    ∃ first : KeyEntry Key, hasId crypto keyId first = true ∧ first.state = .revoked ∧
      ∀ entry, entry ∈ entries changed principal ↔
        entry ∈ (entries keyring principal).eraseP (hasId crypto keyId) ∨ entry = first := by
  simp only [revoke] at done
  split at done
  next => cases done
  next =>
    split at done
    next => cases done
    next first found =>
      split at done
      next revoked =>
        cases done
        refine ⟨first, List.find?_some found, revoked, fun entry => ?_⟩
        rw [mem_iff_eraseP, found, Option.some.injEq, eq_comm]
      next =>
        cases done
        have marked : hasId crypto keyId first = true := List.find?_some found
        refine ⟨first.inState .revoked now, marked, rfl, fun entry => ?_⟩
        rw [entries_insert, if_pos rfl, mem_modifyFirst_iff, found]
        simp

theorem revoke_final_iff {changed : Keyring Key}
    (done : revoke crypto keyring principal keyId now = .ok changed) :
    (RevokedIn crypto (entries changed principal) keyId ↔
        OthersRevoked crypto keyring principal keyId) ∧
      (Final crypto changed principal keyId → OthersRevoked crypto keyring principal keyId) := by
  obtain ⟨first, marked, state, members⟩ := revoke_entries done
  have others : Final crypto changed principal keyId → OthersRevoked crypto keyring principal keyId :=
    fun final entry member same => final.revoked ((members entry).mpr (.inl member)) same
  refine ⟨⟨fun revoked => others (final_of_revoked revoked), fun rest => ?_⟩, others⟩
  refine ⟨⟨first, (members first).mpr (.inr rfl), marked⟩, fun entry member same => ?_⟩
  rcases (members entry).mp member with kept | rfl
  · exact rest entry kept same
  · exact state

theorem revoke_of_perform (crypto : KeyCrypto Key) {call : Call Key}
    (revokes : Revokes principal keyId call) (done : (perform crypto keyring call).1 = .ok ()) :
    ∃ now, revoke crypto keyring principal keyId now = .ok (perform crypto keyring call).2 := by
  unfold perform at done ⊢
  cases result : outcome crypto keyring call with
  | error error => simp [result] at done
  | ok changed =>
    cases call with
    | revoke principal' keyId' now =>
      obtain ⟨rfl, rfl⟩ := revokes
      exact ⟨now, result⟩
    | applySignedRevocation signed now =>
      obtain ⟨parsed, rfl⟩ := revokes
      obtain ⟨-, -, principal', parsed', -, -, revoked⟩ := applySignedRevocation_ok result
      obtain rfl := Option.some.inj (parsed.symm.trans parsed')
      exact ⟨_, revoked⟩
    | _ => exact revokes.elim

end Finality

/-- In every sequence of calls on any keyring, every successful revocation is final
from then on exactly when each finds all but the first entry with its key id
revoked already. -/
theorem revocation_final_iff {Key : Type} [DecidableEq Key] (crypto : KeyCrypto Key)
    (start : Keyring Key) (calls : List (Call Key)) :
    (∀ earlier event later, traceOf (perform crypto) start calls = earlier ++ event :: later →
        ∀ principal keyId, Revokes principal keyId event.input → event.output = .ok () →
          ∀ since ∈ event :: later, Final crypto since.after principal keyId) ↔
      ∀ event ∈ traceOf (perform crypto) start calls, ∀ principal keyId,
        Revokes principal keyId event.input → event.output = .ok () →
          OthersRevoked crypto event.before principal keyId := by
  constructor
  · intro final event member principal keyId revokes done
    obtain ⟨earlier, later, split⟩ := List.append_of_mem member
    obtain ⟨taken, -⟩ := traceOf_split (perform crypto) split
    obtain ⟨now, revoked⟩ := revoke_of_perform crypto revokes
      ((congrArg Prod.fst taken).trans done)
    rw [taken] at revoked
    exact (revoke_final_iff revoked).2
      (final earlier event later split principal keyId revokes done event List.mem_cons_self)
  · intro others earlier event later split principal keyId revokes done since member
    obtain ⟨taken, rest, rfl⟩ := traceOf_split (perform crypto) split
    obtain ⟨now, revoked⟩ := revoke_of_perform crypto revokes
      ((congrArg Prod.fst taken).trans done)
    rw [taken] at revoked
    have alone := others event (split ▸ List.mem_append_right _ List.mem_cons_self) principal keyId
      revokes done
    have here := (revoke_final_iff revoked).1.mpr alone
    refine final_of_revoked ?_
    rcases List.mem_cons.mp member with rfl | later
    · exact here
    · exact traceOf_keeps (perform crypto)
        (fun keyring => RevokedIn crypto (entries keyring principal) keyId)
        (fun _ call kept => perform_keeps_revoked call kept) rest here since later

/-- After a rotation back to the first key it has two entries, of which a revocation
takes the retired one: the revoked key stays the active one. -/
theorem revoked_key_stays_active :
    let calls := backAndForth ++ [.revoke sampleAlice "keyA" "2026-11-16T14:00:00Z"]
    let keyring := stateOf (perform sampleCrypto) ∅ calls
    (traceOf (perform sampleCrypto) ∅ calls).map Event.output = [.ok (), .ok (), .ok (), .ok ()] ∧
      sampleCrypto.keyId 0 = "keyA" ∧ get keyring sampleAlice = some 0 ∧
      activeKey keyring sampleAlice "2026-11-16T15:00:00Z" = .active 0 := by
  decide +kernel

end Famp.Keyring
