import Famp.Keyring.Finality

/-!
# Who can revoke

A signed revocation changes the keyring only under a signature of the principal's
active key or of the revoked key itself, and it changes one entry.  It takes the first
entry with the key id, so the key stays active where its active entry is another one.
-/

set_option autoImplicit false

namespace Famp.Keyring

open Std Famp.Core Data

theorem modifyFirst_split {α : Type} {test : α → Bool} {list : List α} {first : α}
    (change : α → α) (found : list.find? test = some first) :
    ∃ before after, list = before ++ first :: after ∧
      modifyFirst test change list = before ++ change first :: after := by
  induction list with
  | nil => cases found
  | cons x rest ih =>
    unfold modifyFirst
    by_cases passes : test x = true
    · rw [List.find?_cons_of_pos passes] at found
      cases found
      exact ⟨[], rest, rfl, if_pos passes⟩
    · rw [List.find?_cons_of_neg passes] at found
      obtain ⟨before, after, split, changed⟩ := ih found
      refine ⟨x :: before, after, by rw [split, List.cons_append], ?_⟩
      rw [if_neg passes, changed, List.cons_append]

variable {principal : ParsedPrincipal} {signed : SignedRevocation} {now : String}

section Authority
variable {Key : Type} {crypto : KeyCrypto Key}

/-! ## The signature -/

/-- A key that may sign for the revocation of this key id has signed the statement. -/
def SignedFor (crypto : KeyCrypto Key) (keyring : Keyring Key) (signed : SignedRevocation)
    (principal : ParsedPrincipal) : Prop :=
  ∃ key ∈ authorizedSignerFor crypto keyring principal signed.statement.revokedKeyId,
    crypto.verifyStatement key signed.statement signed.sig = true

theorem mem_authorizedSignerFor {keyring : Keyring Key} {revokedKeyId : String} {key : Key} :
    key ∈ authorizedSignerFor crypto keyring principal revokedKeyId ↔
      ∃ entry ∈ entries keyring principal, entry.key = key ∧ entry.state ≠ .revoked ∧
        (entry.state = .active ∨ crypto.keyId entry.key = revokedKeyId) := by
  simp only [authorizedSignerFor, List.mem_map, List.mem_filter, Bool.and_eq_true, bne_iff_ne,
    Bool.or_eq_true, beq_iff_eq]
  constructor
  · rintro ⟨entry, ⟨member, state, may⟩, same⟩
    exact ⟨entry, member, same, state, may⟩
  · rintro ⟨entry, member, same, state, may⟩
    exact ⟨entry, ⟨member, state, may⟩, same⟩

theorem checkSignature_ok_iff {keyring : Keyring Key} :
    checkSignature crypto keyring signed principal = .ok () ↔
      SignedFor crypto keyring signed principal := by
  unfold checkSignature SignedFor
  cases authorizedSignerFor crypto keyring principal signed.statement.revokedKeyId with
  | nil => simp
  | cons key rest =>
    rw [← List.any_eq_true]
    dsimp only
    split
    · rename_i verified
      exact ⟨fun _ => verified, fun _ => rfl⟩
    · rename_i refused
      exact ⟨nofun, fun verified => absurd verified refused⟩

/-- What `applySignedRevocation` checks before it revokes, for the principal that the
statement names. -/
structure Accepts (crypto : KeyCrypto Key) (keyring : Keyring Key) (signed : SignedRevocation)
    (now : String) (principal : ParsedPrincipal) : Prop where
  canonical : isCanonicalUtc now = true
  dated : isCanonicalUtc signed.statement.revokedAt = true
  named : ParsedPrincipal.fromStr signed.statement.principal = some principal
  pinned : ∃ entry ∈ entries keyring principal,
    hasId crypto signed.statement.revokedKeyId entry = true
  signed : SignedFor crypto keyring signed principal

theorem applySignedRevocation_eq {keyring : Keyring Key}
    (accepts : Accepts crypto keyring signed now principal) :
    applySignedRevocation crypto keyring signed now =
      revoke crypto keyring principal signed.statement.revokedKeyId signed.statement.revokedAt := by
  obtain ⟨canonical, dated, named, pinned, verified⟩ := accepts
  have present := List.any_eq_true.mpr pinned
  simp [applySignedRevocation, canonical, dated, named, present, checkSignature_ok_iff.mpr verified]

theorem accepts_of_ok {keyring changed : Keyring Key}
    (done : applySignedRevocation crypto keyring signed now = .ok changed) :
    ∃ principal, Accepts crypto keyring signed now principal := by
  obtain ⟨canonical, dated, principal, named, present, verified, -⟩ := applySignedRevocation_ok done
  exact ⟨principal, canonical, dated, named, List.any_eq_true.mp present,
    checkSignature_ok_iff.mp verified⟩

theorem revoke_of_accepts {keyring : Keyring Key}
    (accepts : Accepts crypto keyring signed now principal) :
    ∃ entry, (entries keyring principal).find? (hasId crypto signed.statement.revokedKeyId) =
        some entry ∧
      applySignedRevocation crypto keyring signed now =
        .ok (if entry.state = .revoked then keyring
          else keyring.insert principal (modifyFirst (hasId crypto signed.statement.revokedKeyId)
            (·.inState .revoked signed.statement.revokedAt) (entries keyring principal))) := by
  rw [applySignedRevocation_eq accepts]
  obtain ⟨entry, member, same⟩ := accepts.pinned
  cases found : (entries keyring principal).find? (hasId crypto signed.statement.revokedKeyId) with
  | none => exact absurd same (List.find?_eq_none.mp found entry member)
  | some first =>
    refine ⟨first, rfl, ?_⟩
    simp only [revoke, accepts.dated, found, Bool.not_true, Bool.false_eq_true, if_false]
    split <;> rfl

/-! ## What a signed revocation does -/

structure RevokedByAuthority (crypto : KeyCrypto Key) (keyring : Keyring Key)
    (signed : SignedRevocation) (result : Except KeyringError Unit × Keyring Key) : Prop where
  /-- A change is signed by the active or by the revoked key and is to one entry. -/
  changed : result.2 ≠ keyring → ∃ principal,
    ParsedPrincipal.fromStr signed.statement.principal = some principal ∧
    (∃ signer ∈ entries keyring principal,
      crypto.verifyStatement signer.key signed.statement signed.sig = true ∧
      signer.state ≠ .revoked ∧
      (signer.state = .active ∨ crypto.keyId signer.key = signed.statement.revokedKeyId)) ∧
    (∃ before entry after, entries keyring principal = before ++ entry :: after ∧
      crypto.keyId entry.key = signed.statement.revokedKeyId ∧
      (entry.state = .active ∨ entry.state = .retired) ∧
      entries result.2 principal =
        before ++ entry.inState .revoked signed.statement.revokedAt :: after) ∧
    ∀ other, principal ≠ other → entries result.2 other = entries keyring other
  failed : result.1 ≠ .ok () → result.2 = keyring
  inactive : result.1 = .ok () → ∀ principal,
    ParsedPrincipal.fromStr signed.statement.principal = some principal →
      ∀ entry ∈ entries result.2 principal,
        crypto.keyId entry.key = signed.statement.revokedKeyId → entry.state ≠ .active

def SpareActive (crypto : KeyCrypto Key) (keyring : Keyring Key) (signed : SignedRevocation)
    (now : String) : Prop :=
  ∃ principal, Accepts crypto keyring signed now principal ∧
    ∃ entry ∈ (entries keyring principal).eraseP (hasId crypto signed.statement.revokedKeyId),
      hasId crypto signed.statement.revokedKeyId entry = true ∧ entry.state = .active

theorem changed_of_accepts {keyring changed : Keyring Key}
    (accepts : Accepts crypto keyring signed now principal)
    (done : applySignedRevocation crypto keyring signed now = .ok changed)
    (different : changed ≠ keyring) :
    (∃ before entry after, entries keyring principal = before ++ entry :: after ∧
      crypto.keyId entry.key = signed.statement.revokedKeyId ∧
      (entry.state = .active ∨ entry.state = .retired) ∧
      entries changed principal =
        before ++ entry.inState .revoked signed.statement.revokedAt :: after) ∧
    ∀ other, principal ≠ other → entries changed other = entries keyring other := by
  obtain ⟨entry, found, revoked⟩ := revoke_of_accepts accepts
  have same := Except.ok.inj (done.symm.trans revoked)
  split at same
  · exact absurd same different
  · rename_i state
    obtain ⟨before, after, split, modified⟩ := modifyFirst_split
      (·.inState .revoked signed.statement.revokedAt) found
    have marked : hasId crypto signed.statement.revokedKeyId entry = true := List.find?_some found
    refine ⟨⟨before, entry, after, split, by simpa [hasId] using marked, ?_, ?_⟩, ?_⟩
    · cases known : entry.state with
      | active => exact Or.inl rfl
      | retired => exact Or.inr rfl
      | revoked => exact absurd known state
    · rw [same, entries_insert, if_pos rfl, modified]
    · intro other apart
      rw [same, entries_insert, if_neg apart]

/-- A signed revocation does what it should exactly when its key has no active entry
behind another one. -/
theorem signed_revocation_authorized_iff [DecidableEq Key] (crypto : KeyCrypto Key)
    (keyring : Keyring Key) (signed : SignedRevocation) (now : String) :
    RevokedByAuthority crypto keyring signed
        (perform crypto keyring (.applySignedRevocation signed now)) ↔
      ¬SpareActive crypto keyring signed now := by
  cases done : applySignedRevocation crypto keyring signed now with
  | error error =>
    have result : perform crypto keyring (.applySignedRevocation signed now) =
        (.error error, keyring) := by
      simp only [perform, outcome, done]
    rw [result]
    constructor
    · rintro - ⟨principal, accepts, -⟩
      obtain ⟨entry, -, revoked⟩ := revoke_of_accepts accepts
      rw [done] at revoked
      cases revoked
    · intro _
      exact ⟨fun different => absurd rfl different, fun _ => rfl, fun failed => by cases failed⟩
  | ok changed =>
    have result : perform crypto keyring (.applySignedRevocation signed now) = (.ok (), changed) := by
      simp only [perform, outcome, done]
    rw [result]
    obtain ⟨principal, accepts⟩ := accepts_of_ok done
    have revoked := done
    rw [applySignedRevocation_eq accepts] at revoked
    obtain ⟨first, -, state, members⟩ := revoke_entries revoked
    constructor
    · rintro held ⟨principal', accepts', entry, member, marked, active⟩
      obtain rfl := Option.some.inj (accepts.named.symm.trans accepts'.named)
      exact held.inactive rfl principal accepts.named entry ((members entry).mpr (.inl member))
        (by simpa [hasId] using marked) active
    · intro spare
      refine ⟨fun different => ?_, fun failed => absurd rfl failed, ?_⟩
      · obtain ⟨one, others⟩ := changed_of_accepts accepts done different
        obtain ⟨key, may, verified⟩ := accepts.signed
        obtain ⟨signer, pinned, rfl, unrevoked, entitled⟩ := mem_authorizedSignerFor.mp may
        exact ⟨principal, accepts.named, ⟨signer, pinned, verified, unrevoked, entitled⟩, one, others⟩
      · intro _ principal' named entry member same active
        obtain rfl := Option.some.inj (accepts.named.symm.trans named)
        rcases (members entry).mp member with kept | rfl
        · exact spare ⟨principal, accepts, entry, kept, by simpa [hasId] using same, active⟩
        · rw [state] at active
          cases active

end Authority

/-! ## A statement about a key with two entries -/

def namedSignatures : KeyCrypto (Fin 3) :=
  { sampleCrypto with verifyStatement := fun key _ sig => sig == sampleText key }

def aliceRevocation : SignedRevocation :=
  ⟨⟨"agent:peer.example/alice", "keyA", "2026-11-16T14:00:00Z", none⟩, "keyA"⟩

/-- The active key revokes itself, and stays active. -/
theorem signed_revocation_leaves_active :
    let keyring := stateOf (perform namedSignatures) ∅ backAndForth
    let result := perform namedSignatures keyring
      (.applySignedRevocation aliceRevocation "2026-11-16T15:00:00Z")
    (traceOf (perform namedSignatures) ∅ backAndForth).map Event.output = [.ok (), .ok (), .ok ()] ∧
      result.1 = .ok () ∧ namedSignatures.keyId 0 = aliceRevocation.statement.revokedKeyId ∧
      get result.2 sampleAlice = some 0 ∧
      ¬RevokedByAuthority namedSignatures keyring aliceRevocation result := by
  intro keyring result
  have named : ParsedPrincipal.fromStr aliceRevocation.statement.principal = some sampleAlice := by
    decide +kernel
  have active : ∃ entry ∈ entries result.2 sampleAlice,
      namedSignatures.keyId entry.key = aliceRevocation.statement.revokedKeyId ∧
        entry.state = .active := by
    decide +kernel
  have accepted : result.1 = .ok () := by decide +kernel
  refine ⟨by decide +kernel, accepted, by decide +kernel, by decide +kernel, fun held => ?_⟩
  obtain ⟨entry, member, same, state⟩ := active
  exact held.inactive accepted sampleAlice named entry member same state

end Famp.Keyring
