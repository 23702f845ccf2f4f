import Famp.Pairing.Status

/-!
# Revoking the pending invites after a theft

A code that someone else has used is no longer pending, so revoking all pending
invites leaves it redeemed, and a later `pair status` writes its key.  Only the keyring
can stop it: a key that some entry has already makes every run end before it.
-/

set_option autoImplicit false

namespace Famp.Pairing.Status

open Std Famp.Core Data Keyring

section Runs
variable {Key : Type} [DecidableEq Key] (crypto : KeyCrypto Key)

/-! ## Runs of the command -/

def statusRuns (store : InviteStore) (file : KeyringFile) : List (String × Bool) → InviteStore × KeyringFile
  | [] => (store, file)
  | (now, confirmed) :: rest =>
    let finished := runAt crypto store file now confirmed
    statusRuns finished.store finished.keyring rest

/-- The keyring in the file has an entry for the key of the principal. -/
def Listed (file : KeyringFile) (principal : ParsedPrincipal) (key : Key) : Prop :=
  ∃ keyring, loadOrNew crypto file = .ok keyring ∧ key ∈ keysOf keyring principal

/-- No key that was redeemed before the pending invites are revoked comes into the
keyring by later runs of `pair status`. -/
def KillSwitch (store : InviteStore) (file : KeyringFile) : Prop :=
  ∀ revokedAt runs, ∀ record ∈ store, ∀ principal key, redeemerOf crypto record = some (principal, key) →
    ¬Listed crypto file principal key →
      ¬Listed crypto (statusRuns crypto (InviteStore.revokeAllPending store revokedAt) file runs).2
        principal key

/-- The redeemed invites that can be read. -/
def requests (store : InviteStore) : List (ParsedPrincipal × Key) := store.filterMap (redeemerOf crypto)

/-- The key is the active one of its principal. -/
def isPinnedIn (keyring : Keyring Key) (request : ParsedPrincipal × Key) : Bool :=
  (entries keyring request.1).any fun entry => entry.isActive && entry.key == request.2

/-- The first request for a key that is not pinned yet, if there is one, is for a key
that some entry has. -/
def Stuck (keyring : Keyring Key) (list : List (ParsedPrincipal × Key)) : Prop :=
  ∀ request, list.find? (fun request => !isPinnedIn keyring request) = some request →
    ∃ other, request.2 ∈ keysOf keyring other

end Runs

variable {file : KeyringFile} {principal : ParsedPrincipal} {store : InviteStore}
  {record : InviteRecord}

section Facts
variable {Key : Type} [DecidableEq Key] {crypto : KeyCrypto Key} {now : String} {confirmed : Bool}

/-! ## Keyrings with the same entries -/

omit [DecidableEq Key] in
/-- Entries in another order. -/
def Same (keyring other : Keyring Key) : Prop :=
  ∀ principal, (entries keyring principal).Perm (entries other principal)

variable {keyring other : Keyring Key} {key : Key}

theorem Same.isPinnedIn_eq (same : Same keyring other) (request : ParsedPrincipal × Key) :
    isPinnedIn keyring request = isPinnedIn other request :=
  (same request.1).any_eq

omit [DecidableEq Key] in
theorem Same.mem_keysOf (same : Same keyring other) :
    key ∈ keysOf keyring principal ↔ key ∈ keysOf other principal :=
  ((same principal).map KeyEntry.key).mem_iff

theorem Same.stuck (same : Same keyring other) {list : List (ParsedPrincipal × Key)}
    (stuck : Stuck keyring list) : Stuck other list := by
  intro request found
  simp only [← same.isPinnedIn_eq] at found
  obtain ⟨principal, listed⟩ := stuck request found
  exact ⟨principal, same.mem_keysOf.mp listed⟩

/-! ## What one invite can change -/

theorem isPinnedIn_iff {request : ParsedPrincipal × Key} :
    isPinnedIn keyring request = true ↔
      ∃ entry ∈ entries keyring request.1, entry.isActive = true ∧ entry.key = request.2 := by
  simp [isPinnedIn]

theorem rotated_of_isPinnedIn {rotated : Keyring Key} (healthy : Healthy keyring)
    (already : isPinnedIn keyring (principal, key) = true)
    (rotation : Rotated keyring principal key now confirmed rotated) : rotated = keyring := by
  obtain ⟨entry, member, active, same⟩ := isPinnedIn_iff.mp already
  have found := find?_isActive_eq healthy member active
  cases rotation with
  | first unfound => rw [found] at unfound; cases unfound
  | already _ _ => rfl
  | changed found' different _ =>
    rw [found] at found'
    exact absurd (Option.some.inj found' ▸ same) different

theorem isPinnedIn_of_lapsed {rotated reloaded : Keyring Key} (healthy : Healthy keyring)
    {outcome : RotationOutcome}
    (done : rotateTo crypto keyring principal key now none confirmed = .ok (outcome, rotated))
    (again : Keyring.load crypto (save crypto rotated) = .ok reloaded)
    (inactive : ∀ active, activeKey reloaded principal now ≠ .active active) :
    isPinnedIn keyring (principal, key) = true := by
  obtain ⟨canonical, -, rotation⟩ := rotateTo_ok_iff.mp ⟨outcome, done⟩
  by_contra unpinned
  have added : pinnedEntry key now ∈ entries rotated principal := by
    cases rotation with
    | first _ => simp [entries_insert]
    | already found same =>
      exact absurd (isPinnedIn_iff.mpr ⟨_, List.mem_of_find?_eq_some found, List.find?_some found, same⟩) unpinned
    | changed _ _ _ => simp [entries_insert]
  refine inactive key ((activeKey_eq_active_iff (load_healthy crypto again).1).mpr ⟨canonical, _, ?_, live_pinnedEntry key now, rfl⟩)
  exact (reloaded_perm (rotateTo_healthy healthy done) again principal).mem_iff.mpr added

theorem fileAfter_of_isPinnedIn (redeemer : redeemerOf crypto record = some (principal, key))
    (loaded : loadOrNew crypto file = .ok keyring)
    (already : isPinnedIn keyring (principal, key) = true) :
    ∃ keyring', loadOrNew crypto (fileAfter crypto now confirmed file record) = .ok keyring' ∧
      Same keyring keyring' := by
  obtain ⟨healthy, -⟩ := loadOrNew_healthy loaded
  have ended : Tried crypto now confirmed file principal key _ := tried file principal key
  simp only [fileAfter, redeemer]
  generalize rotateToWithValidation crypto file principal key now confirmed = result at ended
  cases ended with
  | pinned loaded' back =>
    rw [loaded] at loaded'
    cases loaded'
    obtain ⟨⟨outcome, done⟩, again, -⟩ := back
    obtain rfl := rotated_of_isPinnedIn healthy already (rotateTo_ok_iff.mp ⟨outcome, done⟩).2.2
    exact ⟨_, again, fun other => (reloaded_perm healthy again other).symm⟩
  | _ => exact ⟨keyring, loaded, fun _ => .refl _⟩

theorem stops_of_listed {other : ParsedPrincipal}
    (redeemer : redeemerOf crypto record = some (principal, key))
    (loaded : loadOrNew crypto file = .ok keyring)
    (unpinned : isPinnedIn keyring (principal, key) = false) (listed : key ∈ keysOf keyring other) :
    stops crypto now confirmed (file, record) = true := by
  obtain ⟨healthy, distinct⟩ := loadOrNew_healthy loaded
  have ended : Tried crypto now confirmed file principal key _ := tried file principal key
  simp only [stops, redeemer]
  generalize rotateToWithValidation crypto file principal key now confirmed = result at ended
  cases ended with
  | pinned loaded' back =>
    rw [loaded] at loaded'
    cases loaded'
    obtain ⟨entry, member, same⟩ := List.mem_map.mp listed
    obtain ⟨rfl, live⟩ := (Takes.of_readsBack healthy distinct back).unused other entry member same
    rw [isPinnedIn_iff.mpr ⟨entry, member, live.active, same⟩] at unpinned
    cases unpinned
  | lapsed loaded' done again inactive =>
    rw [loaded] at loaded'
    cases loaded'
    rw [isPinnedIn_of_lapsed healthy done again inactive] at unpinned
    cases unpinned
  | _ => rfl

/-! ## The keyring takes no new key -/

omit [DecidableEq Key] in
theorem requests_cons (record : InviteRecord) (rest : InviteStore) :
    requests crypto (record :: rest) = (redeemerOf crypto record).toList ++ requests crypto rest := by
  unfold requests
  cases redeemer : redeemerOf crypto record with
  | none => rw [List.filterMap_cons_none redeemer]; rfl
  | some request => rw [List.filterMap_cons_some redeemer]; rfl

theorem pinAll_stuck (seen : Seen) (loaded : loadOrNew crypto file = .ok keyring)
    (stuck : Stuck keyring (requests crypto store)) :
    (∃ keyring', loadOrNew crypto (pinAll crypto now confirmed store file seen).2 = .ok keyring' ∧
        Same keyring keyring') ∧
      ((∃ request ∈ requests crypto store, isPinnedIn keyring request = false) →
        ∃ error, (pinAll crypto now confirmed store file seen).1 = .error error) := by
  induction store generalizing file keyring seen with
  | nil => exact ⟨⟨keyring, loaded, fun _ => .refl _⟩, fun ⟨_, member, _⟩ => by cases member⟩
  | cons record rest ih =>
    rw [requests_cons] at stuck ⊢
    cases stopped : stops crypto now confirmed (file, record) with
    | true =>
      obtain ⟨error, done⟩ := pinAll_cons_stops rest seen stopped
      rw [done]
      exact ⟨⟨keyring, loaded, fun _ => .refl _⟩, fun _ => ⟨error, rfl⟩⟩
    | false =>
      obtain ⟨middle, -, step⟩ := pinAll_cons_running rest seen stopped
      rw [step]
      cases redeemer : redeemerOf crypto record with
      | none =>
        rw [redeemer] at stuck
        have kept : fileAfter crypto now confirmed file record = file := by simp [fileAfter, redeemer]
        rw [kept]
        obtain ⟨same, errors⟩ := ih middle loaded stuck
        refine ⟨same, fun unpinned => ?_⟩
        obtain ⟨error, done⟩ := errors unpinned
        exact ⟨error, by rw [done]; rfl⟩
      | some request =>
        obtain ⟨principal, key⟩ := request
        rw [redeemer, Option.toList_some, List.singleton_append] at stuck
        rw [Option.toList_some, List.singleton_append]
        cases already : isPinnedIn keyring (principal, key) with
        | true =>
          obtain ⟨keyring', loaded', same⟩ := fileAfter_of_isPinnedIn redeemer loaded already
          have later : Stuck keyring (requests crypto rest) := fun request found =>
            stuck request (by rw [List.find?_cons_of_neg (by simp [already]), found])
          obtain ⟨⟨keyring'', loaded'', same'⟩, errors⟩ := ih middle loaded' (same.stuck later)
          refine ⟨⟨keyring'', loaded'', fun other => (same other).trans (same' other)⟩, ?_⟩
          rintro ⟨request, member, unpinned⟩
          have inside : request ∈ requests crypto rest := by
            rcases List.mem_cons.mp member with rfl | inside
            · rw [already] at unpinned
              cases unpinned
            · exact inside
          obtain ⟨error, done⟩ := errors ⟨request, inside, same.isPinnedIn_eq request ▸ unpinned⟩
          exact ⟨error, by rw [done]; rfl⟩
        | false =>
          obtain ⟨other, listed⟩ := stuck (principal, key) (List.find?_cons_of_pos (by simp [already]))
          rw [stops_of_listed redeemer loaded already listed] at stopped
          cases stopped

theorem requests_runAt_subset :
    requests crypto (runAt crypto store file now confirmed).store ⊆ requests crypto store := by
  by_cases stopped : ∃ visit ∈ visits crypto now confirmed file store, stops crypto now confirmed visit = true
  · rw [runAt_stops stopped]
    exact List.Subset.refl _
  · push Not at stopped
    rw [(runAt_running (by simpa using stopped)).1]
    intro request member
    obtain ⟨record, inside, redeemer⟩ := List.mem_filterMap.mp member
    obtain ⟨visit, here, rfl⟩ := List.mem_map.mp inside
    have unpinned : after crypto now confirmed visit = visit.2 := by
      unfold after at redeemer ⊢
      split
      next written =>
        rw [if_pos written] at redeemer
        cases redeemer
      next => rfl
    rw [unpinned] at redeemer
    refine List.mem_filterMap.mpr ⟨visit.2, ?_, redeemer⟩
    have listed := List.mem_map_of_mem (f := Prod.snd) here
    rwa [map_snd_visits] at listed

theorem Stuck.runAt (loaded : loadOrNew crypto file = .ok keyring)
    (stuck : Stuck keyring (requests crypto store)) :
    Stuck keyring (requests crypto (runAt crypto store file now confirmed).store) := by
  by_cases unpinned : ∃ request ∈ requests crypto store, isPinnedIn keyring request = false
  · obtain ⟨error, done⟩ := (pinAll_stuck ⟨false, false, false⟩ loaded stuck).2 unpinned
    rwa [runAt_of_error done]
  · push Not at unpinned
    intro request found
    have member := List.mem_of_find?_eq_some found
    have missing := List.find?_some found
    exact absurd (by simpa using missing) (unpinned request (requests_runAt_subset member))

theorem statusRuns_stuck (loaded : loadOrNew crypto file = .ok keyring)
    (stuck : Stuck keyring (requests crypto store)) (runs : List (String × Bool)) :
    ∃ keyring', loadOrNew crypto (statusRuns crypto store file runs).2 = .ok keyring' ∧
      Same keyring keyring' := by
  induction runs generalizing store file keyring with
  | nil => exact ⟨keyring, loaded, fun _ => .refl _⟩
  | cons run rest ih =>
    obtain ⟨now, confirmed⟩ := run
    obtain ⟨keyring', loaded', same⟩ : ∃ keyring',
        loadOrNew crypto (runAt crypto store file now confirmed).keyring = .ok keyring' ∧
          Same keyring keyring' := by
      rw [runAt_keyring]
      exact (pinAll_stuck _ loaded stuck).1
    obtain ⟨keyring'', loaded'', same'⟩ := ih loaded' (same.stuck (stuck.runAt loaded))
    exact ⟨keyring'', loaded'', fun other => (same other).trans (same' other)⟩

theorem statusRuns_unloaded {error : KeyringError} (unloaded : loadOrNew crypto file = .error error)
    (store : InviteStore) (runs : List (String × Bool)) :
    (statusRuns crypto store file runs).2 = file := by
  induction runs generalizing store with
  | nil => rfl
  | cons run rest ih =>
    obtain ⟨now, confirmed⟩ := run
    have kept : (runAt crypto store file now confirmed).keyring = file := by
      rw [runAt_keyring]
      refine pinAll_refused _ fun record _ => ?_
      simp only [accepts, unloaded]
    rw [statusRuns, kept]
    exact ih _

/-! ## A new key is taken -/

theorem Listed.fileAfter (listed : Listed crypto file principal key) (record : InviteRecord) :
    Listed crypto (fileAfter crypto now confirmed file record) principal key := by
  obtain ⟨keyring, loaded, member⟩ := listed
  obtain ⟨healthy, -⟩ := loadOrNew_healthy loaded
  unfold Status.fileAfter
  split
  next => exact ⟨keyring, loaded, member⟩
  next redeemer new _ =>
    have ended : Tried crypto now confirmed file redeemer new _ := tried file redeemer new
    generalize rotateToWithValidation crypto file redeemer new now confirmed = result at ended
    cases ended with
    | pinned loaded' back =>
      rw [loaded] at loaded'
      cases loaded'
      obtain ⟨⟨outcome, done⟩, again, -⟩ := back
      have kept := (rotateTo_ok_iff.mp ⟨outcome, done⟩).2.2.keys_subset principal member
      have same := (reloaded_perm (rotateTo_healthy healthy done) again principal).map KeyEntry.key
      exact ⟨_, again, same.mem_iff.mpr kept⟩
    | _ => exact ⟨keyring, loaded, member⟩

theorem Listed.pinAll (listed : Listed crypto file principal key) (seen : Seen) :
    Listed crypto (pinAll crypto now confirmed store file seen).2 principal key := by
  induction store generalizing file seen with
  | nil => exact listed
  | cons record rest ih =>
    cases stopped : stops crypto now confirmed (file, record) with
    | true =>
      obtain ⟨error, done⟩ := pinAll_cons_stops rest seen stopped
      rwa [done]
    | false =>
      obtain ⟨middle, -, step⟩ := pinAll_cons_running rest seen stopped
      rw [step]
      exact ih (listed.fileAfter record) middle

theorem running_of_isPinnedIn (redeemer : redeemerOf crypto record = some (principal, key))
    (loaded : loadOrNew crypto file = .ok keyring) (canonical : isCanonicalUtc now = true)
    (already : isPinnedIn keyring (principal, key) = true) :
    stops crypto now confirmed (file, record) = false := by
  obtain ⟨healthy, distinct⟩ := loadOrNew_healthy loaded
  obtain ⟨entry, member, active, same⟩ := isPinnedIn_iff.mp already
  have unrevoked := unrevoked_of_active distinct member active same
  obtain ⟨outcome, done⟩ : ∃ outcome,
      rotateTo crypto keyring principal key now none confirmed = .ok (outcome, keyring) :=
    rotateTo_ok_iff.mpr ⟨canonical, unrevoked, .already (find?_isActive_eq healthy member active) same⟩
  obtain ⟨reloaded, again, -, -⟩ : Reloads crypto keyring := (reloads_iff healthy).mpr distinct
  simp only [stops, redeemer, rotateToWithValidation, loaded, done, again]
  split <;> rfl

theorem pinAll_lists (seen : Seen) (canonical : isCanonicalUtc now = true)
    (loaded : loadOrNew crypto file = .ok keyring)
    (first : (requests crypto store).find? (fun request => !isPinnedIn keyring request) =
      some (principal, key)) (fresh : ∀ other, key ∉ keysOf keyring other) :
    Listed crypto (pinAll crypto now true store file seen).2 principal key := by
  induction store generalizing file keyring seen with
  | nil => cases first
  | cons record rest ih =>
    rw [requests_cons] at first
    cases redeemer : redeemerOf crypto record with
    | none =>
      have running : stops crypto now true (file, record) = false := by simp [stops, redeemer]
      obtain ⟨middle, -, step⟩ := pinAll_cons_running rest seen running
      have kept : fileAfter crypto now true file record = file := by simp [fileAfter, redeemer]
      rw [redeemer] at first
      rw [step, kept]
      exact ih middle loaded first fresh
    | some request =>
      rw [redeemer, Option.toList_some, List.singleton_append] at first
      cases already : isPinnedIn keyring request with
      | true =>
        have running : stops crypto now true (file, record) = false :=
          running_of_isPinnedIn redeemer loaded canonical already
        obtain ⟨middle, -, step⟩ := pinAll_cons_running rest seen running
        obtain ⟨keyring', loaded', same⟩ : ∃ keyring',
            loadOrNew crypto (fileAfter crypto now true file record) = .ok keyring' ∧
              Same keyring keyring' := fileAfter_of_isPinnedIn redeemer loaded already
        rw [List.find?_cons_of_neg (by simp [already])] at first
        simp only [same.isPinnedIn_eq] at first
        rw [step]
        exact ih middle loaded' first fun other listed => fresh other (same.mem_keysOf.mpr listed)
      | false =>
        rw [List.find?_cons_of_pos (by simp [already])] at first
        cases first
        have takes : Takes keyring principal key now true :=
          ⟨canonical, fun other entry member same =>
            absurd (List.mem_map.mpr ⟨entry, member, same⟩) (fresh other), fun _ _ _ _ => rfl⟩
        have written : pins crypto now true (file, record) = true :=
          (pins_eq_true_iff redeemer).mpr ⟨keyring, loaded, takes⟩
        obtain ⟨middle, -, step⟩ := pinAll_cons_running rest seen (stops_of_pins written)
        rw [step]
        refine Listed.pinAll ?_ middle
        obtain ⟨keyring', loaded', active⟩ := (hasActive_fileAfter redeemer written).1
        obtain ⟨-, entry, member, -, same⟩ :=
          (activeKey_eq_active_iff (loadOrNew_healthy loaded').1).mp active
        exact ⟨keyring', loaded', List.mem_map.mpr ⟨entry, member, same⟩⟩

/-! ## The kill switch -/

omit [DecidableEq Key] in
theorem requests_revokeAllPending (store : InviteStore) (now : String) :
    requests crypto (InviteStore.revokeAllPending store now) = requests crypto store := by
  unfold requests InviteStore.revokeAllPending
  rw [List.filterMap_map]
  refine List.filterMap_congr fun record _ => ?_
  rw [Function.comp_apply]
  split
  next pending =>
    have unredeemed : ¬record.state.isRedeemed = true := by
      cases state : record.state <;> simp [state, InviteState.isPending, InviteState.isRedeemed] at pending ⊢
    rw [redeemerOf_of_unredeemed unredeemed]
    rfl
  next => rfl

/-- Revoking all pending invites keeps redeemed keys out of the keyring exactly when the
keyring file does not load, or the first redeemed key that is not its principal's
active one, if there is such a key, has an entry already. -/
theorem killSwitch_iff (crypto : KeyCrypto Key) (store : InviteStore) (file : KeyringFile) :
    KillSwitch crypto store file ↔
      ∀ keyring, loadOrNew crypto file = .ok keyring → Stuck keyring (requests crypto store) := by
  constructor
  · rintro works keyring loaded ⟨principal, key⟩ first
    by_contra fresh
    push Not at fresh
    have member := List.mem_of_find?_eq_some first
    obtain ⟨record, inside, redeemer⟩ := List.mem_filterMap.mp member
    have unlisted : ¬Listed crypto file principal key := by
      rintro ⟨keyring', loaded', listed⟩
      rw [loaded] at loaded'
      exact fresh principal (Except.ok.inj loaded' ▸ listed)
    refine works "2026-11-16T12:00:00Z" [("2026-11-16T12:00:00Z", true)] record inside principal key
      redeemer unlisted ?_
    simp only [statusRuns]
    rw [runAt_keyring]
    refine pinAll_lists _ (by decide +kernel) loaded ?_ fresh
    rw [requests_revokeAllPending]
    exact first
  · intro stuck revokedAt runs record inside principal key redeemer unlisted listed
    cases loaded : loadOrNew crypto file with
    | error error => exact unlisted (statusRuns_unloaded loaded _ runs ▸ listed)
    | ok keyring =>
      have stuck := stuck keyring loaded
      rw [← requests_revokeAllPending store revokedAt] at stuck
      obtain ⟨keyring', loaded', same⟩ := statusRuns_stuck loaded stuck runs
      obtain ⟨keyring'', loaded'', member⟩ := listed
      rw [loaded'] at loaded''
      cases loaded''
      exact unlisted ⟨keyring, loaded, same.mem_keysOf.mpr member⟩

end Facts

/-- The code of the invite was used by someone else, the pending invites are revoked,
and the next `pair status` takes the key of the thief. -/
theorem stolen_invite_is_pinned :
    ¬KillSwitch sampleCrypto [redeemedBy "inv-1" "agent:peer.example/bob" "keyC"] none := by
  intro works
  have redeemer : redeemerOf sampleCrypto (redeemedBy "inv-1" "agent:peer.example/bob" "keyC") =
      some (sampleBob, 2) := by decide +kernel
  have empty : ∀ principal, keysOf (∅ : Keyring (Fin 3)) principal = [] := fun _ => rfl
  refine works "2026-11-16T11:00:00Z" [("2026-11-16T12:00:00Z", true)] _ List.mem_cons_self sampleBob 2
    redeemer ?_ ?_
  · rintro ⟨keyring, loaded, listed⟩
    cases loaded
    cases listed
  · simp only [statusRuns]
    rw [runAt_keyring]
    refine pinAll_lists _ (by decide +kernel) rfl ?_ fun other listed => ?_
    · decide +kernel
    · rw [empty] at listed
      cases listed

end Famp.Pairing.Status
