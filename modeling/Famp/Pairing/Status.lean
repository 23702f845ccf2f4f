import Famp.Keyring.Pinning
import Famp.Pairing.Invite

/-!
# `pair status` and the keyring file

The redeemed invites are gone through in order.  The key of each is written to the
keyring file at once, and the store is saved after the last.  An invite that cannot be
read, or whose key does not verify in the new file, is passed over; an error of the
keyring ends the command, with the store as it was.
-/

set_option autoImplicit false

namespace Famp.Pairing

def InviteState.isPinned : InviteState → Bool
  | pinned _ => true
  | _ => false

end Famp.Pairing

namespace Famp.Pairing.Status

open Std Famp.Core Data Keyring

/-- The text of the keyring file, if there is one. -/
abbrev KeyringFile := Option (List Char)

inductive CliError where
  | load (error : KeyringError)
  | rotate (error : KeyringError)
  | reload (error : KeyringError)
  | exit (code : Nat)
  deriving DecidableEq

inductive PinOutcome where
  | pinned
  | failed
  deriving DecidableEq, Repr

/-- What the loop of the command remembers. -/
structure Seen where
  anyPinned : Bool
  pinFailed : Bool
  anyRedeemedSeen : Bool
  deriving DecidableEq, Repr

def Seen.add (seen : Seen) : PinOutcome → Seen
  | .pinned => { seen with anyPinned := true, anyRedeemedSeen := true }
  | .failed => { seen with pinFailed := true, anyRedeemedSeen := true }

/-- How the command ends, and what it leaves in the two files. -/
structure Finished where
  /-- Whether it says that nothing is redeemed yet. -/
  result : Except CliError Bool
  store : InviteStore
  keyring : KeyringFile

section Command
variable {Key : Type} [DecidableEq Key] (crypto : KeyCrypto Key)

/-! ## The keyring file -/

def loadOrNew : KeyringFile → Except KeyringError (Keyring Key)
  | none => .ok ∅
  | some text => Keyring.load crypto text

def isActiveOutcome : KeyLookupOutcome Key → Bool
  | .active _ => true
  | _ => false

/-- The new file takes the place of the old one only where it loads again and the
principal has an active key in it. -/
def rotateToWithValidation (file : KeyringFile) (principal : ParsedPrincipal) (key : Key) (now : String)
    (confirmed : Bool) : Except CliError (Bool × KeyringFile) :=
  match loadOrNew crypto file with
  | .error error => .error (.load error)
  | .ok keyring =>
    match rotateTo crypto keyring principal key now none confirmed with
    | .error error => .error (.rotate error)
    | .ok (_, rotated) =>
      let text := save crypto rotated
      match Keyring.load crypto text with
      | .error error => .error (.reload error)
      | .ok reloaded =>
        if isActiveOutcome (activeKey reloaded principal now) then .ok (true, some text)
        else .ok (false, file)

/-! ## The command -/

/-- The principal and the key of a redeemed invite, where both can be read. -/
def redeemerOf (record : InviteRecord) : Option (ParsedPrincipal × Key) :=
  match record.state with
  | .redeemed redeemer _ pubkeyB64url _ =>
    match ParsedPrincipal.fromStr redeemer, crypto.fromB64url pubkeyB64url with
    | some principal, some key => some (principal, key)
    | _, _ => none
  | _ => none

def pinned (now : String) (record : InviteRecord) : InviteRecord := { record with state := .pinned now }

def pinRedeemedRecord (now : String) (confirmed : Bool) (file : KeyringFile) (record : InviteRecord) :
    Except CliError (PinOutcome × InviteRecord × KeyringFile) :=
  match redeemerOf crypto record with
  | none => .ok (.failed, record, file)
  | some (principal, key) =>
    match rotateToWithValidation crypto file principal key now confirmed with
    | .error error => .error error
    | .ok (true, file) => .ok (.pinned, pinned now record, file)
    | .ok (false, file) => .ok (.failed, record, file)

/-- The loop over the records; an error leaves it with the keyring file as it is then. -/
def pinAll (now : String) (confirmed : Bool) :
    InviteStore → KeyringFile → Seen → Except CliError (InviteStore × Seen) × KeyringFile
  | [], file, seen => (.ok ([], seen), file)
  | record :: rest, file, seen =>
    if record.state.isRedeemed then
      match pinRedeemedRecord crypto now confirmed file record with
      | .error error => (.error error, file)
      | .ok (outcome, record, file) =>
        let (result, file) := pinAll now confirmed rest file (seen.add outcome)
        (result.map fun (done, seen) => (record :: done, seen), file)
    else
      let (result, file) := pinAll now confirmed rest file seen
      (result.map fun (done, seen) => (record :: done, seen), file)

def runAt (store : InviteStore) (file : KeyringFile) (now : String) (confirmed : Bool) : Finished :=
  match pinAll crypto now confirmed store file ⟨false, false, false⟩ with
  | (.error error, file) => ⟨.error error, store, file⟩
  | (.ok (done, seen), file) =>
    ⟨if seen.pinFailed then .error (.exit 1) else .ok !seen.anyRedeemedSeen,
      if seen.anyPinned then done else store, file⟩

/-! ## One invite at a time -/

/-- The keyring file after one invite, when its errors concern no other. -/
def fileAfter (now : String) (confirmed : Bool) (file : KeyringFile) (record : InviteRecord) : KeyringFile :=
  match redeemerOf crypto record with
  | none => file
  | some (principal, key) =>
    match rotateToWithValidation crypto file principal key now confirmed with
    | .error _ => file
    | .ok (_, file) => file

/-- Each record with the keyring file as left by the invites before it. -/
def visits (now : String) (confirmed : Bool) : KeyringFile → InviteStore → List (KeyringFile × InviteRecord)
  | _, [] => []
  | file, record :: rest =>
    (file, record) :: visits now confirmed (fileAfter crypto now confirmed file record) rest

/-- The key of the invite is accepted against the keyring. -/
def accepts (now : String) (confirmed : Bool) (visit : KeyringFile × InviteRecord) : Bool :=
  match loadOrNew crypto visit.1, redeemerOf crypto visit.2 with
  | .ok keyring, some (principal, key) =>
    (rotateTo crypto keyring principal key now none confirmed).isOk
  | _, _ => false

/-- The keyring in the file has the key active. -/
def HasActive (file : KeyringFile) (principal : ParsedPrincipal) (key : Key) (now : String) : Prop :=
  ∃ keyring, loadOrNew crypto file = .ok keyring ∧ activeKey keyring principal now = .active key

/-- What is left in the two files, when each invite is handled on its own. -/
structure HandledAlone (now : String) (confirmed : Bool) (store : InviteStore) (file : KeyringFile)
    (finished : Finished) : Prop where
  recorded : finished.store = (visits crypto now confirmed file store).map fun visit =>
    if accepts crypto now confirmed visit then pinned now visit.2 else visit.2
  active : ∀ visit ∈ visits crypto now confirmed file store, accepts crypto now confirmed visit = true →
    ∀ principal key, redeemerOf crypto visit.2 = some (principal, key) →
      HasActive crypto finished.keyring principal key now
  written : ∀ pair ∈ store.zip finished.store, pair.1.state.isRedeemed = true →
    (pair.2.state.isPinned = true ↔ ∃ principal key,
      redeemerOf crypto pair.1 = some (principal, key) ∧ HasActive crypto finished.keyring principal key now)

end Command

variable {file : KeyringFile} {record : InviteRecord} {store : InviteStore}
  {principal : ParsedPrincipal} {visit : KeyringFile × InviteRecord}

section Facts
variable {Key : Type} [DecidableEq Key] {crypto : KeyCrypto Key} {now : String} {confirmed : Bool}

/-! ## What a write to the keyring file does -/

theorem loadOrNew_healthy {keyring : Keyring Key} (loaded : loadOrNew crypto file = .ok keyring) :
    Healthy keyring ∧ Keyring.Distinct keyring := by
  cases file with
  | none =>
    cases loaded
    exact IsInitial.healthy crypto (.inl rfl)
  | some text => exact load_healthy crypto loaded

/-- How a write ends. -/
inductive Tried (crypto : KeyCrypto Key) (now : String) (confirmed : Bool) (file : KeyringFile)
    (principal : ParsedPrincipal) (key : Key) : Except CliError (Bool × KeyringFile) → Prop where
  | unloaded {error : KeyringError} : loadOrNew crypto file = .error error →
      Tried crypto now confirmed file principal key (.error (.load error))
  | refused {keyring : Keyring Key} {error : KeyringError} : loadOrNew crypto file = .ok keyring →
      rotateTo crypto keyring principal key now none confirmed = .error error →
      Tried crypto now confirmed file principal key (.error (.rotate error))
  | unreadable {keyring rotated : Keyring Key} {outcome : RotationOutcome} {error : KeyringError} :
      loadOrNew crypto file = .ok keyring →
      rotateTo crypto keyring principal key now none confirmed = .ok (outcome, rotated) →
      Keyring.load crypto (save crypto rotated) = .error error →
      Tried crypto now confirmed file principal key (.error (.reload error))
  | pinned {keyring rotated reloaded : Keyring Key} : loadOrNew crypto file = .ok keyring →
      ReadsBack crypto keyring rotated reloaded principal key now confirmed →
      Tried crypto now confirmed file principal key (.ok (true, some (save crypto rotated)))
  | lapsed {keyring rotated reloaded : Keyring Key} {outcome : RotationOutcome} :
      loadOrNew crypto file = .ok keyring →
      rotateTo crypto keyring principal key now none confirmed = .ok (outcome, rotated) →
      Keyring.load crypto (save crypto rotated) = .ok reloaded →
      (∀ active, activeKey reloaded principal now ≠ .active active) →
      Tried crypto now confirmed file principal key (.ok (false, file))

theorem tried (file : KeyringFile) (principal : ParsedPrincipal) (key : Key) :
    Tried crypto now confirmed file principal key
      (rotateToWithValidation crypto file principal key now confirmed) := by
  unfold rotateToWithValidation
  split
  next error unloaded => exact .unloaded unloaded
  next keyring loaded =>
    split
    next error refused => exact .refused loaded refused
    next outcome rotated done =>
      simp only
      split
      next error unread => exact .unreadable loaded done unread
      next reloaded again =>
        split
        next isActive =>
          refine .pinned loaded ⟨⟨outcome, done⟩, again, ?_⟩
          cases found : activeKey reloaded principal now with
          | active key => exact ⟨key, rfl⟩
          | _ => rw [found] at isActive; cases isActive
        next inactive =>
          refine .lapsed loaded done again fun active found => inactive ?_
          rw [found]
          rfl

variable {key : Key}

theorem rotateToWithValidation_eq {keyring rotated reloaded : Keyring Key}
    (loaded : loadOrNew crypto file = .ok keyring)
    (back : ReadsBack crypto keyring rotated reloaded principal key now confirmed) :
    rotateToWithValidation crypto file principal key now confirmed =
      .ok (true, some (save crypto rotated)) := by
  obtain ⟨⟨outcome, done⟩, again, active, found⟩ := back
  simp only [rotateToWithValidation, loaded, done, again, found]
  rfl

theorem rotateToWithValidation_true_iff :
    (∃ file', rotateToWithValidation crypto file principal key now confirmed = .ok (true, file')) ↔
      ∃ keyring, loadOrNew crypto file = .ok keyring ∧ Takes keyring principal key now confirmed := by
  constructor
  · rintro ⟨file', written⟩
    have ended : Tried crypto now confirmed file principal key _ := tried file principal key
    rw [written] at ended
    cases ended with
    | @pinned keyring rotated reloaded loaded back =>
      obtain ⟨healthy, distinct⟩ := loadOrNew_healthy loaded
      exact ⟨keyring, loaded, .of_readsBack healthy distinct back⟩
  · rintro ⟨keyring, loaded, takes⟩
    obtain ⟨healthy, distinct⟩ := loadOrNew_healthy loaded
    obtain ⟨rotated, reloaded, back⟩ : ∃ rotated reloaded,
        ReadsBack crypto keyring rotated reloaded principal key now confirmed :=
      takes.readsBack healthy distinct
    exact ⟨_, rotateToWithValidation_eq loaded back⟩

theorem accepts_of_hasActive (redeemer : redeemerOf crypto record = some (principal, key))
    (active : HasActive crypto file principal key now) :
    accepts crypto now confirmed (file, record) = true := by
  obtain ⟨keyring, loaded, found⟩ := active
  obtain ⟨healthy, distinct⟩ := loadOrNew_healthy loaded
  obtain ⟨canonical, entry, member, live, same⟩ := (activeKey_eq_active_iff healthy).mp found
  have unrevoked := unrevoked_of_active distinct member live.active same
  have first := find?_isActive_eq healthy member live.active
  obtain ⟨outcome, done⟩ : ∃ outcome,
      rotateTo crypto keyring principal key now none confirmed = .ok (outcome, keyring) :=
    rotateTo_ok_iff.mpr ⟨canonical, unrevoked, .already first same⟩
  simp only [accepts, loaded, redeemer, done]
  rfl

/-! ## One record -/

/-- The invite makes the keyring return an error. -/
def stops (crypto : KeyCrypto Key) (now : String) (confirmed : Bool)
    (visit : KeyringFile × InviteRecord) : Bool :=
  match redeemerOf crypto visit.2 with
  | none => false
  | some (principal, key) => !(rotateToWithValidation crypto visit.1 principal key now confirmed).isOk

/-- The key of the invite is written to the keyring file. -/
def pins (crypto : KeyCrypto Key) (now : String) (confirmed : Bool)
    (visit : KeyringFile × InviteRecord) : Bool :=
  match redeemerOf crypto visit.2 with
  | none => false
  | some (principal, key) =>
    match rotateToWithValidation crypto visit.1 principal key now confirmed with
    | .ok (true, _) => true
    | _ => false

def after (crypto : KeyCrypto Key) (now : String) (confirmed : Bool)
    (visit : KeyringFile × InviteRecord) : InviteRecord :=
  if pins crypto now confirmed visit then pinned now visit.2 else visit.2

omit [DecidableEq Key] in
theorem isRedeemed_of_redeemerOf {redeemer : ParsedPrincipal × Key}
    (found : redeemerOf crypto record = some redeemer) : record.state.isRedeemed = true := by
  unfold redeemerOf at found
  split at found
  next state => rw [state]; rfl
  next => cases found

omit [DecidableEq Key] in
theorem pinned_ne {redeemer : ParsedPrincipal × Key}
    (found : redeemerOf crypto record = some redeemer) : pinned now record ≠ record := by
  intro same
  have redeemed := isRedeemed_of_redeemerOf found
  rw [← same] at redeemed
  cases redeemed

theorem pins_eq_true_iff (redeemer : redeemerOf crypto visit.2 = some (principal, key)) :
    pins crypto now confirmed visit = true ↔
      ∃ keyring, loadOrNew crypto visit.1 = .ok keyring ∧ Takes keyring principal key now confirmed := by
  rw [← rotateToWithValidation_true_iff]
  simp only [pins, redeemer]
  split
  next file' written => exact iff_of_true rfl ⟨file', written⟩
  next unwritten =>
    simp only [Bool.false_eq_true, false_iff, not_exists]
    exact unwritten

theorem accepts_of_running (redeemer : redeemerOf crypto visit.2 = some (principal, key))
    (running : stops crypto now confirmed visit = false) :
    accepts crypto now confirmed visit = true := by
  simp only [stops, redeemer, Bool.not_eq_eq_eq_not, Bool.not_false] at running
  have ended : Tried crypto now confirmed visit.1 principal key _ := tried visit.1 principal key
  generalize rotateToWithValidation crypto visit.1 principal key now confirmed = result at ended running
  cases ended with
  | unloaded _ => cases running
  | refused _ _ => cases running
  | unreadable _ _ _ => cases running
  | pinned loaded back =>
    obtain ⟨⟨outcome, done⟩, -⟩ := back
    simp only [accepts, loaded, redeemer, done]
    rfl
  | lapsed loaded done _ _ =>
    simp only [accepts, loaded, redeemer, done]
    rfl

theorem redeemerOf_of_pins (written : pins crypto now confirmed visit = true) :
    ∃ principal key, redeemerOf crypto visit.2 = some (principal, key) := by
  unfold pins at written
  split at written
  next => cases written
  next principal key redeemer => exact ⟨principal, key, redeemer⟩

theorem stops_of_pins (written : pins crypto now confirmed visit = true) :
    stops crypto now confirmed visit = false := by
  obtain ⟨principal, key, redeemer⟩ := redeemerOf_of_pins written
  simp only [pins, redeemer] at written
  split at written
  next file' done => simp [stops, redeemer, done, Except.isOk, Except.toBool]
  next => cases written

theorem accepts_of_pins (written : pins crypto now confirmed visit = true) :
    accepts crypto now confirmed visit = true := by
  obtain ⟨principal, key, redeemer⟩ := redeemerOf_of_pins written
  exact accepts_of_running redeemer (stops_of_pins written)

theorem redeemerOf_of_accepts (accepted : accepts crypto now confirmed visit = true) :
    ∃ principal key, redeemerOf crypto visit.2 = some (principal, key) := by
  unfold accepts at accepted
  split at accepted
  next principal key _ redeemer => exact ⟨principal, key, redeemer⟩
  next => cases accepted

theorem fileAfter_of_not_accepts (refused : accepts crypto now confirmed (file, record) = false) :
    fileAfter crypto now confirmed file record = file := by
  unfold fileAfter
  split
  next => rfl
  next principal key redeemer =>
    split
    next => rfl
    next flag file' done =>
      have running : stops crypto now confirmed (file, record) = false := by
        simp [stops, redeemer, done, Except.isOk, Except.toBool]
      rw [accepts_of_running redeemer running] at refused
      cases refused

theorem pinRedeemedRecord_stops (stopped : stops crypto now confirmed (file, record) = true) :
    ∃ error, pinRedeemedRecord crypto now confirmed file record = .error error := by
  unfold stops at stopped
  split at stopped
  next => cases stopped
  next principal key redeemer =>
    cases done : rotateToWithValidation crypto file principal key now confirmed with
    | ok result => simp [done, Except.isOk, Except.toBool] at stopped
    | error error => exact ⟨error, by simp only [pinRedeemedRecord, redeemer, done]⟩

theorem pinRedeemedRecord_running (running : stops crypto now confirmed (file, record) = false) :
    pinRedeemedRecord crypto now confirmed file record =
      .ok (if pins crypto now confirmed (file, record) then .pinned else .failed,
        after crypto now confirmed (file, record), fileAfter crypto now confirmed file record) := by
  unfold after
  cases redeemer : redeemerOf crypto record with
  | none => simp [pinRedeemedRecord, pins, fileAfter, redeemer]
  | some request =>
    obtain ⟨principal, key⟩ := request
    cases done : rotateToWithValidation crypto file principal key now confirmed with
    | error error => simp [stops, redeemer, done, Except.isOk, Except.toBool] at running
    | ok result =>
      obtain ⟨flag, file'⟩ := result
      cases flag <;> simp [pinRedeemedRecord, pins, fileAfter, redeemer, done]

/-! ## The loop -/

theorem map_snd_visits (crypto : KeyCrypto Key) (now : String) (confirmed : Bool) (file : KeyringFile)
    (store : InviteStore) : (visits crypto now confirmed file store).map Prod.snd = store := by
  induction store generalizing file with
  | nil => rfl
  | cons record rest ih => rw [visits, List.map_cons, ih]

theorem zip_visits (file : KeyringFile) (store : InviteStore)
    (outcome : KeyringFile × InviteRecord → InviteRecord) :
    store.zip ((visits crypto now confirmed file store).map outcome) =
      (visits crypto now confirmed file store).map fun visit => (visit.2, outcome visit) := by
  have zipped : ((visits crypto now confirmed file store).map Prod.snd).zip
      ((visits crypto now confirmed file store).map outcome) = _ := List.zip_map'
  rwa [map_snd_visits] at zipped

omit [DecidableEq Key] in
theorem isPinned_of_redeemed (redeemed : record.state.isRedeemed = true) :
    record.state.isPinned = false := by
  cases state : record.state with
  | redeemed _ _ _ _ => rfl
  | _ => simp [state, InviteState.isRedeemed] at redeemed

omit [DecidableEq Key] in
theorem redeemerOf_of_unredeemed (unredeemed : ¬record.state.isRedeemed = true) :
    redeemerOf crypto record = none := by
  cases found : redeemerOf crypto record with
  | none => rfl
  | some redeemer => exact absurd (isRedeemed_of_redeemerOf found) unredeemed

theorem pinAll_cons_running (rest : InviteStore) (seen : Seen)
    (running : stops crypto now confirmed (file, record) = false) :
    ∃ seen', seen'.anyPinned = (seen.anyPinned || pins crypto now confirmed (file, record)) ∧
      pinAll crypto now confirmed (record :: rest) file seen =
        ((pinAll crypto now confirmed rest (fileAfter crypto now confirmed file record) seen').1.map
            fun (done, seen) => (after crypto now confirmed (file, record) :: done, seen),
          (pinAll crypto now confirmed rest (fileAfter crypto now confirmed file record) seen').2) := by
  simp only [pinAll]
  split
  next =>
    rw [pinRedeemedRecord_running running]
    refine ⟨_, ?_, rfl⟩
    cases pins crypto now confirmed (file, record) <;> simp [Seen.add]
  next unredeemed =>
    have nobody : redeemerOf crypto record = none := redeemerOf_of_unredeemed unredeemed
    exact ⟨seen, by simp [pins, nobody], by simp [fileAfter, after, pins, nobody]⟩

theorem pinAll_cons_stops (rest : InviteStore) (seen : Seen)
    (stopped : stops crypto now confirmed (file, record) = true) :
    ∃ error, pinAll crypto now confirmed (record :: rest) file seen = (.error error, file) := by
  have redeemed : record.state.isRedeemed = true := by
    by_contra unredeemed
    simp [stops, redeemerOf_of_unredeemed unredeemed] at stopped
  obtain ⟨error, done⟩ := pinRedeemedRecord_stops stopped
  exact ⟨error, by simp only [pinAll, redeemed, if_true, done]⟩

theorem pinAll_running (seen : Seen)
    (running : ∀ visit ∈ visits crypto now confirmed file store, stops crypto now confirmed visit = false) :
    ∃ seen', pinAll crypto now confirmed store file seen =
        (.ok ((visits crypto now confirmed file store).map (after crypto now confirmed), seen'),
          store.foldl (fileAfter crypto now confirmed) file) ∧
      seen'.anyPinned = (seen.anyPinned ||
        (visits crypto now confirmed file store).any (pins crypto now confirmed)) := by
  induction store generalizing file seen with
  | nil => exact ⟨seen, rfl, (Bool.or_false _).symm⟩
  | cons record rest ih =>
    simp only [visits, List.forall_mem_cons] at running
    obtain ⟨here, later⟩ := running
    obtain ⟨middle, flag, step⟩ := pinAll_cons_running rest seen here
    obtain ⟨seen', done, flags⟩ := ih middle later
    refine ⟨seen', ?_, ?_⟩
    · rw [step, done]
      rfl
    · rw [flags, flag, visits, List.any_cons, Bool.or_assoc]

theorem pinAll_stops (seen : Seen)
    (stopped : ∃ visit ∈ visits crypto now confirmed file store, stops crypto now confirmed visit = true) :
    ∃ error, (pinAll crypto now confirmed store file seen).1 = .error error := by
  induction store generalizing file seen with
  | nil =>
    obtain ⟨visit, member, -⟩ := stopped
    cases member
  | cons record rest ih =>
    cases here : stops crypto now confirmed (file, record) with
    | true =>
      obtain ⟨error, done⟩ := pinAll_cons_stops rest seen here
      exact ⟨error, by rw [done]⟩
    | false =>
      have later : ∃ visit ∈ visits crypto now confirmed (fileAfter crypto now confirmed file record) rest,
          stops crypto now confirmed visit = true := by
        obtain ⟨visit, member, true'⟩ := stopped
        rcases List.mem_cons.mp member with rfl | member
        · rw [here] at true'
          cases true'
        · exact ⟨visit, member, true'⟩
      obtain ⟨middle, -, step⟩ := pinAll_cons_running rest seen here
      obtain ⟨error, done⟩ := ih middle later
      exact ⟨error, by rw [step, done]; rfl⟩

theorem map_after_of_not_pins
    (unwritten : ∀ visit ∈ visits crypto now confirmed file store, pins crypto now confirmed visit = false) :
    (visits crypto now confirmed file store).map (after crypto now confirmed) = store := by
  have same : (visits crypto now confirmed file store).map (after crypto now confirmed) =
      (visits crypto now confirmed file store).map Prod.snd := by
    refine List.map_congr_left fun visit member => ?_
    rw [after, unwritten visit member]
    rfl
  rw [same, map_snd_visits]

theorem runAt_running
    (running : ∀ visit ∈ visits crypto now confirmed file store, stops crypto now confirmed visit = false) :
    (runAt crypto store file now confirmed).store =
        (visits crypto now confirmed file store).map (after crypto now confirmed) ∧
      (runAt crypto store file now confirmed).keyring =
        store.foldl (fileAfter crypto now confirmed) file := by
  obtain ⟨seen, done, flags⟩ := pinAll_running ⟨false, false, false⟩ running
  rw [Bool.false_or] at flags
  simp only [runAt, done, and_true]
  split
  next => rfl
  next none =>
    rw [map_after_of_not_pins]
    intro visit member
    by_contra written
    exact none (flags.trans (List.any_eq_true.mpr ⟨visit, member, by simpa using written⟩))

theorem runAt_of_error {error : CliError}
    (done : (pinAll crypto now confirmed store file ⟨false, false, false⟩).1 = .error error) :
    (runAt crypto store file now confirmed).store = store := by
  unfold runAt
  split
  next => rfl
  next ended =>
    rw [ended] at done
    cases done

theorem runAt_stops
    (stopped : ∃ visit ∈ visits crypto now confirmed file store, stops crypto now confirmed visit = true) :
    (runAt crypto store file now confirmed).store = store := by
  obtain ⟨error, done⟩ := pinAll_stops ⟨false, false, false⟩ stopped
  exact runAt_of_error done

/-- Where no invite is accepted, every record is visited with the file as it was, and
the command leaves it so. -/
theorem pinAll_refused (seen : Seen)
    (refused : ∀ record ∈ store, accepts crypto now confirmed (file, record) = false) :
    (pinAll crypto now confirmed store file seen).2 = file := by
  induction store generalizing seen with
  | nil => rfl
  | cons record rest ih =>
    obtain ⟨here, later⟩ := List.forall_mem_cons.mp refused
    cases stopped : stops crypto now confirmed (file, record) with
    | true =>
      obtain ⟨error, done⟩ := pinAll_cons_stops rest seen stopped
      rw [done]
    | false =>
      obtain ⟨middle, -, step⟩ := pinAll_cons_running rest seen stopped
      rw [step, fileAfter_of_not_accepts here]
      exact ih middle later

theorem visits_of_refused
    (refused : ∀ visit ∈ visits crypto now confirmed file store, accepts crypto now confirmed visit = false) :
    visits crypto now confirmed file store = store.map fun record => (file, record) := by
  induction store with
  | nil => rfl
  | cons record rest ih =>
    simp only [visits, List.forall_mem_cons] at refused
    obtain ⟨here, later⟩ := refused
    rw [fileAfter_of_not_accepts here] at later
    rw [visits, fileAfter_of_not_accepts here, ih later, List.map_cons]

theorem runAt_keyring (store : InviteStore) (file : KeyringFile) :
    (runAt crypto store file now confirmed).keyring =
      (pinAll crypto now confirmed store file ⟨false, false, false⟩).2 := by
  unfold runAt
  split
  next ended => rw [ended]
  next ended => rw [ended]

theorem runAt_refused
    (refused : ∀ visit ∈ visits crypto now confirmed file store, accepts crypto now confirmed visit = false) :
    (runAt crypto store file now confirmed).store = store ∧
      (runAt crypto store file now confirmed).keyring = file := by
  have unwritten : ∀ visit ∈ visits crypto now confirmed file store,
      pins crypto now confirmed visit = false := by
    intro visit member
    by_contra written
    have accepted := accepts_of_pins (by simpa using written)
    rw [refused visit member] at accepted
    cases accepted
  constructor
  · by_cases stopped : ∃ visit ∈ visits crypto now confirmed file store, stops crypto now confirmed visit = true
    · exact runAt_stops stopped
    · push Not at stopped
      rw [(runAt_running (by simpa using stopped)).1, map_after_of_not_pins unwritten]
  · rw [runAt_keyring]
    refine pinAll_refused _ fun record member => ?_
    rw [visits_of_refused refused, List.forall_mem_map] at refused
    exact refused record member

/-! ## Keys stay active -/

theorem hasActive_fileAfter (redeemer : redeemerOf crypto record = some (principal, key))
    (written : pins crypto now confirmed (file, record) = true) :
    HasActive crypto (fileAfter crypto now confirmed file record) principal key now ∧
      ∀ other active, principal ≠ other → HasActive crypto file other active now →
        HasActive crypto (fileAfter crypto now confirmed file record) other active now := by
  obtain ⟨keyring, loaded, takes⟩ := (pins_eq_true_iff redeemer).mp written
  obtain ⟨healthy, distinct⟩ := loadOrNew_healthy loaded
  obtain ⟨rotated, reloaded, back⟩ : ∃ rotated reloaded,
      ReadsBack crypto keyring rotated reloaded principal key now confirmed :=
    takes.readsBack healthy distinct
  have after : fileAfter crypto now confirmed file record = some (save crypto rotated) := by
    simp only [fileAfter, redeemer, rotateToWithValidation_eq loaded back]
  have loaded' : loadOrNew crypto (fileAfter crypto now confirmed file record) = .ok reloaded := by
    rw [after]
    exact back.2.1
  refine ⟨⟨reloaded, loaded', back.active_key healthy⟩, fun other active different found => ?_⟩
  obtain ⟨keyring', loaded'', found⟩ := found
  rw [loaded] at loaded''
  cases loaded''
  exact ⟨reloaded, loaded', (back.elsewhere healthy different).mpr found⟩

/-- All redeemed invites that can be read are written, and no two of one principal have
different keys. -/
structure AllWritten (crypto : KeyCrypto Key) (now : String) (confirmed : Bool) (file : KeyringFile)
    (store : InviteStore) : Prop where
  written : ∀ visit ∈ visits crypto now confirmed file store, ∀ principal key,
    redeemerOf crypto visit.2 = some (principal, key) →
      ∃ keyring, loadOrNew crypto visit.1 = .ok keyring ∧ Takes keyring principal key now confirmed
  oneKey : ∀ record ∈ store, ∀ record' ∈ store, ∀ principal key key',
    redeemerOf crypto record = some (principal, key) →
      redeemerOf crypto record' = some (principal, key') → key = key'

theorem AllWritten.tail {rest : InviteStore}
    (all : AllWritten crypto now confirmed file (record :: rest)) :
    AllWritten crypto now confirmed (fileAfter crypto now confirmed file record) rest :=
  ⟨(List.forall_mem_cons.mp all.written).2, fun a first b second =>
    all.oneKey a (List.mem_cons_of_mem _ first) b (List.mem_cons_of_mem _ second)⟩

theorem AllWritten.pins_head {rest : InviteStore}
    (all : AllWritten crypto now confirmed file (record :: rest))
    (redeemer : redeemerOf crypto record = some (principal, key)) :
    pins crypto now confirmed (file, record) = true :=
  (pins_eq_true_iff redeemer).mpr (all.written _ List.mem_cons_self principal key redeemer)

theorem AllWritten.keeps (all : AllWritten crypto now confirmed file store)
    (active : HasActive crypto file principal key now)
    (only : ∀ record ∈ store, ∀ other, redeemerOf crypto record = some (principal, other) →
      other = key) :
    HasActive crypto (store.foldl (fileAfter crypto now confirmed) file) principal key now := by
  induction store generalizing file with
  | nil => exact active
  | cons record rest ih =>
    obtain ⟨here, later⟩ := List.forall_mem_cons.mp only
    refine ih all.tail ?_ later
    cases redeemer : redeemerOf crypto record with
    | none => simpa [fileAfter, redeemer] using active
    | some request =>
      obtain ⟨other, key'⟩ := request
      obtain ⟨new, old⟩ := hasActive_fileAfter redeemer (all.pins_head redeemer)
      by_cases same : other = principal
      · subst same
        exact here key' redeemer ▸ new
      · exact old principal key same active

theorem AllWritten.hasActive (all : AllWritten crypto now confirmed file store)
    (member : record ∈ store) (redeemer : redeemerOf crypto record = some (principal, key)) :
    HasActive crypto (store.foldl (fileAfter crypto now confirmed) file) principal key now := by
  induction store generalizing file with
  | nil => cases member
  | cons first rest ih =>
    rcases List.mem_cons.mp member with rfl | later
    · have active := (hasActive_fileAfter redeemer (all.pins_head redeemer)).1
      refine all.tail.keeps active fun record' member' other redeemer' => ?_
      exact all.oneKey record' (List.mem_cons_of_mem _ member') record List.mem_cons_self principal other key
        redeemer' redeemer
    · exact ih all.tail later

/-! ## Each invite on its own -/

theorem expected_eq (same : pins crypto now confirmed visit = accepts crypto now confirmed visit) :
    (if accepts crypto now confirmed visit then pinned now visit.2 else visit.2) =
      after crypto now confirmed visit := by
  rw [after, same]

theorem handledAlone_of_refused
    (refused : ∀ visit ∈ visits crypto now confirmed file store, accepts crypto now confirmed visit = false) :
    HandledAlone crypto now confirmed store file (runAt crypto store file now confirmed) := by
  obtain ⟨kept, keyring⟩ := runAt_refused refused
  refine ⟨?_, fun visit member accepted => ?_, fun pair member redeemed => ?_⟩
  · have same : (visits crypto now confirmed file store).map
        (fun visit => if accepts crypto now confirmed visit then pinned now visit.2 else visit.2) =
        (visits crypto now confirmed file store).map Prod.snd := by
      refine List.map_congr_left fun visit member => ?_
      simp [refused visit member]
    rw [kept, same, map_snd_visits]
  · rw [refused visit member] at accepted
    cases accepted
  · have unchanged : (runAt crypto store file now confirmed).store =
        (visits crypto now confirmed file store).map Prod.snd := by rw [kept, map_snd_visits]
    rw [unchanged, zip_visits] at member
    obtain ⟨visit, here, rfl⟩ := List.mem_map.mp member
    refine iff_of_false (by simp [isPinned_of_redeemed redeemed]) ?_
    rintro ⟨principal, key, redeemer, active⟩
    -- A key that the file has active would have been accepted.
    have first : visit.1 = file := by
      rw [visits_of_refused refused] at here
      obtain ⟨record, -, rfl⟩ := List.mem_map.mp here
      rfl
    rw [keyring, ← first] at active
    have accepted : accepts crypto now confirmed visit = true := accepts_of_hasActive redeemer active
    rw [refused visit here] at accepted
    cases accepted

theorem handledAlone_of_allWritten (all : AllWritten crypto now confirmed file store) :
    HandledAlone crypto now confirmed store file (runAt crypto store file now confirmed) := by
  have written : ∀ visit ∈ visits crypto now confirmed file store, ∀ principal key,
      redeemerOf crypto visit.2 = some (principal, key) → pins crypto now confirmed visit = true :=
    fun visit member principal key redeemer =>
      (pins_eq_true_iff redeemer).mpr (all.written visit member principal key redeemer)
  have running : ∀ visit ∈ visits crypto now confirmed file store, stops crypto now confirmed visit = false := by
    intro visit member
    cases redeemer : redeemerOf crypto visit.2 with
    | none => simp [stops, redeemer]
    | some request => exact stops_of_pins (written visit member request.1 request.2 redeemer)
  have same : ∀ visit ∈ visits crypto now confirmed file store,
      pins crypto now confirmed visit = accepts crypto now confirmed visit := by
    intro visit member
    cases redeemer : redeemerOf crypto visit.2 with
    | none =>
      have unread : accepts crypto now confirmed visit = false := by
        by_contra accepted
        obtain ⟨principal, key, found⟩ := redeemerOf_of_accepts (by simpa using accepted)
        rw [redeemer] at found
        cases found
      simp [pins, redeemer, unread]
    | some request =>
      have here := written visit member request.1 request.2 redeemer
      rw [here, accepts_of_pins here]
  obtain ⟨saved, keyring⟩ := runAt_running running
  have inside : ∀ visit ∈ visits crypto now confirmed file store, visit.2 ∈ store := by
    intro visit member
    have listed := List.mem_map_of_mem (f := Prod.snd) member
    rwa [map_snd_visits] at listed
  refine ⟨?_, fun visit member _ principal key redeemer => ?_, fun pair member redeemed => ?_⟩
  · rw [saved]
    exact List.map_congr_left fun visit member => (expected_eq (same visit member)).symm
  · rw [keyring]
    exact all.hasActive (inside visit member) redeemer
  · rw [saved, zip_visits] at member
    obtain ⟨visit, here, rfl⟩ := List.mem_map.mp member
    rw [keyring]
    constructor
    · intro isPinned
      have here' : pins crypto now confirmed visit = true := by
        by_contra unwritten
        simp only [after, unwritten, if_false, isPinned_of_redeemed redeemed, Bool.false_eq_true] at isPinned
      obtain ⟨principal, key, redeemer⟩ := redeemerOf_of_pins here'
      exact ⟨principal, key, redeemer, all.hasActive (inside visit here) redeemer⟩
    · rintro ⟨principal, key, redeemer, -⟩
      simp only [after, written visit here principal key redeemer, if_true]
      rfl

theorem allWritten_of_handledAlone
    (handled : HandledAlone crypto now confirmed store file (runAt crypto store file now confirmed))
    (member : visit ∈ visits crypto now confirmed file store)
    (accepted : accepts crypto now confirmed visit = true) :
    AllWritten crypto now confirmed file store := by
  -- A pinned record is in the saved store, so the loop was not left early.
  have running : ∀ visit ∈ visits crypto now confirmed file store,
      stops crypto now confirmed visit = false := by
    by_contra stopped
    push Not at stopped
    have recorded := handled.recorded
    rw [runAt_stops (by simpa using stopped)] at recorded
    conv_lhs at recorded => rw [← map_snd_visits crypto now confirmed file store]
    have unchanged := List.map_inj_left.mp recorded visit member
    obtain ⟨principal, key, redeemer⟩ := redeemerOf_of_accepts accepted
    rw [if_pos accepted] at unchanged
    exact pinned_ne redeemer unchanged.symm
  have taken : ∀ visit ∈ visits crypto now confirmed file store, ∀ principal key,
      redeemerOf crypto visit.2 = some (principal, key) → accepts crypto now confirmed visit = true :=
    fun visit member principal key redeemer => accepts_of_running redeemer (running visit member)
  have recorded := handled.recorded
  rw [(runAt_running running).1] at recorded
  refine ⟨fun visit member principal key redeemer => ?_, ?_⟩
  · refine (pins_eq_true_iff redeemer).mp ?_
    by_contra unwritten
    have same := List.map_inj_left.mp recorded visit member
    rw [if_pos (taken visit member principal key redeemer), after, if_neg unwritten] at same
    exact pinned_ne redeemer same.symm
  · intro record inside record' inside' principal key key' redeemer redeemer'
    rw [← map_snd_visits crypto now confirmed file store] at inside inside'
    obtain ⟨first, here, rfl⟩ := List.mem_map.mp inside
    obtain ⟨second, here', rfl⟩ := List.mem_map.mp inside'
    obtain ⟨keyring, loaded, active⟩ := handled.active first here
      (taken first here principal key redeemer) principal key redeemer
    obtain ⟨keyring', loaded', active'⟩ := handled.active second here'
      (taken second here' principal key' redeemer') principal key' redeemer'
    rw [loaded] at loaded'
    cases loaded'
    exact KeyLookupOutcome.active.inj (active.symm.trans active')

/-- The invites are handled each on its own exactly when none is accepted, or all that
can be read are written and no two of them bring different keys of one principal. -/
theorem runAt_handles_alone_iff (crypto : KeyCrypto Key) (store : InviteStore) (file : KeyringFile)
    (now : String) (confirmed : Bool) :
    HandledAlone crypto now confirmed store file (runAt crypto store file now confirmed) ↔
      (∀ visit ∈ visits crypto now confirmed file store, accepts crypto now confirmed visit = false) ∨
        AllWritten crypto now confirmed file store := by
  constructor
  · intro handled
    by_cases refused : ∀ visit ∈ visits crypto now confirmed file store,
        accepts crypto now confirmed visit = false
    · exact .inl refused
    · push Not at refused
      obtain ⟨visit, member, accepted⟩ := refused
      exact .inr (allWritten_of_handledAlone handled member (by simpa using accepted))
  · rintro (refused | all)
    · exact handledAlone_of_refused refused
    · exact handledAlone_of_allWritten all

end Facts

/-! ## A change of key before another invite -/

def redeemedBy (id redeemer key : String) : InviteRecord :=
  ⟨id, "agent:home.example/me", "", "2026-11-16T09:00:00Z", "2026-11-17T09:00:00Z", 0,
    .redeemed redeemer key key "2026-11-16T10:00:00Z"⟩

def changeFirst : InviteStore :=
  [redeemedBy "inv-1" "agent:peer.example/bob" "keyC", redeemedBy "inv-2" "agent:peer.example/alice" "keyA"]

/-- The second invite is accepted and not pinned: the first has another key pinned, the
change is not confirmed, and the command ends there. -/
theorem changeFirst_stops_the_other :
    ¬HandledAlone sampleCrypto "2026-11-16T12:00:00Z" false changeFirst
      (some "agent:peer.example/bob keyB\n".toList)
      (runAt sampleCrypto changeFirst (some "agent:peer.example/bob keyB\n".toList)
        "2026-11-16T12:00:00Z" false) := by
  intro handled
  have recorded := handled.recorded
  revert recorded
  decide +kernel

end Famp.Pairing.Status
