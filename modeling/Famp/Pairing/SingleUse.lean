import Famp.Pairing.Redeem
import Famp.Json.Plain

/-!
# Invites are used once

Under every interleaving of redemptions and commands, each invite moves on through its
life and never back, one redemption of it at most succeeds, and it succeeds within the
budget of wrong guesses.
-/

set_option autoImplicit false

namespace Famp.Pairing

open Std Famp.Core Json Data

/-! ## The life of an invite -/

/-- What a step may do to the state of an invite. -/
inductive Life : InviteState → InviteState → Prop
  | stay (state : InviteState) : Life state state
  | redeem (redeemer keyId pubkeyB64url now : String) :
      Life .pending (.redeemed redeemer keyId pubkeyB64url now)
  | pin (redeemer keyId pubkeyB64url since now : String) :
      Life (.redeemed redeemer keyId pubkeyB64url since) (.pinned now)
  | revoke (state : InviteState) (now : String) : Life state (.revoked now)

/-- A wrong guess at this time counts against the record. -/
def InviteRecord.isLive (record : InviteRecord) (now : String) : Bool :=
  record.state.isPending && !record.isExpired now

/-- What a step does to a record; `guess` is the time of the wrong guess that it is. -/
structure Moved (guess : Option String) (record record' : InviteRecord) : Prop where
  same : record' = { record with attempts := record'.attempts, state := record'.state }
  life : Life record.state record'.state
  attempts : record'.attempts =
    if guess.any record.isLive then (record.attempts + 1) % 2 ^ 32 else record.attempts

variable {store store' : InviteStore} {record record' invite : InviteRecord} {now id : String}
  {guess : Option String} {state : InviteState} {env : FileEnv} {digest : Bytes}
  {reason : RejectReason} {outcome : Outcome}

theorem Moved.id_eq (moved : Moved guess record record') : record'.id = record.id := by
  rw [moved.same]

theorem Moved.expiresAt_eq (moved : Moved guess record record') :
    record'.expiresAt = record.expiresAt := by
  rw [moved.same]

theorem Moved.refl (record : InviteRecord) : Moved none record record :=
  ⟨rfl, .stay _, rfl⟩

theorem Moved.of_life (life : Life record.state state) : Moved none record { record with state } :=
  ⟨rfl, life, rfl⟩

theorem Moved.burned (now : String) (record : InviteRecord) :
    Moved (some now) record (InviteStore.burned now record) := by
  unfold InviteStore.burned
  split
  · rename_i live
    exact ⟨rfl, .stay _, by simp [InviteRecord.isLive, live]⟩
  · rename_i still
    exact ⟨rfl, .stay _, by simp [InviteRecord.isLive, still]⟩

/-! ## What the operations do to the records -/

theorem moved_map {change : InviteRecord → InviteRecord}
    (moved : ∀ record, Moved guess record (change record)) (store : InviteStore) :
    List.Forall₂ (Moved guess) store (store.map change) := by
  induction store with
  | nil => exact .nil
  | cons record rest ih => exact .cons (moved record) ih

theorem moved_same (store : InviteStore) : List.Forall₂ (Moved none) store store :=
  List.forall₂_same.mpr fun record _ => .refl record

theorem moved_setState : ∀ {store : InviteStore},
    (∀ record, store.find? (fun record => record.id == id) = some record →
      Life record.state state) →
      List.Forall₂ (Moved none) store (InviteStore.setState id state store)
  | [], _ => .nil
  | record :: rest, life => by
    unfold InviteStore.setState
    split
    · rename_i here
      refine .cons (.of_life (life record ?_)) (moved_same rest)
      rw [List.find?_cons_of_pos (by simpa using here)]
    · rename_i elsewhere
      refine .cons (.refl record) (moved_setState fun other found => life other ?_)
      rw [List.find?_cons_of_neg (by simpa using elsewhere)]
      exact found

theorem mem_setState :
    ∀ {store : InviteStore}, store.find? (fun record => record.id == id) = some record →
      { record with state } ∈ InviteStore.setState id state store
  | [], found => by cases found
  | first :: rest, found => by
    unfold InviteStore.setState
    by_cases here : first.id = id
    · rw [List.find?_cons_of_pos (by simpa using here)] at found
      cases found
      rw [if_pos here]
      exact List.mem_cons_self ..
    · rw [List.find?_cons_of_neg (by simpa using here)] at found
      rw [if_neg here]
      exact List.mem_cons_of_mem _ (mem_setState found)

variable {changed : InviteStore} {request : RedemptionRequest} {holds : InviteState → Prop}
  {response : Signed RedemptionResponse} {state' : InviteState}

section Operations
variable {Key : Type} {config : PairingConfig Key}

theorem moved_runAt [DecidableEq Key] (crypto : Keyring.KeyCrypto Key) (store : InviteStore)
    (keyring : Status.KeyringFile) (now : String) (confirmed : Bool) :
    List.Forall₂ (Moved none) store (Status.runAt crypto store keyring now confirmed).store := by
  have after : ∀ visit, Moved none visit.2 (Status.after crypto now confirmed visit) := by
    intro visit
    unfold Status.after
    split
    next written =>
      obtain ⟨principal, key, found⟩ := Status.redeemerOf_of_pins written
      refine .of_life ?_
      unfold Status.redeemerOf at found
      split at found
      next state => rw [state]; exact .pin ..
      next => cases found
    next => exact .refl _
  by_cases stopped : ∃ visit ∈ Status.visits crypto now confirmed keyring store,
      Status.stops crypto now confirmed visit = true
  · rw [Status.runAt_stops stopped]
    exact moved_same store
  · push Not at stopped
    rw [(Status.runAt_running (by simpa using stopped)).1]
    conv => arg 2; rw [← Status.map_snd_visits crypto now confirmed keyring store]
    rw [List.forall₂_map_left_iff, List.forall₂_map_right_iff]
    exact List.forall₂_same.mpr fun visit _ => after visit

theorem moved_revokeTarget {target : RevokeTarget}
    (revoked : revokeTarget store now target = some changed) :
    List.Forall₂ (Moved none) store changed := by
  cases target with
  | one id =>
    simp only [revokeTarget, InviteStore.revoke] at revoked
    split at revoked
    · cases revoked
    · cases revoked
      exact moved_setState fun record _ => .revoke record.state now
  | allPending =>
    cases revoked
    refine moved_map (fun record => ?_) store
    split
    · exact .of_life (.revoke record.state now)
    · exact .refl record

/-! ## Accepted codes -/

theorem mem_of_matched (matched : store.matched digest = some record) : record ∈ store := by
  have scanned : ∀ (records : List InviteRecord) (found : Option InviteRecord),
      records.foldl (fun found record =>
        if InviteStore.hasDigest digest record then some record else found) found = some record →
        found = some record ∨ record ∈ records := by
    intro records
    induction records with
    | nil => exact fun found same => Or.inl same
    | cons first rest ih =>
      intro found same
      rcases ih _ same with here | later
      · dsimp only at here
        split at here
        · cases here
          exact Or.inr (List.mem_cons_self ..)
        · exact Or.inl here
      · exact Or.inr (List.mem_cons_of_mem _ later)
  rcases scanned _ none matched with none | among
  · cases none
  · exact (List.mem_filter.mp among).1

theorem decide_accept (accepted : store.decide digest now = .accept id) :
    ∃ record ∈ store, record.id = id ∧ record.state = .pending ∧ record.isExpired now = false ∧
      record.attempts < maxAttempts := by
  unfold InviteStore.decide at accepted
  split at accepted
  · cases accepted
  · split at accepted
    · rename_i record matched
      split at accepted
      · cases accepted
      · cases accepted
      · cases accepted
      · rename_i state
        split at accepted
        · cases accepted
        · rename_i unexpired
          split at accepted
          · cases accepted
          · rename_i budget
            cases accepted
            exact ⟨record, mem_of_matched matched, rfl, state, by simpa using unexpired,
              Nat.lt_of_not_le budget⟩
    · dsimp only at accepted
      split at accepted
      · cases accepted
      · split at accepted
        · cases accepted
        · split at accepted <;> cases accepted

/-- The ids of the invites are distinct. -/
def Distinct (store : InviteStore) : Prop := (store.map InviteRecord.id).Nodup

theorem Distinct.eq (distinct : Distinct store) {other : InviteRecord} (member : record ∈ store)
    (member' : other ∈ store) (same : record.id = other.id) : record = other :=
  List.inj_on_of_nodup_map distinct member member' same

variable {system system' : PairingSystem Key}
  {event : Event (PairingSystem Key) (Action Key) Outcome} {key : Key} {actions : List (Action Key)}

theorem acceptAndConsume_ok {consumed : InviteStore}
    (done : acceptAndConsume config store request key digest now = .ok (invite, consumed)) :
    store.decide digest now = .accept invite.id ∧
      store.find? (fun record => record.id == invite.id) = some invite ∧ invite.state = .pending ∧
      consumed = InviteStore.setState invite.id (.redeemed request.principal
        (config.crypto.keyId key) request.pubkeyB64url now) store := by
  unfold acceptAndConsume at done
  split at done
  · cases done
  · cases done
  · cases done
  · cases done
  · cases done
  · rename_i id accepted
    split at done
    · cases done
    · rename_i found known
      have same : found.id = id := by simpa using List.find?_some known
      subst same
      simp only [InviteStore.consume, known] at done
      cases state : found.state with
      | pending =>
        simp only [state, InviteState.isPending, if_true] at done
        cases done
        exact ⟨accepted, known, state, rfl⟩
      | _ => simp [state, InviteState.isPending] at done

theorem acceptAndConsume_error
    (failed : acceptAndConsume config store request key digest now = .error reason) :
    reason ≠ .codeMismatch := by
  rintro rfl
  unfold acceptAndConsume at failed
  split at failed
  · cases failed
  · cases failed
  · cases failed
  · cases failed
  · cases failed
  · split at failed
    · cases failed
    · split at failed <;> cases failed

theorem respondTo_error (failed : respondTo config env invite key now = .error reason) :
    reason = .internalError := by
  unfold respondTo at failed
  split at failed
  · exact (Except.error.inj failed).symm
  · dsimp only at failed
    split at failed
    · exact (Except.error.inj failed).symm
    · cases failed

theorem FileEnv.update_ok {α : Type} {busy unsaved : α}
    {change : InviteStore → Except α InviteStore}
    (done : env.update busy unsaved store change = .ok changed) : change store = .ok changed := by
  unfold FileEnv.update at done
  split at done
  · split at done
    · cases done
    · rename_i same
      split at done
      · rw [same, Except.ok.inj done]
      · cases done
  · cases done

theorem burnAndRejectWrongCode_error
    (failed : burnAndRejectWrongCode env store now = .error reason) : reason ≠ .codeMismatch := by
  rintro rfl
  unfold burnAndRejectWrongCode FileEnv.update at failed
  split at failed
  · dsimp only at failed
    split at failed <;> cases failed
  · cases failed

theorem secondPass_moved (env : FileEnv) (store : InviteStore) (now : String)
    (pass : SecondPass Key) {answer : Except RejectReason (Signed RedemptionResponse)}
    (done : secondPass config env store now pass = (answer, store')) :
    List.Forall₂ (Moved (if answer = .error .codeMismatch then some now else none)) store store' := by
  have kept : ∀ {reason : RejectReason}, reason ≠ .codeMismatch →
      (Except.error reason, store) = (answer, store') →
        List.Forall₂ (Moved (if answer = .error .codeMismatch then some now else none))
          store store' := by
    intro reason other same
    obtain ⟨rfl, rfl⟩ := Prod.mk.inj same
    rw [if_neg fun same => other (Except.error.inj same)]
    exact moved_same store
  cases pass with
  | burn =>
    simp only [secondPass] at done
    cases burns : burnAndRejectWrongCode env store now with
    | error reason =>
      rw [burns] at done
      exact kept (burnAndRejectWrongCode_error burns) done
    | ok burned =>
      rw [burns] at done
      obtain ⟨rfl, rfl⟩ := Prod.mk.inj done
      rw [if_pos rfl, ← Except.ok.inj (FileEnv.update_ok burns)]
      exact moved_map (Moved.burned now) store
  | consume request key digest =>
    simp only [secondPass] at done
    split at done
    · cases consumes : acceptAndConsume config store request key digest now with
      | error reason =>
        rw [consumes] at done
        exact kept (acceptAndConsume_error consumes) done
      | ok result =>
        obtain ⟨invite, consumed⟩ := result
        rw [consumes] at done
        dsimp only at done
        split at done
        · obtain ⟨rfl, rfl⟩ := Prod.mk.inj done
          have quiet : respondTo config env invite key now ≠ .error .codeMismatch := by
            intro mismatch
            cases respondTo_error mismatch
          obtain ⟨-, found, state, rfl⟩ := acceptAndConsume_ok consumes
          rw [if_neg quiet]
          refine moved_setState fun record found' => ?_
          obtain rfl := Option.some.inj (found.symm.trans found')
          rw [state]
          exact .redeem ..
        · exact kept (by decide) done
    · exact kept (by decide) done

/-! ## Steps -/

/-- The time that a redemption took when it came in. -/
def requestTime (system : PairingSystem Key) : Action Key → Option String
  | .present _ _ now _ => some now
  | .settle redemption _ => system.inFlight[redemption]?.map InFlight.now
  | _ => none

/-- The time of the redemption that is answered with `code_mismatch`. -/
def mismatch? (event : Event (PairingSystem Key) (Action Key) Outcome) : Option String :=
  match event.output with
  | .answered (.error .codeMismatch) => requestTime event.before event.input
  | _ => none

theorem mismatch?_answered (system system' : PairingSystem Key) (action : Action Key)
    (answer : Except RejectReason (Signed RedemptionResponse)) :
    mismatch? ⟨system, action, .answered answer, system'⟩ =
      if answer = .error .codeMismatch then requestTime system action else none := by
  cases answer with
  | ok response => rfl
  | error reason => cases reason <;> rfl

/-- A step creates an invite with a fresh id, or it moves the invites that are there. -/
inductive StoreStep (config : PairingConfig Key)
    (event : Event (PairingSystem Key) (Action Key) Outcome) : Prop
  | moves : List.Forall₂ (Moved (mismatch? event)) event.before.store event.after.store →
      StoreStep config event
  | creates {args : PairInviteArgs} {now id : String} {code : List Char} {env : FileEnv}
      {record : InviteRecord} : event.input = .invite args now id code env →
      newInvite config args now id code = some record →
      (∀ other ∈ event.before.store, other.id ≠ id) →
      event.after.store = event.before.store ++ [record] → mismatch? event = none →
      StoreStep config event

theorem command_store {change : InviteStore → Option InviteStore}
    (done : command system env change = (outcome, system')) :
    (∃ success, outcome = .finished success) ∧
      (system' = system ∨ change system.store = some system'.store) := by
  unfold command at done
  dsimp only at done
  split at done
  · cases done
    exact ⟨⟨_, rfl⟩, Or.inl rfl⟩
  · rename_i store updated
    cases done
    refine ⟨⟨_, rfl⟩, Or.inr ?_⟩
    have changes := FileEnv.update_ok updated
    split at changes
    · cases changes
    · rename_i changed same
      rw [same, Except.ok.inj changes]

theorem status_store {confirmed : Bool} {keyring : Status.KeyringFile}
    (done : status config system now confirmed keyring env = (outcome, system')) :
    (∃ success, outcome = .finished success) ∧
      List.Forall₂ (Moved none) system.store system'.store := by
  let := config.sameKey
  unfold status at done
  dsimp only at done
  split at done
  · split at done
    · cases done
      exact ⟨⟨_, rfl⟩, moved_same _⟩
    · split at done
      · cases done
        exact ⟨⟨_, rfl⟩, moved_runAt ..⟩
      · cases done
        exact ⟨⟨_, rfl⟩, moved_same _⟩
  · cases done
    exact ⟨⟨_, rfl⟩, moved_same _⟩

theorem ingestRedemptionAt_error {loads : Bool} {body : Bytes}
    (failed : ingestRedemptionAt config store loads body now = .error reason) :
    reason ≠ .codeMismatch := by
  rintro rfl
  unfold ingestRedemptionAt at failed
  split at failed
  · cases failed
  · split at failed
    · cases failed
    · split at failed
      · cases failed
      · dsimp only at failed
        split at failed
        · cases failed
        · cases failed
        · cases failed
        · cases failed
        · cases failed
        · split at failed <;> cases failed

theorem StoreStep.of_same (same : event.after.store = event.before.store)
    (quiet : mismatch? event = none) : StoreStep config event := by
  refine .moves ?_
  rw [same, quiet]
  exact moved_same _

theorem act_store {action : Action Key}
    (taken : act config system action = some (outcome, system')) :
    StoreStep config ⟨system, action, outcome, system'⟩ := by
  cases action with
  | present redemption body now loads =>
    simp only [act] at taken
    split at taken
    · cases taken
    · split at taken
      · rename_i reason failed
        cases taken
        refine .of_same rfl ?_
        rw [mismatch?_answered, if_neg]
        exact fun same => ingestRedemptionAt_error failed (Except.error.inj same)
      · cases taken
        exact .of_same rfl rfl
  | settle redemption env =>
    simp only [act] at taken
    split at taken
    · cases taken
    · rename_i flight flying
      cases taken
      refine .moves ?_
      rw [mismatch?_answered]
      simp only [requestTime, flying, Option.map_some]
      exact secondPass_moved env system.store flight.now flight.pass rfl
  | invite args now id code env =>
    simp only [act] at taken
    split at taken
    · cases taken
    · rename_i fresh
      obtain ⟨⟨success, rfl⟩, rfl | changed⟩ := command_store (Option.some.inj taken)
      · exact .of_same rfl rfl
      · obtain ⟨record, made, appended⟩ := Option.map_eq_some_iff.mp changed
        refine .creates rfl made ?_ appended.symm rfl
        intro other member same
        exact fresh (List.any_eq_true.mpr ⟨other, member, by simpa using same⟩)
  | status now confirmed keyring env =>
    obtain ⟨⟨success, rfl⟩, moved⟩ := status_store (Option.some.inj taken)
    exact .moves moved
  | revoke target now env =>
    obtain ⟨⟨success, rfl⟩, rfl | revoked⟩ := command_store (Option.some.inj taken)
    · exact .of_same rfl rfl
    · exact .moves (moved_revokeTarget revoked)

/-! ## Records across a step -/

theorem Life.pending (life : Life state .pending) : state = .pending := by
  cases life
  rfl

theorem exists_of_mem_forall₂ {α β : Type} {related : α → β → Prop} {as : List α} {bs : List β}
    {a : α} (aligned : List.Forall₂ related as bs) (member : a ∈ as) : ∃ b ∈ bs, related a b := by
  induction aligned with
  | nil => cases member
  | @cons first next as bs here _ ih =>
    rcases List.mem_cons.mp member with rfl | later
    · exact ⟨next, List.mem_cons_self .., here⟩
    · obtain ⟨found, among, partner⟩ := ih later
      exact ⟨found, List.mem_cons_of_mem _ among, partner⟩

theorem Moved.mem_before (moved : List.Forall₂ (Moved guess) store store')
    (member : record' ∈ store') : ∃ record ∈ store, Moved guess record record' :=
  exists_of_mem_forall₂ (List.Forall₂.flip moved) member

theorem Moved.map_id (moved : List.Forall₂ (Moved guess) store store') :
    store'.map InviteRecord.id = store.map InviteRecord.id := by
  induction moved with
  | nil => rfl
  | cons here _ ih => rw [List.map_cons, List.map_cons, here.id_eq, ih]

theorem newInvite_eq {args : PairInviteArgs} {code : List Char}
    (made : newInvite config args now id code = some record) :
    record.id = id ∧ record.state = .pending ∧ record.attempts = 0 := by
  unfold newInvite at made
  split at made
  · cases made
  · split at made
    · cases made
      exact ⟨rfl, rfl, rfl⟩
    · cases made

theorem StoreStep.mem_after (step : StoreStep config event) (member : record' ∈ event.after.store) :
    (∃ record ∈ event.before.store, Moved (mismatch? event) record record') ∨
      ∀ other ∈ event.before.store, other.id ≠ record'.id := by
  cases step with
  | moves moved => exact Or.inl (Moved.mem_before moved member)
  | creates input made fresh appended quiet =>
    rw [appended, List.mem_append, List.mem_singleton] at member
    rcases member with old | rfl
    · refine Or.inl ⟨record', old, ?_⟩
      rw [quiet]
      exact .refl record'
    · rw [(newInvite_eq made).1]
      exact Or.inr fresh

theorem StoreStep.mem_before (step : StoreStep config event)
    (member : record ∈ event.before.store) :
    ∃ record' ∈ event.after.store, Moved (mismatch? event) record record' := by
  cases step with
  | moves moved => exact exists_of_mem_forall₂ moved member
  | creates input made fresh appended quiet =>
    refine ⟨record, ?_, ?_⟩
    · rw [appended]
      exact List.mem_append_left _ member
    · rw [quiet]
      exact .refl record

theorem StoreStep.distinct (step : StoreStep config event)
    (distinct : Distinct event.before.store) : Distinct event.after.store := by
  unfold Distinct at distinct ⊢
  cases step with
  | moves moved =>
    rw [Moved.map_id moved]
    exact distinct
  | @creates args now id code env record input made fresh appended quiet =>
    rw [appended, List.map_append, List.map_singleton, (newInvite_eq made).1]
    refine List.nodup_append.mpr ⟨distinct, List.nodup_singleton id, ?_⟩
    intro first member second same
    obtain ⟨other, among, rfl⟩ := List.mem_map.mp member
    rw [List.mem_singleton.mp same]
    exact fresh other among

/-- The invite with this id is there, in a state with this property. -/
def Held (holds : InviteState → Prop) (id : String) (store : InviteStore) : Prop :=
  (∃ record ∈ store, record.id = id) ∧ ∀ record ∈ store, record.id = id → holds record.state

theorem StoreStep.held (step : StoreStep config event)
    (keep : ∀ state state', Life state state' → holds state → holds state')
    (held : Held holds id event.before.store) : Held holds id event.after.store := by
  obtain ⟨⟨record, member, named⟩, all⟩ := held
  constructor
  · obtain ⟨record', member', moved⟩ := step.mem_before member
    exact ⟨record', member', moved.id_eq.trans named⟩
  · intro record' member' named'
    rcases step.mem_after member' with ⟨old, among, moved⟩ | fresh
    · exact keep _ _ moved.life (all old among (moved.id_eq.symm.trans named'))
    · exact absurd (named.trans named'.symm) (fresh record member)

/-! ## Runs -/

abbrev PairingEvent (Key : Type) := Event (PairingSystem Key) (Action Key) Outcome

/-- The wrong guesses that were answered, of requests from before the expiry. -/
def guesses (expiresAt : String) (events : List (PairingEvent Key)) : Nat :=
  (events.filterMap mismatch?).countP fun now => !decide (expiresAt ≤ now)

theorem guesses_concat (expiresAt : String) (events : List (PairingEvent Key))
    (event : PairingEvent Key) :
    guesses expiresAt (events ++ [event]) =
      guesses expiresAt events +
        if (mismatch? event).any fun now => !decide (expiresAt ≤ now) then 1 else 0 := by
  unfold guesses
  rw [List.filterMap_append, List.countP_append]
  congr 1
  cases guess : mismatch? event with
  | none => simp [guess]
  | some now => simp [guess, List.countP_cons]

/-- The event created the invite of this record. -/
def Creates (config : PairingConfig Key) (event : PairingEvent Key) (record : InviteRecord) : Prop :=
  ∃ args now code env created, event.input = .invite args now record.id code env ∧
    newInvite config args now record.id code = some created ∧
    event.after.store = event.before.store ++ [created] ∧
    record = { created with attempts := record.attempts, state := record.state }

theorem Creates.moved {event : PairingEvent Key} (creates : Creates config event record)
    (moved : Moved guess record record') : Creates config event record' := by
  obtain ⟨args, now, code, env, created, input, made, appended, same⟩ := creates
  rw [← moved.id_eq] at input made
  refine ⟨args, now, code, env, created, input, made, appended, ?_⟩
  rw [moved.same, same]

/-- Every invite in the store was created in the run, and while it is pending its
counter is the number of wrong guesses since. -/
structure Accounted (config : PairingConfig Key) (trace : List (PairingEvent Key))
    (system : PairingSystem Key) : Prop where
  distinct : Distinct system.store
  created : ∀ record ∈ system.store, ∃ earlier creation between,
    trace = earlier ++ creation :: between ∧ Creates config creation record ∧
      (record.state = .pending →
        record.attempts = guesses record.expiresAt between % 2 ^ 32)

theorem Accounted.step {trace : List (PairingEvent Key)} {event : PairingEvent Key}
    (accounted : Accounted config trace event.before) (step : StoreStep config event) :
    Accounted config (trace ++ [event]) event.after := by
  refine ⟨step.distinct accounted.distinct, ?_⟩
  have carried : ∀ {record record' : InviteRecord}, record ∈ event.before.store →
      Moved (mismatch? event) record record' → ∃ earlier creation between,
        trace ++ [event] = earlier ++ creation :: between ∧ Creates config creation record' ∧
          (record'.state = .pending →
            record'.attempts = guesses record'.expiresAt between % 2 ^ 32) := by
    intro record record' member moved
    obtain ⟨earlier, creation, between, split, creates, counted⟩ := accounted.created record member
    refine ⟨earlier, creation, between ++ [event], ?_, creates.moved moved, ?_⟩
    · rw [split, List.append_assoc, List.cons_append]
    · intro pending
      have life := moved.life
      rw [pending] at life
      have before := life.pending
      have live : record.isLive = fun now => !decide (record.expiresAt ≤ now) := by
        funext now
        simp [InviteRecord.isLive, before, InviteState.isPending, InviteRecord.isExpired]
      rw [moved.attempts, moved.expiresAt_eq, guesses_concat, counted before, live]
      split <;> omega
  cases step with
  | moves moved =>
    intro record' member
    obtain ⟨record, among, moved⟩ := Moved.mem_before moved member
    exact carried among moved
  | @creates args now id code env record input made fresh appended quiet =>
    intro record' member
    have quiet' : Moved (mismatch? event) record' record' := by
      rw [quiet]
      exact .refl record'
    rw [appended, List.mem_append, List.mem_singleton] at member
    rcases member with old | rfl
    · exact carried old quiet'
    · obtain ⟨rfl, state, none⟩ := newInvite_eq made
      refine ⟨trace, event, [], rfl, ⟨args, now, code, env, record', input, made, appended, rfl⟩, ?_⟩
      intro _
      rw [none]
      rfl

theorem accounted_of_run {trace : List (PairingEvent Key)}
    (run : (pairingMachine config).Run trace system) : Accounted config trace system := by
  induction run with
  | start initial =>
    obtain rfl := initial
    exact ⟨List.nodup_nil, by simp⟩
  | step run taken ih => exact ih.step (act_store taken)

/-! ## Successes -/

/-- The invite with the principal and the key of a request. -/
def InviteRecord.redeemedBy (invite : InviteRecord) (request : RedemptionRequest)
    (keyId now : String) : InviteRecord :=
  { invite with state := .redeemed request.principal keyId request.pubkeyB64url now }

/-- The event answers a redemption of the invite with success. -/
structure Succeeds (config : PairingConfig Key) (event : PairingEvent Key) (invite : InviteRecord)
    (request : RedemptionRequest) (key : Key) (now : String) : Prop where
  settles : ∃ redemption env digest, event.input = .settle redemption env ∧
    event.before.inFlight[redemption]? = some ⟨now, .consume request key digest⟩
  pending : invite ∈ event.before.store ∧ invite.state = .pending
  unexpired : invite.isExpired now = false
  budget : invite.attempts < maxAttempts
  stored : invite.redeemedBy request (config.crypto.keyId key) now ∈ event.after.store

theorem respondTo_ok (done : respondTo config env invite key now = .ok response) :
    response.statement.inviteId = invite.id ∧
      response.statement.redeemerKeyId = config.crypto.keyId key := by
  unfold respondTo at done
  split at done
  · cases done
  · dsimp only at done
    split at done
    · cases done
    · cases done
      exact ⟨rfl, rfl⟩

theorem succeeds_of_answered {event : PairingEvent Key} (distinct : Distinct event.before.store)
    (taken : act config event.before event.input = some (event.output, event.after))
    (answered : event.output = .answered (.ok response)) :
    ∃ invite request key now, Succeeds config event invite request key now ∧
      response.statement.inviteId = invite.id ∧
      response.statement.redeemerKeyId = config.crypto.keyId key := by
  obtain ⟨system, action, outcome, system'⟩ := event
  dsimp only at taken answered distinct
  subst answered
  cases action with
  | present redemption body now loads =>
    simp only [act] at taken
    split at taken
    · cases taken
    · split at taken <;> cases taken
  | settle redemption env =>
    simp only [act] at taken
    split at taken
    · cases taken
    · rename_i flight flying
      obtain ⟨now, pass⟩ := flight
      simp only [Option.some.injEq, Prod.mk.injEq, Outcome.answered.injEq] at taken
      obtain ⟨answer, rfl⟩ := taken
      cases pass with
      | burn =>
        simp only [secondPass] at answer
        split at answer <;> cases answer
      | consume request key digest =>
        simp only [secondPass] at answer
        split at answer
        · rename_i ready
          split at answer
          · cases answer
          · rename_i invite consumed consumes
            split at answer
            · rename_i saves
              obtain ⟨accepted, found, state, rfl⟩ := acceptAndConsume_ok consumes
              have member := List.mem_of_find?_eq_some found
              obtain ⟨record, among, named, -, unexpired, budget⟩ := decide_accept accepted
              obtain rfl := distinct.eq among member named
              refine ⟨record, request, key, now, ⟨⟨redemption, env, digest, rfl, flying⟩,
                ⟨member, state⟩, unexpired, budget, ?_⟩, respondTo_ok answer⟩
              simp only [secondPass, ready, if_true, consumes, saves]
              exact mem_setState found
            · cases answer
        · cases answer
  | invite args now id code env =>
    simp only [act] at taken
    split at taken
    · cases taken
    · obtain ⟨⟨success, same⟩, -⟩ := command_store (Option.some.inj taken)
      cases same
  | status now confirmed keyring env =>
    obtain ⟨⟨success, same⟩, -⟩ := status_store (Option.some.inj taken)
    cases same
  | revoke target now env =>
    obtain ⟨⟨success, same⟩, -⟩ := command_store (Option.some.inj taken)
    cases same

/-- The event moves the invite with this id out of `pending`. -/
def Leaves (id : String) (event : PairingEvent Key) : Prop :=
  (∃ record ∈ event.before.store, record.id = id ∧ record.state = .pending) ∧
    ∃ record ∈ event.after.store, record.id = id ∧ record.state ≠ .pending

/-- The invite was redeemed by this principal and key, and may be pinned or revoked
since. -/
def UsedBy (redeemer keyId pubkeyB64url : String) : InviteState → Prop
  | .pending => False
  | .redeemed redeemer' keyId' pubkeyB64url' _ =>
    redeemer' = redeemer ∧ keyId' = keyId ∧ pubkeyB64url' = pubkeyB64url
  | .pinned _ => True
  | .revoked _ => True

structure SingleUse (config : PairingConfig Key) (trace : List (PairingEvent Key)) : Prop where
  /-- An invite stays in the store, under its id alone, and only moves on in its life. -/
  lives : ∀ event ∈ trace, ∀ record ∈ event.before.store,
    (∃ record' ∈ event.after.store, record'.id = record.id) ∧
      ∀ record' ∈ event.after.store, record'.id = record.id → Life record.state record'.state
  leaves : ∀ earlier event later, trace = earlier ++ event :: later → ∀ id, Leaves id event →
    ∀ next ∈ later, ¬Leaves id next
  /-- A success is for an invite that is pending, unexpired and within its budget, and
  the store has its principal and key as long as the invite is redeemed. -/
  succeeds : ∀ earlier event later, trace = earlier ++ event :: later → ∀ response,
    event.output = .answered (.ok response) →
      ∃ invite request key now, Succeeds config event invite request key now ∧
        response.statement.inviteId = invite.id ∧
        response.statement.redeemerKeyId = config.crypto.keyId key ∧
        (∀ next ∈ later, ∀ record ∈ next.after.store, record.id = invite.id →
          UsedBy request.principal (config.crypto.keyId key) request.pubkeyB64url record.state) ∧
        ∃ before creation between, earlier = before ++ creation :: between ∧
          Creates config creation invite ∧ guesses invite.expiresAt between % 2 ^ 32 < maxAttempts
  once : ∀ earlier event later, trace = earlier ++ event :: later → ∀ response,
    event.output = .answered (.ok response) → ∀ next ∈ later, ∀ response',
      next.output = .answered (.ok response') →
        response'.statement.inviteId ≠ response.statement.inviteId

theorem not_pending_of_life (life : Life state state') (left : state ≠ .pending) :
    state' ≠ .pending := by
  rintro rfl
  exact left life.pending

theorem usedBy_of_life {redeemer keyId pubkeyB64url : String} (life : Life state state')
    (used : UsedBy redeemer keyId pubkeyB64url state) :
    UsedBy redeemer keyId pubkeyB64url state' := by
  cases life with
  | stay => exact used
  | redeem => exact used.elim
  | pin => exact trivial
  | revoke => exact trivial

theorem held_after {trace earlier later : List (PairingEvent Key)} {event : PairingEvent Key}
    (run : (pairingMachine config).Run trace system) (split : trace = earlier ++ event :: later)
    (keep : ∀ state state', Life state state' → holds state → holds state')
    (member : record ∈ event.after.store) (held : holds record.state) :
    ∀ next ∈ later, Held holds record.id next.before.store ∧ Held holds record.id next.after.store := by
  obtain ⟨before, taken⟩ := run.split split
  have distinct := (act_store taken).distinct (accounted_of_run before).distinct
  have here : Held holds record.id event.after.store := by
    refine ⟨⟨record, member, rfl⟩, fun other among same => ?_⟩
    rw [distinct.eq among member same]
    exact held
  exact (run.kept_after (fun system => Held holds record.id system.store)
    (fun _ _ _ _ held taken => (act_store taken).held keep held) split here).2

/-- In every interleaving of redemptions and commands from an empty store, invites are
used once. -/
theorem invites_single_use {trace : List (PairingEvent Key)} {system : PairingSystem Key}
    (run : (pairingMachine config).Run trace system) : SingleUse config trace where
  lives event member record among := by
    obtain ⟨earlier, before, taken⟩ := run.occurs member
    have step := act_store taken
    have distinct := (accounted_of_run before).distinct
    constructor
    · obtain ⟨record', within, moved⟩ := step.mem_before among
      exact ⟨record', within, moved.id_eq⟩
    · intro record' within same
      rcases step.mem_after within with ⟨old, among', moved⟩ | fresh
      · rw [← distinct.eq among' among (moved.id_eq.symm.trans same)]
        exact moved.life
      · exact absurd same.symm (fresh record among)
  leaves earlier event later split id left next member again := by
    obtain ⟨record, within, rfl, state⟩ := left.2
    have gone := (held_after run split (fun _ _ => not_pending_of_life) within state next member).1
    obtain ⟨record', among, same, pending⟩ := again.1
    exact gone.2 record' among same pending
  succeeds earlier event later split response answered := by
    obtain ⟨before, taken⟩ := run.split split
    have accounted := accounted_of_run before
    obtain ⟨invite, request, key, now, success, named, keyed⟩ :=
      succeeds_of_answered accounted.distinct taken answered
    refine ⟨invite, request, key, now, success, named, keyed, ?_, ?_⟩
    · intro next member record among same
      have used := held_after run split (fun _ _ => usedBy_of_life) success.stored
        ⟨rfl, rfl, rfl⟩ next member
      exact used.2.2 record among same
    · obtain ⟨prior, creation, between, rfl, creates, counted⟩ :=
        accounted.created invite success.pending.1
      refine ⟨prior, creation, between, rfl, creates, ?_⟩
      rw [← counted success.pending.2]
      exact success.budget
  once earlier event later split response answered next member response' answered' := by
    obtain ⟨before, taken⟩ := run.split split
    obtain ⟨invite, request, key, now, success, named, -⟩ :=
      succeeds_of_answered (accounted_of_run before).distinct taken answered
    obtain ⟨earlier', before', taken'⟩ :=
      run.occurs (split ▸ List.mem_append_right _ (List.mem_cons_of_mem _ member))
    obtain ⟨invite', request', key', now', success', named', -⟩ :=
      succeeds_of_answered (accounted_of_run before').distinct taken' answered'
    intro same
    have gone := (held_after run split (fun _ _ => not_pending_of_life) success.stored nofun
      next member).1
    refine gone.2 invite' success'.pending.1 ?_ success'.pending.2
    rw [← named', same, named]
    rfl

/-! ## Runs of given actions -/

def actAll (config : PairingConfig Key) (system : PairingSystem Key) :
    List (Action Key) → Option (List (PairingEvent Key) × PairingSystem Key)
  | [] => some ([], system)
  | action :: rest =>
    match act config system action with
    | none => none
    | some (outcome, next) =>
      (actAll config next rest).map fun (events, last) =>
        (⟨system, action, outcome, next⟩ :: events, last)

theorem run_actAll : ∀ {trace : List (PairingEvent Key)}
    {system : PairingSystem Key} {result : List (PairingEvent Key) × PairingSystem Key},
      (pairingMachine config).Run trace system → actAll config system actions = some result →
        (pairingMachine config).Run (trace ++ result.1) result.2 := by
  induction actions with
  | nil =>
    intro trace system result run done
    cases done
    rw [List.append_nil]
    exact run
  | cons action rest ih =>
    intro trace system result run done
    unfold actAll at done
    split at done
    · cases done
    · rename_i outcome next taken
      obtain ⟨⟨more, final⟩, later, rfl⟩ := Option.map_eq_some_iff.mp done
      have step : (pairingMachine config).Run (trace ++ [⟨system, action, outcome, next⟩]) next :=
        run.step taken
      have all := ih step later
      rwa [List.append_assoc] at all

theorem run_of_actAll {result : List (PairingEvent Key) × PairingSystem Key}
    (done : actAll config ⟨[], ∅⟩ actions = some result) :
    (pairingMachine config).Run result.1 result.2 := by
  have start : (pairingMachine config).Run [] ⟨[], ∅⟩ := .start rfl
  exact run_actAll start done

theorem map_input_actAll : ∀ {system : PairingSystem Key}
    {result : List (PairingEvent Key) × PairingSystem Key},
      actAll config system actions = some result → result.1.map Event.input = actions := by
  induction actions with
  | nil =>
    intro system result done
    cases done
    rfl
  | cons action rest ih =>
    intro system result done
    unfold actAll at done
    split at done
    · cases done
    · obtain ⟨⟨more, final⟩, later, rfl⟩ := Option.map_eq_some_iff.mp done
      rw [List.map_cons, ih later]

end Operations

/-! ## Two invites -/

/-- Some words of the list; a code stands for its digest, with zeros behind it. -/
def sampleBook : CodeBook where
  wordlist := ["abandon", "ability", "able", "about", "above", "absent"].map String.toList
  toLowercase := List.map Char.toLower
  digest code := ((code.map fun c : Char => UInt8.ofNat c.toNat) ++ List.replicate 32 0).take 32

/-- A signature is the text of the key that made it. -/
def sampleConfig : PairingConfig (Fin 3) where
  text := Plain.text
  book := sampleBook
  crypto := ⟨Keyring.sampleCrypto, fun key _ sig => sig == Keyring.sampleText key⟩
  sameKey := inferInstance
  clock := rfc3339
  ownDomain := "example"

def goodFiles : FileEnv := ⟨true, true, true, some ⟨"ours", fun _ => some "ours"⟩⟩

def redemptionBody (code : String) : Bytes :=
  utf8 ("\x7b\"sig\":\"keyA\",\"statement\":\x7b\"code\":\"" ++ code ++
    "\",\"nonce\":\"n\",\"principal\":\"agent:peer.example/bob\",\"pubkey_b64url\":\"keyA\"\x7d\x7d")

def inviteAction (id now code : String) : Action (Fin 3) :=
  .invite ⟨"agent:example/gateway", true⟩ now id code.toList goodFiles

/-- A redemption of the first invite is on its way when the invite expires, and then
wrong guesses come in until it goes on. -/
def lateGuesses : List (Action (Fin 3)) :=
  [inviteAction "1" "2026-11-16T00:00:00Z" "about able above abandon ability",
    inviteAction "2" "2026-11-16T12:00:00Z" "absent able above abandon ability",
    .present 0 (redemptionBody "about able above abandon ability") "2026-11-16T23:59:59Z" true] ++
  [1, 2, 3, 4, 5].flatMap (fun redemption =>
    [.present redemption (redemptionBody "able able able able able") "2026-11-17T00:00:01Z" true,
      .settle redemption goodFiles]) ++
  [.settle 0 goodFiles]

def lateEvents : List (PairingEvent (Fin 3)) × PairingSystem (Fin 3) :=
  (actAll sampleConfig ⟨[], ∅⟩ lateGuesses).getD ([], ⟨[], ∅⟩)

def lateAnswer : Signed RedemptionResponse :=
  ⟨⟨"1", "agent:example/gateway", "ours", "keyA", "2026-11-16T23:59:59Z"⟩, "ours"⟩

def lateOutputs : List Outcome :=
  [.finished true, .finished true, .started] ++
    (List.replicate 5 [.started, .answered (.error .codeMismatch)]).flatten ++
    [.answered (.ok lateAnswer)]

theorem actAll_lateGuesses :
    actAll sampleConfig ⟨[], ∅⟩ lateGuesses = some lateEvents ∧
      lateEvents.1.map Event.output = lateOutputs := by
  have outputs : (actAll sampleConfig ⟨[], ∅⟩ lateGuesses).map
      (fun result => result.1.map Event.output) = some lateOutputs := by
    decide +kernel
  obtain ⟨result, done, answers⟩ := Option.map_eq_some_iff.mp outputs
  have same : lateEvents = result := by rw [lateEvents, done, Option.getD_some]
  rw [same]
  exact ⟨done, answers⟩

theorem lateEvents_single_use : SingleUse sampleConfig lateEvents.1 :=
  invites_single_use (run_of_actAll actAll_lateGuesses.1)

/-- The first invite is redeemed after as many wrong guesses as its budget has: they
came in after it had expired, and count against the second invite alone. -/
theorem lateEvents_succeed_over_budget :
    (pairingMachine sampleConfig).Run lateEvents.1 lateEvents.2 ∧
      lateEvents.1.map Event.input = lateGuesses ∧ lateEvents.1.map Event.output = lateOutputs ∧
      lateGuesses.head? = some (inviteAction "1" "2026-11-16T00:00:00Z"
        "about able above abandon ability") ∧
      lateOutputs.getLast? = some (.answered (.ok lateAnswer)) ∧
      lateAnswer.statement.inviteId = "1" ∧
      lateOutputs.count (.answered (.error .codeMismatch)) = maxAttempts := by
  refine ⟨run_of_actAll actAll_lateGuesses.1, map_input_actAll actAll_lateGuesses.1,
    actAll_lateGuesses.2, rfl, rfl, rfl, ?_⟩
  decide +kernel

end Famp.Pairing
