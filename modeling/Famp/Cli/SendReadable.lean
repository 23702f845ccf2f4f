import Famp.Bus.System
import Famp.Cli.Send

/-!
# What a send accepts and its recipient reads

The broker looks at the author and the size of an envelope, and the typed decoder sees
the line only when it is drained.  A remote envelope is written from typed parts and
always decodes.  A local one takes the task and the name of its recipient as they are
typed, so it decodes exactly when the task is an id and the name is one that a
principal may have.
-/

set_option autoImplicit false

namespace Famp.Cli.Send

open Bus Famp.Core Data Envelope Json Json.Serde

/-! ## Numbers and nesting -/

/-- Canonical text keeps the numbers of the value, and it is nested at most so deep. -/
structure Carried (levels : Nat) (value : Value) : Prop where
  numbers : value.NumbersAll Number.Exact
  depth : value.depth ≤ levels

section Carried
variable {levels : Nat}

@[simp] theorem carried_str (text : String) : Carried levels (.str text) := ⟨trivial, Nat.zero_le _⟩

@[simp] theorem carried_bool (flag : Bool) : Carried levels (.bool flag) := ⟨trivial, Nat.zero_le _⟩

theorem carried_objectOf {members : List (String × Option Value)}
    (all : ∀ member ∈ members, ∀ item ∈ member.2, Carried levels item) :
    Carried (levels + 1) (objectOf members) where
  numbers := numbersAll_objectOf fun member inside item present => (all member inside item present).numbers
  depth := depth_objectOf_le fun member inside item present => (all member inside item present).depth

@[simp] theorem carried_single (key text : String) :
    Carried (levels + 1) (objectOf [(key, some (.str text))]) :=
  carried_objectOf (by simp [-Subtype.forall])

theorem Carried.readable_iff {value : Value} (K : Text) (carried : Carried levels value)
    (few : levels < maxNesting) :
    Readable K value ↔ (AnyBusEnvelope.decodeTree value.val).isOk = true := by
  rw [Readable, K.reread_of_exact carried.numbers]
  exact and_iff_right (carried.depth.trans_lt few)

theorem carried_payload (args : SendArgs) (mode : SendMode) :
    Carried (levels + 1) (buildInnerPayload args mode) := by
  refine carried_objectOf ?_
  simp [payloadMembers, flag, -Subtype.forall]

theorem carried_local (args : SendArgs) (identity : String) (target : Target) (fresh : Fresh)
    (mode : SendMode) : Carried 3 (localEnvelope args identity target fresh mode) := by
  have body : Carried 2 (objectOf (localBodyMembers args mode)) := by
    refine carried_objectOf ?_
    simp [localBodyMembers, carried_payload, -Subtype.forall]
  have cause : ∀ task, Carried 2 (objectOf [("rel", some (.str "delivers")), ("ref", some (.str task))]) :=
    fun task => carried_objectOf (by simp [-Subtype.forall])
  refine carried_objectOf ?_
  simp [localMembers, body, cause, -Subtype.forall]

end Carried

/-! ## Names -/

theorem fromStr_local (name : String) :
    Principal.fromStr ("agent:local.bus/" ++ name) =
      if Principal.validateNameOrInstanceId name.toList then some ⟨"local.bus", name⟩ else none := by
  have chars : ("agent:local.bus/" ++ name).toList =
      ['a', 'g', 'e', 'n', 't', ':', 'l', 'o', 'c', 'a', 'l', '.', 'b', 'u', 's', '/'] ++ name.toList := by
    rw [String.toList_append]
    rfl
  have authority : Principal.validateAuthority ['l', 'o', 'c', 'a', 'l', '.', 'b', 'u', 's'] = true := by
    decide
  simp only [Principal.fromStr, chars]
  by_cases valid : Principal.validateNameOrInstanceId name.toList = true
  · have plain : '#' ∉ name.toList := fun inside =>
      (Principal.textChar_of_name valid '#' inside).2 rfl
    simp [valid, plain, authority]
  · simp [valid]

theorem isAsciiAlphanumeric_of_channel {c : Char} (letter : isChannelChar c = true) :
    Principal.isAsciiAlphanumeric c = true := by
  simp only [isChannelChar, Bool.or_eq_true] at letter
  simp only [Principal.isAsciiAlphanumeric, Bool.or_eq_true]
  exact letter.elim (fun lower => .inl (.inr lower)) fun digit => .inl (.inl digit)

/-- The name of a channel, after its sign, is part of the name of a principal. -/
theorem channelName_valid {name : String} (pattern : matchesChannelPattern name.toList = true) :
    ∃ agent, localTo (.channel name) = "agent:local.bus/" ++ agent ∧
      Principal.validateNameOrInstanceId agent.toList = true := by
  refine ⟨"channel-" ++ String.ofList (name.toList.dropWhile (· == '#')), ?_, ?_⟩
  · have joined : "agent:local.bus/channel-" = "agent:local.bus/" ++ "channel-" := by decide
    unfold localTo
    dsimp only
    rw [joined, String.append_assoc]
  · unfold matchesChannelPattern at pattern
    split at pattern
    next first rest chars =>
      simp only [Bool.and_eq_true, decide_eq_true_eq, List.all_eq_true] at pattern
      obtain ⟨⟨letter, short⟩, all⟩ := pattern
      have bare : first ≠ '#' := by
        rintro rfl
        exact absurd letter (by decide)
      have stripped : name.toList.dropWhile (· == '#') = first :: rest := by
        rw [chars, List.dropWhile_cons_of_pos (by rfl), List.dropWhile_cons_of_neg (by simpa using bare)]
      have inside : ∀ c ∈ first :: rest,
          (Principal.isAsciiAlphanumeric c || c == '.' || c == '_' || c == '-') = true := by
        intro c member
        rcases List.mem_cons.mp member with rfl | later
        · simp [isAsciiAlphanumeric_of_channel letter]
        · rcases Bool.or_eq_true_iff.mp (all c later) with word | dash
          · rcases Bool.or_eq_true_iff.mp word with letter | underscore
            · simp [isAsciiAlphanumeric_of_channel letter]
            · simp [underscore]
          · simp [dash]
      have start := List.all_eq_true.mp (show "channel-".toList.all (fun c =>
        Principal.isAsciiAlphanumeric c || c == '.' || c == '_' || c == '-') = true by decide)
      have size : ("channel-".toList).length = 8 := rfl
      rw [stripped, String.toList_append, @String.toList_ofList (first :: rest),
        Principal.validateNameOrInstanceId]
      simp only [Bool.and_eq_true, decide_eq_true_eq, List.length_append, List.length_cons, size,
        List.all_append, List.all_eq_true]
      exact ⟨⟨rfl, by omega⟩, start, inside⟩
    next => cases pattern

/-! ## Local envelopes -/

section Local
variable (args : SendArgs) (identity : String) (target : Target) (fresh : Fresh) (mode : SendMode)

/-- The task is absent, or it is an id. -/
def TaskIsId : Prop := ∀ task ∈ args.task, (messageIdFromStr task).isSome = true

def localBody : AuditLogBody := ⟨mode.event, none, some (buildInnerPayload args mode)⟩

/-- What is read from a local envelope. -/
def localWire (recipient : Principal) : WireEnvelope AuditLogBody where
  famp := fampSpecVersion
  id := fresh.id
  sender := ⟨"local.bus", identity⟩
  recipient := recipient
  scope := .standalone
  messageClass := .auditLog
  causality := (args.task.bind messageIdFromStr).map fun id => ⟨.delivers, id⟩
  authority := .advisory
  ts := fresh.ts
  terminalStatus := none
  idempotencyKey := none
  extensions := none
  fromDomain := none
  toDomain := none
  senderKeyId := none
  nonce := none
  expiry := none
  capability := none
  approval := none
  body := localBody args mode

variable {args identity target fresh mode}

theorem readOption_objectOf {α : Type} (read : Tree → Option α) (members : List (String × Option Value)) :
    readOption read (some (objectOf members).val) = (read (objectOf members).val).map some := by
  obtain ⟨fields, isObject⟩ := objectOf_isObject members
  rw [isObject]
  rfl

theorem read_cause (task : String) :
    Causality.read (objectOf [("rel", some (.str "delivers")), ("ref", some (.str task))]).val =
      (messageIdFromStr task).map fun id => ⟨.delivers, id⟩ := by
  rw [Causality.read, recordFields_objectOf rfl (by decide) (by simp)]
  change (messageIdFromStr task).bind _ = _
  cases messageIdFromStr task <;> rfl

theorem read_causality : readOption Causality.read ((args.task.map fun task =>
      objectOf [("rel", some (.str "delivers")), ("ref", some (.str task))]).map Subtype.val) =
    match args.task with
    | none => some none
    | some task => (messageIdFromStr task).map fun id => some ⟨.delivers, id⟩ := by
  cases args.task with
  | none => rfl
  | some task =>
    refine (readOption_objectOf _ _).trans ?_
    rw [read_cause, Option.map_map]
    rfl

theorem localBody_valid (args : SendArgs) (mode : SendMode) :
    BodySchema.postDecodeValidate (localBody args mode) none = .ok () := by
  cases mode <;> rfl

theorem read_localBody (args : SendArgs) (mode : SendMode) :
    BodySchema.read (objectOf (localBodyMembers args mode)).val = some (localBody args mode) := by
  have nullFree : WireBody.NullFree (localBody args mode) := fun null =>
    objectOf_ne_null (payloadMembers args mode) (congrArg Subtype.val (Option.some.inj null))
  exact WireBody.serialized.read_write (localBody args mode)
    (WireBody.plain_toValue nullFree (localBody_valid args mode))

theorem readField_messageId (text : String) :
    readField readMessageId ((some (Value.str text)).map Subtype.val) = messageIdFromStr text := rfl

theorem readField_principalText (text : String) :
    readField readPrincipal ((some (Value.str text)).map Subtype.val) = Principal.fromStr text := rfl

theorem readFrom_local {recipient : Principal}
    (named : Principal.validateNameOrInstanceId identity.toList = true) (task : TaskIsId args)
    (parsed : Principal.fromStr (localTo target) = some recipient) :
    (localWire args identity fresh mode recipient).ReadFrom (localEnvelope args identity target fresh mode).val := by
  have stored := get?_local args identity target fresh mode
  simp only [localMembers, List.forall_mem_cons] at stored
  obtain ⟨atFamp, atClass, atScope, atId, atSender, atRecipient, atAuthority, atTs, atBody, atCausality, -⟩ :=
    stored
  have absent : ∀ key, key ∉ (localMembers args identity target fresh mode).map Prod.fst →
      (localEnvelope args identity target fresh mode).val.get? key = none := fun key => get?_objectOf_absent
  exact {
    famp := by rw [atFamp]; rfl
    id := by rw [atId, readField_messageId, Uuid.messageIdFromStr_hyphenated]; rfl
    sender := by
      rw [atSender, readField_principalText, fromStr_local, if_pos named]
      rfl
    recipient := by rw [atRecipient, readField_principalText, parsed]; rfl
    scope := by rw [atScope]; rfl
    messageClass := by rw [atClass]; rfl
    causality := by
      rw [atCausality, read_causality, localWire]
      cases present : args.task with
      | none => rfl
      | some text =>
        obtain ⟨id, found⟩ := Option.isSome_iff_exists.mp (task text present)
        simp [found]
    authority := by rw [atAuthority]; rfl
    ts := by rw [atTs]; exact readTimestamp_str fresh.valid
    terminalStatus := by rw [absent _ (by simp [localMembers])]; rfl
    idempotencyKey := by rw [absent _ (by simp [localMembers])]; rfl
    extensions := by rw [absent _ (by simp [localMembers])]; rfl
    fromDomain := by rw [absent _ (by simp [localMembers])]; rfl
    toDomain := by rw [absent _ (by simp [localMembers])]; rfl
    senderKeyId := by rw [absent _ (by simp [localMembers])]; rfl
    nonce := by rw [absent _ (by simp [localMembers])]; rfl
    expiry := by rw [absent _ (by simp [localMembers])]; rfl
    capability := by rw [absent _ (by simp [localMembers])]; rfl
    approval := by rw [absent _ (by simp [localMembers])]; rfl
    body := by rw [atBody]; exact read_localBody args mode }

theorem decodeTree_local_iff (named : Principal.validateNameOrInstanceId identity.toList = true) :
    (AnyBusEnvelope.decodeTree (localEnvelope args identity target fresh mode).val).isOk = true ↔
      TaskIsId args ∧ (Principal.fromStr (localTo target)).isSome = true := by
  have stored := get?_local args identity target fresh mode
  simp only [localMembers, List.forall_mem_cons] at stored
  obtain ⟨atFamp, atClass, -, -, -, atRecipient, -, -, -, atCausality, -⟩ := stored
  have kind : AnyBusEnvelope.decodeTree (localEnvelope args identity target fresh mode).val =
      (BusEnvelope.decodeTree AuditLogBody (localEnvelope args identity target fresh mode).val).map
        .auditLog := by
    rw [AnyBusEnvelope.decodeTree, atClass]
    rfl
  rw [kind]
  constructor
  · intro accepted
    cases decoded : BusEnvelope.decodeTree AuditLogBody (localEnvelope args identity target fresh mode).val with
    | error error => rw [decoded] at accepted; cases accepted
    | ok wire =>
      obtain ⟨members, shown, -, -, read, -⟩ := BusEnvelope.decodeTree_ok_iff.mp decoded
      obtain ⟨-, header⟩ := WireEnvelope.read_iff.mp read
      rw [← shown] at header
      constructor
      · intro task present
        have cause := header.causality
        rw [atCausality, read_causality, present] at cause
        obtain ⟨id, found, -⟩ := Option.map_eq_some_iff.mp cause
        exact Option.isSome_iff_exists.mpr ⟨id, found⟩
      · have recipient := header.recipient
        rw [atRecipient, readField_principalText] at recipient
        exact Option.isSome_iff_exists.mpr ⟨_, recipient⟩
  · rintro ⟨task, addressed⟩
    obtain ⟨recipient, parsed⟩ := Option.isSome_iff_exists.mp addressed
    have header := @readFrom_local args identity target fresh mode recipient named task parsed
    obtain ⟨members, shown⟩ := objectOf_isObject (localMembers args identity target fresh mode)
    have absent : ∀ key, key ∉ (localMembers args identity target fresh mode).map Prod.fst →
        (localEnvelope args identity target fresh mode).val.get? key = none := fun key => get?_objectOf_absent
    have known : ∀ member ∈ members, member.1 ∈ headerFields := by
      intro member inside
      by_contra unknown
      have missing := absent member.1 fun listed =>
        unknown ((show ∀ key ∈ (localMembers args identity target fresh mode).map Prod.fst,
          key ∈ headerFields by simp [localMembers, headerFields]) _ listed)
      have present := Tree.get?_isSome_of_mem inside
      rw [← shown] at present
      exact absurd present (by rw [show (objectOf _).val.get? member.1 = none from missing]; simp)
    have decoded : BusEnvelope.decodeTree AuditLogBody (localEnvelope args identity target fresh mode).val =
        .ok (localWire args identity fresh mode recipient) :=
      BusEnvelope.decodeTree_ok_iff.mpr ⟨members, shown, absent _ (by simp [localMembers]), atFamp,
        WireEnvelope.read_iff.mpr ⟨known, shown ▸ header⟩, rfl, rfl, localBody_valid args mode⟩
    rw [decoded]
    rfl

end Local

/-! ## Remote envelopes -/

theorem carried_emptyObject {levels : Nat} : Carried (levels + 1) emptyObject :=
  ⟨trivial, Nat.le_add_left 1 levels⟩

theorem carried_noItems {levels : Nat} : Carried (levels + 1) (.arr []) :=
  ⟨trivial, Nat.le_add_left 1 levels⟩

theorem carried_twoKeyBounds : Carried 2 twoKeyBounds.toValue := by
  have budget : ∀ budget : Budget, Carried 1 budget.toValue := fun budget =>
    carried_objectOf (by simp [-Subtype.forall])
  have hops : Carried 1 (.int 8) := ⟨show Number.Exact (.int 8) by decide, Nat.zero_le _⟩
  refine carried_objectOf ?_
  simp [twoKeyBounds, budget, hops, -Subtype.forall]

section Wire
variable {B : Type} [BodySchema B] [WireBody B] {wire : WireEnvelope B}

/-- The envelope has no members of the caller's own but its body. -/
structure Closed (wire : WireEnvelope B) : Prop where
  extensions : wire.extensions = none
  capability : wire.capability = none
  approval : wire.approval = none

theorem carried_wire {levels : Nat} (closed : Closed wire)
    (body : Carried (levels + 1) (WireBody.toValue wire.body)) : Carried (levels + 2) wire.toValue := by
  have cause : ∀ causality : Causality, Carried (levels + 1) causality.toValue := fun causality =>
    carried_objectOf (by simp [-Subtype.forall])
  refine carried_objectOf ?_
  simp [WireEnvelope.members, closed.extensions, closed.capability, closed.approval, body, cause,
    -Subtype.forall]

theorem decodeTree_built (built : Built wire)
    (checked : BodySchema.postDecodeValidate wire.body wire.terminalStatus = .ok ())
    (nullFree : WireBody.NullFree wire.body) (ts : shallowValidate wire.ts = true)
    (expiry : wire.expiry = none) : BusEnvelope.decodeTree B wire.toValue.val = .ok wire := by
  have fixed := built.fixed
  refine BusEnvelope.decodeTree_toValue ⟨fixed.sender, fixed.recipient, ts, by simp [expiry]⟩ fixed.famp
    fixed.messageClass fixed.scope checked ?_
  exact WireEnvelope.plain_toValue (by simp [fixed.capability]) (by simp [fixed.approval])
    (WireBody.plain_toValue nullFree checked)

theorem get?_class (wire : WireEnvelope B) :
    wire.toValue.val.get? "class" = some (Value.str wire.messageClass.name).val :=
  wire.get?_toValue ("class", some (.str wire.messageClass.name)) (by simp [WireEnvelope.members])

end Wire

theorem none_ne_null : (none : Option Value) ≠ some Value.null := by simp

theorem readable_remote (K : Text) {args : SendArgs} {principal : ParsedPrincipal} {fresh : Fresh}
    {envelope : Value} (built : RemoteBuilt args principal fresh envelope) : Readable K envelope := by
  cases built with
  | @request sender summary =>
    have carried : Carried 4 (requestFor sender principal fresh summary).toValue := by
      refine carried_wire ⟨rfl, rfl, rfl⟩ (carried_objectOf ?_)
      simp [requestFor, UnsignedEnvelope.new, carried_emptyObject, carried_twoKeyBounds,
        -Subtype.forall]
    have decoded : BusEnvelope.decodeTree RequestBody
        (requestFor sender principal fresh summary).toValue.val = _ :=
      decodeTree_built (.new ..) rfl trivial fresh.valid rfl
    rw [carried.readable_iff K (by decide), AnyBusEnvelope.decodeTree, get?_class]
    change ((BusEnvelope.decodeTree RequestBody _).map AnyBusEnvelope.request).isOk = true
    rw [decoded]
    rfl
  | @commit sender task id =>
    have carried : Carried 4 (commitFor sender principal fresh id args.body).toValue := by
      refine carried_wire ⟨rfl, rfl, rfl⟩ (carried_objectOf ?_)
      simp [commitFor, UnsignedEnvelope.new, WireEnvelope.withCausality, carried_emptyObject,
        carried_noItems, carried_twoKeyBounds, -Subtype.forall]
    have decoded : BusEnvelope.decodeTree CommitBody
        (commitFor sender principal fresh id args.body).toValue.val = _ :=
      decodeTree_built (.causality _ (.new ..)) rfl ⟨none_ne_null, none_ne_null⟩ fresh.valid rfl
    rw [carried.readable_iff K (by decide), AnyBusEnvelope.decodeTree, get?_class]
    change ((BusEnvelope.decodeTree CommitBody _).map AnyBusEnvelope.commit).isOk = true
    rw [decoded]
    rfl
  | @deliver sender task id =>
    have carried : Carried 4 (deliverFor sender principal fresh id args.body).toValue := by
      refine carried_wire ⟨rfl, rfl, rfl⟩ (carried_objectOf ?_)
      simp [deliverFor, UnsignedEnvelope.new, WireEnvelope.withCausality,
        WireEnvelope.withTerminalStatus, -Subtype.forall]
    have present : ∀ members, some (objectOf members) ≠ some Value.null := fun members null =>
      objectOf_ne_null members (congrArg Subtype.val (Option.some.inj null))
    have nullFree : WireBody.NullFree (deliverFor sender principal fresh id args.body).body := by
      refine ⟨?_, none_ne_null, present _, fun _ detailed => by cases detailed⟩
      change args.body.map _ ≠ _
      cases args.body with
      | none => exact none_ne_null
      | some text => exact present _
    have decoded : BusEnvelope.decodeTree DeliverBody
        (deliverFor sender principal fresh id args.body).toValue.val = _ :=
      decodeTree_built (.terminalStatus _ (.causality _ (.new ..))) rfl nullFree fresh.valid rfl
    rw [carried.readable_iff K (by decide), AnyBusEnvelope.decodeTree, get?_class]
    change ((BusEnvelope.decodeTree DeliverBody _).map AnyBusEnvelope.deliver).isOk = true
    rw [decoded]
    rfl

/-! ## Messages -/

/-- The target is remote, or the task is an id and the name is one of a principal. -/
def Deliverable (args : SendArgs) : Prop :=
  (∃ principal, remotePrincipal args = .ok (some principal)) ∨
    (TaskIsId args ∧ ∀ name ∈ args.to', Principal.validateNameOrInstanceId name.toList = true)

theorem normalizeChannel_ok {input name : String} (normalized : normalizeChannel input = .ok name) :
    matchesChannelPattern name.toList = true := by
  unfold normalizeChannel at normalized
  dsimp only at normalized
  generalize (if startsWith input "#" = true then input else "#" ++ input) = candidate at normalized
  split at normalized
  next => cases normalized
  next =>
    split at normalized
    next pattern =>
      cases normalized
      exact pattern
    next => cases normalized

/-- Of the local targets, the decoder refuses agents whose name is no name of a principal. -/
theorem fromStr_localTo_iff {args : SendArgs} {target : Target} (aimed : targetOf args none = .ok target) :
    (Principal.fromStr (localTo target)).isSome = true ↔
      ∀ name ∈ args.to', Principal.validateNameOrInstanceId name.toList = true := by
  unfold targetOf at aimed
  split at aimed
  next name toName _ =>
    dsimp only at aimed
    split at aimed
    next => cases aimed
    next =>
      cases aimed
      change (Principal.fromStr ("agent:local.bus/" ++ name)).isSome = true ↔ _
      rw [fromStr_local, toName]
      by_cases valid : Principal.validateNameOrInstanceId name.toList = true <;> simp [valid]
  next channel toNone _ =>
    obtain ⟨name, normalized, rfl⟩ := ok_of_map aimed
    obtain ⟨agent, written, valid⟩ := channelName_valid (normalizeChannel_ok normalized)
    rw [written, fromStr_local, if_pos valid, toNone]
    simp
  next => cases aimed
  next => cases aimed

section Messages
variable {SigningKey Key Signature : Type} {scheme : SigningScheme SigningKey Key Signature}
variable {K : Text} {printer : K.Printer} {throwaway : SigningKey}
variable {args : SendArgs} {identity : String} {home : OwnDomain} {fresh : Fresh}
variable {target : Target} {envelope : Value}

theorem readable_message_iff (named : Principal.validateNameOrInstanceId identity.toList = true)
    (composed : message scheme K printer throwaway args identity home fresh = .ok (target, envelope)) :
    Readable K envelope ↔ Deliverable args := by
  unfold message at composed
  split at composed
  next => cases composed
  next =>
    split at composed
    next => cases composed
    next =>
      split at composed
      next => cases composed
      next remote resolved =>
        split at composed
        next => cases composed
        next aim aimed =>
          obtain ⟨value, built, same⟩ := ok_of_map composed
          cases same
          cases remote with
          | some principal =>
            exact ⟨fun _ => .inl ⟨principal, resolved⟩, fun _ => readable_remote K (remoteBuilt built)⟩
          | none =>
            have notRemote : ¬∃ principal, remotePrincipal args = .ok (some principal) := by
              rintro ⟨principal, other⟩
              rw [resolved] at other
              cases other
            simp only [buildEnvelopeValue] at built
            split at built
            next => cases built
            next mode _ =>
              cases built
              rw [(carried_local ..).readable_iff K (by decide), decodeTree_local_iff named,
                fromStr_localTo_iff aimed, Deliverable, or_iff_right notRemote]

/-- Every appended line is one that a drain takes, whatever its stamp says. -/
def AppendsReadable (K : Text) (outs : List Out) : Prop :=
  ∀ mailbox line origin, .appendMailbox mailbox line origin ∈ outs →
    ∀ stamp record, stampLine K line stamp = .ok record → (decodeLine K record).isOk = true

theorem appendsReadable_iff {env : BrokerEnv} {s s' : BrokerState} {client : ClientId} {now : Nat}
    {outs : List Out} {id : Uuid} {rows : List Delivered} (inv : StateInvariant s)
    (taken : handle K env s (.wire client (.send target envelope)) now = some (s', outs))
    (replied : .reply client (.sendOk id rows) ∈ outs) :
    AppendsReadable K outs ↔ Readable K envelope := by
  obtain ⟨_, line, record, rest, ⟨-, -, canonical, -, stamps⟩, rfl, others⟩ :=
    accepted_of_sendOk inv taken replied
  constructor
  · intro readable
    by_contra unreadable
    obtain ⟨error, refused⟩ := decodeLine_stampLine_error K canonical stamps unreadable
    have taken := readable _ _ _ (List.mem_cons_self ..) _ _ stamps
    rw [refused] at taken
    cases taken
  · intro readable mailbox appended origin staged stamp record' stamped
    rcases List.mem_cons.mp staged with same | later
    · obtain ⟨-, rfl, -⟩ := Out.appendMailbox.inj same
      rw [(decodeLine_stampLine_ok_iff K canonical stamped).mpr readable]
      rfl
    · cases others _ later

/-- A send that is answered with success is readable exactly when it is deliverable. -/
theorem accepted_send_is_readable_iff {trace : List (Event BrokerState Call (List Out))} {env : BrokerEnv}
    {s s' : BrokerState} {client : ClientId} {now : Nat} {outs : List Out} {id : Uuid}
    {rows : List Delivered} (run : (brokerMachine K).Run trace s)
    (named : Principal.validateNameOrInstanceId identity.toList = true)
    (composed : message scheme K printer throwaway args identity home fresh = .ok (target, envelope))
    (taken : handle K env s (.wire client (.send target envelope)) now = some (s', outs))
    (replied : .reply client (.sendOk id rows) ∈ outs) :
    AppendsReadable K outs ↔ Deliverable args :=
  (appendsReadable_iff (StateInvariant.of_run run) taken replied).trans
    (readable_message_iff named composed)

end Messages

/-! ## A reply to a task that is no id -/

def replyArgs (task : String) : SendArgs :=
  ⟨some "alice", none, none, some task, false, some "done", false, none⟩

def replyEnvelope (task : String) : Value :=
  localEnvelope (replyArgs task) "bob" (.agent "alice") sampleFresh .deliver

theorem reply_is_sent {task : String} {size stampedSize : Nat} (small : size ≤ maxFrameBytes)
    (own : isSelfAuthored (replyEnvelope task) (some "bob") = true)
    (sized : Plain.text.canonicalLen? (replyEnvelope task) = some size)
    (stampSized : Plain.text.canonicalLen? (StampedEnvelope.toValue ⟨.local, replyEnvelope task⟩) =
      some stampedSize) :
    ∃ s' outs rows, handle Plain.text emptyEnv (stateAfter Plain.text (BrokerState.new 0) waitingCalls)
        (.wire 2 (.send (.agent "alice") (replyEnvelope task))) 6 = some (s', outs) ∧
      .reply 2 (.sendOk (taskIdFrom (replyEnvelope task)) rows) ∈ outs := by
  obtain ⟨line, canonical, length⟩ := Text.canonicalize_of_len sized
  obtain ⟨record, stamps, -⟩ := Text.canonicalize_of_len stampSized
  have shallow : (replyEnvelope task).depth ≤ maxNesting :=
    (carried_local ..).depth.trans (by decide)
  have origin : clientOrigin (stateAfter Plain.text (BrokerState.new 0) waitingCalls) 2 = .local := by
    decide +kernel
  have accepted : SendAccepted Plain.text emptyEnv
      (stateAfter Plain.text (BrokerState.new 0) waitingCalls) 2 (replyEnvelope task) "bob" line record := by
    refine ⟨by decide +kernel, own, canonical, length ▸ small, ?_⟩
    rw [stampLine_canonicalize Plain.text _ canonical shallow, Plain.reread_eq, origin, stamps]
  obtain ⟨s', rows, handled, -⟩ := handle_send
    (StateInvariant.of_run (run_calls Plain.text 0 waitingCalls)) accepted (.agent "alice") 6
  exact ⟨s', _, rows, handled, by simp⟩

/-- A reply to a task with an id is readable. -/
theorem reply_to_id_is_readable :
    ∃ s' outs rows, handle Plain.text emptyEnv (stateAfter Plain.text (BrokerState.new 0) waitingCalls)
        (.wire 2 (.send (.agent "alice") (replyEnvelope "00000000-0000-7000-8000-000000000001"))) 6 =
          some (s', outs) ∧
      .reply 2 (.sendOk (taskIdFrom (replyEnvelope "00000000-0000-7000-8000-000000000001")) rows) ∈ outs ∧
      AppendsReadable Plain.text outs := by
  obtain ⟨s', outs, rows, handled, replied⟩ := @reply_is_sent "00000000-0000-7000-8000-000000000001" 412 442
    (by decide) (by decide +kernel) (by decide +kernel) (by decide +kernel)
  have composed : message SigningScheme.byLength Plain.text Plain.printer 2
      (replyArgs "00000000-0000-7000-8000-000000000001") "bob" sampleHome sampleFresh =
        .ok (.agent "alice", replyEnvelope "00000000-0000-7000-8000-000000000001") := by
    rfl
  refine ⟨s', outs, rows, handled, replied, ?_⟩
  refine (accepted_send_is_readable_iff (run_calls Plain.text 0 waitingCalls) (by decide +kernel) composed
    handled replied).mpr (.inr ⟨?_, ?_⟩)
  · intro task named
    cases named
    decide +kernel
  · intro name named
    cases named
    decide +kernel

/-- The broker answers a reply to `last-week` with success, and no drain takes its line. -/
theorem reply_to_no_id_is_unreadable :
    message SigningScheme.byLength Plain.text Plain.printer 2 (replyArgs "last-week") "bob" sampleHome
        sampleFresh = .ok (.agent "alice", replyEnvelope "last-week") ∧
      (∃ trace, (brokerMachine Plain.text).Run trace
        (stateAfter Plain.text (BrokerState.new 0) waitingCalls)) ∧
      ∃ s' outs rows, handle Plain.text emptyEnv (stateAfter Plain.text (BrokerState.new 0) waitingCalls)
          (.wire 2 (.send (.agent "alice") (replyEnvelope "last-week"))) 6 = some (s', outs) ∧
        .reply 2 (.sendOk (taskIdFrom (replyEnvelope "last-week")) rows) ∈ outs ∧
        ¬AppendsReadable Plain.text outs := by
  obtain ⟨s', outs, rows, handled, replied⟩ := @reply_is_sent "last-week" 358 388
    (by decide) (by decide +kernel) (by decide +kernel) (by decide +kernel)
  have run := run_calls Plain.text 0 waitingCalls
  refine ⟨rfl, ⟨_, run⟩, s', outs, rows, handled, replied, ?_⟩
  rw [appendsReadable_iff (StateInvariant.of_run run) handled replied]
  decide +kernel

end Famp.Cli.Send
