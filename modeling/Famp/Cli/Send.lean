import Famp.Bus.Proto
import Famp.Data.Words
import Famp.Envelope.Roundtrip

/-!
# `famp send` and the `famp_send` tool

The arguments of a send become the target and the envelope of one bus message.  A bare
name or a channel is local: its envelope is an audit log entry put together from the
texts of the arguments.  A full principal is remote: its envelope is a typed request,
commit or delivery, signed with a key that is thrown away and stripped again.
-/

set_option autoImplicit false

namespace Famp.Cli.Send

open Bus Famp.Core Data Envelope Json Json.Serde

/-! ## Arguments -/

structure SendArgs where
  to' : Option String
  channel : Option String
  newTask : Option String
  task : Option String
  terminal : Bool
  body : Option String
  moreComing : Bool
  domain : Option String
  deriving DecidableEq, Repr

/-- The reason of an invalid argument is `none` where a library writes part of it. -/
inductive SendError where
  | sendArgsInvalid (reason : Option String)
  | ownDomainNotSet
  | ownDomainInvalid (value : String)
  | envelope (error : String)
  deriving DecidableEq, Repr

/-! ## The domain of this host -/

/-- Where the domain is looked for when no flag gives it. -/
structure OwnDomain where
  /-- `FAMP_OWN_DOMAIN`. -/
  environment : Option String
  /-- The contents of the file `own-domain`. -/
  file : Option String

def trim (text : List Char) : List Char :=
  ((text.dropWhile isWhiteSpace).reverse.dropWhile isWhiteSpace).reverse

def readOwnDomainFile (contents : Option String) : Option String :=
  contents.bind fun contents =>
    let firstLine := trim ((lines contents.toList).headD [])
    if firstLine.isEmpty then none else some (String.ofList firstLine)

/-- A probe for the authority of a principal. -/
def validateOwnDomain (value : String) : Bool := (Principal.fromStr ("agent:" ++ value ++ "/x")).isSome

def resolveOwnDomain (cliDomain : Option String) (home : OwnDomain) : Except SendError String :=
  match cliDomain.or (home.environment.or (readOwnDomainFile home.file)) with
  | none => .error .ownDomainNotSet
  | some raw => if validateOwnDomain raw then .ok raw else .error (.ownDomainInvalid raw)

/-! ## The target -/

def isChannelChar (c : Char) : Bool := ('a' ≤ c && c ≤ 'z') || ('0' ≤ c && c ≤ '9')

/-- `^#[a-z0-9][a-z0-9_-]{0,31}$`. -/
def matchesChannelPattern : List Char → Bool
  | '#' :: first :: rest =>
    isChannelChar first && decide (rest.length ≤ 31) &&
      rest.all fun c => isChannelChar c || c == '_' || c == '-'
  | _ => false

def startsWith (text : String) (start : String) : Bool := start.toList.isPrefixOf text.toList

def normalizeChannel (input : String) : Except SendError String :=
  let normalized := if startsWith input "#" then input else "#" ++ input
  if startsWith normalized "##" then
    .error (.sendArgsInvalid (some ("channel name '" ++ input ++ "' cannot start with ##")))
  else if matchesChannelPattern normalized.toList then .ok normalized
  else
    .error (.sendArgsInvalid (some ("invalid channel name '" ++ normalized ++
      "': must match ^#[a-z0-9][a-z0-9_-]\x7b0,31\x7d$")))

/-- The principal of a remote target; a text that only looks like one is refused. -/
def remotePrincipal (args : SendArgs) : Except SendError (Option ParsedPrincipal) :=
  match args.to' with
  | none => .ok none
  | some raw =>
    match ParsedPrincipal.fromStr raw with
    | some principal => .ok (some principal)
    | none => if startsWith raw "agent:" then .error (.sendArgsInvalid none) else .ok none

/-- The bus is told the bare name, of a remote target too. -/
def targetOf (args : SendArgs) (remote : Option ParsedPrincipal) : Except SendError Target :=
  match args.to', args.channel with
  | some name, none =>
    let name := match remote with
      | some principal => principal.principal.name
      | none => name
    if startsWith name "#" then
      .error (.sendArgsInvalid (some ("'" ++ name ++
        "' looks like a channel name; pass channel= instead of peer=")))
    else .ok (.agent name)
  | none, some channel => (normalizeChannel channel).map .channel
  | some _, some _ => .error (.sendArgsInvalid (some "--to and --channel are mutually exclusive"))
  | none, none => .error (.sendArgsInvalid (some "exactly one of --to or --channel is required"))

/-! ## Local envelopes -/

inductive SendMode where
  | newTask
  | deliverTerminal
  | deliver
  | channelPost
  deriving DecidableEq, Repr

def SendMode.text : SendMode → String
  | newTask => "new_task"
  | deliverTerminal => "deliver_terminal"
  | deliver => "deliver"
  | channelPost => "channel_post"

def SendMode.event : SendMode → String
  | newTask => "famp.send.new_task"
  | deliverTerminal => "famp.send.deliver_terminal"
  | deliver => "famp.send.deliver"
  | channelPost => "famp.send.channel_post"

def sendMode (args : SendArgs) : Option SendMode :=
  match args.newTask.isSome, args.task.isSome, args.terminal, args.channel.isSome with
  | true, false, false, _ => some .newTask
  | false, true, true, _ => some .deliverTerminal
  | false, true, false, _ => some .deliver
  | false, false, false, true => some .channelPost
  | _, _, _, _ => none

/-- A flag is written only where it is set. -/
def flag (set : Bool) : Option Value := if set then some (.bool true) else none

def payloadMembers (args : SendArgs) (mode : SendMode) : List (String × Option Value) :=
  [("mode", some (.str mode.text)), ("summary", args.newTask.map Value.str),
    ("task", args.task.map Value.str), ("body", args.body.map Value.str), ("terminal", flag args.terminal),
    ("more_coming", flag args.moreComing)]

def buildInnerPayload (args : SendArgs) (mode : SendMode) : Value := objectOf (payloadMembers args mode)

/-- An id and a time that are made for one envelope. -/
structure Fresh where
  id : Uuid
  ts : String
  valid : shallowValidate ts = true

def localTo : Target → String
  | .agent name => "agent:local.bus/" ++ name
  | .channel name => "agent:local.bus/channel-" ++ String.ofList (name.toList.dropWhile (· == '#'))

def localBodyMembers (args : SendArgs) (mode : SendMode) : List (String × Option Value) :=
  [("event", some (.str mode.event)), ("details", some (buildInnerPayload args mode))]

def localMembers (args : SendArgs) (identity : String) (target : Target) (fresh : Fresh)
    (mode : SendMode) : List (String × Option Value) :=
  [("famp", some (.str "0.5.2")), ("class", some (.str "audit_log")),
    ("scope", some (.str "standalone")), ("id", some (.str fresh.id.hyphenated)),
    ("from", some (.str ("agent:local.bus/" ++ identity))), ("to", some (.str (localTo target))),
    ("authority", some (.str "advisory")), ("ts", some (.str fresh.ts)),
    ("body", some (objectOf (localBodyMembers args mode))),
    ("causality", args.task.map fun task =>
      objectOf [("rel", some (.str "delivers")), ("ref", some (.str task))])]

def localEnvelope (args : SendArgs) (identity : String) (target : Target) (fresh : Fresh)
    (mode : SendMode) : Value :=
  objectOf (localMembers args identity target fresh mode)

/-! ## Remote envelopes -/

section Remote
variable {SigningKey Key Signature : Type} (scheme : SigningScheme SigningKey Key Signature)
variable (K : Text) (printer : K.Printer) (throwaway : SigningKey)

def twoKeyBounds : Bounds where
  deadline := none
  budget := some ⟨"0", "usd"⟩
  hopLimit := some 8
  policyDomain := none
  authorityScope := none
  maxArtifactSize := none
  confidenceFloor := none
  recursionDepth := none

def signThenStrip {B : Type} [BodySchema B] [WireBody B] (wire : WireEnvelope B) :
    Except SendError Value :=
  match UnsignedEnvelope.sign scheme K wire throwaway with
  | .error error => .error (.envelope error)
  | .ok signed =>
    match signed.encode scheme printer with
    | .error error => .error (.envelope error)
    | .ok bytes =>
      match K.fromSlice bytes with
      | .error error => .error (.envelope error)
      | .ok value => .ok (value.remove "signature")

def parseTaskId (task : String) : Except SendError Uuid :=
  match messageIdFromStr task with
  | none => .error (.sendArgsInvalid (some ("invalid --task id '" ++ task ++ "': expected a UUIDv7")))
  | some id => .ok id

def emptyObject : Value := objectOf []

def requestFor (sender recipient : ParsedPrincipal) (fresh : Fresh) (summary : String) :
    WireEnvelope RequestBody :=
  UnsignedEnvelope.new fresh.id sender recipient .advisory fresh.ts
    ⟨emptyObject, twoKeyBounds, some summary⟩

def commitFor (sender recipient : ParsedPrincipal) (fresh : Fresh) (task : Uuid) (body : Option String) :
    WireEnvelope CommitBody :=
  (UnsignedEnvelope.new fresh.id sender recipient .commitLocal fresh.ts
    { scope := emptyObject, scopeSubset := none, bounds := twoKeyBounds, acceptedPolicies := []
      delegationPermissions := none, reportingObligations := none
      terminalCondition := objectOf [("type", some (.str "final_delivery"))], conditions := none
      naturalLanguageSummary := body }).withCausality ⟨.commits, task⟩

def deliverFor (sender recipient : ParsedPrincipal) (fresh : Fresh) (task : Uuid) (body : Option String) :
    WireEnvelope DeliverBody :=
  ((UnsignedEnvelope.new fresh.id sender recipient .advisory fresh.ts
    { interim := false, artifacts := none
      result := body.map fun text => objectOf [("text", some (.str text))]
      usageMetrics := none, errorDetail := none
      provenance := some (objectOf [("signer", some (.str sender.text))])
      naturalLanguageSummary := none }).withCausality ⟨.delivers, task⟩).withTerminalStatus .completed

def buildRemoteEnvelopeValue (args : SendArgs) (identity : String) (principal : ParsedPrincipal)
    (home : OwnDomain) (fresh : Fresh) : Except SendError Value :=
  match resolveOwnDomain args.domain home with
  | .error error => .error error
  | .ok ownDomain =>
    match ParsedPrincipal.fromStr ("agent:" ++ ownDomain ++ "/" ++ identity) with
    | none => .error (.sendArgsInvalid none)
    | some sender =>
      match args.newTask, args.task, args.terminal with
      | some summary, none, false =>
        signThenStrip scheme K printer throwaway (requestFor sender principal fresh summary)
      | none, some task, false =>
        match parseTaskId task with
        | .error error => .error error
        | .ok task => signThenStrip scheme K printer throwaway (commitFor sender principal fresh task args.body)
      | none, some task, true =>
        match parseTaskId task with
        | .error error => .error error
        | .ok task => signThenStrip scheme K printer throwaway (deliverFor sender principal fresh task args.body)
      | _, _, _ =>
        .error (.sendArgsInvalid
          (some "exactly one of --new-task / --task is required for a remote send"))

/-! ## The message -/

def buildEnvelopeValue (args : SendArgs) (identity : String) (target : Target)
    (remote : Option ParsedPrincipal) (home : OwnDomain) (fresh : Fresh) : Except SendError Value :=
  match remote with
  | some principal => buildRemoteEnvelopeValue scheme K printer throwaway args identity principal home fresh
  | none =>
    match sendMode args with
    | none =>
      .error (.sendArgsInvalid (some
        "exactly one of --new-task / --task is required (or use --channel for a bare channel post)"))
    | some mode => .ok (localEnvelope args identity target fresh mode)

/-- What `run_at_structured` sends. -/
def message (args : SendArgs) (identity : String) (home : OwnDomain) (fresh : Fresh) :
    Except SendError (Target × Value) :=
  if startsWith identity "#" then
    .error (.sendArgsInvalid (some ("'" ++ identity ++
      "' looks like a channel name; identities must not start with '#'")))
  else if args.moreComing && args.newTask.isNone then
    .error (.sendArgsInvalid (some "--more-coming is only valid with --new-task"))
  else
    match remotePrincipal args with
    | .error error => .error error
    | .ok remote =>
      match targetOf args remote with
      | .error error => .error error
      | .ok target =>
        (buildEnvelopeValue scheme K printer throwaway args identity target remote home fresh).map
          fun envelope => (target, envelope)

end Remote

/-! ## The tool -/

/-- The message is `none` where a library writes part of it. -/
inductive ToolError where
  | envelopeInvalid (message : Option String)
  deriving DecidableEq, Repr

def textAt (input : Value) (key : String) : Option String := (input.val.get? key).bind Tree.asStr?

/-- A flag of the tool; null stands for an absent flag only where it may. -/
def flagAt (input : Value) (key : String) (nullable : Bool) : Except ToolError Bool :=
  match input.val.get? key with
  | none => .ok false
  | some (.bool set) => .ok set
  | some .null =>
    if nullable then .ok false
    else .error (.envelopeInvalid (some ("field " ++ key ++ " must be a boolean")))
  | some _ => .error (.envelopeInvalid (some ("field " ++ key ++ " must be a boolean")))

/-- The new task, the task and the terminal flag of a mode. -/
def modeFields (mode : String) (taskId title body : Option String) (expectReply : Bool) :
    Except ToolError (Option String × Option String × Bool) :=
  match mode with
  | "open" | "new_task" => .ok (some ((title.or body).getD ""), none, false)
  | "reply" => .ok (none, taskId, !expectReply)
  | "yield" => .ok (some ((title.or body).getD "YIELD"), none, false)
  | "deliver" => .ok (none, taskId, false)
  | "terminal" | "deliver_terminal" => .ok (none, taskId, true)
  | _ => .error (.envelopeInvalid none)

def parseInput (input : Value) : Except ToolError SendArgs :=
  match textAt input "mode" with
  | none => .error (.envelopeInvalid (some "missing required field: mode (string)"))
  | some mode =>
    if (textAt input "peer").isNone && (textAt input "channel").isNone then
      .error (.envelopeInvalid (some "exactly one of peer or channel is required"))
    else do
      let moreComing ← flagAt input "more_coming" false
      let expectReply ← flagAt input "expect_reply" true
      let (newTask, task, terminal) ← modeFields mode (textAt input "task_id") (textAt input "title")
        (textAt input "body") expectReply
      return ⟨textAt input "peer", textAt input "channel", newTask, task, terminal, textAt input "body",
        moreComing, none⟩

/-! ## A host with a domain -/

def sampleFresh : Fresh := ⟨Uuid.nil, "2026-11-16T12:00:00Z", by decide +kernel⟩

def sampleHome : OwnDomain := ⟨some "own.example", none⟩

/-! ## What is written for a local target -/

theorem get?_local (args : SendArgs) (identity : String) (target : Target) (fresh : Fresh)
    (mode : SendMode) :
    ∀ member ∈ localMembers args identity target fresh mode,
      (localEnvelope args identity target fresh mode).val.get? member.1 = member.2.map Subtype.val :=
  get?_objectOf (by simp [localMembers])

/-! ## What is stripped -/

section Stripped
variable {SigningKey Key Signature : Type} {scheme : SigningScheme SigningKey Key Signature}
variable {K : Text} {printer : K.Printer} {throwaway : SigningKey}
variable {B : Type} [BodySchema B] [WireBody B] {wire : WireEnvelope B}

theorem remove_signature_document (signature : Signature) :
    (SignedEnvelope.document scheme ⟨wire, signature⟩).remove "signature" = wire.toValue :=
  Value.remove_insert wire.toValue_isObject _ wire.unsigned_toValue

theorem fromSlice_document {signature : Signature} {bytes : Bytes}
    {value : Value} (printed : SignedEnvelope.encode scheme printer ⟨wire, signature⟩ = .ok bytes)
    (read : K.fromSlice bytes = .ok value) :
    value = SignedEnvelope.document scheme ⟨wire, signature⟩ := by
  have shallow := printer.shallow_of_fromSlice printed read
  rw [Text.fromSlice_of_strict (printer.fromSliceStrict_toVec printed shallow)] at read
  exact (Except.ok.inj read).symm

theorem signThenStrip_ok {value : Value} (done : signThenStrip scheme K printer throwaway wire = .ok value) :
    value = wire.toValue := by
  unfold signThenStrip at done
  split at done
  next => cases done
  next signed signing =>
    obtain ⟨signature, -, rfl⟩ := ok_of_map signing
    split at done
    next => cases done
    next bytes printed =>
      split at done
      next => cases done
      next read =>
        rw [← Except.ok.inj done, fromSlice_document printed read, remove_signature_document]

end Stripped

/-! ## What is built for a remote target -/

inductive RemoteBuilt (args : SendArgs) (principal : ParsedPrincipal) (fresh : Fresh) : Value → Prop where
  | request {sender : ParsedPrincipal} {summary : String} : args.newTask = some summary →
      args.task = none → args.terminal = false →
      RemoteBuilt args principal fresh (requestFor sender principal fresh summary).toValue
  | commit {sender : ParsedPrincipal} {task : String} {id : Uuid} : args.newTask = none →
      args.task = some task → args.terminal = false → messageIdFromStr task = some id →
      RemoteBuilt args principal fresh (commitFor sender principal fresh id args.body).toValue
  | deliver {sender : ParsedPrincipal} {task : String} {id : Uuid} : args.newTask = none →
      args.task = some task → args.terminal = true → messageIdFromStr task = some id →
      RemoteBuilt args principal fresh (deliverFor sender principal fresh id args.body).toValue

theorem parseTaskId_ok {task : String} {id : Uuid} (parsed : parseTaskId task = .ok id) :
    messageIdFromStr task = some id := by
  unfold parseTaskId at parsed
  split at parsed
  next => cases parsed
  next found => rw [found, Except.ok.inj parsed]

theorem remoteBuilt {SigningKey Key Signature : Type} {scheme : SigningScheme SigningKey Key Signature}
    {K : Text} {printer : K.Printer} {throwaway : SigningKey} {args : SendArgs} {identity : String}
    {principal : ParsedPrincipal} {home : OwnDomain} {fresh : Fresh} {envelope : Value}
    (built : buildRemoteEnvelopeValue scheme K printer throwaway args identity principal home fresh =
      .ok envelope) : RemoteBuilt args principal fresh envelope := by
  unfold buildRemoteEnvelopeValue at built
  split at built
  next => cases built
  next =>
    split at built
    next => cases built
    next =>
      split at built
      next newTask task terminal =>
        obtain rfl := signThenStrip_ok built
        exact .request newTask task terminal
      next newTask task terminal =>
        split at built
        next => cases built
        next parsed =>
          obtain rfl := signThenStrip_ok built
          exact .commit newTask task terminal (parseTaskId_ok parsed)
      next newTask task terminal =>
        split at built
        next => cases built
        next parsed =>
          obtain rfl := signThenStrip_ok built
          exact .deliver newTask task terminal (parseTaskId_ok parsed)
      next => cases built

end Famp.Cli.Send
