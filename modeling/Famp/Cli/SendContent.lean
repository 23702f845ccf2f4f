import Famp.Cli.Send
import Famp.Json.Plain

/-!
# What a send keeps of its arguments

A local envelope holds every text and every flag of the arguments.  A remote one holds
the summary of a new task, or the task and the body of a reply: the body of a new task
and the flag that more is coming are dropped.
-/

set_option autoImplicit false

namespace Famp.Cli.Send

open Bus Famp.Core Data Envelope Json Json.Serde

/-! ## Contents -/

/-- An envelope without its id and its time. -/
def content (envelope : Value) : Value := (envelope.remove "id").remove "ts"

theorem get?_of_content {a b : Value} (same : content a = content b) {key : String} (id : key ≠ "id")
    (ts : key ≠ "ts") : a.val.get? key = b.val.get? key := by
  have kept : ∀ value : Value, (content value).val.get? key = value.val.get? key := by
    intro value
    change ((value.val.remove "id").remove "ts").get? key = _
    rw [Tree.get?_remove ts, Tree.get?_remove id]
  rw [← kept a, ← kept b, same]

/-- Task ids of a remote send are compared as they are parsed. -/
def SameTask (remote : Option ParsedPrincipal) (a b : Option String) : Prop :=
  match remote with
  | none => a = b
  | some _ => a.map messageIdFromStr = b.map messageIdFromStr

structure Agree (remote : Option ParsedPrincipal) (a b : SendArgs) : Prop where
  newTask : a.newTask = b.newTask
  task : SameTask remote a.task b.task
  terminal : a.terminal = b.terminal
  body : a.body = b.body
  moreComing : a.moreComing = b.moreComing

def textAlong : List String → Tree → Option String
  | [], tree => tree.asStr?
  | key :: rest, tree => (tree.get? key).bind (textAlong rest)

/-- Some member of the envelope is the text. -/
def Contains (envelope : Value) (text : String) : Prop := ∃ path, textAlong path envelope.val = some text

/-- The arguments that an envelope carries: all of them to a local target; to a remote one
a reply or a new task on which nothing more is to come, the new task without a body. -/
def Carries (remote : Option ParsedPrincipal) (args : SendArgs) : Prop :=
  match remote with
  | none => True
  | some _ => args.moreComing = false ∧ (args.newTask.isSome = true → args.body = none)

section Claim
variable {SigningKey Key Signature : Type} (scheme : SigningScheme SigningKey Key Signature)
variable (K : Text) (printer : K.Printer) (throwaway : SigningKey)

/-- Nothing of the arguments is lost in the envelope that is built for them. -/
structure KeepsContent (identity : String) (home : OwnDomain) (target : Target)
    (remote : Option ParsedPrincipal) (args : SendArgs) (envelope : Value) : Prop where
  /-- Arguments that are carried to an equal envelope are the same. -/
  injective : ∀ (other : SendArgs) (fresh : Fresh) (envelope' : Value), Carries remote other →
    buildEnvelopeValue scheme K printer throwaway other identity target remote home fresh =
      .ok envelope' →
    content envelope = content envelope' → Agree remote args other
  /-- For the tool, an opened thread has its title and its body. -/
  opened : ∀ (input : Value) (title body : String), parseInput input = .ok args →
    textAt input "mode" = some "open" → remotePrincipal args = .ok remote →
    targetOf args remote = .ok target → textAt input "title" = some title →
    textAt input "body" = some body → Contains envelope title ∧ Contains envelope body

end Claim

/-! ## Local envelopes -/

theorem str_map_injective {a b : Option String}
    (same : (a.map Value.str).map Subtype.val = (b.map Value.str).map Subtype.val) : a = b := by
  cases a <;> cases b <;> simp_all [Value.str]

theorem flag_injective {a b : Bool} (same : (flag a).map Subtype.val = (flag b).map Subtype.val) : a = b := by
  cases a <;> cases b <;> first | rfl | cases same

theorem member_eq {members members' : List (String × Option Value)} {key : String} {a b : Option Value}
    (same : (objectOf members).val = (objectOf members').val) (distinct : (members.map Prod.fst).Nodup)
    (distinct' : (members'.map Prod.fst).Nodup) (here : (key, a) ∈ members) (there : (key, b) ∈ members') :
    a.map Subtype.val = b.map Subtype.val := by
  have first := get?_objectOf distinct _ here
  rw [same, get?_objectOf distinct' _ there] at first
  exact first.symm

theorem get?_payload (args : SendArgs) (mode : SendMode) : ∀ member ∈ payloadMembers args mode,
    (buildInnerPayload args mode).val.get? member.1 = member.2.map Subtype.val :=
  get?_objectOf (by simp [payloadMembers])

theorem get?_details (args : SendArgs) (identity : String) (target : Target) (fresh : Fresh)
    (mode : SendMode) :
    ((localEnvelope args identity target fresh mode).val.get? "body").bind (Tree.get? "details") =
      some (buildInnerPayload args mode).val := by
  have body := get?_local args identity target fresh mode
    ("body", some (objectOf (localBodyMembers args mode))) (by simp [localMembers])
  have details : (objectOf (localBodyMembers args mode)).val.get? "details" = _ :=
    get?_objectOf (by simp [localBodyMembers]) ("details", some (buildInnerPayload args mode)) (by simp [localBodyMembers])
  rw [body]
  exact details

theorem agree_of_payload {a b : SendArgs} {mode mode' : SendMode}
    (same : (buildInnerPayload a mode).val = (buildInnerPayload b mode').val) : Agree none a b := by
  have at_key := @member_eq (payloadMembers a mode) (payloadMembers b mode')
  constructor
  · refine str_map_injective (@at_key "summary" _ _ same ?_ ?_ ?_ ?_) <;> simp [payloadMembers]
  · refine str_map_injective (@at_key "task" _ _ same ?_ ?_ ?_ ?_) <;> simp [payloadMembers]
  · refine flag_injective (@at_key "terminal" _ _ same ?_ ?_ ?_ ?_) <;> simp [payloadMembers]
  · refine str_map_injective (@at_key "body" _ _ same ?_ ?_ ?_ ?_) <;> simp [payloadMembers]
  · refine flag_injective (@at_key "more_coming" _ _ same ?_ ?_ ?_ ?_) <;> simp [payloadMembers]

theorem contains_of_payload {args : SendArgs} {identity : String} {target : Target} {fresh : Fresh}
    {mode : SendMode} {key text : String} (member : (key, some (Value.str text)) ∈ payloadMembers args mode) :
    Contains (localEnvelope args identity target fresh mode) text := by
  refine ⟨["body", "details", key], ?_⟩
  have details := get?_details args identity target fresh mode
  obtain ⟨body, found, inner⟩ := Option.bind_eq_some_iff.mp details
  have last := get?_payload args mode (key, some (Value.str text)) member
  simp only [textAlong, found, inner, Option.bind_some]
  rw [last]
  rfl

/-! ## The tool -/

theorem parseInput_open {input : Value} {args : SendArgs} {title body : String}
    (parsed : parseInput input = .ok args) (mode : textAt input "mode" = some "open")
    (titled : textAt input "title" = some title) (bodied : textAt input "body" = some body) :
    args.newTask = some title ∧ args.task = none ∧ args.terminal = false ∧ args.body = some body := by
  simp only [parseInput, mode, titled, bodied] at parsed
  split at parsed
  next => cases parsed
  next =>
    simp only [bind, Except.bind, modeFields, pure, Except.pure] at parsed
    split at parsed
    next => cases parsed
    next =>
      split at parsed
      next => cases parsed
      next =>
        cases parsed
        exact ⟨rfl, rfl, rfl, rfl⟩

/-! ## Remote envelopes -/

section Remote
variable {SigningKey Key Signature : Type} {scheme : SigningScheme SigningKey Key Signature}
variable {K : Text} {printer : K.Printer} {throwaway : SigningKey}

theorem className_eq {B B' : Type} [BodySchema B] [WireBody B] [BodySchema B'] [WireBody B']
    {wire : WireEnvelope B} {wire' : WireEnvelope B'} (same : content wire.toValue = content wire'.toValue) :
    wire.messageClass.name = wire'.messageClass.name := by
  have classes := get?_of_content same (show "class" ≠ "id" by decide) (by decide)
  rw [wire.get?_toValue ("class", some (.str wire.messageClass.name)) (by simp [WireEnvelope.members]),
    wire'.get?_toValue ("class", some (.str wire'.messageClass.name)) (by simp [WireEnvelope.members])]
    at classes
  exact Tree.str.inj (Option.some.inj classes)

theorem body_eq {B : Type} [BodySchema B] [WireBody B] {wire wire' : WireEnvelope B}
    (same : content wire.toValue = content wire'.toValue) :
    (WireBody.toValue wire.body).val = (WireBody.toValue wire'.body).val := by
  have bodies := get?_of_content same (show "body" ≠ "id" by decide) (by decide)
  rw [wire.get?_toValue ("body", some (WireBody.toValue wire.body)) (by simp [WireEnvelope.members]),
    wire'.get?_toValue ("body", some (WireBody.toValue wire'.body)) (by simp [WireEnvelope.members])]
    at bodies
  exact Option.some.inj bodies

theorem referenced_eq {B : Type} [BodySchema B] [WireBody B] {wire wire' : WireEnvelope B}
    {causality causality' : Causality} (cause : wire.causality = some causality)
    (cause' : wire'.causality = some causality') (same : content wire.toValue = content wire'.toValue) :
    causality.referenced = causality'.referenced := by
  have causes := get?_of_content same (show "causality" ≠ "id" by decide) (by decide)
  rw [wire.get?_toValue ("causality", some causality.toValue) (by simp [WireEnvelope.members, cause]),
    wire'.get?_toValue ("causality", some causality'.toValue) (by simp [WireEnvelope.members, cause'])]
    at causes
  have read : ∀ causality : Causality,
      causality.toValue.val.get? "ref" = some (.str causality.referenced.hyphenated) := fun causality =>
    get?_objectOf (by simp) ("ref", some (Value.str causality.referenced.hyphenated)) (by simp)
  have texts := read causality
  rw [show causality.toValue.val = causality'.toValue.val from Option.some.inj causes, read] at texts
  have parsed := Uuid.messageIdFromStr_hyphenated causality.referenced
  rw [← Tree.str.inj (Option.some.inj texts), Uuid.messageIdFromStr_hyphenated] at parsed
  exact (Option.some.inj parsed).symm

/-- What a remote envelope does keep. -/
structure Kept (a b : SendArgs) : Prop where
  newTask : a.newTask = b.newTask
  task : a.task.map messageIdFromStr = b.task.map messageIdFromStr
  terminal : a.terminal = b.terminal
  body : a.newTask = none → a.body = b.body

theorem result_injective {a b : Option String}
    (same : (a.map fun text => objectOf [("text", some (.str text))]).map Subtype.val =
      (b.map fun text => objectOf [("text", some (.str text))]).map Subtype.val) : a = b := by
  have read : ∀ text : String, (objectOf [("text", some (.str text))]).val.get? "text" = some (.str text) :=
    fun text => get?_objectOf (by simp) ("text", some (Value.str text)) (by simp)
  cases a with
  | none => cases b with
    | none => rfl
    | some _ => cases same
  | some first => cases b with
    | none => cases same
    | some second =>
      have texts := read first
      rw [show (objectOf [("text", some (.str first))]).val = _ from Option.some.inj same, read] at texts
      rw [Tree.str.inj (Option.some.inj texts)]

theorem kept_of_remoteBuilt {a b : SendArgs} {principal : ParsedPrincipal} {fresh fresh' : Fresh}
    {envelope envelope' : Value} (built : RemoteBuilt a principal fresh envelope)
    (built' : RemoteBuilt b principal fresh' envelope') (same : content envelope = content envelope') :
    Kept a b := by
  cases built with
  | @request sender summary newTask task terminal =>
    cases built' with
    | @request sender' summary' newTask' task' terminal' =>
      have summaries : some summary = some summary' := by
        refine str_map_injective (@member_eq _ _ "natural_language_summary" _ _ (body_eq same) ?_ ?_ ?_ ?_) <;>
          simp [requestFor, UnsignedEnvelope.new]
      exact ⟨by rw [newTask, newTask', summaries], by rw [task, task'], by rw [terminal, terminal'],
        fun none => by rw [newTask] at none; cases none⟩
    | commit => exact absurd (className_eq same) (show ("request" : String) ≠ "commit" by decide)
    | deliver => exact absurd (className_eq same) (show ("request" : String) ≠ "deliver" by decide)
  | @commit sender task id newTask found terminal parsed =>
    cases built' with
    | request => exact absurd (className_eq same) (show ("commit" : String) ≠ "request" by decide)
    | @commit sender' task' id' newTask' found' terminal' parsed' =>
      have ids : id = id' := referenced_eq rfl rfl same
      have bodies : a.body = b.body := by
        refine str_map_injective (@member_eq _ _ "natural_language_summary" _ _ (body_eq same) ?_ ?_ ?_ ?_) <;>
          simp [commitFor, UnsignedEnvelope.new, WireEnvelope.withCausality]
      exact ⟨by rw [newTask, newTask'], by simp only [found, found', Option.map_some, parsed, parsed', ids],
        by rw [terminal, terminal'], fun _ => bodies⟩
    | deliver => exact absurd (className_eq same) (show ("commit" : String) ≠ "deliver" by decide)
  | @deliver sender task id newTask found terminal parsed =>
    cases built' with
    | request => exact absurd (className_eq same) (show ("deliver" : String) ≠ "request" by decide)
    | commit => exact absurd (className_eq same) (show ("deliver" : String) ≠ "commit" by decide)
    | @deliver sender' task' id' newTask' found' terminal' parsed' =>
      have ids : id = id' := referenced_eq rfl rfl same
      have bodies : a.body = b.body := by
        refine result_injective (@member_eq _ _ "result" _ _ (body_eq same) ?_ ?_ ?_ ?_) <;>
          simp [deliverFor, UnsignedEnvelope.new, WireEnvelope.withCausality,
            WireEnvelope.withTerminalStatus]
      exact ⟨by rw [newTask, newTask'], by simp only [found, found', Option.map_some, parsed, parsed', ids],
        by rw [terminal, terminal'], fun _ => bodies⟩

variable {identity : String} {home : OwnDomain} {fresh fresh' : Fresh} {envelope envelope' : Value}

theorem kept_of_remote {a b : SendArgs} {principal : ParsedPrincipal}
    (built : buildRemoteEnvelopeValue scheme K printer throwaway a identity principal home fresh =
      .ok envelope)
    (built' : buildRemoteEnvelopeValue scheme K printer throwaway b identity principal home fresh' =
      .ok envelope')
    (same : content envelope = content envelope') : Kept a b :=
  kept_of_remoteBuilt (remoteBuilt built) (remoteBuilt built') same

/-! ## What is kept -/

/-- What the remote builder reads of the arguments. -/
def carried (args : SendArgs) : SendArgs :=
  { args with moreComing := false, body := if args.newTask.isSome then none else args.body }

theorem carries_carried (principal : ParsedPrincipal) (args : SendArgs) :
    Carries (some principal) (carried args) :=
  ⟨rfl, fun opened => if_pos opened⟩

theorem buildRemoteEnvelopeValue_carried (args : SendArgs) (principal : ParsedPrincipal) :
    buildRemoteEnvelopeValue scheme K printer throwaway (carried args) identity principal home fresh =
      buildRemoteEnvelopeValue scheme K printer throwaway args identity principal home fresh := by
  obtain ⟨peer, channel, newTask, task, terminal, body, moreComing, domain⟩ := args
  cases newTask <;> cases task <;> cases terminal <;> rfl

theorem agree_of_carries {a b : SendArgs} {target : Target} {remote : Option ParsedPrincipal}
    (carries : Carries remote a) (carries' : Carries remote b)
    (built : buildEnvelopeValue scheme K printer throwaway a identity target remote home fresh =
      .ok envelope)
    (built' : buildEnvelopeValue scheme K printer throwaway b identity target remote home fresh' =
      .ok envelope')
    (same : content envelope = content envelope') : Agree remote a b := by
  cases remote with
  | some principal =>
    obtain ⟨newTask, task, terminal, body⟩ :=
      kept_of_remoteBuilt (remoteBuilt built) (remoteBuilt built') same
    refine ⟨newTask, task, terminal, ?_, carries.1.trans carries'.1.symm⟩
    cases opens : a.newTask with
    | none => exact body opens
    | some title => rw [carries.2 (by simp [opens]), carries'.2 (by simp [← newTask, opens])]
  | none =>
    simp only [buildEnvelopeValue] at built built'
    split at built
    next => cases built
    next mode _ =>
      split at built'
      next => cases built'
      next mode' _ =>
        cases built
        cases built'
        have bodies := get?_of_content same (show "body" ≠ "id" by decide) (by decide)
        have details := get?_details a identity target fresh mode
        rw [bodies, get?_details] at details
        exact agree_of_payload (Option.some.inj details).symm

/-- An envelope keeps the content of its arguments exactly when they are ones that it
carries: for any others, the arguments that it does carry give the same envelope. -/
theorem keepsContent_iff {args : SendArgs} {target : Target} {remote : Option ParsedPrincipal}
    (built : buildEnvelopeValue scheme K printer throwaway args identity target remote home fresh =
      .ok envelope) :
    KeepsContent scheme K printer throwaway identity home target remote args envelope ↔
      Carries remote args := by
  constructor
  · intro keeps
    cases remote with
    | none => trivial
    | some principal =>
      have agree := keeps.injective (carried args) fresh envelope (carries_carried principal args)
        ((buildRemoteEnvelopeValue_carried args principal).trans built) rfl
      exact ⟨agree.moreComing, fun opens => agree.body.trans (if_pos opens)⟩
  · intro carries
    refine ⟨fun other fresh' envelope' carries' built' same =>
      agree_of_carries carries carries' built built' same, ?_⟩
    intro input title body parsed mode _ _ titled bodied
    obtain ⟨newTask, -, -, kept⟩ := parseInput_open parsed mode titled bodied
    cases remote with
    | some principal =>
      have dropped := carries.2 (by simp [newTask])
      rw [kept] at dropped
      cases dropped
    | none =>
      simp only [buildEnvelopeValue] at built
      split at built
      next => cases built
      next =>
        cases built
        constructor
        · refine @contains_of_payload _ _ _ _ _ "summary" _ ?_
          simp [payloadMembers, newTask]
        · refine @contains_of_payload _ _ _ _ _ "body" _ ?_
          simp [payloadMembers, kept]

end Remote

/-! ## A thread on another host -/

def samplePeer : ParsedPrincipal := ⟨⟨"peer.example", "bob"⟩, by decide +kernel⟩

def openInput (body : Option String) : Value :=
  objectOf [("mode", some (.str "open")), ("peer", some (.str "agent:peer.example/bob")),
    ("title", some (.str "Greet")), ("body", body.map Value.str)]

def openedArgs (body : Option String) : SendArgs :=
  ⟨some "agent:peer.example/bob", none, some "Greet", none, false, body, false, none⟩

/-- A reply that ends the task; the id of the task may be in capitals. -/
def endedArgs (task : String) : SendArgs :=
  ⟨some "agent:peer.example/bob", none, none, some task, true, some "done", false, none⟩

/-- What alice of `own.example` sends to bob of `peer.example`. -/
def built (args : SendArgs) : Option Value :=
  (buildRemoteEnvelopeValue SigningScheme.byLength Plain.doubles Plain.doublesPrinter 2 args "alice"
    samplePeer sampleHome sampleFresh).toOption

theorem built_eq_some {args : SendArgs} {envelope : Value} (done : built args = some envelope) :
    buildRemoteEnvelopeValue SigningScheme.byLength Plain.doubles Plain.doublesPrinter 2 args "alice"
      samplePeer sampleHome sampleFresh = .ok envelope := by
  unfold built at done
  cases result : buildRemoteEnvelopeValue SigningScheme.byLength Plain.doubles Plain.doublesPrinter 2
      args "alice" samplePeer sampleHome sampleFresh with
  | error error => rw [result] at done; cases done
  | ok value => rw [result] at done; rw [Option.some.inj done]

theorem exists_built_pair {a b : SendArgs} (done : (built a).isSome = true)
    (same : built a = built b) : ∃ envelope, built a = some envelope ∧ built b = some envelope := by
  obtain ⟨envelope, first⟩ := Option.isSome_iff_exists.mp done
  exact ⟨envelope, first, same.symm.trans first⟩

theorem opened_built : ∃ envelope, built (openedArgs (some "Say hello to everyone.")) = some envelope ∧
    built (openedArgs none) = some envelope :=
  exists_built_pair (by decide +kernel) (by decide +kernel)

theorem ended_built : ∃ envelope,
    built (endedArgs "0190abcd-0000-7000-8000-00000000000a") = some envelope ∧
      built (endedArgs "0190ABCD-0000-7000-8000-00000000000A") = some envelope :=
  exists_built_pair (by decide +kernel) (by decide +kernel)

theorem sent_remotely_keeps_title_and_task :
    (∃ envelope, built (openedArgs (some "Say hello to everyone.")) = some envelope ∧
      built (openedArgs none) = some envelope ∧
      Kept (openedArgs (some "Say hello to everyone.")) (openedArgs none)) ∧
    ∃ envelope, built (endedArgs "0190abcd-0000-7000-8000-00000000000a") = some envelope ∧
      built (endedArgs "0190ABCD-0000-7000-8000-00000000000A") = some envelope ∧
      Kept (endedArgs "0190abcd-0000-7000-8000-00000000000a")
        (endedArgs "0190ABCD-0000-7000-8000-00000000000A") := by
  obtain ⟨envelope, first, second⟩ := opened_built
  obtain ⟨envelope', first', second'⟩ := ended_built
  exact ⟨⟨envelope, first, second, kept_of_remote (built_eq_some first) (built_eq_some second) rfl⟩,
    envelope', first', second', kept_of_remote (built_eq_some first') (built_eq_some second') rfl⟩

theorem ended_keepsContent : ∃ envelope,
    built (endedArgs "0190abcd-0000-7000-8000-00000000000a") = some envelope ∧
      KeepsContent SigningScheme.byLength Plain.doubles Plain.doublesPrinter 2 "alice" sampleHome
        (.agent "bob") (some samplePeer) (endedArgs "0190abcd-0000-7000-8000-00000000000a")
        envelope := by
  obtain ⟨envelope, done, -⟩ := ended_built
  have sent : buildEnvelopeValue SigningScheme.byLength Plain.doubles Plain.doublesPrinter 2
      (endedArgs "0190abcd-0000-7000-8000-00000000000a") "alice" (.agent "bob") (some samplePeer)
      sampleHome sampleFresh = .ok envelope := by
    simp only [buildEnvelopeValue]
    exact built_eq_some done
  exact ⟨envelope, done, (keepsContent_iff sent).mpr ⟨rfl, nofun⟩⟩

/-- With a body and without, the envelope is the same. -/
theorem opened_remotely_without_body :
    parseInput (openInput (some "Say hello to everyone.")) = .ok (openedArgs (some "Say hello to everyone.")) ∧
      parseInput (openInput none) = .ok (openedArgs none) ∧
      remotePrincipal (openedArgs none) = .ok (some samplePeer) ∧
      targetOf (openedArgs none) (some samplePeer) = .ok (.agent "bob") ∧
      (∃ envelope, built (openedArgs (some "Say hello to everyone.")) = some envelope ∧
        built (openedArgs none) = some envelope) ∧
      ¬Agree (some samplePeer) (openedArgs (some "Say hello to everyone.")) (openedArgs none) := by
  refine ⟨by decide +kernel, by decide +kernel, by decide +kernel, by decide +kernel, opened_built, ?_⟩
  intro agree
  cases agree.body

end Famp.Cli.Send
