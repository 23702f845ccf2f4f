import Famp.Bus.Guests
import Famp.Bus.System
import Famp.Data.Insertion

/-!
# Commands that look

`famp inbox list`, the inbox check of `famp wait-reply` and the timeout diagnostic of
`famp await` ask for the inbox of a name through a proxy connection.  The answer moves
the channel cursors that the proxy shares with the connection that holds the name, so
looking is silent where those channels are read to their ends, and not elsewhere.
-/

set_option autoImplicit false

namespace Famp.Cli

open Bus Famp.Core Data Json Std

/-! ## The commands -/

inductive Look where
  | list (since : Option Nat) (includeTerminal : Bool)
  | waitReply (task : Uuid)
  | timeoutDiagnostic (task : Uuid)
  deriving DecidableEq, Repr

def Look.request : Look → BusMessage
  | list since includeTerminal => .inbox since (some includeTerminal)
  | waitReply _ | timeoutDiagnostic _ => .inbox (some 0) (some true)

def isReplyForTask (envelope : Value) (task : Uuid) : Bool :=
  if (envelope.get? "class").bind Value.asStr? = some "request" then false
  else
    ((((envelope.get? "causality").bind fun cause => cause.get? "ref").bind Value.asStr?).bind
      Uuid.parseStr).any fun candidate => candidate == task

def Look.printed : Look → BusReply → List StampedEnvelope
  | list .., .inboxOk envelopes _ => envelopes
  | waitReply task, .inboxOk envelopes _ =>
    (envelopes.find? fun stamped => isReplyForTask stamped.envelope task).toList
  | _, _ => []

def printedTo (client : ClientId) (look : Look) (trace : List SystemEvent) : List StampedEnvelope :=
  trace.flatMap fun event => event.output.flatMap fun
    | .reply receiver reply => if receiver = client then look.printed reply else []
    | _ => []

/-- A step of such a command for `h`: a guest connects as a proxy of `h`, a proxy of `h`
asks where that is `allowed`, a guest leaves. -/
inductive IsLook (h : String) (guest : ClientId → Prop) (allowed : System → Prop) (s : System) :
    BrokerInput → Prop
  | connect {client : ClientId} {label : String} : guest client →
      IsLook h guest allowed s (.wire client (.hello busProtoVersion label (some h)))
  | ask {client : ClientId} {state : ClientState} (look : Look) : s.broker.clients[client]? = some state →
      state.name = none → state.bindAs = some h → allowed s →
      IsLook h guest allowed s (.wire client look.request)
  | leave {client : ClientId} : guest client → IsLook h guest allowed s (.disconnect client)

/-! ## What the holder is told -/

def Out.inboxOk? (client : ClientId) : Out → Option BusReply
  | .reply receiver (.inboxOk envelopes nextOffset) =>
    if receiver = client then some (.inboxOk envelopes nextOffset) else none
  | _ => none

/-- The answers to the requests that the holder of `h` makes itself. -/
def inboxReplies (h : String) (event : SystemEvent) : List BusReply :=
  match event.input.input with
  | .wire client (.inbox _ _) =>
    if canonicalHolderId event.before.broker h = some client then
      event.output.filterMap (Out.inboxOk? client)
    else []
  | _ => []

/-- Looks that are `allowed`, inserted anywhere into a run, leave the answers to the
holder as they were. -/
def LooksAreSilent (K : Text) (h : String) (guest : ClientId → Prop) (allowed : System → Prop) : Prop :=
  ∀ (boxes : InMemoryMailbox) (base looked : List SystemEvent) (s s' : System),
    (systemMachine K (· = boxes)).Run base s → (systemMachine K (· = boxes)).Run looked s' →
    Machine.Inserted (fun call => call.input.spares guest)
      (fun event => IsLook h guest allowed event.before event.input.input) base looked →
    looked.flatMap (inboxReplies h) = base.flatMap (inboxReplies h)

/-- Nothing is left to read in the channels that the holder of `h` has joined. -/
def ReadToEnd (h : String) (s : System) : Prop :=
  ∀ owner state, canonicalHolderId s.broker h = some owner → s.broker.clients[owner]? = some state →
    ∀ channel ∈ state.joined.toList,
      let cursor := inboxOffset s.broker owner (.channel channel)
      let drained := s.boxes.drainFrom (.channel channel) cursor
      drained.records = [] ∧ cursor ≤ drained.nextOffset

/-! ## Looking with nothing to read -/

variable {K : Text} {env : BrokerEnv} {client : ClientId} {h : String} {outs : List Out} {now : Nat}
  {t : BrokerState} {guest : ClientId → Prop} {s : System} {allowed : System → Prop}

theorem drainChannels_end {s : BrokerState} {owner : ClientId} {name : String} :
    ∀ {channels : List String} {envelopes : List StampedEnvelope} {advances : List (MailboxName × Nat)},
      (∀ channel ∈ channels, ∀ drained,
        env.drainFrom (.channel channel) (inboxOffset s owner (.channel channel)) = .ok drained →
          drained.records = [] ∧ inboxOffset s owner (.channel channel) ≤ drained.nextOffset) →
      drainChannels K env s owner name channels = .ok (envelopes, advances) → advances = []
  | [], _, _, _, drained => by
    obtain ⟨-, rfl⟩ := Prod.mk.inj (Except.ok.inj drained)
    rfl
  | channel :: rest, envelopes, advances, atEnd, drained => by
    obtain ⟨here, later⟩ := List.forall_mem_cons.mp atEnd
    unfold drainChannels at drained
    dsimp only at drained
    split at drained
    next => cases drained
    next first read =>
      split at drained
      next => cases drained
      next others advances' more =>
        obtain ⟨empty, inside⟩ := here first read
        obtain ⟨-, rfl⟩ := Prod.mk.inj (Except.ok.inj drained)
        rw [drainChannels_end later more]
        simp [drainChannel, empty, Nat.not_lt.mpr inside]

section Guest
variable {guest : ClientId → Prop} {s s' : BrokerState} (beside : Beside guest s s')
include beside

theorem touchActivity_beside (env : BrokerEnv) {state : ClientState}
    (stored : s'.clients[client]? = some state) (nameless : state.name = none) :
    Beside guest s (touchActivity env s' client) := by
  unfold touchActivity
  rw [stored]
  simp only [nameless, Option.isSome_none, Bool.false_eq_true, if_false]
  split
  next => exact beside
  next holder found =>
    split at found
    next => cases found
    next =>
      obtain ⟨bound, -, held⟩ := Option.bind_eq_some_iff.mp found
      rw [beside.canonicalHolderId_eq] at held
      exact { beside with
        toGuestsAmong := beside.toGuestsAmong.touch (beside.holder_not_guest held) env.wallClock }

theorem ask_beside {state : ClientState} {since : Option Nat} {includeTerminal : Option Bool}
    (stored : s'.clients[client]? = some state) (nameless : state.name = none)
    (bound : state.bindAs = some h)
    (atEnd : ∀ owner holder, canonicalHolderId s' h = some owner → s'.clients[owner]? = some holder →
      ∀ channel ∈ holder.joined.toList, ∀ drained,
        env.drainFrom (.channel channel) (inboxOffset s' owner (.channel channel)) = .ok drained →
          drained.records = [] ∧ inboxOffset s' owner (.channel channel) ≤ drained.nextOffset)
    (taken : handle K env s' (.wire client (.inbox since includeTerminal)) now = some (t, outs)) :
    Beside guest s t ∧ ∀ out ∈ outs, out.isAppend = false := by
  have touched := touchActivity_beside beside env stored nameless
  have plain : ∀ kind message, ∀ out ∈ [err client kind message], out.isAppend = false := by
    simp [err, Out.isAppend]
  simp only [handle, handleWire, BusMessage.isHello, BusMessage.defersActivity, dispatch, Bool.not_false,
    Bool.true_and, Bool.false_and, Bool.false_eq_true, if_false] at taken
  split at taken
  next =>
    cases taken
    exact ⟨beside, plain _ _⟩
  next =>
    unfold inbox at taken
    split at taken
    next =>
      cases taken
      exact ⟨touched, plain _ _⟩
    next name resolved =>
      dsimp only at taken
      split at taken
      next =>
        cases taken
        exact ⟨touched, plain _ _⟩
      next =>
        split at taken
        next => cases taken
        next owner held =>
          split at taken
          next =>
            cases taken
            exact ⟨touched, plain _ _⟩
          next envelopes advances drained =>
            split at taken
            next =>
              cases taken
              exact ⟨touched, plain _ _⟩
            next =>
              cases taken
              refine ⟨?_, by simp [Out.isAppend]⟩
              rw [(touchActivity_quiet env s' client).resolveOpIdentity_eq] at resolved
              obtain ⟨state', stored', -, effective, -⟩ := resolveOpIdentity_ok resolved
              obtain rfl := Option.some.inj (stored'.symm.trans stored)
              obtain rfl : h = name := by
                simpa [effectiveIdentity, nameless, bound] using effective
              have owns := touched.holder_not_guest ((touched.canonicalHolderId_eq h).symm.trans held)
              have held' : canonicalHolderId s' h = some owner := by
                rw [beside.canonicalHolderId_eq, ← touched.canonicalHolderId_eq, held]
              obtain ⟨holder, stored', -⟩ := canonicalHolderId_some held'
              have joined := (touched.joined_eq owns).trans (beside.joined_eq owns).symm
              have cursors : ∀ mailbox, inboxOffset (touchActivity env s' client) owner mailbox =
                  inboxOffset s' owner mailbox := fun mailbox =>
                (touched.inboxOffset_eq owns mailbox).trans (beside.inboxOffset_eq owns mailbox).symm
              rw [joined, stored'] at drained
              have stay : advances = [] := by
                refine drainChannels_end ?_ drained
                intro channel member read found
                rw [cursors] at found ⊢
                exact atEnd owner holder held' stored' channel member read found
              rw [stay]
              exact touched

theorem connect_beside {busProto : Nat} {label : String} {bindAs : Option String}
    (isGuest : guest client)
    (taken : handle K env s' (.wire client (.hello busProto label bindAs)) now = some (t, outs)) :
    Beside guest s t ∧ ∀ out ∈ outs, out.isAppend = false := by
  have arrived : ∀ bindAs, Beside guest s
      { s' with clients := s'.clients.insert client (freshClient env bindAs) } := fun bindAs =>
    { beside with toGuestsAmong := beside.toGuestsAmong.insertGuest isGuest rfl rfl }
  have answered : Beside guest s (hello env s' client busProto bindAs).1 ∧
      ∀ out ∈ (hello env s' client busProto bindAs).2, out.isAppend = false := by
    unfold hello
    split
    next => exact ⟨beside, by simp [Out.isAppend]⟩
    next =>
      split
      next =>
        split
        next => exact ⟨arrived _, by simp [Out.isAppend]⟩
        next => exact ⟨beside, by simp [Out.isAppend]⟩
      next => exact ⟨arrived _, by simp [Out.isAppend]⟩
  simp only [handle, handleWire, BusMessage.isHello, BusMessage.defersActivity, dispatch, Bool.not_true,
    Bool.true_and, Bool.false_and, Bool.false_eq_true, if_false, if_true] at taken
  split at taken
  next =>
    cases taken
    exact ⟨beside, by simp [err, Out.isAppend]⟩
  next =>
    rw [Option.some.inj taken] at answered
    exact answered

theorem leave_beside (isGuest : guest client)
    (taken : handle K env s' (.disconnect client) now = some (t, outs)) :
    Beside guest s t ∧ ∀ out ∈ outs, out.isAppend = false := by
  have ended : disconnect s' client = (dropClient s' client, [.releaseClient client]) := by
    unfold disconnect
    cases stored : s'.clients[client]? with
    | none => rfl
    | some state =>
      obtain ⟨nameless, -⟩ := beside.nameless client state isGuest stored
      simp [sessionSnapshot, nameless]
  have same : disconnect s' client = (t, outs) := Option.some.inj taken
  obtain ⟨rfl, rfl⟩ := Prod.mk.inj (ended.symm.trans same)
  refine ⟨?_, by simp [Out.isAppend]⟩
  exact {
    toGuestsAmong := beside.toGuestsAmong.eraseGuest isGuest
    channels := beside.channels
    roles := beside.roles
    pending := by
      refine ExtTreeMap.ext_getElem? fun id => ?_
      rw [dropClient, lookup_erase, beside.pending]
      split
      next other => rw [← other, beside.unparked client isGuest]
      next => rfl
    unparked := beside.unparked }

end Guest

/-! ## Runs with looks -/

theorem Look.request_eq (look : Look) : ∃ since includeTerminal, look.request = .inbox since includeTerminal := by
  cases look <;> exact ⟨_, _, rfl⟩

structure SystemBeside (guest : ClientId → Prop) (s s' : System) : Prop where
  broker : Beside guest s.broker s'.broker
  boxes : s'.boxes = s.boxes

theorem SystemBeside.look {filled : InMemoryMailbox → Prop} {s' t' : System} {call : Call}
    (beside : SystemBeside guest s s') (look : IsLook h guest (ReadToEnd h) s' call.input)
    (taken : (systemMachine K filled).step s' call outs t') : SystemBeside guest s t' := by
  obtain ⟨reads, handled, boxes⟩ := taken
  obtain ⟨env, input, now⟩ := call
  have stepped : Beside guest s.broker t'.broker ∧ ∀ out ∈ outs, out.isAppend = false := by
    cases look with
    | connect isGuest => exact connect_beside beside.broker isGuest handled
    | ask look stored nameless bound atEnd =>
      obtain ⟨since, includeTerminal, asked⟩ := look.request_eq
      rw [asked] at handled
      refine ask_beside beside.broker stored nameless bound ?_ handled
      intro owner holder held kept channel member drained read
      rw [reads _ _ _ read]
      exact atEnd owner holder held kept channel member
    | leave isGuest => exact leave_beside beside.broker isGuest handled
  refine ⟨stepped.1, ?_⟩
  rw [boxes, performAll_of_no_append K _ stepped.2, beside.boxes]

theorem inboxReplies_look {event : SystemEvent}
    (look : IsLook h guest allowed event.before event.input.input) : inboxReplies h event = [] := by
  obtain ⟨before, ⟨env, input, now⟩, output, after⟩ := event
  cases look with
  | connect => rfl
  | @ask client state look stored nameless bound _ =>
    obtain ⟨since, includeTerminal, asked⟩ := look.request_eq
    have notHolder : canonicalHolderId before.broker h ≠ some client := by
      intro held
      obtain ⟨holder, stored', -, named⟩ := canonicalHolderId_some held
      rw [stored] at stored'
      rw [← Option.some.inj stored', nameless] at named
      cases named
    simp only [inboxReplies, asked]
    rw [if_neg notHolder]
  | leave => rfl

theorem systemBeside_of_inserted {boxes : InMemoryMailbox} {base looked : List SystemEvent}
    {s' : System} (run : (systemMachine K (· = boxes)).Run base s)
    (run' : (systemMachine K (· = boxes)).Run looked s')
    (inserted : Machine.Inserted (fun call => call.input.spares guest)
      (fun event => IsLook h guest (ReadToEnd h) event.before event.input.input) base looked) :
    SystemBeside guest s s' ∧ looked.flatMap (inboxReplies h) = base.flatMap (inboxReplies h) := by
  refine Machine.Run.inserted (SystemBeside guest) (inboxReplies h) ?_ ?_ ?_ run run' inserted
  · rintro s s' ⟨⟨startedAt, started⟩, filled⟩ ⟨⟨startedAt', started'⟩, filled'⟩
    refine ⟨?_, filled'.trans filled.symm⟩
    rw [started, started']
    exact Beside.new startedAt startedAt'
  · rintro s s' ⟨env, input, now⟩ outs outs' t t' beside spares ⟨-, handled, stored⟩ ⟨-, handled', stored'⟩
    obtain ⟨next, same⟩ := handle_alike beside.broker spares handled handled'
    subst same
    refine ⟨⟨next, by rw [stored, stored', beside.boxes]⟩, ?_⟩
    simp only [inboxReplies, beside.broker.canonicalHolderId_eq]
  · intro s s' call outs t' beside look taken
    exact ⟨beside.look look taken, inboxReplies_look look⟩

/-- Looks are silent where the channels of the name are read to their ends. -/
theorem looks_are_silent_at_end (K : Text) (h : String) (guest : ClientId → Prop) :
    LooksAreSilent K h guest (ReadToEnd h) :=
  fun _ _ _ _ _ run run' inserted => (systemBeside_of_inserted run run' inserted).2

/-! ## A post that is looked at -/

theorem inserted_calls {boxes : InMemoryMailbox} :
    ∀ (calls : List Call) {base looked : List SystemEvent} {s s' : System},
      (∀ call ∈ calls, call.input.spares guest) →
      (systemMachine K (· = boxes)).Run base s → (systemMachine K (· = boxes)).Run looked s' →
      Machine.Inserted (fun call : Call => call.input.spares guest)
        (fun event => IsLook h guest (ReadToEnd h) event.before event.input.input) base looked →
      Machine.Inserted (fun call : Call => call.input.spares guest)
        (fun event => IsLook h guest (ReadToEnd h) event.before event.input.input)
        (base ++ systemEvents K s calls) (looked ++ systemEvents K s' calls)
  | [], _, _, _, _, _, _, _, inserted => by
    simp only [systemEvents, List.append_nil]
    exact inserted
  | call :: rest, _, _, s, s', spared, run, run', inserted => by
    obtain ⟨here, later⟩ := List.forall_mem_cons.mp spared
    have boxes := (systemBeside_of_inserted run run' inserted).1.boxes
    have next := inserted_calls rest later (run_append_systemCalls K [call] run)
      (run_append_systemCalls K [call] run') (inserted.both (by simp only [boxes]) here)
    rw [List.append_assoc, List.append_assoc] at next
    exact next

theorem inserted_looks {before looks : List Call}
    (spared : ∀ input ∈ before.map Call.input, input.spares guest)
    (looking : ∀ event ∈ systemEvents K (systemAfter K s before) looks,
      IsLook h guest allowed event.before event.input.input) :
    Machine.Inserted (fun call : Call => call.input.spares guest)
      (fun event => IsLook h guest allowed event.before event.input.input)
      (systemEvents K s before) (systemEvents K s (before ++ looks)) := by
  rw [systemEvents_append]
  refine (Machine.Inserted.refl _ ?_).append _ looking
  intro event member
  refine spared _ ?_
  rw [← map_input_systemEvents K before s]
  exact List.mem_map.mpr ⟨event, member, rfl⟩

def look : Look := .waitReply Uuid.nil

def lookCalls : List Call :=
  [.wire 3 (.hello 3 "cli" (some "alice")), .wire 3 look.request, .disconnect 3].map
    fun input => ⟨emptyEnv, input, 6⟩

theorem lookCalls_isLook (bound : (systemAfter K s (lookCalls.take 1)).broker.clients[3]?.any
      (fun state => state.name.isNone && state.bindAs == some "alice") = true)
    (fine : allowed (systemAfter K s (lookCalls.take 1))) :
    ∀ event ∈ systemEvents K s lookCalls,
      IsLook "alice" (· = 3) allowed event.before event.input.input := by
  have asks : IsLook "alice" (· = 3) allowed (systemAfter K s (lookCalls.take 1)) (.wire 3 look.request) := by
    cases stored : (systemAfter K s (lookCalls.take 1)).broker.clients[3]? with
    | none => simp [stored] at bound
    | some state =>
      simp only [stored, Option.any_some, Bool.and_eq_true, Option.isNone_iff_eq_none, beq_iff_eq] at bound
      exact .ask look stored bound.1 bound.2 fine
  intro event member
  simp only [lookCalls, List.map_cons, List.map_nil, systemEvents, List.mem_cons, List.not_mem_nil,
    or_false] at member
  rcases member with rfl | rfl | rfl
  · exact .connect rfl
  · exact asks
  · exact .leave rfl

def envelopeCount : BusReply → Nat
  | .inboxOk envelopes _ => envelopes.length
  | _ => 0

def postCall : Call :=
  ⟨emptyEnv, .wire 2 (.send (.channel "#a") (auditEntry "agent:example/bob" "agent:example/channel-a")), 8⟩

/-- A look after alice has polled the post is silent: she gets the next one. -/
theorem look_between_posts_is_silent :
    let told (calls : List Call) :=
      (systemEvents Plain.text firstSystem calls).flatMap (inboxReplies "alice")
    told (postedCalls ++ [pollCall] ++ lookCalls ++ [postCall, pollCall]) =
        told (postedCalls ++ [pollCall] ++ [postCall, pollCall]) ∧
      (told (postedCalls ++ [pollCall] ++ [postCall, pollCall])).map envelopeCount = [1, 1] := by
  have facts : (((systemEvents Plain.text firstSystem
        (postedCalls ++ [pollCall] ++ [postCall, pollCall])).flatMap
        (inboxReplies "alice")).map envelopeCount = [1, 1]) ∧
      ∃ t ∈ [systemAfter Plain.text (systemAfter Plain.text firstSystem (postedCalls ++ [pollCall]))
          (lookCalls.take 1)],
        (canonicalHolderId t.broker "alice" = some 1 ∧
          (t.broker.clients[1]?.map fun state => state.joined.toList) = some ["#a"] ∧
          t.broker.clients[3]?.any
            (fun state => state.name.isNone && state.bindAs == some "alice") = true) ∧
        (t.boxes.drainFrom (.channel "#a") (inboxOffset t.broker 1 (.channel "#a"))).records = [] ∧
        inboxOffset t.broker 1 (.channel "#a") ≤
          (t.boxes.drainFrom (.channel "#a") (inboxOffset t.broker 1 (.channel "#a"))).nextOffset := by
    decide +kernel
  obtain ⟨counts, t, here, ⟨holder, channels, bound⟩, read⟩ := facts
  obtain rfl := List.mem_singleton.mp here
  refine ⟨looks_are_silent_at_end Plain.text "alice" (· = 3) ∅ _ _ _ _
    (run_firstSystem _) (run_firstSystem _) ?_, counts⟩
  have polled : ReadToEnd "alice" (systemAfter Plain.text (systemAfter Plain.text firstSystem
      (postedCalls ++ [pollCall])) (lookCalls.take 1)) := by
    intro owner state held stored channel member
    obtain rfl : owner = 1 := Option.some.inj (held.symm.trans holder)
    rw [stored, Option.map_some, Option.some.injEq] at channels
    rw [channels] at member
    obtain rfl := List.mem_singleton.mp member
    exact read
  have before : ∀ input ∈ (postedCalls ++ [pollCall]).map Call.input, input.spares (· = 3) := by
    simp [postedCalls, joinedCalls, pollCall, BrokerInput.spares]
  have looked := inserted_looks before (lookCalls_isLook bound polled)
  have spared : ∀ call ∈ [postCall, pollCall], call.input.spares (· = 3) := by
    simp [postCall, pollCall, BrokerInput.spares]
  rw [systemEvents_append _ (postedCalls ++ [pollCall] ++ lookCalls),
    systemEvents_append _ (postedCalls ++ [pollCall]) [postCall, pollCall]]
  exact inserted_calls _ spared (run_firstSystem _) (run_firstSystem _) looked

/-- The look prints nothing, and alice does not get the post any more. -/
theorem looked_at_post_is_lost :
    ¬LooksAreSilent Plain.text "alice" (· = 3) (fun _ => True) ∧
      printedTo 3 look
        (systemEvents Plain.text (systemAfter Plain.text firstSystem postedCalls) lookCalls) = [] := by
  have facts :
      ((systemEvents Plain.text firstSystem (postedCalls ++ [pollCall])).flatMap
        (inboxReplies "alice")).map envelopeCount = [1] ∧
      ((systemEvents Plain.text firstSystem (postedCalls ++ lookCalls ++ [pollCall])).flatMap
        (inboxReplies "alice")).map envelopeCount = [0] ∧
      (systemAfter Plain.text (systemAfter Plain.text firstSystem postedCalls)
        (lookCalls.take 1)).broker.clients[3]?.any
        (fun state => state.name.isNone && state.bindAs == some "alice") = true ∧
      (∀ event ∈ systemEvents Plain.text (systemAfter Plain.text firstSystem postedCalls) lookCalls,
        ∀ out ∈ event.output, out.isAppend = false) ∧
      (printedTo 3 look
        (systemEvents Plain.text (systemAfter Plain.text firstSystem postedCalls) lookCalls)).isEmpty = true := by
    decide +kernel
  obtain ⟨told, lost, bound, plain, unprinted⟩ := facts
  refine ⟨fun silent => ?_, List.isEmpty_iff.mp unprinted⟩
  have spared : ∀ input ∈ postedCalls.map Call.input, input.spares (· = 3) := by
    simp [postedCalls, joinedCalls, BrokerInput.spares]
  have boxes := boxes_systemAfter Plain.text lookCalls plain
  rw [← systemAfter_append] at boxes
  have same := silent ∅ _ _ _ _ (run_firstSystem (postedCalls ++ [pollCall]))
    (run_firstSystem (postedCalls ++ lookCalls ++ [pollCall])) (by
      rw [systemEvents_append, systemEvents_append _ (postedCalls ++ lookCalls)]
      refine .both (inserted_looks spared (lookCalls_isLook bound trivial)) (by simp only [boxes]) ?_
      simp [pollCall, BrokerInput.spares])
  rw [same, told] at lost
  cases lost

end Famp.Cli
