import Famp.Bus.Cursors

/-!
# The broker and its mailboxes

The broker stages its appends, and the executor performs them before the next input.
A step of the system is a call of the broker, whose reads see the mailboxes, and the
appends that it stages.  A read may fail, and nothing but these appends changes a
mailbox.
-/

set_option autoImplicit false

namespace Famp.Bus

open Famp.Core Json Data Std

structure System where
  broker : BrokerState
  boxes : InMemoryMailbox

/-- What the executor does to the mailboxes for one effect. -/
def perform (K : Text) (boxes : InMemoryMailbox) : Out → InMemoryMailbox
  | .appendMailbox target line origin =>
    match stampLine K line origin with
    | .ok stamped => boxes.append target stamped
    | .error _ => boxes
  | _ => boxes

def performAll (K : Text) (boxes : InMemoryMailbox) (outs : List Out) : InMemoryMailbox :=
  outs.foldl (perform K) boxes

/-- A read that succeeds returns what is in the mailboxes. -/
def ReadsStore (env : BrokerEnv) (boxes : InMemoryMailbox) : Prop :=
  ∀ name since drained, env.drainFrom name since = .ok drained → drained = boxes.drainFrom name since

/-- The system, started on mailboxes that satisfy `filled`. -/
def systemMachine (K : Text) (filled : InMemoryMailbox → Prop) : Machine System Call (List Out) where
  initial s := (∃ startedAt, s.broker = BrokerState.new startedAt) ∧ filled s.boxes
  step s call outs s' :=
    ReadsStore call.env s.boxes ∧
      handle K call.env s.broker call.input call.now = some (s'.broker, outs) ∧
      s'.boxes = performAll K s.boxes outs

abbrev SystemEvent := Event System Call (List Out)

/-! ## The broker in a run of the system -/

def brokerEvent (event : SystemEvent) : BrokerEvent :=
  ⟨event.before.broker, event.input, event.output, event.after.broker⟩

variable {K : Text} {filled : InMemoryMailbox → Prop} {env : BrokerEnv} {s s' : BrokerState}
  {now : Nat} {outs : List Out}

variable {trace : List SystemEvent} {input : BrokerInput} {client : ClientId} {target : Target}
  {envelope : Value} {id : Uuid} {rows : List Delivered}

theorem broker_run {s : System} (run : (systemMachine K filled).Run trace s) :
    (brokerMachine K).Run (trace.map brokerEvent) s.broker := by
  induction run with
  | start initial => exact .start initial.1
  | step run taken ih =>
    rw [List.map_append]
    exact ih.step taken.2.1

theorem StateInvariant.of_system {s : System} (run : (systemMachine K filled).Run trace s) :
    StateInvariant s.broker :=
  StateInvariant.of_run (broker_run run)

/-! ## Appends -/

def Out.isAppend : Out → Bool
  | .appendMailbox .. => true
  | _ => false

theorem performAll_of_no_append (K : Text) : ∀ {outs : List Out} (boxes : InMemoryMailbox),
    (∀ out ∈ outs, out.isAppend = false) → performAll K boxes outs = boxes
  | [], _, _ => rfl
  | out :: rest, boxes, plain => by
    obtain ⟨first, later⟩ := List.forall_mem_cons.mp plain
    have same : perform K boxes out = boxes := by
      cases out <;> first | rfl | cases first
    rw [performAll, List.foldl_cons, same]
    exact performAll_of_no_append K boxes later

theorem turns_no_append (K : Text) (env : BrokerEnv) (mailbox : MailboxName) (reader : Option String)
    (trigger : Trigger) : ∀ (waits : List (ClientId × AwaitFilter)) (cursor : Option Nat),
      ∀ out ∈ (turns K env mailbox reader trigger cursor waits).2, out.isAppend = false
  | [], _, _, staged => by cases staged
  | (waiting, filter) :: rest, cursor, out, staged => by
    simp only [turns, List.mem_cons] at staged
    rcases staged with rfl | rfl | later
    · rfl
    · rfl
    · exact turns_no_append K env mailbox reader trigger rest _ out later

/-- An input stages no append, or it is an accepted `Send`, which stages its append
first and no other. -/
theorem handle_appends (inv : StateInvariant s)
    (taken : handle K env s input now = some (s', outs)) :
    (∀ out ∈ outs, out.isAppend = false) ∨
      ∃ client target envelope identity line stamped rest,
        input = .wire client (.send target envelope) ∧
        SendAccepted K env s client envelope identity line stamped ∧
        outs = .appendMailbox target.mailbox line (clientOrigin s client) :: rest ∧
        ∀ out ∈ rest, out.isAppend = false := by
  have others : ∀ out : Out, out.isSessionEnd = true ∨ out.isExpiry = true ∨
      (∃ client, out.isReport client = true) → out.isAppend = false := by
    intro out kind
    cases out <;> simp_all [Out.isSessionEnd, Out.isExpiry, Out.isReport, Out.isAppend]
  cases handle_handled taken with
  | refused _ _ => exact Or.inl (by simp [Out.isAppend])
  | report _ report =>
    left
    intro out staged
    obtain rfl := List.mem_singleton.mp staged
    exact others _ (Or.inr (Or.inr ⟨_, report⟩))
  | hello _ _ => exact Or.inl (by simp [Out.isAppend])
  | register _ _ _ _ _ _ => exact Or.inl (by simp [Out.isAppend])
  | @send client target envelope identity line stamped t touched resolved own canonical small stamps =>
    subst touched
    obtain ⟨accepted, rows, outs, -⟩ := handled_send inv taken
      ⟨resolved, own, canonical, small, stamps⟩
    refine Or.inr ⟨client, target, envelope, identity, line, stamped, _, rfl, accepted, outs, ?_⟩
    intro out staged
    rcases List.mem_append.mp staged with woken | answer
    · obtain ⟨name, -, woken⟩ := List.mem_flatMap.mp woken
      exact turns_no_append K env _ _ _ _ _ out woken
    · rw [List.mem_singleton.mp answer]
      rfl
  | inbox _ _ _ _ _ _ => exact Or.inl (by simp [Out.isAppend])
  | await _ _ _ run =>
    left
    rcases awaitLoop_outs run with ⟨_, _, rfl⟩ | ⟨_, _, _, rfl⟩ <;> simp [Out.isAppend]
  | park _ _ _ _ _ => exact Or.inl (by simp [Out.isAppend])
  | join _ _ _ _ _ => exact Or.inl (by simp [Out.isAppend])
  | leave _ _ _ => exact Or.inl (by simp [Out.isAppend])
  | disconnect => exact Or.inl fun out staged => others out (Or.inl (disconnect_outs _ _ out staged))
  | tick =>
    refine Or.inl fun out staged => others out ?_
    exact (tick_outs _ _ _ out staged).imp_right Or.inl

theorem accepted_of_sendOk (inv : StateInvariant s)
    (taken : handle K env s (.wire client (.send target envelope)) now = some (s', outs))
    (replied : .reply client (.sendOk id rows) ∈ outs) :
    ∃ identity line record rest, SendAccepted K env s client envelope identity line record ∧
      outs = .appendMailbox target.mailbox line (clientOrigin s client) :: rest ∧
      ∀ out ∈ rest, out.isAppend = false := by
  rcases handle_appends inv taken with silent |
    ⟨_, _, _, identity, line, record, rest, same, accepted, shown, others⟩
  · exfalso
    cases handle_handled taken with
    | refused _ refusal =>
      obtain rfl : _ = BusReply.sendOk id rows := by
        simpa using (List.mem_singleton.mp replied).symm
      cases refusal
    | report _ report =>
      obtain rfl := List.mem_singleton.mp replied
      cases report
    | send touched resolved own canonical small stamps =>
      subst touched
      obtain ⟨-, _, shown, -⟩ := handled_send inv taken ⟨resolved, own, canonical, small, stamps⟩
      rw [shown] at silent
      cases silent _ (List.mem_cons_self ..)
  · cases same
    exact ⟨identity, line, record, rest, accepted, shown, others⟩

/-- The mailboxes after a step: what they were, with the record of an accepted `Send`
at the end of its mailbox. -/
theorem boxes_step (inv : StateInvariant s) (taken : handle K env s input now = some (s', outs))
    (boxes : InMemoryMailbox) :
    (performAll K boxes outs = boxes ∧ ∀ out ∈ outs, out.isAppend = false) ∨
      ∃ client target envelope identity line stamped,
        input = .wire client (.send target envelope) ∧
        SendAccepted K env s client envelope identity line stamped ∧
        .appendMailbox target.mailbox line (clientOrigin s client) ∈ outs ∧
        performAll K boxes outs = boxes.append target.mailbox stamped := by
  rcases handle_appends inv taken with plain |
    ⟨client, target, envelope, identity, line, stamped, rest, same, accepted, rfl, plain⟩
  · exact Or.inl ⟨performAll_of_no_append K boxes plain, plain⟩
  · refine Or.inr ⟨client, target, envelope, identity, line, stamped, same, accepted,
      List.mem_cons_self .., ?_⟩
    have first : perform K boxes (.appendMailbox target.mailbox line (clientOrigin s client)) =
        boxes.append target.mailbox stamped := by
      simp only [perform, accepted.stamps]
    rw [performAll, List.foldl_cons, first]
    exact performAll_of_no_append K _ plain

section Step
variable {K : Text} {filled : InMemoryMailbox → Prop} {trace : List SystemEvent} {s s' : System}
  {call : Call} {outs : List Out}

/-- A step appends nothing to a mailbox, or it is an accepted `Send` to it. -/
theorem lines_step (run : (systemMachine K filled).Run trace s)
    (taken : (systemMachine K filled).step s call outs s') (mailbox : MailboxName) :
    s'.boxes.lines mailbox = s.boxes.lines mailbox ∨
      ∃ client target envelope identity line stamped,
        call.input = .wire client (.send target envelope) ∧ target.mailbox = mailbox ∧
        SendAccepted K call.env s.broker client envelope identity line stamped ∧
        s'.boxes.lines mailbox = s.boxes.lines mailbox ++ [stamped] := by
  obtain ⟨-, handled, boxes⟩ := taken
  rcases boxes_step (StateInvariant.of_system run) handled s.boxes with ⟨same, -⟩ |
    ⟨client, target, envelope, identity, line, stamped, input, accepted, -, appended⟩
  · exact Or.inl (by rw [boxes, same])
  · rw [boxes, appended, InMemoryMailbox.lines_append]
    split
    · rename_i here
      exact Or.inr ⟨client, target, envelope, identity, line, stamped, input, here, accepted, rfl⟩
    · exact Or.inl rfl

theorem lines_of_sendOk (run : (systemMachine K filled).Run trace s)
    (taken : (systemMachine K filled).step s call outs s')
    (sent : call.input = .wire client (.send target envelope))
    (replied : .reply client (.sendOk id rows) ∈ outs) :
    ∃ identity line stamped, SendAccepted K call.env s.broker client envelope identity line stamped ∧
      s'.boxes.lines target.mailbox = s.boxes.lines target.mailbox ++ [stamped] := by
  obtain ⟨-, handled, boxes⟩ := taken
  have inv := StateInvariant.of_system run
  rw [sent] at handled
  obtain ⟨identity, line, stamped, rest, accepted, shown, -⟩ := accepted_of_sendOk inv handled replied
  refine ⟨identity, line, stamped, accepted, ?_⟩
  rcases boxes_step inv handled s.boxes with ⟨-, plain⟩ |
    ⟨_, _, _, _, _, _, same, accepted', -, appended⟩
  · rw [shown] at plain
    cases plain _ (List.mem_cons_self ..)
  · cases same
    obtain ⟨-, -, rfl⟩ := accepted.unique accepted'
    rw [boxes, appended, InMemoryMailbox.lines_append]
    exact if_pos rfl

theorem boxes_of_not_send (run : (systemMachine K filled).Run trace s)
    (taken : (systemMachine K filled).step s call outs s')
    (unsent : ∀ client target envelope, call.input ≠ .wire client (.send target envelope)) :
    s'.boxes = s.boxes := by
  obtain ⟨-, handled, boxes⟩ := taken
  rcases boxes_step (StateInvariant.of_system run) handled s.boxes with ⟨same, -⟩ |
    ⟨client, target, envelope, _, _, _, input, -⟩
  · rw [boxes, same]
  · exact absurd input (unsent client target envelope)

end Step

/-! ## Runs of given calls -/

def systemRespond (K : Text) (s : System) (call : Call) : System × List Out :=
  let answer := respond K s.broker { call with env := storeEnv s.boxes call.env }
  (⟨answer.1, performAll K s.boxes answer.2⟩, answer.2)

def systemAfter (K : Text) (s : System) : List Call → System
  | [] => s
  | call :: rest => systemAfter K (systemRespond K s call).1 rest

def systemEvents (K : Text) (s : System) : List Call → List SystemEvent
  | [] => []
  | call :: rest =>
    ⟨s, { call with env := storeEnv s.boxes call.env }, (systemRespond K s call).2,
      (systemRespond K s call).1⟩ :: systemEvents K (systemRespond K s call).1 rest

theorem systemEvents_append (K : Text) : ∀ (calls more : List Call) (s : System),
    systemEvents K s (calls ++ more) = systemEvents K s calls ++ systemEvents K (systemAfter K s calls) more
  | [], _, _ => rfl
  | call :: rest, more, s => by
    simp only [List.cons_append, systemEvents, systemAfter, systemEvents_append K rest more]

/-- The event of one call. -/
def systemEvent (K : Text) (s : System) (call : Call) : SystemEvent :=
  ⟨s, { call with env := storeEnv s.boxes call.env }, (systemRespond K s call).2,
    (systemRespond K s call).1⟩

theorem systemEvents_split (K : Text) (s : System) (before : List Call) (call : Call)
    (after : List Call) :
    systemEvents K s (before ++ call :: after) =
      systemEvents K s before ++ systemEvent K (systemAfter K s before) call ::
        systemEvents K (systemRespond K (systemAfter K s before) call).1 after :=
  systemEvents_append K before (call :: after) s

theorem systemAfter_append (K : Text) : ∀ (calls more : List Call) (s : System),
    systemAfter K s (calls ++ more) = systemAfter K (systemAfter K s calls) more
  | [], _, _ => rfl
  | call :: rest, more, s => by simp only [List.cons_append, systemAfter, systemAfter_append K rest more]

theorem map_input_systemEvents (K : Text) : ∀ (calls : List Call) (s : System),
    (systemEvents K s calls).map (fun event => event.input.input) = calls.map Call.input
  | [], _ => rfl
  | call :: rest, s => by simp only [systemEvents, List.map_cons, map_input_systemEvents K rest]

theorem boxes_systemAfter (K : Text) : ∀ (calls : List Call) {s : System},
    (∀ event ∈ systemEvents K s calls, ∀ out ∈ event.output, out.isAppend = false) →
      (systemAfter K s calls).boxes = s.boxes
  | [], _, _ => rfl
  | call :: rest, s, plain => by
    obtain ⟨first, later⟩ := List.forall_mem_cons.mp plain
    rw [systemAfter, boxes_systemAfter K rest later]
    exact performAll_of_no_append K s.boxes first

theorem run_append_systemCalls (K : Text) :
    ∀ (calls : List Call) {trace : List SystemEvent} {s : System},
      (systemMachine K filled).Run trace s →
      (systemMachine K filled).Run (trace ++ systemEvents K s calls) (systemAfter K s calls)
  | [], trace, s, run => by
    rw [systemEvents, systemAfter, List.append_nil]
    exact run
  | call :: rest, trace, s, run => by
    have next : (systemMachine K filled).Run
        (trace ++ [⟨s, { call with env := storeEnv s.boxes call.env }, (systemRespond K s call).2,
          (systemRespond K s call).1⟩]) (systemRespond K s call).1 := by
      refine run.step ⟨?_, handle_eq_respond K s.broker _, rfl⟩
      intro name since drained read
      exact (Except.ok.inj read).symm
    have later := run_append_systemCalls K rest next
    rw [List.append_assoc] at later
    exact later

theorem run_systemCalls (K : Text) {boxes : InMemoryMailbox} (start : filled boxes)
    (startedAt : Nat) (calls : List Call) :
    (systemMachine K filled).Run (systemEvents K ⟨BrokerState.new startedAt, boxes⟩ calls)
      (systemAfter K ⟨BrokerState.new startedAt, boxes⟩ calls) :=
  run_append_systemCalls K calls (.start ⟨⟨startedAt, rfl⟩, start⟩)

/-! ## A channel with a post -/

def firstSystem : System := ⟨BrokerState.new 0, ∅⟩

theorem run_firstSystem (calls : List Call) :
    (systemMachine Plain.text (· = ∅)).Run (systemEvents Plain.text firstSystem calls)
      (systemAfter Plain.text firstSystem calls) :=
  @run_systemCalls (· = ∅) Plain.text ∅ rfl 0 calls

/-- Alice has joined a channel. -/
def joinedCalls : List Call :=
  [.wire 1 (.hello 3 "cli" none), .wire 1 (.register "alice" 11 none true (some .local)),
    .wire 1 (.join "#a" none)].map fun input => ⟨emptyEnv, input, 5⟩

/-- Bob posts to it. -/
def postedCalls : List Call :=
  joinedCalls ++ [.wire 2 (.hello 3 "cli" none), .wire 2 (.register "bob" 12 none false (some .local)),
    .wire 2 (.send (.channel "#a") (auditEntry "agent:example/bob" "agent:example/channel-a"))].map
    fun input => ⟨emptyEnv, input, 5⟩

def pollCall : Call := ⟨emptyEnv, .wire 1 (.inbox none none), 7⟩

end Famp.Bus
