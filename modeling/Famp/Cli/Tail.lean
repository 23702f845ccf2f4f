import Famp.Bus.Reading
import Famp.Bus.System
import Famp.Cli.Render

/-!
# `famp register --tail`

A tail prints the mailbox that comes with the answer to its registration, and then polls
the inbox from a cursor of its own.  The cursor starts at 0 and only moves forward, so the
first poll prints the mailbox once more, and after the mailbox was truncated the cursor
lies past its end.
-/

set_option autoImplicit false

namespace Famp.Cli

open Bus Famp.Core Data Json

/-! ## One line -/

def tailBodyTruncate : Nat := 80

def replaceChar (c : Char) (written : List Char) (text : List Char) : List Char :=
  text.flatMap fun d => if d = c then written else [d]

def truncateForTail (text : String) : String :=
  let truncated := text.toList.take tailBodyTruncate
  String.ofList (replaceChar '\r' ['\\', 'r'] (replaceChar '\n' ['\\', 'n']
    (replaceChar '"' ['\\', '"'] (replaceChar '\\' ['\\', '\\'] truncated))))

/-- A session of the command: the name, the compact text of a JSON value, and for the
line of each number the time and the identifier that are taken for it. -/
structure TailSession where
  text : Text
  name : String
  print : Value → String
  now : Nat → String
  fresh : Nat → Uuid

namespace TailSession
variable (session : TailSession)

def emitTailLine (now : String) (fresh : Uuid) (stamped : StampedEnvelope) : String :=
  let envelope := stamped.envelope
  let sender := ((envelope.get? "from").bind Value.asStr?).getD "?"
  let recipient := (envelope.get? "to").elim "?" fun value =>
    value.asStr?.getD (session.print value)
  let task := ((envelope.get? "task").bind Value.asStr?).getD "-"
  let bodyRaw := (envelope.get? "body").elim "" fun value =>
    value.asStr?.getD (session.print value)
  let body := truncateForTail (renderBodyText fresh stamped.origin bodyRaw)
  "< " ++ now ++ " from=" ++ sender ++ " to=" ++ recipient ++ " task=" ++ task ++ " body=\"" ++
    body ++ "\""

def emitTailLines : List String → List StampedEnvelope → List String
  | printed, [] => printed
  | printed, stamped :: rest =>
    emitTailLines (printed ++ [session.emitTailLine (session.now printed.length)
      (session.fresh printed.length) stamped]) rest

end TailSession

/-! ## The session -/

/-- The mailboxes, and the state of the command. -/
structure Tail where
  boxes : InMemoryMailbox
  cursor : Nat
  printed : List String

namespace Tail
variable (session : TailSession)

def onRegisterOk (boxes : InMemoryMailbox) (drained : List StampedEnvelope) : Tail :=
  ⟨boxes, 0, session.emitTailLines [] drained⟩

/-- The answer to a poll. -/
def onInboxOk (t : Tail) (envelopes : List StampedEnvelope) (nextOffset : Nat) : Tail :=
  { t with
    printed := session.emitTailLines t.printed envelopes
    cursor := if t.cursor < nextOffset then nextOffset else t.cursor }

def registered (boxes : InMemoryMailbox) : Tail :=
  onRegisterOk session boxes
    (decodeLines session.text 0 (boxes.drainFrom (.agent session.name) 0))

def poll (t : Tail) : Tail :=
  let drained := t.boxes.drainFrom (.agent session.name) t.cursor
  t.onInboxOk session (decodeLines session.text t.cursor drained) drained.nextOffset

def append (t : Tail) (line : Bytes) : Tail :=
  { t with boxes := t.boxes.append (.agent session.name) line }

/-- The mailbox is emptied from outside; an absent one stays absent. -/
def truncate (t : Tail) : Tail :=
  { t with boxes := t.boxes.modify (.agent session.name) fun _ => [] }

end Tail

inductive TailStep where
  | append (line : Bytes)
  | poll
  deriving DecidableEq

def Tail.step (session : TailSession) (t : Tail) : TailStep → Tail
  | .append line => t.append session line
  | .poll => t.poll session

def Tail.run (session : TailSession) (t : Tail) (steps : List TailStep) : Tail :=
  steps.foldl (Tail.step session) t

/-- The lines that the steps append. -/
def TailStep.appended (steps : List TailStep) : List Bytes :=
  steps.filterMap fun step =>
    match step with
    | .append line => some line
    | .poll => none

/-! ## The answers of the broker -/

variable {t : Tail} {low : Nat} {old read : List Bytes} {base : List String}

section Answers
variable {session : TailSession} {filled : InMemoryMailbox → Prop} {trace : List SystemEvent}
  {s s' : System} {call : Call} {outs : List Out} {client owner : ClientId}

theorem onRegisterOk_eq_registered {pid : Nat} {cwd : Option String} {listen : Bool}
    {origin : Option Origin} {active : String} {drained : List StampedEnvelope}
    {peers : List String} (taken : (systemMachine session.text filled).step s call outs s')
    (asked : call.input = .wire client (.register session.name pid cwd listen origin))
    (answered : .reply client (.registerOk active drained peers) ∈ outs) :
    Tail.onRegisterOk session s.boxes drained = Tail.registered session s.boxes := by
  have handled := taken.2.1
  rw [asked] at handled
  generalize s'.broker = after at handled
  cases handle_handled handled with
  | refused _ refusal =>
    obtain ⟨-, rfl⟩ := Out.reply.inj (List.mem_singleton.mp answered)
    cases refusal
  | report _ report =>
    obtain rfl := List.mem_singleton.mp answered
    cases report
  | register _ _ _ _ read _ =>
    obtain rfl := taken.1 _ _ _ read
    simp only [List.mem_cons, Out.reply.injEq, BusReply.registerOk.injEq, reduceCtorEq,
      List.not_mem_nil, or_false, true_and] at answered
    rw [answered.2.1, Tail.registered]

theorem onInboxOk_eq_poll {state : ClientState} {includeTerminal : Option Bool}
    {envelopes : List StampedEnvelope} {nextOffset : Nat}
    (run : (systemMachine session.text filled).Run trace s)
    (taken : (systemMachine session.text filled).step s call outs s')
    (asked : call.input = .wire client (.inbox (some t.cursor) includeTerminal))
    (resolved : resolveOpIdentity call.env s.broker client = .ok session.name)
    (holder : canonicalHolderId s.broker session.name = some owner)
    (stored : s.broker.clients[owner]? = some state) (alone : state.joined.toList = [])
    (answered : .reply client (.inboxOk envelopes nextOffset) ∈ outs) (boxes : t.boxes = s.boxes) :
    t.onInboxOk session envelopes nextOffset = t.poll session := by
  have handled := taken.2.1
  rw [asked] at handled
  rcases handle_poll (StateInvariant.of_system run) handled resolved holder stored with
    ⟨unanswered, -⟩ | ⟨drained, poll⟩
  · exact absurd answered (unanswered client envelopes nextOffset)
  · have read := taken.1 _ _ _ poll.read
    rw [Option.getD_some] at read
    rw [poll.outs_eq, List.mem_singleton, alone, List.flatMap_nil, List.append_nil,
      Option.getD_some] at answered
    obtain ⟨rfl, rfl⟩ := BusReply.inboxOk.inj (Out.reply.inj answered).2
    rw [Tail.poll, boxes, read]

end Answers

/-! ## Shown lines -/

section Shown
variable {session : TailSession}

/-- One line for each entry, in order. -/
def Shows (session : TailSession) (printed : List String) (entries : List StampedEnvelope) : Prop :=
  List.Forall₂ (fun line stamped => ∃ now fresh, line = session.emitTailLine now fresh stamped)
    printed entries

theorem emitTailLines_shows (session : TailSession) : ∀ (entries : List StampedEnvelope)
    (printed : List String),
      ∃ new, session.emitTailLines printed entries = printed ++ new ∧ Shows session new entries
  | [], printed => ⟨[], (List.append_nil printed).symm, .nil⟩
  | stamped :: rest, printed => by
    obtain ⟨new, shown, shows⟩ := emitTailLines_shows session rest (printed ++ [session.emitTailLine
      (session.now printed.length) (session.fresh printed.length) stamped])
    refine ⟨session.emitTailLine (session.now printed.length) (session.fresh printed.length)
      stamped :: new, ?_, .cons ⟨_, _, rfl⟩ shows⟩
    rw [TailSession.emitTailLines, shown, List.append_assoc, List.singleton_append]

theorem Shows.append {first second : List String} {entries more : List StampedEnvelope}
    (one : Shows session first entries) (two : Shows session second more) :
    Shows session (first ++ second) (entries ++ more) :=
  List.rel_append one two

theorem Shows.append_iff {printed : List String} {entries : List StampedEnvelope}
    (shows : Shows session printed entries) (more : List StampedEnvelope) :
    Shows session printed (more ++ entries) ↔ more = [] := by
  constructor
  · intro all
    have one := shows.length_eq
    have two := all.length_eq
    rw [List.length_append] at two
    exact List.length_eq_zero_iff.mp (by omega)
  · rintro rfl
    exact shows

end Shown

/-! ## What a tail has shown -/

section Runs
variable {session : TailSession}

/-- Since it had printed `base` and the mailbox held `old`, the tail has shown what lies
in `read` and not before `low`. -/
structure Follows (session : TailSession) (low : Nat) (old : List Bytes) (base : List String)
    (read : List Bytes) (t : Tail) : Prop where
  within : old ++ read <+: t.boxes.lines (.agent session.name)
  place : t.cursor = max low (totalLen (old ++ read))
  shows : ∃ new, t.printed = base ++ new ∧
    Shows session new (handouts session.text false none (linesFrom low (totalLen old) read))

theorem Tail.lines_step (session : TailSession) (t : Tail) (step : TailStep) :
    (t.step session step).boxes.lines (.agent session.name) =
      t.boxes.lines (.agent session.name) ++ TailStep.appended [step] := by
  cases step with
  | append line => simp [Tail.step, Tail.append, InMemoryMailbox.lines_append, TailStep.appended]
  | poll => simp [Tail.step, Tail.poll, Tail.onInboxOk, TailStep.appended]

theorem Tail.lines_run (t : Tail) (steps : List TailStep) :
    (t.run session steps).boxes.lines (.agent session.name) =
      t.boxes.lines (.agent session.name) ++ TailStep.appended steps := by
  induction steps generalizing t with
  | nil => exact (List.append_nil _).symm
  | cons step rest ih =>
    rw [Tail.run, List.foldl_cons, ← Tail.run, ih, Tail.lines_step, List.append_assoc]
    simp only [TailStep.appended, ← List.filterMap_append, List.singleton_append]

theorem Tail.cursor_poll (session : TailSession) (t : Tail) : (t.poll session).cursor =
    max t.cursor (totalLen (t.boxes.lines (.agent session.name))) := by
  have ends := max_nextOffset_drainFrom t.boxes (.agent session.name) t.cursor
  show (if _ then _ else _) = _
  split <;> omega

theorem Follows.poll (follows : Follows session low old base read t) :
    ∃ more, t.boxes.lines (.agent session.name) = old ++ more ∧
      Follows session low old base more (t.poll session) := by
  obtain ⟨⟨rest, lines⟩, place, new, printed, shows⟩ := follows
  have pending : linesFrom t.cursor 0 (t.boxes.lines (.agent session.name)) =
      linesFrom low (totalLen (old ++ read)) rest := by
    rw [← lines, linesFrom_append, linesFrom_of_ge (by omega), List.nil_append, Nat.zero_add, place,
      linesFrom_max]
  obtain ⟨later, emitted, showsLater⟩ := emitTailLines_shows session (decodeLines session.text
    t.cursor (t.boxes.drainFrom (.agent session.name) t.cursor)) t.printed
  rw [decodeLines_drainFrom, pending] at showsLater
  refine ⟨read ++ rest, by rw [← lines, List.append_assoc], ?_, ?_, new ++ later, ?_, ?_⟩
  · show _ <+: t.boxes.lines (.agent session.name)
    rw [← List.append_assoc, lines]
  · rw [Tail.cursor_poll, place, ← List.append_assoc, lines, ← lines, totalLen_append (old ++ read)]
    omega
  · rw [← List.append_assoc, ← printed]
    exact emitted
  · rw [linesFrom_append, handouts_append, ← totalLen_append]
    exact shows.append showsLater

theorem Follows.step (follows : Follows session low old base read t) (step : TailStep) :
    ∃ read, Follows session low old base read (t.step session step) := by
  cases step with
  | append line =>
    refine ⟨read, ?_, follows.place, follows.shows⟩
    rw [Tail.lines_step]
    exact follows.within.trans (List.prefix_append _ _)
  | poll =>
    obtain ⟨more, -, follows⟩ := follows.poll
    exact ⟨more, follows⟩

theorem Follows.run (follows : Follows session low old base read t) (steps : List TailStep) :
    ∃ read, Follows session low old base read (t.run session steps) := by
  induction steps generalizing t read with
  | nil => exact ⟨read, follows⟩
  | cons step rest ih =>
    obtain ⟨read, follows⟩ := follows.step step
    exact ih follows

theorem Tail.run_concat_poll (t : Tail) (steps : List TailStep) :
    t.run session (steps ++ [.poll]) = (t.run session steps).poll session := by
  rw [Tail.run, List.foldl_append]
  rfl

theorem Follows.start
    (place : t.cursor = max low (totalLen (t.boxes.lines (.agent session.name)))) :
    Follows session low (t.boxes.lines (.agent session.name)) t.printed [] t where
  within := by rw [List.append_nil]
  place := by rw [List.append_nil, place]
  shows := ⟨[], (List.append_nil _).symm, .nil⟩

theorem Follows.shown {rest : List Bytes} (follows : Follows session low old base [] t)
    (lines : t.boxes.lines (.agent session.name) = old ++ rest) (before : List TailStep) :
    ∃ new, (t.run session (before ++ [.poll])).printed = base ++ new ∧
      Shows session new (handouts session.text false none
        (linesFrom low (totalLen old) (rest ++ TailStep.appended before))) := by
  obtain ⟨read, during⟩ := follows.run before
  obtain ⟨more, here, after⟩ := during.poll
  rw [Tail.lines_run, lines, List.append_assoc, List.append_cancel_left_eq] at here
  rw [Tail.run_concat_poll, here]
  exact after.shows

/-! ## Sessions -/

/-- Up to each poll one line is printed for each record that can be decoded. -/
def ShowsAll (session : TailSession) (t : Tail) (steps : List TailStep) : Prop :=
  ∀ before after, steps = before ++ .poll :: after →
    Shows session (t.run session (before ++ [.poll])).printed
      (handouts session.text false none
        ((t.run session (before ++ [.poll])).boxes.lines (.agent session.name)))

/-- Up to each poll one line is printed for each record that was appended since `t`. -/
def ShowsNew (session : TailSession) (t : Tail) (steps : List TailStep) : Prop :=
  ∀ before after, steps = before ++ .poll :: after →
    ∃ new, (t.run session (before ++ [.poll])).printed = t.printed ++ new ∧
      Shows session new (handouts session.text false none (TailStep.appended before))

theorem Tail.lines_registered (boxes : InMemoryMailbox) :
    (Tail.registered session boxes).boxes.lines (.agent session.name) =
      boxes.lines (.agent session.name) := rfl

theorem registered_shows (boxes : InMemoryMailbox) :
    Shows session (Tail.registered session boxes).printed
      (handouts session.text false none (boxes.lines (.agent session.name))) := by
  obtain ⟨new, printed, shows⟩ := emitTailLines_shows session (decodeLines session.text 0
    (boxes.drainFrom (.agent session.name) 0)) []
  rw [(decodeLines_whole ..).1] at shows
  rw [List.nil_append] at printed
  rw [Tail.registered, Tail.onRegisterOk, printed]
  exact shows

theorem showsAll_iff (boxes : InMemoryMailbox) (steps : List TailStep) :
    ShowsAll session (Tail.registered session boxes) steps ↔
      handouts session.text false none (boxes.lines (.agent session.name)) = [] ∨
        .poll ∉ steps := by
  -- The lines of the registration come before those of the polls, which start at 0.
  have watched : Follows session 0 [] (Tail.registered session boxes).printed []
      (Tail.registered session boxes) :=
    ⟨List.nil_prefix, rfl, [], (List.append_nil _).symm, .nil⟩
  have polled : ∀ before, Shows session
      ((Tail.registered session boxes).run session (before ++ [.poll])).printed
      (handouts session.text false none (boxes.lines (.agent session.name)) ++
        handouts session.text false none (((Tail.registered session boxes).run session
          (before ++ [.poll])).boxes.lines (.agent session.name))) := by
    intro before
    obtain ⟨new, printed, shows⟩ :=
      watched.shown (List.nil_append (boxes.lines (.agent session.name))).symm before
    have lines : ((Tail.registered session boxes).run session (before ++ [.poll])).boxes.lines
        (.agent session.name) = boxes.lines (.agent session.name) ++ TailStep.appended before := by
      rw [Tail.lines_run, Tail.lines_registered]
      simp [TailStep.appended]
    rw [linesFrom_of_le (Nat.zero_le _)] at shows
    rw [printed, lines]
    exact (registered_shows boxes).append shows
  constructor
  · intro all
    by_cases asked : .poll ∈ steps
    · obtain ⟨before, after, split⟩ := List.append_of_mem asked
      exact Or.inl (((all before after split).append_iff _).mp (polled before))
    · exact Or.inr asked
  · rintro (nothing | unasked) before after split
    · have shows := polled before
      rwa [nothing, List.nil_append] at shows
    · refine absurd ?_ unasked
      rw [split]
      exact List.mem_append_right _ (List.mem_cons_self ..)

theorem showsNew_iff (place : t.cursor = max low
      (totalLen (t.boxes.lines (.agent session.name)))) (steps : List TailStep) :
    ShowsNew session t steps ↔ ∀ before after, steps = before ++ .poll :: after →
      handouts session.text false none (linesBelow low
        (totalLen (t.boxes.lines (.agent session.name))) (TailStep.appended before)) = [] := by
  refine forall_congr' fun before => forall_congr' fun after => imp_congr_right fun _ => ?_
  obtain ⟨new, printed, shows⟩ :=
    (Follows.start place).shown (List.append_nil (t.boxes.lines (.agent session.name))).symm before
  rw [List.nil_append] at shows
  have split := linesBelow_append_linesFrom low (totalLen (t.boxes.lines (.agent session.name)))
    (TailStep.appended before)
  rw [← shows.append_iff, ← handouts_append, split, printed]
  constructor
  · rintro ⟨other, same, shows⟩
    rw [List.append_cancel_left_eq] at same
    rwa [same]
  · intro shows
    exact ⟨new, rfl, shows⟩

/-- The size of the mailbox at the last poll, where it is `size` before the steps and
`polled` is its size at the last poll before them. -/
def polledSize (size polled : Nat) : List TailStep → Nat
  | [] => polled
  | .append line :: rest => polledSize (size + recordLen line) polled rest
  | .poll :: rest => polledSize size size rest

theorem Tail.cursor_run (steps : List TailStep)
    (within : t.cursor ≤ totalLen (t.boxes.lines (.agent session.name))) :
    (t.run session steps).cursor =
      polledSize (totalLen (t.boxes.lines (.agent session.name))) t.cursor steps := by
  induction steps generalizing t with
  | nil => rfl
  | cons step rest ih =>
    have lines := Tail.lines_step session t step
    rw [Tail.run, List.foldl_cons, ← Tail.run]
    cases step with
    | append line =>
      have size : totalLen ((t.append session line).boxes.lines (.agent session.name)) =
          totalLen (t.boxes.lines (.agent session.name)) + recordLen line := by
        rw [show (t.append session line).boxes.lines (.agent session.name) = _ from lines,
          totalLen_append]
        rfl
      rw [show t.step session (.append line) = t.append session line from rfl, ih, size]
      · rfl
      · rw [size]
        exact within.trans (Nat.le_add_right _ _)
    | poll =>
      have moved : (t.poll session).cursor =
          totalLen (t.boxes.lines (.agent session.name)) := by
        rw [Tail.cursor_poll, Nat.max_eq_right within]
      have same : (t.poll session).boxes = t.boxes := rfl
      rw [show t.step session .poll = t.poll session from rfl, ih, moved, same, polledSize]
      rw [moved, same]

theorem Tail.cursor_appends (t : Tail) (lines : List Bytes) :
    (t.run session (lines.map .append)).cursor = t.cursor := by
  induction lines generalizing t with
  | nil => rfl
  | cons line rest ih => exact ih (t.append session line)

theorem Tail.lines_truncate (t : Tail) : (t.truncate session).boxes.lines (.agent session.name) = [] := by
  simp only [Tail.truncate, InMemoryMailbox.lines, lookup_modify, if_true]
  cases t.boxes[MailboxName.agent session.name]? <;> rfl

theorem showsNew_truncated_iff (boxes : InMemoryMailbox) (first : List TailStep)
    (between : List Bytes) (rest : List TailStep) :
    ShowsNew session ((((Tail.registered session boxes).run session first).truncate session).run
        session (between.map .append) |>.poll session) rest ↔
      ∀ before after, rest = before ++ .poll :: after →
        handouts session.text false none
          (linesBelow (polledSize (totalLen (boxes.lines (.agent session.name))) 0 first)
            (totalLen between) (TailStep.appended before)) = [] := by
  generalize reached : (((Tail.registered session boxes).run session first).truncate session).run
    session (between.map .append) = truncated
  have lines : truncated.boxes.lines (.agent session.name) = between := by
    rw [← reached, Tail.lines_run, Tail.lines_truncate, List.nil_append]
    simp [TailStep.appended, List.filterMap_map]
  have cursor : truncated.cursor =
      polledSize (totalLen (boxes.lines (.agent session.name))) 0 first := by
    rw [← reached, Tail.cursor_appends]
    exact Tail.cursor_run first (Nat.zero_le _)
  have place := Tail.cursor_poll session truncated
  have same : (truncated.poll session).boxes = truncated.boxes := rfl
  rw [← same, cursor] at place
  have after := showsNew_iff place rest
  rwa [same, lines] at after

/-- Every message is shown once exactly if nothing that can be decoded was in the mailbox
at the registration (or it was never polled), and nothing that can be decoded is appended
after a truncation at an offset below the size of the mailbox at the poll before it. -/
theorem tail_shows_once_iff (session : TailSession) (boxes : InMemoryMailbox)
    (first : List TailStep) (between : List Bytes) (rest : List TailStep) :
    let start := Tail.registered session boxes
    let truncated := ((start.run session first).truncate session).run session
      (between.map .append)
    ShowsAll session start first ∧ ShowsNew session (truncated.poll session) rest ↔
      (handouts session.text false none (boxes.lines (.agent session.name)) = [] ∨
          .poll ∉ first) ∧
        ∀ before after, rest = before ++ .poll :: after →
          handouts session.text false none
            (linesBelow (polledSize (totalLen (boxes.lines (.agent session.name))) 0 first)
              (totalLen between) (TailStep.appended before)) = [] :=
  and_congr (showsAll_iff boxes first) (showsNew_truncated_iff boxes first between rest)

end Runs

def aliceTail : TailSession := ⟨Plain.text, "alice", fun _ => "", fun _ => "", fun _ => Uuid.nil⟩

def tailRecord : Bytes := stampedLine .local (auditEntry "agent:example/bob" "agent:example/alice")

/-- The first poll prints a message of the registration again, and a message that comes
after a truncation is not printed. -/
theorem tail_repeats_and_skips :
    ¬ShowsAll aliceTail (Tail.registered aliceTail ((∅ : InMemoryMailbox).append (.agent "alice")
        tailRecord)) [.poll] ∧
      ShowsAll aliceTail (Tail.registered aliceTail ∅) [.append tailRecord, .poll] ∧
      ¬ShowsNew aliceTail ((((Tail.registered aliceTail ∅).run aliceTail
        [.append tailRecord, .poll]).truncate aliceTail).poll aliceTail)
          [.append tailRecord, .poll] := by
  have decodes : handouts Plain.text false none [tailRecord] ≠ [] := by
    have decoded := decodeLine_stampedLine (show Written .local (auditEntry "agent:example/bob"
      "agent:example/alice") by decide +kernel)
    simp [handouts, handout?, tailRecord, decoded, isSelfAuthored]
  generalize tailRecord = record at decodes ⊢
  refine ⟨?_, ?_, ?_⟩
  · rw [showsAll_iff]
    rintro (nothing | unasked)
    · exact decodes nothing
    · exact unasked (List.mem_singleton_self _)
  · rw [showsAll_iff]
    exact Or.inl rfl
  · intro shows
    have lost := (showsNew_truncated_iff ∅ [.append record, .poll] []
      [.append record, .poll]).mp shows [.append record] [] rfl
    have below := linesBelow_boundary [record] []
    exact decodes (below ▸ lost)

end Famp.Cli
