import Famp.Bus.InboxOnce

/-!
# Reading back what was sent

The size of an envelope is checked in three framings: in the frame of the `Send`, as a
bare line, and in the `InboxOk` that hands it to its recipient.  The last one has the
most around the envelope, so an envelope can pass the first two and be too long for the
third.
-/

set_option autoImplicit false

namespace Famp.Bus

open Data Envelope Json
open Std (ExtTreeSet)

/-! ## Lengths -/

variable {K : Text} {size len : Nat} {envelope : Value} {reader : ClientId} {name : String}
  {line stamped : Bytes} {origin : Origin}

section Lengths
variable {K : Text} (lengths : K.ExactLengths) {envelope : Value} {len : Nat}
  (known : K.canonicalLen? envelope = some len)

include lengths known

theorem canonicalLen?_inboxOk (origin : Origin) {nextOffset : Nat} (small : nextOffset ≤ 2 ^ 53) :
    K.canonicalLen? (BusReply.inboxOk [⟨origin, envelope⟩] nextOffset).toValue =
      some (72 + origin.name.toList.length + len + (Nat.toDigits 10 nextOffset).length) := by
  have stamped := canonicalLen?_stampedEnvelope lengths known origin
  have offset := lengths.nat nextOffset small
  have kind := lengths.str "inbox_ok" (by decide)
  have keys : (utf8 "envelopes").length = 9 ∧ (utf8 "next_offset").length = 11 ∧
      (utf8 "op").length = 2 ∧ "inbox_ok".toList.length = 8 := by decide
  rw [BusReply.toValue, K.canonicalLen?_record _ _ _ (by decide) rfl]
  simp [Text.canonicalLens?, stampedValues, Text.canonicalLen?_arr, stamped, offset, kind,
    Text.objectLen, Text.arrayLen, Text.commaLen, keys]
  omega

omit lengths known in
theorem length_toDigits_near (small : size ≤ maxFrameBytes) (base : Nat) (bounded : base ≤ 1000) :
    72 + base + size + (Nat.toDigits 10 (26 + base + size)).length ≤ maxFrameBytes ↔
      size + 80 + base ≤ maxFrameBytes := by
  have limit : maxFrameBytes = 16777216 := by decide
  have few : (Nat.toDigits 10 (26 + base + size)).length ≤ 8 :=
    (Nat.length_toDigits_le_iff (by decide) (by decide)).mpr (by omega)
  constructor
  · intro fits
    by_contra large
    have many : ¬ (Nat.toDigits 10 (26 + base + size)).length ≤ 7 := by
      rw [Nat.length_toDigits_le_iff (by decide) (by decide)]
      omega
    omega
  · omega

end Lengths

def readBackLimit (origin : Origin) : Nat := maxFrameBytes - (80 + origin.name.toList.length)

theorem fits_inboxOk_iff (lengths : K.ExactLengths) (known : K.canonicalLen? envelope = some len)
    (small : len ≤ maxFrameBytes) (origin : Origin) :
    Fits K (.inboxOk [⟨origin, envelope⟩] (26 + origin.name.toList.length + len)) ↔
      len ≤ readBackLimit origin := by
  have limit : maxFrameBytes = 16777216 := by decide
  have short : origin.name.toList.length ≤ 7 := by cases origin <;> decide
  rw [fits_iff, canonicalLen?_inboxOk lengths known origin (by omega)]
  simp only [Option.some.injEq, exists_eq_left']
  rw [length_toDigits_near small _ (by omega), readBackLimit]
  omega

/-! ## A poll of the agent's mailbox alone -/

theorem handle_inbox_unjoined {env : BrokerEnv} {s s' : BrokerState} {since : Option Nat}
    {includeTerminal : Option Bool} {drained : DrainResult} {now : Nat} {outs : List Out}
    (inv : StateInvariant s) (resolved : resolveOpIdentity env s reader = .ok name)
    (unjoined : ∀ holder channel, canonicalHolderId s name = some holder →
      ¬ InChannel s holder channel)
    (taken : handle K env s (.wire reader (.inbox since includeTerminal)) now = some (s', outs))
    (read : env.drainFrom (.agent name) (since.getD 0) = .ok drained) :
    let reply := BusReply.inboxOk (decodeLines K (since.getD 0) drained) drained.nextOffset
    Fits K reply ∧ outs = [.reply reader reply] ∨
      ¬ Fits K reply ∧ ∃ message, outs = [.reply reader (.err .envelopeTooLarge message)] := by
  intro reply
  have quiet := touchActivity_quiet env s reader
  obtain ⟨holder, held⟩ := exists_holder_of_resolveOpIdentity resolved
  have resolved' : resolveOpIdentity env (touchActivity env s reader) reader = .ok name :=
    (quiet.resolveOpIdentity_eq _ _).trans resolved
  have held' : canonicalHolderId (touchActivity env s reader) name = some holder :=
    (quiet.canonicalHolderId_eq inv name).trans held
  obtain ⟨state, stored, -⟩ := canonicalHolderId_some held
  obtain ⟨after, stored', core⟩ := quiet.later stored
  have joined : after.joined.toList = [] := by
    have same : after.core.joined = state.core.joined := by rw [core]
    change after.joined = state.joined at same
    rw [same, List.eq_nil_iff_forall_not_mem]
    intro channel member
    exact unjoined holder channel held ⟨state, stored, ExtTreeSet.mem_toList.mp member⟩
  have handled : handle K env s (.wire reader (.inbox since includeTerminal)) now =
      inbox K env (touchActivity env s reader) reader since := by
    simp [handle, handleWire, BusMessage.isHello, BusMessage.defersActivity, dispatch,
      handshaked_of_resolveOpIdentity inv resolved]
  rw [handled] at taken
  simp only [inbox, resolved', read, held', stored', Option.map_some, joined, Option.getD_some,
    drainChannels, List.append_nil] at taken
  split at taken
  · next error refused =>
    obtain ⟨-, rfl⟩ := Prod.mk.inj (Option.some.inj taken)
    refine Or.inr ⟨?_, _, rfl⟩
    rintro ⟨frame, encoded⟩
    rw [refused] at encoded
    cases encoded
  · next frame encoded =>
    obtain ⟨-, rfl⟩ := Prod.mk.inj (Option.some.inj taken)
    exact Or.inl ⟨⟨frame, encoded⟩, rfl⟩

/-! ## From the send to the poll -/

/-- A `Send` to an agent with an empty mailbox that arrives in a frame and is accepted,
of an envelope in canonical form that its recipient can decode. -/
structure SentAlone (K : Text) (event : SystemEvent) (sender : ClientId) (name : String)
    (envelope : Value) : Prop where
  framed : ∃ frame used, tryDecodeFrame K BusMessage.read frame =
    .ok (some (.send (.agent name) envelope, used))
  sent : event.input.input = .wire sender (.send (.agent name) envelope)
  accepted : ∃ id rows, .reply sender (.sendOk id rows) ∈ event.output
  empty : event.before.boxes.lines (.agent name) = []
  readable : Readable K envelope
  canonical : K.reread envelope = envelope

/-- An `Inbox` from the start of the mailbox, for a holder without channels; the
mailbox can be read. -/
structure AsksFromStart (event : SystemEvent) (reader : ClientId) (name : String) : Prop where
  asked : ∃ includeTerminal, event.input.input = .wire reader (.inbox (some 0) includeTerminal)
  resolved : resolveOpIdentity event.input.env event.before.broker reader = .ok name
  unjoined : ∀ holder channel, canonicalHolderId event.before.broker name = some holder →
    ¬ InChannel event.before.broker holder channel
  read : ∃ drained, event.input.env.drainFrom (.agent name) 0 = .ok drained

/-- The answer is an `InboxOk` with the envelope, and not `EnvelopeTooLarge`. -/
def HandsOut (event : SystemEvent) (reader : ClientId) (entry : StampedEnvelope) : Prop :=
  (∃ entries nextOffset, .reply reader (.inboxOk entries nextOffset) ∈ event.output ∧
    entry ∈ entries) ∧
  ∀ message, .reply reader (.err .envelopeTooLarge message) ∉ event.output

theorem decodeLines_alone {boxes : InMemoryMailbox} {name : MailboxName}
    (lines : boxes.lines name = [stamped]) (canonical : K.canonicalize envelope = .ok line)
    (stamps : stampLine K line origin = .ok stamped) (readable : Readable K envelope) :
    decodeLines K 0 (boxes.drainFrom name 0) = [⟨origin, K.reread envelope⟩] ∧
      (boxes.drainFrom name 0).nextOffset = stamped.length + 1 := by
  obtain ⟨decoded, ends⟩ := decodeLines_whole K boxes name
  have line := (decodeLine_stampLine_ok_iff K canonical stamps).mpr readable
  rw [decoded, ends, lines]
  refine ⟨?_, rfl⟩
  have others : isSelfAuthored (K.reread envelope) none = false := rfl
  simp [handouts, handout?, line, others]

theorem poll_alone (lengths : K.ExactLengths) {filled : InMemoryMailbox → Prop}
    {trace : List SystemEvent} {polling : SystemEvent}
    (run : (systemMachine K filled).Run trace polling.before)
    (polls : (systemMachine K filled).step polling.before polling.input polling.output
      polling.after) (asks : AsksFromStart polling reader name)
    (lines : polling.before.boxes.lines (.agent name) = [stamped])
    (canonical : K.canonicalize envelope = .ok line) (small : line.length ≤ maxFrameBytes)
    (stamps : stampLine K line origin = .ok stamped) (readable : Readable K envelope)
    (fixed : K.reread envelope = envelope) (known : K.canonicalLen? envelope = some len) :
    HandsOut polling reader ⟨origin, envelope⟩ ∧ len ≤ readBackLimit origin ∨
      (∃ message, polling.output = [.reply reader (.err .envelopeTooLarge message)]) ∧
        ¬ len ≤ readBackLimit origin := by
  obtain ⟨found, ends⟩ := decodeLines_alone lines canonical stamps readable
  have recordLen : stamped.length = 25 + origin.name.toList.length + len := by
    obtain ⟨-, stamps⟩ := canonicalize_of_stampLine K canonical stamps
    rw [fixed] at stamps
    have length := canonicalLen?_stampedEnvelope lengths known origin
    rw [Text.canonicalLen?, stamps] at length
    exact Option.some.inj length
  have bounded : len ≤ maxFrameBytes := by
    have length := known
    rw [Text.canonicalLen?, canonical] at length
    exact Option.some.inj length ▸ small
  obtain ⟨includeTerminal, asked⟩ := asks.asked
  obtain ⟨drained, read⟩ := asks.read
  obtain ⟨reads, handled, -⟩ := polls
  obtain rfl := reads _ _ _ read
  rw [asked] at handled
  have answer := handle_inbox_unjoined (StateInvariant.of_system run) asks.resolved asks.unjoined
    handled read
  dsimp only at answer
  rw [Option.getD_some, found, ends, fixed, recordLen,
    show 25 + origin.name.toList.length + len + 1 = 26 + origin.name.toList.length + len by omega,
    fits_inboxOk_iff lengths known bounded] at answer
  rcases answer with ⟨fits, outs⟩ | ⟨large, refused⟩
  · refine Or.inl ⟨⟨⟨[⟨origin, envelope⟩], _, outs ▸ List.mem_singleton_self _,
      List.mem_singleton_self _⟩, ?_⟩, fits⟩
    simp [outs]
  · exact Or.inr ⟨refused, large⟩

section Run
variable {K : Text} {filled : InMemoryMailbox → Prop}
  {earlier between later : List SystemEvent} {sending polling : SystemEvent} {s : System}
  {sender reader : ClientId} {name : String} {envelope : Value} {len : Nat} (lengths : K.ExactLengths)
  (run : (systemMachine K filled).Run (earlier ++ sending :: (between ++ polling :: later)) s)
  (sent : SentAlone K sending sender name envelope) (asks : AsksFromStart polling reader name)
  (alone : polling.before.boxes.lines (.agent name) = sending.after.boxes.lines (.agent name))
  (known : K.canonicalLen? envelope = some len)
include lengths run sent asks alone known

theorem poll_after_send :
    HandsOut polling reader ⟨clientOrigin sending.before.broker sender, envelope⟩ ∧
        len ≤ readBackLimit (clientOrigin sending.before.broker sender) ∨
      (∃ message, polling.output = [.reply reader (.err .envelopeTooLarge message)]) ∧
        ¬ len ≤ readBackLimit (clientOrigin sending.before.broker sender) := by
  obtain ⟨before, sends⟩ := run.split rfl
  obtain ⟨reached, polls⟩ := run.split (show earlier ++ sending :: (between ++ polling :: later) =
    (earlier ++ sending :: between) ++ polling :: later by simp)
  obtain ⟨id, rows, replied⟩ := sent.accepted
  obtain ⟨identity, line, stamped, accepted, appended⟩ :=
    lines_of_sendOk before sends sent.sent replied
  have lines : polling.before.boxes.lines (.agent name) = [stamped] := by
    rw [alone]
    exact appended.trans (congrArg (· ++ [stamped]) sent.empty)
  exact poll_alone lengths reached polls asks lines accepted.canonical accepted.small
    accepted.stamps sent.readable sent.canonical known

/-- An accepted envelope that is alone in the mailbox is handed out by the next poll
exactly when it is no longer than the limit of its origin. -/
theorem accepted_send_is_read_back_iff :
    HandsOut polling reader ⟨clientOrigin sending.before.broker sender, envelope⟩ ↔
      len ≤ readBackLimit (clientOrigin sending.before.broker sender) := by
  rcases poll_after_send lengths run sent asks alone known with
    ⟨hands, fits⟩ | ⟨⟨message, outs⟩, large⟩
  · exact ⟨fun _ => fits, fun _ => hands⟩
  · refine ⟨fun hands => absurd ?_ (hands.2 message), fun fits => absurd fits large⟩
    rw [outs]
    exact List.mem_singleton_self _

end Run

/-! ## Letters of bob to alice -/

def registeredCalls : List Call :=
  [.wire 1 (.hello 3 "cli" none), .wire 1 (.register "alice" 11 none true (some .local)),
    .wire 2 (.hello 3 "cli" none), .wire 2 (.register "bob" 12 none false (some .local))].map
    fun input => ⟨emptyEnv, input, 5⟩

def readCall : Call := ⟨emptyEnv, .wire 1 (.inbox (some 0) none), 7⟩

theorem letter_framed (small : 309 + size ≤ maxFrameBytes) : ∃ frame used,
    tryDecodeFrame Plain.text BusMessage.read frame =
      .ok (some (.send (.agent "alice") (longPost size), used)) := by
  obtain ⟨body, canonical, length⟩ :=
    Text.canonicalize_of_len (canonicalLen?_sendValue (canonicalLen?_longPost size))
  have single := Tree.hasDuplicateKey_of_isOrdered _
    (sendValue (.agent "alice") (longPost size)).property
  have nonempty : body ≠ [] := by
    rintro rfl
    simp only [List.length_nil] at length
    omega
  obtain ⟨frame, -, decoded⟩ := tryDecodeFrame_encodeFrame Plain.text BusMessage.read canonical
    nonempty (by omega) (Plain.parse_canonicalize canonical (readable_longPost size).1) single
    (read_sendValue "alice" (longPost size))
  exact ⟨frame, frame.length, decoded⟩

structure LetterRun (size : Nat) (earlier : List SystemEvent) (sending polling : SystemEvent) :
    Prop where
  run : (systemMachine Plain.text (· = ∅)).Run (earlier ++ sending :: ([] ++ polling :: []))
    polling.after
  sent : SentAlone Plain.text sending 2 "alice" (longPost size)
  asks : AsksFromStart polling 1 "alice"
  alone : polling.before.boxes.lines (.agent "alice") =
    sending.after.boxes.lines (.agent "alice")
  origin : clientOrigin sending.before.broker 2 = .local

theorem exists_letterRun (small : 309 + size ≤ maxFrameBytes) :
    ∃ earlier sending polling, LetterRun size earlier sending polling := by
  have known := canonicalLen?_longPost size
  obtain ⟨line, canonical, length⟩ := Text.canonicalize_of_len known
  obtain ⟨stamped, stamps, -⟩ := Text.canonicalize_of_len (canonicalLen?_stamped known)
  generalize here : systemAfter Plain.text firstSystem registeredCalls = s₀
  have run₀ := run_firstSystem registeredCalls
  have facts : s₀.boxes.lines (.agent "alice") = [] ∧ clientOrigin s₀.broker 2 = .local ∧
      resolveOpIdentity (storeEnv s₀.boxes emptyEnv) s₀.broker 2 = .ok "bob" ∧
      resolveOpIdentity (storeEnv s₀.boxes emptyEnv) s₀.broker 1 = .ok "alice" ∧
      canonicalHolderId s₀.broker "alice" = some 1 ∧
      s₀.broker.clients[1]?.map (fun state => state.joined.toList) = some [] := by
    rw [← here]
    decide +kernel
  obtain ⟨empty, origin, bob, alice, held, joined⟩ := facts
  rw [here] at run₀
  have inv₀ := StateInvariant.of_system run₀
  have accepted : SendAccepted Plain.text (storeEnv s₀.boxes emptyEnv) s₀.broker 2
      (longPost size) "bob" line stamped := by
    refine ⟨bob, rfl, canonical, by omega, ?_⟩
    rw [stampLine_canonicalize Plain.text _ canonical (readable_longPost size).1.le,
      Plain.reread_eq, origin, stamps]
  obtain ⟨sending, run₁, rfl, sent, replied, quiet, -, -⟩ := exists_send (.agent "alice") 5 run₀
    (fun _ _ _ read => (Except.ok.inj read).symm) accepted
  have unjoined : ∀ holder channel, canonicalHolderId sending.after.broker "alice" = some holder →
      ¬ InChannel sending.after.broker holder channel := by
    intro holder channel held' inside
    rw [quiet.canonicalHolderId_eq inv₀, held, Option.some.injEq] at held'
    subst held'
    obtain ⟨state, stored, member⟩ := quiet.inChannel_iff.mp inside
    rw [stored, Option.map_some, Option.some.injEq] at joined
    rw [← ExtTreeSet.mem_toList, joined] at member
    cases member
  have run₂ := run_append_systemCalls Plain.text [readCall] run₁
  rw [List.append_assoc] at run₂
  refine ⟨_, sending, systemEvent Plain.text sending.after readCall, run₂, ?_, ?_, rfl, origin⟩
  · exact ⟨letter_framed small, sent, replied, empty, readable_longPost size, Plain.reread_eq _⟩
  · exact ⟨⟨none, rfl⟩, (quiet.resolveOpIdentity_eq _ 1).trans alice, unjoined, _, rfl⟩

theorem short_letter_is_read_back : ∃ earlier sending polling,
    LetterRun 0 earlier sending polling ∧ HandsOut polling 1 ⟨.local, longPost 0⟩ := by
  obtain ⟨earlier, sending, polling, letter⟩ :=
    exists_letterRun (show 309 + 0 ≤ maxFrameBytes by decide)
  refine ⟨earlier, sending, polling, letter, ?_⟩
  have hands := (accepted_send_is_read_back_iff Plain.exactLengths letter.run letter.sent
    letter.asks letter.alone (canonicalLen?_longPost 0)).mpr
  rw [letter.origin] at hands
  exact hands (by decide)

def tooLong : Nat := maxFrameBytes - 317

/-- The frame of the letter is within the limit, and the reply with it is not. -/
theorem long_letter_is_not_read_back : ∃ earlier sending polling,
    LetterRun tooLong earlier sending polling ∧
      (∃ message, polling.output = [.reply 1 (.err .envelopeTooLarge message)]) ∧
      ¬ HandsOut polling 1 ⟨.local, longPost tooLong⟩ := by
  have limit : maxFrameBytes = 16777216 := by decide
  have size : tooLong = 16776899 := by decide
  obtain ⟨earlier, sending, polling, letter⟩ :=
    exists_letterRun (show 309 + tooLong ≤ maxFrameBytes by omega)
  refine ⟨earlier, sending, polling, letter, ?_⟩
  have answer := poll_after_send Plain.exactLengths letter.run letter.sent letter.asks
    letter.alone (canonicalLen?_longPost tooLong)
  have large : ¬ 247 + tooLong ≤ readBackLimit .local := by
    have name : Origin.local.name.toList.length = 5 := by decide
    rw [readBackLimit, name]
    omega
  rw [letter.origin] at answer
  obtain ⟨-, fits⟩ | ⟨⟨message, outs⟩, -⟩ := answer
  · exact absurd fits large
  · refine ⟨⟨message, outs⟩, fun hands => hands.2 message ?_⟩
    rw [outs]
    exact List.mem_singleton_self _

end Famp.Bus
