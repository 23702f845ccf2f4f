import Famp.Bus.Provenance
import Famp.Bus.Reading
import Famp.Bus.WakeDrain
import Mathlib.Data.List.Flatten

/-!
# No local message is passed over

The holder of a name and its proxies read a mailbox from one cursor.  Registering,
joining, awaiting and being woken move it, and each reply holds what the cursor was
moved over.  A woken request moves the cursor past a record that is not in the mailbox
yet: two requests of one holder that are woken by the first record of a mailbox move it
too far.
-/

set_option autoImplicit false

namespace Famp.Bus

open Famp.Core Json Data Std

/-! ## What a holder has been given -/

/-- The connection is `owner`, or a proxy of it. -/
def actsFor (s : BrokerState) (client owner : ClientId) : Bool :=
  client == owner ||
    (s.clients[client]?.bind ClientState.bindAs).any fun bound =>
      canonicalHolderId s bound == some owner

variable {client owner : ClientId} {s : BrokerState} {name : String} {event : SystemEvent}
  {filter : AwaitFilter} {target : Target} {envelope : Value}

variable {env : BrokerEnv} {mailbox : MailboxName} {reply : BusReply} {read : List Bytes}
  {cursor : Nat} {K : Text} {trace : List SystemEvent} {identity : String} {line stamped : Bytes}

theorem actsFor_of_resolved (inv : StateInvariant s)
    (resolved : resolveOpIdentity env s client = .ok name)
    (held : canonicalHolderId s name = some owner) : actsFor s client owner = true := by
  obtain ⟨state, stored, connected, effective, named | ⟨unnamed, -⟩⟩ := resolveOpIdentity_ok resolved
  · have own := HoldsName.canonicalHolderId inv ⟨state, stored, connected, named⟩
    rw [held, Option.some.injEq] at own
    simp [actsFor, own]
  · have bound : state.bindAs = some name := by
      cases bindAs : state.bindAs with
      | none => simp [effectiveIdentity, unnamed, bindAs] at effective
      | some bound => simpa [effectiveIdentity, unnamed, bindAs] using effective
    simp [actsFor, stored, bound, held]

def BusReply.handed (mailbox : MailboxName) : BusReply → List StampedEnvelope
  | .registerOk active drained _ => if .agent active = mailbox then drained else []
  | .joinOk channel _ drained => if .channel channel = mailbox then drained else []
  | .awaitOk envelopes box _ => if box = mailbox then envelopes else []
  | _ => []

/-- What the effect hands to `owner` or a proxy of it from the mailbox. -/
def Out.given (s : BrokerState) (owner : ClientId) (mailbox : MailboxName) :
    Out → List StampedEnvelope
  | .reply client told => if actsFor s client owner then told.handed mailbox else []
  | _ => []

/-- What the replies of a `Register`, `Join`, `Await` or `Send` hand to `owner` and its
proxies from the mailbox. -/
def given (owner : ClientId) (mailbox : MailboxName) (event : SystemEvent) : List StampedEnvelope :=
  event.output.flatMap (Out.given event.before.broker owner mailbox)

/-- The entry as it is after it was written to a mailbox and read back. -/
def asRecorded (K : Text) (entry : StampedEnvelope) : StampedEnvelope :=
  ⟨entry.origin, K.reread entry.envelope⟩

theorem handed_sublist_given (staged : .reply client reply ∈ event.output)
    (acts : actsFor event.before.broker client owner = true) :
    (reply.handed mailbox).Sublist (given owner mailbox event) := by
  have one := (List.singleton_sublist.mpr staged).flatMap
    (Out.given event.before.broker owner mailbox)
  rw [List.flatMap_singleton, Out.given, if_pos acts] at one
  exact one

/-! ## The turns of a wake -/

section Turns
variable {K : Text} {env : BrokerEnv} {boxes : InMemoryMailbox} {mailbox : MailboxName}
  {reader : Option String} {envelope : Value} {line stamped : Bytes}

theorem handouts_stamped (canonical : K.canonicalize envelope = .ok line)
    (stamps : stampLine K line .local = .ok stamped)
    (foreign : isSelfAuthored envelope reader = false) :
    ((handouts K true reader [stamped]).map (asRecorded K)).Sublist
      [asRecorded K ⟨.local, envelope⟩] := by
  by_cases readable : Readable K envelope
  · have decoded := (decodeLine_stampLine_ok_iff K canonical stamps).mpr readable
    simp [handouts, handout?, decoded, isSelfAuthored_reread, foreign, asRecorded, K.reread_idem]
  · obtain ⟨error, refused⟩ := decodeLine_stampLine_error K canonical stamps readable
    simp [handouts, handout?, refused]

theorem readBatch_nil (K : Text) (mailbox : MailboxName) (filter : AwaitFilter)
    (reader : Option String) (since nextOffset : Nat) :
    readBatch K mailbox filter reader since ⟨[], nextOffset⟩ =
      ⟨mailbox, [], min since nextOffset, true⟩ := by
  simp [readBatch, walked, awaitBatchCap, drainsAll, deliverable, stamp, cursorAfter]

theorem handed_wakeReply (batch : AwaitBatch) (box : batch.mailbox = mailbox) :
    (wakeReply batch).handed mailbox = batch.envelopes := by
  unfold wakeReply
  split
  · simp [BusReply.handed, box]
  · rename_i empty
    have nothing : batch.envelopes = [] := by simpa using empty
    split <;> simp [BusReply.handed, nothing]

theorem wakeBatch_hands (canonical : K.canonicalize envelope = .ok line)
    (stamps : stampLine K line .local = .ok stamped)
    (foreign : isSelfAuthored envelope reader = false)
    (wanted : filterMatches filter envelope = true)
    (within : read <+: boxes.lines mailbox ++ [stamped])
    (fine : boxes[mailbox]? ≠ none ∨ read <+: boxes.lines mailbox) :
    let batch := wakeBatch K boxes mailbox filter reader (totalLen read) envelope stamped
    ∃ new, read ++ new <+: boxes.lines mailbox ++ [stamped] ∧
      batch.nextOffset = totalLen (read ++ new) ∧
      ((handouts K true reader new).map (asRecorded K)).Sublist
        (batch.envelopes.map (asRecorded K)) := by
  intro batch
  have shape : ∀ backlog : AwaitBatch,
      withTrigger filter reader backlog (some ⟨.local, envelope, stamped.length⟩) =
        if backlog.fullyDrained then
          { backlog with
            envelopes := backlog.envelopes ++ [⟨.local, envelope⟩]
            nextOffset := backlog.nextOffset + recordLen stamped }
        else backlog := by
    intro backlog
    simp [withTrigger, foldTrigger, foreign, wanted, recordLen, Nat.add_assoc]
  rcases List.prefix_concat_iff.mp within with passed | ⟨rest, split⟩
  · -- An earlier request of this wake has been given the new record.
    have there : boxes[mailbox]? ≠ none := by
      refine fine.resolve_right fun inside => ?_
      have length := inside.length_le
      rw [passed, List.length_append, List.length_singleton] at length
      omega
    obtain ⟨entries, present⟩ := Option.ne_none_iff_exists'.mp there
    rw [InMemoryMailbox.lines, present, Option.getD_some] at passed within
    have total : totalLen read = totalLen entries + recordLen stamped := by
      rw [passed, totalLen_append]
      rfl
    have beyond := InMemoryMailbox.drainFrom_beyond present
      (Nat.le.intro total.symm : totalLen entries ≤ totalLen read)
    refine ⟨[], ?_, ?_, List.nil_sublist _⟩
    · rwa [List.append_nil, InMemoryMailbox.lines, present, Option.getD_some]
    · simp only [batch, wakeBatch, beyond, readBatch_nil, shape, if_true, List.append_nil]
      omega
  · have pending := InMemoryMailbox.drainFrom_pending split.symm
    obtain ⟨first, second, rfl, envelopes, ends, whole⟩ :=
      readBatch_pending K mailbox filter reader read rest
    simp only [batch, wakeBatch, shape, pending]
    generalize readBatch K mailbox filter reader (totalLen read)
      ⟨recordsFrom (totalLen read) (first ++ second), totalLen (read ++ (first ++ second))⟩ = backlog
      at envelopes ends whole
    split
    · rename_i all
      obtain rfl := whole all
      rw [List.append_nil] at split
      refine ⟨first ++ [stamped], ?_, ?_, ?_⟩
      · exact ⟨[], by rw [List.append_nil, ← List.append_assoc, split]⟩
      · rw [ends, ← List.append_assoc, totalLen_append (read ++ first)]
        rfl
      · rw [handouts_append, List.map_append, List.map_append, envelopes]
        exact (List.Sublist.refl _).append (handouts_stamped canonical stamps foreign)
    · refine ⟨first, ?_, ends, by rw [envelopes]⟩
      rw [← split, ← List.append_assoc, List.append_assoc (read ++ first)]
      exact List.prefix_append _ _

theorem turn_hands {cursor : Option Nat} (reads : ReadsStore env boxes)
    (canonical : K.canonicalize envelope = .ok line)
    (stamps : stampLine K line .local = .ok stamped)
    (foreign : isSelfAuthored envelope reader = false)
    (wanted : filterMatches filter envelope = true) (place : cursor.getD 0 = totalLen read)
    (within : read <+: boxes.lines mailbox ++ [stamped])
    (fine : boxes[mailbox]? ≠ none ∨ read <+: boxes.lines mailbox) :
    let next := turn K env mailbox reader ⟨.local, envelope, stamped.length⟩ cursor filter
    ∃ new, read ++ new <+: boxes.lines mailbox ++ [stamped] ∧
      next.1.getD 0 = totalLen (read ++ new) ∧
      ((handouts K true reader new).map (asRecorded K)).Sublist
        ((next.2.handed mailbox).map (asRecorded K)) := by
  intro next
  cases found : env.drainFrom mailbox (cursor.getD 0) with
  | error error =>
    have same : next = (cursor, .err .internal error.toText) := by simp only [next, turn, found]
    exact ⟨[], by rwa [List.append_nil], by rw [same, List.append_nil]; exact place,
      List.nil_sublist _⟩
  | ok drained =>
    rw [place] at found
    obtain rfl := reads _ _ _ found
    have moved : next = (some (wakeBatch K boxes mailbox filter reader (totalLen read) envelope
        stamped).nextOffset, wakeReply (wakeBatch K boxes mailbox filter reader (totalLen read)
          envelope stamped)) := by
      simp only [next, turn, place, found, wakeBatch]
    rw [moved, handed_wakeReply _ (wakeBatch_mailbox ..), Option.getD_some]
    exact wakeBatch_hands canonical stamps foreign wanted within fine

theorem turns_hands (reads : ReadsStore env boxes) (canonical : K.canonicalize envelope = .ok line)
    (stamps : stampLine K line .local = .ok stamped)
    (foreign : isSelfAuthored envelope reader = false) :
    ∀ {waits : List (ClientId × AwaitFilter)} {cursor : Option Nat} {read : List Bytes},
      (∀ wait ∈ waits, filterMatches wait.2 envelope = true ∧ actsFor s wait.1 owner = true) →
      cursor.getD 0 = totalLen read → read <+: boxes.lines mailbox ++ [stamped] →
      boxes[mailbox]? ≠ none ∨
        waits.length ≤ 1 ∧ (waits ≠ [] → read <+: boxes.lines mailbox) →
      let result := turns K env mailbox reader ⟨.local, envelope, stamped.length⟩ cursor waits
      ∃ new, read ++ new <+: boxes.lines mailbox ++ [stamped] ∧
        result.1.getD 0 = totalLen (read ++ new) ∧
        ((handouts K true reader new).map (asRecorded K)).Sublist
          ((result.2.flatMap (Out.given s owner mailbox)).map (asRecorded K)) := by
  intro waits
  induction waits with
  | nil =>
    intro cursor read _ place within _
    exact ⟨[], by rwa [List.append_nil], by rwa [List.append_nil], List.nil_sublist _⟩
  | cons wait rest ih =>
    obtain ⟨waiting, filter⟩ := wait
    intro cursor read waits place within fine
    obtain ⟨⟨wanted, acts⟩, later⟩ := List.forall_mem_cons.mp waits
    obtain ⟨first, withinFirst, placeFirst, handsFirst⟩ := turn_hands reads canonical stamps
      foreign wanted place within (fine.imp_right fun alone => alone.2 (by simp))
    have fineLater : boxes[mailbox]? ≠ none ∨
        rest.length ≤ 1 ∧ (rest ≠ [] → read ++ first <+: boxes.lines mailbox) := by
      refine fine.imp_right fun alone => ?_
      have last : rest = [] := by simpa using alone.1
      simp [last]
    obtain ⟨second, withinSecond, placeSecond, handsSecond⟩ :=
      ih later placeFirst withinFirst fineLater
    refine ⟨first ++ second, ?_, ?_, ?_⟩
    · rwa [← List.append_assoc]
    · rw [← List.append_assoc]
      exact placeSecond
    · simp only [turns, List.flatMap_cons, Out.given, acts, if_true, List.nil_append,
        handouts_append, List.map_append]
      exact handsFirst.append handsSecond

end Turns

/-! ## Steps -/

/-- A step in which the cursors keep to the records and to the name of their holder. -/
def careful (event : SystemEvent) : Bool :=
  match event.input.input with
  | .wire client (.send target envelope) =>
    -- A `Send` that creates a mailbox wakes no two requests of one holder.
    event.before.boxes[target.mailbox]?.isSome ||
      (recipients event.before.broker envelope target).all fun name =>
        (selectedWaits event.input.env event.before.broker name envelope
          (clientOrigin event.before.broker client)).length ≤ 1
  | .wire client (.register name _ _ _ _) =>
    -- A connection with a cursor for a channel does not change its name.
    event.before.broker.clients[client]?.all fun state =>
      state.name == some name || state.awaitOffsets.toList.all fun entry => !entry.1.isChannel
  | _ => true

theorem length_selectedWaits_of_careful (fine : careful event = true)
    (asked : event.input.input = .wire client (.send target envelope))
    (absent : event.before.boxes[target.mailbox]? = none)
    (recipient : name ∈ recipients event.before.broker envelope target) :
    (selectedWaits event.input.env event.before.broker name envelope
      (clientOrigin event.before.broker client)).length ≤ 1 := by
  simp only [careful, asked, absent, Option.isSome_none, Bool.false_or, List.all_eq_true,
    decide_eq_true_eq] at fine
  exact fine name recipient

theorem holdsName_of_careful (inv : StateInvariant event.before.broker)
    (fine : careful event = true) {channel : String} {pid : Nat} {cwd : Option String}
    {listen : Bool} {origin : Option Origin}
    (asked : event.input.input = .wire client (.register name pid cwd listen origin))
    (found : awaitCursor event.before.broker client (.channel channel) = some cursor) :
    HoldsName event.before.broker client name := by
  obtain ⟨state, stored, here⟩ := Option.bind_eq_some_iff.mp found
  simp only [careful, asked, stored, Option.all_some, Bool.or_eq_true, beq_iff_eq] at fine
  refine ⟨state, stored, (inv.live client state stored).2, fine.resolve_right fun none => ?_⟩
  have kind := List.all_eq_true.mp none _ ((mem_toList_iff _ _ _).mpr here)
  simp [MailboxName.isChannel] at kind

/-- The cursor lies between two records, and what the lines below it hold for the holder
of the name is among what the holder and its proxies have been given. -/
def CaughtUp (K : Text) (owner : ClientId) (mailbox : MailboxName) (trace : List SystemEvent)
    (s : System) : Prop :=
  ∀ cursor, awaitCursor s.broker owner mailbox = some cursor → ∃ name read rest,
    HoldsName s.broker owner name ∧ s.boxes.lines mailbox = read ++ rest ∧
    cursor = totalLen read ∧
    ((handouts K true (channelReader mailbox name) read).map (asRecorded K)).Sublist
      ((trace.flatMap (given owner mailbox)).map (asRecorded K))

theorem HoldsName.name_unique {other : String} (first : HoldsName s owner name)
    (second : HoldsName s owner other) : name = other := by
  obtain ⟨state, stored, -, named⟩ := first
  obtain ⟨state', stored', -, named'⟩ := second
  rw [stored, Option.some.injEq] at stored'
  rw [stored', named', Option.some.injEq] at named
  exact named.symm

theorem CaughtUp.offset {s : System} (caught : CaughtUp K owner mailbox trace s)
    (held : HoldsName s.broker owner name) :
    ∃ read rest, s.boxes.lines mailbox = read ++ rest ∧
      awaitOffset s.broker owner mailbox = totalLen read ∧
      ((handouts K true (channelReader mailbox name) read).map (asRecorded K)).Sublist
        ((trace.flatMap (given owner mailbox)).map (asRecorded K)) := by
  rw [awaitOffset_eq]
  cases found : awaitCursor s.broker owner mailbox with
  | none => exact ⟨[], s.boxes.lines mailbox, rfl, rfl, List.nil_sublist _⟩
  | some cursor =>
    obtain ⟨other, read, rest, heldOther, lines, place, hands⟩ := caught cursor found
    rw [held.name_unique heldOther]
    exact ⟨read, rest, lines, place, hands⟩

section Steps
variable {K : Text} {filled : InMemoryMailbox → Prop} {trace : List SystemEvent}
  {owner : ClientId} {mailbox : MailboxName} {event : SystemEvent} {name : String}

theorem holdsName_of_registration {entry : String × Origin} (inv : StateInvariant s)
    (registered : registration s client = some entry) : HoldsName s client entry.1 := by
  obtain ⟨state, stored, found⟩ := Option.bind_eq_some_iff.mp registered
  obtain ⟨found, named, rfl⟩ := Option.map_eq_some_iff.mp found
  exact ⟨state, stored, (inv.live client state stored).2, named⟩

theorem handle_holdsName {s' : BrokerState} {input : BrokerInput} {now : Nat} {outs : List Out}
    (inv : StateInvariant s) (taken : handle K env s input now = some (s', outs))
    (held : HoldsName s owner name) (there : s'.clients[owner]? ≠ none) :
    HoldsName s' owner name ∨ ∃ other pid cwd listen origin,
      input = .wire owner (.register other pid cwd listen origin) ∧ HoldsName s' owner other := by
  have after := inv.step (handle_transition taken)
  rcases handle_registration inv taken owner with same | gone |
    ⟨other, pid, cwd, listen, origin, -, -, input, -, registered⟩
  · left
    obtain ⟨state, stored, -, isNamed⟩ := held
    have before : registration s owner = some (name, state.origin) := by
      simp [registration, stored, isNamed]
    exact holdsName_of_registration after (same.trans before)
  · exact absurd gone there
  · exact Or.inr ⟨other, pid, cwd, listen, origin, input, holdsName_of_registration after registered⟩

theorem CaughtUp.kept (run : (systemMachine K filled).Run trace event.before)
    (taken : (systemMachine K filled).step event.before event.input event.output event.after)
    (fine : careful event = true) (caught : CaughtUp K owner mailbox trace event.before)
    (same : awaitCursor event.after.broker owner mailbox =
      awaitCursor event.before.broker owner mailbox) :
    CaughtUp K owner mailbox (trace ++ [event]) event.after := by
  intro cursor found
  have there : event.after.broker.clients[owner]? ≠ none := by
    intro gone
    simp [awaitCursor, gone] at found
  rw [same] at found
  obtain ⟨name, read, rest, held, lines, place, hands⟩ := caught cursor found
  have more : ∃ more, event.after.boxes.lines mailbox = read ++ (rest ++ more) := by
    rcases lines_step run taken mailbox with same | ⟨_, _, _, _, _, stamped, _, _, _, appended⟩
    · exact ⟨[], by rw [same, lines, List.append_nil]⟩
    · exact ⟨[stamped], by rw [appended, lines, List.append_assoc]⟩
  obtain ⟨more, lines'⟩ := more
  have longer := hands.trans (List.sublist_append_left _ ((given owner mailbox event).map (asRecorded K)))
  rw [← List.map_append, ← List.flatMap_singleton (given owner mailbox), ← List.flatMap_append] at longer
  rcases handle_holdsName (StateInvariant.of_system run) taken.2.1 held there with held' |
    ⟨other, pid, cwd, listen, origin, asked, held'⟩
  · exact ⟨name, read, rest ++ more, held', lines', place, longer⟩
  · refine ⟨other, read, rest ++ more, held', lines', place, ?_⟩
    cases mailbox with
    | agent agent => exact longer
    | channel channel =>
      have steady := holdsName_of_careful (StateInvariant.of_system run) fine asked found
      rw [← held.name_unique steady]
      exact longer

theorem CaughtUp.moved (read new rest : List Bytes) (held : HoldsName event.after.broker owner name)
    (place : awaitCursor event.after.broker owner mailbox = some (totalLen (read ++ new)))
    (lines : event.after.boxes.lines mailbox = read ++ new ++ rest)
    (earlier : ((handouts K true (channelReader mailbox name) read).map (asRecorded K)).Sublist
      ((trace.flatMap (given owner mailbox)).map (asRecorded K)))
    (here : ((handouts K true (channelReader mailbox name) new).map (asRecorded K)).Sublist
      ((given owner mailbox event).map (asRecorded K))) :
    CaughtUp K owner mailbox (trace ++ [event]) event.after := by
  intro cursor found
  rw [place, Option.some.injEq] at found
  refine ⟨name, read ++ new, rest, held, lines, found.symm, ?_⟩
  rw [handouts_append, List.map_append, List.flatMap_append, List.flatMap_singleton,
    List.map_append]
  exact earlier.append here

theorem CaughtUp.whole (held : HoldsName event.after.broker owner name)
    (place : awaitCursor event.after.broker owner mailbox =
      some (event.before.boxes.drainFrom mailbox 0).nextOffset)
    (boxes : event.after.boxes = event.before.boxes) (staged : .reply client reply ∈ event.output)
    (acts : actsFor event.before.broker client owner = true)
    (handed : reply.handed mailbox = decodeLines K 0 (event.before.boxes.drainFrom mailbox 0)) :
    CaughtUp K owner mailbox (trace ++ [event]) event.after := by
  obtain ⟨decoded, ends⟩ := decodeLines_whole K event.before.boxes mailbox
  have all : (reply.handed mailbox).Sublist (given owner mailbox event) :=
    handed_sublist_given staged acts
  rw [handed, decoded] at all
  refine CaughtUp.moved [] (event.before.boxes.lines mailbox) [] held ?_ ?_ (List.nil_sublist _)
    (((handouts_sublist K true _ _).trans all).map _)
  · rw [place, ends, List.nil_append]
  · rw [boxes, List.nil_append, List.append_nil]

variable (run : (systemMachine K filled).Run trace event.before)
  (taken : (systemMachine K filled).step event.before event.input event.output event.after)
include run taken

theorem holdsName_of_not_register (held : HoldsName event.before.broker owner name)
    (found : awaitCursor event.after.broker owner mailbox = some cursor)
    (unnamed : ∀ other pid cwd listen origin,
      event.input.input ≠ .wire owner (.register other pid cwd listen origin)) :
    HoldsName event.after.broker owner name := by
  have present : event.after.broker.clients[owner]? ≠ none := by
    intro gone
    simp [awaitCursor, gone] at found
  rcases handle_holdsName (StateInvariant.of_system run) taken.2.1 held present with held' |
    ⟨other, pid, cwd, listen, origin, asked, -⟩
  · exact held'
  · exact absurd asked (unnamed other pid cwd listen origin)

theorem CaughtUp.awaited {timeoutMs : Nat} {task : Option Uuid} {drained : DrainResult}
    {batch : AwaitBatch} (caught : CaughtUp K owner mailbox trace event.before)
    (asked : event.input.input = .wire client (.await timeoutMs task))
    (resolved : resolveOpIdentity event.input.env event.before.broker client = .ok name)
    (holder : canonicalHolderId event.before.broker name = some owner)
    (found : event.input.env.drainFrom mailbox (awaitOffset event.before.broker owner mailbox) =
      .ok drained) (reads : batch = readBatch K mailbox filter (channelReader mailbox name)
      (awaitOffset event.before.broker owner mailbox) drained) (answered : batch.envelopes = [] ∨
      .reply client (.awaitOk batch.envelopes mailbox batch.nextOffset) ∈ event.output)
    (place : awaitCursor event.after.broker owner mailbox = some batch.nextOffset) :
    CaughtUp K owner mailbox (trace ++ [event]) event.after := by
  have held := HoldsName.of_canonicalHolderId holder
  obtain ⟨read, rest, lines, offset, earlier⟩ := caught.offset held
  rw [offset] at found reads
  have whole := taken.1 _ _ _ found
  rw [InMemoryMailbox.drainFrom_pending lines] at whole
  subst whole
  obtain ⟨first, second, rfl, envelopes, ends, -⟩ :=
    readBatch_pending K mailbox filter (channelReader mailbox name) read rest
  rw [← reads] at envelopes ends
  have held' : HoldsName event.after.broker owner name :=
    holdsName_of_not_register run taken held place (by simp [asked])
  refine CaughtUp.moved read first second held' (by rw [place, ends]) ?_ earlier ?_
  · rw [boxes_of_not_send run taken (by simp [asked]), lines, List.append_assoc]
  · rcases answered with nothing | staged
    · rw [← envelopes, nothing]
      exact List.nil_sublist _
    · have all : (BusReply.handed mailbox (.awaitOk batch.envelopes mailbox batch.nextOffset)).Sublist
          (given owner mailbox event) :=
        handed_sublist_given staged
          (actsFor_of_resolved (StateInvariant.of_system run) resolved holder)
      rw [BusReply.handed, if_pos rfl, envelopes] at all
      exact all.map _

theorem sent_step (asked : event.input.input = .wire client (.send target envelope))
    (accepted : SendAccepted K event.input.env event.before.broker client envelope identity line
      stamped) (recipient : name ∈ recipients event.before.broker envelope target) :
    event.after.boxes.lines target.mailbox =
        event.before.boxes.lines target.mailbox ++ [stamped] ∧
      (wakeTurns K event.input.env event.before.broker target.mailbox
        ⟨clientOrigin event.before.broker client, envelope, stamped.length⟩ name).2.Sublist
          event.output := by
  have inv := StateInvariant.of_system run
  have handled := taken.2.1
  rw [asked] at handled
  obtain ⟨s', rows, shown, -⟩ := handle_send inv accepted target event.input.now
  rw [handled, Option.some.injEq, Prod.mk.injEq] at shown
  constructor
  · rw [taken.2.2]
    rcases boxes_step inv handled event.before.boxes with ⟨-, plain⟩ |
      ⟨_, _, _, _, _, _, same, accepted', -, appended⟩
    · have append : .appendMailbox target.mailbox line (clientOrigin event.before.broker client) ∈
          event.output := by
        rw [shown.2]
        exact List.mem_cons_self ..
      cases plain _ append
    · cases same
      obtain ⟨-, -, rfl⟩ := accepted.unique accepted'
      rw [appended, InMemoryMailbox.lines_append, if_pos rfl]
  · rw [shown.2]
    have one := (List.singleton_sublist.mpr recipient).flatMap fun name => (wakeTurns K
      event.input.env event.before.broker target.mailbox
        ⟨clientOrigin event.before.broker client, envelope, stamped.length⟩ name).2
    rw [List.flatMap_singleton] at one
    exact (one.trans (List.sublist_cons_self _ _)).trans (List.sublist_append_left _ _)

theorem CaughtUp.woken {offset : Nat} (fine : careful event = true)
    (caught : CaughtUp K owner target.mailbox trace event.before)
    (asked : event.input.input = .wire client (.send target envelope))
    (accepted : SendAccepted K event.input.env event.before.broker client envelope identity line
      stamped) (recipient : name ∈ recipients event.before.broker envelope target)
    (holder : canonicalHolderId event.before.broker name = some owner)
    (turned : (wakeTurns K event.input.env event.before.broker target.mailbox
      ⟨clientOrigin event.before.broker client, envelope, stamped.length⟩ name).1 = some offset)
    (place : awaitCursor event.after.broker owner target.mailbox = some offset) :
    CaughtUp K owner target.mailbox (trace ++ [event]) event.after := by
  have inv := StateInvariant.of_system run
  have held := HoldsName.of_canonicalHolderId holder
  have cursor : holderCursor event.before.broker name target.mailbox =
      awaitCursor event.before.broker owner target.mailbox := by
    simp only [holderCursor, holder, Option.bind_some]
  obtain ⟨read, rest, lines, start, earlier⟩ := caught.offset held
  rw [awaitOffset_eq, ← cursor] at start
  have waits : ∀ wait ∈ selectedWaits event.input.env event.before.broker name envelope
      (clientOrigin event.before.broker client),
      Waits event.input.env event.before.broker name envelope
        (clientOrigin event.before.broker client) wait.1 wait.2 :=
    fun wait member => mem_selectedWaits_iff.mp member
  cases selected : selectedWaits event.input.env event.before.broker name envelope
      (clientOrigin event.before.broker client) with
  | nil =>
    refine CaughtUp.kept run taken fine caught ?_
    rw [place, ← turned, wakeTurns, selected, turns, cursor]
  | cons wait others =>
    have trusted : clientOrigin event.before.broker client = .local :=
      (waits wait (by rw [selected]; exact List.mem_cons_self ..)).trusted
    have stamps := accepted.stamps
    rw [trusted] at stamps
    have mine : ∀ wait ∈ selectedWaits event.input.env event.before.broker name envelope
        .local, filterMatches wait.2 envelope = true ∧
          actsFor event.before.broker wait.1 owner = true := by
      rw [← trusted]
      exact fun wait member => ⟨(waits wait member).wanted,
        actsFor_of_resolved inv (waits wait member).resolves holder⟩
    have single : event.before.boxes[target.mailbox]? ≠ none ∨
        (selectedWaits event.input.env event.before.broker name envelope .local).length ≤ 1 ∧
          (selectedWaits event.input.env event.before.broker name envelope .local ≠ [] →
            read <+: event.before.boxes.lines target.mailbox) := by
      by_cases absent : event.before.boxes[target.mailbox]? = none
      · rw [← trusted]
        exact Or.inr ⟨length_selectedWaits_of_careful fine asked absent recipient,
          fun _ => lines ▸ List.prefix_append _ _⟩
      · exact Or.inl absent
    have within : read <+: event.before.boxes.lines target.mailbox ++ [stamped] := by
      rw [lines, List.append_assoc]
      exact List.prefix_append _ _
    obtain ⟨new, ⟨rest', split⟩, ends, hands⟩ := turns_hands taken.1 accepted.canonical stamps
      (foreign_of_recipient recipient) mine start within single
    rw [wakeTurns, trusted] at turned
    simp only at turned ends
    rw [turned, Option.getD_some] at ends
    have held' : HoldsName event.after.broker owner name :=
      holdsName_of_not_register run taken held place (by simp [asked])
    obtain ⟨lines', outs⟩ := sent_step run taken asked accepted recipient
    refine CaughtUp.moved read new rest' held' (by rw [place, ends]) ?_ earlier ?_
    · rw [lines', split]
    · rw [wakeTurns, trusted] at outs
      exact hands.trans ((outs.flatMap _).map _)

theorem CaughtUp.step (fine : careful event = true)
    (caught : CaughtUp K owner mailbox trace event.before) :
    CaughtUp K owner mailbox (trace ++ [event]) event.after := by
  have inv := StateInvariant.of_system run
  rcases handle_awaitCursor inv taken.2.1 owner mailbox with same | gone | ⟨offset, place, advance⟩
  · exact CaughtUp.kept run taken fine caught same
  · intro cursor found
    rw [gone] at found
    cases found
  · generalize asked : event.input.input = input at advance
    cases advance with
    | @register name pid cwd listen origin drained found staged =>
      have handled := taken.2.1
      rw [asked] at handled
      have held := holdsName_of_registration (inv.step (handle_transition handled))
        (registration_of_registerOk handled staged)
      obtain rfl := taken.1 _ _ _ found
      have self : actsFor event.before.broker owner owner = true := by simp [actsFor]
      exact CaughtUp.whole held place (boxes_of_not_send run taken (by simp [asked])) staged
        self (if_pos rfl)
    | @join client channel name role members drained resolved holder found staged =>
      obtain rfl := taken.1 _ _ _ found
      have held : HoldsName event.after.broker owner name :=
        holdsName_of_not_register run taken (HoldsName.of_canonicalHolderId holder) place
          (by simp [asked])
      exact CaughtUp.whole held place (boxes_of_not_send run taken (by simp [asked])) staged
        (actsFor_of_resolved inv resolved holder) (if_pos rfl)
    | await resolved holder _ found reads answered =>
      exact caught.awaited run taken asked resolved holder found reads answered place
    | wake accepted recipient holder turned _ =>
      exact caught.woken run taken fine asked accepted recipient holder turned place

end Steps

/-! ## Runs -/

theorem caughtUp_of_run {filled : InMemoryMailbox → Prop} {s : System}
    (run : (systemMachine K filled).Run trace s) (fine : ∀ event ∈ trace, careful event = true)
    (owner : ClientId) (mailbox : MailboxName) : CaughtUp K owner mailbox trace s := by
  refine run.history_of_allowed (fun event => careful event = true)
    (fun trace s => CaughtUp K owner mailbox trace s) ?_ ?_ fine
  · rintro s ⟨⟨startedAt, fresh⟩, -⟩ cursor found
    simp [fresh, BrokerState.new, awaitCursor] at found
  · intro trace s call outs s' run caught last taken
    exact CaughtUp.step run taken last caught

/-- In every run of careful steps, the local messages below a cursor of a holder, other
than its own posts, are in the replies to the holder and its proxies: in order, and each
as often as it is in the mailbox. -/
theorem local_mail_below_cursor_was_given {K : Text} {filled : InMemoryMailbox → Prop}
    {trace : List SystemEvent} {s : System} (run : (systemMachine K filled).Run trace s)
    (fine : ∀ event ∈ trace, careful event = true) {owner : ClientId} {name : String}
    {mailbox : MailboxName} {cursor : Nat} (held : HoldsName s.broker owner name)
    (found : awaitCursor s.broker owner mailbox = some cursor) :
    ((handouts K true (channelReader mailbox name)
        (linesBelow cursor 0 (s.boxes.lines mailbox))).map (asRecorded K)).Sublist
      ((trace.flatMap (given owner mailbox)).map (asRecorded K)) := by
  obtain ⟨other, read, rest, heldOther, lines, rfl, hands⟩ :=
    caughtUp_of_run run fine owner mailbox cursor found
  rw [held.name_unique heldOther, lines, linesBelow_boundary]
  exact hands

def toAlice : Value := auditEntry "agent:example/bob" "agent:example/alice"

def toCarol : Value := auditEntry "agent:example/bob" "agent:example/carol"

def wokenCalls : List Call :=
  waitingCalls ++ [⟨emptyEnv, .wire 2 (.send (.agent "alice") toAlice), 6⟩]

theorem wokenCalls_given :
    let trace := systemEvents Plain.text firstSystem wokenCalls
    let s := systemAfter Plain.text firstSystem wokenCalls
    handouts Plain.text true none (linesBelow 261 0 (s.boxes.lines (.agent "alice"))) =
        [⟨.local, toAlice⟩] ∧
      ((handouts Plain.text true none
          (linesBelow 261 0 (s.boxes.lines (.agent "alice")))).map (asRecorded Plain.text)).Sublist
        ((trace.flatMap (given 1 (.agent "alice"))).map (asRecorded Plain.text)) := by
  intro trace s
  have facts : handouts Plain.text true none (linesBelow 261 0 (s.boxes.lines (.agent "alice"))) =
        [⟨.local, toAlice⟩] ∧ trace.all careful = true ∧
      canonicalHolderId s.broker "alice" = some 1 ∧
      awaitCursor s.broker 1 (.agent "alice") = some 261 := by
    decide +kernel
  obtain ⟨holds, fine, holder, cursor⟩ := facts
  have reader : channelReader (.agent "alice") "alice" = none := rfl
  have given := local_mail_below_cursor_was_given (run_firstSystem wokenCalls)
    (List.all_eq_true.mp fine) (HoldsName.of_canonicalHolderId holder) cursor
  rw [reader] at given
  exact ⟨holds, given⟩

/-- Alice and a proxy of hers wait, and two messages come. -/
def twoWaitersCalls : List Call :=
  [.wire 1 (.hello 3 "cli" none), .wire 1 (.register "alice" 11 none true (some .local)),
    .wire 3 (.hello 3 "cli" (some "alice")), .wire 2 (.hello 3 "cli" none),
    .wire 2 (.register "bob" 12 none false (some .local)), .wire 1 (.await 1000 none),
    .wire 3 (.await 1000 none), .wire 2 (.send (.agent "alice") toAlice),
    .wire 2 (.send (.agent "alice") toCarol)].map fun input => ⟨emptyEnv, input, 6⟩

/-- The second request counts the first message once more, and the cursor is past the
second message before it is there. -/
theorem twoWaitersCalls_pass_over :
    let trace := systemEvents Plain.text firstSystem twoWaitersCalls
    let s := systemAfter Plain.text firstSystem twoWaitersCalls
    (systemMachine Plain.text (· = ∅)).Run trace s ∧ HoldsName s.broker 1 "alice" ∧
      awaitCursor s.broker 1 (.agent "alice") = some 522 ∧
      handouts Plain.text true none (linesBelow 522 0 (s.boxes.lines (.agent "alice"))) =
        [⟨.local, toAlice⟩, ⟨.local, toCarol⟩] ∧
      trace.flatMap (given 1 (.agent "alice")) = [⟨.local, toAlice⟩, ⟨.local, toAlice⟩] ∧
      asRecorded Plain.text ⟨.local, toCarol⟩ ≠ asRecorded Plain.text ⟨.local, toAlice⟩ := by
  intro trace s
  have facts : canonicalHolderId s.broker "alice" = some 1 ∧
      awaitCursor s.broker 1 (.agent "alice") = some 522 ∧
      handouts Plain.text true none (linesBelow 522 0 (s.boxes.lines (.agent "alice"))) =
        [⟨.local, toAlice⟩, ⟨.local, toCarol⟩] ∧
      trace.flatMap (given 1 (.agent "alice")) = [⟨.local, toAlice⟩, ⟨.local, toAlice⟩] := by
    decide +kernel
  obtain ⟨holder, shown⟩ := facts
  refine ⟨run_firstSystem twoWaitersCalls, HoldsName.of_canonicalHolderId holder, shown.1,
    shown.2.1, shown.2.2, ?_⟩
  simp only [asRecorded, Plain.reread_eq]
  decide +kernel

end Famp.Bus
