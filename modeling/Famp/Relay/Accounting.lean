import Famp.Data.Run
import Famp.Relay.Queue

/-!
# The relay queue accounts for what it is given

Over a run of calls in the order of their times, whatever leaves the queue of a
domain leaves it at the front: handed out by a drain, evicted by an enqueue that
found the queue full, or expired.  What was enqueued for the domain is what has
left, in order, and then what is still queued.
-/

set_option autoImplicit false

namespace Famp.Relay

open Std Data Json

/-! ## Calls -/

inductive QueueCall where
  | enqueue (domain recipient : String) (bytes : Bytes) (now : Int)
  | drain (domain : String) (now : Int) (max : Nat)
  | sweep (now : Int)
  deriving DecidableEq, Repr

inductive QueueReply where
  | enqueued (outcome : EnqueueOutcome)
  | drained (entries : List QueuedEnvelope)
  | swept
  deriving DecidableEq, Repr

def QueueCall.time : QueueCall → Int
  | .enqueue _ _ _ now => now
  | .drain _ now _ => now
  | .sweep now => now

def RelayQueues.answer (queues : RelayQueues) : QueueCall → QueueReply × RelayQueues
  | .enqueue domain recipient bytes now =>
    let result := queues.enqueue domain recipient bytes now
    (.enqueued result.1, result.2)
  | .drain domain now max =>
    let result := queues.drain domain now max
    (.drained result.1, result.2)
  | .sweep now => (.swept, queues.sweep now)

abbrev QueueEvent := Event RelayQueues QueueCall QueueReply

def RelayQueues.called (queues : RelayQueues) (call : QueueCall) : QueueEvent :=
  ⟨queues, call, (queues.answer call).1, (queues.answer call).2⟩

def enqueuedBy (domain : String) : QueueCall → List QueuedEnvelope
  | .enqueue target recipient bytes now => if target = domain then [⟨recipient, bytes, now⟩] else []
  | .drain _ _ _ => []
  | .sweep _ => []

/-- What a call is answered with from the queue of a domain. -/
def returnedBy (domain : String) (event : QueueEvent) : List QueuedEnvelope :=
  match event.input, event.output with
  | .drain target _ _, .drained entries => if target = domain then entries else []
  | _, _ => []

def enqueuedFor (domain : String) (trace : List QueueEvent) : List QueuedEnvelope :=
  trace.flatMap fun event => enqueuedBy domain event.input

def returnedFor (domain : String) (trace : List QueueEvent) : List QueuedEnvelope :=
  trace.flatMap (returnedBy domain)

/-! ## How an entry leaves a queue -/

inductive Departure where
  | returned
  | evicted
  | expired
  deriving DecidableEq, Repr

/-- The enqueue found the queue full of entries that are not older than the entry. -/
structure Evicts (domain : String) (event : QueueEvent) (entry : QueuedEnvelope) : Prop where
  call : ∃ recipient bytes now, event.input = .enqueue domain recipient bytes now
  reported : event.output = .enqueued .queuedAfterDroppingOldest
  full : (event.before.queue domain).length = relayQueueMaxPerDomain
  front : (event.before.queue domain).head? = some entry
  oldest : ∀ other ∈ event.before.queue domain, entry.queuedAt ≤ other.queuedAt

/-- The drain or sweep found the entry past its lifetime. -/
structure Expires (domain : String) (event : QueueEvent) (entry : QueuedEnvelope) : Prop where
  call : (∃ now max, event.input = .drain domain now max) ∨ ∃ now, event.input = .sweep now
  queued : entry ∈ event.before.queue domain
  old : relayEntryTtlSecs < wholeSeconds (event.input.time - entry.queuedAt)

/-- The call accounts for a departure. -/
def Explains (domain : String) (event : QueueEvent) (entry : QueuedEnvelope) : Departure → Prop
  | .returned => entry ∈ returnedBy domain event
  | .evicted => Evicts domain event entry
  | .expired => Expires domain event entry

/-- What a call does to the queue of a domain: entries leave at the front, and the new
entry goes to the end. -/
structure Moves (domain : String) (event : QueueEvent) (left : List (QueuedEnvelope × Departure))
    (kept : List QueuedEnvelope) : Prop where
  before : event.before.queue domain = left.map Prod.fst ++ kept
  after : event.after.queue domain = kept ++ enqueuedBy domain event.input
  returned : returnedBy domain event =
    (left.filter fun entry => decide (entry.2 = .returned)).map Prod.fst
  explained : ∀ entry ∈ left, Explains domain event entry.1 entry.2

/-- The entries that are past their lifetime. -/
def expiredOf (now : Int) (queue : List QueuedEnvelope) : List QueuedEnvelope :=
  queue.takeWhile fun entry => decide (relayEntryTtlSecs < wholeSeconds (now - entry.queuedAt))

variable {queues : RelayQueues} {now : Int} {domain : String}

theorem old_mono {first second : Int} (later : first ≤ second)
    (old : relayEntryTtlSecs < wholeSeconds (now - second)) :
    relayEntryTtlSecs < wholeSeconds (now - first) := by
  have reached := (le_wholeSeconds_iff (n := relayEntryTtlSecs + 1) (by decide)).mp old
  refine (le_wholeSeconds_iff (n := relayEntryTtlSecs + 1) (by decide)).mpr ?_
  omega

variable {queue : List QueuedEnvelope} {trace : List QueueEvent} {call : QueueCall}

theorem expiredOf_append_retained (now : Int)
    (sorted : queue.Pairwise fun first second => first.queuedAt ≤ second.queuedAt) :
    expiredOf now queue ++ retainUnexpired now queue = queue := by
  induction queue with
  | nil => rfl
  | cons entry rest ih =>
    obtain ⟨first, sorted⟩ := List.pairwise_cons.mp sorted
    by_cases old : relayEntryTtlSecs < wholeSeconds (now - entry.queuedAt)
    · have dropped : ¬wholeSeconds (now - entry.queuedAt) ≤ relayEntryTtlSecs := Int.not_le.mpr old
      rw [expiredOf, List.takeWhile_cons_of_pos (by simpa using old), retainUnexpired,
        List.filter_cons_of_neg (by simpa using dropped), List.cons_append]
      exact congrArg (entry :: ·) (ih sorted)
    · rw [expiredOf, List.takeWhile_cons_of_neg (by simpa using old), List.nil_append, retainUnexpired,
        List.filter_eq_self]
      intro other member
      refine decide_eq_true (Int.not_lt.mp fun expired => old ?_)
      rcases List.mem_cons.mp member with rfl | later
      · exact expired
      · exact old_mono (first other later) expired

theorem old_of_mem_expiredOf {entry : QueuedEnvelope} (member : entry ∈ expiredOf now queue) :
    relayEntryTtlSecs < wholeSeconds (now - entry.queuedAt) := by
  simpa using List.mem_takeWhile_imp member

/-! ## One call -/

namespace RelayQueues

variable (queues : RelayQueues)

theorem enqueue_eq (domain recipient : String) (bytes : Bytes) (now : Int) (other : String) :
    (queues.enqueue domain recipient bytes now).2.queue other =
      if domain = other then
        (queues.queue other).drop
            (if relayQueueMaxPerDomain ≤ (queues.queue other).length then 1 else 0) ++
          [⟨recipient, bytes, now⟩]
      else queues.queue other := by
  simp only [enqueue]
  split
  next full =>
    rw [queue_insert]
    split
    next same => rw [← same, if_pos full]
    next => rfl
  next room =>
    rw [queue_insert]
    split
    next same => rw [← same, if_neg room, List.drop_zero]
    next => rfl

end RelayQueues

theorem filter_returned_const (entries : List QueuedEnvelope) (departure : Departure) :
    (((entries.map (·, departure)).filter fun entry => decide (entry.2 = .returned)).map Prod.fst) =
      if departure = .returned then entries else [] := by
  split
  next same =>
    subst same
    rw [List.filter_eq_self.mpr (by simp), List.map_map]
    exact List.map_id entries
  next other =>
    rw [List.filter_eq_nil_iff.mpr (by simp [other]), List.map_nil]

/-- A call for another domain does nothing to the queue, and a sweep only drops what has
expired. -/
def Apart (domain : String) (event : QueueEvent) : Prop :=
  match event.input with
  | .enqueue target _ _ _ => target ≠ domain → event.after.queue domain = event.before.queue domain
  | .drain target _ _ => target ≠ domain → event.after.queue domain = event.before.queue domain
  | .sweep now => event.after.queue domain = retainUnexpired now (event.before.queue domain)

theorem called_apart (queues : RelayQueues) (domain : String) (call : QueueCall) :
    Apart domain (queues.called call) := by
  cases call with
  | enqueue target recipient bytes now =>
    exact fun other => (queues.enqueue_eq target recipient bytes now domain).trans (if_neg other)
  | drain target now max =>
    exact fun other => ((queues.drain_eq target now max).2 domain).trans (if_neg other)
  | sweep now => exact RelayQueues.queue_sweep now domain

theorem moves_enqueue (queues : RelayQueues) (domain target recipient : String) (bytes : Bytes)
    (now : Int) (bounded : (queues.queue domain).length ≤ relayQueueMaxPerDomain)
    (sorted : (queues.queue domain).Pairwise fun first second => first.queuedAt ≤ second.queuedAt) :
    ∃ left kept, Moves domain (queues.called (.enqueue target recipient bytes now)) left kept := by
  have after := queues.enqueue_eq target recipient bytes now domain
  by_cases same : target = domain
  · subst same
    rw [if_pos rfl] at after
    by_cases full : relayQueueMaxPerDomain ≤ (queues.queue target).length
    · cases queue : queues.queue target with
      | nil =>
        rw [queue] at full
        exact absurd full (by decide)
      | cons entry rest =>
        rw [if_pos full, queue, List.drop_one, List.tail_cons] at after
        have front : (queues.queue target).head? = some entry := by rw [queue, List.head?_cons]
        have oldest : ∀ other ∈ queues.queue target, entry.queuedAt ≤ other.queuedAt := by
          rw [queue] at sorted ⊢
          exact List.forall_mem_cons.mpr ⟨Int.le_refl _, (List.pairwise_cons.mp sorted).1⟩
        refine ⟨[(entry, .evicted)], rest, queue, ?_, rfl, ?_⟩
        · rw [RelayQueues.called, enqueuedBy, if_pos rfl]
          exact after
        · intro departed member
          obtain rfl := List.mem_singleton.mp member
          refine ⟨⟨recipient, bytes, now, rfl⟩, ?_, Nat.le_antisymm bounded full, front, oldest⟩
          simp only [RelayQueues.called, RelayQueues.answer, RelayQueues.enqueue, if_pos full]
    · rw [if_neg full, List.drop_zero] at after
      refine ⟨[], queues.queue target, rfl, ?_, rfl, by simp⟩
      rw [RelayQueues.called, enqueuedBy, if_pos rfl]
      exact after
  · rw [if_neg same] at after
    refine ⟨[], queues.queue domain, rfl, ?_, rfl, by simp⟩
    rw [RelayQueues.called, enqueuedBy, if_neg same, List.append_nil]
    exact after

theorem moves_drain (queues : RelayQueues) (domain target : String) (now : Int) (max : Nat)
    (sorted : (queues.queue domain).Pairwise fun first second => first.queuedAt ≤ second.queuedAt) :
    ∃ left kept, Moves domain (queues.called (.drain target now max)) left kept := by
  obtain ⟨returned, after⟩ := queues.drain_eq target now max
  have after := after domain
  by_cases same : target = domain
  · subst same
    rw [if_pos rfl] at after
    have split := expiredOf_append_retained now sorted
    have answered : returnedBy target (queues.called (.drain target now max)) =
        (retainUnexpired now (queues.queue target)).take max := by
      simpa [returnedBy, RelayQueues.called, RelayQueues.answer] using returned
    refine ⟨(expiredOf now (queues.queue target)).map (·, .expired) ++
        ((retainUnexpired now (queues.queue target)).take max).map (·, .returned),
      (retainUnexpired now (queues.queue target)).drop max, ?_, ?_, ?_, ?_⟩
    · simp only [List.map_append, List.map_map, Function.comp_def, List.map_id', List.append_assoc,
        List.take_append_drop]
      exact split.symm
    · exact after.trans (List.append_nil _).symm
    · rw [answered, List.filter_append, List.map_append, filter_returned_const, filter_returned_const]
      simp
    · intro departed member
      rcases List.mem_append.mp member with expired | handed
      · obtain ⟨entry, among, rfl⟩ := List.mem_map.mp expired
        exact ⟨.inl ⟨now, max, rfl⟩, (List.takeWhile_sublist _).subset among, old_of_mem_expiredOf among⟩
      · obtain ⟨entry, among, rfl⟩ := List.mem_map.mp handed
        rw [← answered] at among
        exact among
  · rw [if_neg same] at after
    refine ⟨[], queues.queue domain, rfl, ?_, ?_, by simp⟩
    · exact after.trans (List.append_nil _).symm
    · simp [returnedBy, RelayQueues.called, RelayQueues.answer, same]

theorem moves_sweep (queues : RelayQueues) (domain : String) (now : Int)
    (sorted : (queues.queue domain).Pairwise fun first second => first.queuedAt ≤ second.queuedAt) :
    ∃ left kept, Moves domain (queues.called (.sweep now)) left kept := by
  refine ⟨(expiredOf now (queues.queue domain)).map (·, .expired),
    retainUnexpired now (queues.queue domain), ?_, ?_, ?_, ?_⟩
  · simp only [List.map_map, Function.comp_def, List.map_id']
    exact (expiredOf_append_retained now sorted).symm
  · exact (RelayQueues.queue_sweep now domain).trans (List.append_nil _).symm
  · rw [filter_returned_const]
    rfl
  · intro departed member
    obtain ⟨entry, among, rfl⟩ := List.mem_map.mp member
    exact ⟨.inr ⟨now, rfl⟩, (List.takeWhile_sublist _).subset among, old_of_mem_expiredOf among⟩

/-! ## Every run -/

/-- What was enqueued for the domain is what has left its queue and what is queued, and
what has left has been handed out or is explained by a call. -/
structure Accounted (domain : String) (trace : List QueueEvent) (queues : RelayQueues)
    (departed : List (QueuedEnvelope × Departure)) : Prop where
  enqueued : enqueuedFor domain trace = departed.map Prod.fst ++ queues.queue domain
  returned : returnedFor domain trace =
    (departed.filter fun entry => decide (entry.2 = .returned)).map Prod.fst
  explained : ∀ entry ∈ departed, ∃ event ∈ trace, Explains domain event entry.1 entry.2

/-- The queue is in order, has its bound, and is not from the future. -/
structure WellKept (domain : String) (now : Int) (queues : RelayQueues) : Prop where
  sorted : (queues.queue domain).Pairwise fun first second => first.queuedAt ≤ second.queuedAt
  past : ∀ entry ∈ queues.queue domain, entry.queuedAt ≤ now
  bounded : (queues.queue domain).length ≤ relayQueueMaxPerDomain

theorem moves (kept : WellKept domain now queues) (call : QueueCall) :
    ∃ left kept, Moves domain (queues.called call) left kept := by
  cases call with
  | enqueue target recipient bytes now =>
    exact moves_enqueue queues domain target recipient bytes now kept.bounded kept.sorted
  | drain target now max => exact moves_drain queues domain target now max kept.sorted
  | sweep now => exact moves_sweep queues domain now kept.sorted

theorem Accounted.called {departed left : List (QueuedEnvelope × Departure)}
    {kept : List QueuedEnvelope} (accounted : Accounted domain trace queues departed)
    (moves : Moves domain (queues.called call) left kept) :
    Accounted domain (trace ++ [queues.called call]) (queues.answer call).2 (departed ++ left) where
  enqueued := by
    have before : queues.queue domain = left.map Prod.fst ++ kept := moves.before
    have after : (queues.answer call).2.queue domain = kept ++ enqueuedBy domain call := moves.after
    rw [enqueuedFor, List.flatMap_append, ← enqueuedFor, accounted.enqueued, before, after]
    simp [RelayQueues.called]
  returned := by
    rw [returnedFor, List.flatMap_append, ← returnedFor, accounted.returned, List.filter_append,
      List.map_append, ← moves.returned, List.flatMap_singleton]
  explained := by
    intro entry member
    rcases List.mem_append.mp member with old | new
    · obtain ⟨event, among, explains⟩ := accounted.explained entry old
      exact ⟨event, List.mem_append_left _ among, explains⟩
    · exact ⟨_, List.mem_append_right _ (List.mem_singleton_self _), moves.explained entry new⟩

theorem enqueuedBy_cases (domain : String) (call : QueueCall) :
    enqueuedBy domain call = [] ∨
      ∃ entry, enqueuedBy domain call = [entry] ∧ entry.queuedAt = call.time := by
  cases call with
  | enqueue target recipient bytes now =>
    rw [enqueuedBy]
    split
    · exact .inr ⟨_, rfl, rfl⟩
    · exact .inl rfl
  | drain target now max => exact .inl rfl
  | sweep now => exact .inl rfl

theorem bounded_after (bounded : (queues.queue domain).length ≤ relayQueueMaxPerDomain)
    (call : QueueCall) : ((queues.answer call).2.queue domain).length ≤ relayQueueMaxPerDomain := by
  have retained : ∀ now, (retainUnexpired now (queues.queue domain)).length ≤ relayQueueMaxPerDomain :=
    fun now => Nat.le_trans (List.length_filter_le _ _) bounded
  cases call with
  | enqueue target recipient bytes now =>
    change ((queues.enqueue target recipient bytes now).2.queue domain).length ≤ _
    rw [queues.enqueue_eq]
    split
    · have positive : 0 < relayQueueMaxPerDomain := by decide
      rw [List.length_append, List.length_drop, List.length_singleton]
      by_cases full : relayQueueMaxPerDomain ≤ (queues.queue domain).length
      · rw [if_pos full]
        omega
      · rw [if_neg full]
        omega
    · exact bounded
  | drain target now max =>
    change ((queues.drain target now max).2.queue domain).length ≤ _
    rw [(queues.drain_eq target now max).2]
    split
    · rw [List.length_drop]
      have shorter := retained now
      omega
    · exact bounded
  | sweep now =>
    change ((queues.sweep now).queue domain).length ≤ _
    rw [RelayQueues.queue_sweep]
    exact retained now

theorem WellKept.called (kept : WellKept domain now queues) (later : now ≤ call.time) :
    WellKept domain call.time (queues.answer call).2 := by
  obtain ⟨left, rest, moved⟩ := moves kept call
  have before : queues.queue domain = left.map Prod.fst ++ rest := moved.before
  have after : (queues.answer call).2.queue domain = rest ++ enqueuedBy domain call := moved.after
  have sorted := kept.sorted
  rw [before] at sorted
  have sorted := (List.pairwise_append.mp sorted).2.1
  have past : ∀ entry ∈ rest, entry.queuedAt ≤ call.time := fun entry member =>
    Int.le_trans (kept.past entry (before ▸ List.mem_append_right _ member)) later
  have bounded := bounded_after kept.bounded call
  rcases enqueuedBy_cases domain call with none | ⟨new, one, stamped⟩
  · rw [none, List.append_nil] at after
    exact ⟨after ▸ sorted, after ▸ past, bounded⟩
  · rw [one] at after
    refine ⟨?_, ?_, bounded⟩
    · rw [after, List.pairwise_append]
      refine ⟨sorted, List.pairwise_singleton _ _, fun entry member last final => ?_⟩
      rw [List.mem_singleton.mp final, stamped]
      exact past entry member
    · rw [after, List.forall_mem_append, List.forall_mem_singleton]
      exact ⟨past, Int.le_of_eq stamped⟩

theorem accounted_of_run (domain : String)
    (run : (Machine.ofFunction RelayQueues.answer ∅).Run trace queues) :
    (trace.map Event.input).Pairwise (fun first second => first.time ≤ second.time) →
      (∃ departed, Accounted domain trace queues departed) ∧
        (∀ now, (∀ event ∈ trace, event.input.time ≤ now) → WellKept domain now queues) ∧
        ∀ event ∈ trace,
          (event.after.queue domain).length ≤ relayQueueMaxPerDomain ∧ Apart domain event := by
  induction run with
  | @start queues initial =>
    have fresh : queues = ∅ := initial
    subst fresh
    have empty : RelayQueues.queue ∅ domain = [] := ExtTreeMap.getD_empty
    intro _
    refine ⟨⟨[], empty.symm, rfl, by simp⟩, fun now _ => ?_, by simp⟩
    exact ⟨by rw [empty]; exact .nil, by simp [empty], by simp [empty]⟩
  | @step trace queues queues' call reply run taken ih =>
    intro ordered
    obtain ⟨rfl, rfl⟩ : (queues.answer call).1 = reply ∧ (queues.answer call).2 = queues' :=
      Prod.mk.inj taken
    rw [List.map_append, List.pairwise_append] at ordered
    obtain ⟨earlier, -, before⟩ := ordered
    obtain ⟨⟨departed, accounted⟩, kept, all⟩ := ih earlier
    have kept : WellKept domain call.time queues := kept call.time fun event member =>
      before event.input (List.mem_map_of_mem member) call (List.mem_singleton_self _)
    obtain ⟨left, rest, moved⟩ := moves kept call
    have next := kept.called (Int.le_refl call.time)
    refine ⟨⟨departed ++ left, accounted.called moved⟩, fun now bound => ?_, ?_⟩
    · have last : call.time ≤ now := bound _ (List.mem_append_right _ (List.mem_singleton_self _))
      exact ⟨next.sorted, fun entry member => Int.le_trans (next.past entry member) last, next.bounded⟩
    · rw [List.forall_mem_append, List.forall_mem_singleton]
      exact ⟨all, next.bounded, called_apart queues domain call⟩

theorem relay_queue_accounts {calls : List QueueCall}
    (ordered : calls.Pairwise fun first second => first.time ≤ second.time) (domain : String) :
    (∃ departed, Accounted domain (traceOf RelayQueues.answer ∅ calls)
      (stateOf RelayQueues.answer ∅ calls) departed) ∧
    ∀ event ∈ traceOf RelayQueues.answer ∅ calls,
      (event.after.queue domain).length ≤ relayQueueMaxPerDomain ∧ Apart domain event := by
  have run := run_traceOf RelayQueues.answer ∅ calls
  have inputs := map_input_traceOf RelayQueues.answer ∅ calls
  obtain ⟨accounted, -, all⟩ := accounted_of_run domain run (inputs.symm ▸ ordered)
  exact ⟨accounted, all⟩

/-- Two messages, the first of which is drained in time and the second has expired. -/
theorem relay_queue_accounts_two :
    let calls : List QueueCall := [.enqueue "b.example" "agent:b.example/bob" [1] 0,
      .drain "b.example" (10 * second) 64, .enqueue "b.example" "agent:b.example/bob" [2] (20 * second),
      .sweep (1000 * second)]
    (∃ departed, Accounted "b.example" (traceOf RelayQueues.answer ∅ calls)
      (stateOf RelayQueues.answer ∅ calls) departed) ∧
    ∀ event ∈ traceOf RelayQueues.answer ∅ calls,
      (event.after.queue "b.example").length ≤ relayQueueMaxPerDomain ∧ Apart "b.example" event :=
  relay_queue_accounts (by decide) "b.example"

end Famp.Relay
