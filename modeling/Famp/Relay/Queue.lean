import Famp.Data.Instant
import Famp.Data.OrdMap
import Famp.Json.Text

/-!
# The queues of the relay

One queue for each destination domain, bounded in length and age.  Bodies are
stored as they come and handed out unchanged.
-/

set_option autoImplicit false

namespace Famp.Relay

open Std Data Json

def relayQueueMaxPerDomain : Nat := 1024
def relayEntryTtlSecs : Int := 900
def relayFetchMaxBatch : Nat := 64

structure QueuedEnvelope where
  /-- The path of the request that brought it. -/
  recipient : String
  bytes : Bytes
  queuedAt : Int
  deriving DecidableEq, Repr

inductive EnqueueOutcome where
  | queued
  | queuedAfterDroppingOldest
  deriving DecidableEq, Repr

/-- An entry of exactly the lifetime is kept. -/
def retainUnexpired (now : Int) (queue : List QueuedEnvelope) : List QueuedEnvelope :=
  queue.filter fun entry => decide (wholeSeconds (now - entry.queuedAt) ≤ relayEntryTtlSecs)

/-- Destination domain, then its entries, oldest first. -/
abbrev RelayQueues := ExtTreeMap String (List QueuedEnvelope)

variable {entry : QueuedEnvelope} {domain other : String} {now : Int}

namespace RelayQueues

variable (queues : RelayQueues)

def queue (domain : String) : List QueuedEnvelope := queues.getD domain []

def enqueue (domain recipient : String) (bytes : Bytes) (now : Int) : EnqueueOutcome × RelayQueues :=
  let queue := queues.queue domain
  let entry : QueuedEnvelope := ⟨recipient, bytes, now⟩
  if relayQueueMaxPerDomain ≤ queue.length then
    (.queuedAfterDroppingOldest, queues.insert domain (queue.drop 1 ++ [entry]))
  else (.queued, queues.insert domain (queue ++ [entry]))

def drain (domain : String) (now : Int) (max : Nat) : List QueuedEnvelope × RelayQueues :=
  match queues[domain]? with
  | none => ([], queues)
  | some queue =>
    let live := retainUnexpired now queue
    (live.take max, queues.insert domain (live.drop max))

/-- A queue that is left empty is taken out. -/
def sweep (now : Int) : RelayQueues :=
  (queues.map fun _ queue => retainUnexpired now queue).filter fun _ queue => !queue.isEmpty

/-! ## Where entries come from -/

variable {queues}

theorem queue_insert (domain other : String) (queue : List QueuedEnvelope) :
    RelayQueues.queue (queues.insert domain queue) other =
      if domain = other then queue else queues.queue other :=
  getD_insert queues domain other queue []

theorem mem_retainUnexpired {queue : List QueuedEnvelope}
    (member : entry ∈ retainUnexpired now queue) : entry ∈ queue :=
  (List.mem_filter.mp member).1

theorem mem_push {kept : List QueuedEnvelope} {new : QueuedEnvelope}
    (sub : ∀ old ∈ kept, old ∈ queues.queue domain)
    (member : entry ∈ RelayQueues.queue (queues.insert domain (kept ++ [new])) other) :
    entry ∈ queues.queue other ∨ domain = other ∧ entry = new := by
  rw [queue_insert] at member
  split at member
  next same =>
    subst same
    exact (List.mem_append.mp member).imp (sub entry) fun last => ⟨rfl, List.mem_singleton.mp last⟩
  next => exact .inl member

theorem mem_enqueue {recipient : String} {bytes : Bytes}
    (member : entry ∈ (queues.enqueue domain recipient bytes now).2.queue other) :
    entry ∈ queues.queue other ∨ domain = other ∧ entry = ⟨recipient, bytes, now⟩ := by
  simp only [enqueue] at member
  split at member
  · exact mem_push (fun _ => List.mem_of_mem_drop) member
  · exact mem_push (fun _ => id) member

theorem queue_of_lookup {queue : List QueuedEnvelope} (found : queues[domain]? = some queue) :
    queues.queue domain = queue := by
  rw [RelayQueues.queue, ExtTreeMap.getD_eq_getD_getElem?, found]
  rfl

theorem drain_eq (domain : String) (now : Int) (max : Nat) :
    (queues.drain domain now max).1 = (retainUnexpired now (queues.queue domain)).take max ∧
      ∀ other, (queues.drain domain now max).2.queue other =
        if domain = other then (retainUnexpired now (queues.queue other)).drop max
        else queues.queue other := by
  unfold drain
  split
  next absent =>
    have empty : queues.queue domain = [] := by
      rw [queue, ExtTreeMap.getD_eq_getD_getElem?, absent]
      rfl
    refine ⟨by rw [empty]; simp [retainUnexpired], fun other => ?_⟩
    split
    next same =>
      rw [← same, empty]
      simp [retainUnexpired]
    next => rfl
  next queue found =>
    refine ⟨by rw [queue_of_lookup found], fun other => ?_⟩
    rw [queue_insert]
    split
    next same => rw [← same, queue_of_lookup found]
    next => rfl

theorem mem_of_drained {max : Nat} (drained : entry ∈ (queues.drain domain now max).1) :
    entry ∈ retainUnexpired now (queues.queue domain) := by
  rw [(queues.drain_eq domain now max).1] at drained
  exact List.mem_of_mem_take drained

theorem mem_of_left {max : Nat} (left : entry ∈ (queues.drain domain now max).2.queue other) :
    entry ∈ queues.queue other := by
  rw [(queues.drain_eq domain now max).2] at left
  split at left
  next => exact mem_retainUnexpired (List.mem_of_mem_drop left)
  next => exact left

theorem queue_sweep (now : Int) (domain : String) :
    (queues.sweep now).queue domain = retainUnexpired now (queues.queue domain) :=
  getD_map_filter queues domain (fun queue empty => by simpa using empty) rfl

end RelayQueues

end Famp.Relay
