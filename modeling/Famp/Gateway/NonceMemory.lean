import Famp.Gateway.Replay
import Famp.Json.Plain
import Famp.Relay.FetchAuth
import Mathlib.Algebra.Order.BigOperators.Group.List

/-!
# The bytes of the nonces that the guard keeps

The replay cache keeps a bounded number of nonces for a sender name.  Each nonce is
a string of the request, recorded before the signature is looked at, and nothing in
front of the cache looks at its length.
-/

set_option autoImplicit false

namespace Famp.Gateway

open Std Famp.Core Data Data.Recent Json Relay

/-- The largest body that the gateway reads. -/
def oneMib : Nat := 1048576

def nonceBytes (memory : ExtTreeMap String Int) : Nat :=
  (memory.keys.map fun nonce => (utf8 nonce).length).sum

/-- The nonce of a request is no longer than the relay lets a header be. -/
def ShortNonce (input : GuardInput) : Prop :=
  ∀ nonce, input.peeked.nonce = some nonce → (utf8 nonce).length ≤ relayAuthHeaderMaxBytes

/-- The cache of a sender is within its cap, and its nonces are short. -/
structure ShortMemory (guard : IngressGuard) (sender : String) : Prop where
  size : (guard.replay.inner sender).size ≤ replayCacheMaxPerSender
  short : ∀ (nonce : String) (recordedAt : Int),
    (guard.replay.inner sender)[nonce]? = some recordedAt →
      (utf8 nonce).length ≤ relayAuthHeaderMaxBytes

variable {clock : Clock} {guard guard' : IngressGuard} {input : GuardInput}
  {output : Except GuardReject Unit} {sender : String}

theorem size_after (taken : runCheapGates clock guard input = (output, guard'))
    (within : (guard.replay.inner sender).size ≤ replayCacheMaxPerSender) :
    (guard'.replay.inner sender).size ≤ replayCacheMaxPerSender := by
  have sweeps : ∀ now, (guard.swept sender now).size ≤ replayCacheMaxPerSender := fun now =>
    Nat.le_trans (FixedWindow.submemory_sweep _ _).size_le within
  have what := gated clock guard input
  rw [taken] at what
  cases what with
  | refused _ _ => exact within
  | replayed reaches held =>
    rw [inner_insert]
    split
    next same => exact same ▸ sweeps _
    next => exact within
  | recorded reaches new =>
    rw [inner_insert]
    split
    next same => exact size_note_le (by decide) (same ▸ sweeps _) _ _
    next => exact within

theorem ShortMemory.after (taken : runCheapGates clock guard input = (output, guard'))
    (short : ShortNonce input) (memory : ShortMemory guard sender) : ShortMemory guard' sender where
  size := size_after taken memory.size
  short nonce recordedAt found := by
    rcases entry_after taken found with old | recorded
    · exact memory.short nonce recordedAt old
    · exact short nonce recorded.reaches.nonce_eq

theorem ShortMemory.nonceBytes_le (memory : ShortMemory guard sender) :
    nonceBytes (guard.replay.inner sender) ≤ replayCacheMaxPerSender * relayAuthHeaderMaxBytes := by
  have each : ∀ length ∈ (guard.replay.inner sender).keys.map fun nonce => (utf8 nonce).length,
      length ≤ relayAuthHeaderMaxBytes := by
    intro length member
    obtain ⟨nonce, held, rfl⟩ := List.mem_map.mp member
    obtain ⟨recordedAt, found⟩ := (mem_iff_lookup _ _).mp (ExtTreeMap.mem_keys.mp held)
    exact memory.short nonce recordedAt found
  have total := List.sum_le_card_nsmul _ _ each
  rw [List.length_map, ExtTreeMap.length_keys] at total
  exact Nat.le_trans total (Nat.mul_le_mul_right _ memory.size)

theorem nonceBytes_bounded_of_short {trace : List GuardEvent}
    (run : (guardMachine clock).Run trace guard) (short : ∀ event ∈ trace, ShortNonce event.input)
    (sender : String) :
    nonceBytes (guard.replay.inner sender) ≤ replayCacheMaxPerSender * relayAuthHeaderMaxBytes := by
  have memory : ShortMemory guard sender := by
    refine run.invariant_of_allowed (fun event => ShortNonce event.input) (ShortMemory · sender) ?_ ?_
      short
    · rintro guard rfl
      constructor <;> simp [IngressGuard.new, ReplayCache.inner]
    · intro guard input output guard' memory short taken
      exact memory.after taken short
  exact memory.nonceBytes_le

theorem quickReplay_nonceBytes_bounded :
    nonceBytes ((stateOf (runCheapGates rfc3339) .new quickReplay).replay.inner "alice") ≤
      replayCacheMaxPerSender * relayAuthHeaderMaxBytes := by
  have inputs := map_input_traceOf (runCheapGates rfc3339) IngressGuard.new quickReplay
  refine nonceBytes_bounded_of_short (run_traceOf (runCheapGates rfc3339) .new quickReplay) ?_ "alice"
  intro event member nonce presented
  have call : event.input ∈ quickReplay := inputs ▸ List.mem_map_of_mem member
  have known : ∀ input ∈ quickReplay, input.peeked.nonce = some "n1" := by decide
  rw [known _ call] at presented
  cases presented
  decide

/-! ## A flood of long nonces -/

theorem plain_floodNonce (k : Nat) : PlainKey (floodNonce k) := by
  intro c member
  rw [floodNonce, String.toList_ofList] at member
  rw [List.eq_of_mem_replicate member]
  decide

theorem length_utf8_floodNonce (k : Nat) : (utf8 (floodNonce k)).length = k + 1 := by
  rw [Plain.utf8_of_plain (plain_floodNonce k), List.length_map, floodNonce, String.toList_ofList,
    List.length_replicate]

/-- The part of a request that the guard peeks at. -/
def floodBody (k : Nat) : Value :=
  Value.record ["from", "nonce", "to", "ts"] (by decide)
    [.str "agent:peer.example/alice", .str (floodNonce k), .str "agent:hub.example/bob",
      .str "2026-11-16T12:00:00Z"]

theorem canonicalLen?_floodBody (k : Nat) :
    Plain.text.canonicalLen? (floodBody k) = some (104 + k) := by
  have nonce := Plain.canonicalLen?_str _ (plain_floodNonce k)
  have length : (floodNonce k).toList.length = k + 1 := by
    rw [floodNonce, String.toList_ofList, List.length_replicate]
  have keys : (utf8 "from").length = 4 ∧ (utf8 "nonce").length = 5 ∧ (utf8 "to").length = 2 ∧
      (utf8 "ts").length = 2 := by decide
  have sender := Plain.canonicalLen?_str "agent:peer.example/alice" (by decide)
  have recipient := Plain.canonicalLen?_str "agent:hub.example/bob" (by decide)
  have ts := Plain.canonicalLen?_str "2026-11-16T12:00:00Z" (by decide)
  rw [floodBody, Plain.text.canonicalLen?_record _ _ _ (by decide) rfl]
  simp [Text.canonicalLens?, sender, nonce, recipient, ts, length, Text.objectLen, Text.commaLen,
    keys]
  omega

theorem peeked_floodBody (k : Nat) {body : Bytes}
    (canonical : Plain.text.canonicalize (floodBody k) = .ok body) :
    peekGuardFields Plain.text body = .ok (noonCall peerAlice (floodNonce k)).peeked := by
  rw [peekGuardFields, Plain.text.fromSliceStrict_canonicalize canonical (Nat.le_add_left 1 126),
    Plain.reread_eq]
  rfl

theorem keys_perm_of_filled {now : Int} {nonces : List String} (distinct : nonces.Nodup)
    (filled : Filled guard sender now nonces) : (guard.replay.inner sender).keys.Perm nonces := by
  refine (List.perm_ext_iff_of_nodup ExtTreeMap.nodup_keys distinct).mpr fun nonce => ?_
  rw [ExtTreeMap.mem_keys, mem_iff_lookup, filled.entries]
  split
  next held => simp [held]
  next absent => simp [absent]

theorem sum_range_succ (count : Nat) :
    2 * ((List.range count).map (· + 1)).sum = count * (count + 1) := by
  induction count with
  | zero => rfl
  | succ count ih =>
    rw [List.range_succ, List.map_append, List.sum_append, Nat.mul_add, ih]
    simp only [List.map_singleton, List.sum_singleton]
    rw [← Nat.add_mul, Nat.mul_comm]

theorem nonceBytes_flood {count : Nat} (room : count ≤ replayCacheMaxPerSender) :
    2 * nonceBytes ((stateOf (runCheapGates rfc3339) .new (floodCalls count)).replay.inner "alice") =
      count * (count + 1) := by
  have filled := filled_flood room
  rw [List.append_nil] at filled
  have distinct : ((List.range count).map floodNonce).reverse.Nodup :=
    List.nodup_reverse.mpr (List.nodup_range.map floodNonce_injective)
  have keys := ((keys_perm_of_filled distinct filled).trans (List.reverse_perm _)).map
    fun nonce => (utf8 nonce).length
  rw [nonceBytes, keys.sum_eq, List.map_map, ← sum_range_succ]
  simp only [Function.comp_def, length_utf8_floodNonce]

/-- Requests with bodies of a few kilobytes, all from one second: the nonces that are kept
for their sender are four times as large as the bound. -/
theorem flood_exceeds_nonceBytes :
    (∀ input ∈ floodCalls replayCacheMaxPerSender, ∃ body, body.length ≤ oneMib ∧
      peekGuardFields Plain.text body = .ok input.peeked) ∧
    replayCacheMaxPerSender * relayAuthHeaderMaxBytes <
      nonceBytes ((stateOf (runCheapGates rfc3339) .new
        (floodCalls replayCacheMaxPerSender)).replay.inner "alice") := by
  constructor
  · intro input member
    obtain ⟨nonce, drawn, rfl⟩ := List.mem_map.mp member
    obtain ⟨k, range, rfl⟩ := List.mem_map.mp drawn
    have length := canonicalLen?_floodBody k
    cases canonical : Plain.text.canonicalize (floodBody k) with
    | error fault => simp [Text.canonicalLen?, canonical] at length
    | ok body =>
      refine ⟨body, ?_, peeked_floodBody k canonical⟩
      simp only [Text.canonicalLen?, canonical, Option.some.injEq] at length
      have bound := List.mem_range.mp range
      rw [length]
      unfold replayCacheMaxPerSender at bound
      unfold oneMib
      omega
  · have total := nonceBytes_flood (Nat.le_refl replayCacheMaxPerSender)
    generalize nonceBytes _ = bytes at total ⊢
    simp only [replayCacheMaxPerSender, relayAuthHeaderMaxBytes] at total ⊢
    omega

end Famp.Gateway
