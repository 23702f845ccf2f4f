import Famp.Gateway.Replay

/-!
# Throttled requests and other senders

What a call leaves behind for the calls after it: for its own retry when the
rate gate refused it, and for the calls of other senders.
-/

set_option autoImplicit false

namespace Famp.Gateway

open Std Famp.Core Data Data.FixedWindow Data.Recent

variable {guard guard' : IngressGuard} {input : GuardInput} {name sender : String} {now : Int}

section Retry
variable {clock : Clock}

/-! ## The rate gate -/

/-- The sender has used up its window. -/
def Exhausted (guard : IngressGuard) (sender : String) (now : Int) : Prop :=
  ∃ start count, guard.rate[sender]? = some (start, count) ∧
    wholeSeconds (now - start) < rateLimitWindowSecs ∧ rateLimitMaxPerWindow ≤ count

theorem spent_false_iff : (guard.spent sender now).1 = false ↔ Exhausted guard sender now := by
  unfold IngressGuard.spent Exhausted spend current
  cases stored : guard.rate[sender]? with
  | none => simp [rateLimitMaxPerWindow]
  | some bucket =>
    obtain ⟨start, count⟩ := bucket
    by_cases passed : rateLimitWindowSecs ≤ wholeSeconds (now - start)
    · have rolled : ¬wholeSeconds (now - start) < rateLimitWindowSecs := Int.not_lt.mpr passed
      simp [passed, rolled, rateLimitMaxPerWindow]
    · have open_ : wholeSeconds (now - start) < rateLimitWindowSecs := Int.not_le.mp passed
      by_cases room : count < rateLimitMaxPerWindow
      · simp [passed, room]
      · simp [passed, room, open_, Nat.not_lt.mp room]

theorem rateVerdict_ok_iff :
    guard.rateVerdict sender now = .ok () ↔ ¬Exhausted guard sender now := by
  rw [← spent_false_iff, IngressGuard.rateVerdict]
  cases (guard.spent sender now).1 <;> simp

/-! ## What a refused call leaves in the cache -/

/-- The call comes through to the rate gate and is refused there. -/
def Throttled (clock : Clock) (guard : IngressGuard) (input : GuardInput) : Prop :=
  ∃ nonce now, Reaches clock input nonce now ∧ nonce ∉ guard.swept input.senderName now ∧
    Exhausted guard input.senderName now

def NoNewEntry (guard guard' : IngressGuard) : Prop :=
  ∀ (sender nonce : String) (recordedAt : Int),
    (guard'.replay.inner sender)[nonce]? = some recordedAt →
      (guard.replay.inner sender)[nonce]? = some recordedAt

theorem Recorded.new_entry {output : Except GuardReject Unit}
    (taken : runCheapGates clock guard input = (output, guard')) {nonce : String}
    (recorded : Recorded clock ⟨guard, input, output, guard'⟩ sender nonce now) :
    ¬NoNewEntry guard guard' := by
  intro same
  have stored : (guard'.replay.inner sender)[nonce]? = some now := by
    rw [recorded_after taken recorded, lookup_note_self]
  exact recorded.new (mem_sweep_iff.mpr ⟨now, same sender nonce now stored, live_self now⟩)

theorem noNewEntry_iff_of_reject {reject : GuardReject}
    (taken : runCheapGates clock guard input = (.error reject, guard')) :
    NoNewEntry guard guard' ↔ ¬Throttled clock guard input := by
  constructor
  · rintro same ⟨nonce, now, reaches, new, -⟩
    exact Recorded.new_entry taken ⟨rfl, reaches, new⟩ same
  · intro unthrottled sender nonce recordedAt found
    rcases entry_after taken found with earlier | recorded
    · exact earlier
    · obtain ⟨rfl, reaches, new⟩ := recorded
      have passed : guard.rateVerdict input.senderName recordedAt = .ok () :=
        rateVerdict_ok_iff.mpr fun exhausted => unthrottled ⟨nonce, recordedAt, reaches, new, exhausted⟩
      have refused : guard.rateVerdict input.senderName recordedAt = .error reject :=
        congrArg Prod.fst ((runCheapGates_recorded reaches new).symm.trans taken)
      rw [passed] at refused
      cases refused

/-! ## Retries -/

/-- A call was refused by the rate gate at `now`.  At `later` the same input is
still fresh and the window of its sender has rolled over. -/
structure Retried (clock : Clock) (guard guard' : IngressGuard) (input retry : GuardInput)
    (now later : Int) : Prop where
  limited : ∃ principal limit windowSecs,
    runCheapGates clock guard input = (.error (.rateLimited principal limit windowSecs), guard')
  same : retry = { input with now := retry.now }
  instant : clock.parse input.now = some now
  later_instant : clock.parse retry.now = some later
  ordered : now ≤ later
  fresh : freshnessCheck clock retry.peeked.ts retry.now clockSkewWindowSecs = .ok ()
  rolled : ∃ start count, guard'.rate[input.senderName]? = some (start, count) ∧
    rateLimitWindowSecs ≤ wholeSeconds (later - start)

theorem recorded_of_limited {principal : String} {limit : Nat} {windowSecs : Int}
    (taken : runCheapGates clock guard input =
      (.error (.rateLimited principal limit windowSecs), guard')) :
    ∃ nonce now, Reaches clock input nonce now ∧ nonce ∉ guard.swept input.senderName now := by
  have what := gated clock guard input
  rw [taken] at what
  generalize verdict : Except.error (GuardReject.rateLimited principal limit windowSecs) = output at what
  cases what with
  | refused _ stateless =>
    cases verdict
    exact stateless.elim
  | replayed _ _ => cases verdict
  | recorded reaches new => exact ⟨_, _, reaches, new⟩

theorem retry_ok_iff {retry : GuardInput} {later : Int}
    (retried : Retried clock guard guard' input retry now later) :
    (runCheapGates clock guard' retry).1 = .ok () ↔ replayCacheTtlSecs ≤ wholeSeconds (later - now) := by
  obtain ⟨principal, limit, windowSecs, limited⟩ := retried.limited
  obtain ⟨nonce, recordedAt, reaches, new⟩ := recorded_of_limited limited
  obtain rfl : now = recordedAt := Option.some.inj (retried.instant.symm.trans reaches.instant)
  have named : retry.senderName = input.senderName := by rw [retried.same]; rfl
  have reaches' : Reaches clock retry nonce later :=
    ⟨by rw [retried.same]; exact reaches.audience, retried.fresh,
      by rw [retried.same]; exact reaches.nonce_eq, reaches.nonempty, retried.later_instant⟩
  have stored : (guard'.replay.inner retry.senderName)[nonce]? = some now := by
    rw [named, recorded_after limited ⟨rfl, reaches, new⟩, lookup_note_self]
  have held_iff : nonce ∈ guard'.swept retry.senderName later ↔
      wholeSeconds (later - now) < replayCacheTtlSecs := by
    rw [IngressGuard.swept, mem_sweep_iff, stored]
    simp [ReplayCache.live]
  by_cases held : nonce ∈ guard'.swept retry.senderName later
  · rw [runCheapGates_replayed reaches' held]
    constructor
    · intro passed
      cases passed
    · intro old
      exact absurd (held_iff.mp held) (Int.not_lt.mpr old)
  · rw [runCheapGates_recorded reaches' held, rateVerdict_ok_iff]
    refine ⟨fun _ => Int.not_lt.mp fun young => held (held_iff.mpr young), ?_⟩
    rintro - ⟨start, count, bucket, open_, -⟩
    obtain ⟨start', count', bucket', rolled⟩ := retried.rolled
    rw [named, bucket'] at bucket
    obtain ⟨rfl, rfl⟩ : start' = start ∧ count' = count := by simpa using bucket
    omega

/-- A throttled request can be retried exactly when the nonce that its refusal left
behind has expired, and a refusal leaves no new entry exactly when it is not by
the rate gate. -/
theorem throttled_request_iff (clock : Clock) :
    (∀ guard guard' input retry now later, Retried clock guard guard' input retry now later →
        ((runCheapGates clock guard' retry).1 = .ok () ↔
          replayCacheTtlSecs ≤ wholeSeconds (later - now))) ∧
      ∀ guard guard' input reject, runCheapGates clock guard input = (.error reject, guard') →
        (NoNewEntry guard guard' ↔ ¬Throttled clock guard input) :=
  ⟨fun _ _ _ _ _ _ => retry_ok_iff, fun _ _ _ _ => noNewEntry_iff_of_reject⟩

end Retry

/-- `alice` has used up a window that starts at noon. -/
def busyGuard : IngressGuard := ⟨∅, (∅ : RateLimiter).insert "alice" (noon, rateLimitMaxPerWindow)⟩

def againCall (ts now : String) : GuardInput := peerCall peerAlice "again" ts now

def busyAfter (ts : String) : IngressGuard :=
  (runCheapGates rfc3339 busyGuard (againCall ts "2026-11-16T12:00:00Z")).2

/-- Ten minutes later, for a timestamp that is ahead, the retry passes. -/
theorem againCall_passes_late :
    let first := againCall "2026-11-16T12:05:00Z" "2026-11-16T12:00:00Z"
    let retry := againCall "2026-11-16T12:05:00Z" "2026-11-16T12:10:00Z"
    Retried rfc3339 busyGuard (busyAfter "2026-11-16T12:05:00Z") first retry noon (noon + 600 * second) ∧
      (runCheapGates rfc3339 (busyAfter "2026-11-16T12:05:00Z") retry).1 = .ok () ∧
      (NoNewEntry busyGuard (busyAfter "2026-11-16T12:05:00Z") ↔ ¬Throttled rfc3339 busyGuard first) := by
  intro first retry
  have limited : runCheapGates rfc3339 busyGuard first =
      (.error (.rateLimited "alice" 120 60), busyAfter "2026-11-16T12:05:00Z") :=
    Prod.ext (by decide +kernel) rfl
  have retried : Retried rfc3339 busyGuard _ first retry noon (noon + 600 * second) :=
    ⟨⟨_, _, _, limited⟩, rfl, by decide +kernel, by decide +kernel, by decide, by decide +kernel,
      noon, 120, by decide +kernel, by decide⟩
  exact ⟨retried, ((throttled_request_iff rfc3339).1 _ _ _ _ _ _ retried).mpr (by decide),
    (throttled_request_iff rfc3339).2 _ _ _ _ limited⟩

/-- A minute later the window has rolled over, and the retry is taken for a replay:
the refusal had recorded its nonce. -/
theorem againCall_refused_as_replay :
    let first := againCall "2026-11-16T12:00:00Z" "2026-11-16T12:00:00Z"
    let retry := againCall "2026-11-16T12:00:00Z" "2026-11-16T12:01:00Z"
    Retried rfc3339 busyGuard (busyAfter "2026-11-16T12:00:00Z") first retry noon (noon + 60 * second) ∧
      (runCheapGates rfc3339 (busyAfter "2026-11-16T12:00:00Z") retry).1 =
        .error (.replayedNonce "alice" "again") ∧
      ¬NoNewEntry busyGuard (busyAfter "2026-11-16T12:00:00Z") := by
  intro first retry
  have limited : runCheapGates rfc3339 busyGuard first =
      (.error (.rateLimited "alice" 120 60), busyAfter "2026-11-16T12:00:00Z") :=
    Prod.ext (by decide +kernel) rfl
  refine ⟨⟨⟨_, _, _, limited⟩, rfl, by decide +kernel, by decide +kernel, by decide, by decide +kernel,
    noon, 120, by decide +kernel, by decide⟩, by decide +kernel, fun same => ?_⟩
  have stored : ((busyAfter "2026-11-16T12:00:00Z").replay.inner "alice")["again"]? = some noon := by
    decide +kernel
  have absent := same "alice" "again" noon stored
  simp [busyGuard, ReplayCache.inner] at absent

/-! ## Other senders -/

def verdicts (clock : Clock) (guard : IngressGuard) (calls : List GuardInput) :
    List (GuardInput × Except GuardReject Unit) :=
  (traceOf (runCheapGates clock) guard calls).map fun event => (event.input, event.output)

def verdictsOf (clock : Clock) (guard : IngressGuard) (calls : List GuardInput) (sender : Principal) :
    List (GuardInput × Except GuardReject Unit) :=
  (verdicts clock guard calls).filter fun verdict => verdict.1.peeked.sender = sender

theorem verdicts_cons (clock : Clock) (guard : IngressGuard) (call : GuardInput)
    (rest : List GuardInput) :
    verdicts clock guard (call :: rest) =
      (call, (runCheapGates clock guard call).1) ::
        verdicts clock (runCheapGates clock guard call).2 rest := rfl

def SameUnder (name : String) (guard guard' : IngressGuard) : Prop :=
  guard.replay.inner name = guard'.replay.inner name ∧ guard.rate[name]? = guard'.rate[name]?

theorem SameUnder.symm (same : SameUnder name guard guard') : SameUnder name guard' guard :=
  ⟨same.1.symm, same.2.symm⟩

theorem SameUnder.trans {guard'' : IngressGuard} (same : SameUnder name guard guard')
    (same' : SameUnder name guard' guard'') : SameUnder name guard guard'' :=
  ⟨same.1.trans same'.1, same.2.trans same'.2⟩

section Isolation
variable {clock : Clock}

theorem sameUnder_other (other : input.senderName ≠ name) :
    SameUnder name (runCheapGates clock guard input).2 guard := by
  have what := gated clock guard input
  generalize (runCheapGates clock guard input).1 = output at what
  generalize (runCheapGates clock guard input).2 = guard' at what ⊢
  cases what with
  | refused _ _ => exact ⟨rfl, rfl⟩
  | replayed _ _ => exact ⟨by rw [inner_insert, if_neg other], rfl⟩
  | recorded _ _ => exact ⟨by rw [inner_insert, if_neg other], by rw [lookup_insert, if_neg other]⟩

theorem sameUnder_own (own : input.senderName = name) (same : SameUnder name guard guard') :
    (runCheapGates clock guard input).1 = (runCheapGates clock guard' input).1 ∧
      SameUnder name (runCheapGates clock guard input).2 (runCheapGates clock guard' input).2 := by
  subst own
  obtain ⟨same_replay, same_rate⟩ := same
  have same_swept : ∀ now, guard.swept input.senderName now = guard'.swept input.senderName now := by
    intro now
    rw [IngressGuard.swept, IngressGuard.swept, same_replay]
  have same_spent : ∀ now, guard.spent input.senderName now = guard'.spent input.senderName now := by
    intro now
    rw [IngressGuard.spent, IngressGuard.spent, same_rate]
  by_cases reached : ∃ nonce now, Reaches clock input nonce now
  · obtain ⟨nonce, now, reaches⟩ := reached
    by_cases held : nonce ∈ guard.swept input.senderName now
    · rw [runCheapGates_replayed reaches held, runCheapGates_replayed reaches (same_swept now ▸ held)]
      exact ⟨rfl, by rw [inner_insert, inner_insert, if_pos rfl, if_pos rfl, same_swept], same_rate⟩
    · rw [runCheapGates_recorded reaches held, runCheapGates_recorded reaches (same_swept now ▸ held)]
      refine ⟨?_, ?_, ?_⟩
      · simp only [IngressGuard.rateVerdict, same_spent]
      · rw [inner_insert, inner_insert, if_pos rfl, if_pos rfl, same_swept]
      · rw [lookup_insert, lookup_insert, if_pos rfl, if_pos rfl, same_spent]
  · obtain ⟨reject, -, refused⟩ := runCheapGates_refused
      fun nonce now reaches => reached ⟨nonce, now, reaches⟩
    rw [refused guard, refused guard']
    exact ⟨rfl, same_replay, same_rate⟩

theorem verdicts_under {keep : GuardInput → Bool}
    (kept : ∀ input : GuardInput, input.senderName = name → keep input = true)
    (calls : List GuardInput) :
    ∀ {guard guard' : IngressGuard}, SameUnder name guard guard' →
      (verdicts clock guard calls).filter (fun verdict => verdict.1.senderName = name) =
        (verdicts clock guard' (calls.filter keep)).filter (fun verdict => verdict.1.senderName = name) := by
  induction calls with
  | nil => exact fun _ => rfl
  | cons call rest ih =>
    intro guard guard' same
    by_cases own : call.senderName = name
    · obtain ⟨verdict, same'⟩ := sameUnder_own own same
      rw [List.filter_cons_of_pos (kept call own), verdicts_cons, verdicts_cons, verdict]
      simp only [List.filter_cons, own, decide_true, if_true, ih same']
    · have left : SameUnder name (runCheapGates clock guard call).2 guard' :=
        (sameUnder_other own).trans same
      rw [verdicts_cons, List.filter_cons_of_neg (by simpa using own)]
      by_cases keeps : keep call = true
      · have both : SameUnder name (runCheapGates clock guard call).2
            (runCheapGates clock guard' call).2 := left.trans (sameUnder_other own).symm
        rw [List.filter_cons_of_pos keeps, verdicts_cons, List.filter_cons_of_neg (by simpa using own)]
        exact ih both
      · rw [List.filter_cons_of_neg keeps]
        exact ih left

theorem verdictsOf_eq (guard : IngressGuard) (calls : List GuardInput) (sender : Principal) :
    verdictsOf clock guard calls sender =
      ((verdicts clock guard calls).filter (fun verdict => verdict.1.senderName = sender.name)).filter
        (fun verdict => verdict.1.peeked.sender = sender) := by
  rw [verdictsOf, List.filter_filter]
  refine List.filter_congr fun verdict _ => ?_
  by_cases same : verdict.1.peeked.sender = sender <;> simp [same, GuardInput.senderName]

theorem noonCall_collides {p q : Principal} (same : p.name = q.name) :
    (runCheapGates rfc3339 (runCheapGates rfc3339 .new (noonCall q "n")).2 (noonCall p "n")).1 =
      .error (.replayedNonce p.name "n") := by
  have reaches : ∀ sender, Reaches rfc3339 (noonCall sender "n") "n" noon :=
    fun sender => noonCall_reaches sender (by decide)
  have filled : Filled (runCheapGates rfc3339 .new (noonCall q "n")).2 q.name noon ["n"] :=
    (filled_new q.name noon).step (reaches q) List.not_mem_nil (by decide)
  have held : "n" ∈ (runCheapGates rfc3339 .new (noonCall q "n")).2.swept p.name noon := by
    rw [same, filled.swept, mem_iff_lookup, filled.entries]
    exact ⟨noon, rfl⟩
  rw [runCheapGates_replayed (reaches p) held]
  rfl

theorem noonCall_passes (p : Principal) :
    (runCheapGates rfc3339 .new (noonCall p "n")).1 = .ok () := by
  have new : "n" ∉ IngressGuard.new.swept p.name noon := (filled_new p.name noon).new List.not_mem_nil
  rw [runCheapGates_recorded (noonCall_reaches p (by decide)) new, rateVerdict_ok_iff]
  rintro ⟨start, count, bucket, -⟩
  simp [IngressGuard.new] at bucket

/-- Two principals are isolated from each other in the guard exactly when their
names differ. -/
theorem senders_isolated_iff {p q : Principal} (distinct : p ≠ q) :
    (∀ clock guard calls, verdictsOf clock guard calls p =
        verdictsOf clock guard (calls.filter fun call => call.peeked.sender ≠ q) p) ↔
      p.name ≠ q.name := by
  constructor
  · intro isolated same
    have verdict := isolated rfc3339 .new [noonCall q "n", noonCall p "n"]
    have from_q : (noonCall q "n").peeked.sender = q := rfl
    have from_p : (noonCall p "n").peeked.sender = p := rfl
    simp [verdictsOf, from_q, from_p, distinct, distinct.symm, noonCall_collides same,
      noonCall_passes, verdicts, traceOf] at verdict
  · intro names clock guard calls
    rw [verdictsOf_eq, verdictsOf_eq, verdicts_under _ calls ⟨rfl, rfl⟩]
    intro input named
    simp only [ne_eq, decide_not, Bool.not_eq_true', decide_eq_false_iff_not]
    rintro rfl
    exact names named.symm

end Isolation

theorem alice_isolated_from_carol :
    peerAlice ≠ ⟨"peer.example", "carol"⟩ ∧
      ∀ clock guard calls, verdictsOf clock guard calls peerAlice =
        verdictsOf clock guard (calls.filter fun call => call.peeked.sender ≠ ⟨"peer.example", "carol"⟩)
          peerAlice :=
  ⟨by decide, (senders_isolated_iff (by decide)).mpr (by decide)⟩

/-- Two agents of one name at two hosts share their nonces. -/
theorem namesakes_collide :
    let p : Principal := ⟨"hosta.example", "alice"⟩
    let q : Principal := ⟨"hostb.example", "alice"⟩
    let calls := [noonCall q "n", noonCall p "n"]
    p ≠ q ∧
      (verdictsOf rfc3339 .new calls p).map Prod.snd = [.error (.replayedNonce "alice" "n")] ∧
      (verdictsOf rfc3339 .new (calls.filter fun call => call.peeked.sender ≠ q) p).map Prod.snd =
        [.ok ()] := by
  decide +kernel

end Famp.Gateway
