import Famp.Core.Ids
import Famp.Data.FixedWindow
import Famp.Data.Recent
import Famp.Data.Run
import Famp.Json.Text

/-!
# The ingress guard of the gateway

The cheap gates that a request passes before its signature is looked at:
audience, freshness, replay and rate, with the state that the last two keep for
each sender name.
-/

set_option autoImplicit false

namespace Famp.Gateway

open Std Famp.Core Data Data.FixedWindow Data.Recent Json

def clockSkewWindowSecs : Nat := 300
def replayCacheTtlSecs : Int := 600
def replayCacheMaxPerSender : Nat := 4096
def rateLimitMaxPerWindow : Nat := 120
def rateLimitWindowSecs : Int := 60

inductive GuardReject where
  | badEnvelopeShape
  | staleTimestamp (ts now : String) (skewSecs : Nat)
  | replayedNonce (principal nonce : String)
  | missingNonce (principal : String)
  | foreignDomain (expected got : String)
  | senderNotBacked (principal : String)
  | rateLimited (principal : String) (limit : Nat) (windowSecs : Int)
  deriving DecidableEq, Repr

/-! ## Peeked fields -/

structure PeekedFields where
  sender : Principal
  recipient : Principal
  ts : String
  nonce : Option String
  expiry : Option String
  deriving DecidableEq, Repr

def requiredString (tree : Tree) (field : String) : Except GuardReject String :=
  match (tree.get? field).bind Tree.asStr? with
  | some text => .ok text
  | none => .error .badEnvelopeShape

def requiredPrincipal (tree : Tree) (field : String) : Except GuardReject Principal := do
  match Principal.fromStr (← requiredString tree field) with
  | some principal => .ok principal
  | none => .error .badEnvelopeShape

def optionalString (tree : Tree) (field : String) : Except GuardReject (Option String) :=
  match tree.get? field with
  | none => .ok none
  | some (.str text) => .ok (some text)
  | some _ => .error .badEnvelopeShape

/-- The fields of a parsed document; a document that is no object has none. -/
def peekTree (tree : Tree) : Except GuardReject PeekedFields := do
  let sender ← requiredPrincipal tree "from"
  let recipient ← requiredPrincipal tree "to"
  let ts ← requiredString tree "ts"
  let nonce ← optionalString tree "nonce"
  let expiry ← optionalString tree "expiry"
  return ⟨sender, recipient, ts, nonce, expiry⟩

def peekGuardFields (K : Text) (bytes : Bytes) : Except GuardReject PeekedFields :=
  match K.fromSliceStrict bytes with
  | .error _ => .error .badEnvelopeShape
  | .ok value => peekTree value.val

/-- The peeked fields are those of the document. -/
structure Peeked (tree : Tree) (peeked : PeekedFields) : Prop where
  sender : (tree.get? "from").bind readPrincipal = some peeked.sender
  recipient : (tree.get? "to").bind readPrincipal = some peeked.recipient
  ts : tree.get? "ts" = some (.str peeked.ts)
  nonce : tree.get? "nonce" = peeked.nonce.map .str

variable {clock : Clock} {tree : Tree} {field nonce : String} {now : Int}

theorem requiredString_ok {text : String} (read : requiredString tree field = .ok text) :
    tree.get? field = some (.str text) := by
  unfold requiredString at read
  split at read
  next found present =>
    cases read
    obtain ⟨item, stored, isText⟩ := Option.bind_eq_some_iff.mp present
    cases item <;> cases isText
    exact stored
  next => cases read

theorem ok_first {α β : Type} {first : Except GuardReject α} {rest : α → Except GuardReject β}
    {result : β} (done : first >>= rest = .ok result) :
    ∃ item, first = .ok item ∧ rest item = .ok result := by
  cases first with
  | error reject => cases done
  | ok item => exact ⟨item, rfl, done⟩

theorem requiredPrincipal_ok {principal : Principal}
    (read : requiredPrincipal tree field = .ok principal) :
    (tree.get? field).bind readPrincipal = some principal := by
  obtain ⟨text, present, read⟩ := ok_first read
  rw [requiredString_ok present, Option.bind_some, readPrincipal, Tree.asStr?, Option.bind_some]
  split at read
  next found parsed => rw [parsed, Except.ok.inj read]
  next => cases read

theorem optionalString_ok {text : Option String} (read : optionalString tree field = .ok text) :
    tree.get? field = text.map .str := by
  unfold optionalString at read
  split at read
  next missing =>
    cases read
    exact missing
  next present =>
    cases read
    exact present
  next => cases read

theorem peekTree_ok {peeked : PeekedFields} (read : peekTree tree = .ok peeked) :
    Peeked tree peeked := by
  obtain ⟨sender, readSender, read⟩ := ok_first read
  obtain ⟨recipient, readRecipient, read⟩ := ok_first read
  obtain ⟨ts, readTs, read⟩ := ok_first read
  obtain ⟨nonce, readNonce, read⟩ := ok_first read
  obtain ⟨expiry, -, read⟩ := ok_first read
  cases read
  exact ⟨requiredPrincipal_ok readSender, requiredPrincipal_ok readRecipient,
    requiredString_ok readTs, optionalString_ok readNonce⟩

/-! ## Freshness -/

def freshnessCheck (clock : Clock) (ts now : String) (skewSecs : Nat) : Except GuardReject Unit :=
  match clock.parse ts with
  | none => .error .badEnvelopeShape
  | some tsInstant =>
    match clock.parse now with
    | none => .error .badEnvelopeShape
    | some nowInstant =>
      if (wholeSeconds (nowInstant - tsInstant)).natAbs ≤ skewSecs then .ok ()
      else .error (.staleTimestamp ts now skewSecs)

/-! ## Replay -/

/-- Sender name, then nonce, then the instant the nonce was recorded at. -/
abbrev ReplayCache := ExtTreeMap String (ExtTreeMap String Int)

namespace ReplayCache

def live (now recordedAt : Int) : Bool :=
  decide (wholeSeconds (now - recordedAt) < replayCacheTtlSecs)

def inner (cache : ReplayCache) (sender : String) : ExtTreeMap String Int := cache.getD sender ∅

/-- A replay is refused after the sweep, which stays. -/
def record (cache : ReplayCache) (sender nonce : String) (now : Int) :
    Except GuardReject Unit × ReplayCache :=
  if nonce = "" then (.error (.missingNonce sender), cache)
  else
    let swept := sweep (live now) (cache.inner sender)
    if nonce ∈ swept then (.error (.replayedNonce sender nonce), cache.insert sender swept)
    else (.ok (), cache.insert sender (note replayCacheMaxPerSender nonce now swept))

end ReplayCache

/-! ## Rate -/

abbrev RateLimiter := ExtTreeMap String Bucket

def RateLimiter.admitCall (buckets : RateLimiter) (sender : String) (now : Int) :
    Except GuardReject Unit × RateLimiter :=
  let bucket := buckets.getD sender (now, 0)
  if rateLimitWindowSecs ≤ wholeSeconds (now - bucket.1) then
    (.ok (), buckets.insert sender (now, 1))
  else if bucket.2 < rateLimitMaxPerWindow then
    (.ok (), buckets.insert sender (bucket.1, bucket.2 + 1))
  else
    (.error (.rateLimited sender rateLimitMaxPerWindow rateLimitWindowSecs),
      buckets.insert sender bucket)

/-! ## The gates -/

structure IngressGuard where
  replay : ReplayCache
  rate : RateLimiter

def IngressGuard.new : IngressGuard := ⟨∅, ∅⟩

structure GuardInput where
  peeked : PeekedFields
  now : String
  ownDomain : String
  senderIsBacked : Bool
  deriving DecidableEq, Repr

/-- The key of a call in the replay cache and in the rate limiter. -/
def GuardInput.senderName (input : GuardInput) : String := input.peeked.sender.name

def audienceCheck (input : GuardInput) : Except GuardReject Unit :=
  let got := input.peeked.recipient.authority
  if got ≠ input.ownDomain then .error (.foreignDomain input.ownDomain got)
  else if !input.senderIsBacked then .error (.senderNotBacked input.senderName)
  else .ok ()

def runCheapGates (clock : Clock) (guard : IngressGuard) (input : GuardInput) :
    Except GuardReject Unit × IngressGuard :=
  match audienceCheck input with
  | .error reject => (.error reject, guard)
  | .ok () =>
    match freshnessCheck clock input.peeked.ts input.now clockSkewWindowSecs with
    | .error reject => (.error reject, guard)
    | .ok () =>
      match input.peeked.nonce with
      | none => (.error (.missingNonce input.senderName), guard)
      | some nonce =>
        match clock.parse input.now with
        | none => (.error .badEnvelopeShape, guard)
        | some parsedNow =>
          match guard.replay.record input.senderName nonce parsedNow with
          | (.error reject, replay) => (.error reject, { guard with replay })
          | (.ok (), replay) =>
            let admitted := guard.rate.admitCall input.senderName parsedNow
            (admitted.1, ⟨replay, admitted.2⟩)

/-! ## What a call does -/

/-- The gates without state let the call through to the replay cache, with this
nonce at this instant. -/
structure Reaches (clock : Clock) (input : GuardInput) (nonce : String) (now : Int) : Prop where
  audience : audienceCheck input = .ok ()
  fresh : freshnessCheck clock input.peeked.ts input.now clockSkewWindowSecs = .ok ()
  nonce_eq : input.peeked.nonce = some nonce
  nonempty : nonce ≠ ""
  instant : clock.parse input.now = some now

variable {input : GuardInput} {guard : IngressGuard}

namespace IngressGuard

/-- The nonces of a sender that are live at an instant. -/
def swept (guard : IngressGuard) (sender : String) (now : Int) : ExtTreeMap String Int :=
  sweep (ReplayCache.live now) (guard.replay.inner sender)

/-- The rate gate of a sender at an instant. -/
def spent (guard : IngressGuard) (sender : String) (now : Int) : Bool × Bucket :=
  spend rateLimitMaxPerWindow rateLimitWindowSecs now guard.rate[sender]?

def rateVerdict (guard : IngressGuard) (sender : String) (now : Int) : Except GuardReject Unit :=
  if (guard.spent sender now).1 then .ok ()
  else .error (.rateLimited sender rateLimitMaxPerWindow rateLimitWindowSecs)

end IngressGuard

theorem RateLimiter.admitCall_eq (guard : IngressGuard) (sender : String) (now : Int) :
    guard.rate.admitCall sender now =
      (guard.rateVerdict sender now, guard.rate.insert sender (guard.spent sender now).2) := by
  unfold RateLimiter.admitCall IngressGuard.rateVerdict IngressGuard.spent spend current
  rw [ExtTreeMap.getD_eq_getD_getElem?]
  cases stored : guard.rate[sender]? with
  | none => simp [rateLimitMaxPerWindow]
  | some bucket =>
    by_cases passed : rateLimitWindowSecs ≤ wholeSeconds (now - bucket.1)
    · simp [passed, rateLimitMaxPerWindow]
    · by_cases room : bucket.2 < rateLimitMaxPerWindow <;> simp [passed, room]

/-- The gates without state give this verdict: it is neither a replay nor a rate
limit. -/
def GuardReject.IsStateless : GuardReject → Prop
  | .replayedNonce _ _ => False
  | .rateLimited _ _ _ => False
  | _ => True

theorem audienceCheck_stateless {reject : GuardReject}
    (refused : audienceCheck input = .error reject) : reject.IsStateless := by
  simp only [audienceCheck] at refused
  split at refused
  · cases refused
    trivial
  · split at refused <;> cases refused
    trivial

theorem freshnessCheck_stateless {ts now : String} {skewSecs : Nat} {reject : GuardReject}
    (refused : freshnessCheck clock ts now skewSecs = .error reject) : reject.IsStateless := by
  unfold freshnessCheck at refused
  split at refused
  · cases refused
    trivial
  · split at refused
    · cases refused
      trivial
    · split at refused <;> cases refused
      trivial

/-- A call that does not reach the replay cache is refused in every state, in the
same way, and changes nothing. -/
theorem runCheapGates_refused (unreached : ∀ nonce now, ¬Reaches clock input nonce now) :
    ∃ reject : GuardReject, reject.IsStateless ∧
      ∀ guard, runCheapGates clock guard input = (.error reject, guard) := by
  cases audience : audienceCheck input with
  | error reject =>
    exact ⟨reject, audienceCheck_stateless audience, fun guard => by simp [runCheapGates, audience]⟩
  | ok _ =>
    cases fresh : freshnessCheck clock input.peeked.ts input.now clockSkewWindowSecs with
    | error reject =>
      exact ⟨reject, freshnessCheck_stateless fresh,
        fun guard => by simp [runCheapGates, audience, fresh]⟩
    | ok _ =>
      cases named : input.peeked.nonce with
      | none =>
        exact ⟨.missingNonce input.senderName, trivial,
          fun guard => by simp [runCheapGates, audience, fresh, named]⟩
      | some nonce =>
        cases instant : clock.parse input.now with
        | none =>
          exact ⟨.badEnvelopeShape, trivial,
            fun guard => by simp [runCheapGates, audience, fresh, named, instant]⟩
        | some now =>
          have empty : nonce = "" := by
            by_contra nonempty
            exact unreached nonce now ⟨audience, fresh, named, nonempty, instant⟩
          exact ⟨.missingNonce input.senderName, trivial, fun guard => by
            simp [runCheapGates, audience, fresh, named, instant, ReplayCache.record, empty]⟩

theorem runCheapGates_replayed (reaches : Reaches clock input nonce now)
    (held : nonce ∈ guard.swept input.senderName now) :
    runCheapGates clock guard input =
      (.error (.replayedNonce input.senderName nonce),
        { guard with
          replay := guard.replay.insert input.senderName (guard.swept input.senderName now) }) := by
  have record : guard.replay.record input.senderName nonce now =
      (.error (.replayedNonce input.senderName nonce),
        guard.replay.insert input.senderName (guard.swept input.senderName now)) :=
    (if_neg reaches.nonempty).trans (if_pos held)
  simp only [runCheapGates, reaches.audience, reaches.fresh, reaches.nonce_eq, reaches.instant, record]

theorem runCheapGates_recorded (reaches : Reaches clock input nonce now)
    (new : nonce ∉ guard.swept input.senderName now) :
    runCheapGates clock guard input =
      (guard.rateVerdict input.senderName now,
        ⟨guard.replay.insert input.senderName
          (note replayCacheMaxPerSender nonce now (guard.swept input.senderName now)),
          guard.rate.insert input.senderName (guard.spent input.senderName now).2⟩) := by
  have record : guard.replay.record input.senderName nonce now =
      (.ok (), guard.replay.insert input.senderName
        (note replayCacheMaxPerSender nonce now (guard.swept input.senderName now))) :=
    (if_neg reaches.nonempty).trans (if_neg new)
  simp only [runCheapGates, reaches.audience, reaches.fresh, reaches.nonce_eq, reaches.instant, record,
    RateLimiter.admitCall_eq]

/-- All that a call of the guard can do. -/
inductive Gated (clock : Clock) (guard : IngressGuard) (input : GuardInput) :
    Except GuardReject Unit → IngressGuard → Prop
  | refused {reject : GuardReject} :
      (∀ nonce now, ¬Reaches clock input nonce now) → reject.IsStateless →
      Gated clock guard input (.error reject) guard
  | replayed {nonce : String} {now : Int} :
      Reaches clock input nonce now → nonce ∈ guard.swept input.senderName now →
      Gated clock guard input (.error (.replayedNonce input.senderName nonce))
        { guard with
          replay := guard.replay.insert input.senderName (guard.swept input.senderName now) }
  | recorded {nonce : String} {now : Int} :
      Reaches clock input nonce now → nonce ∉ guard.swept input.senderName now →
      Gated clock guard input (guard.rateVerdict input.senderName now)
        ⟨guard.replay.insert input.senderName
          (note replayCacheMaxPerSender nonce now (guard.swept input.senderName now)),
          guard.rate.insert input.senderName (guard.spent input.senderName now).2⟩

theorem gated (clock : Clock) (guard : IngressGuard) (input : GuardInput) :
    Gated clock guard input (runCheapGates clock guard input).1
      (runCheapGates clock guard input).2 := by
  by_cases reached : ∃ nonce now, Reaches clock input nonce now
  · obtain ⟨nonce, now, reaches⟩ := reached
    by_cases held : nonce ∈ guard.swept input.senderName now
    · rw [runCheapGates_replayed reaches held]
      exact .replayed reaches held
    · rw [runCheapGates_recorded reaches held]
      exact .recorded reaches held
  · have unreached : ∀ nonce now, ¬Reaches clock input nonce now :=
      fun nonce now reaches => reached ⟨nonce, now, reaches⟩
    obtain ⟨reject, stateless, same⟩ := runCheapGates_refused unreached
    rw [same guard]
    exact .refused unreached stateless

/-! ## Admitted calls -/

/-- A call that the guard admits has passed the gates without state, with a nonce
that was not live. -/
theorem reaches_of_admitted (admitted : (runCheapGates clock guard input).1 = .ok ()) :
    ∃ nonce now, Reaches clock input nonce now ∧ nonce ∉ guard.swept input.senderName now := by
  generalize verdict : (runCheapGates clock guard input).1 = result at admitted
  have done := gated clock guard input
  rw [verdict] at done
  generalize (runCheapGates clock guard input).2 = after at done
  cases done with
  | refused => cases admitted
  | replayed => cases admitted
  | recorded reaches new => exact ⟨_, _, reaches, new⟩

theorem audienceCheck_ok (passed : audienceCheck input = .ok ()) :
    input.peeked.recipient.authority = input.ownDomain ∧ input.senderIsBacked = true := by
  simp only [audienceCheck] at passed
  split at passed
  · cases passed
  next own =>
    split at passed
    · cases passed
    next backed => exact ⟨not_not.mp own, by simpa using backed⟩

theorem freshnessCheck_ok {ts now : String} {skewSecs : Nat}
    (passed : freshnessCheck clock ts now skewSecs = .ok ()) :
    ∃ sent current, clock.parse ts = some sent ∧ clock.parse now = some current ∧
      (wholeSeconds (current - sent)).natAbs ≤ skewSecs := by
  unfold freshnessCheck at passed
  split at passed
  next => cases passed
  next sent parsedTs =>
    split at passed
    next => cases passed
    next current parsedNow =>
      split at passed
      next near => exact ⟨sent, current, parsedTs, parsedNow, near⟩
      next => cases passed

end Famp.Gateway
