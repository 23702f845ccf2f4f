import Famp.Relay.Http

/-!
# A fetch authorization drains at most once

A nonce is remembered for as long as its timestamp is fresh: the lifetime covers the
window of freshness, and the rate limit keeps the memory of a domain far below its
bound.
-/

set_option autoImplicit false

namespace Famp.Relay

open Std Famp.Core Data Data.FixedWindow

variable {domain nonce : String} {now : Int} {state : RelayState} {request : Request}

variable {noted mintedAt earlier used : Int} {presented : PresentedFetchAuth}
  {requests : List Request}

namespace FetchAuthState

/-! ## What a request does to the memory of a domain -/

/-- Only nonces that are no longer live are dropped. -/
structure Pruned (now : Int) (memory part : ExtTreeMap String Int) : Prop where
  sub : Submemory part memory
  keeps : ∀ (nonce : String) (noted : Int), memory[nonce]? = some noted → live now noted = true →
    part[nonce]? = some noted

theorem Pruned.refl (now : Int) (memory : ExtTreeMap String Int) : Pruned now memory memory :=
  ⟨fun _ _ found => found, fun _ _ found _ => found⟩

theorem pruned_sweep (now : Int) (memory : ExtTreeMap String Int) :
    Pruned now memory (Recent.sweep (live now) memory) :=
  ⟨submemory_sweep _ _, fun _ _ found young => Recent.lookup_sweep_iff.mpr ⟨found, young⟩⟩

/-- The rate gate at an instant. -/
def spent (now : Int) (stored : Option Bucket) : Bool × Bucket :=
  spend fetchRateMaxPerWindow fetchRateWindowSecs now stored

inductive DomainStep (now : Int) (stored : Option Bucket) (memory : ExtTreeMap String Int) :
    Option Bucket → ExtTreeMap String Int → Prop
  | pruned {part : ExtTreeMap String Int} :
      Pruned now memory part → DomainStep now stored memory stored part
  | counted {part : ExtTreeMap String Int} :
      Pruned now memory part → DomainStep now stored memory (some (spent now stored).2) part
  | noted {nonce : String} :
      (spent now stored).1 = true → nonce ∉ Recent.sweep (live now) memory →
      DomainStep now stored memory (some (spent now stored).2)
        (Recent.note fetchNonceMaxPerDomain nonce now (Recent.sweep (live now) memory))

theorem admitCall_eq (state : FetchAuthState) (domain : String) (now : Int) :
    state.admitCall domain now =
      (if (spent now state.buckets[domain]?).1 then .ok () else .error .rateLimited,
        { state with
          buckets := state.buckets.insert domain (spent now state.buckets[domain]?).2 }) := by
  have met : (if fetchRateWindowSecs ≤ wholeSeconds (now - (state.buckets.getD domain (now, 0)).1) then
      (now, 0) else state.buckets.getD domain (now, 0)) =
        current fetchRateWindowSecs now state.buckets[domain]? := by
    rw [ExtTreeMap.getD_eq_getD_getElem?]
    cases state.buckets[domain]? with
    | none => simp [current]
    | some bucket => rfl
  simp only [admitCall, met, spent, spend]
  by_cases room : (current fetchRateWindowSecs now state.buckets[domain]?).2 < fetchRateMaxPerWindow
  · simp [room, Nat.not_le.mpr room]
  · simp [room, Nat.not_lt.mp room]

theorem recordNonce_held {state : FetchAuthState} (buckets : ExtTreeMap String Bucket)
    (held : nonce ∈ Recent.sweep (live now) (state.memory domain)) :
    recordNonce ⟨state.nonces, buckets⟩ domain nonce now = (.error .replayedNonce,
      ⟨state.nonces.insert domain (Recent.sweep (live now) (state.memory domain)), buckets⟩) :=
  if_pos held

theorem recordNonce_new {state : FetchAuthState} (buckets : ExtTreeMap String Bucket)
    (new : nonce ∉ Recent.sweep (live now) (state.memory domain)) :
    recordNonce ⟨state.nonces, buckets⟩ domain nonce now = (.ok (),
      ⟨state.nonces.insert domain (Recent.note fetchNonceMaxPerDomain nonce now
        (Recent.sweep (live now) (state.memory domain))), buckets⟩) :=
  if_neg new

theorem memory_insert (state : FetchAuthState) (buckets : ExtTreeMap String Bucket)
    (domain other : String) (entries : ExtTreeMap String Int) :
    memory ⟨state.nonces.insert domain entries, buckets⟩ other =
      if domain = other then entries else state.memory other :=
  getD_insert state.nonces domain other entries ∅

theorem memory_sweep (state : FetchAuthState) (now : Int) (domain : String) :
    (state.sweep now).memory domain = Recent.sweep (live now) (state.memory domain) := by
  refine getD_map_filter state.nonces domain (fun entries empty => ?_) ?_
  · simpa using empty
  · exact Recent.sweep_eq_self fun key noted found => by simp at found

/-! ## What a request keeps -/

theorem live_iff : live now noted = true ↔ now < noted + 601 * second := by
  have cut := @wholeSeconds_lt_iff 601 (now - noted) (by decide)
  unfold live fetchNonceTtlSecs
  rw [decide_eq_true_iff]
  omega

theorem swept_lt_max {bucket : Bucket} {memory : ExtTreeMap String Int}
    (within : Within fetchRateMaxPerWindow fetchRateWindowSecs now bucket
      (Recent.sweep (live now) memory)) :
    (Recent.sweep (live now) memory).size < fetchNonceMaxPerDomain := by
  -- Eleven windows are longer than the lifetime of a nonce.
  have few : (Recent.sweep (live now) memory).size ≤ (11 + 1) * fetchRateMaxPerWindow := by
    refine within.size_le fun nonce noted found => ?_
    have young := live_iff.mp (Recent.lookup_sweep_iff.mp found).2
    unfold fetchRateWindowSecs
    simp only [second] at young ⊢
    omega
  exact Nat.lt_of_le_of_lt few (by decide)

variable {earlier now : Int} {stored stored' : Option Bucket} {memory memory' : ExtTreeMap String Int}

theorem DomainStep.bounded (step : DomainStep now stored memory stored' memory')
    (bounded : Bounded fetchRateMaxPerWindow fetchRateWindowSecs earlier stored memory)
    (after : earlier ≤ now) :
    Bounded fetchRateMaxPerWindow fetchRateWindowSecs now stored' memory' := by
  cases step with
  | pruned pruned => exact bounded.shrink pruned.sub after
  | counted pruned =>
    have counted := spend_spent bounded (by decide) after
    exact counted.within.shrink pruned.sub le_rfl
  | noted admitted new =>
    have counted := spend_spent (bounded.shrink (pruned_sweep now memory).sub le_rfl) (by decide) after
    rw [Recent.note_of_lt (swept_lt_max counted.within)]
    rw [show (spend fetchRateMaxPerWindow fetchRateWindowSecs now stored).1 = true from admitted]
      at counted
    exact counted.note _

theorem DomainStep.remembers (step : DomainStep now stored memory stored' memory')
    (bounded : Bounded fetchRateMaxPerWindow fetchRateWindowSecs earlier stored memory)
    (after : earlier ≤ now) (held : memory[nonce]? = some noted) (young : live now noted = true) :
    memory'[nonce]? = some noted := by
  cases step with
  | pruned pruned => exact pruned.keeps nonce noted held young
  | counted pruned => exact pruned.keeps nonce noted held young
  | @noted other admitted new =>
    have counted := spend_spent (bounded.shrink (pruned_sweep now memory).sub le_rfl) (by decide) after
    have kept := (pruned_sweep now memory).keeps nonce noted held young
    have different : other ≠ nonce := by
      rintro rfl
      exact new ((mem_iff_lookup _ _).mpr ⟨noted, kept⟩)
    rw [Recent.note_of_lt (swept_lt_max counted.within), lookup_insert, if_neg different, kept]

end FetchAuthState

/-! ## Fetches -/

section Fetch
variable {Key SigningKey Signature Wire : Type} {config : RelayConfig Key}
  {crypto : FetchCrypto Key SigningKey Signature} {clock : Clock} {coding : Coding Wire}

open FetchAuthState in
/-- All that a fetch can do to the nonces and rates. -/
inductive Ingested (config : RelayConfig Key) (crypto : FetchCrypto Key SigningKey Signature)
    (clock : Clock) (state : RelayState) (domain : String) (keys : List Key) (headers : Headers)
    (now : Int) : Except FetchAuthReject Wire → FetchAuthState → Prop
  | unheard {reject : FetchAuthReject} :
      Ingested config crypto clock state domain keys headers now (.error reject) state.auth
  | refused {reject : FetchAuthReject} {nonces : ExtTreeMap String (ExtTreeMap String Int)} :
      (∀ other, Pruned now (state.auth.memory other) (nonces.getD other ∅)) →
      Ingested config crypto clock state domain keys headers now (.error reject)
        ⟨nonces, state.auth.buckets.insert domain (spent now state.auth.buckets[domain]?).2⟩
  | drained {presented : PresentedFetchAuth} {body : Wire} :
      presentedFetchAuth headers = .ok presented →
      (spent now state.auth.buckets[domain]?).1 = true →
      verifyFetchAuth crypto clock presented domain config.audience keys now = .ok () →
      presented.nonce ∉ Recent.sweep (live now) (state.auth.memory domain) →
      Ingested config crypto clock state domain keys headers now (.ok body)
        ⟨state.auth.nonces.insert domain (Recent.note fetchNonceMaxPerDomain presented.nonce now
          (Recent.sweep (live now) (state.auth.memory domain))),
          state.auth.buckets.insert domain (spent now state.auth.buckets[domain]?).2⟩

variable (coding) in
open FetchAuthState in
theorem ingested (state : RelayState) (domain : String) (keys : List Key) (headers : Headers) (now : Int) :
    Ingested config crypto clock state domain keys headers now
      (ingestFetch config crypto clock coding state domain keys headers now).1
      (ingestFetch config crypto clock coding state domain keys headers now).2.auth := by
  unfold ingestFetch
  cases heard : presentedFetchAuth headers with
  | error reject => exact .unheard
  | ok presented =>
    simp only [admitCall_eq]
    cases admitted : (spent now state.auth.buckets[domain]?).1 with
    | false => exact .refused fun other => .refl now _
    | true =>
      cases verified : verifyFetchAuth crypto clock presented domain config.audience keys now with
      | error reject => exact .refused fun other => .refl now _
      | ok _ =>
        simp only [if_true]
        by_cases held : presented.nonce ∈ Recent.sweep (live now) (state.auth.memory domain)
        · rw [recordNonce_held _ held]
          refine .refused fun other => ?_
          rw [getD_insert]
          split
          next same =>
            subst same
            exact pruned_sweep now _
          next => exact .refl now _
        · rw [recordNonce_new _ held]
          exact .drained heard admitted verified held

open FetchAuthState in
theorem respond_domainStep (state : RelayState) (request : Request) (domain : String) :
    DomainStep request.now state.auth.buckets[domain]? (state.auth.memory domain)
      (respond config crypto clock coding state request).2.auth.buckets[domain]?
      ((respond config crypto clock coding state request).2.auth.memory domain) := by
  cases request with
  | enqueue principal body now =>
    have same : (enqueueHandler config state principal body now).2.auth = state.auth := by
      unfold enqueueHandler
      split
      · rfl
      · split <;> rfl
    change DomainStep now _ _ (enqueueHandler config state principal body now).2.auth.buckets[domain]? _
    rw [respond, same]
    exact .pruned (.refl now _)
  | sweep now =>
    change DomainStep now _ _ state.auth.buckets[domain]? ((state.auth.sweep now).memory domain)
    rw [memory_sweep]
    exact .pruned (pruned_sweep now _)
  | fetch fetched headers now =>
    cases served : config.domains[fetched]? with
    | none =>
      rw [respond, served]
      exact .pruned (.refl now _)
    | some keys =>
      rw [respond_fetch served]
      have what : Ingested config crypto clock state fetched keys headers now _ _ :=
        ingested coding state fetched keys headers now
      change DomainStep now _ _
        (ingestFetch config crypto clock coding state fetched keys headers now).2.auth.buckets[domain]?
        ((ingestFetch config crypto clock coding state fetched keys headers now).2.auth.memory domain)
      generalize (ingestFetch config crypto clock coding state fetched keys headers now).2.auth = auth
        at what ⊢
      generalize (ingestFetch config crypto clock coding state fetched keys headers now).1 = output
        at what
      cases what with
      | unheard => exact .pruned (.refl now _)
      | refused pruned =>
        rw [lookup_insert]
        split
        next same =>
          subst same
          exact .counted (pruned fetched)
        next => exact .pruned (pruned domain)
      | drained _ admitted _ new =>
        rw [lookup_insert, memory_insert]
        split
        next same =>
          subst same
          exact .noted admitted new
        next => exact .pruned (.refl now _)

/-! ## Authorizations -/

/-- The timestamp is fresh at an instant. -/
def Timely (clock : Clock) (ts : String) (now : Int) : Prop :=
  ∃ instant, clock.parse ts = some instant ∧
    (wholeSeconds (floorSecond now - instant)).natAbs ≤ fetchFreshnessWindowSecs

theorem Timely.near {first later : Int} (timely : Timely clock (clock.format mintedAt) first)
    (timely' : Timely clock (clock.format mintedAt) later) : later < first + 601 * second := by
  obtain ⟨instant, parsed, fresh⟩ := timely
  obtain ⟨instant', parsed', fresh'⟩ := timely'
  obtain rfl : instant = instant' := Option.some.inj (parsed.symm.trans parsed')
  obtain ⟨whole, rfl⟩ := clock.parse_format_whole parsed
  rw [natAbs_wholeSeconds_le_iff] at fresh fresh'
  have bounds := floorSecond_bounds first
  have bounds' := floorSecond_bounds later
  obtain ⟨seconds, floor⟩ := floorSecond_dvd first
  obtain ⟨seconds', floor'⟩ := floorSecond_dvd later
  unfold fetchFreshnessWindowSecs at fresh fresh'
  rw [floor] at fresh bounds
  rw [floor'] at fresh' bounds'
  simp only [second] at *
  omega

theorem verifyFetchAuth_ok {expectedAud : String} {keys : List Key}
    (verified : verifyFetchAuth crypto clock presented domain expectedAud keys now = .ok ()) :
    presented.aud = expectedAud ∧ Timely clock presented.ts now ∧
      ∃ key signature, crypto.fromB64url presented.signatureB64url = some signature ∧
        crypto.verify key ⟨fetchAuthTyp, presented.aud, domain, presented.nonce, presented.ts⟩ signature =
          true := by
  unfold verifyFetchAuth at verified
  split at verified
  next => cases verified
  next =>
    split at verified
    next => cases verified
    next addressed =>
      split at verified
      next => cases verified
      next instant parsed =>
        split at verified
        next => cases verified
        next fresh =>
          split at verified
          next => cases verified
          next signature decoded =>
            dsimp only at verified
            split at verified
            next some_key =>
              obtain ⟨key, -, accepted⟩ := List.any_eq_true.mp some_key
              exact ⟨not_not.mp addressed, ⟨instant, parsed, Nat.not_lt.mp fresh⟩, key, signature, decoded,
                accepted⟩
            next => cases verified

theorem presentedFetchAuth_ok {headers : Headers}
    (heard : presentedFetchAuth headers = .ok presented) :
    headers relayAuthAudHeader = some presented.aud ∧ headers relayAuthTsHeader = some presented.ts ∧
      headers relayAuthNonceHeader = some presented.nonce ∧
      headers relayAuthSigHeader = some presented.signatureB64url := by
  have extracted : ∀ {name text : String}, extractHeader headers name = .ok text →
      headers name = some text := by
    intro name text found
    unfold extractHeader at found
    split at found
    next value => rw [value, Except.ok.inj found]
    next => cases found
  simp only [presentedFetchAuth, bind, Except.bind, pure, Except.pure] at heard
  split at heard
  next => cases heard
  next aud =>
    split at heard
    next => cases heard
    next ts =>
      split at heard
      next => cases heard
      next nonce =>
        split at heard
        next => cases heard
        next sig =>
          cases heard
          exact ⟨extracted aud, extracted ts, extracted nonce, extracted sig⟩

def PresentsSignature (auth : SignedFetchAuth) : Request → Prop
  | .fetch _ headers _ => headers relayAuthSigHeader = some auth.signatureB64url
  | _ => False

def Response.IsBatch : Response Wire → Prop
  | .batch _ => True
  | _ => False

def DrainsWith (auth : SignedFetchAuth) (event : Event RelayState Request (Response Wire)) : Prop :=
  PresentsSignature auth event.input ∧ event.output.IsBatch

/-- A request presents all four values of an authorization, on a domain. -/
def PresentsOn (auth : SignedFetchAuth) (domain : String) : Request → Prop
  | .fetch fetched headers _ => fetched = domain ∧ ∀ pair ∈ auth.headerPairs, headers pair.1 = some pair.2
  | _ => False

open FetchAuthState in
/-- What a request that drains with the signature of an authorization shows. -/
structure Drain (config : RelayConfig Key) (auth : SignedFetchAuth) (aud domain : String) (clock : Clock)
    (state after : RelayState) (request : Request) : Prop where
  presents : PresentsOn auth domain request
  addressed : config.audience = aud
  timely : Timely clock auth.ts request.now
  new : auth.nonce ∉ Recent.sweep (live request.now) (state.auth.memory domain)
  recorded : (after.auth.memory domain)[auth.nonce]? = some request.now

theorem drain_of_drainsWith {sk : SigningKey} {aud : String} {id : Uuid}
    (presents : PresentsSignature (signFetchAuth crypto clock sk aud domain id mintedAt) request)
    (batch : (respond config crypto clock coding state request).1.IsBatch) :
    Drain config (signFetchAuth crypto clock sk aud domain id mintedAt) aud domain clock state
      (respond config crypto clock coding state request).2 request := by
  cases request with
  | enqueue principal body now => exact presents.elim
  | sweep now => exact presents.elim
  | fetch fetched headers now =>
    cases served : config.domains[fetched]? with
    | none =>
      rw [respond, served] at batch
      exact batch.elim
    | some keys =>
      rw [respond_fetch served] at batch ⊢
      have what : Ingested config crypto clock state fetched keys headers now _ _ :=
        ingested coding state fetched keys headers now
      generalize ingestFetch config crypto clock coding state fetched keys headers now = result
        at batch what ⊢
      obtain ⟨output, queues, nonces⟩ := result
      cases what with
      | unheard => exact batch.elim
      | refused _ => exact batch.elim
      | @drained presented body heard _ verified new =>
        obtain ⟨sent_aud, sent_ts, sent_nonce, sent_sig⟩ := presentedFetchAuth_ok heard
        obtain ⟨addressed, timely, key, signature, decoded, accepted⟩ := verifyFetchAuth_ok verified
        have same : presented.signatureB64url =
            crypto.toB64url (crypto.sign sk ⟨fetchAuthTyp, aud, domain, id.hyphenated, clock.format mintedAt⟩) :=
          Option.some.inj (sent_sig.symm.trans presents)
        rw [same, crypto.fromB64url_toB64url] at decoded
        cases decoded
        obtain ⟨-, signed⟩ := crypto.verify_sign accepted
        obtain ⟨-, rfl, rfl, nonce, ts⟩ := FetchAuthRequest.mk.inj signed
        rw [nonce] at sent_nonce new
        rw [ts] at sent_ts timely
        refine ⟨⟨rfl, ?_⟩, addressed.symm, timely, new, ?_⟩
        · simp only [SignedFetchAuth.headerPairs, List.forall_mem_cons]
          exact ⟨sent_aud, sent_ts, sent_nonce, presents, fun _ member => by cases member⟩
        · change (FetchAuthState.memory _ fetched)[id.hyphenated]? = some now
          rw [FetchAuthState.memory_insert, if_pos rfl, nonce, Recent.lookup_note_self]

/-! ## Runs -/

open FetchAuthState in
/-- The memory of every domain is bounded by what its rate limit admits. -/
def Sound (now : Int) (state : RelayState) : Prop :=
  ∀ domain, Bounded fetchRateMaxPerWindow fetchRateWindowSecs now state.auth.buckets[domain]?
    (state.auth.memory domain)

theorem sound_new (now : Int) : Sound now .new := fun _ => rfl

theorem respond_sound (sound : Sound earlier state) (after : earlier ≤ request.now) :
    Sound request.now (respond config crypto clock coding state request).2 := fun domain =>
  (respond_domainStep state request domain).bounded (sound domain) after

/-- An authorization that has been used at `used` is either remembered or stale. -/
def Used (domain nonce : String) (used now : Int) (state : RelayState) : Prop :=
  (state.auth.memory domain)[nonce]? = some used ∨ used + 601 * second ≤ now

theorem respond_used (sound : Sound earlier state) (after : earlier ≤ request.now)
    (spent : Used domain nonce used earlier state) :
    Used domain nonce used request.now (respond config crypto clock coding state request).2 := by
  rcases spent with held | stale
  · by_cases young : request.now < used + 601 * second
    · exact .inl ((respond_domainStep state request domain).remembers (sound domain) after held
        (FetchAuthState.live_iff.mpr young))
    · exact .inr (Int.not_lt.mp young)
  · exact .inr (stale.trans after)

section Authorization
variable {sk : SigningKey} {aud domain : String} {id : Uuid} {mintedAt : Int}

theorem not_drainsWith_of_used (minted : Timely clock (clock.format mintedAt) used) :
    ∀ {state : RelayState} {now : Int}, Sound now state →
      (∀ request ∈ requests, now ≤ request.now) → requests.Pairwise (fun a b => a.now ≤ b.now) →
      Used domain id.hyphenated used now state →
      ∀ event ∈ traceOf (respond config crypto clock coding) state requests,
        ¬DrainsWith (signFetchAuth crypto clock sk aud domain id mintedAt) event := by
  induction requests with
  | nil => exact fun _ _ _ _ event member => by cases member
  | cons request rest ih =>
    intro state now sound after ordered spent event member
    obtain ⟨first, ordered⟩ := List.pairwise_cons.mp ordered
    have here := after request List.mem_cons_self
    rcases List.mem_cons.mp member with rfl | later
    · rintro ⟨presents, batch⟩
      have drain := drain_of_drainsWith presents batch
      rcases spent with held | stale
      · have young := FetchAuthState.live_iff.mpr (minted.near drain.timely)
        exact drain.new (Recent.mem_sweep_iff.mpr ⟨used, held, young⟩)
      · have near := minted.near drain.timely
        exact absurd (stale.trans here) (Int.not_le.mpr near)
    · exact ih (respond_sound sound here) first ordered (respond_used sound here spent) event later

theorem pairwise_drains : ∀ {state : RelayState} {now : Int}, Sound now state →
    (∀ request ∈ requests, now ≤ request.now) → requests.Pairwise (fun a b => a.now ≤ b.now) →
    (traceOf (respond config crypto clock coding) state requests).Pairwise fun first later =>
      ¬(DrainsWith (signFetchAuth crypto clock sk aud domain id mintedAt) first ∧
        DrainsWith (signFetchAuth crypto clock sk aud domain id mintedAt) later) := by
  induction requests with
  | nil => exact fun _ _ _ => .nil
  | cons request rest ih =>
    intro state now sound after ordered
    obtain ⟨first, ordered⟩ := List.pairwise_cons.mp ordered
    have here := after request List.mem_cons_self
    have sound' : Sound request.now (respond config crypto clock coding state request).2 :=
      respond_sound sound here
    refine List.pairwise_cons.mpr ⟨?_, ih sound' first ordered⟩
    rintro later member ⟨⟨presents, batch⟩, again⟩
    have drain := drain_of_drainsWith presents batch
    exact not_drainsWith_of_used drain.timely sound' first ordered (.inl drain.recorded) later member again

end Authorization

end Fetch

/-- An authorization drains at most once in every run of the relay, and only on the
domain and at the relay that it was minted for. -/
theorem authorization_drains_once {Key SigningKey Signature Wire : Type} (config : RelayConfig Key)
    (crypto : FetchCrypto Key SigningKey Signature) (clock : Clock) (coding : Coding Wire)
    (requests : List Request) (ordered : requests.Pairwise fun a b => a.now ≤ b.now)
    (sk : SigningKey) (aud domain : String) (id : Uuid) (mintedAt : Int) :
    (∀ event ∈ traceOf (respond config crypto clock coding) .new requests,
        DrainsWith (signFetchAuth crypto clock sk aud domain id mintedAt) event →
          PresentsOn (signFetchAuth crypto clock sk aud domain id mintedAt) domain event.input ∧
            config.audience = aud) ∧
      (traceOf (respond config crypto clock coding) .new requests).Pairwise fun first later =>
        ¬(DrainsWith (signFetchAuth crypto clock sk aud domain id mintedAt) first ∧
          DrainsWith (signFetchAuth crypto clock sk aud domain id mintedAt) later) := by
  constructor
  · rintro event member ⟨presents, batch⟩
    obtain ⟨earlier, later, split⟩ := List.append_of_mem member
    obtain ⟨taken, -⟩ := traceOf_split _ split
    have batch : (respond config crypto clock coding event.before event.input).1.IsBatch := by
      rwa [taken]
    have drain := drain_of_drainsWith presents batch
    exact ⟨drain.presents, drain.addressed⟩
  · cases requests with
    | nil => exact .nil
    | cons request rest =>
      refine pairwise_drains (sound_new request.now) (fun other member => ?_) ordered
      rcases List.mem_cons.mp member with rfl | later
      · exact le_rfl
      · exact (List.pairwise_cons.mp ordered).1 other later

/-- The same authorization at noon and five minutes later. -/
def sampleFetches : List Request :=
  [.fetch "hosta.test" sampleHeaders sampleNoon,
    .fetch "hosta.test" sampleHeaders (sampleNoon + 300 * second)]

theorem sampleFetches_drain_once :
    (∀ event ∈ traceOf (respond sampleConfig sampleCrypto rfc3339 sampleCoding) .new sampleFetches,
        DrainsWith sampleAuth event →
          PresentsOn sampleAuth "hosta.test" event.input ∧ sampleConfig.audience = "https://relay.test") ∧
      (traceOf (respond sampleConfig sampleCrypto rfc3339 sampleCoding) .new sampleFetches).Pairwise
        fun first later => ¬(DrainsWith sampleAuth first ∧ DrainsWith sampleAuth later) :=
  authorization_drains_once sampleConfig sampleCrypto rfc3339 sampleCoding sampleFetches
    (List.pairwise_pair.mpr (show sampleNoon ≤ sampleNoon + 300 * second by decide)) ()
    "https://relay.test" "hosta.test" Uuid.nil sampleNoon

end Famp.Relay
