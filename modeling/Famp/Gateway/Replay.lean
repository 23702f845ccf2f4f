import Famp.Gateway.Guard
import Mathlib.Data.List.Dedup

/-!
# What the replay cache remembers

Over every run of the guard: where the entries of the cache come from, when a
recorded nonce is still in it, and when a replay is refused.
-/

set_option autoImplicit false

namespace Famp.Gateway

open Std Famp.Core Data Data.FixedWindow Data.Recent

abbrev GuardEvent := Event IngressGuard GuardInput (Except GuardReject Unit)

abbrev guardMachine (clock : Clock) : Machine IngressGuard GuardInput (Except GuardReject Unit) :=
  .ofFunction (runCheapGates clock) .new

variable {guard guard' : IngressGuard} {now recordedAt : Int} {trace : List GuardEvent}
  {sender nonce : String} {input : GuardInput} {output : Except GuardReject Unit}
  {nonces : List String} {count : Nat}

section Runs
variable {clock : Clock}

/-! ## Live entries -/

theorem live_iff : ReplayCache.live now recordedAt = true ↔ now - recordedAt < 600 * second := by
  rw [ReplayCache.live, decide_eq_true_iff]
  exact wholeSeconds_lt_iff (by decide)

theorem live_mono {later : Int} (ordered : now ≤ later)
    (alive : ReplayCache.live later recordedAt = true) :
    ReplayCache.live now recordedAt = true := by
  rw [live_iff] at alive ⊢
  omega

theorem live_self (now : Int) : ReplayCache.live now now = true := by
  rw [live_iff, Int.sub_self]
  decide

/-! ## One call -/

theorem inner_insert (cache : ReplayCache) (sender other : String) (memory : ExtTreeMap String Int) :
    (ReplayCache.inner (cache.insert sender memory) other) =
      if sender = other then memory else cache.inner other := by
  unfold ReplayCache.inner
  rw [ExtTreeMap.getD_eq_getD_getElem?, lookup_insert]
  split
  · rfl
  · rw [ExtTreeMap.getD_eq_getD_getElem?]

/-- The call records its nonce under its sender. -/
structure Recorded (clock : Clock) (event : GuardEvent) (sender nonce : String) (now : Int) : Prop where
  sender_eq : event.input.senderName = sender
  reaches : Reaches clock event.input nonce now
  new : nonce ∉ event.before.swept sender now

/-- The call records its nonce where the cache of its sender is full of live ones. -/
def Overflows (clock : Clock) (guard : IngressGuard) (input : GuardInput) : Prop :=
  ∃ nonce now, Reaches clock input nonce now ∧ nonce ∉ guard.swept input.senderName now ∧
    replayCacheMaxPerSender ≤ (guard.swept input.senderName now).size

theorem entry_after (taken : runCheapGates clock guard input = (output, guard'))
    (found : (guard'.replay.inner sender)[nonce]? = some recordedAt) :
    (guard.replay.inner sender)[nonce]? = some recordedAt ∨
      Recorded clock ⟨guard, input, output, guard'⟩ sender nonce recordedAt := by
  have what := gated clock guard input
  rw [taken] at what
  cases what with
  | refused _ _ => exact .inl found
  | replayed reaches held =>
    rw [inner_insert] at found
    split at found
    next same =>
      subst same
      exact .inl (lookup_sweep_iff.mp found).1
    next => exact .inl found
  | recorded reaches new =>
    rw [inner_insert] at found
    split at found
    next same =>
      subst same
      rcases lookup_note found with ⟨rfl, rfl⟩ | kept
      · exact .inr ⟨rfl, reaches, new⟩
      · exact .inl (lookup_sweep_iff.mp kept).1
    next => exact .inl found

theorem recorded_after (taken : runCheapGates clock guard input = (output, guard'))
    (recorded : Recorded clock ⟨guard, input, output, guard'⟩ sender nonce now) :
    guard'.replay.inner sender = note replayCacheMaxPerSender nonce now (guard.swept sender now) := by
  obtain ⟨rfl, reaches, new⟩ := recorded
  have after := congrArg Prod.snd (taken.symm.trans (runCheapGates_recorded reaches new))
  rw [show guard' = _ from after, inner_insert, if_pos rfl]

theorem kept_after (taken : runCheapGates clock guard input = (output, guard'))
    (room : ¬Overflows clock guard input)
    (found : (guard.replay.inner sender)[nonce]? = some recordedAt)
    (alive : ∀ now, clock.parse input.now = some now → ReplayCache.live now recordedAt = true) :
    (guard'.replay.inner sender)[nonce]? = some recordedAt := by
  have what := gated clock guard input
  rw [taken] at what
  cases what with
  | refused _ _ => exact found
  | replayed reaches held =>
    rw [inner_insert]
    split
    next same =>
      subst same
      exact lookup_sweep_iff.mpr ⟨found, alive _ reaches.instant⟩
    next => exact found
  | @recorded fresh now reaches new =>
    rw [inner_insert]
    split
    next same =>
      subst same
      have held : (guard.swept input.senderName now)[nonce]? = some recordedAt :=
        lookup_sweep_iff.mpr ⟨found, alive _ reaches.instant⟩
      have fits : (guard.swept input.senderName now).size < replayCacheMaxPerSender :=
        Nat.lt_of_not_le fun full => room ⟨fresh, now, reaches, new, full⟩
      have distinct : fresh ≠ nonce := by
        rintro rfl
        exact new ((mem_iff_lookup _ _).mpr ⟨_, held⟩)
      rw [note_of_lt fits, lookup_insert, if_neg distinct]
      exact held
    next => exact found

/-! ## Runs -/

def instants (clock : Clock) (trace : List GuardEvent) : List Int :=
  trace.filterMap fun event => clock.parse event.input.now

/-- The calls come in the order of their instants. -/
def Ordered (clock : Clock) (trace : List GuardEvent) : Prop := (instants clock trace).Pairwise (· ≤ ·)

instance (clock : Clock) (trace : List GuardEvent) : Decidable (Ordered clock trace) :=
  inferInstanceAs (Decidable ((instants clock trace).Pairwise (· ≤ ·)))

theorem instants_append (trace : List GuardEvent) (event : GuardEvent) :
    instants clock (trace ++ [event]) =
      instants clock trace ++ (clock.parse event.input.now).toList := by
  unfold instants
  rw [List.filterMap_append]
  cases parsed : clock.parse event.input.now <;> simp [parsed]

theorem entry_recorded (run : (guardMachine clock).Run trace guard) :
    ∀ {sender nonce : String} {recordedAt : Int},
      (guard.replay.inner sender)[nonce]? = some recordedAt →
        ∃ event ∈ trace, Recorded clock event sender nonce recordedAt := by
  induction run with
  | start initial =>
    intro sender nonce recordedAt found
    subst initial
    simp [IngressGuard.new, ReplayCache.inner] at found
  | step run taken ih =>
    intro sender nonce recordedAt found
    rcases entry_after taken found with earlier | last
    · obtain ⟨event, member, recorded⟩ := ih earlier
      exact ⟨event, List.mem_append_left _ member, recorded⟩
    · exact ⟨_, List.mem_append_right _ (List.mem_singleton_self _), last⟩

theorem recorded_kept (run : (guardMachine clock).Run trace guard)
    (room : ∀ event ∈ trace, ¬Overflows clock event.before event.input) :
    ∀ {event : GuardEvent} {sender nonce : String} {recordedAt latest : Int}, event ∈ trace →
      Recorded clock event sender nonce recordedAt → (∀ now ∈ instants clock trace, now ≤ latest) →
      ReplayCache.live latest recordedAt = true →
        (guard.replay.inner sender)[nonce]? = some recordedAt := by
  induction run with
  | start _ =>
    intro event _ _ _ _ member
    cases member
  | @step trace guard guard' input output run taken ih =>
    intro event sender nonce recordedAt latest member recorded bound alive
    rw [List.forall_mem_append, List.forall_mem_singleton] at room
    rw [instants_append, List.forall_mem_append] at bound
    rcases List.mem_append.mp member with earlier | last
    · have held := ih room.1 earlier recorded bound.1 alive
      refine kept_after taken room.2 held fun now instant => ?_
      exact live_mono (bound.2 now (by simp [instant])) alive
    · obtain rfl := List.mem_singleton.mp last
      rw [recorded_after taken recorded, lookup_note_self]

/-! ## Live nonces are remembered unless the cache overflows -/

/-- Every nonce that the run recorded and that is live at the instant of its last
call is in the cache. -/
def Remembers (clock : Clock) (trace : List GuardEvent) (guard : IngressGuard) : Prop :=
  ∀ event ∈ trace, ∀ sender nonce recordedAt latest,
    Recorded clock event sender nonce recordedAt → (instants clock trace).getLast? = some latest →
      wholeSeconds (latest - recordedAt) < replayCacheTtlSecs → nonce ∈ guard.replay.inner sender

theorem le_of_ordered {latest : Int} (ordered : Ordered clock trace)
    (last : (instants clock trace).getLast? = some latest) :
    ∀ now ∈ instants clock trace, now ≤ latest := by
  obtain ⟨before, split⟩ := List.getLast?_eq_some_iff.mp last
  unfold Ordered at ordered
  rw [split] at ordered ⊢
  intro now member
  rcases List.mem_append.mp member with earlier | final
  · exact (List.pairwise_append.mp ordered).2.2 now earlier latest (List.mem_singleton_self _)
  · rw [List.mem_singleton.mp final]

theorem Ordered.of_append {earlier later : List GuardEvent} (ordered : Ordered clock (earlier ++ later)) :
    Ordered clock earlier := by
  unfold Ordered instants at *
  rw [List.filterMap_append] at ordered
  exact (List.pairwise_append.mp ordered).1

theorem overflow_forgets (run : (guardMachine clock).Run trace guard)
    (taken : runCheapGates clock guard input = (output, guard'))
    (overflows : Overflows clock guard input) :
    ¬Remembers clock (trace ++ [⟨guard, input, output, guard'⟩]) guard' := by
  obtain ⟨nonce, now, reaches, new, full⟩ := overflows
  obtain ⟨lost, noted, held, forgotten⟩ := note_forgets (by decide) full new now
  obtain ⟨stored, alive⟩ := lookup_sweep_iff.mp held
  obtain ⟨event, member, recorded⟩ := entry_recorded run stored
  intro remembers
  have kept := remembers event (List.mem_append_left _ member) input.senderName lost noted now recorded
    (by rw [instants_append, reaches.instant]; simp) (by simpa [ReplayCache.live] using alive)
  rw [recorded_after taken ⟨rfl, reaches, new⟩] at kept
  exact forgotten kept

/-- The nonces that calls of a sender present within a lifetime of the cache from
an instant on. -/
def presented (clock : Clock) (trace : List GuardEvent) (sender : String) (start : Int) : List String :=
  trace.filterMap fun event =>
    match clock.parse event.input.now with
    | none => none
    | some now =>
      if event.input.senderName = sender ∧ start ≤ now ∧ now < start + replayCacheTtlSecs * second then
        event.input.peeked.nonce
      else none

/-- No sender presents more nonces within a lifetime than the cache holds. -/
def NoncesFit (clock : Clock) (trace : List GuardEvent) : Prop :=
  ∀ sender start, (presented clock trace sender start).dedup.length ≤ replayCacheMaxPerSender

/-- The calls that get as far as the replay cache. -/
def reaching (clock : Clock) (trace : List GuardEvent) : List GuardEvent :=
  trace.filter fun event => audienceCheck event.input = .ok () ∧
    freshnessCheck clock event.input.peeked.ts event.input.now clockSkewWindowSecs = .ok () ∧
      event.input.peeked.nonce ≠ some ""

theorem NoncesFit.reaching (fit : NoncesFit clock trace) : NoncesFit clock (reaching clock trace) := by
  intro sender start
  refine Nat.le_trans (List.subperm_of_subset (List.nodup_dedup _) fun nonce member => ?_).length_le
    (fit sender start)
  rw [List.mem_dedup] at member ⊢
  exact (List.filter_sublist.filterMap _).subset member

theorem Recorded.presented {event : GuardEvent} {start : Int} (member : event ∈ trace)
    (recorded : Recorded clock event sender nonce now) (from_start : start ≤ now)
    (in_time : now < start + replayCacheTtlSecs * second) :
    nonce ∈ presented clock (reaching clock trace) sender start := by
  have reaches := recorded.reaches
  refine List.mem_filterMap.mpr ⟨event, List.mem_filter.mpr ⟨member, decide_eq_true
    ⟨reaches.audience, reaches.fresh, by simp [reaches.nonce_eq, reaches.nonempty]⟩⟩, ?_⟩
  rw [recorded.reaches.instant]
  exact (if_pos ⟨recorded.sender_eq, from_start, in_time⟩).trans recorded.reaches.nonce_eq

theorem mem_instants {event : GuardEvent} (member : event ∈ trace)
    (instant : clock.parse event.input.now = some now) : now ∈ instants clock trace :=
  List.mem_filterMap.mpr ⟨event, member, instant⟩

theorem no_overflow_of_fit (run : (guardMachine clock).Run trace guard)
    (ordered : Ordered clock trace) (fit : NoncesFit clock (reaching clock trace)) :
    ∀ event ∈ trace, ¬Overflows clock event.before event.input := by
  rintro event member ⟨nonce, now, reaches, new, full⟩
  obtain ⟨earlier, later, split⟩ := List.append_of_mem member
  obtain ⟨before, taken⟩ := run.split split
  have ordered' : Ordered clock (earlier ++ [event]) := by
    rw [split, ← List.singleton_append, ← List.append_assoc] at ordered
    exact ordered.of_append
  have last : (instants clock (earlier ++ [event])).getLast? = some now := by
    rw [instants_append, reaches.instant]
    simp
  have lifetime : replayCacheTtlSecs * second = 600 * second := rfl
  have positive : 0 < 600 * second := by decide
  have here : nonce ∈ presented clock (reaching clock trace) event.input.senderName
        (now - replayCacheTtlSecs * second + 1) :=
    Recorded.presented member ⟨rfl, reaches, new⟩ (by omega) (by omega)
  have kept : ∀ key ∈ (event.before.swept event.input.senderName now).keys,
      key ∈ presented clock (reaching clock trace) event.input.senderName
        (now - replayCacheTtlSecs * second + 1) := by
    intro key held
    obtain ⟨noted, stored⟩ := (mem_iff_lookup _ _).mp (ExtTreeMap.mem_keys.mp held)
    obtain ⟨entry, alive⟩ := lookup_sweep_iff.mp stored
    obtain ⟨recording, member', recorded⟩ := entry_recorded before entry
    have early : noted ≤ now := le_of_ordered ordered' last noted
      (mem_instants (List.mem_append_left _ member') recorded.reaches.instant)
    rw [live_iff] at alive
    have member'' : recording ∈ trace := split ▸ List.mem_append_left _ member'
    exact Recorded.presented member'' recorded (by omega) (by omega)
  have distinct : (nonce :: (event.before.swept event.input.senderName now).keys).Nodup :=
    List.nodup_cons.mpr ⟨fun held => new (ExtTreeMap.mem_keys.mp held), ExtTreeMap.nodup_keys⟩
  have bound : (nonce :: (event.before.swept event.input.senderName now).keys).length ≤
      (presented clock (reaching clock trace) event.input.senderName
        (now - replayCacheTtlSecs * second + 1)).dedup.length := by
    refine (List.subperm_of_subset distinct ?_).length_le
    intro key member'
    rw [List.mem_dedup]
    rcases List.mem_cons.mp member' with rfl | held
    · exact here
    · exact kept key held
  have few := fit event.input.senderName (now - replayCacheTtlSecs * second + 1)
  rw [List.length_cons, ExtTreeMap.length_keys] at bound
  omega

theorem noncesFit_of_short (short : trace.length ≤ replayCacheMaxPerSender) :
    NoncesFit clock trace := fun _ _ =>
  ((List.dedup_sublist _).length_le.trans (List.length_filterMap_le _ _)).trans short

theorem remembers_iff_no_overflow {trace : List GuardEvent} {guard : IngressGuard}
    (run : (guardMachine clock).Run trace guard) (ordered : Ordered clock trace) :
    (∀ earlier event later, trace = earlier ++ event :: later →
        Remembers clock (earlier ++ [event]) event.after) ↔
      ∀ event ∈ trace, ¬Overflows clock event.before event.input := by
  constructor
  · intro remembers event member overflows
    obtain ⟨earlier, later, split⟩ := List.append_of_mem member
    obtain ⟨before, taken⟩ := run.split split
    exact overflow_forgets before taken overflows (remembers earlier event later split)
  · intro room earlier event later split recording member sender nonce recordedAt latest recorded last
      young
    obtain ⟨before, taken⟩ := run.split split
    have upto : (guardMachine clock).Run (earlier ++ [event]) event.after := before.step taken
    rw [← List.singleton_append, ← List.append_assoc] at split
    have ordered' : Ordered clock (earlier ++ [event]) := Ordered.of_append (split ▸ ordered)
    have room' : ∀ event' ∈ earlier ++ [event], ¬Overflows clock event'.before event'.input :=
      fun event' member' => room event' (split ▸ List.mem_append_left _ member')
    have held := recorded_kept upto room' member recorded (le_of_ordered ordered' last)
      (by simpa [ReplayCache.live] using young)
    exact (mem_iff_lookup _ _).mpr ⟨recordedAt, held⟩

/-- In a run in order in which the nonces that get as far as the cache fit, every state
remembers the live nonces. -/
theorem live_nonces_are_remembered {trace : List GuardEvent} {guard : IngressGuard}
    (run : (guardMachine clock).Run trace guard) (ordered : Ordered clock trace)
    (fit : NoncesFit clock (reaching clock trace)) :
    ∀ earlier event later, trace = earlier ++ event :: later →
      Remembers clock (earlier ++ [event]) event.after :=
  (remembers_iff_no_overflow run ordered).mpr (no_overflow_of_fit run ordered fit)

end Runs

/-- A request for `bob` at this gateway. -/
def peerCall (sender : Principal) (nonce ts now : String) : GuardInput :=
  ⟨⟨sender, ⟨"hub.example", "bob"⟩, ts, some nonce, none⟩, now, "hub.example", true⟩

def peerAlice : Principal := ⟨"peer.example", "alice"⟩

def quickReplay : List GuardInput :=
  [peerCall peerAlice "n1" "2026-11-16T12:00:00Z" "2026-11-16T12:00:00Z",
    peerCall peerAlice "n1" "2026-11-16T12:00:00Z" "2026-11-16T12:00:10Z"]

theorem quickReplay_ordered :
    Ordered rfc3339 (traceOf (runCheapGates rfc3339) .new quickReplay) := by
  decide +kernel

theorem quickReplay_remembered :
    let trace := traceOf (runCheapGates rfc3339) .new quickReplay
    NoncesFit rfc3339 (reaching rfc3339 trace) ∧
      ∀ earlier event later, trace = earlier ++ event :: later →
        Remembers rfc3339 (earlier ++ [event]) event.after := by
  have run := run_traceOf (runCheapGates rfc3339) IngressGuard.new quickReplay
  have fit : NoncesFit rfc3339 (traceOf (runCheapGates rfc3339) .new quickReplay) :=
    noncesFit_of_short (by decide)
  exact ⟨fit.reaching, live_nonces_are_remembered run quickReplay_ordered fit.reaching⟩

section Flood

/-- The cache of a sender holds these nonces, all recorded at one instant. -/
structure Filled (guard : IngressGuard) (sender : String) (now : Int) (nonces : List String) : Prop where
  entries : ∀ nonce, (guard.replay.inner sender)[nonce]? = if nonce ∈ nonces then some now else none
  size : (guard.replay.inner sender).size = nonces.length

theorem Filled.swept (filled : Filled guard sender now nonces) :
    guard.swept sender now = guard.replay.inner sender := by
  refine sweep_eq_self fun nonce recordedAt found => ?_
  rw [filled.entries] at found
  split at found
  · rw [← Option.some.inj found]
    exact live_self now
  · cases found

theorem Filled.new (filled : Filled guard sender now nonces) (unused : nonce ∉ nonces) :
    nonce ∉ guard.swept sender now := by
  rw [filled.swept, mem_iff_lookup, filled.entries, if_neg unused]
  simp

theorem Filled.step {clock : Clock} (filled : Filled guard input.senderName now nonces)
    (reaches : Reaches clock input nonce now) (unused : nonce ∉ nonces)
    (room : nonces.length < replayCacheMaxPerSender) :
    Filled (runCheapGates clock guard input).2 input.senderName now (nonce :: nonces) := by
  have after := recorded_after (Prod.eta (runCheapGates clock guard input)).symm
    ⟨rfl, reaches, filled.new unused⟩
  have absent : nonce ∉ guard.replay.inner input.senderName := filled.swept ▸ filled.new unused
  rw [filled.swept, note_of_lt (filled.size.symm ▸ room)] at after
  constructor
  · intro other
    rw [after, lookup_insert, filled.entries]
    by_cases same : nonce = other
    · simp [same]
    · simp [same, eq_comm]
  · rw [after, ExtTreeMap.size_insert, if_neg (by simpa using absent), filled.size, List.length_cons]

theorem Filled.calls {clock : Clock} (call : String → GuardInput)
    (named : ∀ nonce, (call nonce).senderName = sender)
    (reaches : ∀ nonce, nonce ≠ "" → Reaches clock (call nonce) nonce now) (nonces : List String) :
    ∀ {guard : IngressGuard} {used : List String}, Filled guard sender now used →
      (nonces ++ used).Nodup → "" ∉ nonces → (nonces ++ used).length ≤ replayCacheMaxPerSender →
        Filled (stateOf (runCheapGates clock) guard (nonces.map call)) sender now
          (nonces.reverse ++ used) := by
  induction nonces with
  | nil => exact fun filled _ _ _ => filled
  | cons nonce rest ih =>
    intro guard used filled distinct nonempty room
    rw [List.mem_cons, not_or] at nonempty
    have unused : nonce ∉ used := fun member =>
      (List.nodup_cons.mp distinct).1 (List.mem_append_right _ member)
    have short : used.length < replayCacheMaxPerSender := by
      simp only [List.cons_append, List.length_cons, List.length_append] at room
      omega
    have next : Filled (runCheapGates clock guard (call nonce)).2 sender now (nonce :: used) := by
      have filled' : Filled guard (call nonce).senderName now used := named nonce ▸ filled
      exact named nonce ▸ filled'.step (reaches nonce (Ne.symm nonempty.1)) unused short
    have moved : (rest ++ nonce :: used).Perm (nonce :: rest ++ used) := List.perm_middle
    simpa only [List.map_cons, stateOf, List.reverse_cons, List.append_assoc, List.singleton_append]
      using ih next (moved.nodup_iff.mpr distinct) nonempty.2 (moved.length_eq ▸ room)

theorem filled_new (sender : String) (now : Int) : Filled .new sender now [] := by
  constructor <;> simp [IngressGuard.new, ReplayCache.inner]

def floodNonce (k : Nat) : String := String.ofList (List.replicate (k + 1) 'n')

theorem floodNonce_injective : Function.Injective floodNonce := by
  intro j k same
  have lengths := congrArg (fun text => text.toList.length) same
  simpa [floodNonce] using lengths

theorem floodNonce_ne_empty (k : Nat) : floodNonce k ≠ "" := by
  intro empty
  have lengths := congrArg (fun text => text.toList.length) empty
  simp [floodNonce] at lengths

/-- `2026-11-16T12:00:00Z`. -/
def noon : Int := 1794830400000000000

def noonCall (sender : Principal) (nonce : String) : GuardInput :=
  peerCall sender nonce "2026-11-16T12:00:00Z" "2026-11-16T12:00:00Z"

theorem noonCall_reaches (sender : Principal) (nonempty : nonce ≠ "") :
    Reaches rfc3339 (noonCall sender nonce) nonce noon where
  audience := by simp [audienceCheck, noonCall, peerCall]
  fresh := by
    have read : freshnessCheck rfc3339 "2026-11-16T12:00:00Z" "2026-11-16T12:00:00Z"
        clockSkewWindowSecs = .ok () := by decide +kernel
    exact read
  nonce_eq := rfl
  nonempty := nonempty
  instant := by
    have read : rfc3339.parse "2026-11-16T12:00:00Z" = some noon := by decide +kernel
    exact read

def floodCalls (count : Nat) : List GuardInput :=
  ((List.range count).map floodNonce).map (noonCall peerAlice)

theorem filled_flood (room : count ≤ replayCacheMaxPerSender) :
    Filled (stateOf (runCheapGates rfc3339) .new (floodCalls count)) "alice" noon
      (((List.range count).map floodNonce).reverse ++ []) := by
  refine Filled.calls (noonCall peerAlice) (fun _ => rfl) (fun _ => noonCall_reaches peerAlice) _ (filled_new "alice" noon)
    ?_ ?_ ?_
  · rw [List.append_nil]
    exact List.nodup_range.map floodNonce_injective
  · intro member
    obtain ⟨k, -, empty⟩ := List.mem_map.mp member
    exact floodNonce_ne_empty k empty
  · simpa using room

theorem flood_overflows (full : count = replayCacheMaxPerSender) :
    Overflows rfc3339 (stateOf (runCheapGates rfc3339) .new (floodCalls count))
      (noonCall peerAlice (floodNonce count)) := by
  have filled := filled_flood full.le
  have unused : floodNonce count ∉ ((List.range count).map floodNonce).reverse ++ [] := by
    simp [floodNonce_injective.eq_iff]
  refine ⟨_, noon, noonCall_reaches peerAlice (floodNonce_ne_empty _), filled.new unused, ?_⟩
  change _ ≤ (IngressGuard.swept _ "alice" noon).size
  rw [filled.swept, filled.size, ← full]
  simp

theorem floodCalls_succ (count : Nat) :
    floodCalls (count + 1) = floodCalls count ++ [noonCall peerAlice (floodNonce count)] := by
  simp [floodCalls, List.range_succ]

theorem ordered_flood (inputs : trace.map Event.input = floodCalls count) :
    Ordered rfc3339 trace := by
  have only : ∀ instant ∈ instants rfc3339 trace, instant = noon := by
    intro instant member
    obtain ⟨event, within, parsed⟩ := List.mem_filterMap.mp member
    have call : event.input ∈ floodCalls count := inputs ▸ List.mem_map_of_mem within
    obtain ⟨nonce, drawn, same⟩ := List.mem_map.mp call
    obtain ⟨k, -, rfl⟩ := List.mem_map.mp drawn
    rw [← same, (noonCall_reaches peerAlice (floodNonce_ne_empty k)).instant] at parsed
    exact (Option.some.inj parsed).symm
  refine List.pairwise_of_forall_mem_list fun early member late member' => ?_
  rw [only early member, only late member']

/-- One request more than the cache holds, all within one second and from one
sender: a nonce that was just recorded is forgotten.  Most of the requests are
refused by the rate gate, and are recorded all the same. -/
theorem flood_forgets_live_nonce :
    ∃ trace guard, (guardMachine rfc3339).Run trace guard ∧
      trace.map Event.input = floodCalls (replayCacheMaxPerSender + 1) ∧
      Ordered rfc3339 trace ∧ ¬Remembers rfc3339 trace guard := by
  generalize full : replayCacheMaxPerSender = count
  have run := run_traceOf (runCheapGates rfc3339) IngressGuard.new (floodCalls count)
  have taken : runCheapGates rfc3339 (stateOf (runCheapGates rfc3339) .new (floodCalls count))
      (noonCall peerAlice (floodNonce count)) = (_, _) := (Prod.eta _).symm
  have inputs := map_input_traceOf (runCheapGates rfc3339) IngressGuard.new (floodCalls count)
  have inputs' : ∀ event : GuardEvent, event.input = noonCall peerAlice (floodNonce count) →
      (traceOf (runCheapGates rfc3339) IngressGuard.new (floodCalls count) ++ [event]).map Event.input =
        floodCalls (count + 1) := by
    intro event same
    rw [List.map_append, inputs, floodCalls_succ, List.map_singleton, same]
  exact ⟨_, _, run.step taken, inputs' _ rfl, ordered_flood (inputs' _ rfl),
    overflow_forgets run taken (flood_overflows full.symm)⟩

end Flood

section Replays
variable {clock : Clock}

/-! ## Replays are refused while they are fresh -/

/-- The same envelope, as far as the guard can tell. -/
def SameMessage (first second : GuardInput) : Prop :=
  first.senderName = second.senderName ∧ first.peeked.nonce = second.peeked.nonce ∧
    first.peeked.ts = second.peeked.ts

/-- Two fresh calls with the same envelope are less than a lifetime of the cache
apart. -/
def ReplaysWithinTtl (clock : Clock) (trace : List GuardEvent) : Prop :=
  trace.Pairwise fun first second => SameMessage first.input second.input →
    freshnessCheck clock first.input.peeked.ts first.input.now clockSkewWindowSecs = .ok () →
    freshnessCheck clock second.input.peeked.ts second.input.now clockSkewWindowSecs = .ok () →
    ∀ early late, clock.parse first.input.now = some early → clock.parse second.input.now = some late →
      wholeSeconds (late - early) < replayCacheTtlSecs

theorem recorded_of_ok (event : GuardEvent)
    (taken : runCheapGates clock event.before event.input = (event.output, event.after))
    (passed : event.output = .ok ()) :
    ∃ nonce now, Recorded clock event event.input.senderName nonce now := by
  have what := gated clock event.before event.input
  rw [taken, passed] at what
  generalize verdict : Except.ok () = output at what
  generalize event.after = after at what
  cases what with
  | refused _ _ => cases verdict
  | replayed _ _ => cases verdict
  | recorded reaches new => exact ⟨_, _, rfl, reaches, new⟩

/-- In a run in order whose nonces fit and whose replays come within the lifetime of
the cache, no two calls with the same envelope both pass. -/
theorem replays_refused {trace : List GuardEvent} {guard : IngressGuard}
    (run : (guardMachine clock).Run trace guard) (ordered : Ordered clock trace)
    (fit : NoncesFit clock trace) (within : ReplaysWithinTtl clock trace) :
    trace.Pairwise fun first second => SameMessage first.input second.input →
      ¬(first.output = .ok () ∧ second.output = .ok ()) := by
  have room := no_overflow_of_fit run ordered fit.reaching
  clear fit
  induction run with
  | start _ => exact List.Pairwise.nil
  | @step trace guard guard' input output run taken ih =>
    obtain ⟨early, -, last⟩ := List.pairwise_append.mp within
    rw [List.forall_mem_append, List.forall_mem_singleton] at room
    refine List.pairwise_append.mpr ⟨ih ordered.of_append early room.1, List.pairwise_singleton _ _, ?_⟩
    intro first member final is_final same ⟨passed, passed'⟩
    obtain rfl := List.mem_singleton.mp is_final
    obtain ⟨before, later, split⟩ := List.append_of_mem member
    obtain ⟨nonce, now, recorded⟩ := recorded_of_ok first (run.split split).2 passed
    obtain ⟨nonce', now', recorded'⟩ := recorded_of_ok ⟨guard, input, output, guard'⟩ taken passed'
    obtain rfl : nonce = nonce' := Option.some.inj
      (recorded.reaches.nonce_eq.symm.trans (same.2.1.trans recorded'.reaches.nonce_eq))
    have young : wholeSeconds (now' - now) < replayCacheTtlSecs :=
      last first member _ (List.mem_singleton_self _) same recorded.reaches.fresh
        recorded'.reaches.fresh now now' recorded.reaches.instant recorded'.reaches.instant
    have latest : ∀ earlier ∈ instants clock trace, earlier ≤ now' := by
      unfold Ordered at ordered
      rw [instants_append, recorded'.reaches.instant] at ordered
      exact fun earlier member => (List.pairwise_append.mp ordered).2.2 earlier member now' (by simp)
    have held := recorded_kept run room.1 member recorded latest
      (by simpa [ReplayCache.live] using young)
    refine recorded'.new (mem_sweep_iff.mpr ⟨now, ?_, by simpa [ReplayCache.live] using young⟩)
    rw [← same.1]
    exact held

end Replays

theorem quickReplay_refused :
    let trace := traceOf (runCheapGates rfc3339) .new quickReplay
    trace.map Event.output = [.ok (), .error (.replayedNonce "alice" "n1")] ∧
      trace.Pairwise fun first second => SameMessage first.input second.input →
        ¬(first.output = .ok () ∧ second.output = .ok ()) := by
  refine ⟨by decide +kernel, replays_refused (run_traceOf _ _ _) quickReplay_ordered
    (noncesFit_of_short (by decide)) ?_⟩
  refine List.pairwise_pair.mpr fun _ _ _ early late parsed parsed' => ?_
  have at_noon : rfc3339.parse "2026-11-16T12:00:00Z" = some noon := by decide +kernel
  have ten_later : rfc3339.parse "2026-11-16T12:00:10Z" = some (noon + 10 * second) := by decide +kernel
  obtain rfl : noon = early := Option.some.inj (at_noon.symm.trans parsed)
  obtain rfl : noon + 10 * second = late := Option.some.inj (ten_later.symm.trans parsed')
  decide

/-- A request with a timestamp five minutes ahead, and its replay ten minutes later. -/
def slowReplay : List GuardInput :=
  [peerCall peerAlice "n1" "2026-11-16T12:00:00Z" "2026-11-16T11:55:00Z",
    peerCall peerAlice "n1" "2026-11-16T12:00:00Z" "2026-11-16T12:05:00Z"]

/-- Both are fresh, and the entry of the first is dropped when it is as old as its
lifetime: both pass. -/
theorem slowReplay_passes :
    let trace := traceOf (runCheapGates rfc3339) .new slowReplay
    (guardMachine rfc3339).Run trace (stateOf (runCheapGates rfc3339) .new slowReplay) ∧
      Ordered rfc3339 trace ∧ NoncesFit rfc3339 trace ∧
      ¬trace.Pairwise fun first second => SameMessage first.input second.input →
        ¬(first.output = .ok () ∧ second.output = .ok ()) := by
  refine ⟨run_traceOf _ _ _, by decide +kernel, noncesFit_of_short (by decide), fun refused => ?_⟩
  exact List.pairwise_pair.mp refused ⟨rfl, rfl, rfl⟩ ⟨by decide +kernel, by decide +kernel⟩

end Famp.Gateway
