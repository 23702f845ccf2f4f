import Famp.Data.FixedWindow

/-!
# Runs of a fixed-window limiter

A limiter keeps a bucket for each key.  Over a run of requests in the order of
their times, the admitted requests of a key are bounded in every interval of one
window's length, wherever it lies, and a request is refused only where the window
that it falls in is full.
-/

set_option autoImplicit false

namespace Famp.Data.FixedWindow

open Std

/-! ## One key -/

/-- How many of the times lie in `[start, stop)`. -/
def countIn (start stop : Int) (times : List Int) : Nat :=
  times.countP fun time => decide (start ≤ time ∧ time < stop)

theorem countIn_append (start stop : Int) (first second : List Int) :
    countIn start stop (first ++ second) = countIn start stop first + countIn start stop second :=
  List.countP_append

theorem countIn_le_add (start middle stop : Int) (times : List Int) :
    countIn start stop times ≤ countIn start middle times + countIn middle stop times := by
  induction times with
  | nil => exact Nat.le_refl 0
  | cons time times ih =>
    simp only [countIn, List.countP_cons, decide_eq_true_eq] at ih ⊢
    split <;> split <;> split <;> omega

theorem countIn_mono {start start' stop stop' : Int} (later : start' ≤ start) (sooner : stop ≤ stop')
    (times : List Int) : countIn start stop times ≤ countIn start' stop' times := by
  refine List.countP_mono_left fun time _ within => ?_
  simp only [decide_eq_true_eq] at within ⊢
  omega

/-- What a bucket says about the times at which requests have been admitted: those of
its window are counted, and the window before it has admitted no more than it may. -/
structure Paced (max : Nat) (length now : Int) (bucket : Bucket) (times : List Int) : Prop where
  started : bucket.1 ≤ now
  past : ∀ time ∈ times, time ≤ now ∧ time < bucket.1 + length * second
  counted : countIn bucket.1 (bucket.1 + length * second) times = bucket.2
  limited : bucket.2 ≤ max
  before : countIn (bucket.1 - length * second) bucket.1 times ≤ max
  anywhere : ∀ start, countIn start (start + length * second) times ≤ 2 * max

/-- Where no request has been made, none has been admitted. -/
def PacedFrom (max : Nat) (length now : Int) : Option Bucket → List Int → Prop
  | none, times => times = []
  | some bucket, times => Paced max length now bucket times

variable {max : Nat} {length now later : Int} {bucket : Bucket} {times : List Int}

theorem Paced.wait (paced : Paced max length now bucket times) (after : now ≤ later) :
    Paced max length later bucket times :=
  { paced with
    started := Int.le_trans paced.started after
    past := fun time member => ⟨Int.le_trans (paced.past time member).1 after, (paced.past time member).2⟩ }

theorem Paced.renew (paced : Paced max length now bucket times) (positive : 0 < length)
    (after : now ≤ later) (passed : bucket.1 + length * second ≤ later) :
    Paced max length later (later, 0) times where
  started := Int.le_refl later
  past time member := by
    have old := paced.past time member
    have span : 0 < length * second := Int.mul_pos positive (by decide)
    exact ⟨Int.le_trans old.1 after, by change time < later + length * second; omega⟩
  counted := by
    refine List.countP_eq_zero.mpr fun time member => ?_
    have old := (paced.past time member).2
    simp only [decide_eq_true_eq]
    omega
  limited := Nat.zero_le max
  before := by
    have inside : countIn (later - length * second) later times ≤ bucket.2 := by
      rw [← paced.counted]
      refine List.countP_mono_left fun time member within => ?_
      have old := (paced.past time member).2
      simp only [decide_eq_true_eq] at within ⊢
      omega
    exact Nat.le_trans inside paced.limited
  anywhere := paced.anywhere

theorem Paced.admitted (paced : Paced max length now bucket times) (positive : 0 < length)
    (inside : now < bucket.1 + length * second) (room : bucket.2 < max) :
    Paced max length now (bucket.1, bucket.2 + 1) (times ++ [now]) := by
  have started := paced.started
  have span : 0 < length * second := Int.mul_pos positive (by decide)
  have single : ∀ start stop, countIn start stop [now] = if start ≤ now ∧ now < stop then 1 else 0 := by
    intro start stop
    simp [countIn, List.countP_cons]
  refine ⟨started, ?_, ?_, room, ?_, ?_⟩
  · intro time member
    rcases List.mem_append.mp member with old | new
    · exact paced.past time old
    · rw [List.mem_singleton.mp new]
      exact ⟨Int.le_refl now, inside⟩
  · rw [countIn_append, paced.counted, single, if_pos ⟨started, inside⟩]
  · rw [countIn_append, single, if_neg (by omega)]
    exact paced.before
  · intro start
    rw [countIn_append, single]
    split
    next here =>
      -- The interval lies in the bucket's window and the stretch before it.
      have split := countIn_le_add start bucket.1 (start + length * second) times
      have early : countIn start bucket.1 times ≤ max :=
        Nat.le_trans (countIn_mono (by omega) (Int.le_refl _) times) paced.before
      have late : countIn bucket.1 (start + length * second) times ≤ bucket.2 := by
        rw [← paced.counted]
        refine List.countP_mono_left fun time member within => ?_
        have old := (paced.past time member).2
        simp only [decide_eq_true_eq] at within ⊢
        omega
      omega
    next => exact paced.anywhere start

theorem current_paced {stored : Option Bucket} (paced : PacedFrom max length now stored times)
    (positive : 0 < length) (after : now ≤ later) :
    Paced max length later (current length later stored) times ∧
      later < (current length later stored).1 + length * second := by
  have span : 0 < length * second := Int.mul_pos positive (by decide)
  cases stored with
  | none =>
    obtain rfl : times = [] := paced
    refine ⟨⟨Int.le_refl later, by simp, rfl, Nat.zero_le max, Nat.zero_le max, fun _ => Nat.zero_le _⟩,
      Int.lt_add_of_pos_right later span⟩
  | some bucket =>
    have paced : Paced max length now bucket times := paced
    simp only [current]
    split
    next passed =>
      have passed := (le_wholeSeconds_iff positive).mp passed
      exact ⟨paced.renew positive after (by omega), Int.lt_add_of_pos_right later span⟩
    next unpassed =>
      have inside := (wholeSeconds_lt_iff positive).mp (Int.not_le.mp unpassed)
      exact ⟨paced.wait after, by omega⟩

/-- The window that a request falls in has admitted all that it may. -/
def Full (max : Nat) (length now : Int) (times : List Int) : Prop :=
  ∃ start, start ≤ now ∧ now < start + length * second ∧
    times.countP (fun time => decide (start ≤ time)) = max

theorem spend_paced {stored : Option Bucket} (paced : PacedFrom max length now stored times)
    (positive : 0 < length) (after : now ≤ later) :
    Paced max length later (spend max length later stored).2
        (times ++ if (spend max length later stored).1 then [later] else []) ∧
      ((spend max length later stored).1 = false → Full max length later times) := by
  obtain ⟨paced, inside⟩ := current_paced paced positive after
  by_cases room : (current length later stored).2 < max
  · simp only [spend, if_pos room, if_true]
    exact ⟨paced.admitted positive inside room, fun refused => by cases refused⟩
  · simp only [spend, if_neg room, Bool.false_eq_true, if_false, List.append_nil]
    refine ⟨paced, fun _ => ⟨_, paced.started, inside, ?_⟩⟩
    have counted := paced.counted
    have limited := paced.limited
    have same : countIn (current length later stored).1
        ((current length later stored).1 + length * second) times =
          times.countP fun time => decide ((current length later stored).1 ≤ time) := by
      refine List.countP_congr fun time member => ?_
      have past := (paced.past time member).2
      simp only [decide_eq_true_eq]
      omega
    omega

def requests (max : Nat) (length : Int) : Option Bucket → List Int → List (Int × Bool)
  | _, [] => []
  | stored, now :: rest =>
    let spent := spend max length now stored
    (now, spent.1) :: requests max length (some spent.2) rest

def admittedTimes (answered : List (Int × Bool)) : List Int :=
  (answered.filter Prod.snd).map Prod.fst

theorem admittedTimes_cons (time : Int) (verdict : Bool) (rest : List (Int × Bool)) :
    admittedTimes ((time, verdict) :: rest) =
      (if verdict then [time] else []) ++ admittedTimes rest := by
  cases verdict <;> simp [admittedTimes]

theorem requests_paced (positive : 0 < length) {calls : List Int} :
    ∀ {now : Int} {stored : Option Bucket} {times : List Int},
      PacedFrom max length now stored times → (now :: calls).Pairwise (· ≤ ·) →
      (∀ start, countIn start (start + length * second)
        (times ++ admittedTimes (requests max length stored calls)) ≤ 2 * max) ∧
      ∀ before call after, requests max length stored calls = before ++ (call, false) :: after →
        Full max length call (times ++ admittedTimes before) := by
  induction calls with
  | nil =>
    intro now stored times paced ordered
    refine ⟨fun start => ?_, fun before call after none => by simp [requests] at none⟩
    rw [requests, admittedTimes, List.filter_nil, List.map_nil, List.append_nil]
    cases stored with
    | none =>
      obtain rfl : times = [] := paced
      exact Nat.zero_le _
    | some bucket => exact Paced.anywhere paced start
  | cons call calls ih =>
    intro now stored times paced ordered
    have after := (List.pairwise_cons.mp ordered).1 call (List.mem_cons_self ..)
    obtain ⟨spent, full⟩ := spend_paced paced positive after
    have spent : PacedFrom max length call (some (spend max length call stored).2) _ := spent
    obtain ⟨bounded, refused⟩ := ih spent (List.pairwise_cons.mp ordered).2
    refine ⟨fun start => ?_, fun before other after split => ?_⟩
    · rw [requests, admittedTimes_cons, ← List.append_assoc]
      exact bounded start
    · rw [requests] at split
      cases before with
      | nil =>
        obtain ⟨same, -⟩ := List.cons.inj split
        obtain ⟨rfl, verdict⟩ := Prod.mk.inj same
        rw [admittedTimes, List.filter_nil, List.map_nil, List.append_nil]
        exact full verdict
      | cons first before =>
        obtain ⟨rfl, rest⟩ := List.cons.inj split
        rw [admittedTimes_cons, ← List.append_assoc]
        exact refused before other after rest

/-! ## Many keys -/

section Keys
variable {S κ : Type} [DecidableEq κ]

/-- The requests with the verdicts that a limiter gives on them in a run. -/
def answers (gate : S → κ → Int → Bool × S) : S → List (κ × Int) → List (κ × Int × Bool)
  | _, [] => []
  | state, (key, now) :: rest =>
    let (verdict, after) := gate state key now
    (key, now, verdict) :: answers gate after rest

/-- A limiter spends from the bucket of the key and leaves the others alone. -/
structure Limits (max : Nat) (length : Int) (bucketOf : S → κ → Option Bucket)
    (gate : S → κ → Int → Bool × S) : Prop where
  verdict : ∀ state key now,
    (gate state key now).1 = (spend max length now (bucketOf state key)).1
  own : ∀ state key now,
    bucketOf (gate state key now).2 key = some (spend max length now (bucketOf state key)).2
  other : ∀ state key now other, key ≠ other →
    bucketOf (gate state key now).2 other = bucketOf state other

variable {bucketOf : S → κ → Option Bucket} {gate : S → κ → Int → Bool × S}

theorem Limits.of_map [Ord κ] [TransOrd κ] [LawfulEqOrd κ] (buckets : S → ExtTreeMap κ Bucket)
    (spends : ∀ state key now,
      (gate state key now).1 = (spend max length now (buckets state)[key]?).1 ∧
        buckets (gate state key now).2 =
          (buckets state).insert key (spend max length now (buckets state)[key]?).2) :
    Limits max length (fun state key => (buckets state)[key]?) gate where
  verdict state key now := (spends state key now).1
  own state key now := by
    rw [(spends state key now).2, lookup_insert, if_pos rfl]
  other state key now other different := by
    rw [(spends state key now).2, lookup_insert, if_neg different]

theorem answers_of_key (limits : Limits max length bucketOf gate) (key : κ) :
    ∀ (calls : List (κ × Int)) (state : S),
      (answers gate state calls).filter (fun answer => decide (answer.1 = key)) =
        (requests max length (bucketOf state key)
          ((calls.filter fun call => decide (call.1 = key)).map Prod.snd)).map (key, ·) := by
  intro calls
  induction calls with
  | nil => exact fun _ => rfl
  | cons call calls ih =>
    intro state
    obtain ⟨name, now⟩ := call
    simp only [answers]
    by_cases same : name = key
    · subst same
      rw [List.filter_cons_of_pos (by simp), List.filter_cons_of_pos (by simp), ih, limits.own,
        limits.verdict, List.map_cons, requests, List.map_cons]
    · rw [List.filter_cons_of_neg (by simpa using same), List.filter_cons_of_neg (by simpa using same),
        ih, limits.other state name now key same]

omit [DecidableEq κ] in
theorem mem_answers {state : S} {calls : List (κ × Int)} {answer : κ × Int × Bool}
    (member : answer ∈ answers gate state calls) : (answer.1, answer.2.1) ∈ calls := by
  induction calls generalizing state with
  | nil => cases member
  | cons call calls ih =>
    rcases List.mem_cons.mp member with rfl | later
    · exact List.mem_cons_self ..
    · exact List.mem_cons_of_mem _ (ih later)

def admittedOf (key : κ) (answered : List (κ × Int × Bool)) : List Int :=
  (answered.filter fun answer => decide (answer.1 = key ∧ answer.2.2 = true)).map fun answer =>
    answer.2.1

theorem admittedOf_eq (key : κ) (answered : List (κ × Int × Bool)) :
    admittedOf key answered =
      admittedTimes ((answered.filter fun answer => decide (answer.1 = key)).map Prod.snd) := by
  rw [admittedOf, admittedTimes, List.filter_map, List.map_map, List.filter_filter]
  congr 2
  funext answer
  simp [Bool.and_comm]

/-- What a limiter that admits `max` requests in a window of `length` seconds makes of
every run of requests in the order of their times. -/
structure Bounds (max : Nat) (length : Int)
    (run : List (κ × Int) → List (κ × Int × Bool)) (calls : List (κ × Int)) (key : κ) : Prop where
  interval : ∀ start, countIn start (start + length * second) (admittedOf key (run calls)) ≤ 2 * max
  refused : ∀ before now after, run calls = before ++ (key, now, false) :: after →
    Full max length now (admittedOf key before)
  alone : (run calls).filter (fun answer => decide (answer.1 = key)) =
    run (calls.filter fun call => decide (call.1 = key))

theorem Limits.bounds (limits : Limits max length bucketOf gate) (positive : 0 < length) {state : S}
    (unused : ∀ key, bucketOf state key = none) {calls : List (κ × Int)}
    (ordered : calls.Pairwise fun first second => first.2 ≤ second.2) (key : κ) :
    Bounds max length (answers gate state) calls key := by
  have projected := answers_of_key limits key calls state
  have spending : ∀ times : List Int, times.Pairwise (· ≤ ·) →
      (∀ start, countIn start (start + length * second)
        (admittedTimes (requests max length none times)) ≤ 2 * max) ∧
      ∀ before call after, requests max length none times = before ++ (call, false) :: after →
        Full max length call (admittedTimes before) := by
    intro times ordered
    have paced : ∀ now, PacedFrom max length now none [] := fun _ => rfl
    cases times with
    | nil =>
      exact ⟨fun start => Nat.zero_le _, fun before call after none => by simp [requests] at none⟩
    | cons first times =>
      refine requests_paced positive (paced first) (List.pairwise_cons.mpr ⟨?_, ordered⟩)
      exact List.forall_mem_cons.mpr ⟨Int.le_refl first, (List.pairwise_cons.mp ordered).1⟩
  obtain ⟨interval, refused⟩ := spending
    ((calls.filter fun call => decide (call.1 = key)).map Prod.snd)
    (List.pairwise_map.mpr (ordered.filter _))
  rw [unused] at projected
  refine ⟨fun start => ?_, fun before now after split => ?_, ?_⟩
  · rw [admittedOf_eq, projected, List.map_map]
    simpa [Function.comp_def] using interval start
  · rw [split, List.filter_append, List.filter_cons_of_pos (by simp)] at projected
    have requested := congrArg (List.map Prod.snd) projected
    simp only [List.map_append, List.map_cons, List.map_map, Function.comp_def, List.map_id'] at requested
    rw [admittedOf_eq]
    exact refused _ now _ requested.symm
  · rw [projected, ← unused key]
    have own := answers_of_key limits key (calls.filter fun call => decide (call.1 = key)) state
    rw [List.filter_filter] at own
    simp only [Bool.and_self] at own
    rw [← own, List.filter_eq_self]
    intro answer member
    have named := (mem_answers member)
    exact (List.mem_filter.mp named).2

end Keys

end Famp.Data.FixedWindow
