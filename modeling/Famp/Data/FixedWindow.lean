import Famp.Data.Instant
import Famp.Data.Recent
import Mathlib.Data.List.Perm.Subperm

/-!
# Fixed-window limits

A bucket counts what is admitted in a window that starts with the first request
after the last window has passed.  Where only admitted requests are noted in a
memory, the buckets bound how many notes are younger than any number of windows.
-/

set_option autoImplicit false

namespace Famp.Data.FixedWindow

open Std Data.Recent

abbrev Bucket := Int × Nat

/-- The bucket that a request at `now` meets: a fresh one where there is none or
its window of `length` whole seconds has passed. -/
def current (length : Int) (now : Int) : Option Bucket → Bucket
  | none => (now, 0)
  | some bucket => if length ≤ wholeSeconds (now - bucket.1) then (now, 0) else bucket

/-- Whether a request is admitted, and the bucket after it. -/
def spend (max : Nat) (length : Int) (now : Int) (stored : Option Bucket) : Bool × Bucket :=
  let bucket := current length now stored
  if bucket.2 < max then (true, (bucket.1, bucket.2 + 1)) else (false, bucket)

variable {later : Int} {bucket : Bucket} {stored : Option Bucket}

section Counting
variable {κ : Type} [Ord κ] [TransOrd κ] [LawfulEqOrd κ] [DecidableEq κ]

/-! ## Counting notes -/

/-- The notes of a memory that are not older than an instant. -/
def since (instant : Int) (memory : ExtTreeMap κ Int) : Nat :=
  (sweep (fun noted => decide (instant ≤ noted)) memory).size

def Submemory (part memory : ExtTreeMap κ Int) : Prop :=
  ∀ (key : κ) (noted : Int), part[key]? = some noted → memory[key]? = some noted

variable {memory part : ExtTreeMap κ Int}

omit [DecidableEq κ] in
theorem Submemory.size_le (sub : Submemory part memory) : part.size ≤ memory.size := by
  have nodup : part.toList.Nodup := ExtTreeMap.distinct_keys_toList.imp fun different same =>
    different (by rw [same, Std.compare_eq_iff_eq])
  rw [← ExtTreeMap.length_toList, ← ExtTreeMap.length_toList]
  refine (List.subperm_of_subset nodup fun entry member => ?_).length_le
  exact (mem_toList_iff memory _ _).mpr (sub _ _ ((mem_toList_iff part entry.1 entry.2).mp member))

omit [DecidableEq κ] in
theorem submemory_sweep (live : Int → Bool) (memory : ExtTreeMap κ Int) :
    Submemory (sweep live memory) memory := fun _ _ found => (lookup_sweep_iff.mp found).1

omit [DecidableEq κ] in
theorem since_le {instant earlier : Int} (sub : Submemory part memory) (before : earlier ≤ instant) :
    since instant part ≤ since earlier memory := by
  refine Submemory.size_le fun key noted found => ?_
  simp only [lookup_sweep_iff, decide_eq_true_eq] at found ⊢
  exact ⟨sub key noted found.1, Int.le_trans before found.2⟩

theorem since_insert_le (instant : Int) (key : κ) (now : Int) (memory : ExtTreeMap κ Int) :
    since instant (memory.insert key now) ≤ since instant memory + 1 := by
  have sub : Submemory (sweep (fun noted => decide (instant ≤ noted)) (memory.insert key now))
      ((sweep (fun noted => decide (instant ≤ noted)) memory).insert key now) := ?_
  · exact Nat.le_trans sub.size_le ExtTreeMap.size_insert_le
  intro other noted found
  rw [lookup_sweep_iff, lookup_insert] at found
  rw [lookup_insert]
  split
  next same => simpa [same] using found.1
  next different =>
    rw [if_neg different] at found
    exact lookup_sweep_iff.mpr found

/-! ## What the buckets bound -/

/-- The notes of each number of windows up to the end of the bucket's are bounded by
what the windows admit. -/
structure Within (max : Nat) (length : Int) (now : Int) (bucket : Bucket) (memory : ExtTreeMap κ Int) :
    Prop where
  started : bucket.1 ≤ now
  admitted : bucket.2 ≤ max
  noted : ∀ (key : κ) (noted : Int), memory[key]? = some noted → noted < bucket.1 + length * second
  counted : ∀ windows : Nat,
    since (bucket.1 - windows * (length * second)) memory ≤ bucket.2 + windows * max

/-- The memory of a limiter that has not been used is empty. -/
def Bounded (max : Nat) (length : Int) (now : Int) : Option Bucket → ExtTreeMap κ Int → Prop
  | none, memory => memory = ∅
  | some bucket, memory => Within max length now bucket memory

variable {max : Nat} {length now : Int}

omit [DecidableEq κ] in
theorem Within.shrink (within : Within max length now bucket memory) (sub : Submemory part memory)
    (after : now ≤ later) : Within max length later bucket part where
  started := Int.le_trans within.started after
  admitted := within.admitted
  noted key noted found := within.noted key noted (sub key noted found)
  counted windows := Nat.le_trans (since_le sub (Int.le_refl _)) (within.counted windows)

omit [DecidableEq κ] in
theorem Bounded.shrink (bounded : Bounded max length now stored memory)
    (sub : Submemory part memory) (after : now ≤ later) : Bounded max length later stored part := by
  cases stored with
  | none =>
    have empty : memory = ∅ := bounded
    subst empty
    refine ExtTreeMap.ext_getElem? fun key => Option.eq_none_iff_forall_not_mem.mpr fun noted found => ?_
    simpa using sub key noted found
  | some bucket => exact Within.shrink bounded sub after

omit [DecidableEq κ] in
theorem Within.renew (within : Within max length now bucket memory) (positive : 0 < length)
    (passed : length * second ≤ later - bucket.1) : Within max length later (later, 0) memory where
  started := Int.le_refl later
  admitted := Nat.zero_le max
  noted key noted found := by
    have old := within.noted key noted found
    have span : 0 < length * second := Int.mul_pos positive (by decide)
    change noted < later + length * second
    omega
  counted windows := by
    cases windows with
    | zero =>
      have none_since : sweep (fun noted => decide (later ≤ noted)) memory = ∅ := by
        refine ExtTreeMap.ext_getElem? fun key =>
          Option.eq_none_iff_forall_not_mem.mpr fun noted found => ?_
        obtain ⟨held, young⟩ := lookup_sweep_iff.mp found
        have old := within.noted key noted held
        have young := of_decide_eq_true young
        omega
      simp [since, none_since]
    | succ windows =>
      have widen : ((windows + 1 : Nat) : Int) * (length * second) =
          windows * (length * second) + length * second := by
        rw [Int.natCast_add, Int.add_mul, Int.natCast_one, Int.one_mul]
      have counted := within.counted windows
      have admitted := within.admitted
      have fewer : since (later - (windows + 1 : Nat) * (length * second)) memory ≤
          since (bucket.1 - windows * (length * second)) memory :=
        since_le (fun _ _ found => found) (by omega)
      change since (later - (windows + 1 : Nat) * (length * second)) memory ≤ 0 + (windows + 1) * max
      rw [Nat.add_mul, Nat.one_mul]
      omega

omit [DecidableEq κ] in
theorem current_within (bounded : Bounded max length now stored memory) (positive : 0 < length)
    (after : now ≤ later) :
    Within max length later (current length later stored) memory ∧
      later < (current length later stored).1 + length * second := by
  have span : 0 < length * second := Int.mul_pos positive (by decide)
  cases stored with
  | none =>
    have empty : memory = ∅ := bounded
    subst empty
    refine ⟨⟨Int.le_refl later, Nat.zero_le max, fun key noted found => by simp at found, fun windows => ?_⟩, ?_⟩
    · refine Nat.le_trans (submemory_sweep _ _).size_le ?_
      rw [ExtTreeMap.size_empty]
      exact Nat.zero_le _
    · exact Int.lt_add_of_pos_right later span
  | some bucket =>
    have within : Within max length now bucket memory := bounded
    simp only [current]
    split
    next passed =>
      exact ⟨within.renew positive ((le_wholeSeconds_iff positive).mp passed),
        Int.lt_add_of_pos_right later span⟩
    next unpassed =>
      have inside := (wholeSeconds_lt_iff positive).mp (Int.not_le.mp unpassed)
      exact ⟨within.shrink (fun _ _ found => found) after, by omega⟩

/-- The bucket after a request at `now`, with a place for a note of an admitted one. -/
structure Spent (max : Nat) (length : Int) (now : Int) (admitted : Bool) (bucket : Bucket)
    (memory : ExtTreeMap κ Int) : Prop where
  within : Within max length now bucket memory
  inside : now < bucket.1 + length * second
  spare : admitted = true → ∀ windows : Nat,
    since (bucket.1 - windows * (length * second)) memory < bucket.2 + windows * max

omit [DecidableEq κ] in
theorem spend_spent (bounded : Bounded max length now stored memory) (positive : 0 < length)
    (after : now ≤ later) :
    Spent max length later (spend max length later stored).1 (spend max length later stored).2 memory := by
  obtain ⟨within, inside⟩ := current_within bounded positive after
  simp only [spend]
  generalize current length later stored = bucket at within inside ⊢
  split
  next room =>
    have spare : ∀ windows : Nat,
        since (bucket.1 - windows * (length * second)) memory < bucket.2 + 1 + windows * max := by
      intro windows
      have counted := within.counted windows
      omega
    exact ⟨⟨within.started, room, within.noted, fun windows => Nat.le_of_lt (spare windows)⟩, inside, fun _ => spare⟩
  next => exact ⟨within, inside, nofun⟩

theorem Spent.note (spent : Spent max length now true bucket memory) (key : κ) :
    Within max length now bucket (memory.insert key now) where
  started := spent.within.started
  admitted := spent.within.admitted
  noted other noted found := by
    rw [lookup_insert] at found
    split at found
    · cases found
      exact spent.inside
    · exact spent.within.noted other noted found
  counted windows := by
    have room := spent.spare rfl windows
    exact Nat.le_trans (since_insert_le _ key now memory) room

omit [DecidableEq κ] in
theorem Within.size_le {windows : Nat} (within : Within max length now bucket memory)
    (young : ∀ (key : κ) (noted : Int), memory[key]? = some noted →
      now - windows * (length * second) ≤ noted) : memory.size ≤ (windows + 1) * max := by
  have all : sweep (fun noted => decide (bucket.1 - windows * (length * second) ≤ noted)) memory =
      memory := by
    refine sweep_eq_self fun key noted found => decide_eq_true ?_
    have started := within.started
    have young := young key noted found
    omega
  have counted := within.counted windows
  rw [since, all] at counted
  have admitted := within.admitted
  rw [Nat.add_mul, Nat.one_mul]
  omega

end Counting

end Famp.Data.FixedWindow
