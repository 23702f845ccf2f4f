import Famp.Data.OrdMap

/-!
# Bounded memories

A memory of keys, each with the instant it was noted at.  A sweep drops what is
no longer live, and a full memory drops its oldest key, ties broken by the
smaller key, before it takes another.
-/

set_option autoImplicit false

namespace Famp.Data.Recent

open Std

variable {κ : Type} [Ord κ] [TransOrd κ] [LawfulEqOrd κ] [DecidableEq κ]

/-! ## Sweeps -/

def sweep (live : Int → Bool) (memory : ExtTreeMap κ Int) : ExtTreeMap κ Int :=
  memory.filter fun _ noted => live noted

variable {memory : ExtTreeMap κ Int} {key : κ}

variable {cap : Nat} {live : Int → Bool} {noted now : Int}

omit [DecidableEq κ] in
theorem lookup_sweep_iff :
    (sweep live memory)[key]? = some noted ↔ memory[key]? = some noted ∧ live noted = true := by
  rw [sweep, ExtTreeMap.getElem?_filter', Option.filter_eq_some_iff]

omit [DecidableEq κ] in
theorem mem_sweep_iff :
    key ∈ sweep live memory ↔ ∃ noted, memory[key]? = some noted ∧ live noted = true := by
  simp only [mem_iff_lookup, lookup_sweep_iff]

omit [DecidableEq κ] in
theorem sweep_eq_self
    (all : ∀ (key : κ) (noted : Int), memory[key]? = some noted → live noted = true) :
    sweep live memory = memory := by
  refine ExtTreeMap.ext_getElem? fun key => ?_
  cases found : memory[key]? with
  | none =>
    rw [Option.eq_none_iff_forall_not_mem]
    intro noted kept
    rw [(lookup_sweep_iff.mp kept).1] at found
    cases found
  | some noted => exact lookup_sweep_iff.mpr ⟨found, all key noted found⟩

/-! ## The oldest key -/

/-- The older of two entries. -/
def older (best entry : κ × Int) : κ × Int :=
  if entry.2 < best.2 ∨ (entry.2 = best.2 ∧ compare entry.1 best.1 = .lt) then entry else best

def oldest? (memory : ExtTreeMap κ Int) : Option (κ × Int) :=
  match memory.toList with
  | [] => none
  | first :: rest => some (rest.foldl older first)

omit [TransOrd κ] [LawfulEqOrd κ] [DecidableEq κ] in
theorem foldl_older_mem (first : κ × Int) (rest : List (κ × Int)) :
    rest.foldl older first ∈ first :: rest := by
  induction rest generalizing first with
  | nil => exact List.mem_singleton_self first
  | cons next rest ih =>
    rcases List.mem_cons.mp (ih (older first next)) with found | found
    · rw [List.foldl_cons, found, older]
      split <;> simp
    · exact List.mem_cons_of_mem _ (List.mem_cons_of_mem _ found)

omit [DecidableEq κ] in
theorem oldest?_some (found : oldest? memory = some (key, noted)) : memory[key]? = some noted := by
  unfold oldest? at found
  split at found
  next => cases found
  next first rest entries =>
    rw [← mem_toList_iff, entries, ← Option.some.inj found]
    exact foldl_older_mem first rest

omit [LawfulEqOrd κ] [DecidableEq κ] in
theorem exists_oldest (some_entry : 0 < memory.size) :
    ∃ key noted, oldest? memory = some (key, noted) := by
  unfold oldest?
  split
  next entries =>
    rw [← ExtTreeMap.length_toList, entries] at some_entry
    cases some_entry
  next first rest entries => exact ⟨_, _, rfl⟩

/-! ## Notes -/

/-- Room for one more key in a memory of `cap` keys. -/
def makeRoom (cap : Nat) (memory : ExtTreeMap κ Int) : ExtTreeMap κ Int :=
  if cap ≤ memory.size then
    match oldest? memory with
    | some (key, _) => memory.erase key
    | none => memory
  else memory

/-- The memory after a key that it does not hold is noted. -/
def note (cap : Nat) (key : κ) (now : Int) (memory : ExtTreeMap κ Int) : ExtTreeMap κ Int :=
  (makeRoom cap memory).insert key now

omit [LawfulEqOrd κ] [DecidableEq κ] in
theorem note_of_lt (room : memory.size < cap) :
    note cap key now memory = memory.insert key now := by
  rw [note, makeRoom, if_neg (Nat.not_le.mpr room)]

theorem lookup_note {other : κ} (found : (note cap key now memory)[other]? = some noted) :
    (key = other ∧ now = noted) ∨ memory[other]? = some noted := by
  rw [note, lookup_insert] at found
  split at found
  next same => exact .inl ⟨same, Option.some.inj found⟩
  next =>
    refine .inr ?_
    unfold makeRoom at found
    split at found
    · split at found
      · rw [lookup_erase] at found
        split at found
        · cases found
        · exact found
      · exact found
    · exact found

theorem lookup_note_self (cap : Nat) (key : κ) (now : Int) (memory : ExtTreeMap κ Int) :
    (note cap key now memory)[key]? = some now := by
  rw [note, lookup_insert, if_pos rfl]

omit [DecidableEq κ] in
/-- A memory within its cap stays within it. -/
theorem size_note_le (positive : 0 < cap) (within : memory.size ≤ cap) (key : κ) (now : Int) :
    (note cap key now memory).size ≤ cap := by
  have room : (makeRoom cap memory).size < cap := by
    unfold makeRoom
    split
    next full =>
      obtain ⟨lost, noted, found⟩ := exists_oldest (Nat.lt_of_lt_of_le positive full)
      have held : lost ∈ memory := (mem_iff_lookup _ _).mpr ⟨noted, oldest?_some found⟩
      simp only [found, ExtTreeMap.size_erase, ExtTreeMap.contains_iff_mem, if_pos held]
      omega
    next room => exact Nat.lt_of_not_le room
  exact Nat.le_trans ExtTreeMap.size_insert_le room

omit [DecidableEq κ] in
theorem note_forgets (positive : 0 < cap) (full : cap ≤ memory.size) (new : key ∉ memory)
    (now : Int) : ∃ lost noted, memory[lost]? = some noted ∧ lost ∉ note cap key now memory := by
  obtain ⟨lost, noted, found⟩ := exists_oldest (Nat.lt_of_lt_of_le positive full)
  have held := oldest?_some found
  refine ⟨lost, noted, held, ?_⟩
  have distinct : key ≠ lost := by
    rintro rfl
    exact new ((mem_iff_lookup memory key).mpr ⟨noted, held⟩)
  simp [note, makeRoom, full, found, distinct]

end Famp.Data.Recent
