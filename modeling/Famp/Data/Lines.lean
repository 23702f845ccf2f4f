import Mathlib.Data.List.Basic

/-!
# Lines of a file

A file is a sequence of lines, each ended by a separator, and a rest that has not
been ended.  The parts are unique, so what a reader does can be said in terms of
them, whichever way it looks for the separators.
-/

set_option autoImplicit false

namespace Famp.Data.Lines

variable {α : Type} [DecidableEq α] (sep : α)

/-- Each line followed by the separator. -/
def terminated (lines : List (List α)) : List α := lines.flatMap (· ++ [sep])

omit [DecidableEq α] in
@[simp] theorem terminated_nil : terminated sep [] = [] := rfl

omit [DecidableEq α] in
theorem terminated_cons (line : List α) (rest : List (List α)) :
    terminated sep (line :: rest) = line ++ sep :: terminated sep rest := by
  simp [terminated]

omit [DecidableEq α] in
theorem terminated_append (first second : List (List α)) :
    terminated sep (first ++ second) = terminated sep first ++ terminated sep second :=
  List.flatMap_append

/-! ## The parts of a file -/

structure Parts (content : List α) (lines : List (List α)) (rest : List α) : Prop where
  joined : content = terminated sep lines ++ rest
  whole : ∀ line ∈ lines, sep ∉ line
  unended : sep ∉ rest

/-- The lines that are ended. -/
def complete (content : List α) : List (List α) := (content.splitOn sep).dropLast

/-- What follows the last separator. -/
def unfinished (content : List α) : List α := (content.splitOn sep).getLastD []

variable {sep} {content : List α} {lines : List (List α)} {rest : List α}

omit [DecidableEq α] in
theorem Parts.cons_inv {line : List α} (parts : Parts sep content (line :: lines) rest) :
    sep ∉ line ∧ content = line ++ sep :: (terminated sep lines ++ rest) ∧
      Parts sep (terminated sep lines ++ rest) lines rest := by
  refine ⟨parts.whole line (List.mem_cons_self ..), ?_, rfl, ?_, parts.unended⟩
  · rw [parts.joined, terminated_cons, List.append_assoc, List.cons_append]
  · exact fun other member => parts.whole other (List.mem_cons_of_mem _ member)

theorem Parts.splitOn (parts : Parts sep content lines rest) :
    content.splitOn sep = lines ++ [rest] := by
  induction lines generalizing content with
  | nil =>
    rw [parts.joined, terminated_nil, List.nil_append, List.nil_append]
    exact List.splitOnP_eq_singleton fun item member => beq_eq_false_iff_ne.mpr
      fun same => parts.unended (same ▸ member)
  | cons line lines ih =>
    obtain ⟨free, split, parts'⟩ := parts.cons_inv
    rw [split, List.splitOn_append_cons_self_of_not_mem free, ih parts', List.cons_append]

theorem Parts.complete_eq (parts : Parts sep content lines rest) : complete sep content = lines := by
  rw [complete, parts.splitOn, List.dropLast_concat]

theorem Parts.unfinished_eq (parts : Parts sep content lines rest) :
    unfinished sep content = rest := by
  rw [unfinished, parts.splitOn, List.getLastD_concat]

theorem exists_parts (sep : α) (content : List α) : ∃ lines rest, Parts sep content lines rest := by
  induction content with
  | nil => exact ⟨[], [], rfl, by simp, by simp⟩
  | cons item content ih =>
    obtain ⟨lines, rest, parts⟩ := ih
    by_cases ended : item = sep
    · refine ⟨[] :: lines, rest, ?_, ?_, parts.unended⟩
      · rw [terminated_cons, List.nil_append, List.cons_append, ← parts.joined, ended]
      · exact List.forall_mem_cons.mpr ⟨by simp, parts.whole⟩
    · -- The item is the first of the first line, or of the rest where there is no line.
      cases lines with
      | nil =>
        refine ⟨[], item :: rest, ?_, by simp, ?_⟩
        · rw [terminated_nil, List.nil_append, parts.joined, terminated_nil, List.nil_append]
        · exact List.not_mem_cons_of_ne_of_not_mem (Ne.symm ended) parts.unended
      | cons line lines =>
        obtain ⟨free, split, parts'⟩ := parts.cons_inv
        refine ⟨(item :: line) :: lines, rest, ?_, ?_, parts.unended⟩
        · rw [split, terminated_cons]
          simp only [List.cons_append, List.append_assoc]
        · refine List.forall_mem_cons.mpr ⟨?_, parts'.whole⟩
          exact List.not_mem_cons_of_ne_of_not_mem (Ne.symm ended) free

theorem parts_of (sep : α) (content : List α) :
    Parts sep content (complete sep content) (unfinished sep content) := by
  obtain ⟨lines, rest, parts⟩ := exists_parts sep content
  rwa [parts.complete_eq, parts.unfinished_eq]

theorem unfinished_eq_nil_iff :
    unfinished sep content = [] ↔ content = [] ∨ content.getLast? = some sep := by
  have parts := parts_of sep content
  constructor
  · intro finished
    have joined := parts.joined
    rw [finished, List.append_nil] at joined
    rcases List.eq_nil_or_concat (complete sep content) with none | ⟨earlier, last, all⟩
    · left
      rw [joined, none, terminated_nil]
    · right
      rw [joined, all, List.concat_eq_append, terminated_append, terminated_cons, terminated_nil]
      simp
  · rintro (rfl | ended)
    · rfl
    · by_contra left_over
      have last : content.getLast? = (unfinished sep content).getLast? := by
        conv_lhs => rw [parts.joined]
        exact List.getLast?_append_of_ne_nil _ left_over
      rw [ended] at last
      exact parts.unended (List.mem_of_getLast? last.symm)

omit [DecidableEq α] in
/-- An append of a line and a separator: the line ends what was unfinished. -/
theorem Parts.ended (parts : Parts sep content lines rest) {line : List α} (free : sep ∉ line) :
    Parts sep (content ++ line ++ [sep]) (lines ++ [rest ++ line]) [] where
  joined := by
    rw [parts.joined, terminated_append, terminated_cons, terminated_nil]
    simp only [List.append_assoc, List.append_nil]
  whole := by
    intro other member
    rcases List.mem_append.mp member with old | new
    · exact parts.whole other old
    · rw [List.mem_singleton.mp new, List.mem_append, not_or]
      exact ⟨parts.unended, free⟩
  unended := List.not_mem_nil

/-! ## Looking for the next separator -/

/-- The place after the next separator, for an offset that is not right after one. -/
def snap (sep : α) (content : List α) (start : Nat) : Option Nat :=
  if start = 0 ∨ content[start - 1]? = some sep then some start
  else ((content.drop start).findIdx? (· == sep)).map (start + · + 1)

omit [DecidableEq α] in
theorem findIdx?_unended [BEq α] [LawfulBEq α] (unended : sep ∉ rest) :
    rest.findIdx? (· == sep) = none :=
  List.findIdx?_eq_none_iff.mpr fun _ member =>
    beq_eq_false_iff_ne.mpr fun same => unended (same ▸ member)

omit [DecidableEq α] in
theorem findIdx?_line [BEq α] [LawfulBEq α] {line : List α} (free : sep ∉ line) (after : List α) :
    (line ++ sep :: after).findIdx? (· == sep) = some line.length := by
  rw [List.findIdx?_append, findIdx?_unended free, Option.none_or, List.findIdx?_cons,
    beq_self_eq_true]
  simp

theorem snap_within {line : List α} (free : sep ∉ line) (after : List α) {start : Nat}
    (positive : 0 < start) (within : start ≤ line.length) :
    snap sep (line ++ sep :: after) start = some (line.length + 1) := by
  have before : (line ++ sep :: after)[start - 1]? ≠ some sep := by
    rw [List.getElem?_append_left (by omega)]
    exact fun found => free (List.mem_of_getElem? found)
  have free' : sep ∉ line.drop start := fun member => free (List.mem_of_mem_drop member)
  rw [snap, if_neg (by simpa [Nat.pos_iff_ne_zero.mp positive] using before),
    List.drop_append_of_le_length within, findIdx?_line free', Option.map_some, List.length_drop]
  congr 1
  omega

theorem snap_past (line after : List α) (start : Nat) :
    snap sep (line ++ sep :: after) (line.length + 1 + start) =
      (snap sep after start).map (line.length + 1 + ·) := by
  have split : line ++ sep :: after = (line ++ [sep]) ++ after := by simp
  have width : (line ++ [sep]).length = line.length + 1 := by simp
  cases start with
  | zero =>
    have before : (line ++ sep :: after)[line.length + 1 + 0 - 1]? = some sep := by simp
    rw [snap, if_pos (.inr before), snap, if_pos (.inl rfl), Option.map_some]
  | succ start =>
    have shifted : (line ++ sep :: after)[line.length + 1 + (start + 1) - 1]? = after[start]? := by
      rw [split, List.getElem?_append_right (by omega), width]
      congr 1
      omega
    have dropped : (line ++ sep :: after).drop (line.length + 1 + (start + 1)) =
        after.drop (start + 1) := by
      rw [split, ← width, List.drop_append]
      simp
    simp only [snap, shifted, dropped, Nat.add_sub_cancel, Nat.add_eq_zero_iff, Nat.succ_ne_self,
      false_or, and_false]
    split
    · rfl
    · rw [Option.map_map]
      congr 1
      funext found
      simp only [Function.comp_apply]
      omega

theorem Parts.snapped (parts : Parts sep content lines rest) (start : Nat) :
    match snap sep content start with
    | none => (terminated sep lines).length < start
    | some stop => start ≤ stop ∧ ∃ read after, lines = read ++ after ∧
        (terminated sep read).length = stop ∧
        ∀ init last, read = init ++ [last] → (terminated sep init).length < start := by
  -- The offset is before the first line, in it, or an offset into the lines after it.
  induction lines generalizing content start with
  | nil =>
    rw [parts.joined, terminated_nil, List.nil_append]
    by_cases zero : start = 0
    · rw [snap, if_pos (.inl zero), zero]
      exact ⟨Nat.le_refl 0, [], [], rfl, rfl, fun init last none => by simp at none⟩
    · have before : rest[start - 1]? ≠ some sep := fun found =>
        parts.unended (List.mem_of_getElem? found)
      have later : sep ∉ rest.drop start := fun member => parts.unended (List.mem_of_mem_drop member)
      rw [snap, if_neg (not_or.mpr ⟨zero, before⟩), findIdx?_unended later]
      exact Nat.pos_of_ne_zero zero
  | cons line lines ih =>
    obtain ⟨free, split, parts'⟩ := parts.cons_inv
    have width : (terminated sep [line]).length = line.length + 1 := by simp [terminated]
    rw [split]
    rcases Nat.eq_zero_or_pos start with rfl | positive
    · rw [snap, if_pos (.inl rfl)]
      exact ⟨Nat.le_refl 0, [], line :: lines, rfl, rfl, fun init last none => by simp at none⟩
    rcases Nat.lt_or_ge line.length start with past | within
    · obtain ⟨offset, rfl⟩ := Nat.exists_eq_add_of_le past
      have inner := ih parts' offset
      rw [Nat.succ_eq_add_one, snap_past]
      generalize snap sep (terminated sep lines ++ rest) offset = found at inner ⊢
      cases found with
      | none =>
        rw [Option.map_none, ← List.singleton_append, terminated_append, List.length_append, width]
        exact Nat.add_lt_add_left inner _
      | some stop =>
        obtain ⟨reached, read, after, rfl, stops, before⟩ := inner
        refine ⟨Nat.add_le_add_left reached _, line :: read, after, rfl, ?_, ?_⟩
        · rw [← List.singleton_append, terminated_append, List.length_append, width, stops]
        · intro init last all
          cases init with
          | nil => exact positive
          | cons first init =>
            obtain ⟨rfl, tail⟩ := List.cons.inj all
            rw [← List.singleton_append, terminated_append, List.length_append, width]
            exact Nat.add_lt_add_left (before init last tail) _
    · rw [snap_within free _ positive within]
      refine ⟨by omega, [line], lines, rfl, width, fun init last all => ?_⟩
      cases init with
      | nil => exact positive
      | cons first init => simp at all

end Famp.Data.Lines
