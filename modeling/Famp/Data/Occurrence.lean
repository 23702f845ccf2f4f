import Mathlib.Data.List.Infix
import Mathlib.Data.List.DropRight

/-!
# Occurrences of a pattern

How often a pattern occurs in a text, and the text with every occurrence replaced.
A pattern whose first letter does not come back in it cannot overlap itself, and
a replacement that breaks it behind that letter leaves no occurrence: not inside a
replacement and not across the edge of one.
-/

set_option autoImplicit false

namespace Famp.Data

variable {α : Type} [DecidableEq α]

/-- Number of positions where the pattern starts. -/
def occurrences (pattern : List α) : List α → Nat
  | [] => if pattern <+: [] then 1 else 0
  | c :: rest => (if pattern <+: c :: rest then 1 else 0) + occurrences pattern rest

/-- The text with the pattern replaced from left to right; the first `skip`
letters belong to an occurrence that has been replaced already. -/
def replaceFrom (pattern replacement : List α) : Nat → List α → List α
  | _, [] => []
  | skip + 1, _ :: rest => replaceFrom pattern replacement skip rest
  | 0, c :: rest =>
    if pattern <+: c :: rest then
      replacement ++ replaceFrom pattern replacement (pattern.length - 1) rest
    else c :: replaceFrom pattern replacement 0 rest

def replaceAll (pattern replacement text : List α) : List α := replaceFrom pattern replacement 0 text

/-! ## Counting -/

theorem occurrences_eq_zero_iff {pattern text : List α} :
    occurrences pattern text = 0 ↔ ¬pattern <:+: text := by
  induction text with
  | nil => simp [occurrences, List.prefix_nil, List.infix_nil]
  | cons c rest ih =>
    rw [occurrences, List.infix_cons_iff, not_or, ← ih]
    split <;> simp [*]

theorem occurrences_eq_zero_of_head_notMem {first : α} {rest text : List α} (absent : first ∉ text) :
    occurrences (first :: rest) text = 0 :=
  occurrences_eq_zero_iff.mpr fun inside => absent (inside.subset List.mem_cons_self)

omit [DecidableEq α] in
theorem prefix_append_cons_iff {pattern before after : List α} {separator : α}
    (apart : separator ∉ pattern) :
    pattern <+: before ++ separator :: after ↔ pattern <+: before := by
  refine ⟨fun starts => ?_, fun starts => starts.trans (List.prefix_append _ _)⟩
  rcases List.prefix_or_prefix_of_prefix starts (List.prefix_append before (separator :: after))
    with within | ⟨more, rfl⟩
  · exact within
  · -- What the pattern has beyond `before` starts with the separator.
    have starts := (List.prefix_append_right_inj before).mp starts
    cases more with
    | nil => exact ⟨[], by simp⟩
    | cons c more =>
      have same := (List.cons_prefix_cons.mp starts).1
      exact absurd (by simp [same]) apart

theorem occurrences_append_of_head_notMem {first : α} {rest : List α} {before : List α}
    (absent : first ∉ before) (after : List α) :
    occurrences (first :: rest) (before ++ after) = occurrences (first :: rest) after := by
  induction before with
  | nil => rfl
  | cons c before ih =>
    simp only [List.mem_cons, not_or] at absent
    rw [List.cons_append, occurrences, ih absent.2, if_neg, Nat.zero_add]
    exact fun starts => absent.1 (List.cons_prefix_cons.mp starts).1

theorem occurrences_append_cons {pattern : List α} {separator : α} (apart : separator ∉ pattern)
    (nonempty : pattern ≠ []) (before after : List α) :
    occurrences pattern (before ++ separator :: after) =
      occurrences pattern before + occurrences pattern after := by
  induction before with
  | nil =>
    have none : pattern <+: [] ++ separator :: after ↔ pattern <+: [] :=
      prefix_append_cons_iff apart
    have elsewhere : ¬pattern <+: separator :: after := fun starts =>
      nonempty (List.prefix_nil.mp (none.mp starts))
    simp [occurrences, elsewhere, List.prefix_nil, nonempty]
  | cons c before ih =>
    have here : pattern <+: c :: before ++ separator :: after ↔ pattern <+: c :: before :=
      prefix_append_cons_iff apart
    simp only [List.cons_append] at here ⊢
    simp only [occurrences, here, ih, Nat.add_assoc]

/-! ## Replacing -/

section Broken

variable {first joiner : α} {rest : List α}

/-- What a text starts with after the replacement, as long as the first letter of
the pattern is not in it, the text starts with before. -/
theorem prefix_of_prefix_replaceAll {replacement word text : List α} (clean : first ∉ word)
    (starts : word <+: replaceAll (first :: rest) (first :: replacement) text) : word <+: text := by
  induction text generalizing word with
  | nil => exact starts
  | cons c text ih =>
    cases word with
    | nil => exact List.nil_prefix
    | cons letter word =>
      simp only [List.mem_cons, not_or] at clean
      rw [replaceAll, replaceFrom] at starts
      split at starts
      · exact absurd (List.cons_prefix_cons.mp starts).1.symm clean.1
      · obtain ⟨rfl, later⟩ := List.cons_prefix_cons.mp starts
        exact List.cons_prefix_cons.mpr ⟨rfl, ih clean.2 later⟩

theorem occurrences_replaceFrom (once : first ∉ rest) (different : joiner ≠ first)
    (absent : joiner ∉ rest) (long : rest ≠ []) (skip : Nat) (text : List α) :
    occurrences (first :: rest)
      (replaceFrom (first :: rest) (first :: joiner :: rest) skip text) = 0 := by
  induction text generalizing skip with
  | nil => simp [replaceFrom, occurrences]
  | cons c text ih =>
    cases skip with
    | succ skip => exact ih skip
    | zero =>
      rw [replaceFrom]
      split
      next =>
        -- The replacement is cut by the joiner: its first letter alone, then the rest.
        have apart : joiner ∉ first :: rest := by simp [different, absent]
        have cut := occurrences_append_cons apart (List.cons_ne_nil first rest) [first]
        simp only [List.cons_append, List.nil_append] at cut ⊢
        rw [cut, occurrences_append_of_head_notMem once, ih, Nat.add_zero]
        simp [occurrences, List.cons_prefix_cons, List.prefix_nil, long]
      next elsewhere =>
        rw [occurrences, ih 0, if_neg]
        intro starts
        obtain ⟨rfl, later⟩ := List.cons_prefix_cons.mp starts
        exact elsewhere
          (List.cons_prefix_cons.mpr ⟨rfl, prefix_of_prefix_replaceAll once later⟩)

end Broken

end Famp.Data
