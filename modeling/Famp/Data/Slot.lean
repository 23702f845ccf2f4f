import Famp.Data.Run

/-!
# Slots

A slot is a part of the state of a machine that some events fill, some events
empty and all others leave alone.  What a slot holds tells which event filled it
last, and that nothing has emptied it since.
-/

set_option autoImplicit false

namespace Famp.Data

variable {σ ι ο α : Type}

structure Slot (m : Machine σ ι ο) (α : Type) where
  content : σ → Option α
  fills : Event σ ι ο → α → Prop
  empties : Event σ ι ο → Prop
  start : ∀ s, m.initial s → content s = none
  filled : ∀ event a, m.Occurs event → fills event a → content event.after = some a
  emptied : ∀ event, m.Occurs event → empties event → content event.after = none
  kept : ∀ event, m.Occurs event → (∀ a, ¬fills event a) → ¬empties event →
    content event.after = content event.before

namespace Slot
variable {m : Machine σ ι ο} (slot : Slot m α)

/-- The event does not touch the slot. -/
def Skips (event : Event σ ι ο) : Prop := (∀ a, ¬slot.fills event a) ∧ ¬slot.empties event

theorem not_empties_of_fills {event : Event σ ι ο} {a : α} (occurs : m.Occurs event)
    (fills : slot.fills event a) : ¬slot.empties event := by
  intro empties
  have none := slot.emptied event occurs empties
  rw [slot.filled event a occurs fills] at none
  cases none

variable {slot}

theorem content_of_filled {trace : List (Event σ ι ο)} {s : σ} (run : m.Run trace s) :
    ∀ {earlier between : List (Event σ ι ο)} {first : Event σ ι ο} {a : α},
      trace = earlier ++ first :: between → slot.fills first a →
        (∀ event ∈ between, ¬slot.empties event) →
        (∀ event ∈ between, ∀ b c, slot.content event.before = some b → ¬slot.fills event c) →
          slot.content s = some a := by
  induction run with
  | start initial =>
    intro earlier between first a split
    simp at split
  | @step trace s s' input output run taken ih =>
    intro earlier between first a split fills unemptied unfilled
    rcases List.eq_nil_or_concat between with rfl | ⟨middle, last, rfl⟩
    · obtain ⟨-, same⟩ := List.append_inj' split rfl
      obtain rfl := List.singleton_inj.mp same
      exact slot.filled _ a ⟨trace, run, taken⟩ fills
    · simp only [List.concat_eq_append, List.forall_mem_append, List.forall_mem_singleton]
        at unemptied unfilled split
      rw [← List.cons_append, ← List.append_assoc] at split
      obtain ⟨before, same⟩ := List.append_inj' split rfl
      obtain rfl := List.singleton_inj.mp same
      have held := ih before fills unemptied.1 unfilled.1
      exact (slot.kept _ ⟨trace, run, taken⟩ (fun b => unfilled.2 a b held) unemptied.2).trans held

theorem filled_of_content {trace : List (Event σ ι ο)} {s : σ} (run : m.Run trace s) :
    ∀ {a : α}, slot.content s = some a → ∃ earlier first between,
      trace = earlier ++ first :: between ∧ slot.fills first a ∧
        ∀ event ∈ between, slot.Skips event := by
  induction run with
  | start initial =>
    intro a held
    rw [slot.start _ initial] at held
    cases held
  | @step trace s s' input output run taken ih =>
    intro a held
    have occurs : m.Occurs ⟨s, input, output, s'⟩ := ⟨trace, run, taken⟩
    by_cases fills : ∃ b, slot.fills ⟨s, input, output, s'⟩ b
    · obtain ⟨b, fills⟩ := fills
      obtain rfl : b = a := Option.some.inj ((slot.filled _ b occurs fills).symm.trans held)
      exact ⟨trace, _, [], rfl, fills, by simp⟩
    · have unfilled : ∀ b, ¬slot.fills ⟨s, input, output, s'⟩ b := fun b now => fills ⟨b, now⟩
      have unemptied : ¬slot.empties ⟨s, input, output, s'⟩ := by
        intro empties
        rw [slot.emptied _ occurs empties] at held
        cases held
      have before : slot.content s = some a :=
        (slot.kept _ occurs unfilled unemptied).symm.trans held
      obtain ⟨earlier, first, between, split, fills, skips⟩ := ih before
      refine ⟨earlier, first, between ++ [⟨s, input, output, s'⟩], ?_, fills, ?_⟩
      · rw [split, List.append_assoc, List.cons_append]
      · intro event member
        rcases List.mem_append.mp member with member | member
        · exact skips event member
        · obtain rfl := List.mem_singleton.mp member
          exact ⟨unfilled, unemptied⟩

theorem filled_after {earlier between : List (Event σ ι ο)} {first : Event σ ι ο} {s : σ} {a : α}
    (run : m.Run (earlier ++ first :: between) s) (empties : slot.empties first)
    (held : slot.content s = some a) : ∃ event ∈ between, slot.fills event a := by
  obtain ⟨front, filler, rest, split, fills, skips⟩ := filled_of_content run held
  have later : first ∉ filler :: rest := by
    intro member
    rcases List.mem_cons.mp member with rfl | member
    · have among : first ∈ earlier ++ first :: between := by simp
      exact slot.not_empties_of_fills (run.occurs among) fills empties
    · exact (skips first member).2 empties
  rcases List.append_eq_append_iff.mp split with ⟨extra, -, same⟩ | ⟨extra, -, same⟩
  · cases extra with
    | nil =>
      obtain ⟨rfl, -⟩ := List.cons.inj same
      exact absurd (List.mem_cons_self ..) later
    | cons head middle =>
      obtain ⟨-, rfl⟩ := List.cons.inj same
      exact ⟨filler, by simp, fills⟩
  · exact absurd (same ▸ List.mem_append_right _ (List.mem_cons_self ..)) later

end Slot

end Famp.Data
