import Famp.Data.Run
import Mathlib.Data.List.Induction

/-!
# Runs with inserted inputs

Two runs of one machine, of which the second takes the inputs of the first and others
between them.  Where a relation between the states survives both kinds of steps, the
second run shows what the first one shows.
-/

set_option autoImplicit false

namespace Famp.Data.Machine

variable {σ ι ο : Type}

/-- The second trace has the inputs of the first, which are `shared`, and `extra` events
between them. -/
inductive Inserted (shared : ι → Prop) (extra : Event σ ι ο → Prop) :
    List (Event σ ι ο) → List (Event σ ι ο) → Prop
  | nil : Inserted shared extra [] []
  | both {base wider : List (Event σ ι ο)} {event event' : Event σ ι ο} :
      Inserted shared extra base wider → event'.input = event.input → shared event.input →
      Inserted shared extra (base ++ [event]) (wider ++ [event'])
  | more {base wider : List (Event σ ι ο)} {event' : Event σ ι ο} :
      Inserted shared extra base wider → extra event' → Inserted shared extra base (wider ++ [event'])

variable {shared : ι → Prop} {extra : Event σ ι ο → Prop} {m : Machine σ ι ο} {s : σ}

theorem Inserted.refl (trace : List (Event σ ι ο)) (all : ∀ event ∈ trace, shared event.input) :
    Inserted shared extra trace trace := by
  induction trace using List.reverseRecOn with
  | nil => exact .nil
  | append_singleton trace event ih =>
    obtain ⟨earlier, last⟩ := List.forall_mem_append.mp all
    exact .both (ih earlier) rfl (last event (List.mem_singleton_self event))

theorem Inserted.append {base wider : List (Event σ ι ο)}
    (inserted : Inserted shared extra base wider) (more : List (Event σ ι ο))
    (all : ∀ event ∈ more, extra event) : Inserted shared extra base (wider ++ more) := by
  induction more using List.reverseRecOn with
  | nil => rwa [List.append_nil]
  | append_singleton more event ih =>
    obtain ⟨earlier, last⟩ := List.forall_mem_append.mp all
    rw [← List.append_assoc]
    exact .more (ih earlier) (last event (List.mem_singleton_self event))

theorem Run.initial (run : m.Run [] s) : m.initial s := by
  generalize same : ([] : List (Event σ ι ο)) = trace at run
  cases run with
  | start initial => exact initial
  | step => simp at same

theorem Run.last {trace : List (Event σ ι ο)} {event : Event σ ι ο}
    (run : m.Run (trace ++ [event]) s) :
    m.Run trace event.before ∧ m.step event.before event.input event.output event.after ∧
      s = event.after := by
  obtain ⟨earlier, taken⟩ := run.split rfl
  refine ⟨earlier, taken, ?_⟩
  generalize same : trace ++ [event] = whole at run
  cases run with
  | start => simp at same
  | step =>
    obtain ⟨-, last⟩ := List.append_inj' same rfl
    rw [List.singleton_inj.mp last]

theorem Run.inserted {ω : Type} (rel : σ → σ → Prop) (observe : Event σ ι ο → List ω)
    (start : ∀ s s', m.initial s → m.initial s' → rel s s')
    (both : ∀ s s' input output output' t t', rel s s' → shared input → m.step s input output t →
      m.step s' input output' t' →
        rel t t' ∧ observe ⟨s', input, output', t'⟩ = observe ⟨s, input, output, t⟩)
    (more : ∀ s s' input output t', rel s s' → extra ⟨s', input, output, t'⟩ →
      m.step s' input output t' → rel s t' ∧ observe ⟨s', input, output, t'⟩ = [])
    {base wider : List (Event σ ι ο)} {s' : σ} (run : m.Run base s) (run' : m.Run wider s')
    (inserted : Inserted shared extra base wider) :
    rel s s' ∧ wider.flatMap observe = base.flatMap observe := by
  induction inserted generalizing s s' with
  | nil => exact ⟨start _ _ run.initial run'.initial, rfl⟩
  | @both base wider event event' inserted same isShared ih =>
    obtain ⟨earlier, taken, rfl⟩ := run.last
    obtain ⟨earlier', taken', rfl⟩ := run'.last
    obtain ⟨related, shown⟩ := ih earlier earlier'
    obtain ⟨before, input, output, after⟩ := event
    obtain ⟨before', input', output', after'⟩ := event'
    dsimp only at same
    subst same
    obtain ⟨next, seen⟩ := both _ _ _ _ _ _ _ related isShared taken taken'
    refine ⟨next, ?_⟩
    rw [List.flatMap_append, List.flatMap_append, shown, List.flatMap_singleton,
      List.flatMap_singleton, seen]
  | @more base wider event' inserted isExtra ih =>
    obtain ⟨earlier', taken', rfl⟩ := run'.last
    obtain ⟨related, shown⟩ := ih run earlier'
    obtain ⟨next, unseen⟩ := more _ _ _ _ _ related isExtra taken'
    refine ⟨next, ?_⟩
    rw [List.flatMap_append, List.flatMap_singleton, shown]
    exact (congrArg _ unseen).trans (List.append_nil _)

end Famp.Data.Machine
