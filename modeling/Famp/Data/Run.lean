import Mathlib.Order.Basic

/-!
# Runs of a machine

A machine takes steps from state to state, each step with an input and an output.
A run is recorded as the list of its events, oldest first.
-/

set_option autoImplicit false

namespace Famp.Data

variable {σ ι ο : Type}

structure Event (σ ι ο : Type) where
  before : σ
  input : ι
  output : ο
  after : σ

structure Machine (σ ι ο : Type) where
  initial : σ → Prop
  step : σ → ι → ο → σ → Prop

variable {m : Machine σ ι ο} {trace : List (Event σ ι ο)} {s : σ}

namespace Machine

inductive Run (m : Machine σ ι ο) : List (Event σ ι ο) → σ → Prop
  | start {s : σ} : m.initial s → Run m [] s
  | step {trace : List (Event σ ι ο)} {s s' : σ} {input : ι} {output : ο} :
      Run m trace s → m.step s input output s' → Run m (trace ++ [⟨s, input, output, s'⟩]) s'

/-- A property of the history and the state that holds at the start and is kept
by every step whose event is `allowed` holds at the end of every run of allowed
events.  The step may use that the history is a run. -/
theorem Run.history_of_allowed (allowed : Event σ ι ο → Prop)
    (holds : List (Event σ ι ο) → σ → Prop) (start : ∀ s, m.initial s → holds [] s)
    (keep : ∀ trace s input output s', m.Run trace s → holds trace s →
      allowed ⟨s, input, output, s'⟩ → m.step s input output s' →
        holds (trace ++ [⟨s, input, output, s'⟩]) s') (run : m.Run trace s)
    (all : ∀ event ∈ trace, allowed event) : holds trace s := by
  induction run with
  | start initial => exact start _ initial
  | step run taken ih =>
    have earlier := ih fun event member => all event (List.mem_append_left _ member)
    have last := all _ (List.mem_append_right _ (List.mem_singleton_self _))
    exact keep _ _ _ _ _ run earlier last taken

/-- What holds at the start and is kept by every step whose event is `allowed`
holds at the end of every run of allowed events. -/
theorem Run.invariant_of_allowed (allowed : Event σ ι ο → Prop) (holds : σ → Prop)
    (start : ∀ s, m.initial s → holds s)
    (keep : ∀ s input output s', holds s → allowed ⟨s, input, output, s'⟩ →
      m.step s input output s' → holds s') (run : m.Run trace s)
    (all : ∀ event ∈ trace, allowed event) : holds s :=
  run.history_of_allowed allowed (fun _ => holds) start
    (fun _ s input output s' _ kept last taken => keep s input output s' kept last taken) all

/-- Where a step from a good state leads to a good state exactly when its event is
`allowed`, all states of a run are good exactly when all its events are allowed. -/
theorem Run.everywhere_iff (allowed : Event σ ι ο → Prop) (holds : σ → Prop)
    (start : ∀ s, m.initial s → holds s)
    (keep : ∀ trace s input output s', m.Run trace s → holds s → m.step s input output s' →
      (holds s' ↔ allowed ⟨s, input, output, s'⟩)) (run : m.Run trace s) :
    (holds s ∧ ∀ event ∈ trace, holds event.before) ↔ ∀ event ∈ trace, allowed event := by
  induction run with
  | start initial => simp [start _ initial]
  | @step trace s s' input output run taken ih =>
    simp only [List.forall_mem_append, List.forall_mem_singleton]
    constructor
    · rintro ⟨last, earlier, before⟩
      exact ⟨ih.mp ⟨before, earlier⟩, (keep _ _ _ _ _ run before taken).mp last⟩
    · rintro ⟨earlier, last⟩
      obtain ⟨before, all⟩ := ih.mpr earlier
      exact ⟨(keep _ _ _ _ _ run before taken).mpr last, all, before⟩

theorem Run.split (run : m.Run trace s) :
    ∀ {earlier later : List (Event σ ι ο)} {event : Event σ ι ο},
      trace = earlier ++ event :: later →
        m.Run earlier event.before ∧
          m.step event.before event.input event.output event.after := by
  induction run with
  | start initial =>
    intro earlier later event same
    simp at same
  | @step trace s s' input output run taken ih =>
    intro earlier later event same
    rcases List.eq_nil_or_concat later with rfl | ⟨before, last, rfl⟩
    · obtain ⟨rfl, last⟩ := List.append_inj' same rfl
      obtain rfl := List.singleton_inj.mp last
      exact ⟨run, taken⟩
    · rw [List.concat_eq_append, ← List.cons_append, ← List.append_assoc] at same
      exact ih (List.append_inj' same rfl).1

/-- A property of the events since a given one and of the state that holds after that
event and is kept by every step whose event is `allowed` holds at the end of the run. -/
theorem Run.history_after (allowed : Event σ ι ο → Prop) (holds : List (Event σ ι ο) → σ → Prop)
    (keep : ∀ trace since s input output s', m.Run trace s → holds since s →
      allowed ⟨s, input, output, s'⟩ → m.step s input output s' →
        holds (since ++ [⟨s, input, output, s'⟩]) s') (run : m.Run trace s) :
    ∀ {earlier later : List (Event σ ι ο)} {event : Event σ ι ο},
      trace = earlier ++ event :: later → holds [] event.after →
        (∀ next ∈ later, allowed next) → holds later s := by
  induction run with
  | start initial =>
    intro earlier later event same
    simp at same
  | @step trace s s' input output run taken ih =>
    intro earlier later event same held all
    rcases List.eq_nil_or_concat later with rfl | ⟨before, last, rfl⟩
    · obtain ⟨-, last⟩ := List.append_inj' same rfl
      obtain rfl := List.singleton_inj.mp last
      exact held
    · rw [List.concat_eq_append, ← List.cons_append, ← List.append_assoc] at same
      obtain ⟨split, lasts⟩ := List.append_inj' same rfl
      obtain rfl := List.singleton_inj.mp lasts
      rw [List.concat_eq_append] at all ⊢
      obtain ⟨earlierAll, last⟩ := List.forall_mem_append.mp all
      exact keep trace before s input output s' run (ih split held earlierAll)
        (List.forall_mem_singleton.mp last) taken

theorem Run.kept_after (holds : σ → Prop)
    (keep : ∀ s input output s', holds s → m.step s input output s' → holds s')
    (run : m.Run trace s) {earlier later : List (Event σ ι ο)} {event : Event σ ι ο}
    (split : trace = earlier ++ event :: later) (held : holds event.after) :
    holds s ∧ ∀ next ∈ later, holds next.before ∧ holds next.after := by
  refine run.history_after (fun _ => True)
    (fun since s => holds s ∧ ∀ next ∈ since, holds next.before ∧ holds next.after) ?_ split
    ⟨held, by simp⟩ fun _ _ => trivial
  rintro trace since s input output s' - ⟨here, all⟩ - taken
  have next := keep s input output s' here taken
  refine ⟨next, List.forall_mem_append.mpr ⟨all, ?_⟩⟩
  exact List.forall_mem_singleton.mpr ⟨here, next⟩

/-- The event is a step from a state that a run reaches. -/
def Occurs (m : Machine σ ι ο) (event : Event σ ι ο) : Prop :=
  ∃ earlier, m.Run earlier event.before ∧
    m.step event.before event.input event.output event.after

theorem Run.occurs (run : m.Run trace s) {event : Event σ ι ο} (member : event ∈ trace) :
    m.Occurs event := by
  obtain ⟨earlier, later, split⟩ := List.append_of_mem member
  exact ⟨earlier, run.split split⟩

theorem Run.invariant (holds : σ → Prop) (start : ∀ s, m.initial s → holds s)
    (keep : ∀ s input output s', holds s → m.step s input output s' → holds s')
    (run : m.Run trace s) : holds s :=
  run.invariant_of_allowed (fun _ => True) holds start
    (fun s input output s' kept _ taken => keep s input output s' kept taken) fun _ _ => trivial

end Machine

/-! ## Runs of a function -/

section Calls
variable (respond : σ → ι → ο × σ)

/-- The machine that answers each input by a function of its state. -/
def Machine.ofFunction (start : σ) : Machine σ ι ο where
  initial s := s = start
  step s input output s' := respond s input = (output, s')

def stateOf (s : σ) : List ι → σ
  | [] => s
  | input :: rest => stateOf (respond s input).2 rest

def traceOf (s : σ) : List ι → List (Event σ ι ο)
  | [] => []
  | input :: rest =>
    ⟨s, input, (respond s input).1, (respond s input).2⟩ :: traceOf (respond s input).2 rest

theorem map_input_traceOf (s : σ) (inputs : List ι) :
    (traceOf respond s inputs).map Event.input = inputs := by
  induction inputs generalizing s with
  | nil => rfl
  | cons input rest ih => simp only [traceOf, List.map_cons, ih]

theorem traceOf_split {inputs : List ι} : ∀ {s : σ} {earlier later : List (Event σ ι ο)}
    {event : Event σ ι ο}, traceOf respond s inputs = earlier ++ event :: later →
      respond event.before event.input = (event.output, event.after) ∧
        ∃ rest, later = traceOf respond event.after rest := by
  induction inputs with
  | nil =>
    intro s earlier later event split
    simp [traceOf] at split
  | cons input rest ih =>
    intro s earlier later event split
    cases earlier with
    | nil =>
      cases split
      exact ⟨rfl, rest, rfl⟩
    | cons first earlier => exact ih (List.cons.inj split).2

theorem traceOf_keeps (holds : σ → Prop) (keep : ∀ s input, holds s → holds (respond s input).2)
    (inputs : List ι) : ∀ {s : σ}, holds s → ∀ event ∈ traceOf respond s inputs, holds event.after := by
  induction inputs with
  | nil => exact fun _ event member => by cases member
  | cons input rest ih =>
    intro s start event member
    rcases List.mem_cons.mp member with rfl | later
    · exact keep s input start
    · exact ih (keep s input start) event later

theorem run_append_traceOf (start : σ) (inputs : List ι) :
    ∀ {trace : List (Event σ ι ο)} {s : σ}, (Machine.ofFunction respond start).Run trace s →
      (Machine.ofFunction respond start).Run (trace ++ traceOf respond s inputs)
        (stateOf respond s inputs) := by
  induction inputs with
  | nil =>
    intro trace s run
    simpa only [traceOf, stateOf, List.append_nil] using run
  | cons input rest ih =>
    intro trace s run
    have next : (Machine.ofFunction respond start).Run
        (trace ++ [⟨s, input, (respond s input).1, (respond s input).2⟩]) (respond s input).2 :=
      run.step rfl
    simpa only [traceOf, stateOf, List.append_assoc, List.singleton_append] using ih next

theorem run_traceOf (start : σ) (inputs : List ι) :
    (Machine.ofFunction respond start).Run (traceOf respond start inputs)
      (stateOf respond start inputs) :=
  run_append_traceOf respond start inputs (.start rfl)

end Calls

end Famp.Data
