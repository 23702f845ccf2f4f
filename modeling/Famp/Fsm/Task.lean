import Mathlib.Data.List.Sublists
import Famp.Core.Ids

/-!
# The life of a task

The transition engine of `famp-fsm`, and what a sequence of messages does to a
task when messages that are not allowed are passed over.
-/

set_option autoImplicit false

namespace Famp.Fsm

open Famp.Core

inductive TaskState where
  | requested | committed | completed | failed | cancelled
  deriving DecidableEq, Repr

structure TaskTransitionInput where
  messageClass : MessageClass
  terminalStatus : Option TerminalStatus
  deriving DecidableEq, Repr

structure IllegalTransition where
  source : TaskState
  input : TaskTransitionInput
  deriving DecidableEq, Repr

namespace TaskState

def step (state : TaskState) (input : TaskTransitionInput) : Except IllegalTransition TaskState :=
  match state, input.messageClass, input.terminalStatus with
  | .requested, .commit, none => .ok .committed
  | .committed, .deliver, some .completed => .ok .completed
  | .committed, .deliver, some .failed => .ok .failed
  | .requested, .control, none | .committed, .control, none => .ok .cancelled
  | _, _, _ => .error ⟨state, input⟩

def terminal : TaskState → Bool
  | .requested | .committed => false
  | .completed | .failed | .cancelled => true

/-- A message that is not allowed leaves the state as it is. -/
def absorb (state : TaskState) (input : TaskTransitionInput) : TaskState :=
  match state.step input with
  | .ok next => next
  | .error _ => state

end TaskState

namespace TaskTransitionInput

def commits (input : TaskTransitionInput) : Bool :=
  input.messageClass == .commit && input.terminalStatus == none

def cancels (input : TaskTransitionInput) : Bool :=
  input.messageClass == .control && input.terminalStatus == none

def finishes (input : TaskTransitionInput) : Bool :=
  input.messageClass == .deliver &&
    (input.terminalStatus == some .completed || input.terminalStatus == some .failed)

/-- Some task that is not at its end is brought there. -/
def EntersTerminal (input : TaskTransitionInput) : Prop :=
  ∃ state next : TaskState, state.terminal = false ∧ state.step input = .ok next ∧
    next.terminal = true

end TaskTransitionInput

open TaskState TaskTransitionInput

theorem absorb_terminal {state : TaskState} (done : state.terminal = true)
    (input : TaskTransitionInput) : state.absorb input = state := by
  obtain ⟨messageClass, status⟩ := input
  cases state with
  | requested | committed => cases done
  | completed | failed | cancelled => rcases status with _ | status <;> cases messageClass <;> rfl

/-- Only commits, deliveries and controls move a task. -/
theorem absorb_request (state : TaskState) (status : Option TerminalStatus) :
    state.absorb ⟨.request, status⟩ = state := by
  cases state <;> rfl

theorem absorb_ack (state : TaskState) (status : Option TerminalStatus) :
    state.absorb ⟨.ack, status⟩ = state := by
  cases state <;> rfl

theorem absorb_auditLog (state : TaskState) (status : Option TerminalStatus) :
    state.absorb ⟨.auditLog, status⟩ = state := by
  cases state <;> rfl

theorem terminal_absorb_requested (input : TaskTransitionInput) :
    (TaskState.requested.absorb input).terminal = input.cancels := by
  obtain ⟨messageClass, status⟩ := input
  rcases status with _ | status <;> cases messageClass <;> rfl

theorem terminal_absorb_committed (input : TaskTransitionInput) :
    (TaskState.committed.absorb input).terminal = (input.cancels || input.finishes) := by
  obtain ⟨messageClass, status⟩ := input
  rcases status with _ | _ | _ | _ <;> cases messageClass <;> rfl

theorem absorb_requested (input : TaskTransitionInput) (open' : input.cancels = false) :
    TaskState.requested.absorb input = if input.commits then .committed else .requested := by
  obtain ⟨messageClass, status⟩ := input
  rcases status with _ | status <;> cases messageClass <;> first | rfl | cases open'

theorem absorb_committed (input : TaskTransitionInput)
    (open' : (input.cancels || input.finishes) = false) :
    TaskState.committed.absorb input = .committed := by
  obtain ⟨messageClass, status⟩ := input
  rcases status with _ | _ | _ | _ <;> cases messageClass <;> first | rfl | cases open'

theorem entersTerminal_iff (input : TaskTransitionInput) :
    input.EntersTerminal ↔ (input.cancels || input.finishes) = true := by
  rw [← terminal_absorb_committed]
  constructor
  · rintro ⟨state, next, open', taken, done⟩
    cases state with
    | requested =>
      have ends : (TaskState.requested.absorb input).terminal = true := by
        rw [absorb, taken, done]
      rw [terminal_absorb_requested] at ends
      rw [terminal_absorb_committed, ends, Bool.true_or]
    | committed => rw [absorb, taken, done]
    | completed | failed | cancelled => cases open'
  · intro ends
    refine ⟨.committed, TaskState.committed.absorb input, rfl, ?_, ends⟩
    unfold absorb at ends ⊢
    split at ends
    · next taken => rw [taken]
    · cases ends

/-! ## Histories -/

/-- The state of a task after a sequence of messages. -/
def after (state : TaskState) (inputs : List TaskTransitionInput) : TaskState :=
  inputs.foldl absorb state

/-- The task is cancelled, or committed to and finished later. -/
def Closed (inputs : List TaskTransitionInput) : Prop :=
  (∃ input ∈ inputs, input.cancels = true) ∨
    ∃ first later, [first, later].Sublist inputs ∧ first.commits = true ∧ later.finishes = true

theorem closed_cons (input : TaskTransitionInput) (rest : List TaskTransitionInput) :
    Closed (input :: rest) ↔ input.cancels = true ∨ Closed rest ∨
      (input.commits = true ∧ ∃ later ∈ rest, later.finishes = true) := by
  simp only [Closed, List.sublist_cons_iff, List.cons.injEq]
  constructor
  · rintro (⟨other, member, cancels⟩ | ⟨first, later, pair | ⟨_, ⟨rfl, rfl⟩, sub⟩, commits, finishes⟩)
    · rcases List.mem_cons.mp member with rfl | member
      · exact .inl cancels
      · exact .inr (.inl (.inl ⟨other, member, cancels⟩))
    · exact .inr (.inl (.inr ⟨first, later, pair, commits, finishes⟩))
    · exact .inr (.inr ⟨commits, later, List.singleton_sublist.mp sub, finishes⟩)
  · rintro (cancels | (⟨other, member, cancels⟩ | ⟨first, later, pair, found⟩) |
      ⟨commits, later, member, finishes⟩)
    · exact .inl ⟨input, List.mem_cons_self, cancels⟩
    · exact .inl ⟨other, List.mem_cons_of_mem _ member, cancels⟩
    · exact .inr ⟨first, later, .inl pair, found⟩
    · exact .inr ⟨input, later, .inr ⟨[later], ⟨rfl, rfl⟩, List.singleton_sublist.mpr member⟩,
        commits, finishes⟩

theorem after_terminal {state : TaskState} (done : state.terminal = true)
    (inputs : List TaskTransitionInput) : after state inputs = state := by
  induction inputs with
  | nil => rfl
  | cons input rest ih =>
    rw [after, List.foldl_cons, absorb_terminal done]
    exact ih

theorem terminal_after_committed (inputs : List TaskTransitionInput) :
    (after .committed inputs).terminal = true ↔
      ∃ input ∈ inputs, (input.cancels || input.finishes) = true := by
  induction inputs with
  | nil => simp [after, terminal]
  | cons input rest ih =>
    rw [after, List.foldl_cons, ← after]
    cases ends : input.cancels || input.finishes with
    | true =>
      have done := (terminal_absorb_committed input).trans ends
      rw [after_terminal done, done]
      exact ⟨fun _ => ⟨input, List.mem_cons_self, ends⟩, fun _ => rfl⟩
    | false =>
      rw [absorb_committed input ends, ih]
      simp only [List.mem_cons, exists_eq_or_imp, ends, Bool.false_eq_true, false_or]

/-- Which histories bring a task to its end. -/
theorem terminal_after_iff (inputs : List TaskTransitionInput) :
    (after .requested inputs).terminal = true ↔ Closed inputs := by
  induction inputs with
  | nil => simp [after, terminal, Closed]
  | cons input rest ih =>
    rw [after, List.foldl_cons, ← after, closed_cons]
    cases ends : input.cancels with
    | true =>
      have done := (terminal_absorb_requested input).trans ends
      rw [after_terminal done, done]
      exact ⟨fun _ => .inl rfl, fun _ => rfl⟩
    | false =>
      rw [absorb_requested input ends]
      split
      · next commits =>
        rw [terminal_after_committed]
        constructor
        · rintro ⟨later, member, closes⟩
          rcases (Bool.or_eq_true _ _).mp closes with cancels | finishes
          · exact .inr (.inl (.inl ⟨later, member, cancels⟩))
          · exact .inr (.inr ⟨commits, later, member, finishes⟩)
        · rintro (impossible | (⟨later, member, cancels⟩ | ⟨first, later, pair, -, finishes⟩) |
            ⟨-, later, member, finishes⟩)
          · cases impossible
          · exact ⟨later, member, by simp [cancels]⟩
          · exact ⟨later, pair.subset (by simp), by simp [finishes]⟩
          · exact ⟨later, member, by simp [finishes]⟩
      · next commits => simp [ih, commits]

end Famp.Fsm
