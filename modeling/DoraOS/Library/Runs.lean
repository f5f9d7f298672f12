import Mathlib.Data.List.Basic

/-! Finite runs of a partial, deterministic step function. An event that is
not enabled in a state has no successor. A run may be asked to meet a
condition on the state and event before every step; the condition never
changes the successor. -/
namespace Transition

universe u v

variable {State : Type u} {Event : Type v}

/-- A finite run whose every step meets `ok` in the state before the step. -/
inductive RunsIf (step : State → Event → Option State) (ok : State → Event → Prop)
    (start : State) : List Event → State → Prop where
  | nil : RunsIf step ok start [] start
  | snoc {events : List Event} {event : Event} {middle finish : State}
      (prior : RunsIf step ok start events middle) (hOk : ok middle event)
      (last : step middle event = some finish) :
      RunsIf step ok start (events ++ [event]) finish

/-- A guarded step that is taken meets its guard. -/
theorem guard_some {α : Type u} {guard : Prop} [Decidable guard] {made result : α}
    (h : (if guard then some made else none) = some result) : guard ∧ made = result := by
  rwa [Option.ite_none_right_eq_some, Option.some.injEq] at h

/-- An unconditional run. -/
def Runs (step : State → Event → Option State) (start : State) :
    List Event → State → Prop :=
  RunsIf step (fun _ _ => True) start

/-- Evaluate a list of events from the left, stopping at a disabled one. -/
def exec (step : State → Event → Option State) : State → List Event → Option State
  | s, [] => some s
  | s, event :: rest => (step s event).bind fun next => exec step next rest

variable {step : State → Event → Option State} {ok : State → Event → Prop}

/-- The induction rule for safety: a property of the start that every
conditioned step preserves holds at the end of every conditioned run. -/
theorem RunsIf.invariant {start finish : State} {events : List Event}
    (run : RunsIf step ok start events finish) (Inv : State → Prop) (hStart : Inv start)
    (hStep : ∀ s event s', Inv s → ok s event → step s event = some s' → Inv s') :
    Inv finish := by
  induction run with
  | nil => exact hStart
  | snoc prior hOk last ih => exact hStep _ _ _ ih hOk last

/-- The same rule for a property of the events performed so far as well. -/
theorem RunsIf.trace_invariant {start finish : State} {events : List Event}
    (run : RunsIf step ok start events finish) (Inv : List Event → State → Prop)
    (hStart : Inv [] start)
    (hStep : ∀ past s event s', Inv past s → ok s event → step s event = some s' →
      Inv (past ++ [event]) s') :
    Inv events finish := by
  induction run with
  | nil => exact hStart
  | snoc prior hOk last ih => exact hStep _ _ _ _ ih hOk last

theorem RunsIf.mono {start finish : State} {events : List Event}
    {ok' : State → Event → Prop} (run : RunsIf step ok start events finish)
    (h : ∀ s event, ok s event → ok' s event) : RunsIf step ok' start events finish := by
  induction run with
  | nil => exact RunsIf.nil
  | snoc prior hOk last ih => exact RunsIf.snoc ih (h _ _ hOk) last

/-- A condition may be derived from another one and an invariant. -/
theorem RunsIf.of_invariant {start finish : State} {events : List Event}
    {ok' : State → Event → Prop} (run : RunsIf step ok start events finish) (Inv : State → Prop)
    (hStart : Inv start)
    (hStep : ∀ s event s', Inv s → ok s event → step s event = some s' → Inv s')
    (h : ∀ s event, Inv s → ok s event → ok' s event) : RunsIf step ok' start events finish := by
  induction run with
  | nil => exact RunsIf.nil
  | snoc prior hOk last ih =>
      exact RunsIf.snoc ih (h _ _ (prior.invariant Inv hStart hStep) hOk) last

theorem RunsIf.trans {start middle finish : State} {first second : List Event}
    (left : RunsIf step ok start first middle) (right : RunsIf step ok middle second finish) :
    RunsIf step ok start (first ++ second) finish := by
  induction right with
  | nil => simpa using left
  | snoc prior hOk last ih => simpa using RunsIf.snoc ih hOk last

theorem RunsIf.cons {start middle finish : State} {event : Event} {rest : List Event}
    (hOk : ok start event) (first : step start event = some middle)
    (later : RunsIf step ok middle rest finish) :
    RunsIf step ok start (event :: rest) finish := by
  have single : RunsIf step ok start ([] ++ [event]) middle := RunsIf.snoc RunsIf.nil hOk first
  simpa using single.trans later

/-- Successful evaluation is an unconditional run. -/
theorem runs_of_exec {start finish : State} {events : List Event}
    (h : exec step start events = some finish) : Runs step start events finish := by
  induction events generalizing start with
  | nil =>
      have hEq : start = finish := by simpa [exec] using h
      subst hEq
      exact RunsIf.nil
  | cons event rest ih =>
      simp only [exec, Option.bind_eq_some_iff] at h
      obtain ⟨middle, hFirst, hRest⟩ := h
      exact RunsIf.cons trivial hFirst (ih hRest)

theorem runs_of_isSome {start : State} {events : List Event}
    (h : (exec step start events).isSome = true) :
    Runs step start events ((exec step start events).get h) :=
  runs_of_exec (Option.some_get h).symm

/-- A condition on the events alone can be checked on their list. -/
theorem RunsIf.of_events {start finish : State} {events : List Event} {ok' : Event → Prop}
    (run : RunsIf step ok start events finish) (h : ∀ event ∈ events, ok' event) :
    RunsIf step (fun _ event => ok' event) start events finish := by
  induction run with
  | nil => exact RunsIf.nil
  | snoc prior hOk last ih =>
      refine RunsIf.snoc (ih fun event hMem => h event ?_) (h _ ?_) last
      · exact List.mem_append_left _ hMem
      · exact List.mem_append_right _ (List.mem_singleton_self _)

section Conditioned

variable [∀ s event, Decidable (ok s event)]

variable (step ok) in
/-- Evaluate a list of events and check the condition before each of them. -/
def execIf : State → List Event → Option State
  | s, [] => some s
  | s, event :: rest =>
      if ok s event then (step s event).bind fun next => execIf next rest else none

theorem runsIf_of_execIf {start finish : State} {events : List Event}
    (h : execIf step ok start events = some finish) : RunsIf step ok start events finish := by
  induction events generalizing start with
  | nil =>
      have hEq : start = finish := by simpa [execIf] using h
      subst hEq
      exact RunsIf.nil
  | cons event rest ih =>
      simp only [execIf, Option.ite_none_right_eq_some, Option.bind_eq_some_iff] at h
      obtain ⟨hOk, middle, hFirst, hRest⟩ := h
      exact RunsIf.cons hOk hFirst (ih hRest)

theorem runsIf_of_isSome {start : State} {events : List Event}
    (h : (execIf step ok start events).isSome = true) :
    RunsIf step ok start events ((execIf step ok start events).get h) :=
  runsIf_of_execIf (Option.some_get h).symm

end Conditioned

end Transition
