import Mathlib.Data.Option.Basic

/-! Two systems that report an output at every step and are run on the same
events. As long as related states agree on every event, the two runs cannot be
told apart by their outputs. -/
namespace Lockstep

universe u v w x

variable {State : Type u} {Twin : Type v} {Event : Type w} {Output : Type x}

/-- The outputs of a list of events, if all of them are enabled in turn. -/
def outputs (step : State → Event → Option (State × Output)) :
    State → List Event → Option (List Output)
  | _, [] => some []
  | s, event :: rest => (step s event).bind fun r => (outputs step r.1 rest).map (r.2 :: ·)

/-- Neither system goes on, or both do with the same output and to related
states. -/
inductive Agree (R : State → Twin → Prop) :
    Option (State × Output) → Option (Twin × Output) → Prop where
  | stop : Agree R none none
  | go {s : State} {t : Twin} (output : Output) (hRel : R s t) :
      Agree R (some (s, output)) (some (t, output))

namespace Agree

variable {R : State → Twin → Prop} {a : Option (State × Output)} {b : Option (Twin × Output)}

/-- Both systems are part of larger ones. -/
theorem map {State' Twin' Output' : Type*} {S : State' → Twin' → Prop} (h : Agree R a b)
    (f : State → State') (g : Twin → Twin') (out : State → Output → Output')
    (out' : Twin → Output → Output') (hRel : ∀ s t, R s t → S (f s) (g t))
    (hOut : ∀ s t output, R s t → out s output = out' t output) :
    Agree S (a.map fun r => (f r.1, out r.1 r.2)) (b.map fun r => (g r.1, out' r.1 r.2)) := by
  cases h with
  | stop => exact .stop
  | go output h =>
      simp only [Option.map_some, hOut _ _ output h]
      exact .go _ (hRel _ _ h)

end Agree

theorem outputs_eq {step : State → Event → Option (State × Output)}
    {step' : Twin → Event → Option (Twin × Output)} {R : State → Twin → Prop}
    (hStep : ∀ s t event, R s t → Agree R (step s event) (step' t event)) {s : State} {t : Twin}
    (h : R s t) (events : List Event) : outputs step s events = outputs step' t events := by
  induction events generalizing s t with
  | nil => rfl
  | cons event rest ih =>
      have hAgree := hStep s t event h
      rw [outputs, outputs]
      generalize step s event = a at hAgree
      generalize step' t event = b at hAgree
      cases hAgree with
      | stop => rfl
      | go output hRel => simp only [Option.bind_some, ih hRel]

end Lockstep
