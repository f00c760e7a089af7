import Mathlib.Logic.Relation

/-! What machines come to. A machine is a partial step function; a guard says which of its
steps are counted, so that one notion serves for all interleavings and for those in which the
surroundings behave in a certain way. -/

set_option autoImplicit false

namespace Rollout

variable {State Label : Type} {step : State → Label → Option State} {guard : State → Label → Bool}

def anyStep (_ : State) (_ : Label) : Bool := true

def Follows (step : State → Label → Option State) (guard : State → Label → Bool)
    (state next : State) : Prop :=
  ∃ label, guard state label = true ∧ step state label = some next

/-- One state is any number of counted steps behind another. -/
abbrev Reaches (step : State → Label → Option State) (guard : State → Label → Bool) :
    State → State → Prop :=
  Relation.ReflTransGen (Follows step guard)

/-- Takes the steps of a list one after the other, all of which have to be possible and
counted. -/
def walk (step : State → Label → Option State) (guard : State → Label → Bool) :
    List Label → State → Option State
  | [], state => some state
  | label :: rest, state =>
    if guard state label then (step state label).bind (walk step guard rest) else none

theorem walk_cons {label : Label} {rest : List Label} {state final : State}
    (walked : walk step guard (label :: rest) state = some final) :
    ∃ next, guard state label = true ∧ step state label = some next ∧
      walk step guard rest next = some final := by
  rw [walk] at walked
  split at walked
  · obtain ⟨next, stepped, tail⟩ := Option.bind_eq_some_iff.mp walked
    exact ⟨next, ‹_›, stepped, tail⟩
  · cases walked

theorem walk_append {front rest : List Label} {state final : State}
    (walked : walk step guard (front ++ rest) state = some final) :
    ∃ middle, walk step guard front state = some middle ∧
      walk step guard rest middle = some final := by
  induction front generalizing state with
  | nil => exact ⟨state, rfl, walked⟩
  | cons label front ih =>
    obtain ⟨next, counted, stepped, walked⟩ := walk_cons walked
    obtain ⟨middle, first, second⟩ := ih walked
    refine ⟨middle, ?_, second⟩
    rw [walk, if_pos counted, stepped]
    exact first

theorem walk_trans {front rest : List Label} {state middle final : State}
    (first : walk step guard front state = some middle)
    (second : walk step guard rest middle = some final) :
    walk step guard (front ++ rest) state = some final := by
  induction front generalizing state with
  | nil =>
    cases first
    exact second
  | cons label front ih =>
    obtain ⟨next, counted, stepped, first⟩ := walk_cons first
    rw [List.cons_append, walk, if_pos counted, stepped]
    exact ih first

theorem walk_one {label : Label} {state next : State} (stepped : step state label = some next) :
    walk step anyStep [label] state = some next := by
  rw [walk, anyStep, if_pos rfl, stepped]
  rfl

theorem reaches_of_walk {labels : List Label} {state final : State}
    (walked : walk step guard labels state = some final) : Reaches step guard state final := by
  induction labels generalizing state with
  | nil =>
    cases walked
    exact .refl
  | cons label rest ih =>
    obtain ⟨next, counted, stepped, tail⟩ := walk_cons walked
    exact .head ⟨label, counted, stepped⟩ (ih tail)

/-- What holds at first and is kept by every counted step holds of all that is reached. -/
theorem Reaches.invariant {state final : State} (reached : Reaches step guard state final)
    (Kept : State → Prop) (initial : Kept state)
    (keep : ∀ {s t : State} {label : Label}, Kept s → guard s label = true →
      step s label = some t → Kept t) : Kept final := by
  induction reached with
  | refl => exact initial
  | tail _ follows ih =>
    obtain ⟨label, counted, stepped⟩ := follows
    exact keep ih counted stepped

theorem Reaches.anyStep {state final : State} (reached : Reaches step guard state final) :
    Reaches step Rollout.anyStep state final :=
  reached.lift id fun _ _ ⟨label, _, stepped⟩ => ⟨label, rfl, stepped⟩

end Rollout
