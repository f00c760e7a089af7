import Rollout.Overrides.Unflatten

/-! The paths that keys spell. Their steps are texts without dots that are not empty, and such a
text by itself is a path of one step. -/

set_option autoImplicit false

namespace Rollout.Overrides

/-- A text that is one step of a path by itself. -/
def IsStep (key : String) : Prop :=
  key ≠ "" ∧ '.' ∉ key.toList

instance (key : String) : Decidable (IsStep key) :=
  inferInstanceAs (Decidable (key ≠ "" ∧ '.' ∉ key.toList))

theorem isStep_ofList {part : List Char} (full : part.isEmpty = false) (undotted : '.' ∉ part) :
    IsStep (String.ofList part) := by
  refine ⟨fun empty => ?_, by rwa [String.toList_ofList]⟩
  rw [String.ofList_eq_empty_iff] at empty
  subst empty
  cases full

-- Along the text; the part that is being read has no dots in it.
theorem isStep_of_mem_dottedParts {chars part : List Char} {step : String}
    (undotted : '.' ∉ part) (member : step ∈ dottedParts chars part) : IsStep step := by
  fun_induction dottedParts chars part with
  | case1 part empty => cases member
  | case2 part full =>
    cases List.mem_singleton.mp member
    exact isStep_ofList (by simpa using full) undotted
  | case3 rest part empty ih => exact ih List.not_mem_nil member
  | case4 rest part full ih =>
    rcases List.mem_cons.mp member with rfl | later
    · exact isStep_ofList (by simpa using full) undotted
    · exact ih List.not_mem_nil later
  | case5 part c rest letter ih => exact ih (by simp [undotted, Ne.symm letter]) member

theorem isStep_of_mem_keyPath {key step : String} (member : step ∈ keyPath key) : IsStep step :=
  isStep_of_mem_dottedParts List.not_mem_nil member

theorem dottedParts_append {chars : List Char} (undotted : '.' ∉ chars) (rest part : List Char) :
    dottedParts (chars ++ rest) part = dottedParts rest (part ++ chars) := by
  induction chars generalizing part with
  | nil => simp
  | cons c chars ih =>
    rw [List.mem_cons, not_or] at undotted
    rw [List.cons_append, dottedParts, if_neg (Ne.symm undotted.1), ih undotted.2,
      List.append_assoc, List.singleton_append]

theorem keyPath_of_isStep {key : String} (step : IsStep key) : keyPath key = [key] := by
  have whole := dottedParts_append step.2 [] []
  rw [List.append_nil, List.nil_append] at whole
  rw [keyPath, whole, dottedParts, if_neg (by simpa using step.1), String.ofList_toList]

def joined (path : List String) : String :=
  ".".intercalate path

theorem keyPath_joined {path : List String} (steps : ∀ step ∈ path, IsStep step) :
    keyPath (joined path) = path := by
  induction path with
  | nil => rfl
  | cons first rest ih =>
    rw [List.forall_mem_cons] at steps
    cases rest with
    | nil => rw [joined, String.intercalate_singleton, keyPath_of_isStep steps.1]
    | cons next rest =>
      have spelled : (joined (first :: next :: rest)).toList =
          first.toList ++ '.' :: (joined (next :: rest)).toList := by
        simp [joined, String.intercalate_cons_cons]
      have full : first.toList.isEmpty = false := by simpa using steps.1.1
      have later := ih steps.2
      rw [keyPath] at later ⊢
      rw [spelled, dottedParts_append steps.1.2, List.nil_append, dottedParts, if_pos rfl, full,
        if_neg (by simp), String.ofList_toList, later]

end Rollout.Overrides
