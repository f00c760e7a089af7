import Rollout.Overrides.Merge

/-! Dotted keys as paths: `a.b: 1` stands for `a: {b: 1}`. -/

set_option autoImplicit false

namespace Rollout.Overrides

open Yaml

/-- The parts of a text between its dots; empty parts are left out. -/
def dottedParts : List Char → (part : List Char) → List String
  | [], part => if part.isEmpty then [] else [String.ofList part]
  | c :: rest, part =>
    if c = '.' then
      if part.isEmpty then dottedParts rest [] else String.ofList part :: dottedParts rest []
    else dottedParts rest (part ++ [c])

def keyPath (key : String) : List String :=
  dottedParts key.toList []

/-- The tree that holds a value at the end of a path and nothing else; there is no place for
it at the empty path. -/
def branch : List String → Value → Overrides
  | [], _ => ∅
  | [key], value => Dictionary.singleton key value
  | key :: rest, value => Dictionary.singleton key (branch rest value).toValue

def unflattenEntries (into : Overrides) : List (String × Value) → Overrides
  | [] => into
  | (key, .mapping entries) :: rest =>
    have := listDepth_ofMapping entries
    let value := (unflattenEntries ∅ (ofMapping entries).entries).toValue
    unflattenEntries (into.merge (branch (keyPath key) value)) rest
  | (key, value) :: rest =>
    unflattenEntries (into.merge (branch (keyPath key) value)) rest
termination_by entries => (listDepth entries, entries.length)
decreasing_by
  all_goals simp only [Prod.lex_def, listDepth, mappingDepth, List.length_cons]; omega

/-- The tree with every dotted key expanded, at every depth. -/
def unflatten (flat : Overrides) : Overrides :=
  unflattenEntries ∅ flat.entries

end Rollout.Overrides
