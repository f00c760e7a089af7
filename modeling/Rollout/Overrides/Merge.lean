import Rollout.Overrides.Tree

/-! One tree laid over another: mappings that meet are merged, and otherwise the upper one's
value stands. -/

set_option autoImplicit false

namespace Rollout.Overrides

open Yaml

mutual

def mergeValue : Option Value → Value → Value
  | some (.mapping existing), .mapping incoming =>
    have := listDepth_ofMapping incoming
    (mergeEntries (ofMapping existing) (ofMapping incoming).entries).toValue
  | _, value => value
termination_by _ value => (mappingDepth value, 0)
decreasing_by simp only [Prod.lex_def, mappingDepth]; omega

def mergeEntries (into : Overrides) : List (String × Value) → Overrides
  | [] => into
  | (key, value) :: rest =>
    mergeEntries (into.insert key (mergeValue (into.get? key) value)) rest
termination_by entries => (listDepth entries, entries.length + 1)
decreasing_by all_goals simp only [Prod.lex_def, listDepth, List.length_cons]; omega

end

/-- `upper` laid over `lower`. -/
def merge (lower upper : Overrides) : Overrides :=
  mergeEntries lower upper.entries

end Rollout.Overrides
