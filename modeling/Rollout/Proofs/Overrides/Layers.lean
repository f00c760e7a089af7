import Rollout.Overrides.File
import Rollout.Proofs.Overrides.LastWord

/-! Where the values for a component come from. The sections of two files are merged by their
keys as they are spelled; expanding the keys comes afterwards. -/

set_option autoImplicit false

namespace Rollout

open Yaml Overrides

namespace OverridesFile

variable {file lower upper : OverridesFile} {component : String} {path : List String}
  {value : Value}

theorem get?_mergedWith (lower upper : OverridesFile) (component : String) :
    (lower.mergedWith upper).sections.get? component =
      (upper.sections.get? component).elim (lower.sections.get? component) fun part =>
        some (((lower.sections.get? component).getD ∅).merge part) :=
  Dictionary.get?_foldl_insert
    (fun (there : Option Overrides) (part : Overrides) => (there.getD ∅).merge part) component
    upper.sections.entries upper.sections.ascending lower.sections

def shared (file : OverridesFile) : Overrides :=
  if file.global.isEmpty then ∅
  else Dictionary.singleton globalKey (unflatten file.global).toValue

theorem leafAt_shared : file.shared.LeafAt path value ↔
    ∃ rest, path = globalKey :: rest ∧ (unflatten file.global).LeafAt rest value := by
  rw [shared]
  split
  · rename_i empty
    rw [unflatten_of_isEmpty empty]
    simp [LeafAt]
  · exact leafAt_singleton globalKey (unflatten file.global)

-- A value is one of the component's own, or a global one that these are silent about.
theorem leafAt_resolve : (file.resolve component).LeafAt path value ↔
    (∃ own, file.sections.get? component = some own ∧ (unflatten own).LeafAt path value) ∨
    (∃ rest, path = globalKey :: rest ∧ (unflatten file.global).LeafAt rest value) ∧
      ∀ own, file.sections.get? component = some own → (unflatten own).Silent path := by
  rw [← leafAt_shared]
  cases found : file.sections.get? component with
  | none => simp [resolve, found, shared]
  | some own =>
    have resolved : file.resolve component = file.shared.merge (unflatten own) := by
      rw [resolve, found, shared]
    rw [resolved, leafAt_merge]
    simp

theorem leafAt_resolve_merged {own : Overrides}
    (found : upper.sections.get? component = some own) :
    ((lower.mergedWith upper).resolve component).LeafAt path value ↔
      LastWord (((lower.sections.get? component).getD ∅).merge own) path value ∨
      (∃ rest, path = globalKey :: rest ∧
        (lower.global.merge upper.global).LastWord rest value) ∧
        (unflatten (((lower.sections.get? component).getD ∅).merge own)).Silent path := by
  have listed := get?_mergedWith lower upper component
  rw [found, Option.elim_some] at listed
  rw [leafAt_resolve, listed]
  simp [leafAt_unflatten, mergedWith]

theorem leafAt_resolve_shared (unlisted : upper.sections.get? component = none)
    (unnamed : lower.sections.get? component = none) :
    ((lower.mergedWith upper).resolve component).LeafAt path value ↔
      ∃ rest, path = globalKey :: rest ∧
        (lower.global.merge upper.global).LastWord rest value := by
  have listed := get?_mergedWith lower upper component
  rw [unlisted, Option.elim_none, unnamed] at listed
  rw [leafAt_resolve, listed]
  simp [leafAt_unflatten, mergedWith]

end OverridesFile

end Rollout
