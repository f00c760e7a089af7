import Rollout.Overrides.Merge
import Rollout.Proofs.Overrides.Path

/-! What stands at a path after one tree has been laid over another: what the upper one has
there, or else what the lower one has, if the upper one is silent about the path. -/

set_option autoImplicit false

namespace Rollout.Overrides

open Yaml

variable {lower upper into : Overrides} {key : String}

theorem mergeValue_mapping (existing incoming : List (Value × Value)) :
    mergeValue (some (.mapping existing)) (.mapping incoming) =
      ((ofMapping existing).merge (ofMapping incoming)).toValue := by
  rw [mergeValue, merge]

theorem mergeValue_toValue (lower upper : Overrides) :
    mergeValue (some lower.toValue) upper.toValue = (lower.merge upper).toValue := by
  rw [toValue, toValue, mergeValue_mapping, ofMapping_toMapping, ofMapping_toMapping]

theorem mergeValue_upper {place : Option Value} {value : Value}
    (apart : (∀ entries, place ≠ some (.mapping entries)) ∨ value.isMapping = false) :
    mergeValue place value = value := by
  rw [mergeValue]
  rintro existing incoming rfl rfl
  rcases apart with cut | leaf
  · exact cut existing rfl
  · cases leaf

@[simp] theorem mergeValue_none (value : Value) : mergeValue none value = value :=
  mergeValue_upper (.inl fun _ found => nomatch found)

theorem mergeEntries_eq_foldl (entries : List (String × Value)) (into : Overrides) :
    mergeEntries into entries = entries.foldl (fun (into : Overrides) entry =>
      into.insert entry.1 (mergeValue (into.get? entry.1) entry.2)) into := by
  induction entries generalizing into with
  | nil => rw [mergeEntries, List.foldl_nil]
  | cons entry rest ih => rw [mergeEntries, ih, List.foldl_cons]

@[simp] theorem merge_empty (lower : Overrides) : lower.merge ∅ = lower := by
  rw [merge, mergeEntries_eq_foldl]
  rfl

theorem merge_singleton (into : Overrides) (key : String) (value : Value) :
    into.merge (Dictionary.singleton key value) =
      into.insert key (mergeValue (into.get? key) value) := by
  rw [merge, mergeEntries_eq_foldl]
  rfl

theorem get?_merge (lower upper : Overrides) (key : String) :
    (lower.merge upper).get? key = (upper.get? key).elim (lower.get? key) fun value =>
      some (mergeValue (lower.get? key) value) := by
  rw [merge, mergeEntries_eq_foldl]
  exact Dictionary.get?_foldl_insert mergeValue key upper.entries upper.ascending lower

@[simp] theorem empty_merge (upper : Overrides) : (∅ : Overrides).merge upper = upper := by
  refine Dictionary.eq_of_get? fun key => ?_
  rw [get?_merge, Dictionary.get?_empty]
  cases upper.get? key with
  | none => rfl
  | some value => exact congrArg some (mergeValue_none value)

theorem get?_merge_none (above : upper.get? key = none) :
    (lower.merge upper).get? key = lower.get? key := by
  rw [get?_merge, above, Option.elim_none]

theorem get?_merge_upper {value : Value} (above : upper.get? key = some value)
    (apart : (∀ entries, lower.get? key ≠ some (.mapping entries)) ∨ value.isMapping = false) :
    (lower.merge upper).get? key = upper.get? key := by
  rw [get?_merge, above]
  exact congrArg some (mergeValue_upper apart)

theorem get?_merge_mapping {existing incoming : List (Value × Value)}
    (below : lower.get? key = some (.mapping existing))
    (above : upper.get? key = some (.mapping incoming)) :
    (lower.merge upper).get? key =
      some (.mapping ((ofMapping existing).merge (ofMapping incoming)).toMapping) := by
  rw [get?_merge, above, below]
  exact congrArg some (mergeValue_mapping existing incoming)

/-- What a key of the merged tree holds: a value of either tree, or two mappings that met. -/
theorem get?_merge_cases {content : Value} (found : (lower.merge upper).get? key = some content) :
    (upper.get? key = none ∧ lower.get? key = some content) ∨ upper.get? key = some content ∨
    ∃ existing incoming, lower.get? key = some (.mapping existing) ∧
      upper.get? key = some (.mapping incoming) ∧
      content = ((ofMapping existing).merge (ofMapping incoming)).toValue := by
  cases above : upper.get? key with
  | none => exact .inl ⟨rfl, (get?_merge_none above).symm.trans found⟩
  | some value =>
    by_cases meet : ∃ existing, lower.get? key = some (.mapping existing)
    · obtain ⟨existing, below⟩ := meet
      cases leaf : value.isMapping with
      | false => exact .inr (.inl (above ▸ (get?_merge_upper above (.inr leaf)).symm.trans found))
      | true =>
        obtain ⟨incoming, rfl⟩ := Value.eq_mapping leaf
        have merged := (get?_merge_mapping below above).symm.trans found
        exact .inr (.inr ⟨existing, incoming, below, rfl, (Option.some.inj merged).symm⟩)
    · have apart : ∀ entries, lower.get? key ≠ some (.mapping entries) :=
        fun entries found => meet ⟨entries, found⟩
      exact .inr (.inl (above ▸ (get?_merge_upper above (.inl apart)).symm.trans found))

-- Two mappings that meet are merged into a third one, so the law holds for the kinds of values
-- that do not tell mappings from each other.
theorem finds_merge {kind : Value → Prop}
    (uniform : ∀ one other, kind (.mapping one) → kind (.mapping other)) (path : List String)
    (lower upper : Overrides) :
    (lower.merge upper).Finds kind path ↔
      upper.Finds kind path ∨ lower.Finds kind path ∧ upper.Silent path := by
  induction path generalizing lower upper with
  | nil => simp [not_finds_nil]
  | cons key rest ih =>
    cases above : upper.get? key with
    | none =>
      simp [finds_congr (get?_merge_none above), not_finds_none above, silent_none above]
    | some value =>
      cases leaf : value.isMapping with
      | false =>
        -- a value of the upper tree cuts off what stands below
        simp [finds_congr (get?_merge_upper above (.inr leaf)), not_silent_of_leaf above leaf]
      | true =>
        obtain ⟨incoming, rfl⟩ := Value.eq_mapping leaf
        by_cases below : ∃ existing, lower.get? key = some (.mapping existing)
        · -- two mappings meet
          obtain ⟨existing, below⟩ := below
          have merged := get?_merge_mapping below above
          cases rest with
          | nil =>
            have silent : ¬ upper.Silent [key] := by simp [silent_single, above]
            rw [finds_single merged, finds_single above]
            exact ⟨fun is => .inl (uniform _ _ is), fun is =>
              is.elim (uniform _ _) fun ⟨_, nothing⟩ => absurd nothing silent⟩
          | cons next rest =>
            rw [finds_mapping merged, finds_mapping below, finds_mapping above,
              silent_mapping above, ofMapping_toMapping]
            exact ih _ _
        · have cut : ∀ entries, lower.get? key ≠ some (.mapping entries) :=
            fun entries found => below ⟨entries, found⟩
          rw [finds_congr (get?_merge_upper above (.inl cut))]
          cases rest with
          | nil => simp [silent_single, above]
          | cons next rest => simp [not_finds_below cut]

theorem leafAt_merge (path : List String) (value : Value) (lower upper : Overrides) :
    (lower.merge upper).LeafAt path value ↔
      upper.LeafAt path value ∨ lower.LeafAt path value ∧ upper.Silent path := by
  simp only [leafAt_iff_finds]
  exact finds_merge (fun _ _ ⟨_, mapping⟩ => nomatch mapping) path lower upper

/-- What stands at a path of the merged tree, be it a value or a mapping, is what the upper tree
has there, or what the lower one has where the upper one is silent. -/
theorem merge_path_law (lower upper : Overrides) (path : List String) :
    (∀ value, (lower.merge upper).LeafAt path value ↔
      upper.LeafAt path value ∨ lower.LeafAt path value ∧ upper.Silent path) ∧
    ((lower.merge upper).MappingAt path ↔
      upper.MappingAt path ∨ lower.MappingAt path ∧ upper.Silent path) := by
  refine ⟨fun value => leafAt_merge path value lower upper, ?_⟩
  simp only [mappingAt_iff_finds]
  exact finds_merge (fun _ other _ => ⟨other, rfl⟩) path lower upper

end Rollout.Overrides
