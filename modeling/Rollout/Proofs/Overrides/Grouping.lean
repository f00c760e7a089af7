import Rollout.Proofs.Overrides.MergeLaw

/-! Three trees laid over each other. The upper two can be merged first, unless the middle one cuts
off a mapping of the lowest tree in which the topmost one goes on: then what was cut off would be
there again. -/

set_option autoImplicit false

namespace Rollout.Overrides

open Yaml

variable {lower middle upper : Overrides} {key : String} {path : List String}
  {existing between incoming : List (Value × Value)}

/-- A value of the middle tree stands where the trees below and above it have mappings. -/
def Cuts (lower middle upper : Overrides) (path : List String) : Prop :=
  lower.MappingAt path ∧ upper.MappingAt path ∧ ∃ value, middle.LeafAt path value

theorem Cuts.outward (below : lower.get? key = some (.mapping existing))
    (there : middle.get? key = some (.mapping between))
    (above : upper.get? key = some (.mapping incoming))
    (cut : Cuts (ofMapping existing) (ofMapping between) (ofMapping incoming) path) :
    Cuts lower middle upper (key :: path) := by
  obtain ⟨first, last, value, leaf⟩ := cut
  cases path with
  | nil => exact absurd first not_mappingAt_nil
  | cons next rest =>
    exact ⟨(mappingAt_mapping below).mpr first, (mappingAt_mapping above).mpr last, value,
      (leafAt_mapping there).mpr leaf⟩

-- Under a key at which the upper tree has a mapping. Only where the lower one has a mapping too
-- does the middle one matter: a value would be a cut, a mapping makes three that meet.
theorem mergeValue_regroups (above : upper.get? key = some (.mapping incoming))
    (uncut : ¬ Cuts lower middle upper [key])
    (meet : ∀ existing between, lower.get? key = some (.mapping existing) →
      middle.get? key = some (.mapping between) →
      ((ofMapping existing).merge (ofMapping between)).merge (ofMapping incoming) =
        (ofMapping existing).merge ((ofMapping between).merge (ofMapping incoming))) :
    mergeValue ((lower.merge middle).get? key) (.mapping incoming) =
      mergeValue (lower.get? key) (mergeValue (middle.get? key) (.mapping incoming)) := by
  cases there : middle.get? key with
  | none => rw [get?_merge_none there, mergeValue_none]
  | some value =>
    by_cases mapped : ∃ existing, lower.get? key = some (.mapping existing)
    · obtain ⟨existing, below⟩ := mapped
      cases leaf : value.isMapping with
      | false =>
        exact absurd ⟨⟨existing, below⟩, ⟨incoming, above⟩, value, there, leaf⟩ uncut
      | true =>
        obtain ⟨between, rfl⟩ := Value.eq_mapping leaf
        rw [get?_merge_mapping below there, below, mergeValue_mapping, mergeValue_mapping, toValue,
          toValue, mergeValue_mapping, ofMapping_toMapping, ofMapping_toMapping,
          meet existing between below there, toValue]
    · have apart : ∀ entries, lower.get? key ≠ some (.mapping entries) :=
        fun entries found => mapped ⟨entries, found⟩
      rw [get?_merge_upper there (.inl apart), there, mergeValue_upper (.inl apart)]

/-- Layers can be merged in either grouping where the middle one cuts nothing off. -/
theorem merge_regroups (lower middle upper : Overrides)
    (uncut : ∀ path, ¬ Cuts lower middle upper path) :
    (lower.merge middle).merge upper = lower.merge (middle.merge upper) := by
  induction upper using inner_induction generalizing lower middle with
  | above upper ih =>
    refine Dictionary.eq_of_get? fun key => ?_
    rw [get?_merge, get?_merge lower (middle.merge upper)]
    cases above : upper.get? key with
    | none => rw [get?_merge_none above, Option.elim_none, get?_merge]
    | some value =>
      rw [get?_merge middle upper, above, Option.elim_some, Option.elim_some, Option.elim_some]
      refine congrArg some ?_
      cases leaf : value.isMapping with
      | false => simp only [mergeValue_upper (.inr leaf)]
      | true =>
        obtain ⟨incoming, rfl⟩ := Value.eq_mapping leaf
        refine mergeValue_regroups above (uncut [key]) fun existing between below there => ?_
        exact ih key incoming above _ _ fun path cut => uncut _ (cut.outward below there above)

/-! ## Three layers of one section -/

def oldest : Overrides :=
  Dictionary.singleton "image" (.mapping [(.int 2, .text "old")])

def newer : Overrides :=
  Dictionary.singleton "image"
    (.mapping [(.text "tag", .null),
      (.text "2", .mapping [(.text "z", .null), (.text "a", .null)])])

def newest : Overrides :=
  Dictionary.singleton "image"
    (.mapping [(.text "tag", .mapping [(.text "x", .null)]),
      (.text "2", .mapping [(.int 0, .null)])])

theorem mappingAt_oldest (there : oldest.MappingAt path) : path = ["image"] := by
  rcases path with _ | ⟨key, _ | ⟨next, rest⟩⟩
  · exact absurd there not_mappingAt_nil
  · obtain ⟨entries, found⟩ := there
    rw [(Dictionary.get?_singleton_iff.mp found).1]
  · by_cases same : key = "image"
    · subst same
      have found : oldest.get? "image" = some (.mapping [(.int 2, .text "old")]) :=
        Dictionary.get?_singleton_iff.mpr ⟨rfl, rfl⟩
      rw [mappingAt_mapping found] at there
      refine absurd there (not_mappingAt_cut fun entries below => ?_)
      have below : (Dictionary.singleton "2" (Value.text "old")).get? next = _ := below
      cases (Dictionary.get?_singleton_iff.mp below).2
    · refine absurd there (not_mappingAt_cut fun entries found => ?_)
      exact same (Dictionary.get?_singleton_iff.mp found).1

/-- What the newer two come to under the key that all three have. -/
def upperTwo : Overrides :=
  ofMapping [
    (.text "2", .mapping [(.text "0", .null), (.text "a", .null), (.text "z", .null)]),
    (.text "tag", .mapping [(.text "x", .null)])]

theorem merge_numbered : (ofMapping [(.text "z", .null), (.text "a", .null)]).merge
    (ofMapping [(.int 0, .null)]) =
      ofMapping [(.text "0", .null), (.text "a", .null), (.text "z", .null)] := by
  have single : ofMapping [(.int 0, .null)] = Dictionary.singleton "0" .null := rfl
  rw [single, merge_singleton, mergeValue_upper (.inr rfl)]
  rfl

-- Two mappings meet under the number, and a mapping takes the place of a value under the tag.
theorem merge_newer_newest :
    newer.merge newest = Dictionary.singleton "image" upperTwo.toValue := by
  have inner : (ofMapping [(.text "tag", .null),
        (.text "2", .mapping [(.text "z", .null), (.text "a", .null)])]).merge
      (ofMapping [(.text "tag", .mapping [(.text "x", .null)]),
        (.text "2", .mapping [(.int 0, .null)])]) = upperTwo := by
    refine Dictionary.eq_of_get? fun key => ?_
    rw [get?_merge]
    by_cases number : key = "2"
    · subst number
      exact congrArg some ((mergeValue_mapping _ _).trans (congrArg toValue merge_numbered))
    · by_cases tag : key = "tag"
      · subst tag
        exact congrArg some (mergeValue_upper (.inl nofun))
      · simp [upperTwo, ofMapping, Dictionary.ofList, keyText, number, tag]
  have under : newer.get? "image" = _ := Dictionary.get?_singleton_iff.mpr ⟨rfl, rfl⟩
  rw [newest, merge_singleton, under, mergeValue_mapping, inner]
  rfl

theorem merge_oldest : oldest.merge (Dictionary.singleton "image" upperTwo.toValue) =
    Dictionary.singleton "image" upperTwo.toValue := by
  have inner : (ofMapping [(.int 2, .text "old")]).merge upperTwo = upperTwo := by
    refine Dictionary.eq_of_get? fun key => ?_
    rw [get?_merge]
    by_cases number : key = "2"
    · subst number
      exact congrArg some (mergeValue_upper (.inl nofun))
    · have nothing : (ofMapping [(.int 2, .text "old")]).get? key = none :=
        (Dictionary.get?_singleton "2" key _).trans (if_neg number)
      rw [nothing]
      cases upperTwo.get? key with
      | none => rfl
      | some value => exact congrArg some (mergeValue_none value)
  have under : oldest.get? "image" = _ := Dictionary.get?_singleton_iff.mpr ⟨rfl, rfl⟩
  rw [merge_singleton, under, toValue, mergeValue_mapping, ofMapping_toMapping, inner]
  rfl

/-- The keys of the mappings that meet are texts afterwards, whichever two are merged first. -/
theorem merge_regroups_layers : (∀ path, ¬ Cuts oldest newer newest path) ∧
    (oldest.merge newer).merge newest = oldest.merge (newer.merge newest) ∧
    oldest.merge (newer.merge newest) = Dictionary.singleton "image" (.mapping [
      (.text "2", .mapping [(.text "0", .null), (.text "a", .null), (.text "z", .null)]),
      (.text "tag", .mapping [(.text "x", .null)])]) := by
  have uncut : ∀ path, ¬ Cuts oldest newer newest path := by
    rintro path ⟨there, -, value, leaf⟩
    cases mappingAt_oldest there
    cases leaf.1
    cases leaf.2
  refine ⟨uncut, merge_regroups oldest newer newest uncut, ?_⟩
  rw [merge_newer_newest, merge_oldest]
  rfl

end Rollout.Overrides
