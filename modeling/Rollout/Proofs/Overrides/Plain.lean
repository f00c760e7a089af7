import Rollout.Proofs.Overrides.LastWord

/-! Trees in which every key is a single step. Expanding changes nothing that stands in them,
and laying one over another keeps them so. -/

set_option autoImplicit false

namespace Rollout.Overrides

open Yaml

/-- Every key on the way through mappings spells itself. -/
inductive Plain : Overrides → Prop where
  | intro {tree : Overrides} :
      (∀ {key : String} {content : Value}, tree.get? key = some content → keyPath key = [key]) →
      (∀ {key : String} {entries : List (Value × Value)},
        tree.get? key = some (.mapping entries) → Plain (ofMapping entries)) → Plain tree

variable {tree lower upper : Overrides} {key : String} {content value : Value}
  {entries : List (Value × Value)} {path : List String}

theorem Plain.keyPath_eq (plain : Plain tree) (found : tree.get? key = some content) :
    keyPath key = [key] := by
  cases plain with
  | intro keys => exact keys found

theorem Plain.inner (plain : Plain tree) (found : tree.get? key = some (.mapping entries)) :
    Plain (ofMapping entries) := by
  cases plain with
  | intro _ inner => exact inner found

theorem Plain.merge (first : Plain lower) (second : Plain upper) : Plain (lower.merge upper) := by
  -- on the tree above, because a mapping of it decides where the merge goes on
  induction second generalizing lower with
  | @intro upper keys inner ih =>
    refine .intro (fun {key content} found => ?_) (fun {key entries} found => ?_)
    · rcases get?_merge_cases found with ⟨-, below⟩ | above | ⟨_, _, -, above, -⟩
      · exact first.keyPath_eq below
      · exact keys above
      · exact keys above
    · rcases get?_merge_cases found with ⟨-, below⟩ | above | ⟨_, _, below, above, same⟩
      · exact first.inner below
      · exact inner above
      · rw [Value.mapping.inj same, ofMapping_toMapping]
        exact ih above (first.inner below)

theorem unflattenEntries_eq_foldl {parts : List (String × Value)}
    (single : ∀ part ∈ parts, keyPath part.1 = [part.1]) (into : Overrides) :
    unflattenEntries into parts = parts.foldl (fun (into : Overrides) part =>
      into.insert part.1 (mergeValue (into.get? part.1) (expand part.2))) into := by
  induction parts generalizing into with
  | nil => rw [unflattenEntries, List.foldl_nil]
  | cons part rest ih =>
    rw [List.forall_mem_cons] at single
    rw [unflattenEntries_cons, strand, single.1, branch, merge_singleton, ih single.2,
      List.foldl_cons]

theorem get?_unflatten_plain
    (single : ∀ key content, tree.get? key = some content → keyPath key = [key]) (key : String) :
    (unflatten tree).get? key = (tree.get? key).map expand := by
  have parts : ∀ part ∈ tree.entries, keyPath part.1 = [part.1] :=
    fun (key, content) member => single key content (Dictionary.mem_entries_iff.mp member)
  rw [unflatten, unflattenEntries_eq_foldl parts,
    Dictionary.get?_foldl_insert (fun place content => mergeValue place (expand content)) key
      tree.entries tree.ascending]
  change (tree.get? key).elim _ _ = _
  cases tree.get? key with
  | none => rfl
  | some content => exact congrArg some (mergeValue_none (expand content))

theorem leafAt_unflatten_plain (plain : Plain tree) :
    (unflatten tree).LeafAt path value ↔ tree.LeafAt path value := by
  induction plain generalizing path with
  | @intro tree keys inner ih =>
    cases path with
    | nil => simp [not_leafAt_nil]
    | cons key rest =>
      have there := get?_unflatten_plain (fun _ _ => keys) key
      cases found : tree.get? key with
      | none =>
        rw [found, Option.map_none] at there
        simp [not_leafAt_none found, not_leafAt_none there]
      | some content =>
        rw [found, Option.map_some] at there
        cases mapping : content.isMapping with
        | false =>
          rw [expand_leaf mapping] at there
          exact leafAt_congr (there.trans found.symm)
        | true =>
          obtain ⟨entries, rfl⟩ := Value.eq_mapping mapping
          have below : (unflatten tree).LeafAt (key :: rest) value ↔ _ := leafAt_mapping there
          rw [below, ofMapping_toMapping, ih found, leafAt_mapping found]

theorem leafAt_unflatten_merge (first : Plain lower) (second : Plain upper)
    (leaf : (unflatten upper).LeafAt path value) :
    (unflatten (lower.merge upper)).LeafAt path value := by
  rw [leafAt_unflatten_plain second] at leaf
  rw [leafAt_unflatten_plain (first.merge second), leafAt_merge]
  exact .inl leaf

end Rollout.Overrides
