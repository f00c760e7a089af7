import Rollout.Proofs.Overrides.Normal

/-! The leaves of a tree with the paths that lead to them. A normal tree is known by its leaves,
and two that do not stand in each other's way can be merged leaf by leaf. -/

set_option autoImplicit false

namespace Rollout

open Yaml

/-- A value at which paths end: no mapping, or one without entries. -/
def Yaml.Value.isEnd : Value → Bool
  | .mapping (_ :: _) => false
  | _ => true

theorem Yaml.Value.eq_inner {value : Value} (inner : value.isEnd = false) :
    ∃ entry rest, value = .mapping (entry :: rest) := by
  cases value with
  | mapping entries =>
    cases entries with
    | nil => cases inner
    | cons entry rest => exact ⟨entry, rest, rfl⟩
  | _ => cases inner

theorem Yaml.Value.leaf_or_empty {value : Value} (ends : value.isEnd = true) :
    value.isMapping = false ∨ value = .mapping [] := by
  cases value with
  | mapping entries =>
    cases entries with
    | nil => exact .inr rfl
    | cons entry rest => cases ends
  | _ => exact .inl rfl

/-- As `mapping_induction`, with the mappings that have no entries among the ends. -/
@[elab_as_elim]
theorem Yaml.Value.end_induction {motive : Value → Prop}
    (ends : ∀ value : Value, value.isEnd = true → motive value)
    (inner : ∀ entry rest, (∀ part ∈ entry :: rest, motive part.2) →
      motive (.mapping (entry :: rest))) (value : Value) : motive value := by
  induction value using Value.mapping_induction with
  | leaf value leaf =>
    refine ends value ?_
    cases value with
    | mapping entries => cases leaf
    | _ => rfl
  | mapping entries ih =>
    cases entries with
    | nil => exact ends (.mapping []) rfl
    | cons entry rest => exact inner entry rest ih

namespace Overrides

mutual

/-- The leaves of a value, each at the end of a path. What a key adds to the path is given. -/
def valueLeaves (steps : String → List String) : Value → List (List String × Value)
  | .mapping (entry :: rest) => entryLeaves steps (entry :: rest)
  | value => [([], value)]

def entryLeaves (steps : String → List String) :
    List (Value × Value) → List (List String × Value)
  | [] => []
  | (key, content) :: rest =>
    (valueLeaves steps content).map (fun leaf => (steps (keyText key) ++ leaf.1, leaf.2)) ++
      entryLeaves steps rest

end

def leaves (steps : String → List String) (tree : Overrides) : List (List String × Value) :=
  entryLeaves steps tree.toMapping

/-- Of two leaves neither lies on the path to the other. -/
def Apart (leaves : List (List String × Value)) : Prop :=
  ∀ one ∈ leaves, ∀ other ∈ leaves, one.1 <+: other.1 → one = other

variable {steps : String → List String} {tree lower upper : Overrides} {key : String}
  {path rest : List String} {value leaf : Value} {entries : List (Value × Value)}

theorem valueLeaves_end (ends : value.isEnd = true) : valueLeaves steps value = [([], value)] := by
  cases value with
  | mapping entries =>
    cases entries with
    | nil => rfl
    | cons entry rest => cases ends
  | _ => rfl

theorem throughout_end {ok : List (Value × Value) → Prop} (none : ok [])
    (ends : value.isEnd = true) : Throughout ok value := by
  rcases Value.leaf_or_empty ends with leaf | rfl
  · exact throughout_leaf leaf
  · exact throughout_mapping.mpr ⟨none, List.forall_mem_nil _⟩

theorem mem_entryLeaves : (path, leaf) ∈ entryLeaves steps entries ↔
    ∃ key content rest, (key, content) ∈ entries ∧ (rest, leaf) ∈ valueLeaves steps content ∧
      path = steps (keyText key) ++ rest := by
  induction entries with
  | nil => simp [entryLeaves]
  | cons entry others ih =>
    obtain ⟨key, content⟩ := entry
    rw [entryLeaves, List.mem_append, ih]
    constructor
    · rintro (here | ⟨other, content, rest, member, there, split⟩)
      · obtain ⟨_, there, same⟩ := List.mem_map.mp here
        cases same
        exact ⟨key, content, _, List.mem_cons_self, there, rfl⟩
      · exact ⟨other, content, rest, List.mem_cons_of_mem _ member, there, split⟩
    · rintro ⟨other, content, rest, member, there, rfl⟩
      rcases List.mem_cons.mp member with same | later
      · cases same
        exact .inl (List.mem_map.mpr ⟨(rest, leaf), there, rfl⟩)
      · exact .inr ⟨other, content, rest, later, there, rfl⟩

theorem mem_leaves : (path, leaf) ∈ tree.leaves steps ↔
    ∃ key content rest, tree.get? key = some content ∧ (rest, leaf) ∈ valueLeaves steps content ∧
      path = steps key ++ rest := by
  rw [leaves, mem_entryLeaves]
  constructor
  · rintro ⟨spelled, content, rest, member, there, split⟩
    obtain ⟨key, rfl, found⟩ := mem_toMapping.mp member
    exact ⟨key, content, rest, found, there, split⟩
  · rintro ⟨key, content, rest, found, there, split⟩
    exact ⟨.text key, content, rest, mem_toMapping.mpr ⟨key, rfl, found⟩, there, split⟩

@[simp] theorem leaves_empty : (∅ : Overrides).leaves steps = [] := rfl

theorem exists_leaf (steps : String → List String) (value : Value) :
    ∃ leaf, leaf ∈ valueLeaves steps value := by
  induction value using Value.end_induction with
  | ends value ends => exact ⟨([], value), by simp [valueLeaves_end ends]⟩
  | inner entry rest ih =>
    obtain ⟨leaf, member⟩ := ih entry List.mem_cons_self
    refine ⟨(steps (keyText entry.1) ++ leaf.1, leaf.2), ?_⟩
    rw [valueLeaves, mem_entryLeaves]
    exact ⟨entry.1, entry.2, leaf.1, List.mem_cons_self, member, rfl⟩

theorem valueLeaves_toValue (member : (path, leaf) ∈ tree.leaves steps) :
    valueLeaves steps tree.toValue = tree.leaves steps := by
  obtain ⟨key, content, -, found, -⟩ := mem_leaves.mp member
  have entry : (.text key, content) ∈ tree.toMapping := mem_toMapping.mpr ⟨key, rfl, found⟩
  rw [toValue, leaves]
  cases listed : tree.toMapping with
  | nil => rw [listed] at entry; cases entry
  | cons first others => rw [valueLeaves]

/-! ## Keys as single steps -/

theorem not_mem_leaves_nil : ([], leaf) ∉ tree.leaves List.singleton := by
  intro member
  obtain ⟨_, _, _, _, _, split⟩ := mem_leaves.mp member
  cases split

theorem mem_leaves_cons : (key :: rest, leaf) ∈ tree.leaves List.singleton ↔
    ∃ content, tree.get? key = some content ∧
      (rest, leaf) ∈ valueLeaves List.singleton content := by
  rw [mem_leaves]
  constructor
  · rintro ⟨_, content, _, found, there, split⟩
    cases split
    exact ⟨content, found, there⟩
  · rintro ⟨content, found, there⟩
    exact ⟨key, content, rest, found, there, rfl⟩

-- What is no end is a mapping with entries, and a normal one is that of a normal tree.
theorem exists_below (tidy : Throughout Tidy value) (inner : value.isEnd = false) :
    ∃ below : Overrides, value = below.toValue ∧ Normal below ∧
      valueLeaves List.singleton value = below.leaves List.singleton := by
  obtain ⟨entry, rest, rfl⟩ := Value.eq_inner inner
  obtain ⟨below, same, normal⟩ := throughout_tidy_mapping.mp tidy
  refine ⟨below, congrArg Value.mapping same, normal, ?_⟩
  rw [leaves, ← same, valueLeaves]

theorem isEnd_of_nil_mem (tidy : Throughout Tidy value)
    (member : ([], leaf) ∈ valueLeaves List.singleton value) :
    value.isEnd = true ∧ leaf = value := by
  cases ends : value.isEnd with
  | true =>
    rw [valueLeaves_end ends] at member
    cases List.mem_singleton.mp member
    exact ⟨rfl, rfl⟩
  | false =>
    obtain ⟨below, -, -, same⟩ := exists_below tidy ends
    rw [same] at member
    exact absurd member not_mem_leaves_nil

/-! ## Normal trees by their leaves -/

theorem eq_of_valueLeaves {one other : Value} (first : Throughout Tidy one)
    (second : Throughout Tidy other)
    (same : ∀ leaf, leaf ∈ valueLeaves List.singleton one ↔ leaf ∈ valueLeaves List.singleton other)
    (inner : ∀ lower upper, one = toValue lower → other = toValue upper → Normal lower →
      Normal upper → (∀ leaf, leaf ∈ lower.leaves List.singleton ↔
        leaf ∈ upper.leaves List.singleton) → lower = upper) : one = other := by
  cases ends : one.isEnd with
  | true =>
    have here : ([], one) ∈ valueLeaves List.singleton one := by simp [valueLeaves_end ends]
    exact (isEnd_of_nil_mem second ((same _).mp here)).2
  | false =>
    cases otherEnds : other.isEnd with
    | true =>
      have here : ([], other) ∈ valueLeaves List.singleton other := by
        simp [valueLeaves_end otherEnds]
      exact (isEnd_of_nil_mem first ((same _).mpr here)).2.symm
    | false =>
      obtain ⟨lower, below, firstNormal, firstLeaves⟩ := exists_below first ends
      obtain ⟨upper, above, secondNormal, secondLeaves⟩ := exists_below second otherEnds
      rw [firstLeaves, secondLeaves] at same
      rw [below, above, inner lower upper below above firstNormal secondNormal same]

theorem Normal.eq_of_leaves (first : Normal lower) (second : Normal upper)
    (same : ∀ leaf, leaf ∈ lower.leaves List.singleton ↔ leaf ∈ upper.leaves List.singleton) :
    lower = upper := by
  induction lower using below_induction generalizing upper with
  | above lower ih =>
    refine Dictionary.eq_of_get? fun key => ?_
    have under (rest : List String) (leaf : Value) :
        (∃ content, lower.get? key = some content ∧
          (rest, leaf) ∈ valueLeaves List.singleton content) ↔
        ∃ content, upper.get? key = some content ∧
          (rest, leaf) ∈ valueLeaves List.singleton content := by
      rw [← mem_leaves_cons, ← mem_leaves_cons]
      exact same (key :: rest, leaf)
    cases below : lower.get? key with
    | none =>
      cases above : upper.get? key with
      | none => rfl
      | some content =>
        obtain ⟨leaf, member⟩ := exists_leaf List.singleton content
        obtain ⟨_, found, -⟩ := (under leaf.1 leaf.2).mpr ⟨content, above, member⟩
        cases below.symm.trans found
    | some one =>
      cases above : upper.get? key with
      | none =>
        obtain ⟨leaf, member⟩ := exists_leaf List.singleton one
        obtain ⟨_, found, -⟩ := (under leaf.1 leaf.2).mp ⟨one, below, member⟩
        cases above.symm.trans found
      | some other =>
        refine congrArg some (eq_of_valueLeaves (normal_iff.mp first key one below).2
          (normal_iff.mp second key other above).2 (fun leaf => ?_) ?_)
        · simpa [below, above] using under leaf.1 leaf.2
        · rintro low up rfl rfl lowNormal upNormal alike
          exact ih key low below lowNormal upNormal alike

/-! ## Merging leaf by leaf -/

theorem Apart.under {one other : List (List String × Value)} (apart : Apart other)
    (front : List String) (within : ∀ leaf ∈ one, (front ++ leaf.1, leaf.2) ∈ other) :
    Apart one := by
  intro first here second there ahead
  have longer : front ++ first.1 <+: front ++ second.1 := by simpa using ahead
  have same := apart _ (within first here) _ (within second there) longer
  simp only [Prod.mk.injEq, List.append_cancel_left_eq] at same
  exact Prod.ext same.1 same.2

theorem Apart.subset {one other : List (List String × Value)} (apart : Apart other)
    (within : ∀ leaf ∈ one, leaf ∈ other) : Apart one :=
  fun first here second there => apart first (within first here) second (within second there)

-- Where a path ends at once there is nothing else.
theorem eq_of_apart_end {one other : Value} (tidy : Throughout Tidy one)
    (apart : Apart (valueLeaves List.singleton one ++ valueLeaves List.singleton other))
    (ends : other.isEnd = true) : one = other := by
  rw [valueLeaves_end ends] at apart
  obtain ⟨leaf, member⟩ := exists_leaf List.singleton one
  have same := apart ([], other) (by simp) leaf (by simp [member]) List.nil_prefix
  exact (isEnd_of_nil_mem tidy (same ▸ member)).2.symm

theorem mergeValue_end (ends : value.isEnd = true) : mergeValue (some value) value = value := by
  rcases Value.leaf_or_empty ends with leaf | rfl
  · exact mergeValue_upper (.inr leaf)
  · exact (mergeValue_toValue ∅ ∅).trans (congrArg toValue (merge_empty ∅))

theorem mem_valueLeaves_merge {below above : Value} (first : Throughout Tidy below)
    (second : Throughout Tidy above)
    (apart : Apart (valueLeaves List.singleton below ++ valueLeaves List.singleton above))
    (inner : ∀ lower upper, below = toValue lower → above = toValue upper →
      Normal lower → Normal upper →
      Apart (lower.leaves List.singleton ++ upper.leaves List.singleton) →
      ∀ leaf, leaf ∈ (lower.merge upper).leaves List.singleton ↔
        leaf ∈ lower.leaves List.singleton ∨ leaf ∈ upper.leaves List.singleton)
    (leaf : List String × Value) :
    leaf ∈ valueLeaves List.singleton (mergeValue (some below) above) ↔
      leaf ∈ valueLeaves List.singleton below ∨ leaf ∈ valueLeaves List.singleton above := by
  cases ends : above.isEnd with
  | true =>
    cases eq_of_apart_end first apart ends
    rw [mergeValue_end ends, or_self]
  | false =>
    cases belowEnds : below.isEnd with
    | true =>
      have swapped : Apart (valueLeaves List.singleton above ++ valueLeaves List.singleton below) :=
        apart.subset fun leaf member => by simpa [or_comm] using member
      cases eq_of_apart_end second swapped belowEnds
      cases ends.symm.trans belowEnds
    | false =>
      obtain ⟨lower, rfl, firstNormal, firstLeaves⟩ := exists_below first belowEnds
      obtain ⟨upper, rfl, secondNormal, secondLeaves⟩ := exists_below second ends
      rw [firstLeaves, secondLeaves] at apart ⊢
      have merged := inner lower upper rfl rfl firstNormal secondNormal apart
      -- some leaf of either shows that the merged mapping has entries
      obtain ⟨shown, there⟩ := exists_leaf List.singleton upper.toValue
      rw [secondLeaves] at there
      rw [mergeValue_toValue, valueLeaves_toValue ((merged shown).mpr (.inr there))]
      exact merged leaf

theorem mem_leaves_merge (first : Normal lower) (second : Normal upper)
    (apart : Apart (lower.leaves List.singleton ++ upper.leaves List.singleton))
    (leaf : List String × Value) :
    leaf ∈ (lower.merge upper).leaves List.singleton ↔
      leaf ∈ lower.leaves List.singleton ∨ leaf ∈ upper.leaves List.singleton := by
  induction upper using below_induction generalizing lower leaf with
  | above upper ih =>
    obtain ⟨path, leaf⟩ := leaf
    rcases path with _ | ⟨key, rest⟩
    · simp only [not_mem_leaves_nil, or_self]
    rw [mem_leaves_cons, mem_leaves_cons, mem_leaves_cons, get?_merge]
    cases above : upper.get? key with
    | none => simp
    | some content =>
      cases below : lower.get? key with
      | none => simp
      | some existing =>
        have inner : Apart (valueLeaves List.singleton existing ++
            valueLeaves List.singleton content) := by
          refine apart.under [key] fun (path, leaf) member => ?_
          rcases List.mem_append.mp member with low | up
          · exact List.mem_append_left _ (mem_leaves_cons.mpr ⟨existing, below, low⟩)
          · exact List.mem_append_right _ (mem_leaves_cons.mpr ⟨content, above, up⟩)
        have merged := mem_valueLeaves_merge (normal_iff.mp first key existing below).2
          (normal_iff.mp second key content above).2 inner
          (fun low up _ same lowNormal upNormal apart leaf =>
            ih key up (same ▸ above) lowNormal upNormal apart leaf) (rest, leaf)
        simpa using merged

end Overrides

end Rollout
