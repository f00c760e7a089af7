import Rollout.Proofs.Overrides.Expanding

/-! The dotted flattening of a tree, which has every leaf under a key of its own. Expanding it
gives what expanding the tree itself gives. So a tree without dots comes back. -/

set_option autoImplicit false

namespace Rollout.Overrides

open Yaml

variable {tree : Overrides} {key : String} {path : List String} {value leaf : Value}
  {entries : List (Value × Value)}

/-- Every leaf of a tree under one key, which spells its path. -/
def flatten (tree : Overrides) : Overrides :=
  Dictionary.ofList ((tree.leaves keyPath).map fun leaf => (joined leaf.1, leaf.2))

theorem steps_of_mem_valueLeaves
    (member : (path, leaf) ∈ valueLeaves keyPath value) :
    (∀ step ∈ path, IsStep step) ∧ leaf.isEnd = true := by
  induction value using Value.end_induction generalizing path with
  | ends value ends =>
    rw [valueLeaves_end ends] at member
    cases List.mem_singleton.mp member
    exact ⟨List.forall_mem_nil _, ends⟩
  | inner entry rest ih =>
    rw [valueLeaves] at member
    obtain ⟨key, content, behind, listed, there, rfl⟩ := mem_entryLeaves.mp member
    obtain ⟨steps, ends⟩ := ih _ listed there
    refine ⟨fun step member => ?_, ends⟩
    exact (List.mem_append.mp member).elim isStep_of_mem_keyPath (steps step)

theorem steps_of_mem_leaves (member : (path, leaf) ∈ tree.leaves keyPath) :
    (∀ step ∈ path, IsStep step) ∧ leaf.isEnd = true := by
  have whole : (path, leaf) ∈ valueLeaves keyPath tree.toValue := by
    rwa [valueLeaves_toValue member]
  exact steps_of_mem_valueLeaves whole

theorem get?_flatten_iff (apart : Apart (tree.leaves keyPath)) :
    (flatten tree).get? key = some leaf ↔
      ∃ path, (path, leaf) ∈ tree.leaves keyPath ∧ joined path = key := by
  have distinct : Dictionary.Distinct
      ((tree.leaves keyPath).map fun leaf => (joined leaf.1, leaf.2)) := by
    intro one here other there same
    obtain ⟨first, firstMember, rfl⟩ := List.mem_map.mp here
    obtain ⟨second, secondMember, rfl⟩ := List.mem_map.mp there
    -- the paths can be read from the keys
    have paths : first.1 = second.1 := by
      rw [← keyPath_joined (steps_of_mem_leaves firstMember).1,
        ← keyPath_joined (steps_of_mem_leaves secondMember).1]
      exact congrArg keyPath same
    rw [apart first firstMember second secondMember (paths ▸ List.prefix_rfl)]
  rw [flatten, Dictionary.get?_ofList_iff distinct]
  simp only [List.mem_map, Prod.mk.injEq, Prod.exists]
  constructor
  · rintro ⟨path, _, member, same, rfl⟩
    exact ⟨path, member, same⟩
  · rintro ⟨path, member, same⟩
    exact ⟨path, leaf, member, same, rfl⟩

theorem mem_leaves_flatten (apart : Apart (tree.leaves keyPath)) (leaf : List String × Value) :
    leaf ∈ (flatten tree).leaves keyPath ↔ leaf ∈ tree.leaves keyPath := by
  obtain ⟨path, leaf⟩ := leaf
  rw [mem_leaves]
  constructor
  · rintro ⟨key, content, rest, found, there, rfl⟩
    obtain ⟨taken, member, rfl⟩ := (get?_flatten_iff apart).mp found
    obtain ⟨steps, ends⟩ := steps_of_mem_leaves member
    rw [valueLeaves_end ends] at there
    cases List.mem_singleton.mp there
    rwa [keyPath_joined steps, List.append_nil]
  · intro member
    obtain ⟨steps, ends⟩ := steps_of_mem_leaves member
    refine ⟨joined path, leaf, [], (get?_flatten_iff apart).mpr ⟨path, member, rfl⟩, ?_, ?_⟩
    · simp [valueLeaves_end ends]
    · rw [keyPath_joined steps, List.append_nil]

theorem Legible.path_ne_nil (legible : Legible tree)
    (member : (path, leaf) ∈ tree.leaves keyPath) : path ≠ [] := by
  obtain ⟨key, content, rest, found, -, rfl⟩ := mem_leaves.mp member
  exact List.append_ne_nil_of_left_ne_nil (legible_iff.mp legible key content found).1 rest

theorem Legible.flatten (legible : Legible tree) (apart : Apart (tree.leaves keyPath)) :
    Legible (flatten tree) := by
  refine legible_iff.mpr fun key content found => ?_
  obtain ⟨path, member, rfl⟩ := (get?_flatten_iff apart).mp found
  obtain ⟨steps, ends⟩ := steps_of_mem_leaves member
  rw [keyPath_joined steps]
  exact ⟨legible.path_ne_nil member, throughout_end ⟨List.forall_mem_nil _, .nil⟩ ends⟩

theorem unflatten_flatten (legible : Legible tree) (apart : Apart (tree.leaves keyPath)) :
    unflatten (Overrides.flatten tree) = unflatten tree := by
  have same := mem_leaves_flatten apart
  refine (normal_unflatten _).eq_of_leaves (normal_unflatten tree) fun leaf => ?_
  rw [mem_leaves_unflatten (legible.flatten apart) (apart.subset fun leaf => (same leaf).mp),
    mem_leaves_unflatten legible apart, same]

/-! ## Trees without dots -/

/-- Keys of different texts that are steps of paths, in any order. -/
abbrev Stepwise : List (Value × Value) → Prop :=
  Keyed IsTextStep fun one other => keyText one ≠ keyText other

def Nested (tree : Overrides) : Prop :=
  Throughout Stepwise tree.toValue

instance (tree : Overrides) : Decidable (Nested tree) :=
  inferInstanceAs (Decidable (Throughout Stepwise tree.toValue))

theorem Nested.legible (nested : Nested tree) : Legible tree := by
  refine nested.mono fun entries stepwise => ⟨fun entry member => ?_, stepwise.ordered⟩
  obtain ⟨key, text, step⟩ := stepwise.keys entry member
  rw [text, keyText, keyPath_of_isStep step]
  exact List.cons_ne_nil _ _

theorem Normal.nested (normal : Normal tree) : Nested tree := by
  refine normal.mono fun entries tidy => ⟨tidy.keys, tidy.ordered.imp fun less same => ?_⟩
  exact List.lt_irrefl _ (same ▸ less)

theorem mem_entryLeaves_stepwise (stepwise : Throughout Stepwise (.mapping entries))
    (inner : ∀ entry ∈ entries, ∀ path, (path, leaf) ∈ valueLeaves keyPath entry.2 ↔
      (path, leaf) ∈ valueLeaves List.singleton entry.2) (path : List String) :
    (path, leaf) ∈ entryLeaves keyPath entries ↔
      (path, leaf) ∈ entryLeaves List.singleton entries := by
  rw [mem_entryLeaves, mem_entryLeaves]
  refine exists_congr fun spelled => exists_congr fun content => exists_congr fun rest =>
    and_congr_right fun member => ?_
  obtain ⟨key, rfl, step⟩ := (throughout_mapping.mp stepwise).1.keys _ member
  rw [inner _ member, keyText, keyPath_of_isStep step, List.singleton]

theorem mem_valueLeaves_stepwise (stepwise : Throughout Stepwise value) (path : List String) :
    (path, leaf) ∈ valueLeaves keyPath value ↔ (path, leaf) ∈ valueLeaves List.singleton value := by
  induction value using Value.end_induction generalizing path with
  | ends value ends => rw [valueLeaves_end ends, valueLeaves_end ends]
  | inner entry rest ih =>
    refine mem_entryLeaves_stepwise stepwise (fun part member => ?_) path
    exact ih part member ((throughout_mapping.mp stepwise).2 part member)

theorem Nested.mem_leaves (nested : Nested tree) (leaf : List String × Value) :
    leaf ∈ tree.leaves keyPath ↔ leaf ∈ tree.leaves List.singleton :=
  mem_entryLeaves_stepwise nested (fun entry member =>
    mem_valueLeaves_stepwise ((throughout_mapping.mp nested).2 entry member)) leaf.1

theorem apart_entryLeaves (stepwise : Throughout Stepwise (.mapping entries))
    (inner : ∀ entry ∈ entries, Apart (valueLeaves keyPath entry.2)) :
    Apart (entryLeaves keyPath entries) := by
  have keyed := (throughout_mapping.mp stepwise).1
  rintro ⟨_, one⟩ here ⟨_, other⟩ there ahead
  obtain ⟨first, content, front, firstMember, firstThere, rfl⟩ := mem_entryLeaves.mp here
  obtain ⟨second, found, behind, secondMember, secondThere, rfl⟩ := mem_entryLeaves.mp there
  obtain ⟨key, rfl, step⟩ := keyed.keys _ firstMember
  obtain ⟨next, rfl, nextStep⟩ := keyed.keys _ secondMember
  simp only [keyText, keyPath_of_isStep step, keyPath_of_isStep nextStep, List.cons_append,
    List.nil_append, List.cons_prefix_cons] at ahead ⊢
  obtain ⟨rfl, ahead⟩ := ahead
  -- one key, one content
  have same : some content = some found := by
    rw [← (get?_ofMapping_iff keyed.ordered).mpr ⟨_, firstMember, rfl⟩,
      ← (get?_ofMapping_iff keyed.ordered).mpr ⟨_, secondMember, rfl⟩]
  cases same
  cases inner _ firstMember _ firstThere _ secondThere ahead
  rfl

theorem apart_valueLeaves (stepwise : Throughout Stepwise value) :
    Apart (valueLeaves keyPath value) := by
  induction value using Value.end_induction with
  | ends value ends => simp [Apart, valueLeaves_end ends]
  | inner entry rest ih =>
    refine apart_entryLeaves stepwise fun part member => ?_
    exact ih part member ((throughout_mapping.mp stepwise).2 part member)

theorem Nested.apart (nested : Nested tree) : Apart (tree.leaves keyPath) :=
  apart_entryLeaves nested fun entry member =>
    apart_valueLeaves ((throughout_mapping.mp nested).2 entry member)

/-- Expanding the keys of a tree in which no leaf is in the way of another keeps all its leaves,
at the paths that its keys spell, and adds none. So a tree without dots has the same leaves after
it has been flattened and expanded, and is the same where its mappings are in order. -/
theorem unflatten_keeps_leaves (tree : Overrides) :
    (Legible tree → Apart (tree.leaves keyPath) → ∀ leaf,
      leaf ∈ (unflatten tree).leaves List.singleton ↔ leaf ∈ tree.leaves keyPath) ∧
    (Nested tree → ∀ leaf, leaf ∈ (unflatten (flatten tree)).leaves List.singleton ↔
      leaf ∈ tree.leaves List.singleton) ∧
    (Normal tree → unflatten (flatten tree) = tree) := by
  refine ⟨fun legible apart => mem_leaves_unflatten legible apart, fun nested leaf => ?nested,
    fun normal => ?normal⟩
  case nested =>
    rw [unflatten_flatten nested.legible nested.apart,
      mem_leaves_unflatten nested.legible nested.apart, nested.mem_leaves]
  case normal =>
    have nested := normal.nested
    rw [unflatten_flatten nested.legible nested.apart, normal.unflatten_eq]

/-! ## A tree of mixed spelling, and what it is without dots -/

def mixed : Overrides :=
  Dictionary.ofList [
    ("a", .mapping [(.text "b.c", .int 1), (.int 2, .sequence [.mapping [(.text "x.y", .null)]])]),
    ("a-b", .mapping []),
    ("a.d", .text "two")]

def shuffled : Overrides :=
  Dictionary.ofList [("a", .mapping [(.text "d", .text "two"), (.text "b", .mapping [])])]

def ordered : Overrides :=
  Dictionary.ofList [("a", .mapping [(.text "b", .mapping []), (.text "d", .text "two")])]

theorem leaves_mixed : mixed.leaves keyPath =
    [(["a", "b", "c"], .int 1), (["a", "2"], .sequence [.mapping [(.text "x.y", .null)]]),
      (["a-b"], .mapping []), (["a", "d"], .text "two")] := rfl

theorem apart_mixed : Apart (mixed.leaves keyPath) := by
  rw [leaves_mixed]
  simp [Apart]

theorem unflatten_keeps_leaves_mixed :
    Legible mixed ∧ Apart (mixed.leaves keyPath) ∧
    (["a", "2"], .sequence [.mapping [(.text "x.y", .null)]]) ∈
      (unflatten mixed).leaves List.singleton ∧
    Nested shuffled ∧
    (["a", "b"], .mapping []) ∈ (unflatten (flatten shuffled)).leaves List.singleton ∧
    Normal ordered ∧ unflatten (flatten ordered) = ordered := by
  have legible : Legible mixed := by decide +kernel
  have nested : Nested shuffled := by decide +kernel
  have normal : Normal ordered := by decide +kernel
  refine ⟨legible, apart_mixed, ?mixed, nested, ?shuffled, normal,
    (unflatten_keeps_leaves ordered).2.2 normal⟩
  case mixed =>
    refine ((unflatten_keeps_leaves mixed).1 legible apart_mixed _).mpr ?_
    simp [leaves_mixed]
  case shuffled =>
    refine ((unflatten_keeps_leaves shuffled).2.1 nested _).mpr ?_
    have leaves : shuffled.leaves List.singleton =
        [(["a", "d"], .text "two"), (["a", "b"], .mapping [])] := rfl
    simp [leaves]

end Rollout.Overrides
