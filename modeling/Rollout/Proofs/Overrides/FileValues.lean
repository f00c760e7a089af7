import Rollout.Proofs.Overrides.Layers
import Rollout.Proofs.Overrides.Normal
import Rollout.Proofs.Overrides.Reading

/-! Whether the values of a file stand against those that are given with it. They do where no
key has dots in it; otherwise the order of the keys decides, whichever source a key is from. -/

set_option autoImplicit false

namespace Rollout

open Yaml Overrides

namespace OverridesSource

variable {inline current : OverridesFile} {next : OverridesSource} {directory : Directory}
  {path : String}

/-- A value in the file stands in what a component gets just where it is the last word of both
sources, merged by their keys as these are spelled; a global value may say the same where the
section is silent. -/
theorem file_value_stands_iff
    (read : (layered inline (some path) current).read directory = .ok next) :
    ∃ file, OverridesFile.load directory path = .ok file ∧ ∀ component,
      (∀ own, file.sections.get? component = some own →
        let merged := ((inline.sections.get? component).getD ∅).merge own
        ∀ place value, (unflatten own).LeafAt place value →
          ((next.resolve component).LeafAt place value ↔
            merged.LastWord place value ∨
            (∃ rest, place = OverridesFile.globalKey :: rest ∧
              (inline.global.merge file.global).LastWord rest value) ∧
              (unflatten merged).Silent place)) ∧
      (file.sections.get? component = none → inline.sections.get? component = none →
        ∀ place value, (unflatten file.global).LeafAt place value →
          ((next.resolve component).LeafAt (OverridesFile.globalKey :: place) value ↔
            (inline.global.merge file.global).LastWord place value)) := by
  obtain ⟨file, loaded, rfl⟩ := read_inv read
  refine ⟨file, loaded, fun component => ⟨?listed, ?unlisted⟩⟩
  case listed =>
    intro own found merged place value _
    exact OverridesFile.leafAt_resolve_merged found
  case unlisted =>
    intro unlisted unnamed place value _
    rw [resolve, OverridesFile.leafAt_resolve_shared unlisted unnamed]
    simp

/-- Where neither source has a key with dots in it all values of the file stand. -/
theorem plain_value_stands
    (read : (layered inline (some path) current).read directory = .ok next) :
    ∃ file, OverridesFile.load directory path = .ok file ∧ ∀ component own,
      file.sections.get? component = some own → Plain own →
      Plain ((inline.sections.get? component).getD ∅) →
      ∀ place value, (unflatten own).LeafAt place value →
        (next.resolve component).LeafAt place value := by
  obtain ⟨file, loaded, rfl⟩ := read_inv read
  refine ⟨file, loaded, fun component own found plain other place value leaf => ?_⟩
  have kept := leafAt_unflatten_merge other plain leaf
  exact (OverridesFile.leafAt_resolve_merged found).mpr (.inl (leafAt_unflatten.mp kept))

/-! ## One path in two spellings -/

def nested (n : Int) : Overrides :=
  Dictionary.singleton "a" (.mapping [(.text "b", .int n)])

def dotted (n : Int) : Overrides :=
  Dictionary.singleton "a.b" (.int n)

theorem normal_nested (n : Int) : Normal (nested n) :=
  normal_branch (by decide : ∀ step ∈ ["a", "b"], IsStep step) trivial

theorem leafAt_nested (n : Int) : (nested n).LeafAt ["a", "b"] (.int n) :=
  (leafAt_singleton "a" (Dictionary.singleton "b" (.int n))).mpr ⟨["b"], rfl, by simp, rfl⟩

theorem leafAt_unflatten_nested (n : Int) :
    (unflatten (nested n)).LeafAt ["a", "b"] (.int n) := by
  rw [(normal_nested n).unflatten_eq]
  exact leafAt_nested n

theorem strand_dotted (n : Int) : strand "a.b" (.int n) = nested n := rfl

def given (own : Overrides) : OverridesFile :=
  { sections := Dictionary.singleton "c" own }

theorem section_given (own : Overrides) : (given own).sections.get? "c" = some own := by
  simp [given, Dictionary.singleton]

def nestedDirectory : Directory :=
  ({} : Directory).put "o.yaml" "components:\n  c:\n    a:\n      b: 2\n".toUTF8.toList

def isNested (file : OverridesFile) (n : Int) : Bool :=
  match file.sections.get? "c" with
  | some own =>
    match own.entries with
    | [(outer, .mapping [(.text inner, .int m)])] => outer == "a" && inner == "b" && m == n
    | _ => false
  | none => false

theorem section_of_isNested {file : OverridesFile} {n : Int} (shown : isNested file n = true) :
    file.sections.get? "c" = some (nested n) := by
  rw [isNested] at shown
  split at shown
  · rename_i own found
    split at shown
    · rename_i outer inner m entries
      simp only [Bool.and_eq_true, beq_iff_eq] at shown
      obtain ⟨⟨rfl, rfl⟩, rfl⟩ := shown
      rw [found]
      exact congrArg some (Dictionary.eq_of_entries entries)
    · cases shown
  · cases shown

theorem load_nested : ∃ file, OverridesFile.load nestedDirectory "o.yaml" = .ok file ∧
    file.sections.get? "c" = some (nested 2) := by
  have shown : (match OverridesFile.load nestedDirectory "o.yaml" with
    | .ok file => isNested file 2
    | .error _ => false) = true := by decide +kernel
  split at shown
  · exact ⟨_, ‹_›, section_of_isNested shown⟩
  · cases shown

theorem read_nested (own : Overrides) : ∃ file next,
    (layered (given own) (some "o.yaml") (given own)).read nestedDirectory = .ok next ∧
      OverridesFile.load nestedDirectory "o.yaml" = .ok file ∧
      file.sections.get? "c" = some (nested 2) ∧
      ∀ place value, (unflatten (own.merge (nested 2))).LeafAt place value →
        (next.resolve "c").LeafAt place value := by
  obtain ⟨file, loaded, found⟩ := load_nested
  refine ⟨file, _, read_of_load loaded, loaded, found, fun place value leaf => ?_⟩
  refine (OverridesFile.leafAt_resolve_merged found).mpr (.inl ?_)
  rw [section_given]
  exact leafAt_unflatten.mp leaf

/-- Spelled alike in both sources the value of the file stands. -/
theorem file_value_stands_nested : ∃ next,
    (layered (given (nested 1)) (some "o.yaml") (given (nested 1))).read nestedDirectory =
      .ok next ∧
    (next.resolve "c").LeafAt ["a", "b"] (.int 2) ∧
    ((nested 1).merge (nested 2)).LastWord ["a", "b"] (.int 2) := by
  obtain ⟨file, next, read, loaded, found, stands⟩ := read_nested (nested 1)
  have merged : (unflatten ((nested 1).merge (nested 2))).LeafAt ["a", "b"] (.int 2) := by
    rw [((normal_nested 1).merge (normal_nested 2)).unflatten_eq, leafAt_merge]
    exact .inl (leafAt_nested 2)
  have stands := stands _ _ merged
  obtain ⟨same, reloaded, standing⟩ := file_value_stands_iff read
  cases loaded.symm.trans reloaded
  have word := ((standing "c").1 (nested 2) found _ _ (leafAt_unflatten_nested 2)).mp stands
  rw [section_given] at word
  refine ⟨next, read, stands, word.resolve_right ?_⟩
  rintro ⟨⟨rest, place, -⟩, -⟩
  exact absurd (List.cons.inj place).1 (by decide)

/-- Given as a dotted key, which comes later in the order of the keys, the other value stands,
and that of the file is lost. -/
theorem file_value_lost_dotted : ∃ file own next,
    OverridesFile.load nestedDirectory "o.yaml" = .ok file ∧
    file.sections.get? "c" = some own ∧ (unflatten own).LeafAt ["a", "b"] (.int 2) ∧
    (layered (given (dotted 1)) (some "o.yaml") (given (dotted 1))).read nestedDirectory =
      .ok next ∧
    ¬ (next.resolve "c").LeafAt ["a", "b"] (.int 2) := by
  obtain ⟨file, next, read, loaded, found, stands⟩ := read_nested (dotted 1)
  have other : (unflatten ((dotted 1).merge (nested 2))).LeafAt ["a", "b"] (.int 1) := by
    refine leafAt_unflatten.mpr ⟨"a.b", .int 1, ?found, strand_dotted 1 ▸ leafAt_nested 1, ?last⟩
    case found => simp [get?_merge, dotted, nested]
    case last =>
      intro later content greater found
      rcases get?_merge_cases found with ⟨-, below⟩ | above | ⟨_, _, below, -⟩
      · rw [(Dictionary.get?_singleton_iff.mp below).1] at greater
        exact absurd greater (by decide)
      · rw [(Dictionary.get?_singleton_iff.mp above).1] at greater
        exact absurd greater (by decide)
      · cases (Dictionary.get?_singleton_iff.mp below).2
  refine ⟨file, nested 2, next, loaded, found, leafAt_unflatten_nested 2, read, fun lost => ?_⟩
  cases (stands _ _ other).1.symm.trans lost.1

end OverridesSource

end Rollout
