import Rollout.Directory

/-! What is found in a directory at a path where a file was written or removed. -/

set_option autoImplicit false

namespace Rollout.Directory

variable {d : Directory} {path : String} {content old : Text.Bytes}

theorem read_eq_ok : d.read path = .ok content ↔ d.locate path = .file content := by
  rw [read]
  cases d.locate path with
  | file => simp
  | unreachable fault => cases fault <;> simp
  | directory | free => simp

theorem lookup_of_locate (located : d.locate path = .file content) :
    d.files.lookup (steps path.toList []) = some content := by
  simp only [locate] at located
  repeat' split at located
  all_goals simp_all

def Place.isOpen : Place → Bool
  | .file _ | .free _ => true
  | .directory | .unreachable _ => false

theorem write_of_isOpen (target : (d.locate path).isOpen = true) (content : Text.Bytes) :
    d.write path content = .ok (d.put path content) := by
  rw [write]
  cases place : d.locate path with
  | file | free => rfl
  | directory | unreachable =>
    rw [place] at target
    cases target

-- Which paths can lead to a file does not depend on the files there are.
theorem locate_put_of_isOpen (target : (d.locate path).isOpen = true) (other : Directory) :
    (other.put path content).locate path = .file content := by
  have written : (other.put path content).files.lookup (steps path.toList []) = some content := by
    simp [put]
  simp only [locate] at target
  split at target
  · cases target
  rename_i noNul
  split at target
  · cases target
  rename_i given
  split at target
  · cases target
  rename_i short
  split at target
  · cases target
  rename_i inside
  split at target
  · cases target
  rename_i relative
  have file : ¬ wantsDirectory path.toList = true := by
    intro wants
    simp only [wants, if_true] at target
    repeat' split at target
    all_goals cases target
  simp only [locate, written]
  rw [if_neg noNul, if_neg given, if_neg short, if_neg inside, if_neg relative, if_neg file]

theorem locate_put (located : d.locate path = .file old) (other : Directory) :
    (other.put path content).locate path = .file content :=
  locate_put_of_isOpen (by rw [located]; rfl) other

/-- What was written is read, wherever a file can be read at all. -/
theorem read_put (readable : d.read path = .ok old) (other : Directory) :
    (other.put path content).read path = .ok content :=
  read_eq_ok.mpr (locate_put (read_eq_ok.mp readable) other)

theorem read_remove (d : Directory) (path : String) :
    ∃ fault, (d.remove path).read path = .error fault := by
  cases read : (d.remove path).read path with
  | error fault => exact ⟨fault, rfl⟩
  | ok content =>
    have there := lookup_of_locate (read_eq_ok.mp read)
    have gone : (d.remove path).files.lookup (steps path.toList []) = none := by
      refine List.lookup_eq_none_iff.mpr fun file member => ?_
      have kept := (List.mem_filter.mp member).2
      rw [bne_iff_ne] at kept ⊢
      exact kept.symm
    cases gone.symm.trans there

end Rollout.Directory
