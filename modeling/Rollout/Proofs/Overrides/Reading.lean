import Rollout.Overrides.Source

/-! Reading a source of overrides. -/

set_option autoImplicit false

namespace Rollout

/-- Values laid under those of a file, if there is one, as it is now. -/
def OverridesFile.snapshot (inline : OverridesFile) (path : Option String)
    (directory : Directory) : Except OverridesError OverridesFile :=
  match path with
  | none => .ok inline
  | some path => (OverridesFile.load directory path).map inline.mergedWith

theorem OverridesFile.load_error_iff {directory : Directory} {path : String}
    {error : OverridesError} :
    load directory path = .error error ↔
      ((∃ fault, directory.read path = .error fault) ∨
        ∃ bytes, directory.read path = .ok bytes ∧ Text.decode? bytes = none) ∧
        error = .unreadable path ∨
      (∃ bytes text fault, directory.read path = .ok bytes ∧ Text.decode? bytes = some text ∧
        parse text = .error fault) ∧ error = .malformed path := by
  rw [load, Directory.readText]
  cases directory.read path with
  | error fault => simp [bind, Except.bind, eq_comm]
  | ok bytes =>
    cases decoded : Text.decode? bytes with
    | none => simp [bind, Except.bind, decoded, eq_comm]
    | some text =>
      cases parsed : parse text with
      | error fault => simp [bind, Except.bind, pure, Except.pure, decoded, parsed, eq_comm]
      | ok file => simp [bind, Except.bind, pure, Except.pure, decoded, parsed]

namespace OverridesSource

variable {inline current file : OverridesFile} {source next : OverridesSource}
  {directory : Directory} {path : String}

theorem read_of_load (loaded : OverridesFile.load directory path = .ok file) :
    (layered inline (some path) current).read directory =
      .ok (layered inline (some path) (inline.mergedWith file)) := by
  rw [OverridesSource.read, loaded]
  rfl

theorem read_inv (read : (layered inline (some path) current).read directory = .ok next) :
    ∃ file, OverridesFile.load directory path = .ok file ∧
      next = layered inline (some path) (inline.mergedWith file) := by
  cases loaded : OverridesFile.load directory path with
  | error error =>
    rw [OverridesSource.read, loaded] at read
    cases read
  | ok file =>
    rw [read_of_load loaded] at read
    exact ⟨file, rfl, (Except.ok.inj read).symm⟩

theorem read_layered (inline current : OverridesFile) (path : Option String)
    (directory : Directory) :
    (layered inline path current).read directory =
      (inline.snapshot path directory).map (layered inline path) := by
  cases path with
  | none => rfl
  | some path =>
    rw [OverridesSource.read, OverridesFile.snapshot]
    cases OverridesFile.load directory path <;> rfl

theorem snapshot_of_read {path : Option String}
    (read : (layered inline path current).read directory = .ok next) :
    ∃ file, inline.snapshot path directory = .ok file ∧ next = layered inline path file := by
  rw [read_layered] at read
  cases taken : inline.snapshot path directory with
  | error error =>
    rw [taken] at read
    cases read
  | ok file =>
    rw [taken] at read
    exact ⟨file, rfl, (Except.ok.inj read).symm⟩

-- What is read depends on what the source was given, and not on what it read before.
theorem read_again (read : source.read directory = .ok next) : next.read directory = .ok next := by
  rcases source with ⟨inline, _ | path, current⟩ | reason
  · cases read
    rfl
  · obtain ⟨file, loaded, rfl⟩ := read_inv read
    exact read_of_load loaded
  · cases read

end OverridesSource

end Rollout
