import Rollout.Settings

/-! Which settings are accepted. -/

set_option autoImplicit false

namespace Rollout

theorem Duration.lt_iff {one other : Duration} : one < other ↔ one.nanos < other.nanos := Iff.rfl

namespace Settings

structure Valid (settings : Settings) : Prop where
  workers : settings.workers ≠ 0
  order : settings.cancelTimeout < settings.quitTimeout

variable {settings : Settings}

instance : Decidable settings.Valid :=
  decidable_of_iff (settings.workers ≠ 0 ∧ settings.cancelTimeout < settings.quitTimeout)
    ⟨fun ⟨workers, order⟩ => ⟨workers, order⟩, fun valid => ⟨valid.workers, valid.order⟩⟩

theorem validate_eq_ok_iff : settings.validate = .ok () ↔ settings.Valid := by
  unfold validate
  split
  · rename_i none
    simp only [reduceCtorEq, false_iff]
    exact fun valid => valid.workers none
  · rename_i some
    split
    · rename_i late
      simp only [reduceCtorEq, false_iff]
      exact fun valid => Nat.not_lt.mpr late valid.order
    · rename_i early
      simp only [true_iff]
      exact ⟨some, Nat.not_le.mp early⟩

theorem validate_of_valid (valid : settings.Valid) : settings.validate = .ok () :=
  validate_eq_ok_iff.mpr valid

theorem validate_of_not_valid (invalid : ¬ settings.Valid) :
    ∃ error, settings.validate = .error error := by
  cases checked : settings.validate with
  | ok => exact absurd (validate_eq_ok_iff.mp checked) invalid
  | error error => exact ⟨error, rfl⟩

end Settings

end Rollout
