import Rollout.Proofs.Settings.Validity
import Rollout.Program

/-! Flags go before the file, and the file before the defaults, field by field. The settings that
come of it are checked once more, but the file has been checked by itself before. -/

set_option autoImplicit false

namespace Rollout

/-- Each field from the flags if they give it, else from the file, else its default. -/
def Settings.effective (flags file : SettingsLayer) : Settings :=
  let default : Settings := {}
  {
    workers := (flags.workers.or file.workers).getD default.workers
    cancelTimeout := (flags.cancelTimeout.or file.cancelTimeout).getD default.cancelTimeout
    quitTimeout := (flags.quitTimeout.or file.quitTimeout).getD default.quitTimeout
    helmTimeoutSeconds :=
      (flags.helmTimeoutSeconds.or file.helmTimeoutSeconds).getD default.helmTimeoutSeconds
    backoffInitialSeconds :=
      (flags.backoffInitialSeconds.or file.backoffInitialSeconds).getD default.backoffInitialSeconds
    backoffMaxElapsedSeconds :=
      (flags.backoffMaxElapsedSeconds.or file.backoffMaxElapsedSeconds).getD
        default.backoffMaxElapsedSeconds
    resourcePath := (flags.resourcePath.or file.resourcePath).getD default.resourcePath
    kubeconfig := flags.kubeconfig.or file.kubeconfig }

theorem Settings.overlay_overlay (flags file : SettingsLayer) :
    (Settings.overlay {} file).overlay flags = Settings.effective flags file := by
  simp only [overlay, effective, Option.getD_or, Option.or_none]

theorem Settings.effective_none (file : SettingsLayer) :
    Settings.effective {} file = Settings.overlay {} file := by
  simp only [overlay, effective, Option.none_or, Option.or_none]

namespace Command

variable {command : Command} {directory : Directory} {file : SettingsLayer} {settings : Settings}

def fileLayer (command : Command) (directory : Directory) : Except SettingsError SettingsLayer :=
  match command.config with
  | none => .ok {}
  | some path => Settings.loadLayer directory path

theorem valid_unfiled (read : command.fileLayer directory = .ok file)
    (unfiled : command.config = none) : (Settings.effective {} file).Valid := by
  rw [fileLayer, unfiled] at read
  cases read
  decide

/-- The file is checked first, and all together afterwards. -/
theorem settings_eq (read : command.fileLayer directory = .ok file) :
    command.settings directory =
      match (Settings.effective {} file).validate with
      | .error error =>
        .error ⟨command.config.map ("unable to load config from " ++ ·), .settings error⟩
      | .ok () =>
        match (Settings.effective command.layer file).validate with
        | .error error => .error ⟨none, .settings error⟩
        | .ok () => .ok (Settings.effective command.layer file) := by
  cases given : command.config with
  | none =>
    rw [Settings.validate_of_valid (valid_unfiled read given), ← Settings.overlay_overlay]
    rw [fileLayer, given] at read
    cases read
    have unchanged : Settings.overlay {} {} = {} := rfl
    simp only [Command.settings, given, unchanged, bind, Except.bind, pure, Except.pure]
    cases (Settings.overlay {} command.layer).validate <;> rfl
  | some path =>
    have loaded : Settings.loadLayer directory path = .ok file := by
      simpa [fileLayer, given] using read
    simp only [Command.settings, given, Settings.load, Settings.build, Settings.effective_none,
      ← Settings.overlay_overlay command.layer, loaded, bind, Except.bind, pure, Except.pure]
    cases (Settings.overlay {} file).validate with
    | error => rfl
    | ok =>
      dsimp only
      cases ((Settings.overlay {} file).overlay command.layer).validate <;> rfl

/-- With a file that can be read and parsed, or without one, a command has settings exactly if the
effective ones are valid and those of the file alone are too. They are then the effective ones, and
else there is a failure, which names the file if that is invalid by itself. Without a file nothing
but the effective settings counts. -/
theorem settings_iff_effective (command : Command) (directory : Directory) (file : SettingsLayer)
    (read : command.fileLayer directory = .ok file) :
    (∀ settings, command.settings directory = .ok settings ↔
      settings = Settings.effective command.layer file ∧ settings.Valid ∧
        (Settings.effective {} file).Valid) ∧
    (¬ (Settings.effective {} file).Valid → ∃ path error, command.config = some path ∧
      command.settings directory =
        .error ⟨some ("unable to load config from " ++ path), .settings error⟩) ∧
    ((Settings.effective {} file).Valid → ¬ (Settings.effective command.layer file).Valid →
      ∃ error, command.settings directory = .error ⟨none, .settings error⟩) ∧
    (command.config = none → (Settings.effective {} file).Valid) := by
  rw [settings_eq read]
  refine ⟨?accepted, ?file, ?flags, valid_unfiled read⟩
  case accepted =>
    intro settings
    by_cases alone : (Settings.effective {} file).Valid
    · rw [Settings.validate_of_valid alone]
      by_cases valid : (Settings.effective command.layer file).Valid
      · rw [Settings.validate_of_valid valid]
        simp only [Except.ok.injEq]
        constructor
        · rintro rfl
          exact ⟨rfl, valid, alone⟩
        · rintro ⟨rfl, -⟩
          rfl
      · obtain ⟨error, refused⟩ := Settings.validate_of_not_valid valid
        simp only [refused, reduceCtorEq, false_iff]
        rintro ⟨rfl, other, -⟩
        exact valid other
    · obtain ⟨error, refused⟩ := Settings.validate_of_not_valid alone
      simp [refused, alone]
  case file =>
    intro invalid
    obtain ⟨error, refused⟩ := Settings.validate_of_not_valid invalid
    cases given : command.config with
    | none => exact absurd (valid_unfiled read given) invalid
    | some path => exact ⟨path, error, rfl, by rw [refused]; rfl⟩
  case flags =>
    intro alone invalid
    obtain ⟨error, refused⟩ := Settings.validate_of_not_valid invalid
    exact ⟨error, by rw [Settings.validate_of_valid alone, refused]⟩

/-! ## A file whose deadlines flags change -/

def patient : Command where
  action := .uninstall
  config := some "config.toml"
  components := "components.yaml"
  overrides := none
  layer := { quitTimeout := some (.ofSeconds 7200) }

/-- The file alone has its first deadline just before the default for the second one. -/
theorem settings_iff_effective_late :
    let directory := Directory.put {} "config.toml" (Text.encode "cancel_timeout = \"24m\"\n")
    patient.settings directory =
      .ok { cancelTimeout := .ofSeconds 1440, quitTimeout := .ofSeconds 7200 } := by
  intro directory
  have read : patient.fileLayer directory = .ok { cancelTimeout := some (.ofSeconds 1440) } := by
    decide +kernel
  obtain ⟨accepted, -⟩ := settings_iff_effective patient directory _ read
  exact (accepted _).mpr ⟨by decide +kernel, by decide +kernel, by decide +kernel⟩

/-- A file whose first deadline lies behind the default for the second one is refused, although
the flag puts that right. So it takes more than valid effective settings. -/
theorem flag_does_not_repair_file :
    ¬ ∀ (command : Command) (directory : Directory) (file : SettingsLayer),
      command.fileLayer directory = .ok file →
      (command.settings directory = .ok (Settings.effective command.layer file) ↔
        (Settings.effective command.layer file).Valid) := by
  intro repaired
  let directory := Directory.put {} "config.toml" (Text.encode "cancel_timeout = \"30m\"\n")
  have read : patient.fileLayer directory = .ok { cancelTimeout := some (.ofSeconds 1800) } := by
    decide +kernel
  have accepted := (repaired patient directory _ read).mpr (by decide +kernel)
  have refused : patient.settings directory = .error ⟨some "unable to load config from config.toml",
      .settings (.timeoutOrder (.ofSeconds 1800) (.ofSeconds 1500))⟩ := by decide +kernel
  cases refused.symm.trans accepted

end Command

end Rollout
