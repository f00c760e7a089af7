import Rollout.Proofs.Directory
import Rollout.Proofs.Duration.Units
import Rollout.Proofs.Text.Utf8
import Rollout.Proofs.Toml.Lines
import Rollout.Settings.File

/-! Settings that are saved are loaded again as they were: every field has a line of the file, and
is read back from it. -/

set_option autoImplicit false

namespace Rollout.Settings

open Toml

variable {settings : Settings} {directory : Directory} {path : String}

/-! ## The lines of a file -/

/-- The numbers are those that a signed word can hold. -/
structure Representable (settings : Settings) : Prop where
  workers : settings.workers.toNat < 1 <<< 63
  helmTimeout : settings.helmTimeoutSeconds.toNat < 1 <<< 63
  backoffInitial : settings.backoffInitialSeconds.toNat < 1 <<< 63
  backoffMaxElapsed : settings.backoffMaxElapsedSeconds.toNat < 1 <<< 63

def wordField (name : String) (n : UInt64) : Field where
  name := name
  written := (toString n.toNat).toList
  value := .integer n.toNat

def textField (name text : String) : Field where
  name := name
  written := quoted text.toList
  value := .text text

def fields (settings : Settings) : List Field :=
  [wordField "workers_count" settings.workers,
    textField "cancel_timeout" settings.cancelTimeout.unitText,
    textField "quit_timeout" settings.quitTimeout.unitText,
    wordField "helm_timeout_seconds" settings.helmTimeoutSeconds,
    wordField "backoff_initial_interval_seconds" settings.backoffInitialSeconds,
    wordField "backoff_max_elapsed_time_seconds" settings.backoffMaxElapsedSeconds,
    textField "resource_path" settings.resourcePath] ++
  settings.kubeconfig.toList.map (textField "kubeconfig")

theorem line_wordField (name : String) (n : UInt64) :
    (wordField name n).line = fieldLine name (toString n.toNat).toList := rfl

theorem line_textField (name text : String) :
    (textField name text).line = fieldLine name (quoted text.toList) := rfl

theorem render?_of_representable (fits : settings.Representable) :
    settings.render? = some (String.ofList (settings.fields.flatMap Field.line)) := by
  simp only [render?, wordText?, fits.workers, fits.helmTimeout, fits.backoffInitial,
    fits.backoffMaxElapsed, if_true]
  refine congrArg (fun chars => some (String.ofList chars)) ?_
  cases kubeconfig : settings.kubeconfig <;>
    simp only [fields, kubeconfig, line_wordField, line_textField, List.flatMap_append,
      List.flatMap_cons, List.flatMap_nil, Option.toList_none, Option.toList_some, List.map_nil,
      List.map_cons, List.append_nil, List.append_assoc]

theorem representable_of_render? {text : String} (shown : settings.render? = some text) :
    settings.Representable := by
  have fits {n : UInt64} {digits : List Char} (word : wordText? n = some digits) :
      n.toNat < 1 <<< 63 := by
    rw [wordText?] at word
    split at word
    · assumption
    · cases word
  obtain ⟨_, workers, shown⟩ := Option.bind_eq_some_iff.mp shown
  obtain ⟨_, helmTimeout, shown⟩ := Option.bind_eq_some_iff.mp shown
  obtain ⟨_, initial, shown⟩ := Option.bind_eq_some_iff.mp shown
  obtain ⟨_, elapsed, -⟩ := Option.bind_eq_some_iff.mp shown
  exact ⟨fits workers, fits helmTimeout, fits initial, fits elapsed⟩

/-! ## What is read from them -/

theorem sound_wordField {name : String} {n : UInt64} (fits : n.toNat < 1 <<< 63)
    (named : name.toList.isEmpty = false) (bare : name.toList.all isBareKeyChar = true) :
    (wordField name n).Sound :=
  ⟨named, bare, spells_word fits⟩

theorem sound_textField {name : String} (text : String) (named : name.toList.isEmpty = false)
    (bare : name.toList.all isBareKeyChar = true) : (textField name text).Sound :=
  ⟨named, bare, spells_quoted text⟩

theorem sound_fields (fits : settings.Representable) : ∀ field ∈ settings.fields, field.Sound := by
  simp only [fields, List.cons_append, List.nil_append, List.forall_mem_cons, List.forall_mem_map]
  exact ⟨sound_wordField fits.workers rfl rfl, sound_textField _ rfl rfl,
    sound_textField _ rfl rfl, sound_wordField fits.helmTimeout rfl rfl,
    sound_wordField fits.backoffInitial rfl rfl, sound_wordField fits.backoffMaxElapsed rfl rfl,
    sound_textField _ rfl rfl, fun path _ => sound_textField path rfl rfl⟩

theorem nodup_fields (settings : Settings) : (settings.fields.map Field.name).Nodup := by
  cases kubeconfig : settings.kubeconfig <;> simp [fields, kubeconfig, wordField, textField]

/-- The layer in which nothing is left open but what the settings leave open. -/
def toLayer (settings : Settings) : SettingsLayer where
  workers := some settings.workers
  cancelTimeout := some settings.cancelTimeout
  quitTimeout := some settings.quitTimeout
  helmTimeoutSeconds := some settings.helmTimeoutSeconds
  backoffInitialSeconds := some settings.backoffInitialSeconds
  backoffMaxElapsedSeconds := some settings.backoffMaxElapsedSeconds
  resourcePath := some settings.resourcePath
  kubeconfig := settings.kubeconfig

theorem field?_word {entries : List (String × Value)} {name : String} {n : UInt64}
    (found : entries.lookup name = some (.integer n.toNat)) :
    field? entries name wordOf? = some (some n) := by
  rw [field?, found]
  simp [wordOf?]

theorem field?_duration {entries : List (String × Value)} {name : String} {d : Duration}
    (found : entries.lookup name = some (.text d.unitText)) :
    field? entries name durationOf? = some (some d) := by
  rw [field?, found]
  simp [durationOf?, Duration.ofText?_unitText]

theorem layerOf?_fields (settings : Settings) :
    layerOf? (settings.fields.map fun field => (field.name, field.value)) =
      some settings.toLayer := by
  have kubeconfig : field? (settings.fields.map fun field => (field.name, field.value))
      "kubeconfig" textOf? = some settings.kubeconfig := by
    cases kubeconfig : settings.kubeconfig <;> (rw [fields, kubeconfig]; rfl)
  generalize read : (settings.fields.map fun field => (field.name, field.value)) = entries at *
  have workers : field? entries "workers_count" wordOf? = some (some settings.workers) :=
    field?_word (read ▸ rfl)
  have cancelTimeout : field? entries "cancel_timeout" durationOf? =
    some (some settings.cancelTimeout) := field?_duration (read ▸ rfl)
  have quitTimeout : field? entries "quit_timeout" durationOf? =
    some (some settings.quitTimeout) := field?_duration (read ▸ rfl)
  have helmTimeout : field? entries "helm_timeout_seconds" wordOf? =
    some (some settings.helmTimeoutSeconds) := field?_word (read ▸ rfl)
  have initial : field? entries "backoff_initial_interval_seconds" wordOf? =
    some (some settings.backoffInitialSeconds) := field?_word (read ▸ rfl)
  have elapsed : field? entries "backoff_max_elapsed_time_seconds" wordOf? =
    some (some settings.backoffMaxElapsedSeconds) := field?_word (read ▸ rfl)
  have resourcePath : field? entries "resource_path" textOf? =
    some (some settings.resourcePath) := read ▸ rfl
  simp only [layerOf?, workers, cancelTimeout, quitTimeout, helmTimeout, initial, elapsed,
    resourcePath, kubeconfig, Option.bind_eq_bind, Option.bind_some]
  rfl

theorem build_toLayer (valid : settings.validate = .ok ()) :
    build settings.toLayer = .ok settings := by
  have whole : Settings.overlay {} settings.toLayer = settings := by
    simp [overlay, toLayer]
  rw [build, whole, valid]
  rfl

/-! ## Files -/

/-- The directory behind an attempt to save settings, which may have failed. -/
def afterSave (settings : Settings) (directory : Directory) (path : String) : Directory :=
  match settings.save directory path with
  | .ok later => later
  | .error _ => directory

theorem load_of_read {later : Directory} {text : String} {layer : SettingsLayer}
    (read : later.read path = .ok (Text.encode text)) (parsed : parseLayer? text = some layer) :
    load later path = build layer := by
  have whole : later.readText path = .ok text := by
    simp only [Directory.readText, read, bind, Except.bind, Text.decode?_encode]
    rfl
  have layered : loadLayer later path = .ok layer := by
    rw [loadLayer, whole]
    simp only [parsed]
  rw [load, layered]
  rfl

/-- Valid settings that are saved where a file can be come back as they were. Whether they can be
saved depends on their numbers alone: if one of them is too large nothing is written, and the
directory stays as it was. -/
theorem saved_come_back (settings : Settings) (valid : settings.validate = .ok ())
    (directory : Directory) (path : String) (target : (directory.locate path).isOpen = true) :
    (settings.Representable → ∃ text later, settings.render? = some text ∧
      settings.save directory path = .ok later ∧ later.read path = .ok (Text.encode text) ∧
      load later path = .ok settings) ∧
    (¬ settings.Representable → settings.save directory path = .error .unrepresentable ∧
      settings.afterSave directory path = directory) := by
  constructor
  case left =>
    intro fits
    have shown := render?_of_representable fits
    have parsed : parseLayer? (String.ofList (settings.fields.flatMap Field.line)) =
        some settings.toLayer := by
      rw [parseLayer?, parse?_fields (sound_fields fits) (nodup_fields settings)]
      exact layerOf?_fields settings
    generalize String.ofList (settings.fields.flatMap Field.line) = text at shown parsed
    have written := Directory.write_of_isOpen target (Text.encode text)
    have read : (directory.put path (Text.encode text)).read path = .ok (Text.encode text) :=
      Directory.read_eq_ok.mpr (Directory.locate_put_of_isOpen target directory)
    refine ⟨text, directory.put path (Text.encode text), shown, ?_, read, ?_⟩
    · rw [save, shown]
      simp only [written]
    · rw [load_of_read read parsed, build_toLayer valid]
  case right =>
    intro large
    have saved : settings.save directory path = .error .unrepresentable := by
      rw [save]
      cases shown : settings.render? with
      | none => rfl
      | some text => exact absurd (representable_of_render? shown) large
    exact ⟨saved, by rw [afterSave, saved]⟩

/-- A span down to the nanosecond and paths with quotes, backslashes and line ends come back, from a
file that was no text before. A number of seconds that is one too large leaves the file alone. -/
theorem saved_come_back_quotes :
    let settings : Settings := {
      cancelTimeout := ⟨90061001002003, by decide⟩
      quitTimeout := ⟨31557600000000001, by decide⟩
      resourcePath := "my \"charts\"\n'''\\new"
      kubeconfig := some "C:\\kube\r\t\"\"\"" }
    let large : Settings := { backoffMaxElapsedSeconds := 9223372036854775808 }
    let directory := ({} : Directory).put "config.toml" [0xff, 0x00]
    (∃ later, settings.save directory "config.toml" = .ok later ∧
      load later "config.toml" = .ok settings) ∧
    large.save directory "config.toml" = .error .unrepresentable ∧
    large.afterSave directory "config.toml" = directory := by
  intro settings large directory
  obtain ⟨text, later, -, saved, -, loaded⟩ :=
    (saved_come_back settings rfl directory "config.toml" (by decide)).1
      ⟨by decide, by decide, by decide, by decide⟩
  have tooLarge : ¬ large.Representable := fun fits => absurd fits.backoffMaxElapsed (by decide)
  exact ⟨⟨later, saved, loaded⟩,
    (saved_come_back large rfl directory "config.toml" (by decide)).2 tooLarge⟩

end Rollout.Settings
