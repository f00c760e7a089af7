import Rollout.Overrides.Session
import Rollout.Proofs.Directory
import Rollout.Proofs.Overrides.Layers
import Rollout.Proofs.Overrides.Reading

/-! What getters show after any dealings with a layered source: the values of the latest reading
that succeeded, or those given with the source as long as there is none. -/

set_option autoImplicit false

namespace Rollout

namespace OverridesFile

/-- The value under a key of the section for a component, as the key is spelled. -/
def valueAt (file : OverridesFile) (component key : String) : Option Yaml.Value :=
  (file.sections.get? component).bind (·.get? key)

-- Laying one file over another makes up no keys and takes none away.
theorem global_mergedWith_none (lower upper : OverridesFile) (key : String) :
    (lower.mergedWith upper).global.get? key = none ↔
      lower.global.get? key = none ∧ upper.global.get? key = none := by
  rw [mergedWith, Overrides.get?_merge]
  cases upper.global.get? key <;> simp

theorem valueAt_mergedWith_none (lower upper : OverridesFile) (component key : String) :
    (lower.mergedWith upper).valueAt component key = none ↔
      lower.valueAt component key = none ∧ upper.valueAt component key = none := by
  rw [valueAt, valueAt, valueAt, get?_mergedWith]
  cases upper.sections.get? component with
  | none => simp
  | some part =>
    rw [Option.elim_some, Option.bind_some, Option.bind_some, Overrides.get?_merge]
    cases lower.sections.get? component <;> cases part.get? key <;> simp

end OverridesFile

namespace OverridesSession

/-! ## What steps come to -/

def filesAfter (directory : Directory) : List Step → Directory
  | [] => directory
  | .write path content :: rest => filesAfter (directory.put path content) rest
  | .delete path :: rest => filesAfter (directory.remove path) rest
  | .read :: rest | .getter _ :: rest | .get _ :: rest => filesAfter directory rest

/-- The components of the getters that some steps make, in order. -/
def made : List Step → List String
  | [] => []
  | .getter component :: rest => component :: made rest
  | .write _ _ :: rest | .delete _ :: rest | .read :: rest | .get _ :: rest => made rest

def reading (inline : OverridesFile) (path : Option String) (directory : Directory)
    (steps : List Step) : Except OverridesError OverridesFile :=
  inline.snapshot path (filesAfter directory steps)

/-- No step of a list is a reading that succeeds. -/
def Unread (inline : OverridesFile) (path : Option String) (directory : Directory)
    (steps : List Step) : Prop :=
  ∀ front rest, steps = front ++ .read :: rest →
    ∃ error, reading inline path directory front = .error error

inductive Shown (inline : OverridesFile) (path : Option String) (directory : Directory) :
    List Step → OverridesFile → Prop where
  | unread {steps : List Step} : Unread inline path directory steps →
      Shown inline path directory steps inline
  | latest {front rest : List Step} {file : OverridesFile} :
      reading inline path directory front = .ok file →
      Unread inline path (filesAfter directory front) rest →
      Shown inline path directory (front ++ .read :: rest) file

def answerTo (found : Except OverridesError OverridesFile) (getters : List String)
    (shown : OverridesFile) : Step → Answer
  | .write _ _ | .delete _ => .done
  | .read =>
    match found with
    | .ok _ => .done
    | .error error => .refused error
  | .getter _ => .getter getters.length
  | .get index =>
    match getters[index]? with
    | some component => .values (shown.resolve component)
    | none => .unknown

variable {inline current file : OverridesFile} {path : Option String} {directory : Directory}
  {session : OverridesSession} {front rest steps : List Step} {s : Step}

/-! ## Sessions step by step -/

theorem run_append (session : OverridesSession) (front rest : List Step) :
    session.run (front ++ rest) =
      (((session.run front).1.run rest).1,
        (session.run front).2 ++ ((session.run front).1.run rest).2) := by
  induction front generalizing session with
  | nil => rfl
  | cons s front ih => simp only [List.cons_append, run, ih]

theorem length_answers (session : OverridesSession) (steps : List Step) :
    (session.run steps).2.length = steps.length := by
  induction steps generalizing session with
  | nil => rfl
  | cons s rest ih => simp [run, ih]

theorem answer_at (session : OverridesSession) (front rest : List Step) (s : Step) :
    (session.run (front ++ s :: rest)).2[front.length]? =
      some ((session.run front).1.step s).2 := by
  have here := length_answers session front
  rw [run_append, List.getElem?_append_right (Nat.le_of_eq here), here, Nat.sub_self]
  rfl

theorem directory_run (session : OverridesSession) (steps : List Step) :
    (session.run steps).1.directory = filesAfter session.directory steps := by
  induction steps generalizing session with
  | nil => rfl
  | cons s rest ih =>
    rw [run, ih]
    cases s with
    | write | delete | getter => rfl
    | read => simp only [step, filesAfter]; split <;> rfl
    | get => simp only [step, filesAfter]; split <;> rfl

theorem getters_run (session : OverridesSession) (steps : List Step) :
    (session.run steps).1.getters = session.getters ++ made steps := by
  induction steps generalizing session with
  | nil => simp [run, made]
  | cons s rest ih =>
    rw [run, ih]
    cases s with
    | write | delete => rfl
    | getter => simp [step, made]
    | read => simp only [step, made]; split <;> rfl
    | get => simp only [step, made]; split <;> rfl

-- A step other than a reading leaves the source as it is.
theorem source_step (other : s ≠ .read) : (session.step s).1.source = session.source := by
  cases s with
  | read => exact absurd rfl other
  | get => simp only [step]; split <;> rfl
  | write | delete | getter => rfl

theorem step_read (layered : session.source = .layered inline path current) :
    session.step .read =
      match inline.snapshot path session.directory with
      | .ok file => ({ session with source := .layered inline path file }, .done)
      | .error error => (session, .refused error) := by
  rw [step, layered, OverridesSource.read_layered]
  cases inline.snapshot path session.directory <;> rfl

theorem layered_step (layered : session.source = .layered inline path current) (s : Step) :
    ∃ kept, (session.step s).1.source = .layered inline path kept := by
  by_cases reads : s = .read
  · subst reads
    rw [step_read layered]
    split
    · exact ⟨_, rfl⟩
    · exact ⟨_, layered⟩
  · exact ⟨current, (source_step reads).trans layered⟩

theorem layered_run (layered : session.source = .layered inline path current)
    (steps : List Step) : ∃ kept, (session.run steps).1.source = .layered inline path kept := by
  induction steps generalizing session current with
  | nil => exact ⟨current, layered⟩
  | cons s rest ih =>
    obtain ⟨kept, next⟩ := layered_step layered s
    exact ih next

/-! ## What is shown -/

theorem Unread.tail (unread : Unread inline path directory (s :: rest)) :
    Unread inline path (filesAfter directory [s]) rest := by
  intro front later split
  have := unread (s :: front) later (by rw [split]; rfl)
  cases s <;> exact this

-- Readings that fail leave the source as it is, and other steps do so anyway.
theorem source_unread (layered : session.source = .layered inline path current)
    (unread : Unread inline path session.directory steps) :
    (session.run steps).1.source = .layered inline path current := by
  induction steps generalizing session with
  | nil => exact layered
  | cons s rest ih =>
    have still : (session.step s).1.source = .layered inline path current := by
      by_cases reads : s = .read
      · subst reads
        obtain ⟨error, refused⟩ := unread [] rest rfl
        rw [reading, filesAfter] at refused
        rw [step_read layered, refused]
        exact layered
      · rw [source_step reads, layered]
    refine ih still ?_
    have files : (session.step s).1.directory = filesAfter session.directory [s] :=
      directory_run session [s]
    exact files ▸ unread.tail

theorem filesAfter_append (directory : Directory) (front rest : List Step) :
    filesAfter directory (front ++ rest) = filesAfter (filesAfter directory front) rest := by
  induction front generalizing directory with
  | nil => rfl
  | cons s front ih => cases s <;> exact ih _

theorem source_shown (layered : session.source = .layered inline path inline)
    (shown : Shown inline path session.directory steps file) :
    (session.run steps).1.source = .layered inline path file := by
  cases shown with
  | unread unread => exact source_unread layered unread
  | @latest front rest _ found unread =>
    obtain ⟨kept, before⟩ := layered_run layered front
    have files := directory_run session front
    rw [reading, ← files] at found
    rw [run_append, run, step_read before, found]
    exact source_unread rfl (files ▸ unread)

/-- Either no reading among the steps succeeds, or one of them is the latest that does. -/
theorem exists_shown (inline : OverridesFile) (path : Option String) (directory : Directory)
    (steps : List Step) : ∃ file, Shown inline path directory steps file := by
  induction steps generalizing directory with
  | nil =>
    refine ⟨inline, .unread fun front rest split => ?_⟩
    simp at split
  | cons s rest ih =>
    obtain ⟨file, shown⟩ := ih (filesAfter directory [s])
    have same (front : List Step) : reading inline path directory (s :: front) =
        reading inline path (filesAfter directory [s]) front := by
      rw [reading, reading, ← filesAfter_append]
      rfl
    cases shown with
    | @latest front later file found unread =>
      have taken : reading inline path directory (s :: front) = .ok file := (same front).trans found
      rw [← filesAfter_append] at unread
      exact ⟨file, .latest taken unread⟩
    | unread unread =>
      by_cases first : s = .read ∧ ∃ file, reading inline path directory [] = .ok file
      · obtain ⟨rfl, file, found⟩ := first
        exact ⟨file, .latest found unread⟩
      · refine ⟨inline, .unread fun front later split => ?_⟩
        cases front with
        | nil =>
          obtain ⟨rfl, -⟩ := List.cons.inj split
          cases found : reading inline path directory [] with
          | error error => exact ⟨error, rfl⟩
          | ok file => exact absurd ⟨rfl, file, found⟩ first
        | cons _ front =>
          obtain ⟨rfl, tail⟩ := List.cons.inj split
          rw [same]
          exact unread front later tail

/-! ## Getters -/

/-- A session is known by what is shown, by its files and by its getters. -/
theorem session_shown (shown : Shown inline path directory steps file) :
    (({ source := .fresh inline path, directory := directory } : OverridesSession).run steps).1 =
      { source := .layered inline path file
        directory := filesAfter directory steps
        getters := made steps } := by
  let first : OverridesSession := { source := .fresh inline path, directory := directory }
  have layered : first.source = .layered inline path inline := rfl
  have source := source_shown layered shown
  have files := directory_run first steps
  have getters := getters_run first steps
  rw [OverridesSession.mk.injEq]
  exact ⟨source, files, getters⟩

theorem answer_eq (layered : session.source = .layered inline path file) (s : Step) :
    (session.step s).2 =
      answerTo (inline.snapshot path session.directory) session.getters file s := by
  cases s with
  | write | delete | getter => rfl
  | read =>
    rw [step_read layered]
    cases taken : inline.snapshot path session.directory <;> simp [answerTo]
  | get index =>
    simp only [step, answerTo]
    cases session.getters[index]? with
    | none => rfl
    | some component => simp only [layered, OverridesSource.resolve]

/-- Getters show what the latest successful reading found, whenever they were made, and the given
values before there is one. A reading that fails gives its reason and changes nothing; one that
succeeds leaves what it alone would have left, with no key that is not given or in the file. -/
theorem getters_show_latest (inline : OverridesFile) (path : Option String)
    (directory : Directory) (front rest : List Step) (s : Step) :
    let first : OverridesSession := { source := .fresh inline path, directory := directory }
    let files := filesAfter directory front
    let found := reading inline path directory front
    (∃ file, Shown inline path directory front file) ∧
    (∀ file, Shown inline path directory front file →
      (first.run (front ++ s :: rest)).2[front.length]? =
        some (answerTo found (made front) file s)) ∧
    (∀ error, found = .error error → ((first.run front).1.step .read).1 = (first.run front).1) ∧
    (∀ error, found = .error error ↔ ∃ name, path = some name ∧
      (((∃ fault, files.read name = .error fault) ∨
          ∃ bytes, files.read name = .ok bytes ∧ Text.decode? bytes = none) ∧
          error = .unreadable name ∨
        (∃ bytes text fault, files.read name = .ok bytes ∧ Text.decode? bytes = some text ∧
          OverridesFile.parse text = .error fault) ∧ error = .malformed name)) ∧
    (∀ file, found = .ok file → ((first.run front).1.step .read).1 =
      { source := .layered inline path file, directory := files, getters := made front }) ∧
    (∀ name content, path = some name → OverridesFile.load files name = .ok content →
      found = .ok (inline.mergedWith content) ∧ ∀ key,
        ((inline.mergedWith content).global.get? key = none ↔
          inline.global.get? key = none ∧ content.global.get? key = none) ∧
        ∀ component, (inline.mergedWith content).valueAt component key = none ↔
          inline.valueAt component key = none ∧ content.valueAt component key = none) ∧
    ∀ name, (∃ fault, (filesAfter directory (front ++ [.delete name])).read name = .error fault) ∧
      ∀ content old, files.read name = .ok old →
        (filesAfter directory (front ++ [.write name content])).read name = .ok content := by
  intro first files found
  obtain ⟨kept, shownKept⟩ := exists_shown inline path directory front
  refine ⟨⟨kept, shownKept⟩, fun file shown => ?answer, fun reason refused => ?refused,
    fun reason => ?reason, fun file taken => ?taken,
    fun name content given loaded => ⟨?merged, fun key => ⟨?shared, fun component => ?own⟩⟩,
    fun name => ⟨?deleted, fun content old readable => ?written⟩⟩
  case answer => rw [answer_at, session_shown shown, answer_eq rfl, ← reading]
  case refused =>
    have taken : inline.snapshot path (filesAfter directory front) = .error reason := refused
    rw [session_shown shownKept, step_read rfl, taken]
  case taken =>
    have taken : inline.snapshot path (filesAfter directory front) = .ok file := taken
    rw [session_shown shownKept, step_read rfl, taken]
  case reason =>
    cases path with
    | none => simp [found, reading, OverridesFile.snapshot]
    | some name =>
      simp only [Option.some.injEq, exists_eq_left']
      rw [← OverridesFile.load_error_iff]
      simp only [found, reading, OverridesFile.snapshot]
      cases OverridesFile.load (filesAfter directory front) name <;> simp [Except.map]
  case merged =>
    subst given
    simp only [found, reading, OverridesFile.snapshot]
    rw [loaded]
    rfl
  case shared => exact OverridesFile.global_mergedWith_none inline content key
  case own => exact OverridesFile.valueAt_mergedWith_none inline content component key
  case deleted =>
    rw [filesAfter_append]
    exact Directory.read_remove _ name
  case written =>
    rw [filesAfter_append]
    exact Directory.read_put readable _

/-- A getter made before all else shows the second of two files, without the key that only the
first one had; deleting that file and failing to read it changes nothing. -/
theorem getters_show_latest_dropped :
    let first : OverridesSession := { source := .fresh {} (some "o.yaml"), directory := {} }
    let old := Text.encode "components:\n  c:\n    a: 1\n"
    let new := Text.encode "components:\n  c:\n    b: 2\n"
    let front : List Step :=
      [.getter "c", .write "o.yaml" old, .read, .write "o.yaml" new, .read, .delete "o.yaml"]
    ∃ file, OverridesFile.load (Directory.put {} "o.yaml" new) "o.yaml" = .ok file ∧
      (file.valueAt "c" "b").isSome = true ∧
      (OverridesFile.mergedWith {} file).valueAt "c" "a" = none ∧
      (first.run (front ++ [.get 0])).2[6]? =
        some (.values ((OverridesFile.mergedWith {} file).resolve "c")) ∧
      ((first.run front).1.step .read).1 = (first.run front).1 := by
  intro first old new front
  have shape : (match OverridesFile.load (Directory.put {} "o.yaml" new) "o.yaml" with
      | .ok file => (file.valueAt "c" "a").isNone && (file.valueAt "c" "b").isSome
      | .error _ => false) = true := by decide +kernel
  cases loaded : OverridesFile.load (Directory.put {} "o.yaml" new) "o.yaml" with
  | error => rw [loaded] at shape; cases shape
  | ok file =>
    rw [loaded] at shape
    simp only [Bool.and_eq_true, Option.isNone_iff_eq_none] at shape
    have written : OverridesFile.load (filesAfter {} (front.take 4)) "o.yaml" = .ok file := loaded
    obtain ⟨-, -, -, -, -, found, -⟩ :=
      getters_show_latest {} (some "o.yaml") {} (front.take 4) [] .read
    obtain ⟨found, keys⟩ := found "o.yaml" file rfl written
    have unread : Unread {} (some "o.yaml") (filesAfter {} (front.take 4)) [.delete "o.yaml"] := by
      intro before rest split
      have member : Step.read ∈ [Step.delete "o.yaml"] := split ▸ List.mem_append_right _ (by simp)
      simp at member
    obtain ⟨-, answers, still, reasons, -⟩ :=
      getters_show_latest {} (some "o.yaml") {} front [] (.get 0)
    have refused : reading {} (some "o.yaml") {} front = .error (.unreadable "o.yaml") :=
      (reasons _).mpr ⟨"o.yaml", rfl, .inl ⟨.inl (Directory.read_remove _ _), rfl⟩⟩
    exact ⟨file, rfl, shape.2, ((keys "a").2 "c").mpr ⟨rfl, shape.1⟩,
      answers _ (.latest found unread), still _ refused⟩

end OverridesSession

end Rollout
