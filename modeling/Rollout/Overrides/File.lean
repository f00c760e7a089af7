import Rollout.Directory
import Rollout.Overrides.Unflatten
import Rollout.Text.Quoted
import Rollout.Yaml.Read

/-! Overrides as a file holds them: values for all charts, and values for single components. -/

set_option autoImplicit false

namespace Rollout

open Yaml Text

inductive OverridesError where
  | unreadable (path : String)
  | malformed (path : String)
  /-- A source other than a file gave this reason. -/
  | refused (reason : String)
  deriving DecidableEq, Repr

def OverridesError.message : OverridesError → String
  | .unreadable path => "unable to read overrides file " ++ quotedPath path
  | .malformed path => "invalid overrides file " ++ quotedPath path
  | .refused reason => reason

structure OverridesFile where
  global : Overrides := ∅
  sections : Dictionary Overrides := ∅
  deriving Repr

namespace OverridesFile

instance : Inhabited OverridesFile := ⟨{}⟩

/-- The key under which every chart sees the global values. -/
def globalKey : String := "global"

def readTree (depth : Nat) (node : Node Nat) : Reader Overrides :=
  return Dictionary.ofList (← Reader.textMap depth Reader.value node)

def readField (depth : Nat) (name : String) :
    Option (Node Nat → Reader (OverridesFile → OverridesFile)) :=
  if name == globalKey then some fun node => do
    let tree ← readTree depth node
    return fun file => { file with global := tree }
  else if name == "components" then some fun node => do
    let sections ← Reader.textMap depth readTree node
    return fun file => { file with sections := Dictionary.ofList sections }
  else none

/-- The file with the given text. A text that is blank holds no overrides. -/
def parse (text : String) : Except Fault OverridesFile := do
  if allBlank text then return {}
  let fields ← Reader.run text fun depth => Reader.record depth readField
  return fields.foldl (fun file field => field.2 file) {}

def load (directory : Directory) (path : String) : Except OverridesError OverridesFile :=
  match directory.readText path with
  | .error _ => .error (.unreadable path)
  | .ok text =>
    match parse text with
    | .error _ => .error (.malformed path)
    | .ok file => .ok file

/-- The values for one component: its own laid over the global ones, which stand below a key
of their own. -/
def resolve (file : OverridesFile) (component : String) : Overrides :=
  let shared : Overrides :=
    if file.global.isEmpty then ∅
    else Dictionary.singleton globalKey (Overrides.unflatten file.global).toValue
  match file.sections.get? component with
  | some own => shared.merge (Overrides.unflatten own)
  | none => shared

def mergedWith (lower upper : OverridesFile) : OverridesFile where
  global := lower.global.merge upper.global
  sections := upper.sections.entries.foldl
    (fun (sections : Dictionary Overrides) part =>
      sections.insert part.1 (((sections.get? part.1).getD ∅).merge part.2))
    lower.sections

end OverridesFile

end Rollout
