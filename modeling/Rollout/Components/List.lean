import Rollout.Component
import Rollout.Directory
import Rollout.Text.Blank
import Rollout.Yaml.Read
import Rollout.Yaml.Render

/-! The list of the components of a system, in two groups: prerequisites come before all
others. -/

set_option autoImplicit false

namespace Rollout

open Text Yaml

inductive ComponentListError where
  | unreadable (path : String)
  | malformed (path : String)
  | emptyName
  | duplicate (name : String)
  deriving DecidableEq, Repr

def ComponentListError.message : ComponentListError → String
  | .unreadable path => "unable to read components file " ++ quotedPath path
  | .malformed path => "invalid components file " ++ quotedPath path
  | .emptyName => "component name must not be empty"
  | .duplicate name => "component " ++ name ++ " is listed more than once"

structure ComponentEntry where
  name : String
  /-- The namespace of the release, where it is not the one of the whole list. -/
  releaseNamespace : Option String := none
  deriving DecidableEq, Repr

structure ComponentList where
  defaultNamespace : String := "kyma-system"
  prerequisites : List ComponentEntry := []
  components : List ComponentEntry := []
  deriving DecidableEq, Repr

inductive Group where
  | prerequisites
  | components
  deriving DecidableEq, Repr

namespace ComponentList

def group (list : ComponentList) : Group → List ComponentEntry
  | .prerequisites => list.prerequisites
  | .components => list.components

def entries (list : ComponentList) : List ComponentEntry :=
  list.prerequisites ++ list.components

def checkNames (seen : List String) : List String → Except ComponentListError Unit
  | [] => .ok ()
  | name :: rest =>
    if allBlank name then .error .emptyName
    else if name ∈ seen then .error (.duplicate name)
    else checkNames (name :: seen) rest

/-- Names must not be blank, and no two components may have the same. -/
def validate (list : ComponentList) : Except ComponentListError Unit :=
  checkNames [] (list.entries.map (·.name))

/-- The namespace of a component; an empty one counts as none. -/
def namespaceOf (list : ComponentList) (entry : ComponentEntry) : String :=
  match entry.releaseNamespace with
  | some n => if n.isEmpty then list.defaultNamespace else n
  | none => list.defaultNamespace

def resolve (list : ComponentList) (group : Group) : List (String × String) :=
  (list.group group).map fun entry => (entry.name, list.namespaceOf entry)

def entryField (_ : Nat) (name : String) :
    Option (Node Nat → Reader (ComponentEntry → ComponentEntry)) :=
  if name == "name" then some fun node => do
    let name ← Reader.text node
    return fun entry => { entry with name := name }
  else if name == "namespace" then some fun node => do
    let ns ← Reader.optionalText node
    return fun entry => { entry with releaseNamespace := ns }
  else none

def readEntry (depth : Nat) (node : Node Nat) : Reader ComponentEntry := do
  let fields ← Reader.record depth entryField node
  if fields.any (·.1 == "name") then
    return fields.foldl (fun entry field => field.2 entry) { name := "" }
  else Reader.missing

def listField (depth : Nat) (name : String) :
    Option (Node Nat → Reader (ComponentList → ComponentList)) :=
  if name == "defaultNamespace" then some fun node => do
    let ns ← Reader.text node
    return fun list => { list with defaultNamespace := ns }
  else if name == "prerequisites" then some fun node => do
    let entries ← Reader.items depth readEntry node
    return fun list => { list with prerequisites := entries }
  else if name == "components" then some fun node => do
    let entries ← Reader.items depth readEntry node
    return fun list => { list with components := entries }
  else none

def parse (text : String) : Except Fault ComponentList := do
  let fields ← Reader.run text fun depth => Reader.record depth listField
  return fields.foldl (fun list field => field.2 list) {}

def load (directory : Directory) (path : String) : Except ComponentListError ComponentList :=
  match directory.readText path with
  | .error _ => .error (.unreadable path)
  | .ok text =>
    match parse text with
    | .error _ => .error (.malformed path)
    | .ok list => do
      list.validate
      return list

def entryValue (entry : ComponentEntry) : Value :=
  .mapping <| (.text "name", .text entry.name) ::
    match entry.releaseNamespace with
    | some n => [(.text "namespace", .text n)]
    | none => []

def toValue (list : ComponentList) : Value :=
  .mapping [
    (.text "defaultNamespace", .text list.defaultNamespace),
    (.text "prerequisites", .sequence (list.prerequisites.map entryValue)),
    (.text "components", .sequence (list.components.map entryValue))]

def render (list : ComponentList) : String :=
  list.toValue.render?.getD ""

/-- The components of a group of names and namespaces, fresh, in order or in reverse. The chart
of each is at its name, joined to the resource path. -/
def charted (resourcePath : String) (group : List (String × String)) (reversed : Bool) :
    List Component :=
  let all := group.map fun (name, ns) =>
    { name := name, releaseNamespace := ns, chart := joinPath resourcePath name }
  if reversed then all.reverse else all

end ComponentList

end Rollout
