import Rollout.Yaml.Document
import Rollout.Yaml.Scalar

/-! Reading the nodes of a document as values, texts and records. -/

set_option autoImplicit false

namespace Rollout.Yaml

/-- Reads with a document at hand, and counts the references followed so far. -/
abbrev Reader := ReaderT Document (StateT Nat (Except Fault))

namespace Reader

def depthLimit : Nat := 128

def fail {α : Type} (fault : Fault) : Reader α :=
  fun _ _ => .error fault

/-- The node itself, or the one that it refers to. -/
def target (node : Node Nat) : Reader (Node Nat) := fun document count =>
  match node with
  | .reference slot =>
    if document.referenceLimit < count + 1 then .error .tooManyReferences
    else match document.anchors.lookup slot with
      | some found => .ok (found, count + 1)
      | none => .error .unknownAnchor
  | node => .ok (node, count)

def tagName? (tag : Option String) : Option String :=
  match tag.map String.toList with
  | some ('!' :: name) => some (String.ofList name)
  | _ => none

def plainTagName (name : String) : String :=
  match name.toList with
  | '!' :: c :: rest => String.ofList (c :: rest)
  | _ => name

def wrap (tag : Option String) (content : Reader Value) : Reader Value :=
  match tagName? tag with
  | none => content
  | some name =>
    if name.isEmpty then fail .emptyTag
    else return .tagged (plainTagName name) (← content)

def scalarValue (tag : Option String) (text : String) (plain : Bool) : Reader Value :=
  match tag with
  | none => if plain then liftM (Scalar.resolve text) else return .text text
  | some tag =>
    if tag.startsWith "!" then
      if plain then liftM (Scalar.resolve text) else return .text text
    else liftM (Scalar.resolveAs tag text)

def mappingEntries (readNode : Node Nat → Reader Value) :
    List (Node Nat × Node Nat) → List (Value × Value) → Reader (List (Value × Value))
  | [], done => return done.reverse
  | (k, v) :: rest, done => do
    let key ← readNode k
    if Value.hasKey key done then fail .duplicateKey
    else
      let value ← readNode v
      mappingEntries readNode rest ((key, value) :: done)

/-- A node as a value, with `depth` levels of collections left. Keys of a mapping must differ. -/
def value (depth : Nat) (node : Node Nat) : Reader Value := do
  match ← target node with
  | .reference _ => fail .unknownAnchor
  | .scalar props text plain => wrap props.tag (scalarValue props.tag text plain)
  | .sequence props items =>
    wrap props.tag <|
      match depth with
      | 0 => fail .tooDeep
      | depth + 1 => return .sequence (← items.mapM fun item => value depth item)
  | .mapping props entries =>
    wrap props.tag <|
      match depth with
      | 0 => fail .tooDeep
      | depth + 1 => return .mapping (← mappingEntries (fun node => value depth node) entries [])

def text (node : Node Nat) : Reader String := do
  match ← target node with
  | .scalar _ text _ => return text
  | _ => fail .wrongKind

def optionalText (node : Node Nat) : Reader (Option String) := do
  match ← target node with
  | .scalar props text plain =>
    if !plain then return some text
    else match props.tag with
      | some tag =>
        if tag == "tag:yaml.org,2002:null" then
          if Scalar.null? text then return none else fail .tagMismatch
        else return some text
      | none => return if text.isEmpty || Scalar.null? text then none else some text
  | _ => fail .wrongKind

/-- The entries of a mapping. A place where nothing is written has none. -/
def entries {α : Type} (depth : Nat) (readEntry : Nat → Node Nat × Node Nat → Reader α)
    (node : Node Nat) : Reader (List α) := do
  match ← target node with
  | .mapping _ entries =>
    match depth with
    | 0 => fail .tooDeep
    | depth + 1 => entries.mapM (readEntry depth)
  | .scalar _ "" true => return []
  | _ => fail .wrongKind

def items {α : Type} (depth : Nat) (readItem : Nat → Node Nat → Reader α)
    (node : Node Nat) : Reader (List α) := do
  match ← target node with
  | .sequence _ items =>
    match depth with
    | 0 => fail .tooDeep
    | depth + 1 => items.mapM (readItem depth)
  | .scalar _ "" true => return []
  | _ => fail .wrongKind

/-- A mapping with text keys; of entries with one key the last counts. -/
def textMap {α : Type} (depth : Nat) (readItem : Nat → Node Nat → Reader α)
    (node : Node Nat) : Reader (List (String × α)) :=
  entries depth (fun depth entry => return (← text entry.1, ← readItem depth entry.2)) node

/-- A mapping as a record: `readField` reads the fields that it knows and leaves the others.
A known field may be there once only. -/
def record {α : Type} (depth : Nat) (readField : Nat → String → Option (Node Nat → Reader α))
    (node : Node Nat) : Reader (List (String × α)) := do
  let fields ← entries depth (fun depth entry => do
    let name ← text entry.1
    match readField depth name with
    | some readValue => return [(name, ← readValue entry.2)]
    | none => return []) node
  let fields := fields.flatten
  if (fields.map (·.1)).eraseDups.length < fields.length then fail .duplicateKey
  else return fields

def run {α : Type} (text : String) (read : Nat → Node Nat → Reader α) : Except Fault α := do
  let document ← Document.parse text
  let (result, _) ← (read depthLimit document.root) document 0
  return result

def missing {α : Type} : Reader α := fail .missingField

end Reader

end Rollout.Yaml
