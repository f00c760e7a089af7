import Rollout.Yaml.Node

/-! A text as one YAML document, its anchors resolved. -/

set_option autoImplicit false

namespace Rollout.Yaml

namespace Node

/-- Anchors by name, the latest first, with the slot that each one was given. -/
abbrev Slots := List (String × Nat)

/-- Gives an anchor its slot: the number of different names known before. -/
def assignSlot (slots : Slots) (name : String) : Slots × Nat :=
  let slot := slots.length
  ((name, slot) :: slots.filter (·.1 != name), slot)

def resolveProps (slots : Slots) (props : Properties String) :
    Slots × Properties Nat :=
  match props.anchor with
  | some name =>
    let (slots, slot) := assignSlot slots name
    (slots, { anchor := some slot, tag := props.tag })
  | none => (slots, { tag := props.tag })

mutual

def resolve : Node String → Slots → Except Fault (Node Nat × Slots)
  | .reference name, slots =>
    match slots.lookup name with
    | some slot => .ok (.reference slot, slots)
    | none => .error .unknownAnchor
  | .scalar props text plain, slots =>
    let (slots, props) := resolveProps slots props
    .ok (.scalar props text plain, slots)
  | .sequence props items, slots => do
    let (slots, props) := resolveProps slots props
    let (items, slots) ← resolveItems items slots
    return (.sequence props items, slots)
  | .mapping props entries, slots => do
    let (slots, props) := resolveProps slots props
    let (entries, slots) ← resolveEntries entries slots
    return (.mapping props entries, slots)

def resolveItems : List (Node String) → Slots → Except Fault (List (Node Nat) × Slots)
  | [], slots => .ok ([], slots)
  | item :: rest, slots => do
    let (item, slots) ← resolve item slots
    let (rest, slots) ← resolveItems rest slots
    return (item :: rest, slots)

def resolveEntries : List (Node String × Node String) → Slots →
    Except Fault (List (Node Nat × Node Nat) × Slots)
  | [], slots => .ok ([], slots)
  | (key, value) :: rest, slots => do
    let (key, slots) ← resolve key slots
    let (value, slots) ← resolve value slots
    let (rest, slots) ← resolveEntries rest slots
    return ((key, value) :: rest, slots)

end

mutual

/-- Places where nodes begin or collections end. -/
def size {ι : Type} : Node ι → Nat
  | .reference _ => 1
  | .scalar _ _ _ => 1
  | .sequence _ items => 2 + sizeItems items
  | .mapping _ entries => 2 + sizeEntries entries

def sizeItems {ι : Type} : List (Node ι) → Nat
  | [] => 0
  | item :: rest => size item + sizeItems rest

def sizeEntries {ι : Type} : List (Node ι × Node ι) → Nat
  | [] => 0
  | (key, value) :: rest => size key + size value + sizeEntries rest

end

mutual

def anchored {ι : Type} : Node ι → List (ι × Node ι)
  | .reference _ => []
  | .scalar props text plain =>
    match props.anchor with
    | some a => [(a, .scalar props text plain)]
    | none => []
  | .sequence props items =>
    match props.anchor with
    | some a => (a, .sequence props items) :: anchoredItems items
    | none => anchoredItems items
  | .mapping props entries =>
    match props.anchor with
    | some a => (a, .mapping props entries) :: anchoredEntries entries
    | none => anchoredEntries entries

def anchoredItems {ι : Type} : List (Node ι) → List (ι × Node ι)
  | [] => []
  | item :: rest => anchored item ++ anchoredItems rest

def anchoredEntries {ι : Type} : List (Node ι × Node ι) → List (ι × Node ι)
  | [] => []
  | (key, value) :: rest => anchored key ++ anchored value ++ anchoredEntries rest

end

end Node

structure Document where
  root : Node Nat
  /-- The nodes that references lead to; of two with one slot the first counts. -/
  anchors : List (Nat × Node Nat)
  /-- How many references may be followed while reading. -/
  referenceLimit : Nat

namespace Document

def directives : List Token → (versionSeen : Bool) → Node.Handles →
    Except Fault (Node.Handles × List Token)
  | .versionDirective major minor :: rest, versionSeen, handles =>
    if versionSeen || major != 1 || (minor != 1 && minor != 2) then .error .badDirective
    else directives rest true handles
  | .tagDirective handle address :: rest, versionSeen, handles =>
    if (handles.lookup handle).isSome then .error .badDirective
    else directives rest versionSeen (handles ++ [(handle, address)])
  | tokens, _, handles => .ok (handles, tokens)

def startsExplicitly : List Token → Bool
  | .versionDirective _ _ :: _ | .tagDirective _ _ :: _ | .documentStart :: _ => true
  | _ => false

def holdsNothing : List Token → Bool
  | [] | .versionDirective _ _ :: _ | .tagDirective _ _ :: _ | .documentStart :: _
  | .documentEnd :: _ => true
  | _ => false

/-- The tree of the only document of a text. A text without any is an empty scalar. -/
def rootOf (tokens : List Token) : Except Fault (Node String) := do
  if tokens.isEmpty then return Node.empty
  let fuel := 2 * tokens.length + 2
  let (root, rest) ←
    if startsExplicitly tokens then
      let (handles, tokens) ← directives tokens false []
      match tokens with
      | .documentStart :: tokens =>
        if holdsNothing tokens then pure (Node.empty, tokens)
        else Node.parse (handles ++ Node.standardHandles) fuel true false tokens
      | _ => .error .misplacedToken
    else Node.parse Node.standardHandles fuel true false tokens
  match rest.dropWhile (· == .documentEnd) with
  | [] => return root
  | _ => .error .severalDocuments

def parse (text : String) : Except Fault Document := do
  let root ← rootOf (← Token.scan text)
  let (root, _) ← root.resolve []
  return {
    root := root
    anchors := root.anchored.reverse
    referenceLimit := 100 * root.size }

end Document

end Rollout.Yaml
