import Rollout.Yaml.Token.Scan

/-! The tree of a YAML document.

A reference is labelled by the name of an anchor at first, and by the anchor's slot once the
anchors of the document are known. -/

set_option autoImplicit false

namespace Rollout.Yaml

/-- What stands in front of a node; the tag is written out in full. -/
structure Properties (ι : Type) where
  anchor : Option ι := none
  tag : Option String := none
  deriving Repr

inductive Node (ι : Type) where
  | reference (label : ι)
  | scalar (props : Properties ι) (text : String) (plain : Bool)
  | sequence (props : Properties ι) (items : List (Node ι))
  | mapping (props : Properties ι) (entries : List (Node ι × Node ι))
  deriving Repr, Inhabited

namespace Node

def empty {ι : Type} (props : Properties ι := {}) : Node ι :=
  .scalar props "" true

abbrev Handles := List (String × String)

/-- The handles known in every document; declared ones come before them. -/
def standardHandles : Handles :=
  [("!", "!"), ("!!", "tag:yaml.org,2002:")]

abbrev Parsed := Except Fault (Node String × List Token)

def fullTag (handles : Handles) (handle suffix : String) : Except Fault String :=
  if handle.isEmpty then .ok suffix
  else match handles.lookup handle with
    | some address => .ok (address ++ suffix)
    | none => .error .unknownTagHandle

def properties (handles : Handles) :
    List Token → Except Fault (Properties String × List Token)
  | .anchor a :: .tag h t :: rest => do
    return ({ anchor := some a, tag := some (← fullTag handles h t) }, rest)
  | .tag h t :: .anchor a :: rest => do
    return ({ anchor := some a, tag := some (← fullTag handles h t) }, rest)
  | .anchor a :: rest => .ok ({ anchor := some a }, rest)
  | .tag h t :: rest => do return ({ tag := some (← fullTag handles h t) }, rest)
  | rest => .ok ({}, rest)

def endsMappingEntry : List Token → Bool
  | .key :: _ | .value :: _ | .blockEnd :: _ => true
  | _ => false

/-- Tokens that end an entry of a sequence without indentation of its own. -/
def endsPlainEntry : List Token → Bool
  | .blockEntry :: _ | .key :: _ | .value :: _ | .blockEnd :: _ => true
  | _ => false

def endsFlowMappingEntry : List Token → Bool
  | .flowEntry :: _ | .flowMappingEnd :: _ => true
  | _ => false

def endsFlowPair : List Token → Bool
  | .flowEntry :: _ | .flowSequenceEnd :: _ => true
  | _ => false

mutual

/-- One node. Block collections are read only where `inBlock` holds, and a sequence whose
dashes stand at the indentation of the mapping around it only where `dashes` holds. -/
def parse (handles : Handles) :
    Nat → (inBlock dashes : Bool) → List Token → Parsed
  | 0, _, _, _ => .error .misplacedToken
  | fuel + 1, inBlock, dashes, tokens =>
    match tokens with
    | .reference name :: rest => .ok (.reference name, rest)
    | _ => do
      let (props, tokens) ← properties handles tokens
      let isMark := props.tag == some "!"
      match tokens with
      | .blockEntry :: _ =>
        if dashes then do
          let (items, rest) ← parsePlainEntries handles fuel tokens
          return (.sequence props items, rest)
        else if props.anchor.isSome || props.tag.isSome then .ok (empty props, tokens)
        else .error .misplacedToken
      | .scalar text plain :: rest =>
        -- the tag `!` says no more of a scalar than that it is there
        if isMark then .ok (.scalar { props with tag := none } text plain, rest)
        else .ok (.scalar props text plain, rest)
      | .flowSequenceStart :: rest => do
        let (items, rest) ← parseFlowItems handles fuel true rest
        return (.sequence props items, rest)
      | .flowMappingStart :: rest => do
        let (entries, rest) ← parseFlowEntries handles fuel true rest
        return (.mapping props entries, rest)
      | .blockSequenceStart :: rest =>
        if inBlock then do
          let (items, rest) ← parseBlockItems handles fuel rest
          return (.sequence props items, rest)
        else if props.anchor.isSome || props.tag.isSome then .ok (empty props, tokens)
        else .error .misplacedToken
      | .blockMappingStart :: rest =>
        if inBlock then do
          let (entries, rest) ← parseBlockEntries handles fuel rest
          return (.mapping props entries, rest)
        else if props.anchor.isSome || props.tag.isSome then .ok (empty props, tokens)
        else .error .misplacedToken
      | _ =>
        if props.anchor.isSome || props.tag.isSome then .ok (empty props, tokens)
        else .error .misplacedToken

def parseBlockItems (handles : Handles) :
    Nat → List Token → Except Fault (List (Node String) × List Token)
  | 0, _ => .error .misplacedToken
  | fuel + 1, tokens =>
    match tokens with
    | .blockEnd :: rest => .ok ([], rest)
    | .blockEntry :: rest => do
      let (item, rest) ← match rest with
        | .blockEntry :: _ | .blockEnd :: _ => pure (empty, rest)
        | _ => parse handles fuel true false rest
      let (items, rest) ← parseBlockItems handles fuel rest
      return (item :: items, rest)
    | _ => .error .misplacedToken

def parsePlainEntries (handles : Handles) :
    Nat → List Token → Except Fault (List (Node String) × List Token)
  | 0, _ => .error .misplacedToken
  | fuel + 1, tokens =>
    match tokens with
    | .blockEntry :: rest => do
      let (item, rest) ←
        if endsPlainEntry rest then pure (empty, rest) else parse handles fuel true false rest
      let (items, rest) ← parsePlainEntries handles fuel rest
      return (item :: items, rest)
    | _ => .ok ([], tokens)

def parseBlockEntries (handles : Handles) :
    Nat → List Token → Except Fault (List (Node String × Node String) × List Token)
  | 0, _ => .error .misplacedToken
  | fuel + 1, tokens =>
    match tokens with
    | .blockEnd :: rest => .ok ([], rest)
    | .key :: rest => do
      let (key, rest) ←
        if endsMappingEntry rest then pure (empty, rest) else parse handles fuel true true rest
      let (value, rest) ← match rest with
        | .value :: rest =>
          if endsMappingEntry rest then pure (empty, rest) else parse handles fuel true true rest
        | _ => pure (empty, rest)
      let (entries, rest) ← parseBlockEntries handles fuel rest
      return ((key, value) :: entries, rest)
    | _ => .error .misplacedToken

/-- The items of a flow sequence up to its end. A key among them begins a mapping of one
entry. -/
def parseFlowItems (handles : Handles) :
    Nat → (first : Bool) → List Token → Except Fault (List (Node String) × List Token)
  | 0, _, _ => .error .misplacedToken
  | fuel + 1, first, tokens =>
    match tokens with
    | .flowSequenceEnd :: rest => .ok ([], rest)
    | _ => do
      let tokens ←
        if first then pure tokens
        else match tokens with
          | .flowEntry :: rest => pure rest
          | _ => .error .misplacedToken
      match tokens with
      | .flowSequenceEnd :: rest => .ok ([], rest)
      | .key :: rest => do
        let (pair, rest) ← parseFlowPair handles fuel rest
        let (items, rest) ← parseFlowItems handles fuel false rest
        return (.mapping {} [pair] :: items, rest)
      | _ => do
        let (item, rest) ← parse handles fuel false false tokens
        let (items, rest) ← parseFlowItems handles fuel false rest
        return (item :: items, rest)

/-- The single entry of a mapping inside a flow sequence. An empty key swallows the token
behind it. -/
def parseFlowPair (handles : Handles) :
    Nat → List Token → Except Fault ((Node String × Node String) × List Token)
  | 0, _ => .error .misplacedToken
  | fuel + 1, tokens => do
    let (key, rest) ← match tokens with
      | .value :: rest => pure (empty, rest)
      | .flowEntry :: rest => pure (empty, rest)
      | .flowSequenceEnd :: rest => pure (empty, rest)
      | _ => parse handles fuel false false tokens
    let (value, rest) ← match rest with
      | .value :: rest =>
        if endsFlowPair rest then pure (empty, rest) else parse handles fuel false false rest
      | _ => pure (empty, rest)
    return ((key, value), rest)

def parseFlowEntries (handles : Handles) :
    Nat → (first : Bool) → List Token →
      Except Fault (List (Node String × Node String) × List Token)
  | 0, _, _ => .error .misplacedToken
  | fuel + 1, first, tokens =>
    match tokens with
    | .flowMappingEnd :: rest => .ok ([], rest)
    | _ => do
      let tokens ←
        if first then pure tokens
        else match tokens with
          | .flowEntry :: rest => pure rest
          | _ => .error .misplacedToken
      match tokens with
      | .flowMappingEnd :: rest => .ok ([], rest)
      | .key :: rest => do
        let (key, rest) ← match rest with
          | .value :: _ => pure (empty, rest)
          | _ =>
            if endsFlowMappingEntry rest then pure (empty, rest)
            else parse handles fuel false false rest
        let (value, rest) ← match rest with
          | .value :: rest =>
            if endsFlowMappingEntry rest then pure (empty, rest)
            else parse handles fuel false false rest
          | _ => pure (empty, rest)
        let (entries, rest) ← parseFlowEntries handles fuel false rest
        return ((key, value) :: entries, rest)
      | _ => do
        let (key, rest) ← parse handles fuel false false tokens
        let (entries, rest) ← parseFlowEntries handles fuel false rest
        return ((key, empty) :: entries, rest)

end

end Node

end Rollout.Yaml
