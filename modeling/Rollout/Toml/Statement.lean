import Rollout.Toml.Scalar

/-! The statements of a TOML document. -/

set_option autoImplicit false

namespace Rollout.Toml

/-- A line that says something: what a key stands for, or where the next lines belong. The
parts of a dotted key form a path. -/
inductive Statement where
  | pair (path : List String) (value : Value)
  | header (path : List String)
  | arrayHeader (path : List String)
  deriving Repr

/-- How deep values may stand inside each other, and how long a path may be. -/
def nestingLimit : Nat := 79

def isBareKeyChar (c : Char) : Bool :=
  c.isAlphanum || c == '-' || c == '_'

def dropSpaces (text : List Char) : List Char :=
  text.dropWhile isSpace

def takeKeyPart (text : List Char) : Option (String × List Char) :=
  match text with
  | '"' :: rest => (takeBasic rest).map fun t => (String.ofList t.1, t.2)
  | '\'' :: rest => (takeLiteral rest).map fun t => (String.ofList t.1, t.2)
  | text =>
    let bare := text.takeWhile isBareKeyChar
    if bare.isEmpty then none
    else some (String.ofList bare, text.dropWhile isBareKeyChar)

def takeKey : Nat → List Char → Option (List String × List Char)
  | 0, _ => none
  | fuel + 1, text => do
    let (part, rest) ← takeKeyPart (dropSpaces text)
    match dropSpaces rest with
    | '.' :: rest => do
      let (parts, rest) ← takeKey fuel rest
      return (part :: parts, rest)
    | rest => return ([part], rest)

def dropComment : List Char → List Char
  | '#' :: rest => rest.dropWhile isPlainChar
  | rest => rest

def dropFiller : Nat → List Char → List Char
  | 0, text => text
  | fuel + 1, text =>
    match dropComment (dropSpaces text) with
    | '\n' :: rest => dropFiller fuel rest
    | '\r' :: '\n' :: rest => dropFiller fuel rest
    | rest => rest

/-- Keys and values, built up to a table by this function, are what braces hold. -/
abbrev TableOf := List (List String × Value) → Option Value

mutual

def takeValue (tableOf : TableOf) : Nat → (depth : Nat) → List Char → Option (Value × List Char)
  | 0, _, _ => none
  | fuel + 1, depth, text =>
    match text with
    | '"' :: _ | '\'' :: _ => (takeQuoted text).map fun t => (.text (String.ofList t.1), t.2)
    | '[' :: rest => if depth = 0 then none else takeItems tableOf fuel (depth - 1) rest
    | '\x7b' :: rest =>
      if depth = 0 then none
      else match dropSpaces rest with
        | '\x7d' :: rest => (tableOf []).map fun table => (table, rest)
        | rest => do
          let (pairs, rest) ← takePairs tableOf fuel (depth - 1) rest
          return (← tableOf pairs, rest)
    | 't' :: 'r' :: 'u' :: 'e' :: rest => some (.bool true, rest)
    | 'f' :: 'a' :: 'l' :: 's' :: 'e' :: rest => some (.bool false, rest)
    | text => takeNumeral text

def takeItems (tableOf : TableOf) : Nat → (depth : Nat) → List Char → Option (Value × List Char)
  | 0, _, _ => none
  | fuel + 1, depth, text =>
    match dropFiller text.length text with
    | ']' :: rest => some (.array [], rest)
    | text => do
      let (item, rest) ← takeValue tableOf fuel depth text
      match dropFiller rest.length rest with
      | ',' :: rest => do
        match ← takeItems tableOf fuel depth rest with
        | (.array items, rest) => return (.array (item :: items), rest)
        | _ => none
      | ']' :: rest => return (.array [item], rest)
      | _ => none

/-- The keys and values between braces, of which there is at least one. -/
def takePairs (tableOf : TableOf) :
    Nat → (depth : Nat) → List Char → Option (List (List String × Value) × List Char)
  | 0, _, _ => none
  | fuel + 1, depth, text => do
    let (path, rest) ← takeKey text.length text
    if nestingLimit < path.length then none
    else match rest with
      | '=' :: rest => do
        let (value, rest) ← takeValue tableOf fuel depth (dropSpaces rest)
        match dropSpaces rest with
        | ',' :: rest => do
          let (pairs, rest) ← takePairs tableOf fuel depth rest
          return ((path, value) :: pairs, rest)
        | '\x7d' :: rest => return ([(path, value)], rest)
        | _ => none
      | _ => none

end

def endLine (text : List Char) : Option (List Char) :=
  match dropComment (dropSpaces text) with
  | [] => some []
  | '\n' :: rest => some rest
  | '\r' :: '\n' :: rest => some rest
  | _ => none

def takeHeader (text : List Char) : Option (List String × List Char) := do
  let (path, rest) ← takeKey text.length text
  if nestingLimit < path.length then none
  else match rest with
    | ']' :: rest => return (path, rest)
    | _ => none

def takeStatement (tableOf : TableOf) (text : List Char) : Option (Statement × List Char) :=
  match text with
  | '[' :: '[' :: rest => do
    match ← takeHeader rest with
    | (path, ']' :: rest) => return (.arrayHeader path, rest)
    | _ => none
  | '[' :: rest => do
    let (path, rest) ← takeHeader rest
    return (.header path, rest)
  | text => do
    let (path, rest) ← takeKey text.length text
    if nestingLimit < path.length then none
    else match rest with
      | '=' :: rest => do
        let rest := dropSpaces rest
        let (value, rest) ← takeValue tableOf (2 * rest.length + 1) nestingLimit rest
        return (.pair path value, rest)
      | _ => none

def statements? (tableOf : TableOf) : Nat → List Char → Option (List Statement)
  | 0, _ => none
  | fuel + 1, text =>
    match dropSpaces text with
    | [] => some []
    | '#' :: rest => do statements? tableOf fuel (← endLine ('#' :: rest))
    | '\n' :: rest => statements? tableOf fuel rest
    | '\r' :: '\n' :: rest => statements? tableOf fuel rest
    | text => do
      let (statement, rest) ← takeStatement tableOf text
      return statement :: (← statements? tableOf fuel (← endLine rest))

end Rollout.Toml
