import Rollout.Toml.Statement

/-! The table that the statements of a TOML document build up. -/

set_option autoImplicit false

namespace Rollout.Toml

inductive Origin where
  /-- By a header of its own. -/
  | header
  /-- By the header of a table inside of it. -/
  | implied
  /-- By a dotted key. -/
  | dotted
  deriving DecidableEq, Repr

inductive Item where
  | leaf (value : Value)
  | table (origin : Origin) (entries : List (String × Item))
  /-- Tables with one header, in the order of the text. -/
  | tables (all : List (List (String × Item)))
  deriving Inhabited, Repr

namespace Item

abbrev Entries := List (String × Item)

def lookup? (entries : Entries) (key : String) : Option Item :=
  entries.lookup key

def put (key : String) (item : Item) : Entries → Entries
  | [] => [(key, item)]
  | entry :: rest => if key = entry.1 then (key, item) :: rest else entry :: put key item rest

/-- Opens the table of a header. It must not have been opened before. -/
def openTable (entries : Entries) : List String → Option Entries
  | [] => none
  | [key] =>
    match lookup? entries key with
    | none => some (put key (.table .header []) entries)
    | some (.table .implied inner) => some (put key (.table .header inner) entries)
    | some _ => none
  | key :: rest =>
    match lookup? entries key with
    | none => do return put key (.table .implied (← openTable [] rest)) entries
    | some (.table origin inner) => do
      return put key (.table origin (← openTable inner rest)) entries
    | some (.tables all) =>
      match all.reverse with
      | [] => none
      | last :: earlier => do
        return put key (.tables (earlier.reverse ++ [← openTable last rest])) entries
    | some (.leaf _) => none

def openArrayTable (entries : Entries) : List String → Option Entries
  | [] => none
  | [key] =>
    match lookup? entries key with
    | none => some (put key (.tables [[]]) entries)
    | some (.tables all) => some (put key (.tables (all ++ [[]])) entries)
    | some _ => none
  | key :: rest =>
    match lookup? entries key with
    | none => do return put key (.table .implied (← openArrayTable [] rest)) entries
    | some (.table origin inner) => do
      return put key (.table origin (← openArrayTable inner rest)) entries
    | some (.tables all) =>
      match all.reverse with
      | [] => none
      | last :: earlier => do
        return put key (.tables (earlier.reverse ++ [← openArrayTable last rest])) entries
    | some (.leaf _) => none

/-- Gives a dotted key its value. The key must be new, and the table that it stands in must
have come to be by dotted keys too. -/
def assign (entries : Entries) : List String → Value → Option Entries
  | [], _ => none
  | [key], value =>
    match lookup? entries key with
    | none => some (put key (.leaf value) entries)
    | some _ => none
  | key :: rest, value =>
    match lookup? entries key with
    | none => do return put key (.table .dotted (← assign [] rest value)) entries
    | some (.table .dotted inner) => do
      return put key (.table .dotted (← assign inner rest value)) entries
    | some (.table .implied inner) =>
      if rest.length = 1 then none
      else do return put key (.table .implied (← assign inner rest value)) entries
    | some (.tables all) =>
      if rest.length = 1 then none
      else match all.reverse with
        | [] => none
        | last :: earlier => do
          return put key (.tables (earlier.reverse ++ [← assign last rest value])) entries
    | some (.table .header _) => none
    | some (.leaf _) => none

def assignUnder (entries : Entries) : List String → List String → Value → Option Entries
  | [], path, value => assign entries path value
  | key :: rest, path, value =>
    match lookup? entries key with
    | some (.table origin inner) => do
      return put key (.table origin (← assignUnder inner rest path value)) entries
    | some (.tables all) =>
      match all.reverse with
      | [] => none
      | last :: earlier => do
        return put key (.tables (earlier.reverse ++ [← assignUnder last rest path value])) entries
    | _ => none

mutual

def toValue : Item → Value
  | .leaf value => value
  | .table _ entries => .table (entryValues entries)
  | .tables all => .array (tableValues all)

def entryValues : Entries → List (String × Value)
  | [] => []
  | (key, item) :: rest => (key, toValue item) :: entryValues rest

def tableValues : List Entries → List Value
  | [] => []
  | entries :: rest => .table (entryValues entries) :: tableValues rest

end

def inlineTable (pairs : List (List String × Value)) : Option Value := do
  let entries ← pairs.foldlM (fun entries pair => assign entries pair.1 pair.2) []
  return .table (entryValues entries)

/-- Carries out statements one by one; `header` is the path that values belong under. -/
def build (entries : Entries) (header : List String) : List Statement → Option Entries
  | [] => some entries
  | .pair path value :: rest => do build (← assignUnder entries header path value) header rest
  | .header path :: rest => do build (← openTable entries path) path rest
  | .arrayHeader path :: rest => do build (← openArrayTable entries path) path rest

end Item

def parse? (text : String) : Option (List (String × Value)) := do
  let chars := match text.toList with
    | '\uFEFF' :: rest => rest
    | chars => chars
  let statements ← statements? Item.inlineTable (chars.length + 1) chars
  return Item.entryValues (← Item.build [] [] statements)

end Rollout.Toml
