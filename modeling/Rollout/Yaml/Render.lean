import Rollout.Text.Utf8
import Rollout.Yaml.Layout

/-! The text of a value.

Collections are written in block style, unless they are empty. -/

set_option autoImplicit false

namespace Rollout.Yaml.Value

open Rollout.Text Rollout.Number

def scalarForm? : Value → Option (Style × String)
  | .null => some (.plain, "null")
  | .bool b => some (.plain, if b then "true" else "false")
  | .int n => some (.plain, toString n)
  | .float x => some (.plain, x.toText)
  | .text s => some (Style.ofText s, s)
  | _ => none

def tagByte (b : UInt8) : List Char :=
  let digits := (Nat.toDigits 16 b.toNat).map Char.toUpper
  '%' :: List.replicate (2 - digits.length) '0' ++ digits

/-- A tag as written; characters that may not stand in one, or that would end its handle, are
replaced by their bytes. -/
def tagText (name : String) : List Char :=
  '!' :: name.toList.flatMap fun c =>
    if c != '%' && c != '!' && isTagChar true c then [c]
    else (encode (String.singleton c)).flatMap tagByte

/-- The most bytes of a key that stands on one line with its value. -/
def keyLimit : Nat := 128

def isShortKey (size : Nat) : Value → Bool
  | .tagged name value => isShortKey (size + name.utf8ByteSize + 1) value
  | .sequence items => items.isEmpty && size ≤ keyLimit
  | .mapping entries => entries.isEmpty && size ≤ keyLimit
  | .text s => !s.toList.any isBreak && size + s.utf8ByteSize ≤ keyLimit
  | value => size + ((scalarForm? value).elim 0 fun form => form.2.utf8ByteSize) ≤ keyLimit

mutual

/-- Writes a value into a collection with the given indentation. The dashes of a sequence
that is part of a mapping need no indentation of their own below the key. -/
def write (indent : Int) (inMapping : Bool) : Value → Layout → Layout
  | .tagged name value, layout => write indent inMapping value (layout.word (tagText name))
  | .sequence [], layout => layout.word ['[', ']']
  | .sequence (item :: rest), layout =>
    let inner :=
      if indent < 0 then 0 else if inMapping && !layout.fresh then indent else indent + 2
    writeItems inner (item :: rest) layout
  | .mapping [], layout => layout.word ['\x7b', '\x7d']
  | .mapping (entry :: rest), layout =>
    writeEntries (if indent < 0 then 0 else indent + 2) (entry :: rest) layout
  | value, layout =>
    match scalarForm? value with
    | some (style, content) => layout.scalar style content indent
    | none => layout

def writeItems (indent : Int) : List Value → Layout → Layout
  | [], layout => layout
  | item :: rest, layout =>
    writeItems indent rest (write indent false item ((layout.newLine indent).mark '-'))

def writeEntries (indent : Int) : List (Value × Value) → Layout → Layout
  | [], layout => layout
  | (key, value) :: rest, layout =>
    let layout := layout.newLine indent
    let layout :=
      if isShortKey 0 key then (write indent true key layout).attached [':']
      else ((write indent true key (layout.mark '?')).newLine indent).mark ':'
    writeEntries indent rest (write indent true value layout)

end

def isSingleEntry : Value → Bool
  | .mapping [_] => true
  | .tagged _ _ => true
  | _ => false

mutual

/-- Whether a value has a text. A tag cannot stand under a tag, and the key of a mapping with
one entry can neither have a tag nor be such a mapping, unless the mapping has a tag. -/
def isWritable (underTag : Bool) : Value → Bool
  | .tagged _ value => !underTag && isWritable true value
  | .sequence items => areWritable items
  | .mapping [(key, value)] =>
    (underTag || !isSingleEntry key) && isWritable false key && isWritable false value
  | .mapping entries => entriesWritable entries
  | _ => true

def areWritable : List Value → Bool
  | [] => true
  | item :: rest => isWritable false item && areWritable rest

def entriesWritable : List (Value × Value) → Bool
  | [] => true
  | (key, value) :: rest =>
    isWritable false key && isWritable false value && entriesWritable rest

end

def render? (value : Value) : Option String :=
  if isWritable false value then some ((write (-1) false value {}).newLine 0).text
  else none

end Rollout.Yaml.Value
