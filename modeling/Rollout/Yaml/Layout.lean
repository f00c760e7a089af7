import Rollout.Yaml.Style

/-! A YAML text in the making.

The indentation of the collection around is given to the operations; it is -1 outside of
any. -/

set_option autoImplicit false

namespace Rollout.Yaml

structure Layout where
  text : String := ""
  column : Nat := 0
  /-- Nothing needs a space in front of it here. -/
  spaced : Bool := true
  /-- The line holds nothing but indentation and marks of items so far. -/
  fresh : Bool := true

namespace Layout

def put (c : Char) (layout : Layout) : Layout :=
  { layout with text := layout.text.push c, column := layout.column + 1 }

def putAll (chars : List Char) (layout : Layout) : Layout :=
  chars.foldl (fun layout c => layout.put c) layout

def breakLine (c : Char) (layout : Layout) : Layout :=
  { layout with text := layout.text.push c, column := 0 }

def space (layout : Layout) : Layout :=
  if layout.spaced then layout else layout.put ' '

def newLine (indent : Int) (layout : Layout) : Layout :=
  let indent := indent.toNat
  let layout :=
    if !layout.fresh || indent < layout.column || (layout.column == indent && !layout.spaced) then
      layout.breakLine '\n'
    else layout
  { layout.putAll (List.replicate (indent - layout.column) ' ') with spaced := true, fresh := true }

/-- The mark of an item, behind which another collection may begin on the same line. -/
def mark (c : Char) (layout : Layout) : Layout :=
  { layout.space.put c with spaced := false }

def word (chars : List Char) (layout : Layout) : Layout :=
  { layout.space.putAll chars with spaced := false, fresh := false }

def attached (chars : List Char) (layout : Layout) : Layout :=
  { layout.putAll chars with spaced := false, fresh := false }

def hexDigits (width n : Nat) : List Char :=
  let digits := (Nat.toDigits 16 n).map Char.toUpper
  List.replicate (width - digits.length) '0' ++ digits

def escapeLetter? (c : Char) : Option Char :=
  match c.toNat with
  | 0x00 => some '0'
  | 0x07 => some 'a'
  | 0x08 => some 'b'
  | 0x09 => some 't'
  | 0x0A => some 'n'
  | 0x0B => some 'v'
  | 0x0C => some 'f'
  | 0x0D => some 'r'
  | 0x1B => some 'e'
  | 0x22 => some '"'
  | 0x5C => some '\\'
  | 0x85 => some 'N'
  | 0x2028 => some 'L'
  | 0x2029 => some 'P'
  | _ => none

def escaped (c : Char) : List Char :=
  match escapeLetter? c with
  | some letter => ['\\', letter]
  | none =>
    if isPrintable c then [c]
    else if c.toNat ≤ 0xFF then '\\' :: 'x' :: hexDigits 2 c.toNat
    else if c.toNat ≤ 0xFFFF then '\\' :: 'u' :: hexDigits 4 c.toNat
    else '\\' :: 'U' :: hexDigits 8 c.toNat

/-- The characters of a single quoted scalar; what follows a line end is indented. -/
def quotedChars (indent : Int) : List Char → (afterBreak : Bool) → Layout → Layout
  | [], afterBreak, layout => if afterBreak then layout.newLine indent else layout
  | c :: rest, afterBreak, layout =>
    if isBreak c then quotedChars indent rest true { layout.breakLine c with fresh := true }
    else
      let layout := if afterBreak then layout.newLine indent else layout
      let layout := layout.putAll (if c == '\'' then ['\'', '\''] else [c])
      quotedChars indent rest false { layout with fresh := false }

/-- The lines of a literal scalar; an empty line is not indented. -/
def literalChars (indent : Int) : List Char → (afterBreak : Bool) → Layout → Layout
  | [], _, layout => layout
  | c :: rest, afterBreak, layout =>
    if isBreak c then literalChars indent rest true { layout.breakLine c with fresh := true }
    else
      let layout := if afterBreak then layout.newLine indent else layout
      literalChars indent rest false { layout.put c with fresh := false }

/-- What stands behind the bar of a literal scalar: the indentation, where the text itself
begins with a blank, and what becomes of the line ends behind it. -/
def literalHints (text : List Char) : List Char :=
  (match text with
    | c :: _ => if c == ' ' || isBreak c then ['2'] else []
    | [] => []) ++
  match text.reverse with
  | [] => ['-']
  | [last] => if isBreak last then ['+'] else ['-']
  | last :: previous :: _ =>
    if !isBreak last then ['-'] else if isBreak previous then ['+'] else []

def scalar (style : Style) (text : String) (indent : Int) (layout : Layout) : Layout :=
  let inner := max indent 0 + 2
  match style with
  | .plain => layout.word text.toList
  | .singleQuoted => (quotedChars inner text.toList false (layout.word ['\''])).attached ['\'']
  | .doubleQuoted => layout.word ('"' :: text.toList.flatMap escaped ++ ['"'])
  | .literal =>
    let layout := (layout.word ('|' :: literalHints text.toList)).breakLine '\n'
    literalChars inner text.toList true { layout with spaced := true, fresh := true }

end Layout

end Rollout.Yaml
