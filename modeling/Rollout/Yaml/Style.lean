import Rollout.Yaml.Character
import Rollout.Yaml.Scalar

/-! The styles in which a scalar can be written, and the choice among them. -/

set_option autoImplicit false

namespace Rollout.Yaml

inductive Style where
  | plain
  | singleQuoted
  | doubleQuoted
  /-- The lines of the text below a bar. -/
  | literal
  deriving DecidableEq, Repr

namespace Style

def isSpaceMark (c : Char) : Bool := c == ' '

def meets (first second : Char → Bool) : List Char → Bool
  | a :: b :: rest => (first a && second b) || meets first second (b :: rest)
  | _ => false

def leadIndicators : List Char :=
  ['#', ',', '[', ']', '\x7b', '\x7d', '&', '*', '!', '|', '>', '\'', '"', '%', '@',
    Char.ofNat 0x60]

def leadIsIndicator : List Char → Bool
  | [] => false
  | c :: rest =>
    leadIndicators.contains c || ((c == '-' || c == '?' || c == ':') && startsBlank rest)

/-- A colon before a blank, or a number sign behind one, past the first character. -/
def holdsIndicator : List Char → Bool
  | a :: b :: rest =>
    (b == ':' && startsBlank rest) || (b == '#' && isSpaceOrBreak a) || holdsIndicator (b :: rest)
  | _ => false

def looksStructured (text : List Char) : Bool :=
  ['-', '-', '-'].isPrefixOf text || ['.', '.', '.'].isPrefixOf text ||
    leadIsIndicator text || holdsIndicator text

def endsIn (p : Char → Bool) (text : List Char) : Bool :=
  text.getLast?.any p

def startsIn (p : Char → Bool) (text : List Char) : Bool :=
  text.head?.any p

def singleAllowed (text : List Char) : Bool :=
  text.all isPrintable && !meets isBreak isSpaceMark text && !meets isSpaceMark isBreak text

def plainAllowed (text : List Char) : Bool :=
  text.all isPrintable && !text.any isBreak && !startsIn isSpaceMark text &&
    !endsIn isSpaceMark text && !looksStructured text

def literalAllowed (text : List Char) : Bool :=
  text.all isPrintable && !meets isSpaceMark isBreak text && !endsIn isSpaceMark text

/-- Lines are kept as lines, what would be read as no text is quoted, and all else is plain;
where a style cannot hold the text, a stronger one does. -/
def ofText (text : String) : Style :=
  let chars := text.toList
  if chars.contains '\n' then
    if literalAllowed chars then .literal else .doubleQuoted
  else if !Scalar.needsQuotes text && plainAllowed chars then .plain
  else if singleAllowed chars then .singleQuoted
  else .doubleQuoted

end Style

end Rollout.Yaml
