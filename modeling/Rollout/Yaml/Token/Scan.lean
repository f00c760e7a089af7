import Rollout.Yaml.Token
import Rollout.Yaml.Token.Scalar
import Rollout.Text.Utf8

/-! Cutting a text into tokens.

The indentation of block collections becomes tokens of its own. A mapping key may stand without
an indicator: every token that could begin such a key is remembered, and the key token is put
in front of it when the colon behind it is met. -/

set_option autoImplicit false

namespace Rollout.Yaml.Token

structure KeyCandidate where
  /-- The indentation leaves no other reading. -/
  required : Bool
  /-- How many tokens stand before it. -/
  position : Nat
  line : Nat
  column : Nat
  index : Nat

structure Scanner where
  cursor : Cursor
  tokens : Array Token
  /-- Column of the innermost block collection, `-1` outside all. -/
  indent : Int
  outerIndents : List Int
  /-- Whether a key may begin at the cursor. -/
  keyAllowed : Bool
  /-- The latest candidate of the block context, and of each open flow collection in front. -/
  candidates : List (Option KeyCandidate)

namespace Scanner

def start (text : List Char) : Scanner :=
  { cursor := .start text, tokens := #[], indent := -1, outerIndents := [],
    keyAllowed := true, candidates := [none] }

def inFlow (s : Scanner) : Bool :=
  1 < s.candidates.length

def push (s : Scanner) (token : Token) : Scanner :=
  { s with tokens := s.tokens.push token }

def move (s : Scanner) (cursor : Cursor) : Scanner :=
  { s with cursor := cursor }

def allowKey (s : Scanner) (allowed : Bool) : Scanner :=
  { s with keyAllowed := allowed }

def dropCandidate (s : Scanner) : Except Fault Scanner :=
  match s.candidates with
  | some k :: rest =>
    if k.required then .error .badToken else .ok { s with candidates := none :: rest }
  | _ => .ok s

def addCandidate (s : Scanner) : Except Fault Scanner :=
  if s.keyAllowed then do
    let candidate : KeyCandidate := {
      required := !s.inFlow && s.indent == (s.cursor.column : Int)
      position := s.tokens.size
      line := s.cursor.line
      column := s.cursor.column
      index := s.cursor.index }
    let s ← s.dropCandidate
    return { s with candidates := some candidate :: s.candidates.tail }
  else .ok s

/-- A key ends on its line and has at most 1024 characters. -/
def dropStale (s : Scanner) : Except Fault Scanner := do
  let candidates ← s.candidates.mapM fun
    | some k =>
      if k.line < s.cursor.line || k.index + 1024 < s.cursor.index then
        if k.required then .error .badToken else .ok none
      else .ok (some k)
    | none => .ok none
  return { s with candidates := candidates }

/-- Opens a block collection at a column to the right of the innermost one. Its token goes to
`position`, or to the end. -/
def openBlock (s : Scanner) (column : Nat) (position : Option Nat) (token : Token) : Scanner :=
  if s.inFlow || (column : Int) ≤ s.indent then s
  else
    { s with
      outerIndents := s.indent :: s.outerIndents
      indent := column
      tokens := match position with
        | some n => s.tokens.insertIdxIfInBounds n token
        | none => s.tokens.push token }

def closeBlocksFrom (column : Int) :
    Array Token → Int → List Int → Array Token × Int × List Int
  | tokens, indent, [] => (tokens, indent, [])
  | tokens, indent, outer :: rest =>
    if column < indent then closeBlocksFrom column (tokens.push .blockEnd) outer rest
    else (tokens, indent, outer :: rest)

def closeBlocks (s : Scanner) (column : Int) : Scanner :=
  if s.inFlow then s
  else
    let (tokens, indent, outer) := closeBlocksFrom column s.tokens s.indent s.outerIndents
    { s with tokens := tokens, indent := indent, outerIndents := outer }

/-- Passes blanks, comments and line ends. Tabs count as blanks only where they cannot be
indentation. -/
def skipToToken : Nat → Scanner → Scanner
  | 0, s => s
  | fuel + 1, s =>
    let c := if s.cursor.index == 0 && s.cursor.looksAt (· == '\uFEFF') then s.cursor.advance 1
      else s.cursor
    let c := c.skipWhile fun x => x == ' ' || (x == '\t' && (s.inFlow || !s.keyAllowed))
    let c := if c.looksAt (· == '#') then c.skipWhile (!isBreak ·) else c
    if c.atBreak then
      skipToToken fuel { s with cursor := c.nextLine, keyAllowed := s.keyAllowed || !s.inFlow }
    else { s with cursor := c }

def breakOff (s : Scanner) : Except Fault Scanner := do
  let s ← (s.closeBlocks (-1)).dropCandidate
  return s.allowKey false

def number? (c : Cursor) : Except Fault (Cursor × Nat) :=
  let digits := c.takeWhile Char.isDigit
  if digits.isEmpty || 9 < digits.length then .error .badDirective
  else .ok (c.advance digits.length, digits.foldl (fun n d => 10 * n + (d.toNat - '0'.toNat)) 0)

/-- A tag handle: an exclamation mark, and perhaps a word and a second mark behind it. -/
def tagHandle (directive : Bool) (c : Cursor) : Except Fault (Cursor × List Char) :=
  match c.rest with
  | '!' :: _ =>
    let c := c.advance 1
    let word := c.takeWhile isWord
    let c := c.advance word.length
    if c.looksAt (· == '!') then .ok (c.advance 1, '!' :: word ++ ['!'])
    else if directive && !word.isEmpty then .error .badDirective
    else .ok (c, '!' :: word)
  | _ => .error .badToken

def tagBytes : List Char → Except Fault Text.Bytes
  | '%' :: a :: b :: rest =>
    match hexNumber? [a, b] with
    | some n => (tagBytes rest).map (n.toUInt8 :: ·)
    | none => .error .badToken
  | '%' :: _ => .error .badToken
  | c :: rest => (tagBytes rest).map (Text.encode (String.singleton c) ++ ·)
  | [] => .ok []

/-- The address of a tag; `lead` was read as a handle before but belongs to it. -/
def tagAddress (verbatim : Bool) (lead : List Char) (c : Cursor) :
    Except Fault (Cursor × String) := do
  let chars := c.takeWhile (isTagChar verbatim)
  if lead.isEmpty && chars.isEmpty then .error .badToken
  else
    match Text.decode? (← tagBytes chars) with
    | some text => return (c.advance chars.length, String.ofList (lead.drop 1) ++ text)
    | none => .error .badToken

/-- A directive. Only the version and tag handles can be declared. -/
def directive (s : Scanner) : Except Fault Scanner := do
  let s ← s.breakOff
  let c := s.cursor.advance 1
  let name := c.takeWhile isWord
  let c := c.advance name.length
  if !c.atBlank then .error .badDirective
  else if name == ['Y', 'A', 'M', 'L'] then
    let (c, major) ← number? (c.skipWhile isSpace)
    if !c.looksAt (· == '.') then .error .badDirective
    else
      let (c, minor) ← number? (c.advance 1)
      return (s.push (.versionDirective major minor)).move (← c.finishLine)
  else if name == ['T', 'A', 'G'] then
    let (c, handle) ← tagHandle true (c.skipWhile isSpace)
    if !c.atSpace then .error .badDirective
    else
      let (c, address) ← tagAddress true [] (c.skipWhile isSpace)
      if !c.atBlank then .error .badDirective
      else
        return (s.push (.tagDirective (String.ofList handle) address)).move (← c.finishLine)
  else .error .badDirective

def documentMark (s : Scanner) (token : Token) : Except Fault Scanner := do
  let s ← s.breakOff
  return (s.push token).move (s.cursor.advance 3)

def openFlow (s : Scanner) (token : Token) : Except Fault Scanner := do
  let s ← s.addCandidate
  return { s with
    candidates := none :: s.candidates
    keyAllowed := true
    tokens := s.tokens.push token
    cursor := s.cursor.advance 1 }

def closeFlow (s : Scanner) (token : Token) : Except Fault Scanner := do
  let s ← s.dropCandidate
  return { s with
    candidates := if s.inFlow then s.candidates.tail else s.candidates
    keyAllowed := false
    tokens := s.tokens.push token
    cursor := s.cursor.advance 1 }

def flowEntry (s : Scanner) : Except Fault Scanner := do
  let s ← s.dropCandidate
  return ((s.allowKey true).push .flowEntry).move (s.cursor.advance 1)

/-- Opens a block collection at the cursor for an indicator, which has to stand where a key
might. -/
def indicatorBlock (s : Scanner) (token : Token) : Except Fault Scanner :=
  if s.inFlow then .ok s
  else if s.keyAllowed then .ok (s.openBlock s.cursor.column none token)
  else .error .badToken

def blockEntry (s : Scanner) : Except Fault Scanner := do
  let s ← s.indicatorBlock .blockSequenceStart
  let s ← s.dropCandidate
  return ((s.allowKey true).push .blockEntry).move (s.cursor.advance 1)

def key (s : Scanner) : Except Fault Scanner := do
  let s ← s.indicatorBlock .blockMappingStart
  let s ← s.dropCandidate
  return ((s.allowKey (!s.inFlow)).push .key).move (s.cursor.advance 1)

def value (s : Scanner) : Except Fault Scanner := do
  match s.candidates with
  | some k :: rest =>
    let s := { s with
      tokens := s.tokens.insertIdxIfInBounds k.position .key
      candidates := none :: rest }
    let s := s.openBlock k.column (some k.position) .blockMappingStart
    return ((s.allowKey false).push .value).move (s.cursor.advance 1)
  | _ =>
    let s ← s.indicatorBlock .blockMappingStart
    return ((s.allowKey (!s.inFlow)).push .value).move (s.cursor.advance 1)

def name (s : Scanner) (token : String → Token) : Except Fault Scanner := do
  let s := (← s.addCandidate).allowKey false
  let c := s.cursor.advance 1
  let word := c.takeWhile isWord
  let c := c.advance word.length
  let ended := c.atBlank || c.looksAt fun x =>
    ['?', ':', ',', ']', '\x7d', '%', '@', Char.ofNat 0x60].contains x
  if word.isEmpty || !ended then .error .badToken
  else return (s.push (token (String.ofList word))).move c

def tag (s : Scanner) : Except Fault Scanner := do
  let s := (← s.addCandidate).allowKey false
  let c := s.cursor
  let (c, handle, suffix) ← match c.rest with
    | '!' :: '<' :: _ => do
      let (c, suffix) ← tagAddress true [] (c.advance 2)
      if c.looksAt (· == '>') then pure (c.advance 1, "", suffix) else .error .badToken
    | _ => do
      let (c, handle) ← tagHandle false c
      if 1 < handle.length && handle.getLast? == some '!' then
        let (c, suffix) ← tagAddress false [] c
        pure (c, String.ofList handle, suffix)
      else
        let (c, suffix) ← tagAddress false handle c
        -- an exclamation mark alone is a tag of its own
        pure (if suffix.isEmpty then (c, "", "!") else (c, "!", suffix))
  if c.atBlank || (s.inFlow && c.looksAt (· == ',')) then
    return (s.push (.tag handle suffix)).move c
  else .error .badToken

def blockScalar (s : Scanner) (literal : Bool) : Except Fault Scanner := do
  let s ← s.dropCandidate
  let (c, text) ← Token.block literal s.indent s.cursor
  return ((s.allowKey true).push (.scalar text false)).move c

def quotedScalar (s : Scanner) (quote : Char) : Except Fault Scanner := do
  let s ← s.addCandidate
  let (c, text) ← Token.quoted quote s.cursor
  return ((s.allowKey false).push (.scalar text false)).move c

def plainScalar (s : Scanner) : Except Fault Scanner := do
  let s ← s.addCandidate
  let (c, broken, text) ← Token.plain s.inFlow (s.indent + 1) s.cursor
  return ((s.allowKey broken).push (.scalar text true)).move c

def token (s : Scanner) (c : Char) (rest : List Char) : Except Fault Scanner :=
  let atStart := s.cursor.column == 0
  let blankNext := startsBlank rest
  if atStart && c == '%' then s.directive
  else if s.cursor.atDocumentMark then
    s.documentMark (if c == '-' then .documentStart else .documentEnd)
  else match c with
  | '[' => s.openFlow .flowSequenceStart
  | '\x7b' => s.openFlow .flowMappingStart
  | ']' => s.closeFlow .flowSequenceEnd
  | '\x7d' => s.closeFlow .flowMappingEnd
  | ',' => s.flowEntry
  | '-' => if blankNext then s.blockEntry else s.plainScalar
  | '?' => if s.inFlow || blankNext then s.key else s.plainScalar
  | ':' => if s.inFlow || blankNext then s.value else s.plainScalar
  | '*' => s.name .reference
  | '&' => s.name .anchor
  | '!' => s.tag
  | '|' => if s.inFlow then .error .badToken else s.blockScalar true
  | '>' => if s.inFlow then .error .badToken else s.blockScalar false
  | '\'' => s.quotedScalar '\''
  | '"' => s.quotedScalar '"'
  | '#' => .error .badToken
  | '%' => .error .badToken
  | '@' => .error .badToken
  | c => if c == Char.ofNat 0x60 || isSpaceOrBreak c then .error .badToken else s.plainScalar

/-- All tokens up to the end of the text. Every round passes a character. -/
def run : Nat → Scanner → Except Fault (List Token)
  | 0, _ => .error .badToken
  | fuel + 1, s => do
    let s := skipToToken (s.cursor.rest.length + 1) s
    let s ← s.dropStale
    let s := s.closeBlocks s.cursor.column
    match s.cursor.rest with
    | [] => return (← s.breakOff).tokens.toList
    | c :: rest => run fuel (← s.token c rest)

end Scanner

def scan (text : String) : Except Fault (List Token) :=
  let chars := text.toList
  if chars.all isAllowed then
    let chars := match chars with
      | '\uFEFF' :: rest => rest
      | chars => chars
    let chars := unifyBreaks chars
    Scanner.run (chars.length + 1) (.start chars)
  else .error .badCharacter

end Rollout.Yaml.Token
