import Rollout.Yaml.Token.Cursor

/-! The texts of scalars: quoted, in blocks, and plain.

Line breaks inside a quoted or plain scalar are folded: one break is read as a space, and of
more breaks all but the first are kept. Each function has a bound on its rounds; every round
passes a character, so the number of characters left is enough. -/

set_option autoImplicit false

namespace Rollout.Yaml.Token

/-- Blanks and breaks met since the last character of a folded scalar. -/
structure Gap where
  spaces : List Char := []
  firstBreak : Option Char := none
  moreBreaks : List Char := []
  /-- Whether a break was met, so that blanks no longer count. -/
  broken : Bool := false

namespace Gap

def text (gap : Gap) : List Char :=
  if gap.broken then
    match gap.firstBreak with
    | some '\n' => if gap.moreBreaks.isEmpty then [' '] else gap.moreBreaks
    | some c => c :: gap.moreBreaks
    | none => gap.moreBreaks
  else gap.spaces

def addBreak (gap : Gap) (c : Char) : Gap :=
  if gap.broken then { gap with moreBreaks := gap.moreBreaks ++ [c] }
  else { gap with spaces := [], firstBreak := some c, broken := true }

end Gap

/-- Collects blanks and breaks. A tab that stands for indentation is refused. -/
def scanGap (isIndent : Cursor → Bool) : Nat → Cursor → Gap → Except Fault (Cursor × Gap)
  | 0, _, _ => .error .badToken
  | fuel + 1, c, gap =>
    match c.rest with
    | [] => .ok (c, gap)
    | x :: _ =>
      if isBreak x then scanGap isIndent fuel c.nextLine (gap.addBreak x)
      else if isSpace x then
        if gap.broken then
          if x == '\t' && isIndent c then .error .badToken
          else scanGap isIndent fuel (c.advance 1) gap
        else scanGap isIndent fuel (c.advance 1) { gap with spaces := gap.spaces ++ [x] }
      else .ok (c, gap)

def hexValue? (c : Char) : Option Nat :=
  if c.isDigit then some (c.toNat - '0'.toNat)
  else if 'a' ≤ c && c ≤ 'f' then some (c.toNat - 'a'.toNat + 10)
  else if 'A' ≤ c && c ≤ 'F' then some (c.toNat - 'A'.toNat + 10)
  else none

def hexNumber? (digits : List Char) : Option Nat :=
  digits.foldlM (fun n c => (hexValue? c).map (16 * n + ·)) 0

def charOfCode? (n : Nat) : Option Char :=
  if n < 0xD800 || (0xDFFF < n && n < 0x110000) then some (Char.ofNat n) else none

def shortEscape? : Char → Option Char
  | '0' => some '\x00'
  | 'a' => some '\x07'
  | 'b' => some '\x08'
  | 't' => some '\t'
  | '\t' => some '\t'
  | 'n' => some '\n'
  | 'v' => some '\x0b'
  | 'f' => some '\x0c'
  | 'r' => some '\r'
  | 'e' => some '\x1b'
  | ' ' => some ' '
  | '"' => some '"'
  | '/' => some '/'
  | '\\' => some '\\'
  | 'N' => some '\u0085'
  | '_' => some '\u00a0'
  | 'L' => some '\u2028'
  | 'P' => some '\u2029'
  | _ => none

def escapeWidth? : Char → Option Nat
  | 'x' => some 2
  | 'u' => some 4
  | 'U' => some 8
  | _ => none

/-- The rest of a quoted scalar behind its opening quote, with the text so far reversed. -/
def scanQuoted (quote : Char) : Nat → Cursor → List Char → Except Fault (Cursor × List Char)
  | 0, _, _ => .error .badToken
  | fuel + 1, c, done =>
    if c.atDocumentMark then .error .badToken
    else match c.rest with
    | [] => .error .badToken
    | x :: rest =>
      if isSpaceOrBreak x then do
        let (c, gap) ← scanGap (fun _ => false) (c.rest.length + 1) c {}
        scanQuoted quote fuel c (gap.text.reverse ++ done)
      else if x == quote then
        match quote, rest with
        | '\'', '\'' :: _ => scanQuoted quote fuel (c.advance 2) ('\'' :: done)
        | _, _ => .ok (c.advance 1, done)
      else if x == '\\' && quote == '"' then
        match rest with
        | [] => .error .badToken
        | e :: digits =>
          if isBreak e then do
            let c := (c.advance 1).nextLine
            let (c, gap) ← scanGap (fun _ => false) (c.rest.length + 1) c { broken := true }
            scanQuoted quote fuel c (gap.text.reverse ++ done)
          else match shortEscape? e, escapeWidth? e with
            | some y, _ => scanQuoted quote fuel (c.advance 2) (y :: done)
            | none, some width =>
              if digits.length < width then .error .badToken
              else match (hexNumber? (digits.take width)).bind charOfCode? with
                | some y => scanQuoted quote fuel (c.advance (2 + width)) (y :: done)
                | none => .error .badToken
            | none, none => .error .badToken
      else scanQuoted quote fuel (c.advance 1) (x :: done)

def quoted (quote : Char) (c : Cursor) : Except Fault (Cursor × String) := do
  let c := c.advance 1
  let (c, done) ← scanQuoted quote (c.rest.length + 1) c []
  return (c, String.ofList done.reverse)

def isFlowEnd (c : Char) : Bool :=
  c == ',' || c == '[' || c == ']' || c == '\x7b' || c == '\x7d'

def scanPlainRun (inFlow : Bool) : List Char → List Char → Except Fault (List Char)
  | [], done => .ok done
  | x :: rest, done =>
    if isSpaceOrBreak x then .ok done
    else if x == ':' && inFlow && (match rest with
        | y :: _ => isFlowEnd y || y == '?'
        | [] => false) then .error .badToken
    else if x == ':' && startsBlank rest then .ok done
    else if inFlow && isFlowEnd x then .ok done
    else scanPlainRun inFlow rest (x :: done)

/-- A plain scalar from the cursor on. `indent` is the least column of its later lines. The
flag in the result tells whether the gap behind the scalar holds a break. -/
def scanPlain (inFlow : Bool) (indent : Int) :
    Nat → Cursor → Gap → List Char → Except Fault (Cursor × Bool × List Char)
  | 0, _, _, _ => .error .badToken
  | fuel + 1, c, gap, done =>
    if c.atDocumentMark || c.looksAt (· == '#') then .ok (c, gap.broken, done)
    else do
      let run ← scanPlainRun inFlow c.rest []
      let c := c.advance run.length
      let (done, gap) := if run.isEmpty then (done, gap)
        else (run ++ (gap.text.reverse ++ done), {})
      if c.atSpace || c.atBreak then
        let (c, gap) ← scanGap (fun c => (c.column : Int) < indent) (c.rest.length + 1) c gap
        if !inFlow && (c.column : Int) < indent then .ok (c, gap.broken, done)
        else scanPlain inFlow indent fuel c gap done
      else .ok (c, gap.broken, done)

def plain (inFlow : Bool) (indent : Int) (c : Cursor) : Except Fault (Cursor × Bool × String) := do
  let (c, broken, done) ← scanPlain inFlow indent (c.rest.length + 1) c {} []
  return (c, broken, String.ofList done.reverse)

/-- Whether the line breaks at the end of a block scalar are dropped, kept, or cut to one. -/
inductive Chomp where
  | strip
  | clip
  | keep
  deriving DecidableEq

def blockHeader (c : Cursor) : Except Fault (Cursor × Chomp × Nat) :=
  let chomp? (x : Char) : Option Chomp :=
    if x == '+' then some .keep else if x == '-' then some .strip else none
  let digit (c : Cursor) : Except Fault (Cursor × Nat) :=
    match c.rest with
    | x :: _ =>
      if x == '0' then .error .badToken
      else if x.isDigit then .ok (c.advance 1, x.toNat - '0'.toNat)
      else .ok (c, 0)
    | [] => .ok (c, 0)
  match c.rest.head?.bind chomp? with
  | some chomp => do
    let (c, n) ← digit (c.advance 1)
    return (c, chomp, n)
  | none => do
    let (d, n) ← digit c
    if n = 0 then return (d, .clip, 0)
    match d.rest.head?.bind chomp? with
    | some chomp => return (d.advance 1, chomp, n)
    | none => return (d, .clip, n)

/-- Passes indentation and empty lines. `indent` is zero while it is not known; the widest
indentation met is returned. -/
def scanBlockBreaks (indent : Nat) :
    Nat → Cursor → Nat → List Char → Except Fault (Cursor × Nat × List Char)
  | 0, _, _, _ => .error .badToken
  | fuel + 1, c, widest, breaks =>
    let spaces := (c.takeWhile (· == ' ')).length
    let c := c.advance (if indent = 0 then spaces else min spaces (indent - c.column))
    let widest := max widest c.column
    if (indent = 0 || c.column < indent) && c.looksAt (· == '\t') then .error .badToken
    else match c.rest with
      | x :: _ =>
        if isBreak x then scanBlockBreaks indent fuel c.nextLine widest (breaks ++ [x])
        else .ok (c, widest, breaks)
      | [] => .ok (c, widest, breaks)

/-- The lines of a block scalar. `lead` is the break behind the last line and `trail` the empty
lines behind that; `blankLine` tells whether the last line began with a blank. -/
def scanBlockLines (literal : Bool) (indent : Nat) :
    Nat → Cursor → (lead trail : List Char) → (blankLine : Bool) → List Char →
      Except Fault (Cursor × List Char × List Char × List Char)
  | 0, _, _, _, _, _ => .error .badToken
  | fuel + 1, c, lead, trail, blankLine, done =>
    if c.column != indent || c.rest.isEmpty then .ok (c, lead, trail, done)
    else do
      let blank := c.atSpace
      let joint :=
        if !literal && lead.head? == some '\n' && !blankLine && !blank then
          if trail.isEmpty then [' '] else []
        else lead
      let line := c.takeWhile (!isBreak ·)
      let done := line.reverse ++ (trail.reverse ++ (joint.reverse ++ done))
      let c := c.advance line.length
      let (c, lead) := match c.rest with
        | x :: _ => (c.nextLine, [x])
        | [] => (c, [])
      let (c, _, trail) ← scanBlockBreaks indent (c.rest.length + 1) c 0 []
      scanBlockLines literal indent fuel c lead trail blank done

def block (literal : Bool) (outer : Int) (c : Cursor) : Except Fault (Cursor × String) := do
  let (c, chomp, increment) ← blockHeader (c.advance 1)
  let c ← c.finishLine
  let fixed : Nat := if increment = 0 then 0 else (max outer 0).toNat + increment
  let (c, widest, trail) ← scanBlockBreaks fixed (c.rest.length + 1) c 0 []
  let indent := if fixed = 0 then max (max widest (outer + 1).toNat) 1 else fixed
  let (c, lead, trail, done) ←
    scanBlockLines literal indent (c.rest.length + 1) c [] trail false []
  let ending := match chomp with
    | .strip => []
    | .clip => lead
    | .keep => lead ++ trail
  return (c, String.ofList (done.reverse ++ ending))

end Rollout.Yaml.Token
