import HollowNode.Text.Number
import HollowNode.Yaml.Cursor

namespace HollowNode.Yaml

inductive Style
  | plain
  | singleQuoted
  | doubleQuoted
  | literal
  | folded
deriving DecidableEq, Repr

namespace Scalar

def isFlowMark (c : Char) : Bool := c = ',' || c = '[' || c = ']' || c = '{' || c = '}'

def plainRun (inFlow : Bool) : List Char → Option (List Char)
  | [] => some []
  | c :: cs =>
    if Cursor.isGap c then some []
    else if inFlow && c = ':' && cs.head?.any (fun d => isFlowMark d || d = '?') then none
    else if c = ':' && Cursor.endsOr Cursor.isGap cs then some []
    else if inFlow && isFlowMark c then some []
    else (plainRun inFlow cs).map (c :: ·)

/-- A plain scalar and whether it was left in a new line. Its lines are indented at least by
`indent`. -/
def plainFrom (inFlow : Bool) (indent : Int) :
    (room : Nat) → List Char → Gap → Cursor → Option (List Char × Bool × Cursor)
  | 0, text, g, c => some (text, g.broken, c)
  | room + 1, text, g, c =>
    if c.atDocumentMark ∨ c.head? = some '#' then some (text, g.broken, c)
    else do
      let run ← plainRun inFlow c.rest
      let (text, g) := if run.isEmpty then (text, g) else (text ++ g.text ++ run, {})
      let c := c.skip run.length
      if !c.head?.any Cursor.isGap then return (text, g.broken, c)
      else
        let (g, c) ← Gap.read indent (c.rest.length + 1) g c
        if !inFlow ∧ (c.column : Int) < indent then return (text, g.broken, c)
        else plainFrom inFlow indent room text g c

def plain (inFlow : Bool) (indent : Int) (c : Cursor) : Option (List Char × Bool × Cursor) :=
  plainFrom inFlow indent (c.rest.length + 1) [] {} c

def simpleEscape? : Char → Option Char
  | '0' => some '\x00'
  | 'a' => some '\x07'
  | 'b' => some '\x08'
  | 't' | '\t' => some '\t'
  | 'n' => some '\n'
  | 'v' => some '\x0b'
  | 'f' => some '\x0c'
  | 'r' => some '\r'
  | 'e' => some '\x1b'
  | ' ' => some ' '
  | '"' => some '"'
  | '/' => some '/'
  | '\\' => some '\\'
  | 'N' => some '\u0085'
  | '_' => some '\u00a0'
  | 'L' => some '\u2028'
  | 'P' => some '\u2029'
  | _ => none

def codeLength? : Char → Option Nat
  | 'x' => some 2
  | 'u' => some 4
  | 'U' => some 8
  | _ => none

def escape? : List Char → Option (Char × Nat)
  | [] => none
  | e :: rest =>
    match codeLength? e with
    | none => (simpleEscape? e).map (·, 1)
    | some n => do
      if (rest.take n).length < n then none
      else
        let value ← Text.digitsFrom Text.hexDigit? 16 0 (rest.take n)
        if value.isValidChar then some (Char.ofNat value, n + 1) else none

/-- Quoted text up to white space or the closing quote, and whether it ends at an escaped line
break. -/
def quotedRun (single : Bool) :
    (room : Nat) → List Char → Cursor → Option (List Char × Bool × Cursor)
  | 0, text, c => some (text, false, c)
  | room + 1, text, c =>
    match c.rest with
    | [] => some (text, false, c)
    | ch :: rest =>
      if Cursor.isGap ch then some (text, false, c)
      else if single && ch = '\'' && rest.head? = some '\'' then quotedRun single room
        (text ++ [ch]) (c.skip 2)
      else if ch = (if single then '\'' else '"') then some (text, false, c)
      else if !single && ch = '\\' then
        if rest.head?.any isBreak then some (text, true, (c.skip 1).takeBreak.2)
        else do
          let (e, n) ← escape? rest
          quotedRun single room (text ++ [e]) (c.skip (n + 1))
      else quotedRun single room (text ++ [ch]) (c.skip 1)

def quotedFrom (single : Bool) : (room : Nat) → List Char → Cursor → Option (List Char × Cursor)
  | 0, _, _ => none
  | room + 1, text, c =>
    if c.atDocumentMark ∨ c.rest.isEmpty then none
    else do
      let (text, escaped, c) ← quotedRun single (c.rest.length + 1) text c
      if !escaped ∧ c.head? = some (if single then '\'' else '"') then return (text, c.skip 1)
      else
        let (g, c) ← Gap.read 0 (c.rest.length + 1) { broken := escaped } c
        quotedFrom single room (text ++ g.text) c

def quoted (single : Bool) (c : Cursor) : Option (List Char × Cursor) :=
  quotedFrom single (c.rest.length + 1) [] (c.skip 1)

inductive Chomping
  | strip
  | clip
  | keep
deriving DecidableEq

def chomping? : List Char → Option Chomping
  | '+' :: _ => some .keep
  | '-' :: _ => some .strip
  | _ => none

def indentation? : List Char → Option (Option Nat)
  | c :: _ =>
    match Text.digit? c with
    | some 0 => none
    | some d => some (some d)
    | none => some none
  | [] => some none

def header (c : Cursor) : Option (Chomping × Option Nat × Cursor) := do
  match chomping? c.rest with
  | some ch =>
    let c := c.skip 1
    match ← indentation? c.rest with
    | some n => return (ch, some n, c.skip 1)
    | none => return (ch, none, c)
  | none =>
    match ← indentation? c.rest with
    | some n =>
      let c := c.skip 1
      match chomping? c.rest with
      | some ch => return (ch, some n, c.skip 1)
      | none => return (.clip, some n, c)
    | none => return (.clip, none, c)

/-- Reads empty lines and the indentation of the next one. Without a known indentation all spaces
belong to it, and the answer says how far the widest of these lines went. -/
def emptyLines (indent : Option Nat) :
    (room : Nat) → (widest : Nat) → (breaks : List Char) → Cursor →
    Option (Nat × List Char × Cursor)
  | 0, widest, breaks, c => some (widest, breaks, c)
  | room + 1, widest, breaks, c =>
    let spaces := (c.rest.takeWhile (· = ' ')).length
    let c := c.skip (match indent with
      | some n => min spaces (n - c.column)
      | none => spaces)
    let widest := max widest c.column
    if indent.all (c.column < ·) ∧ c.head? = some '\t' then none
    else if c.head?.any isBreak then
      let (b, c) := c.takeBreak
      emptyLines indent room widest (breaks ++ b) c
    else some (widest, breaks, c)

/-- The lines of a block with their breaks: the text, the break after its last line, the empty lines
after that, and the cursor behind them. -/
def blockLines (isLiteral : Bool) (indent : Nat) :
    (room : Nat) → (text lineBreak breaks : List Char) → (indented : Bool) → Cursor →
      Option (List Char × List Char × List Char × Cursor)
  | 0, text, lineBreak, breaks, _, c => some (text, lineBreak, breaks, c)
  | room + 1, text, lineBreak, breaks, indented, c =>
    if c.column ≠ indent ∨ c.rest.isEmpty then some (text, lineBreak, breaks, c)
    else do
      let startsBlank := c.head?.any isBlank
      let folds := !isLiteral && lineBreak.head? = some '\n' && !indented && !startsBlank
      let joint := if folds then (if breaks.isEmpty then [' '] else []) else lineBreak
      let (line, c) := c.takeWhile fun ch => !isBreak ch
      let (lineBreak, c) := c.takeBreak
      let text := text ++ joint ++ breaks ++ line
      let (_, breaks, c) ← emptyLines (some indent) (c.rest.length + 1) 0 [] c
      blockLines isLiteral indent room text lineBreak breaks startsBlank c

def block (isLiteral : Bool) (outer : Int) (c : Cursor) : Option (List Char × Cursor) := do
  let (ch, step, c) ← header (c.skip 1)
  let c := (c.skipWhile isBlank).skipComment
  if !c.atBreak then none
  else
    let c := c.takeBreak.2
    let known := step.map fun n => if 0 ≤ outer then outer.toNat + n else n
    let (widest, breaks, c) ← emptyLines known (c.rest.length + 1) 0 [] c
    let indent := known.getD (max (max widest (outer + 1).toNat) 1)
    let (text, lineBreak, breaks, c) ← blockLines isLiteral indent
      (c.rest.length + 1) [] [] breaks false c
    match ch with
    | .strip => return (text, c)
    | .clip => return (text ++ lineBreak, c)
    | .keep => return (text ++ lineBreak ++ breaks, c)

end Scalar

end HollowNode.Yaml
