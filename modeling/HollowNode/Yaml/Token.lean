import HollowNode.Text.Utf8
import HollowNode.Yaml.Scalar

namespace HollowNode.Yaml

inductive Token
  | version (major minor : Nat)
  | tagHandle (handle expansion : String)
  | documentStart
  | documentEnd
  | blockSequence
  | blockMapping
  | blockEnd
  | flowSequence
  | flowSequenceEnd
  | flowMapping
  | flowMappingEnd
  | blockEntry
  | flowEntry
  | key
  | value
  | alias (name : String)
  | anchor (name : String)
  | tag (handle suffix : String)
  | scalar (text : String) (style : Style)
deriving DecidableEq, Repr

/-- A word that may still become a key. `number` counts the tokens before it; in a place where only
a key can stand it is required to become one. -/
structure PendingKey where
  number : Nat
  index : Nat
  line : Nat
  column : Nat
  required : Bool

/-- The tokens read so far, newest first, and what decides how the text goes on: the columns of the
open blocks, the pending key of every open bracket and of the block around them, innermost first,
and whether a key may start here. -/
structure Lexer where
  cursor : Cursor
  tokens : List Token := []
  count : Nat := 0
  indent : Int := -1
  outer : List Int := []
  pending : Option PendingKey := none
  brackets : List (Option PendingKey) := []
  keyAllowed : Bool := true

namespace Lexer

def start (cs : List Char) : Lexer := { cursor := .start cs }

def inFlow (l : Lexer) : Bool := !l.brackets.isEmpty

def column (l : Lexer) : Int := l.cursor.column

def push (l : Lexer) (t : Token) : Lexer := { l with tokens := t :: l.tokens, count := l.count + 1 }

def insertAt (l : Lexer) (number : Nat) (t : Token) : Lexer :=
  { l with tokens := l.tokens.insertIdx (l.count - number) t, count := l.count + 1 }

def move (l : Lexer) (n : Nat) : Lexer := { l with cursor := l.cursor.skip n }

def dropKey (l : Lexer) : Option Lexer :=
  if l.pending.any (·.required) then none else some { l with pending := none }

def markKey (l : Lexer) : Option Lexer :=
  if !l.keyAllowed then some l
  else do
    let l ← l.dropKey
    let c := l.cursor
    return { l with
      pending := some ⟨l.count, c.index, c.line, c.column, !l.inFlow && l.indent = c.column⟩ }

def isStale (c : Cursor) (k : PendingKey) : Bool := k.line < c.line || k.index + 1024 < c.index

def dropStale (l : Lexer) : Option Lexer :=
  let stale := isStale l.cursor
  let check (k : Option PendingKey) := !k.any fun k => stale k && k.required
  if check l.pending ∧ l.brackets.all check then
    let keep (k : Option PendingKey) := k.filter fun k => !stale k
    some { l with pending := keep l.pending, brackets := l.brackets.map keep }
  else none

def openBlock (l : Lexer) (column : Nat) (number : Option Nat) (t : Token) : Lexer :=
  if l.inFlow ∨ (column : Int) ≤ l.indent then l
  else
    let l := { l with outer := l.indent :: l.outer, indent := column }
    match number with
    | some n => l.insertAt n t
    | none => l.push t

def closeBlocks (l : Lexer) (column : Int) : Lexer :=
  let rec go : List Int → Lexer → Lexer
    | [], l => l
    | i :: outer, l =>
      if column < l.indent then go outer { l.push .blockEnd with indent := i, outer := outer }
      else l
  if l.inFlow then l else go l.outer l

/-- White space, line breaks and comments between tokens. Tabs do not count where they could be
taken for indentation. -/
def skipSpace : (room : Nat) → Lexer → Lexer
  | 0, l => l
  | room + 1, l =>
    let c := l.cursor.skipWhile fun ch => ch = ' ' || (ch = '\t' && (l.inFlow || !l.keyAllowed))
    let c := c.skipComment
    if c.head?.any isBreak then
      skipSpace room { l with cursor := c.takeBreak.2, keyAllowed := l.keyAllowed || !l.inFlow }
    else { l with cursor := c }

def text (cs : List Char) : String := String.ofList cs

def versionNumber (c : Cursor) : Option (Nat × Cursor) := do
  let (ds, c) := c.takeWhile fun ch => (Text.digit? ch).isSome
  if 9 < ds.length then none else return (← Text.decimal? ds, c)

def isTagChar (full : Bool) (c : Char) : Bool :=
  isWord c || c ∈ [';', '/', '?', ':', '@', '&', '=', '+', '$', '.', '%', '!', '~', '*',
    '\'', '(', ')'] || (full && c ∈ [',', '[', ']'])

/-- Replaces percent signs with two hexadecimal digits by the bytes they stand for; together these
are UTF-8. -/
def unescape : (room : Nat) → List Char → Option (List UInt8)
  | 0, _ => some []
  | _, [] => some []
  | room + 1, '%' :: a :: b :: rest => do
    let byte ← Text.digitsFrom Text.hexDigit? 16 0 [a, b]
    return UInt8.ofNat byte :: (← unescape room rest)
  | room + 1, c :: rest => do
    if c = '%' then none else return String.utf8EncodeChar c ++ (← unescape room rest)

def tagText (cs : List Char) : Option (List Char) := do
  match Text.Utf8.decode (← unescape cs.length cs) with
  | .ok cs => return cs
  | .error _ => none

/-- A handle: an exclamation mark, or a word between two of them; without the second the word is
what follows the first. -/
def tagHandle (c : Cursor) : Option (List Char × Cursor) :=
  if c.head? ≠ some '!' then none
  else
    let (word, d) := (c.skip 1).takeWhile isWord
    if d.head? = some '!' then some ('!' :: word ++ ['!'], d.skip 1) else some ('!' :: word, d)

def directive (c : Cursor) : Option (Token × Cursor) := do
  let (name, c) := (c.skip 1).takeWhile isWord
  if !c.atGap 0 then none
  else if name = ['Y', 'A', 'M', 'L'] then
    let (major, c) ← versionNumber (c.skipWhile isBlank)
    if c.head? ≠ some '.' then none
    else
      let (minor, c) ← versionNumber (c.skip 1)
      return (.version major minor, c)
  else if name = ['T', 'A', 'G'] then
    let (handle, c) ← tagHandle (c.skipWhile isBlank)
    if handle.getLast? ≠ some '!' ∨ !c.head?.any isBlank then none
    else
      let (uri, c) := (c.skipWhile isBlank).takeWhile (isTagChar true)
      let uri ← tagText uri
      if uri.isEmpty ∨ !c.atGap 0 then none else return (.tagHandle (text handle) (text uri), c)
  else none

def readDirective (l : Lexer) : Option Lexer := do
  let (t, c) ← directive l.cursor
  let c := (c.skipWhile isBlank).skipComment
  if c.atBreak then return { l.push t with cursor := c.takeBreak.2 } else none

def name (c : Cursor) : Option (List Char × Cursor) :=
  let (word, c) := (c.skip 1).takeWhile isWord
  let ends := c.atGap 0 || c.head?.any (· ∈ ['?', ':', ',', ']', '}', '%', '@', '`'])
  if word.isEmpty ∨ !ends then none else some (word, c)

def tag (inFlow : Bool) (c : Cursor) : Option (Token × Cursor) := do
  let (t, c) ←
    if c.second? = some '<' then do
      let (uri, c) := (c.skip 2).takeWhile (isTagChar true)
      let uri ← tagText uri
      if uri.isEmpty ∨ c.head? ≠ some '>' then none else pure (Token.tag "" (text uri), c.skip 1)
    else do
      let (handle, c) ← tagHandle c
      let named := 1 < handle.length && handle.getLast? = some '!'
      let (suffix, c) := c.takeWhile (isTagChar false)
      let suffix ← tagText suffix
      if named then if suffix.isEmpty then none else pure (Token.tag (text handle) (text suffix), c)
      else
        let suffix := handle.drop 1 ++ suffix
        pure (if suffix.isEmpty then Token.tag "" "!" else .tag "!" (text suffix), c)
  if c.atGap 0 ∨ (inFlow ∧ c.head? = some ',') then return (t, c) else none

def closeDocument (l : Lexer) : Option Lexer := do
  return { ← (l.closeBlocks (-1)).dropKey with keyAllowed := false }

def openBracket (l : Lexer) (t : Token) : Option Lexer := do
  let l ← l.markKey
  return { (l.push t).move 1 with
    brackets := l.pending :: l.brackets, pending := none, keyAllowed := true }

def closeBracket (l : Lexer) (t : Token) : Option Lexer := do
  let l := { (← l.dropKey) with keyAllowed := false }
  let l := match l.brackets with
    | k :: rest => { l with brackets := rest, pending := k }
    | [] => l
  return (l.push t).move 1

def indicator (l : Lexer) (block : Token) (t : Token) (keyAfter : Bool) : Option Lexer := do
  if !l.inFlow ∧ !l.keyAllowed then none
  else
    let l ← (l.openBlock l.cursor.column none block).dropKey
    return { (l.push t).move 1 with keyAllowed := keyAfter }

def readValue (l : Lexer) : Option Lexer :=
  match l.pending with
  | some k =>
    let l := (l.insertAt k.number .key).openBlock k.column (some k.number) .blockMapping
    some { (l.push .value).move 1 with pending := none, keyAllowed := false }
  | none =>
    if l.inFlow then some { (l.push .value).move 1 with keyAllowed := false }
    else if !l.keyAllowed then none
    else
      let l := l.openBlock l.cursor.column none .blockMapping
      some { (l.push .value).move 1 with keyAllowed := true }

def word (l : Lexer) (read : Cursor → Option (Token × Cursor)) : Option Lexer := do
  let l ← l.markKey
  let (t, c) ← read l.cursor
  return { l.push t with cursor := c, keyAllowed := false }

def readPlain (l : Lexer) : Option Lexer := do
  let l ← l.markKey
  let (cs, broken, c) ← Scalar.plain l.inFlow (l.indent + 1) l.cursor
  return { l.push (.scalar (text cs) .plain) with cursor := c, keyAllowed := broken }

def readBlock (l : Lexer) (style : Style) : Option Lexer := do
  let l ← l.dropKey
  let (cs, c) ← Scalar.block (style = .literal) l.indent l.cursor
  return { l.push (.scalar (text cs) style) with cursor := c, keyAllowed := true }

def readQuoted (l : Lexer) (style : Style) : Option Lexer :=
  l.word fun c => (Scalar.quoted (style = .singleQuoted) c).map fun (cs, c) =>
    (.scalar (text cs) style, c)

def startsPlain (l : Lexer) (ch : Char) : Bool :=
  if ch = '-' then !l.cursor.second?.any isBlank
  else if ch = '?' ∨ ch = ':' then !l.inFlow && !l.cursor.atGap 1
  else !Cursor.isGap ch &&
    !(ch ∈ [',', '[', ']', '{', '}', '#', '&', '*', '!', '|', '>', '\'', '"', '%', '@', '`'])

def next (l : Lexer) (ch : Char) : Option Lexer :=
  let c := l.cursor
  if c.column = 0 ∧ ch = '%' then do readDirective (← l.closeDocument)
  else if c.column = 0 ∧ c.startsWith ['-', '-', '-'] ∧ c.atGap 3 then do
    return ((← l.closeDocument).push .documentStart).move 3
  else if c.column = 0 ∧ c.startsWith ['.', '.', '.'] ∧ c.atGap 3 then do
    return ((← l.closeDocument).push .documentEnd).move 3
  else if ch = '[' then l.openBracket .flowSequence
  else if ch = '{' then l.openBracket .flowMapping
  else if ch = ']' then l.closeBracket .flowSequenceEnd
  else if ch = '}' then l.closeBracket .flowMappingEnd
  else if ch = ',' then do return { ((← l.dropKey).push .flowEntry).move 1 with keyAllowed := true }
  else if ch = '-' ∧ c.atGap 1 then l.indicator .blockSequence .blockEntry true
  else if ch = '?' ∧ (l.inFlow ∨ c.atGap 1) then l.indicator .blockMapping .key (!l.inFlow)
  else if ch = ':' ∧ (l.inFlow ∨ c.atGap 1) then l.readValue
  else if ch = '*' then l.word fun c => (name c).map fun (n, c) => (.alias (text n), c)
  else if ch = '&' then l.word fun c => (name c).map fun (n, c) => (.anchor (text n), c)
  else if ch = '!' then l.word (tag l.inFlow)
  else if ch = '|' ∧ !l.inFlow then l.readBlock .literal
  else if ch = '>' ∧ !l.inFlow then l.readBlock .folded
  else if ch = '\'' then l.readQuoted .singleQuoted
  else if ch = '"' then l.readQuoted .doubleQuoted
  else if l.startsPlain ch then l.readPlain
  else none

def finish (l : Lexer) : Option (List Token) := do
  let l ← (l.closeBlocks (-1)).dropKey
  return l.tokens.reverse

def run : (room : Nat) → Lexer → Option (List Token)
  | 0, _ => none
  | room + 1, l => do
    let l ← (l.skipSpace (l.cursor.rest.length + 1)).dropStale
    let l := l.closeBlocks l.column
    match l.cursor.head? with
    | none => l.finish
    | some ch => run room (← l.next ch)

end Lexer

def Token.ofText? (s : String) : Option (List Token) :=
  let cs := s.toList
  if cs.all isLegible then Lexer.run (cs.length + 2) (.start cs) else none

end HollowNode.Yaml
