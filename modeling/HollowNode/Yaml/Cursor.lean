namespace HollowNode.Yaml

def isBreak (c : Char) : Bool :=
  c = '\n' || c = '\r' || c = '\u0085' || c = '\u2028' || c = '\u2029'

def isBlank (c : Char) : Bool := c = ' ' || c = '\t'

def isWord (c : Char) : Bool := c.isAlphanum || c = '-' || c = '_'

def isLegible (c : Char) : Bool :=
  c = '\t' || c = '\n' || c = '\r' || (' ' ≤ c && c ≤ '~') || c = '\u0085' ||
    (0xA0 ≤ c.val && c.val ≤ 0xFFFD) || 0x10000 ≤ c.val

structure Cursor where
  rest : List Char
  index : Nat
  line : Nat
  column : Nat

namespace Cursor

/-- The start of a text. A byte order mark there is passed over but takes its column. -/
def start (cs : List Char) : Cursor :=
  match cs with
  | '\ufeff' :: rest => ⟨rest, 1, 0, 1⟩
  | _ => ⟨cs, 0, 0, 0⟩

def head? (c : Cursor) : Option Char := c.rest.head?

def second? (c : Cursor) : Option Char := (c.rest.drop 1).head?

def endsOr (p : Char → Bool) : List Char → Bool
  | [] => true
  | c :: _ => p c

def isGap (c : Char) : Bool := isBlank c || isBreak c

def atGap (c : Cursor) (n : Nat) : Bool := endsOr isGap (c.rest.drop n)

def atBreak (c : Cursor) : Bool := endsOr isBreak c.rest

def skip (c : Cursor) (n : Nat) : Cursor :=
  { c with rest := c.rest.drop n, index := c.index + n, column := c.column + n }

def takeWhile (c : Cursor) (p : Char → Bool) : List Char × Cursor :=
  let taken := c.rest.takeWhile p
  (taken, c.skip taken.length)

def skipWhile (c : Cursor) (p : Char → Bool) : Cursor := (c.takeWhile p).2

/-- Takes a line break, if there is one. All but the two separators of Unicode count as a line
feed. -/
def takeBreak (c : Cursor) : List Char × Cursor :=
  match c.rest with
  | '\r' :: '\n' :: rest => (['\n'], ⟨rest, c.index + 2, c.line + 1, 0⟩)
  | b :: rest =>
    if b = '\u2028' ∨ b = '\u2029' then ([b], ⟨rest, c.index + 1, c.line + 1, 0⟩)
    else if isBreak b then (['\n'], ⟨rest, c.index + 1, c.line + 1, 0⟩)
    else ([], c)
  | [] => ([], c)

def startsWith (c : Cursor) (cs : List Char) : Bool := cs.isPrefixOf c.rest

def atDocumentMark (c : Cursor) : Bool :=
  c.column = 0 && (c.startsWith ['-', '-', '-'] || c.startsWith ['.', '.', '.']) && c.atGap 3

def skipComment (c : Cursor) : Cursor :=
  if c.head? = some '#' then c.skipWhile fun ch => !isBreak ch else c

end Cursor

/-- White space between the words of a scalar: blanks in a line, or line breaks, where the first one
is kept apart and the blanks around them are dropped. -/
structure Gap where
  blanks : List Char := []
  first : List Char := []
  more : List Char := []
  broken : Bool := false

namespace Gap

def text (g : Gap) : List Char :=
  if !g.broken then g.blanks
  else
    match g.first with
    | '\n' :: _ => if g.more.isEmpty then [' '] else g.more
    | other => other ++ g.more

/-- Reads on through white space. In a line that is not indented far enough a tab is an error. -/
def read (indent : Int) : (room : Nat) → Gap → Cursor → Option (Gap × Cursor)
  | 0, g, c => some (g, c)
  | room + 1, g, c =>
    match c.head? with
    | none => some (g, c)
    | some ch =>
      if isBlank ch then
        if !g.broken then read indent room { g with blanks := g.blanks ++ [ch] } (c.skip 1)
        else if ch = '\t' ∧ (c.column : Int) < indent then none
        else read indent room g (c.skip 1)
      else if isBreak ch then
        let (b, c) := c.takeBreak
        if g.broken then read indent room { g with more := g.more ++ b } c
        else read indent room { g with blanks := [], first := b, broken := true } c
      else some (g, c)

end Gap

end HollowNode.Yaml
