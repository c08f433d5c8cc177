import HollowNode.Text.Number
import HollowNode.Yaml.Cursor

namespace HollowNode.Yaml.Text

open HollowNode.Text

def isPrintable (c : Char) : Bool :=
  c = '\n' || (' ' ≤ c && c ≤ '~') || (0xA0 ≤ c.val && c.val ≤ 0xFFFD && c.val ≠ 0xFEFF) ||
    0x10000 ≤ c.val

def isPaddedDigits (cs : List Char) : Bool :=
  match cs with
  | '-' :: '0' :: ds | '+' :: '0' :: ds | '0' :: ds => !ds.isEmpty && ds.all fun c =>
    (digit? c).isSome
  | _ => false

def baseDigit? (base : Nat) (c : Char) : Option Nat := (hexDigit? c).filter (· < base)

def magnitude? (base : Nat) (ds : List Char) : Option Nat :=
  if ds.isEmpty then none else digitsFrom (baseDigit? base) base 0 ds

def unprefixed? : List Char → Option (Nat × List Char)
  | '0' :: 'x' :: ds => some (16, ds)
  | '0' :: 'o' :: ds => some (8, ds)
  | '0' :: 'b' :: ds => some (2, ds)
  | _ => none

/-- A whole number in one of four bases, of at most 128 bits. -/
def isInteger (cs : List Char) : Bool :=
  let (negative, rest) := match cs with
    | '-' :: rest => (true, rest)
    | '+' :: rest => (false, rest)
    | rest => (false, rest)
  let limit := if negative then Nat.pow 2 127 else Nat.pow 2 128 - 1
  let small (n : Option Nat) := n.any (· ≤ limit)
  match unprefixed? rest with
  | some (base, ds) => small (magnitude? base ds)
  | none => !isPaddedDigits cs && small (magnitude? 10 rest)

/-- Whether mantissa · 10 ^ exponent is below every number that a double rounds to infinity. -/
def isFinite (mantissa : Nat) (exponent : Int) : Bool :=
  let bound := Nat.pow 2 1024 - Nat.pow 2 970
  mantissa = 0 || ((digits mantissa).length + exponent ≤ 309 && match exponent with
    | .ofNat e => mantissa * Nat.pow 10 e < bound
    | .negSucc e => e + 1 ≥ (digits mantissa).length || mantissa < bound * Nat.pow 10 (e + 1))

def exponent? : List Char → Option Int
  | [] => some 0
  | e :: rest =>
    if e ≠ 'e' ∧ e ≠ 'E' then none
    else
      match rest with
      | '-' :: ds => (magnitude? 10 ds).map fun n => -(n : Int)
      | '+' :: ds => (magnitude? 10 ds).map Int.ofNat
      | ds => (magnitude? 10 ds).map Int.ofNat

def isDecimal (cs : List Char) : Bool :=
  let rest := match cs with
    | '-' :: rest | '+' :: rest => rest
    | rest => rest
  let isDigit (c : Char) := (digit? c).isSome
  let whole := rest.takeWhile isDigit
  let (fraction, tail) := match rest.dropWhile isDigit with
    | '.' :: rest => (rest.takeWhile isDigit, rest.dropWhile isDigit)
    | rest => ([], rest)
  match decimal? (whole ++ fraction), exponent? tail with
  | some mantissa, some e => isFinite mantissa (e - fraction.length)
  | _, _ => false

def specialNumbers : List String :=
  [".inf", ".Inf", ".INF", "+.inf", "+.Inf", "+.INF", "-.inf", "-.Inf", "-.INF", ".nan",
    ".NaN", ".NAN"]

def words : List String :=
  ["", "~", "null", "Null", "NULL", "true", "True", "TRUE", "false", "False", "FALSE"]

/-- Whether a plain scalar would not be read as a text, or might not be. -/
def isAmbiguous (s : String) : Bool :=
  s ∈ words || s ∈ specialNumbers || isPaddedDigits s.toList || isInteger s.toList ||
    isDecimal s.toList

structure Traits where
  indicator : Bool
  special : Bool
  lineBreak : Bool
  spaceAtEnds : Bool
  spaceAtEnd : Bool
  breakThenSpace : Bool
  spaceThenBreak : Bool

def isIndicator (c : Char) : Bool :=
  c ∈ ['#', ',', '[', ']', '{', '}', '&', '*', '!', '|', '>', '\'', '"', '%', '@', '`']

def isGapLike (c : Char) : Bool := Cursor.isGap c || c = '\x00'

def hasInnerMark : (afterGap : Bool) → List Char → Bool
  | _, [] => false
  | afterGap, c :: cs =>
    (c = ':' && Cursor.endsOr isGapLike cs) || (c = '#' && afterGap) ||
      hasInnerMark (isGapLike c) cs

def startsWithMark : List Char → Bool
  | '-' :: '-' :: '-' :: _ | '.' :: '.' :: '.' :: _ => true
  | c :: cs => isIndicator c || ((c = '-' || c = '?') && Cursor.endsOr isGapLike cs)
  | [] => false

def hasPair (p q : Char → Bool) : List Char → Bool
  | a :: b :: rest => (p a && q b) || hasPair p q (b :: rest)
  | _ => false

def traits (cs : List Char) : Traits :=
  let atEnd (c : Option Char) := c.any fun c => c = ' ' || isBreak c
  { indicator := startsWithMark cs || hasInnerMark false cs
    special := cs.any fun c => !isPrintable c
    lineBreak := cs.any isBreak
    spaceAtEnds := atEnd cs.head? || atEnd cs.getLast?
    spaceAtEnd := cs.getLast? = some ' '
    breakThenSpace := hasPair isBreak (· = ' ') cs
    spaceThenBreak := hasPair (· = ' ') isBreak cs }

def Traits.allowsPlain (t : Traits) : Bool :=
  !(t.indicator || t.special || t.lineBreak || t.spaceAtEnds)

def Traits.allowsSingle (t : Traits) : Bool := !(t.special || t.breakThenSpace || t.spaceThenBreak)

def Traits.allowsBlock (t : Traits) : Bool := !(t.special || t.spaceAtEnd || t.spaceThenBreak)

def hexDigits (width n : Nat) : List Char :=
  let ds := (Nat.toDigits 16 n).map Char.toUpper
  List.replicate (width - ds.length) '0' ++ ds

def escape (c : Char) : List Char :=
  match c with
  | '\x00' => ['\\', '0']
  | '\x07' => ['\\', 'a']
  | '\x08' => ['\\', 'b']
  | '\t' => ['\\', 't']
  | '\n' => ['\\', 'n']
  | '\x0b' => ['\\', 'v']
  | '\x0c' => ['\\', 'f']
  | '\r' => ['\\', 'r']
  | '\x1b' => ['\\', 'e']
  | '"' => ['\\', '"']
  | '\\' => ['\\', '\\']
  | '\u0085' => ['\\', 'N']
  | '\u2028' => ['\\', 'L']
  | '\u2029' => ['\\', 'P']
  | _ =>
    if isPrintable c then [c]
    else if c.toNat ≤ 0xFF then '\\' :: 'x' :: hexDigits 2 c.toNat
    else if c.toNat ≤ 0xFFFF then '\\' :: 'u' :: hexDigits 4 c.toNat
    else '\\' :: 'U' :: hexDigits 8 c.toNat

def doubleQuoted (cs : List Char) : List Char := '"' :: cs.flatMap escape ++ ['"']

def singleQuotedFrom (indent : Nat) : (broken : Bool) → List Char → List Char
  | broken, [] => if broken then List.replicate indent ' ' ++ ['\''] else ['\'']
  | broken, c :: cs =>
    if isBreak c then c :: singleQuotedFrom indent true cs
    else
      (if broken then List.replicate indent ' ' else []) ++
        (if c = '\'' then ['\'', '\''] else [c]) ++ singleQuotedFrom indent false cs

def literalLines (indent : Nat) : (broken : Bool) → List Char → List Char
  | _, [] => []
  | broken, c :: cs =>
    if isBreak c then c :: literalLines indent true cs
    else (if broken then List.replicate indent ' ' else []) ++ c :: literalLines indent false cs

def chomping (cs : List Char) : List Char :=
  match cs.reverse with
  | [] => ['-']
  | c :: rest =>
    if !isBreak c then ['-']
    else if rest.isEmpty ∨ rest.head?.any isBreak then ['+']
    else []

def literal (indent : Nat) (cs : List Char) : List Char :=
  let hint := if cs.head?.any fun c => c = ' ' || isBreak c then ['2'] else []
  '|' :: hint ++ chomping cs ++ '\n' :: literalLines indent true cs

/-- A text as a scalar whose further lines, if any, are indented by `indent`. -/
def write (indent : Nat) (s : String) : List Char :=
  let cs := s.toList
  let t := traits cs
  if cs.contains '\n' then if t.allowsBlock then literal indent cs else doubleQuoted cs
  else if !isAmbiguous s ∧ t.allowsPlain then cs
  else if t.allowsSingle then '\'' :: singleQuotedFrom indent false cs
  else doubleQuoted cs

end HollowNode.Yaml.Text
