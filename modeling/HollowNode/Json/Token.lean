import HollowNode.Text.Number

namespace HollowNode.Json

/-- A string that holds half of a surrogate pair has no text. -/
inductive Token
  | openObject
  | closeObject
  | openArray
  | closeArray
  | comma
  | colon
  | null
  | bool (b : Bool)
  | int (n : Int)
  | decimal (literal : String)
  | str (text : Option (List Char))
deriving DecidableEq, Repr

namespace Token

def isSpace (c : Char) : Bool := c = ' ' || c = '\n' || c = '\t' || c = '\r'

/-- A character of a string, or a UTF-16 unit given by its number. -/
inductive Unit16
  | char (c : Char)
  | unit (n : Nat)

def simpleEscape? : Char → Option Char
  | '"' => some '"'
  | '\\' => some '\\'
  | '/' => some '/'
  | 'b' => some '\x08'
  | 'f' => some '\x0c'
  | 'n' => some '\n'
  | 'r' => some '\r'
  | 't' => some '\t'
  | _ => none

def unit? (a b c d : Char) : Option Nat := Text.digitsFrom Text.hexDigit? 16 0 [a, b, c, d]

def string : List Char → Option (List Unit16 × List Char)
  | '"' :: rest => some ([], rest)
  | '\\' :: 'u' :: a :: b :: c :: d :: rest => do
    let n ← unit? a b c d
    let (us, rest) ← string rest
    return (.unit n :: us, rest)
  | '\\' :: e :: rest => do
    let c ← simpleEscape? e
    let (us, rest) ← string rest
    return (.char c :: us, rest)
  | c :: rest =>
    if c.toNat < 0x20 then none
    else do
      let (us, rest) ← string rest
      return (.char c :: us, rest)
  | [] => none

def text? : List Unit16 → Option (List Char)
  | [] => some []
  | .char c :: rest => (text? rest).map (c :: ·)
  | .unit n :: .unit m :: rest =>
    if 0xD800 ≤ n ∧ n < 0xDC00 then
      if 0xDC00 ≤ m ∧ m < 0xE000 then
        (text? rest).map (Char.ofNat (0x10000 + (n - 0xD800) * 0x400 + (m - 0xDC00)) :: ·)
      else none
    else if 0xDC00 ≤ n ∧ n < 0xE000 then none
    else (text? (.unit m :: rest)).map (Char.ofNat n :: ·)
  | .unit n :: rest =>
    if 0xD800 ≤ n ∧ n < 0xE000 then none else (text? rest).map (Char.ofNat n :: ·)

def isDigit (c : Char) : Bool := (Text.digit? c).isSome

def isWhole (ds : List Char) : Bool :=
  match ds with
  | [] => false
  | ['0'] => true
  | '0' :: _ => false
  | _ => true

def fraction : List Char → Option (List Char × List Char)
  | '.' :: rest =>
    let ds := rest.takeWhile isDigit
    if ds.isEmpty then none else some ('.' :: ds, rest.dropWhile isDigit)
  | rest => some ([], rest)

def exponentDigits (mark : List Char) (rest : List Char) : Option (List Char × List Char) :=
  let ds := rest.takeWhile isDigit
  if ds.isEmpty then none else some (mark ++ ds, rest.dropWhile isDigit)

def exponent : List Char → Option (List Char × List Char)
  | c :: rest =>
    if c = 'e' ∨ c = 'E' then
      match rest with
      | '+' :: rest => exponentDigits [c, '+'] rest
      | '-' :: rest => exponentDigits [c, '-'] rest
      | rest => exponentDigits [c] rest
    else some ([], c :: rest)
  | [] => some ([], [])

/-- A number from its sign and its three parts. An integer outside 64 bits, and minus zero, count as
decimals. -/
def ofNumber (negative : Bool) (whole frac exp : List Char) : Token :=
  let sign := if negative then ['-'] else []
  let n := (Text.decimalFrom 0 whole).getD 0
  if frac.isEmpty ∧ exp.isEmpty then
    if negative then
      if n = 0 ∨ Nat.pow 2 63 < n then .decimal (String.ofList (sign ++ whole ++ ['.', '0']))
      else .int (-(n : Int))
    else if Text.limit64 < n then .decimal (String.ofList (whole ++ ['.', '0']))
    else .int n
  else .decimal (String.ofList (sign ++ whole ++ frac ++ exp))

def number (negative : Bool) (cs : List Char) : Option (Token × List Char) := do
  let whole := cs.takeWhile isDigit
  if !isWhole whole then none
  let (frac, cs) ← fraction (cs.dropWhile isDigit)
  let (exp, cs) ← exponent cs
  return (ofNumber negative whole frac exp, cs)

def next : List Char → Option (Token × List Char)
  | '{' :: rest => some (.openObject, rest)
  | '}' :: rest => some (.closeObject, rest)
  | '[' :: rest => some (.openArray, rest)
  | ']' :: rest => some (.closeArray, rest)
  | ',' :: rest => some (.comma, rest)
  | ':' :: rest => some (.colon, rest)
  | '"' :: rest => (string rest).map fun (us, rest) => (.str (text? us), rest)
  | 'n' :: 'u' :: 'l' :: 'l' :: rest => some (.null, rest)
  | 't' :: 'r' :: 'u' :: 'e' :: rest => some (.bool true, rest)
  | 'f' :: 'a' :: 'l' :: 's' :: 'e' :: rest => some (.bool false, rest)
  | '-' :: rest => number true rest
  | rest => number false rest

/-- At most `room` lexemes; a text has no more of them than characters. -/
def lexemes : (room : Nat) → List Char → Option (List Token)
  | 0, cs => if (cs.dropWhile isSpace).isEmpty then some [] else none
  | room + 1, cs =>
    match cs.dropWhile isSpace with
    | [] => some []
    | c :: cs => do
      let (t, rest) ← next (c :: cs)
      let ts ← lexemes room rest
      return t :: ts

def all (cs : List Char) : Option (List Token) := lexemes cs.length cs

end Token

end HollowNode.Json
