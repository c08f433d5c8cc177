import HollowNode.Base64
import HollowNode.Text.Blank
import HollowNode.Text.Pieces

namespace HollowNode.Pem

/-- Of a block its label and its contents count. The lines of its headers have to be well formed and
are dropped, so that blocks with other headers are the same block. -/
structure Block where
  label : String
  contents : List UInt8
deriving DecidableEq, Repr

/-- Cuts a text at a marker: what stands before it and what follows. `left` is the part of the
marker still to come, `before` the characters passed so far, backwards. A character that does not
continue the marker starts the search over behind it, even where the marker could begin with it. -/
def cutFrom (marker : List Char) :
    (left before : List Char) → List Char → Option (List Char × List Char)
  | m :: left, before, c :: cs =>
    if c ≠ m then cutFrom marker marker (c :: before) cs
    else if left.isEmpty then some ((before.drop (marker.length - 1)).reverse, cs)
    else cutFrom marker left (c :: before) cs
  | _, _, _ => none

def cut (marker cs : List Char) : Option (List Char × List Char) := cutFrom marker marker [] cs

def isGap (c : Char) : Bool := c = ' ' || c = '\t' || c = '\n' || c = '\r'

structure Raw where
  beginLabel : List Char
  headers : List Char
  data : List Char
  endLabel : List Char

def splitHeaders (body : List Char) : List Char × List Char :=
  ((cut ['\n', '\n'] body).or (cut ['\r', '\n', '\r', '\n'] body)).getD ([], body)

def nextRaw (cs : List Char) : Option (Raw × List Char) := do
  let (_, cs) ← cut "-----BEGIN ".toList cs
  let (beginLabel, cs) ← cut "-----".toList cs
  let (body, cs) ← cut "-----END ".toList (cs.dropWhile isGap)
  let (endLabel, cs) ← cut "-----".toList cs
  let (headers, data) := splitHeaders body
  return (⟨beginLabel, headers, data, endLabel⟩, cs.dropWhile isGap)

/-- The lines of a text; the end of the text ends a line that is not empty. -/
def lines (cs : List Char) : List (List Char) :=
  let ls := Text.pieces '\n' cs
  if ls.getLast? = some [] then ls.dropLast else ls

/-- The block that stands in a text, if its labels agree, every header has a colon and its data is
Base64 once the blank ends of its lines are gone. No header is kept. -/
def Raw.block? (r : Raw) : Option Block :=
  if r.beginLabel.isEmpty ∨ r.beginLabel ≠ r.endLabel then none
  else if !(lines r.headers).all (·.contains ':') then none
  else
    match Base64.decodeText ((lines r.data).flatMap Text.trimmed) with
    | .ok bytes => some ⟨String.ofList r.beginLabel, bytes⟩
    | .error _ => none

def first? (s : String) : Option Block := (nextRaw s.toList).bind fun (r, _) => r.block?

def rawBlocks : (room : Nat) → List Char → List Raw
  | 0, _ => []
  | room + 1, cs =>
    match nextRaw cs with
    | some (r, rest) => r :: rawBlocks room rest
    | none => []

/-- All blocks of a text, provided that each of them is well formed. -/
def blocks? (s : String) : Option (List Block) := (rawBlocks s.length s.toList).mapM Raw.block?

theorem first?_ofList (cs : List Char) :
    first? (String.ofList cs) = (nextRaw cs).bind fun (r, _) => r.block? := by
  rw [first?, String.toList_ofList]

theorem blocks?_ofList (cs : List Char) :
    blocks? (String.ofList cs) = (rawBlocks cs.length cs).mapM Raw.block? := by
  rw [blocks?, String.toList_ofList, String.length_ofList]

def rows : (room : Nat) → List Char → List Char
  | 0, _ => []
  | _, [] => []
  | room + 1, cs => cs.take 64 ++ '\n' :: rows room (cs.drop 64)

def encode (b : Block) : String :=
  let data := Base64.encode b.contents
  String.ofList <| "-----BEGIN ".toList ++ b.label.toList ++ "-----\n".toList ++
    rows data.length data ++ "-----END ".toList ++ b.label.toList ++ "-----\n".toList

end HollowNode.Pem
