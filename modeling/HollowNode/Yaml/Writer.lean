import HollowNode.Yaml.Text

namespace HollowNode.Yaml

inductive Value
  | bool (b : Bool)
  | text (s : String)
  | list (items : List Value)
  | record (fields : List (String × Value))
deriving Inhabited, Repr

namespace Value

def optional (name : String) : Option String → List (String × Value)
  | some s => [(name, .text s)]
  | none => []

def spaces (n : Nat) : List Char := List.replicate n ' '

/-- The end of a line; a block scalar that ends in a line break has it already. -/
def endLine (cs : List Char) : List Char :=
  if cs.head? = some '|' ∧ cs.getLast?.any isBreak then cs else cs ++ ['\n']

mutual

/-- A value behind a key or a hyphen. `outer` is the column of a list in it, `inner` that of a
record; `inline` tells whether a block may start in the same line. -/
def chars (outer inner : Nat) (inline : Bool) : Value → List Char
  | .bool b => (if inline then [] else [' ']) ++ (if b then "true" else "false").toList ++ ['\n']
  | .text s => (if inline then [] else [' ']) ++ endLine (Text.write inner s)
  | .list [] => (if inline then [] else [' ']) ++ ['[', ']', '\n']
  | .record [] => (if inline then [] else [' ']) ++ ['{', '}', '\n']
  | .list items => (if inline then [] else ['\n']) ++ itemChars outer inline items
  | .record fields => (if inline then [] else ['\n']) ++ fieldChars inner inline fields

def itemChars (column : Nat) (inline : Bool) : List Value → List Char
  | [] => []
  | v :: rest =>
    (if inline then [] else spaces column) ++ '-' :: ' ' :: chars (column + 2)
      (column + 2) true v ++ itemChars column false rest

def fieldChars (column : Nat) (inline : Bool) : List (String × Value) → List Char
  | [] => []
  | (k, v) :: rest =>
    (if inline then [] else spaces column) ++ Text.write column k ++ ':' ::
      chars column (column + 2) false v ++ fieldChars column false rest

end

def write (v : Value) : String := String.ofList (v.chars 0 0 true)

end Value

end HollowNode.Yaml
