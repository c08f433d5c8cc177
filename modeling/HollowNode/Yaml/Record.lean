import HollowNode.Yaml.Node

namespace HollowNode.Yaml

namespace Document

def target (d : Document) : Node → Option Node
  | .alias id => d.resolve? id
  | other => some other

def isNullWord (s : String) : Bool := s = "null" || s = "Null" || s = "NULL" || s = "~"

def nullTag : String := "tag:yaml.org,2002:null"

def boolTag : String := "tag:yaml.org,2002:bool"

def text? (d : Document) (n : Node) : Option String := do
  match ← d.target n with
  | .scalar text _ _ => return text
  | _ => none

def boolWord? (s : String) : Option Bool :=
  if s = "true" ∨ s = "True" ∨ s = "TRUE" then some true
  else if s = "false" ∨ s = "False" ∨ s = "FALSE" then some false
  else none

/-- Only plain scalars are truth values, and literal ones with the tag for them. -/
def flag? (d : Document) (n : Node) : Option Bool := do
  match ← d.target n with
  | .scalar text .plain _ => boolWord? text
  | .scalar text .literal tag => if tag = some boolTag then boolWord? text else none
  | _ => none

def nullable (d : Document) (read : Node → Option α) (n : Node) : Option (Option α) := do
  let n ← d.target n
  match n with
  | .scalar text .plain none =>
    if text.isEmpty ∨ isNullWord text then return none else return some (← read n)
  | .scalar text .plain (some tag) =>
    if tag = nullTag then if isNullWord text then return none else none else return some (← read n)
  | _ => return some (← read n)

def isNothing : Node → Bool
  | .scalar text .plain _ => text.isEmpty
  | _ => false

def list? (d : Document) (read : Node → Option α) (n : Node) : Option (List α) := do
  let n ← d.target n
  match n with
  | .seq items => items.mapM read
  | _ => if isNothing n then return [] else none

def single (name : String) (fields : List (String × Node)) : Option (Option Node) :=
  match fields.filter (·.1 = name) with
  | [] => some none
  | [(_, v)] => some (some v)
  | _ => none

def record (d : Document) (names : List String) (n : Node) : Option (List (Option Node)) := do
  let n ← d.target n
  match n with
  | .map fields =>
    let fields ← fields.mapM fun p => do return (← d.text? p.1, p.2)
    names.mapM (single · fields)
  | _ => if isNothing n then return names.map fun _ => none else none

def defaulted (fallback : α) (read : Node → Option α) : Option Node → Option α
  | none => some fallback
  | some n => read n

end Document

end HollowNode.Yaml
