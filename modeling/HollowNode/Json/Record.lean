import HollowNode.Base64
import HollowNode.Dict
import HollowNode.Json.Basic

namespace HollowNode.Json

def single (name : String) (fields : List (String × Json)) : Option (Option Json) :=
  match fields.filter (·.1 = name) with
  | [] => some none
  | [(_, v)] => some (some v)
  | _ => none

def positional : List String → List Json → Option (List (Option Json))
  | [], [] => some []
  | [], _ :: _ => none
  | _ :: names, [] => (positional names []).map (none :: ·)
  | _ :: names, v :: vs => (positional names vs).map (some v :: ·)

/-- The values of the fields of a strict record, in the order of `names`. Such a record is an object
that holds each of its fields at most once, in any order and among unknown ones, or the list of its
field values in order, possibly cut short. -/
def record (names : List String) : Json → Option (List (Option Json))
  | .obj fields => names.mapM (single · fields)
  | .arr items => positional names items
  | _ => none

def text? : Json → Option String
  | .str s => some s
  | _ => none

def flag? : Json → Option Bool
  | .bool b => some b
  | _ => none

def bounded? (low high : Int) : Json → Option Int
  | .int n => if low ≤ n ∧ n ≤ high then some n else none
  | _ => none

def list? (read : Json → Option α) : Json → Option (List α)
  | .arr items => items.mapM read
  | _ => none

/-- An object whose field names are keys; of two fields with one name the later counts. -/
def dict? (read : Json → Option α) : Json → Option (Dict α)
  | .obj fields => (fields.mapM fun p => (read p.2).map fun a => (p.1, a)).map Dict.ofList
  | _ => none

def nullable (read : Json → Option α) : Json → Option (Option α)
  | .null => some none
  | v => (read v).map some

def defaulted (fallback : α) (read : Json → Option α) : Option Json → Option α
  | none => some fallback
  | some v => read v

def ofDict (write : α → Json) (m : Dict α) : Json := .obj (m.entries.map fun p => (p.1, write p.2))

/-- The last legible value of a field in a lenient record; every one of them has to be legible. -/
def latest (name : String) (read : Json → Option α) (fields : List (String × Json)) :
    Option (Option α) := do
  let values ← (fields.filter (·.1 = name)).mapM fun p => nullable read p.2
  return values.getLast?.join

def lenient : Json → Option (List (String × Json))
  | .obj fields => some fields
  | _ => none

/-- The fields of a lenient record that may name its version and kind, which have to be the given
ones. -/
def ofKind (apiVersion kind : String) (j : Json) : Option (List (String × Json)) := do
  let fields ← lenient j
  let fits (name expected : String) :=
    (fields.filter (·.1 = name)).all fun p => match p.2 with
      | .str s => s = expected
      | _ => false
  if fits "apiVersion" apiVersion ∧ fits "kind" kind then some fields else none

def bytes? (j : Json) : Option (List UInt8) := do
  match Base64.decodeText (← text? j).toList with
  | .ok bytes => some bytes
  | .error _ => none

def ofBytes (bytes : List UInt8) : Json := .str (Base64.encodeText bytes)

def ofTexts (texts : List String) : Json := .arr (texts.map .str)

end HollowNode.Json
