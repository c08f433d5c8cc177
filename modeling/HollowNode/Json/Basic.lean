namespace HollowNode

/-- A number without fraction and exponent that fits 64 bits is `int`, any other `decimal`, as
written. Objects keep their fields in written order, repetitions included. `illegible` is a string,
or an object with a key, that holds half of a surrogate pair: it is no text, yet a reader that has
no use for it may pass over it. -/
inductive Json
  | null
  | bool (b : Bool)
  | int (n : Int)
  | decimal (literal : String)
  | str (s : String)
  | arr (items : List Json)
  | obj (fields : List (String × Json))
  | illegible
deriving Repr, Inhabited

namespace Json

def nat (n : Nat) : Json := .int n

def lookup (name : String) : List (String × Json) → Option Json
  | [] => none
  | (k, v) :: rest => if k = name then some v else lookup name rest

def get? (name : String) : Json → Option Json
  | .obj fields => lookup name fields
  | _ => none

def optional (name : String) (write : α → Json) : Option α → List (String × Json)
  | some a => [(name, write a)]
  | none => []

end Json

end HollowNode
