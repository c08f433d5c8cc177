import HollowNode.Yaml.Record
import HollowNode.Yaml.Text

namespace HollowNode.Yaml

inductive Datum
  | null
  | bool (b : Bool)
  | number (text : String)
  | text (s : String)
  | list (items : List Datum)
  | record (fields : List (Datum × Datum))
deriving Inhabited, Repr

namespace Datum

open Yaml.Text

def isNumber (s : String) : Bool :=
  s ∈ specialNumbers || (!isPaddedDigits s.toList && (isInteger s.toList || isDecimal s.toList))

def ofPlain (s : String) : Datum :=
  if s.isEmpty ∨ Document.isNullWord s then .null
  else
    match Document.boolWord? s with
    | some b => .bool b
    | none => if isNumber s then .number s else .text s

def integerTag : String := "tag:yaml.org,2002:int"
def decimalTag : String := "tag:yaml.org,2002:float"

/-- A scalar with one of the standard tags is of that kind; any other tag says nothing. -/
def ofScalar? (s : String) (style : Style) : Option String → Option Datum
  | none => some (if style = .plain then ofPlain s else .text s)
  | some tag =>
    if tag = Document.boolTag then (Document.boolWord? s).map .bool
    else if tag = Document.nullTag then if Document.isNullWord s then some .null else none
    else if tag = integerTag then if isInteger s.toList then some (.number s) else none
    else if tag = decimalTag then if isNumber s then some (.number s) else none
    else if tag.startsWith "!" then some (if style = .plain then ofPlain s else .text s)
    else some (.text s)

def isSame : Datum → Datum → Bool
  | null, null => true
  | bool a, bool b => a = b
  | number a, number b => a = b
  | text a, text b => a = b
  | _, _ => false

def areDistinct : List Datum → Bool
  | [] => true
  | d :: rest => !rest.any d.isSame && areDistinct rest

/-- What a node stands for; none if keys are repeated, or if it is nested deeper than `depth`. -/
def ofNode? (d : Document) : (depth : Nat) → Node → Option Datum
  | 0, _ => none
  | depth + 1, n => do
    match ← d.target n with
    | .scalar s style tag => ofScalar? s style tag
    | .seq items => return .list (← items.mapM (ofNode? d depth))
    | .map fields =>
      let fields ← fields.mapM fun p => do return (← ofNode? d depth p.1, ← ofNode? d depth p.2)
      if areDistinct (fields.map (·.1)) then return .record fields else none
    | .alias _ => none

def ofDocument? (d : Document) : Option Datum := ofNode? d 128 d.root

def text? : Datum → Option String
  | .text s => some s
  | _ => none

def bool? : Datum → Option Bool
  | .bool b => some b
  | _ => none

variable {α : Type}

def list? (read : Datum → Option α) : Datum → Option (List α)
  | .list items => items.mapM read
  | .null => some []
  | _ => none

def fields? : Datum → Option (List (String × Datum))
  | .record fields => fields.mapM fun p => p.1.text?.map (·, p.2)
  | .null => some []
  | _ => none

def get? (fields : List (String × Datum)) (name : String) : Option Datum :=
  (fields.find? (·.1 = name)).map (·.2)

def optional (read : Datum → Option α) (fields : List (String × Datum)) (name : String) :
    Option (Option α) :=
  match get? fields name with
  | none | some .null => some none
  | some d => (read d).map some

def required (read : Datum → Option α) (fields : List (String × Datum)) (name : String) :
    Option α :=
  (get? fields name).bind read

end Datum

end HollowNode.Yaml
