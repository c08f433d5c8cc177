import HollowNode.Dict
import HollowNode.Taint
import HollowNode.Text.Pieces

namespace HollowNode.Flag

def extendedResources : String := "--extended-resources"
def nodeLabels : String := "--node-labels"
def registerWithTaints : String := "--register-with-taints"

inductive TaintFault
  | noEffect
  | effect (name : String)
  | equalsSigns (key : String)
  | emptyKey
deriving DecidableEq, Repr

inductive Fault
  | foreign (flag encoded : String)
  | notPair (flag segment : String)
  | taint (segment : String) (fault : TaintFault)
  | lossy (flag : String)
  | lossyTaints (machine : String)
  | told (text : String)
deriving DecidableEq, Repr

def TaintFault.message : TaintFault → String
  | .noEffect => "has no effect"
  | .effect name => TaintEffect.unknown name
  | .equalsSigns key => s!"has more than one `=` after key `{key}`"
  | .emptyKey => "has an empty key"

def Fault.message : Fault → String
  | .foreign flag encoded => s!"`{encoded}` does not start with `{flag}=`"
  | .notPair flag segment => s!"segment `{segment}` of {flag} is not a key=value pair"
  | .taint segment fault => s!"taint `{segment}` {fault.message}"
  | .lossy flag => s!"{flag} value cannot be encoded losslessly"
  | .lossyTaints machine => s!"taints of {machine} cannot be encoded losslessly"
  | .told text => text

/-- A flag with the given segments; no segments, no flag. -/
def render (flag : String) (segments : List (List Char)) : String :=
  if segments.isEmpty then ""
  else String.ofList (flag.toList ++ '=' :: Text.joined ',' segments)

def pairSegment (p : String × String) : List Char := p.1.toList ++ '=' :: p.2.toList

def taintSegment (t : Taint) : List Char :=
  match t.value with
  | some v => t.key.toList ++ '=' :: v.toList ++ ':' :: t.effect.name.toList
  | none => t.key.toList ++ ':' :: t.effect.name.toList

/-- A mapping is `flag=k1=v1,k2=v2` in the order of its keys. -/
def encodePairs (flag : String) (m : Dict String) : String :=
  render flag (m.entries.map pairSegment)

def encodeResources (m : Dict String) : String := encodePairs extendedResources m

def encodeLabels (m : Dict String) : String := encodePairs nodeLabels m

/-- Taints are `flag=key=value:Effect,key:Effect` in the order of the list. -/
def encodeTaints (ts : List Taint) : String := render registerWithTaints (ts.map taintSegment)

def segments (flag encoded : String) : Except Fault (List (List Char)) :=
  if encoded.isEmpty then .ok []
  else
    match Text.after (flag.toList ++ ['=']) encoded.toList with
    | some body => .ok (Text.pieces ',' body)
    | none => .error (.foreign flag encoded)

def decodePair (flag : String) (segment : List Char) : Except Fault (String × String) :=
  match Text.pieces '=' segment with
  | [key, value] => .ok (String.ofList key, String.ofList value)
  | _ => .error (.notPair flag (String.ofList segment))

def decode (flag encoded : String) : Except Fault (Dict String) := do
  let pairs ← (← segments flag encoded).mapM (decodePair flag)
  return Dict.ofList pairs

/-- The effect stands after the last `:`, the value after the first `=` before it. -/
def decodeTaint (segment : List Char) : Except Fault Taint := do
  let fault f := Fault.taint (String.ofList segment) f
  let some (keyValue, effect) := Text.cutLast ':' segment | .error (fault .noEffect)
  let some effect := TaintEffect.ofName? (String.ofList effect)
    | .error (fault (.effect (String.ofList effect)))
  let (key, value) := match Text.cutFirst '=' keyValue with
    | some (key, value) => (key, some value)
    | none => (keyValue, none)
  if value.any (·.contains '=') then .error (fault (.equalsSigns (String.ofList key)))
  else if key.isEmpty then .error (fault .emptyKey)
  else return ⟨String.ofList key, value.map String.ofList, effect⟩

def decodeTaints (encoded : String) : Except Fault (List Taint) := do
  (← segments registerWithTaints encoded).mapM decodeTaint

end HollowNode.Flag
