import HollowNode.Json.Basic
import HollowNode.Json.Token

namespace HollowNode.Json

inductive Want
  | value
  | itemOrClose
  | keyOrClose
  | key
  | colon (key : Option (List Char))
  | separator
  | nothing (result : Json)
deriving Inhabited

/-- An open array with its items, or an open object with its fields, newest first; in an object the
field under way has its key already. -/
inductive Frame
  | items (done : List Json)
  | fields (done : List (Option (List Char) × Json))
  | field (done : List (Option (List Char) × Json)) (key : Option (List Char))

structure Progress where
  want : Want
  frames : List Frame

namespace Progress

def start : Progress := ⟨.value, []⟩

def deliver (v : Json) : List Frame → Option Progress
  | [] => some ⟨.nothing v, []⟩
  | .items done :: rest => some ⟨.separator, .items (v :: done) :: rest⟩
  | .field done key :: rest => some ⟨.separator, .fields ((key, v) :: done) :: rest⟩
  | .fields _ :: _ => none

/-- An object of fields, newest first; without text for some key it is illegible. -/
def object (done : List (Option (List Char) × Json)) : Json :=
  match done.reverse.mapM fun (k, v) => k.map fun k => (String.ofList k, v) with
  | some fields => .obj fields
  | none => .illegible

def scalar? : Token → Option Json
  | .null => some .null
  | .bool b => some (.bool b)
  | .int n => some (.int n)
  | .decimal s => some (.decimal s)
  | .str (some s) => some (.str (String.ofList s))
  | .str none => some .illegible
  | _ => none

def beginValue (t : Token) (frames : List Frame) : Option Progress :=
  match t with
  | .openArray => some ⟨.itemOrClose, .items [] :: frames⟩
  | .openObject => some ⟨.keyOrClose, .fields [] :: frames⟩
  | t => (scalar? t).bind fun v => deliver v frames

def step (p : Progress) (t : Token) : Option Progress :=
  match p.want, t, p.frames with
  | .value, t, frames => beginValue t frames
  | .itemOrClose, .closeArray, .items done :: rest => deliver (.arr done.reverse) rest
  | .itemOrClose, t, frames => beginValue t frames
  | .keyOrClose, .closeObject, .fields done :: rest => deliver (object done) rest
  | .keyOrClose, .str key, frames => some ⟨.colon key, frames⟩
  | .key, .str key, frames => some ⟨.colon key, frames⟩
  | .colon key, .colon, .fields done :: rest => some ⟨.value, .field done key :: rest⟩
  | .separator, .comma, .items done :: rest => some ⟨.value, .items done :: rest⟩
  | .separator, .comma, .fields done :: rest => some ⟨.key, .fields done :: rest⟩
  | .separator, .closeArray, .items done :: rest => deliver (.arr done.reverse) rest
  | .separator, .closeObject, .fields done :: rest => deliver (object done) rest
  | _, _, _ => none

def result? (p : Progress) : Option Json :=
  match p.want with
  | .nothing v => some v
  | _ => none

end Progress

def ofTokens (ts : List Token) : Option Json :=
  (ts.foldlM Progress.step Progress.start).bind Progress.result?

def read (text : String) : Option Json := (Token.all text.toList).bind ofTokens

end HollowNode.Json
