import HollowNode.Text.Number

namespace HollowNode

inductive IpAddress
  | v4 (a b c d : Nat)
  | v6 (groups : List Nat) (scope : Nat)
deriving DecidableEq, Repr

structure Address where
  ip : IpAddress
  port : Nat
deriving DecidableEq, Repr

namespace Address

def number (digit : Char → Option Nat) (cs : List Char) : List Char × List Char :=
  (cs.takeWhile fun c => (digit c).isSome, cs.dropWhile fun c => (digit c).isSome)

def bounded (limit : Nat) (cs : List Char) : Option (Nat × List Char) :=
  let (ds, rest) := number Text.digit? cs
  ((Text.decimal? ds).filter (· ≤ limit)).map (·, rest)

def octet (cs : List Char) : Option (Nat × List Char) :=
  let (ds, rest) := number Text.digit? cs
  if 3 < ds.length ∨ (ds.head? = some '0' ∧ 1 < ds.length) then none
  else ((Text.decimal? ds).filter (· ≤ 255)).map (·, rest)

def hextet (cs : List Char) : Option (Nat × List Char) :=
  let (ds, rest) := number Text.hexDigit? cs
  if ds.isEmpty ∨ 4 < ds.length then none
  else (Text.digitsFrom Text.hexDigit? 16 0 ds).map (·, rest)

def expect (c : Char) : List Char → Option (List Char)
  | d :: rest => if d = c then some rest else none
  | [] => none

def ipv4 (cs : List Char) : Option ((Nat × Nat × Nat × Nat) × List Char) := do
  let (a, cs) ← octet cs
  let (b, cs) ← octet (← expect '.' cs)
  let (c, cs) ← octet (← expect '.' cs)
  let (d, cs) ← octet (← expect '.' cs)
  return ((a, b, c, d), cs)

def separated (first : Bool) (cs : List Char) : Option (List Char) :=
  if first then some cs else expect ':' cs

/-- At most `room` groups. Where two fit, the last two may be written as an address of version 4;
the answer says whether they are. -/
def groups (first : Bool) : (room : Nat) → List Char → List Nat × Bool × List Char
  | 0, cs => ([], false, cs)
  | room + 1, cs =>
    let embedded := if room = 0 then none else (separated first cs).bind ipv4
    match embedded with
    | some ((a, b, c, d), rest) => ([a * 256 + b, c * 256 + d], true, rest)
    | none =>
      match (separated first cs).bind hextet with
      | some (g, rest) =>
        let (gs, v4, rest) := groups false room rest
        (g :: gs, v4, rest)
      | none => ([], false, cs)

/-- Eight groups, or fewer around one `::`, which stands for at least one zero group. -/
def ipv6 (cs : List Char) : Option (List Nat × List Char) :=
  let (front, v4, rest) := groups true 8 cs
  if front.length = 8 then some (front, rest)
  else if v4 then none
  else do
    let rest ← expect ':' (← expect ':' rest)
    let (back, _, rest) := groups true (7 - front.length) rest
    return (front ++ List.replicate (8 - front.length - back.length) 0 ++ back, rest)

def portOf (cs : List Char) : Option Nat := do
  let (n, rest) ← bounded Text.limit16 (← expect ':' cs)
  if rest.isEmpty then some n else none

def bracketed (cs : List Char) : Option Address := do
  let (groups, rest) ← ipv6 (← expect '[' cs)
  let (scope, rest) := ((expect '%' rest).bind (bounded (Nat.pow 2 32 - 1))).getD (0, rest)
  return ⟨.v6 groups scope, ← portOf (← expect ']' rest)⟩

def plain (cs : List Char) : Option Address := do
  let ((a, b, c, d), rest) ← ipv4 cs
  return ⟨.v4 a b c d, ← portOf rest⟩

def ofText? (s : String) : Option Address := (plain s.toList).or (bracketed s.toList)

/-- Where the longest run of zeros starts and how long it is, counting from group `index`. -/
def longestZeros (index : Nat) : List Nat → Nat × Nat
  | [] => (index, 0)
  | g :: gs =>
    let run := (g :: gs).takeWhile (· = 0)
    let best := longestZeros (index + 1) gs
    if best.2 ≤ run.length then (index, run.length) else best

def hexGroups (gs : List Nat) : String :=
  String.intercalate ":" (gs.map fun g => String.ofList (Nat.toDigits 16 g))

def groupsText (gs : List Nat) : String :=
  match gs with
  | [0, 0, 0, 0, 0, 0xFFFF, ab, cd] => s!"::ffff:{ab / 256}.{ab % 256}.{cd / 256}.{cd % 256}"
  | _ =>
    let (start, count) := longestZeros 0 gs
    if count ≤ 1 then hexGroups gs
    else hexGroups (gs.take start) ++ "::" ++ hexGroups (gs.drop (start + count))

def toText (a : Address) : String :=
  match a.ip with
  | .v4 w x y z => s!"{w}.{x}.{y}.{z}:{a.port}"
  | .v6 groups scope =>
    if scope = 0 then s!"[{groupsText groups}]:{a.port}"
    else s!"[{groupsText groups}%{scope}]:{a.port}"

end Address

end HollowNode
