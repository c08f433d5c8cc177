import HollowNode.Der
import HollowNode.Moment
import HollowNode.Text.Utf8

namespace HollowNode

/-- One value of a distinguished name: its type, and the tag and bytes of the value. -/
structure Attribute where
  oid : List UInt8
  tag : Nat
  bytes : List UInt8
deriving DecidableEq, Repr

def Attribute.textTags : List Nat := [7, 12, 18, 19, 20, 21, 22, 25, 26, 27]

/-- The text of an attribute, which is empty if it is no text. -/
def Attribute.text (a : Attribute) : String :=
  if a.tag ∈ textTags then
    match Text.Utf8.decode a.bytes with
    | .ok cs => String.ofList cs
    | .error _ => ""
  else ""

structure Certificate where
  subject : List Attribute
  notBefore : Moment
  notAfter : Moment
deriving DecidableEq, Repr

namespace Certificate

open Der

def expect (number : Nat) (bytes : List UInt8) : Option (List UInt8 × List UInt8) := do
  let (e, rest) ← tolerant? bytes
  if e.number = number then some (e.contents, rest) else none

def tagged (number : Nat) (bytes : List UInt8) : Option (Option (List UInt8) × List UInt8) :=
  if bytes.isEmpty then some (none, bytes)
  else do
    let (e, rest) ← tolerant? bytes
    if e.number ≠ number then some (none, bytes)
    else if e.cls = 2 then some (some e.contents, rest)
    else none

def oid? (bytes : List UInt8) : Option (List UInt8 × List UInt8) := do
  let (oid, rest) ← expect objectIdentifier bytes
  if oid.getLast?.any (· < 128) then some (oid, rest) else none

def bits? (bytes : List UInt8) : Option (List UInt8 × List UInt8) := do
  let (contents, rest) ← expect bitString bytes
  match contents with
  | [] => none
  | unused :: bits =>
    if 7 < unused then none
    else if bits.getLast?.any (fun b => b.toNat % Nat.pow 2 unused.toNat ≠ 0) then none
    else some (bits, rest)

def algorithm? (bytes : List UInt8) : Option (List UInt8 × List UInt8) := do
  let (contents, rest) ← expect sequence bytes
  let (oid, parameters) ← oid? contents
  if parameters.isEmpty ∨ (tolerant? parameters).isSome then some (oid, rest) else none

def many (read : List UInt8 → Option (α × List UInt8)) :
    (room : Nat) → List UInt8 → List α × List UInt8
  | 0, bytes => ([], bytes)
  | room + 1, bytes =>
    match read bytes with
    | some (a, rest) =>
      let (as, rest) := many read room rest
      (a :: as, rest)
    | none => ([], bytes)

def attribute? (bytes : List UInt8) : Option (Attribute × List UInt8) := do
  let (contents, rest) ← expect sequence bytes
  let (oid, value) ← oid? contents
  let (e, _) ← tolerant? value
  return (⟨oid, e.number, e.contents⟩, rest)

def relativeName? (bytes : List UInt8) : Option (List Attribute × List UInt8) := do
  let (contents, rest) ← expect set bytes
  let (attributes, _) := many attribute? contents.length contents
  if attributes.isEmpty then none else some (attributes, rest)

def name? (bytes : List UInt8) : Option (List Attribute × List UInt8) := do
  let (contents, rest) ← expect sequence bytes
  return ((many relativeName? contents.length contents).1.flatten, rest)

def ascii? (bytes : List UInt8) : Option (List Char) :=
  if bytes.all (fun b => 0x20 ≤ b ∧ b ≤ 0x7F) then some (bytes.map fun b => Char.ofNat b.toNat)
  else none

def moment? (bytes : List UInt8) : Option (Moment × List UInt8) := do
  let (e, rest) ← tolerant? bytes
  let text ← ascii? e.contents
  if e.number = utcTime then (Moment.ofTwoDigits? text).map (·, rest)
  else if e.number = generalizedTime then (Moment.ofFourDigits? text).map (·, rest)
  else none

def validity? (bytes : List UInt8) : Option ((Moment × Moment) × List UInt8) := do
  let (contents, rest) ← expect sequence bytes
  let (notBefore, contents) ← moment? contents
  let (notAfter, _) ← moment? contents
  return ((notBefore, notAfter), rest)

/-- The version is a number of at most 32 bits inside the tag 0. -/
def versionFits (contents : List UInt8) : Bool :=
  match expect integer contents with
  | some (n, _) => !n.isEmpty && n.head?.any (· < 128) && natOf n < Nat.pow 2 32
  | none => false

def publicKey? (bytes : List UInt8) : Option (List UInt8) := do
  let (contents, rest) ← expect sequence bytes
  let (_, key) ← algorithm? contents
  let _ ← bits? key
  return rest

def uniqueId? (number : Nat) (bytes : List UInt8) : Option (List UInt8) := do
  let (contents, rest) ← tagged number bytes
  match contents with
  | some [] => none
  | _ => some rest

def extension? (bytes : List UInt8) : Option (Unit × List UInt8) := do
  let (contents, rest) ← expect sequence bytes
  let (_, value) ← oid? contents
  let value := match expect boolean value with
    | some ([_], value) => value
    | _ => value
  let _ ← expect octetString value
  return ((), rest)

def extensionsFit (bytes : List UInt8) : Bool :=
  if bytes.isEmpty then true
  else
    match tagged 3 bytes with
    | some (some contents, []) =>
      match expect sequence contents with
      | some (items, []) => (many extension? items.length items).2.isEmpty
      | _ => false
    | _ => false

def signed? (contents : List UInt8) : Option Certificate := do
  let (version, bytes) ← tagged 0 contents
  if !(version.map versionFits).getD true then none
  else
    let (_, bytes) ← expect integer bytes
    let (_, bytes) ← algorithm? bytes
    let (_, bytes) ← name? bytes
    let ((notBefore, notAfter), bytes) ← validity? bytes
    let (subject, bytes) ← name? bytes
    let bytes ← publicKey? bytes
    let bytes ← uniqueId? 1 bytes
    let bytes ← uniqueId? 2 bytes
    if extensionsFit bytes then some ⟨subject, notBefore, notAfter⟩ else none

def ofDer? (bytes : List UInt8) : Option Certificate := do
  let (contents, _) ← expect sequence bytes
  let (signed, rest) ← expect sequence contents
  let certificate ← signed? signed
  let (_, rest) ← algorithm? rest
  let _ ← bits? rest
  return certificate

def commonNameOid : List UInt8 := [0x55, 0x04, 0x03]

def commonName (c : Certificate) : String :=
  ((c.subject.find? (·.oid = commonNameOid)).map (·.text)).getD ""

/-- Whether an instant, in milliseconds since 1970-01-01T00:00:00Z, lies in the period of validity.
A beginning written with four digits of the year is not part of it, any other beginning and every
end is. -/
def isValidAt (c : Certificate) (now : Int) : Bool :=
  (c.notBefore.millis < now || (c.notBefore.millis = now && !c.notBefore.fourDigits)) &&
    now ≤ c.notAfter.millis

end Certificate

end HollowNode
