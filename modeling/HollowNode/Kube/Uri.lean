namespace HollowNode.Kube.Uri

/-- The characters that may stand in a path as they are. All that are not ASCII may. -/
def isPathChar (c : Char) : Bool :=
  '!' ≤ c && c ≠ '#' && c ≠ '<' && c ≠ '>' && c ≠ '?' && c ≠ '`'

def isQueryChar (c : Char) : Bool := '!' ≤ c && c ≠ '"' && c ≠ '#' && c ≠ '<' && c ≠ '>'

def lengthLimit : Nat := 65534

/-- A path and perhaps a query. What stands behind a number sign is not sent, and is not looked
at. -/
def sent? (cs : List Char) : Option (List Char) :=
  let sent := cs.takeWhile (· ≠ '#')
  let path := sent.takeWhile (· ≠ '?')
  let query := (sent.dropWhile (· ≠ '?')).drop 1
  if path.all isPathChar && query.all isQueryChar then some sent else none

def target? (text : String) : Option String :=
  if text.utf8ByteSize ≤ lengthLimit then (sent? text.toList).map String.ofList else none

def isSchemeChar (c : Char) : Bool := c.isAlphanum || c = '+' || c = '-' || c = '.'

def afterScheme? (cs : List Char) : Option (List Char) :=
  match cs.dropWhile isSchemeChar with
  | ':' :: '/' :: '/' :: rest => if cs.length ≤ rest.length + 67 then some rest else none
  | _ => none

def isAuthorityChar (c : Char) : Bool :=
  c.isAlphanum ||
    c ∈ ['!', '$', '&', '\'', '(', ')', '*', '+', ',', '-', '.', ':', ';', '=', '@', '[', ']',
      '_', '~', '%']

/-- What was seen of a host so far: colons and percent signs since the user or the last bracket, and
where the brackets are. -/
structure Host where
  colons : Nat := 0
  percent : Bool := false
  opened : Bool := false
  closed : Bool := false

def Host.step (h : Host) : Char → Option Host
  | ':' => if 8 ≤ h.colons then none else some { h with colons := h.colons + 1 }
  | '[' => if h.percent || h.opened then none else some { h with opened := true }
  | ']' => if !h.opened || h.closed then none
      else some { h with closed := true, colons := 0, percent := false }
  | '@' => some { h with colons := 0, percent := false }
  | '%' => some { h with percent := true }
  | _ => some h

def isAuthority (cs : List Char) : Bool :=
  cs.all isAuthorityChar && cs.getLast? ≠ some '@' && match cs.foldlM Host.step {} with
    | some h => h.opened = h.closed && h.colons ≤ 1 && !h.percent
    | none => false

def endsAuthority (c : Char) : Bool := c = '/' || c = '?' || c = '#'

/-- Whether a text is an address: a scheme, a host and perhaps a path, or a host alone, or a path
alone. -/
def isAddress (text : String) : Bool :=
  text.utf8ByteSize ≤ lengthLimit && match text.toList with
  | [] => false
  | ['*'] => true
  | '/' :: rest => (sent? ('/' :: rest)).isSome
  | cs =>
    match afterScheme? cs with
    | some rest =>
      let host := rest.takeWhile (!endsAuthority ·)
      !host.isEmpty && isAuthority host && (sent? (rest.dropWhile (!endsAuthority ·))).isSome
    | none => isAuthority cs

end HollowNode.Kube.Uri
