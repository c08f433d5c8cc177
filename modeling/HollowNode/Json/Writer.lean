import HollowNode.Json.Basic
import HollowNode.Text.Number

namespace HollowNode.Json

def hexDigit (n : Nat) : Char := (Nat.toDigits 16 n).head?.getD '0'

def escape (c : Char) : List Char :=
  if c = '"' then ['\\', '"']
  else if c = '\\' then ['\\', '\\']
  else if c = '\x08' then ['\\', 'b']
  else if c = '\x0c' then ['\\', 'f']
  else if c = '\n' then ['\\', 'n']
  else if c = '\r' then ['\\', 'r']
  else if c = '\t' then ['\\', 't']
  else if c.toNat < 0x20 then ['\\', 'u', '0', '0', hexDigit (c.toNat / 16),
    hexDigit (c.toNat % 16)]
  else [c]

def quoted (s : String) : List Char := '"' :: s.toList.flatMap escape ++ ['"']

def integer (n : Int) : List Char :=
  match n with
  | .ofNat n => Text.digits n
  | .negSucc n => '-' :: Text.digits (n + 1)

mutual

def chars : Json → List Char
  | .null => ['n', 'u', 'l', 'l']
  | .bool true => ['t', 'r', 'u', 'e']
  | .bool false => ['f', 'a', 'l', 's', 'e']
  | .int n => integer n
  | .decimal s => s.toList
  | .str s => quoted s
  | .arr items => '[' :: itemChars true items
  | .obj fields => '{' :: fieldChars true fields
  | .illegible => ['n', 'u', 'l', 'l']

def itemChars (first : Bool) : List Json → List Char
  | [] => [']']
  | v :: rest => (if first then [] else [',']) ++ chars v ++ itemChars false rest

def fieldChars (first : Bool) : List (String × Json) → List Char
  | [] => ['}']
  | (k, v) :: rest =>
    (if first then [] else [',']) ++ quoted k ++ ':' :: chars v ++ fieldChars false rest

end

def write (v : Json) : String := String.ofList v.chars

end HollowNode.Json
