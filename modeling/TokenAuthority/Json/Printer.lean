import TokenAuthority.Json.Value

/-!
# The text of a JSON value

One compact form: no blanks, members in their order, and in a string an escape only for the
quotation mark, the reverse solidus and the characters below U+0020.
-/

namespace TokenAuthority.Json

def hexDigit (n : Nat) : Char :=
  if n < 10 then Char.ofNat ('0'.toNat + n) else Char.ofNat ('a'.toNat + (n - 10))

/-- A character as it stands in a string. -/
def escaped (c : Char) : List Char :=
  if c = '"' then ['\\', '"']
  else if c = '\\' then ['\\', '\\']
  else if c = '\x08' then ['\\', 'b']
  else if c = '\t' then ['\\', 't']
  else if c = '\n' then ['\\', 'n']
  else if c = '\x0c' then ['\\', 'f']
  else if c = '\r' then ['\\', 'r']
  else if c.toNat < 32 then ['\\', 'u', '0', '0', hexDigit (c.toNat / 16), hexDigit (c.toNat % 16)]
  else [c]

def quoted (s : String) : List Char :=
  '"' :: s.toList.flatMap escaped ++ ['"']

mutual

def print : Json → List Char
  | .null => ['n', 'u', 'l', 'l']
  | .bool true => ['t', 'r', 'u', 'e']
  | .bool false => ['f', 'a', 'l', 's', 'e']
  | .int n => Text.signedDigits n
  | .real x => x.text
  | .str s => quoted s
  | .arr [] => ['[', ']']
  | .arr (v :: vs) => '[' :: print v ++ printItems vs
  | .obj [] => ['\x7b', '\x7d']
  | .obj ((name, v) :: ms) => '\x7b' :: quoted name ++ ':' :: print v ++ printMembers ms

/-- The items after the first, and the closing bracket. -/
def printItems : List Json → List Char
  | [] => [']']
  | v :: vs => ',' :: print v ++ printItems vs

/-- The members after the first, and the closing brace. -/
def printMembers : List (String × Json) → List Char
  | [] => ['\x7d']
  | (name, v) :: ms => ',' :: quoted name ++ ':' :: print v ++ printMembers ms

end

/-- The text of a value. -/
def text (v : Json) : String := String.ofList v.print

end TokenAuthority.Json
