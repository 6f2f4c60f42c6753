import TokenAuthority.Encoding.Utf8
import TokenAuthority.Json.Value

/-!
# Reading a JSON text

The reader takes a text character by character. Its state is a mode, which says what may come next,
and the stack of arrays and objects that are still open, so that one step of it is a plain function
(`Progress.step`) and reading is a fold. `Json.read` gives the value of a text or the first fault
in it, with the place at which it shows.

A reader that needs some members of an object only passes over the others (`Json.readKept`). What
is passed over has to have the form of a value, but its strings need not be well-formed, its numbers
may have any size, and it may be nested to any depth.
-/

namespace TokenAuthority.Json

/-- Why a text is no JSON. -/
inductive SyntaxFault where
  | endInValue
  | endInString
  | endInList
  | endInObject
  | valueExpected
  | identExpected
  | colonExpected
  | listCommaExpected
  | objectCommaExpected
  | nameExpected
  | trailingComma
  | trailingCharacters
  | badNumber
  | numberTooLarge
  | badEscape
  | loneSurrogate
  | halfSurrogate
  | controlCharacter
  | malformedCharacter
  | tooDeep
  deriving DecidableEq

def SyntaxFault.message : SyntaxFault → String
  | .endInValue => "EOF while parsing a value"
  | .endInString => "EOF while parsing a string"
  | .endInList => "EOF while parsing a list"
  | .endInObject => "EOF while parsing an object"
  | .valueExpected => "expected value"
  | .identExpected => "expected ident"
  | .colonExpected => "expected `:`"
  | .listCommaExpected => "expected `,` or `]`"
  | .objectCommaExpected => "expected `,` or `\x7d`"
  | .nameExpected => "key must be a string"
  | .trailingComma => "trailing comma"
  | .trailingCharacters => "trailing characters"
  | .badNumber => "invalid number"
  | .numberTooLarge => "number out of range"
  | .badEscape => "invalid escape"
  | .loneSurrogate => "lone leading surrogate in hex escape"
  | .halfSurrogate => "unexpected end of hex escape"
  | .controlCharacter => "control character (\\u0000-\\u001F) found while parsing a string"
  | .malformedCharacter => "invalid unicode code point"
  | .tooDeep => "recursion limit exceeded"

/-- A line, counted from one, and the number of bytes read of it. -/
structure Place where
  line : Nat
  column : Nat
  deriving DecidableEq

/-- The place behind the first bytes of a character. -/
def Place.within (p : Place) (c : Option Char) (bytes : Nat) : Place :=
  if bytes = 0 then p
  else if c = some '\n' then ⟨p.line + 1, 0⟩
  else ⟨p.line, p.column + bytes⟩

/-- The place behind a character, or behind a byte that belongs to none. -/
def Place.behind (p : Place) (c : Option Char) : Place := p.within c (c.elim 1 Char.utf8Size)

structure SyntaxError where
  fault : SyntaxFault
  place : Place
  deriving DecidableEq

def SyntaxError.message (e : SyntaxError) : String :=
  e.fault.message ++ " at line " ++ String.ofList (Text.digits e.place.line) ++ " column "
    ++ String.ofList (Text.digits e.place.column)

/-- The parts of a number. -/
structure Numeral where
  negative : Bool
  /-- The leading digits, as far as they fit into 64 bits. -/
  significand : Nat
  /-- The power of ten that the place of the point gives to the significand. -/
  scale : Int
  /-- A digit on this side of the point did not fit, and so all that follow are left out. -/
  full : Bool
  exponentNegative : Bool
  exponent : Nat
  /-- It has neither a point nor an exponent. -/
  whole : Bool

namespace Numeral

/-- The number before its first digit. -/
def blank (negative : Bool) : Numeral := ⟨negative, 0, 0, false, false, 0, true⟩

def admits (x : Numeral) (d : Nat) : Bool :=
  !x.full && decide (10 * x.significand + d < 0x10000000000000000)

/-- A digit before the point. -/
def integerDigit (x : Numeral) (d : Nat) : Numeral :=
  if x.admits d then { x with significand := 10 * x.significand + d }
  else { x with full := true, scale := x.scale + 1 }

def point (x : Numeral) : Numeral := { x with whole := false, full := false }

/-- A digit behind the point. -/
def fractionDigit (x : Numeral) (d : Nat) : Numeral :=
  if x.admits d then { x with significand := 10 * x.significand + d, scale := x.scale - 1 }
  else { x with full := true }

def exponentDigit (x : Numeral) (d : Nat) : Numeral := { x with exponent := 10 * x.exponent + d }

/-- The exponent is so large that the number is too, whatever digits follow. -/
def exceeds (x : Numeral) : Bool :=
  !x.exponentNegative && decide (0x80000000 ≤ x.exponent) && decide (x.significand ≠ 0)

/-- The value of a number; none if it is too large. -/
def value? (x : Numeral) : Option Json :=
  if x.whole && x.scale == 0 && !x.negative then some (.int x.significand)
  else if x.whole && x.scale == 0 &&
      decide (0 < x.significand ∧ x.significand ≤ 0x8000000000000000) then
    some (.int (-x.significand))
  else
    let exponent : Int := if x.exponentNegative then -x.exponent else x.exponent
    (Text.Decimal.read? ⟨x.negative, x.significand, exponent + x.scale⟩).map .real

end Numeral

/-- How far a number has been read. -/
inductive NumeralStage where
  | sign
  | zero
  | integer
  | point
  | fraction
  | exponentMark
  | exponentSign
  | exponent

/-- A number up to here can be a whole number. -/
def NumeralStage.complete : NumeralStage → Bool
  | .zero | .integer | .fraction | .exponent => true
  | _ => false

/-- A string that has been opened: the name of a member or a value. -/
structure OpenString where
  isName : Bool
  /-- What has been read of it, last character first. -/
  done : List Char

/-- What may come next. -/
inductive Mode where
  | value
  /-- Behind an opening bracket. -/
  | firstItem
  /-- Behind a comma in an array. -/
  | item
  /-- Behind an opening brace. -/
  | firstName
  /-- Behind a comma in an object. -/
  | name
  | colon (name : String)
  | literal (rest : List Char) (v : Json)
  | numeral (stage : NumeralStage) (x : Numeral)
  | string (s : OpenString)
  /-- Behind a reverse solidus. -/
  | escape (s : OpenString)
  /-- `left` more bytes of the digits of a code unit, which may be the second of a pair. There is
  no code if one of them was no digit. -/
  | unit (s : OpenString) (high : Option Nat) (left : Nat) (code : Option Nat)
  /-- Behind the first unit of a pair. -/
  | pair (s : OpenString) (high : Nat)
  /-- Behind the reverse solidus between the units of a pair. -/
  | pairEscape (s : OpenString) (high : Nat)
  | after (v : Json)

/-- An array or object that is still open: what is in it so far, last first, and the name of the
member whose value is awaited. -/
inductive Frame where
  | arr (done : List Json)
  | obj (done : List (String × Json)) (name : Option String)

structure Progress where
  mode : Mode
  stack : List Frame

/-- Why reading ended at a character, and how many bytes of it had been read by then. -/
structure Stop where
  fault : SyntaxFault
  bytes : Nat
  deriving DecidableEq

namespace Progress

def stop {α : Type} (fault : SyntaxFault) : Except Stop α := .error ⟨fault, 1⟩

def isBlank (c : Char) : Bool :=
  c = ' ' || c = '\n' || c = '\t' || c = '\r'

/-- Fewer arrays and objects than this many may be open within each other. -/
def depthLimit : Nat := 128

section

/-! Of the members of the outermost object, those with a name in `keeps` are kept. -/
variable (keeps : String → Bool)

/-- The value being read belongs to a member that is not kept. -/
def passesOver (stack : List Frame) : Bool :=
  match stack.getLast? with
  | some (.obj _ (some name)) => !keeps name
  | _ => false

/-- An opening bracket or brace. -/
def opened (stack : List Frame) (mode : Mode) : Except Stop Progress :=
  if decide (stack.length + 1 < depthLimit) || passesOver keeps stack then .ok ⟨mode, stack⟩
  else stop .tooDeep

/-- The first character of a value. -/
def start (stack : List Frame) (c : Char) : Except Stop Progress :=
  if c = '"' then .ok ⟨.string ⟨false, []⟩, stack⟩
  else if c = '[' then opened keeps stack .firstItem
  else if c = '\x7b' then opened keeps stack .firstName
  else if c = '-' then .ok ⟨.numeral .sign (.blank true), stack⟩
  else if c = '0' then .ok ⟨.numeral .zero (.blank false), stack⟩
  else if c.isDigit then
    .ok ⟨.numeral .integer ((Numeral.blank false).integerDigit (c.toNat - '0'.toNat)), stack⟩
  else if c = 't' then .ok ⟨.literal ['r', 'u', 'e'] (.bool true), stack⟩
  else if c = 'f' then .ok ⟨.literal ['a', 'l', 's', 'e'] (.bool false), stack⟩
  else if c = 'n' then .ok ⟨.literal ['u', 'l', 'l'] .null, stack⟩
  else stop .valueExpected

/-- A character behind a complete value. -/
def follow (stack : List Frame) (v : Json) (c : Char) : Except Stop Progress :=
  if isBlank c then .ok ⟨.after v, stack⟩
  else match stack with
    | [] => stop .trailingCharacters
    | .arr done :: stack =>
      if c = ',' then .ok ⟨.item, .arr (v :: done) :: stack⟩
      else if c = ']' then .ok ⟨.after (.arr (v :: done).reverse), stack⟩
      else stop .listCommaExpected
    | .obj done name :: stack =>
      let done := (name.getD "", v) :: done
      if c = ',' then .ok ⟨.name, .obj done none :: stack⟩
      else if c = '\x7d' then .ok ⟨.after (.obj done.reverse), stack⟩
      else stop .objectCommaExpected

/-- The value of a number that is complete. One that is passed over may be too large to have any. -/
def numeralValue (stack : List Frame) (x : Numeral) : Except SyntaxFault Json :=
  match x.value? with
  | some v => .ok v
  | none => if passesOver keeps stack then .ok .null else .error .numberTooLarge

/-- A character that cannot go on with a number ends it. -/
def endNumeral (stack : List Frame) (x : Numeral) (c : Char) : Except Stop Progress :=
  match numeralValue keeps stack x with
  | .ok v => follow stack v c
  | .error fault => .error ⟨fault, 0⟩

def numeral (stack : List Frame) (stage : NumeralStage) (x : Numeral) (c : Char) :
    Except Stop Progress :=
  let d := c.toNat - '0'.toNat
  match stage with
  | .sign =>
    if c = '0' then .ok ⟨.numeral .zero x, stack⟩
    else if c.isDigit then .ok ⟨.numeral .integer (x.integerDigit d), stack⟩
    else stop .badNumber
  | .zero =>
    if c.isDigit then stop .badNumber
    else if c = '.' then .ok ⟨.numeral .point x.point, stack⟩
    else if c = 'e' || c = 'E' then .ok ⟨.numeral .exponentMark x.point, stack⟩
    else endNumeral keeps stack x c
  | .integer =>
    if c.isDigit then .ok ⟨.numeral .integer (x.integerDigit d), stack⟩
    else if c = '.' then .ok ⟨.numeral .point x.point, stack⟩
    else if c = 'e' || c = 'E' then .ok ⟨.numeral .exponentMark x.point, stack⟩
    else endNumeral keeps stack x c
  | .point =>
    if c.isDigit then .ok ⟨.numeral .fraction (x.fractionDigit d), stack⟩
    else stop .badNumber
  | .fraction =>
    if c.isDigit then .ok ⟨.numeral .fraction (x.fractionDigit d), stack⟩
    else if c = 'e' || c = 'E' then .ok ⟨.numeral .exponentMark x, stack⟩
    else endNumeral keeps stack x c
  | .exponentMark =>
    if c = '+' then .ok ⟨.numeral .exponentSign x, stack⟩
    else if c = '-' then .ok ⟨.numeral .exponentSign { x with exponentNegative := true }, stack⟩
    else if c.isDigit then .ok ⟨.numeral .exponent (x.exponentDigit d), stack⟩
    else stop .badNumber
  | .exponentSign =>
    if c.isDigit then .ok ⟨.numeral .exponent (x.exponentDigit d), stack⟩
    else stop .badNumber
  | .exponent =>
    if c.isDigit then
      let x := x.exponentDigit d
      if x.exceeds && !passesOver keeps stack then stop .numberTooLarge
      else .ok ⟨.numeral .exponent x, stack⟩
    else endNumeral keeps stack x c

def closeString (stack : List Frame) (s : OpenString) : Progress :=
  let text := String.ofList s.done.reverse
  ⟨if s.isName then .colon text else .after (.str text), stack⟩

def push (stack : List Frame) (s : OpenString) (c : Char) : Progress :=
  ⟨.string { s with done := c :: s.done }, stack⟩

/-- The character that a letter behind a reverse solidus stands for. -/
def escapeOf? (c : Char) : Option Char :=
  if c = '"' || c = '\\' || c = '/' then some c
  else if c = 'b' then some '\x08'
  else if c = 'f' then some '\x0c'
  else if c = 'n' then some '\n'
  else if c = 'r' then some '\r'
  else if c = 't' then some '\t'
  else none

def hexValue? (c : Char) : Option Nat :=
  if c.isDigit then some (c.toNat - '0'.toNat)
  else if 'a' ≤ c ∧ c ≤ 'f' then some (c.toNat - 'a'.toNat + 10)
  else if 'A' ≤ c ∧ c ≤ 'F' then some (c.toNat - 'A'.toNat + 10)
  else none

/-- A complete code unit: a character, the first of a pair, or the second of one. In a string that
is passed over the units of a pair need not stand together. -/
def closeUnit (stack : List Frame) (s : OpenString) (high : Option Nat) (code : Nat) :
    Except Stop Progress :=
  match high with
  | none =>
    if 0xD800 ≤ code ∧ code < 0xE000 then
      if passesOver keeps stack then .ok ⟨.string s, stack⟩
      else if code < 0xDC00 then .ok ⟨.pair s code, stack⟩
      else stop .loneSurrogate
    else .ok (push stack s (Char.ofNat code))
  | some high =>
    if 0xDC00 ≤ code ∧ code < 0xE000 then
      .ok (push stack s (Char.ofNat (0x10000 + (high - 0xD800) * 0x400 + (code - 0xDC00))))
    else stop .loneSurrogate

/-- One character. -/
def step (p : Progress) (c : Char) : Except Stop Progress :=
  let stack := p.stack
  match p.mode with
  | .value => if isBlank c then .ok p else start keeps stack c
  | .firstItem =>
    if isBlank c then .ok p
    else if c = ']' then .ok ⟨.after (.arr []), stack⟩
    else start keeps (.arr [] :: stack) c
  | .item =>
    if isBlank c then .ok p
    else if c = ']' then stop .trailingComma
    else start keeps stack c
  | .firstName =>
    if isBlank c then .ok p
    else if c = '\x7d' then .ok ⟨.after (.obj []), stack⟩
    else if c = '"' then .ok ⟨.string ⟨true, []⟩, .obj [] none :: stack⟩
    else stop .nameExpected
  | .name =>
    if isBlank c then .ok p
    else if c = '\x7d' then stop .trailingComma
    else if c = '"' then .ok ⟨.string ⟨true, []⟩, stack⟩
    else stop .nameExpected
  | .colon name =>
    if isBlank c then .ok p
    else if c = ':' then
      match stack with
      | .obj done _ :: stack => .ok ⟨.value, .obj done (some name) :: stack⟩
      | _ => stop .colonExpected
    else stop .colonExpected
  | .literal [] v => follow stack v c
  | .literal [d] v => if c = d then .ok ⟨.after v, stack⟩ else stop .identExpected
  | .literal (d :: rest) v => if c = d then .ok ⟨.literal rest v, stack⟩ else stop .identExpected
  | .numeral stage x => numeral keeps stack stage x c
  | .string s =>
    if c = '"' then .ok (closeString stack s)
    else if c = '\\' then .ok ⟨.escape s, stack⟩
    else if c.toNat < 32 then stop .controlCharacter
    else .ok (push stack s c)
  | .escape s =>
    if c = 'u' then .ok ⟨.unit s none 4 (some 0), stack⟩
    else match escapeOf? c with
      | some d => .ok (push stack s d)
      | none => stop .badEscape
  | .unit s high left code =>
    let code := do return 16 * (← code) + (← hexValue? c)
    if c.utf8Size < left then .ok ⟨.unit s high (left - c.utf8Size) code, stack⟩
    else match code with
      | some code => closeUnit keeps stack s high code
      | none => .error ⟨.badEscape, left⟩
  | .pair s high => if c = '\\' then .ok ⟨.pairEscape s high, stack⟩ else stop .halfSurrogate
  | .pairEscape s high =>
    if c = 'u' then .ok ⟨.unit s (some high) 4 (some 0), stack⟩ else stop .halfSurrogate
  | .after v => follow stack v c

/-- A byte that belongs to no character can stand only in a string that is passed over. -/
def malformed (p : Progress) : Except Stop Progress :=
  match p.mode with
  | .string _ => if passesOver keeps p.stack then .ok p else stop .malformedCharacter
  | _ => stop .malformedCharacter

/-- A character, or a byte that belongs to none. -/
def take (p : Progress) : Option Char → Except Stop Progress
  | some c => p.step keeps c
  | none => p.malformed keeps

/-- The end of the text behind a complete value. -/
def finishValue (stack : List Frame) (v : Json) : Except SyntaxFault Json :=
  match stack with
  | [] => .ok v
  | .arr _ :: _ => .error .endInList
  | .obj _ _ :: _ => .error .endInObject

/-- The end of the text. -/
def finish (p : Progress) : Except SyntaxFault Json :=
  match p.mode with
  | .value | .item | .name | .literal _ _ => .error .endInValue
  | .firstItem => .error .endInList
  | .firstName | .colon _ => .error .endInObject
  | .numeral stage x =>
    if stage.complete then do finishValue p.stack (← numeralValue keeps p.stack x)
    else .error .endInValue
  | .string _ | .escape _ | .unit _ _ _ _ | .pair _ _ | .pairEscape _ _ => .error .endInString
  | .after v => finishValue p.stack v

/-- Takes the rest of a text, which begins at a place. -/
def feed (p : Progress) (place : Place) : List (Option Char) → Except SyntaxError Json
  | [] => (p.finish keeps).mapError (⟨·, place⟩)
  | c :: cs =>
    match p.take keeps c with
    | .ok q => q.feed (place.behind c) cs
    | .error e => .error ⟨e.fault, place.within c e.bytes⟩

end

/-- Before the first character. -/
def initial : Progress := ⟨.value, []⟩

end Progress

/-- The value of a text. -/
def read (s : String) : Except SyntaxError Json :=
  Progress.initial.feed (fun _ => true) ⟨1, 0⟩ (s.toList.map some)

/-- The value of a text in UTF-8, an object of which only some members are kept. A string or number
that is passed over need not come out as it stands. -/
def readKept (keeps : String → Bool) (bytes : List UInt8) : Except SyntaxError Json :=
  Progress.initial.feed keeps ⟨1, 0⟩ (Encoding.characters bytes)

end TokenAuthority.Json
