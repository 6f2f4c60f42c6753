import TokenAuthority.Json.Value

/-!
# Reading records out of JSON values

A record is read field by field, from the members of an object or from the items of an array.

In an object the names count. A member that no field is named for is passed over. Every field that
is there is looked at, and one that does not have its type outweighs one that is not there at all:
`Found` carries the fault of either kind that comes first. A field that stands twice is ill-typed.

In an array the order counts: it has one item for each field and no other, except that fields with
a value of their own may be missing at its end.
-/

namespace TokenAuthority

/-- Why a value is no wire form of a type. -/
inductive DecodeError where
  | illTyped
  | missing (field : String)
  deriving DecidableEq

def DecodeError.message : DecodeError → String
  | .illTyped => "invalid"
  | .missing field => "missing field `" ++ field ++ "`"

/-- What some fields of a record hold. -/
inductive Found (α : Type) where
  | value (a : α)
  | illTyped (e : DecodeError)
  | missing (field : String)

namespace Found

/-- Joins what was found; of two faults the first of the graver kind stays. -/
def seq {α β : Type} : Found (α → β) → Found α → Found β
  | .illTyped e, _ => .illTyped e
  | _, .illTyped e => .illTyped e
  | .missing n, _ => .missing n
  | _, .missing n => .missing n
  | .value g, .value a => .value (g a)

def ofResult {α : Type} : Except DecodeError α → Found α
  | .ok a => .value a
  | .error e => .illTyped e

def result {α : Type} : Found α → Except DecodeError α
  | .value a => .ok a
  | .illTyped e => .error e
  | .missing n => .error (.missing n)

end Found

/-- What a record is read from: all members of an object, or the items of an array that no field
has taken yet. -/
inductive Source where
  | members (ms : List (String × Json))
  | items (vs : List Json)

/-- How some fields are read, in their order. -/
def Fields (α : Type) := Source → Found α × Source

instance : Applicative Fields where
  pure a := fun s => (.value a, s)
  seq f x := fun s =>
    let (g, s) := f s
    let (a, s) := x () s
    (g.seq a, s)

namespace Json

/-- How a value of a type is read. -/
abbrev Reading (α : Type) := Json → Except DecodeError α

def readText : Reading String
  | .str s => .ok s
  | _ => .error .illTyped

def readBool : Reading Bool
  | .bool b => .ok b
  | _ => .error .illTyped

def readInt64 : Reading Int64
  | .int n =>
    if -0x8000000000000000 ≤ n ∧ n < 0x8000000000000000 then .ok (Int64.ofInt n)
    else .error .illTyped
  | _ => .error .illTyped

def readWord : Reading UInt64
  | .int n =>
    if 0 ≤ n ∧ n < 0x10000000000000000 then .ok (UInt64.ofNat n.toNat)
    else .error .illTyped
  | _ => .error .illTyped

def readList {α : Type} (item : Reading α) : Reading (List α)
  | .arr items => items.mapM item
  | _ => .error .illTyped

/-- A value or null. -/
def readNullable {α : Type} (item : Reading α) : Reading (Option α)
  | .null => .ok none
  | v => some <$> item v

/-- One of some names: its text, or an object whose only member has that name and holds null. -/
def readName {α : Type} (parse : String → Option α) : Reading α
  | .str s | .obj [(s, .null)] => (parse s).elim (.error .illTyped) .ok
  | _ => .error .illTyped

/-- A record that can only be an object. -/
def readObject {α : Type} (fields : Fields α) : Reading α
  | .obj ms => (fields (.members ms)).1.result
  | _ => .error .illTyped

/-- A record, as an object or as an array. -/
def readRecord {α : Type} (fields : Fields α) : Reading α
  | .arr vs =>
    match fields (.items vs) with
    | (found, .items []) => found.result
    | (found, _) => found.result.bind fun _ => .error .illTyped
  | v => readObject fields v

/-- The values of the members of a name. -/
def members (name : String) (ms : List (String × Json)) : List Json :=
  (ms.filter (·.1 == name)).map (·.2)

/-- A field, with what stands for it where an object has no such member, and where an array has no
more items. -/
def field {α : Type} (absent ended : Found α) (name : String) (item : Reading α) : Fields α
  | .members ms =>
    match members name ms with
    | [] => (absent, .members ms)
    | [v] => (.ofResult (item v), .members ms)
    | _ => (.illTyped .illTyped, .members ms)
  | .items [] => (ended, .items [])
  | .items (v :: vs) => (.ofResult (item v), .items vs)

/-- A field that has to be there. -/
def required {α : Type} (name : String) (item : Reading α) : Fields α :=
  field (.missing name) (.illTyped .illTyped) name item

/-- A field that may be null, or missing in an object. -/
def optional {α : Type} (name : String) (item : Reading α) : Fields (Option α) :=
  field (.value none) (.illTyped .illTyped) name (readNullable item)

/-- A field that may be missing, but not null. -/
def defaulted {α : Type} (a : α) (name : String) (item : Reading α) : Fields α :=
  field (.value a) (.value a) name item

end Json

end TokenAuthority
