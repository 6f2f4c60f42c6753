import TokenAuthority.Text.Shortest

/-!
# JSON values

The values that requests, tokens and documents are written in. An object is the list of its
members in the order in which they stand, repeated names included, so that a reader of a record
can refuse a repetition. `Json.sorted` is the same value with the names of every object in
ascending order and the last member of each name only.
-/

namespace TokenAuthority

inductive Json where
  | null
  | bool (b : Bool)
  /-- A number written as an integer of at most 64 bits. -/
  | int (n : Int)
  /-- Any other number. -/
  | real (x : Text.Decimal)
  | str (s : String)
  | arr (items : List Json)
  | obj (members : List (String × Json))
  deriving Inhabited

namespace Json

/-- Puts a member in its place among members with ascending names, instead of the one that has its
name. -/
def insertMember (name : String) (v : Json) : List (String × Json) → List (String × Json)
  | [] => [(name, v)]
  | (n, w) :: ms =>
    if name < n then (name, v) :: (n, w) :: ms
    else if name = n then (name, v) :: ms
    else (n, w) :: insertMember name v ms

mutual

def sorted : Json → Json
  | .arr items => .arr (sortedItems items)
  | .obj members => .obj (sortedMembers [] members)
  | v => v

def sortedItems : List Json → List Json
  | [] => []
  | v :: vs => sorted v :: sortedItems vs

/-- Puts members, in turn, among those in front of them. -/
def sortedMembers (done : List (String × Json)) : List (String × Json) → List (String × Json)
  | [] => done
  | (name, v) :: ms => sortedMembers (insertMember name (sorted v) done) ms

end

/-- A text, or null if there is none. -/
def text? (s : Option String) : Json := s.elim .null .str

/-- The member of a name, as a list: empty if there is none. -/
def present (name : String) (v : Option Json) : List (String × Json) :=
  v.toList.map (name, ·)

end Json

end TokenAuthority
