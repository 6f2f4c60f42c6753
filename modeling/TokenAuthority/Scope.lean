import TokenAuthority.Json.Fields
import TokenAuthority.Text.Blank

/-!
# Scopes

A scope set is a list of scope words in the order in which they were first asked for. `parse` reads
the words of a text and `display` joins them by one space.
-/

namespace TokenAuthority

structure ScopeSet where
  scopes : List String
  deriving DecidableEq, Inhabited

namespace ScopeSet

/-- The non-empty items, each at its first occurrence. -/
def ofList (items : List String) : ScopeSet :=
  ⟨(items.filter (· ≠ "")).eraseDups⟩

def parse (raw : String) : ScopeSet := ofList (Text.words raw)

def contains (s : ScopeSet) (scope : String) : Bool := s.scopes.contains scope

def isSubsetOf (s : ScopeSet) (allowed : List String) : Bool :=
  s.scopes.all allowed.contains

def isEmpty (s : ScopeSet) : Bool := s.scopes.isEmpty

def display (s : ScopeSet) : String := " ".intercalate s.scopes

def toJson (s : ScopeSet) : Json := .arr (s.scopes.map .str)

def ofJson : Json.Reading ScopeSet := fun v =>
  ScopeSet.mk <$> Json.readList Json.readText v

end ScopeSet

end TokenAuthority
