import TokenAuthority.Error
import TokenAuthority.Text.Letters

/-!
# Signing algorithms

The algorithms that keys are made for. They are named without regard to case where they are
configured, and in capitals in a token's header.
-/

namespace TokenAuthority

inductive Algorithm where
  /-- RSA with SHA-256. -/
  | rs256
  /-- RSA-PSS with SHA-256. -/
  | ps256
  /-- ECDSA on P-256 with SHA-256. -/
  | es256
  deriving DecidableEq, Inhabited

namespace Algorithm

def name : Algorithm → String
  | .rs256 => "RS256"
  | .ps256 => "PS256"
  | .es256 => "ES256"

/-- The family of keys an algorithm signs with. -/
def keyType : Algorithm → String
  | .rs256 | .ps256 => "RSA"
  | .es256 => "EC"

def all : List Algorithm := [.rs256, .ps256, .es256]

/-- The algorithm of a name in any case. -/
def parse (s : String) : Except TokenError Algorithm :=
  match all.find? (·.name == Text.upperAscii s) with
  | some a => .ok a
  | none => .error (.settings ("Invalid JWT algorithm: " ++ s))

end Algorithm

end TokenAuthority
