import TokenAuthority.Algorithm
import TokenAuthority.Logging
import TokenAuthority.Text.Decimal

/-!
# Settings

The settings of an authority are read from named variables. A variable that is not set stands for
its standard value, and one that cannot be read is an error; so are lifetimes of zero, which no
token could be used within.
-/

namespace TokenAuthority

/-- What an authority is set up with. Lifetimes and periods are in seconds. -/
structure Settings where
  issuer : String
  algorithm : Algorithm
  accessLifetime : UInt64
  idLifetime : UInt64
  refreshLifetime : UInt64
  codeLifetime : UInt64
  /-- After which the active signing key is replaced. -/
  rotationPeriod : UInt64
  /-- How long a replaced key stays published; none for ever. -/
  retention : Option UInt64
  /-- Whether a code challenge may be the verifier itself. -/
  allowPlain : Bool
  /-- Whether challenges and verifiers need the length and the characters of the standard. -/
  strictFormat : Bool
  logging : Logging
  deriving DecidableEq

namespace Settings

def standard : Settings where
  issuer := "http://localhost:8080"
  algorithm := .rs256
  accessLifetime := 600
  idLifetime := 600
  refreshLifetime := 86400
  codeLifetime := 300
  rotationPeriod := 900
  retention := none
  allowPlain := true
  strictFormat := false
  logging := Logging.standard

/-- The number in a variable. -/
def readWord (name value : String) : Except TokenError UInt64 :=
  match Text.readWord value with
  | .ok n => .ok n
  | .error fault => .error (.settings ("Invalid " ++ name ++ ": " ++ fault.message))

def wordVariable (lookup : String → Option String) (name : String) (standard : UInt64) :
    Except TokenError UInt64 :=
  (lookup name).elim (.ok standard) (readWord name)

def flagVariable (lookup : String → Option String) (name : String) (standard : Bool) :
    Except TokenError Bool :=
  match lookup name with
  | none => .ok standard
  | some "true" => .ok true
  | some "false" => .ok false
  | some _ =>
    .error (.settings ("Invalid " ++ name ++ ": provided string was not `true` or `false`"))

/-- Refuses lifetimes of zero. -/
def checked (s : Settings) : Except TokenError Settings :=
  if s.accessLifetime = 0 ∨ s.refreshLifetime = 0 then
    .error (.settings "token TTLs must be positive")
  else if s.codeLifetime = 0 then .error (.settings "AUTH_CODE_TTL must be positive")
  else if s.rotationPeriod = 0 then .error (.settings "KEY_ROTATION_PERIOD must be positive")
  else .ok s

/-- The settings that variables give, before they are checked. -/
def read (lookup : String → Option String) : Except TokenError Settings := do
  let issuer := (lookup "JWT_ISSUER").getD standard.issuer
  let algorithm ← (lookup "JWT_ALGORITHM").elim (.ok standard.algorithm) Algorithm.parse
  let accessLifetime ← wordVariable lookup "ACCESS_TOKEN_TTL" standard.accessLifetime
  let idLifetime ← wordVariable lookup "ID_TOKEN_TTL" accessLifetime
  let refreshLifetime ← wordVariable lookup "REFRESH_TOKEN_TTL" standard.refreshLifetime
  let codeLifetime ← wordVariable lookup "AUTH_CODE_TTL" standard.codeLifetime
  let rotationPeriod ← wordVariable lookup "KEY_ROTATION_PERIOD" standard.rotationPeriod
  let retention ← (lookup "KEY_RETIRED_RETENTION").mapM (readWord "KEY_RETIRED_RETENTION")
  let allowPlain ← flagVariable lookup "PKCE_ALLOW_PLAIN" standard.allowPlain
  let strictFormat ← flagVariable lookup "PKCE_STRICT_FORMAT" standard.strictFormat
  return {
    issuer, algorithm, accessLifetime, idLifetime, refreshLifetime, codeLifetime, rotationPeriod,
    retention, allowPlain, strictFormat, logging := Logging.ofVariables lookup }

/-- The settings that variables give. -/
def ofVariables (lookup : String → Option String) : Except TokenError Settings := do
  checked (← read lookup)

end Settings

end TokenAuthority
