import TokenAuthority.Text.Letters

/-!
# Logging settings
-/

namespace TokenAuthority

inductive LogFormat where
  /-- Lines for people. -/
  | pretty
  /-- One object an event. -/
  | json
  deriving DecidableEq

/-- The format of a name in any case; every unknown name is that of the pretty one. -/
def LogFormat.parse (s : String) : LogFormat :=
  if Text.sameLetters s "json" then .json else .pretty

structure Logging where
  serviceName : String
  level : String
  format : LogFormat
  deriving DecidableEq

namespace Logging

def standard : Logging := ⟨"oidc-token-service", "info", .pretty⟩

/-- The standard settings with the variables `LOG_LEVEL` and `LOG_FORMAT` applied. -/
def ofVariables (lookup : String → Option String) : Logging :=
  { standard with
    level := (lookup "LOG_LEVEL").getD standard.level
    format := (lookup "LOG_FORMAT").elim standard.format LogFormat.parse }

def withServiceName (l : Logging) (name : String) : Logging := { l with serviceName := name }

def withLevel (l : Logging) (level : String) : Logging := { l with level := level }

def withJson (l : Logging) : Logging := { l with format := .json }

end Logging

end TokenAuthority
