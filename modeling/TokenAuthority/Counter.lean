import TokenAuthority.Algorithm

/-!
# Counters

What an authority counts. A counter's text is its name with its labels, in ascending order of the
labels' names.
-/

namespace TokenAuthority

inductive TokenKind where
  | access
  | id
  | refresh
  deriving DecidableEq

inductive CodeEvent where
  | issued
  | redeemed
  | rejected
  /-- Another redemption of the code came first. -/
  | overtaken
  deriving DecidableEq

/-- How an exchange of a refresh token ends. -/
inductive RefreshEnd where
  | success
  | reuseDetected
  | expired
  | error
  | invalid
  deriving DecidableEq

inductive RevocationReason where
  | reuseDetected
  | clientRequest
  deriving DecidableEq

inductive Counter where
  | issued (kind : TokenKind) (algorithm : Algorithm)
  | refreshed (result : RefreshEnd)
  | revoked (reason : RevocationReason)
  | codes (event : CodeEvent)
  | rotations
  | reuses
  deriving DecidableEq

namespace Counter

def all : List Counter :=
  [TokenKind.access, .id, .refresh].flatMap (fun kind => Algorithm.all.map (issued kind))
    ++ [.success, .reuseDetected, .expired, .error, .invalid].map refreshed
    ++ [.reuseDetected, .clientRequest].map revoked
    ++ [.issued, .redeemed, .rejected, .overtaken].map codes ++ [rotations, reuses]

theorem mem_all (c : Counter) : c ∈ all := by
  cases c with
  | issued k a => cases k <;> cases a <;> decide
  | refreshed r => cases r <;> decide
  | revoked r => cases r <;> decide
  | codes e => cases e <;> decide
  | rotations => decide
  | reuses => decide

def name : Counter → String
  | issued _ _ => "token_service_tokens_issued_total"
  | refreshed _ => "token_service_tokens_refreshed_total"
  | revoked _ => "token_service_tokens_revoked_total"
  | codes _ => "token_service_authorization_codes_total"
  | rotations => "token_service_key_rotations_total"
  | reuses => "token_service_security_events_total"

def kindLabel : TokenKind → String
  | .access => "access"
  | .id => "id"
  | .refresh => "refresh"

def endLabel : RefreshEnd → String
  | .success => "success"
  | .reuseDetected => "reuse_detected"
  | .expired => "expired"
  | .error => "error"
  | .invalid => "invalid"

def reasonLabel : RevocationReason → String
  | .reuseDetected => "reuse_detected"
  | .clientRequest => "client_request"

/-- Operation and status. -/
def eventLabels : CodeEvent → String × String
  | .issued => ("issue", "success")
  | .redeemed => ("redeem", "success")
  | .rejected => ("redeem", "rejected")
  | .overtaken => ("redeem", "race_lost")

def labels : Counter → List (String × String)
  | issued kind algorithm => [("algorithm", algorithm.name), ("token_type", kindLabel kind)]
  | refreshed result => [("status", endLabel result)]
  | revoked reason => [("reason", reasonLabel reason)]
  | codes event => [("operation", (eventLabels event).1), ("status", (eventLabels event).2)]
  | rotations => []
  | reuses => [("event_type", "REFRESH_REUSE_DETECTED")]

def text (c : Counter) : String :=
  c.name ++ "\x7b" ++ ",".intercalate (c.labels.map fun (n, v) => n ++ "=" ++ v) ++ "\x7d"

end Counter

/-- The values of the counters. -/
abbrev Meters := Counter → Nat

namespace Meters

def zero : Meters := fun _ => 0

def add (m : Meters) (c : Counter) (n : Nat) : Meters := fun d => if d = c then m d + n else m d

end Meters

end TokenAuthority
