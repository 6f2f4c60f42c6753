import TokenAuthority.AuthorizationCode
import TokenAuthority.Registry
import TokenAuthority.TokenRecord

/-!
# The store

What an authority keeps: clients, users, codes and token records, each under a key of its own: the
client identifier, the user identifier, the code and the refresh identifier. Every operation here
is one step; those that change a flag tell whether it was they that changed it.
-/

namespace TokenAuthority

open Time (Instant)

structure Store where
  clients : List Client
  users : List User
  codes : List AuthorizationCode
  records : List TokenRecord
  deriving DecidableEq, Inhabited

namespace Store

def empty : Store := ⟨[], [], [], []⟩

/-- The list with its first element of a kind changed. -/
def updateFirst {α : Type} (p : α → Bool) (f : α → α) : List α → List α
  | [] => []
  | a :: as => if p a then f a :: as else a :: updateFirst p f as

/-- Registers a client, in the place of the one that has its identifier. -/
def putClient (s : Store) (c : Client) : Store :=
  { s with clients := s.clients.filter (·.clientId != c.clientId) ++ [c] }

def putUser (s : Store) (u : User) : Store :=
  { s with users := s.users.filter (·.id != u.id) ++ [u] }

/-- Removes a client and tells whether there was one. -/
def removeClient (s : Store) (clientId : String) : Bool × Store :=
  (s.clients.any (·.clientId == clientId),
    { s with clients := s.clients.filter (·.clientId != clientId) })

def client? (s : Store) (clientId : String) : Option Client :=
  s.clients.find? (·.clientId == clientId)

def user? (s : Store) (id : String) : Option User := s.users.find? (·.id == id)

/-- The user of an address; the case of ASCII letters makes no difference. -/
def userByEmail? (s : Store) (email : String) : Option User :=
  s.users.find? (Text.sameLetters ·.email email)

def code? (s : Store) (code : String) : Option AuthorizationCode :=
  s.codes.find? (·.code == code)

def record? (s : Store) (refreshId : String) : Option TokenRecord :=
  s.records.find? (·.refreshId == refreshId)

def createCode (s : Store) (c : AuthorizationCode) : Except StoreError Unit × Store :=
  match s.code? c.code with
  | some _ => (.error (.duplicate "authorization code"), s)
  | none => (.ok (), { s with codes := s.codes ++ [c] })

/-- Marks a code as used, if there is such a code and it is not yet. -/
def markCodeUsed (s : Store) (code : String) : Bool × Store :=
  match s.code? code with
  | none => (false, s)
  | some c =>
    if c.used then (false, s)
    else
      (true, { s with codes := updateFirst (·.code == code) ({ · with used := true }) s.codes })

def createRecord (s : Store) (r : TokenRecord) : Except StoreError Unit × Store :=
  match s.record? r.refreshId with
  | some _ => (.error (.duplicate "refresh identifier"), s)
  | none => (.ok (), { s with records := s.records ++ [r] })

/-- Marks the refresh token of a live record as exchanged. -/
def markRotated (s : Store) (refreshId : String) : Bool × Store :=
  match s.record? refreshId with
  | none => (false, s)
  | some r =>
    if r.live then
      (true, { s with
        records := updateFirst (·.refreshId == refreshId) ({ · with rotated := true }) s.records })
    else (false, s)

/-- Revokes the first record of a kind. -/
def revokeFirst (s : Store) (p : TokenRecord → Bool) : Bool × Store :=
  match s.records.find? p with
  | none => (false, s)
  | some r =>
    if r.revoked then (false, s)
    else (true, { s with records := updateFirst p ({ · with revoked := true }) s.records })

def revokeRecord (s : Store) (id : String) : Bool × Store := s.revokeFirst (·.id == id)

def revokeByRefreshId (s : Store) (refreshId : String) : Bool × Store :=
  s.revokeFirst (·.refreshId == refreshId)

/-- Whether the parent of a record is among some. -/
def childOf (parents : List String) (r : TokenRecord) : Bool := r.parent.any parents.contains

def children (parents : List String) (rest : List TokenRecord) : List TokenRecord :=
  rest.filter (childOf parents)

def others (parents : List String) (rest : List TokenRecord) : List TokenRecord :=
  rest.filter fun r => !childOf parents r

theorem length_others_lt {parents : List String} {rest : List TokenRecord}
    (h : children parents rest ≠ []) : (others parents rest).length < rest.length := by
  obtain ⟨r, hr⟩ := List.exists_mem_of_ne_nil _ h
  obtain ⟨hm, hc⟩ := List.mem_filter.1 hr
  exact List.length_filter_lt_length_iff_exists.2 ⟨r, hm, by simp [hc]⟩

/-- The refresh identifiers of the descendants of some records among others. -/
def descendants (parents : List String) (rest : List TokenRecord) : List String :=
  if h : children parents rest = [] then []
  else
    have := length_others_lt h
    let ids := (children parents rest).map (·.refreshId)
    ids ++ descendants ids (others parents rest)
termination_by rest.length

/-- The refresh identifiers that a revocation reaches: one and its descendants. -/
def chain (s : Store) (refreshId : String) : List String :=
  refreshId :: descendants [refreshId] s.records

/-- Revokes a record and its descendants, and gives the number of those that were not revoked. -/
def revokeChain (s : Store) (refreshId : String) : Nat × Store :=
  let ids := s.chain refreshId
  (s.records.countP fun r => ids.contains r.refreshId && !r.revoked,
    { s with records := s.records.map fun r =>
        if ids.contains r.refreshId then { r with revoked := true } else r })

/-- The records of a client, oldest first. -/
def recordsOf (s : Store) (clientId : String) : List TokenRecord :=
  (s.records.filter (·.clientId == clientId)).mergeSort
    fun a b => decide (a.createdAt ≤ b.createdAt)

end Store

end TokenAuthority
