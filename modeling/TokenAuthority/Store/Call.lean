import TokenAuthority.Store.Basic

/-!
# Calls of a store

The calls that operations make of a store, as data, with the type of each one's result. A healthy
store performs a call in one step (`Store.perform`).
-/

namespace TokenAuthority

inductive StoreCall where
  | getClient (clientId : String)
  | getUser (id : String)
  | getUserByEmail (email : String)
  | createCode (c : AuthorizationCode)
  | getCode (code : String)
  | markCodeUsed (code : String)
  | createRecord (r : TokenRecord)
  | getRecord (refreshId : String)
  | markRotated (refreshId : String)
  | revokeRecord (id : String)
  | revokeByRefreshId (refreshId : String)
  | revokeChain (refreshId : String)

namespace StoreCall

/-- What a call gives if it succeeds. -/
abbrev Result : StoreCall → Type
  | getClient _ => Option Client
  | getUser _ | getUserByEmail _ => Option User
  | createCode _ | createRecord _ => Unit
  | getCode _ => Option AuthorizationCode
  | getRecord _ => Option TokenRecord
  | markCodeUsed _ | markRotated _ | revokeRecord _ | revokeByRefreshId _ => Bool
  | revokeChain _ => Nat

/-- The result of a call that finds nothing and does nothing. -/
def nothing : (c : StoreCall) → c.Result
  | getClient _ => none
  | getUser _ => none
  | getUserByEmail _ => none
  | createCode _ => ()
  | createRecord _ => ()
  | getCode _ => none
  | getRecord _ => none
  | markCodeUsed _ => false
  | markRotated _ => false
  | revokeRecord _ => false
  | revokeByRefreshId _ => false
  | revokeChain _ => (0 : Nat)

/-- The name of a call without its arguments. -/
inductive Method where
  | getClient
  | getUser
  | getUserByEmail
  | createCode
  | getCode
  | markCodeUsed
  | createRecord
  | getRecord
  | markRotated
  | revokeRecord
  | revokeByRefreshId
  | revokeChain
  deriving DecidableEq

def method : StoreCall → Method
  | getClient _ => .getClient
  | getUser _ => .getUser
  | getUserByEmail _ => .getUserByEmail
  | createCode _ => .createCode
  | getCode _ => .getCode
  | markCodeUsed _ => .markCodeUsed
  | createRecord _ => .createRecord
  | getRecord _ => .getRecord
  | markRotated _ => .markRotated
  | revokeRecord _ => .revokeRecord
  | revokeByRefreshId _ => .revokeByRefreshId
  | revokeChain _ => .revokeChain

end StoreCall

/-- Performs a call. -/
def Store.perform (s : Store) : (c : StoreCall) → Except StoreError c.Result × Store
  | .getClient clientId => (.ok (s.client? clientId), s)
  | .getUser userId => (.ok (s.user? userId), s)
  | .getUserByEmail email => (.ok (s.userByEmail? email), s)
  | .createCode c => s.createCode c
  | .getCode code => (.ok (s.code? code), s)
  | .markCodeUsed code => (s.markCodeUsed code).map .ok id
  | .createRecord r => s.createRecord r
  | .getRecord refreshId => (.ok (s.record? refreshId), s)
  | .markRotated refreshId => (s.markRotated refreshId).map .ok id
  | .revokeRecord recordId => (s.revokeRecord recordId).map .ok id
  | .revokeByRefreshId refreshId => (s.revokeByRefreshId refreshId).map .ok id
  | .revokeChain refreshId => (s.revokeChain refreshId).map .ok id

end TokenAuthority
