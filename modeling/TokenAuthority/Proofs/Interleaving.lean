import TokenAuthority.DigestKeys
import TokenAuthority.Endpoint.Basic
import TokenAuthority.Proofs.World
import TokenAuthority.Sample

/-!
# Interleaved requests

A system is a world with requests that run in it, in whatever order the moves of a run say: a
request is started, one that is in flight makes its next call, or the operator changes a
registration. A request keeps its place in the list of requests for ever, with the calls that it
has made and the answers to them, so that what happened before can be told from a state alone.
-/

namespace TokenAuthority

open Time (Duration Instant Timestamp)

/-- What can be asked of an authority. -/
inductive Request where
  | issue (r : IssueRequest) (p : TokenPolicy) (now : Instant)
  | refresh (r : Rotation.Request) (p : TokenPolicy) (now : Instant)
  | revoke (refreshToken : String)
  | issueCode (r : CodeRequest) (p : CodePolicy) (now : Instant)
  | redeem (r : Codes.Redemption) (p : CodePolicy) (now : Instant)
  | exchange (e : Endpoint) (r : TokenRequest)
  | token (e : Endpoint) (r : TokenRequest)
  | userinfo (accessToken : String)
  | publicKeys
  | signAccess (claims : Claims) (lifetime : Duration)
  | signId (claims : Claims) (lifetime : Duration) (accessToken : Option String)
  | verifyAccess (accessToken : String)
  | verifyId (idToken : String)
  | installKey (now : Timestamp)
  | rotateIfDue (now : Timestamp)

namespace Request

abbrev Result : Request → Type
  | issue _ _ _ | refresh _ _ _ => TokenSet
  | revoke _ => Unit
  | issueCode _ _ _ | signAccess _ _ | signId _ _ _ | installKey _ => String
  | redeem _ _ _ => AuthorizationCode
  | exchange _ _ => TokenResponse
  | token _ _ => Except ErrorBody TokenResponse
  | userinfo _ => UserInfo
  | publicKeys => KeySet
  | verifyAccess _ => Claims
  | verifyId _ => IdClaims
  | rotateIfDue _ => Bool

def operation : (r : Request) → Operation r.Result
  | issue r p now => Issuance.issue r p now
  | refresh r p now => Rotation.refresh r p now
  | revoke refreshToken => Endpoint.revoke refreshToken
  | issueCode r p now => Codes.issue p r now
  | redeem r p now => Codes.redeem p r now
  | exchange e r => e.exchange r
  | token e r => e.token r
  | userinfo accessToken => Endpoint.userinfo accessToken
  | publicKeys => Endpoint.publicKeys
  | signAccess claims lifetime => Signing.signAccess claims lifetime
  | signId claims lifetime accessToken => Signing.signId claims lifetime accessToken
  | verifyAccess accessToken => Signing.verify .access accessToken
  | verifyId idToken => Signing.verify .idToken idToken
  | installKey now => Signing.installKey now
  | rotateIfDue now => Signing.rotateIfDue now

/-- Whether a request has got what it asked for. The answer to a token request may be the body of
an error. -/
def succeeds : (r : Request) → Outcome r.Result → Bool
  | token _ _, .ok answer => answer.isOk
  | _, .ok _ => true
  | _, _ => false

/-- Whether a request ends with an error. -/
def Fails (e : TokenError) : (r : Request) → Outcome r.Result → Prop
  | token _ r, o => o = .ok (.error (.ofError e r.state))
  | _, o => o = .error e

theorem succeeds_error (r : Request) (e : TokenError) : r.succeeds (.error e) = false := by
  cases r <;> rfl

theorem eq_of_fails_error {r : Request} {e e' : TokenError} (h : r.Fails e (.error e')) :
    e' = e := by
  cases r with
  | token => exact absurd (show Outcome.error e' = .ok _ from h) nofun
  | _ => exact Outcome.error.inj h

theorem not_fails_of_succeeds {e : TokenError} {r : Request} {o : Outcome r.Result}
    (hs : r.succeeds o) : ¬ r.Fails e o := by
  intro hf
  cases r with
  | token e' r =>
    obtain rfl : o = .ok (.error (.ofError e r.state)) := hf
    exact Bool.false_ne_true hs
  | _ =>
    obtain rfl : o = .error e := hf
    exact Bool.false_ne_true hs

/-- The outcome of a request tells that of an operation behind it. -/
structure Reports {α : Type} (r : Request) (o : Outcome r.Result) (o' : Outcome α) : Prop where
  succeeds : r.succeeds o ↔ ∃ a, o' = .ok a
  fails : ∀ {e}, o' = .error e → r.Fails e o
  error : ∀ {e}, o = .error e → o' = .error e

theorem reports_refresh {r : Rotation.Request} {p : TokenPolicy} {now : Instant}
    (o : Outcome TokenSet) : (refresh r p now).Reports o o :=
  ⟨by cases o <;> simp [Request.succeeds], id, id⟩

theorem reports_redeem {r : Codes.Redemption} {p : CodePolicy} {now : Instant}
    (o : Outcome AuthorizationCode) : (redeem r p now).Reports o o :=
  ⟨by cases o <;> simp [Request.succeeds], id, id⟩

theorem reports_exchange {e : Endpoint} {r : TokenRequest} (o : Outcome TokenResponse) :
    (exchange e r).Reports o o :=
  ⟨by cases o <;> simp [Request.succeeds], id, id⟩

end Request

/-- A call that was made, with its answer. -/
abbrev Event : Type := (c : Call) × c.Answer

structure Thread where
  request : Request
  /-- The calls it has made, first call first. -/
  past : List Event
  /-- What it has still to do. -/
  rest : Operation request.Result

namespace Thread

def start (r : Request) : Thread := ⟨r, [], r.operation⟩

/-- Makes the next call of a request, if it has not ended. -/
def step (reply : Reply) (w : World) : Thread → Thread × World
  | ⟨r, past, .done o⟩ => (⟨r, past, .done o⟩, w)
  | ⟨r, past, .call c next⟩ =>
    (⟨r, past ++ [⟨c, (w.perform reply c).1⟩], next (w.perform reply c).1⟩, (w.perform reply c).2)

def inFlight (t : Thread) : Bool :=
  match t.rest with
  | .done _ => false
  | .call _ _ => true

/-- Whether a request has ended with what it asked for. -/
def succeeded (t : Thread) : Bool :=
  match t.rest with
  | .done o => t.request.succeeds o
  | .call _ _ => false

/-- The error that a request has ended with. -/
def error? (t : Thread) : Option TokenError :=
  match t.rest with
  | .done (.error e) => some e
  | _ => none

theorem done_of_error? {t : Thread} {e : TokenError} (h : t.error? = some e) :
    t.rest = .done (.error e) := by
  unfold error? at h
  rcases ht : t.rest with (_ | e' | _) | ⟨c, next⟩ <;> simp_all

theorem exists_done {t : Thread} (h : t.inFlight = false) : ∃ o, t.rest = .done o := by
  unfold inFlight at h
  rcases ht : t.rest with o | ⟨c, next⟩
  · exact ⟨o, rfl⟩
  · simp [ht] at h

theorem step_of_done {t : Thread} (h : t.inFlight = false) (reply : Reply) (w : World) :
    t.step reply w = (t, w) := by
  obtain ⟨r, past, o | ⟨c, next⟩⟩ := t
  · rfl
  · cases h

theorem exists_done_of_succeeded {t : Thread} (h : t.succeeded) :
    ∃ o, t.rest = .done o ∧ t.request.succeeds o := by
  unfold succeeded at h
  rcases ht : t.rest with o | ⟨c, next⟩
  · exact ⟨o, rfl, by simpa [ht] using h⟩
  · simp [ht] at h

end Thread

inductive Move where
  | start (r : Request)
  /-- A request makes its next call. -/
  | step (i : Nat) (reply : Reply)
  | putClient (c : Client)
  | removeClient (clientId : String)
  | putUser (u : User)

/-- Whether the store works in a move. -/
def Move.healthy : Move → Bool
  | step _ reply => reply.healthy
  | _ => true

structure System where
  world : World
  threads : List Thread

namespace System

def start (w : World) : System := ⟨w, []⟩

def register (f : Store → Store) (s : System) : System :=
  { s with world := { s.world with store := f s.world.store } }

def move (s : System) : Move → System
  | .start r => { s with threads := s.threads ++ [.start r] }
  | .step i reply =>
    match s.threads[i]? with
    | none => s
    | some t => ⟨(t.step reply s.world).2, s.threads.set i (t.step reply s.world).1⟩
  | .putClient c => s.register (·.putClient c)
  | .removeClient clientId => s.register fun store => (store.removeClient clientId).2
  | .putUser u => s.register (·.putUser u)

def run (s : System) (moves : List Move) : System := moves.foldl move s

@[simp]
theorem run_nil (s : System) : s.run [] = s := rfl

/-- A request that is started comes last and changes nothing else. -/
theorem run_start (s : System) (r : Request) :
    (s.run [.start r]).world = s.world ∧
      (s.run [.start r]).threads[s.threads.length]? = some (.start r) :=
  ⟨rfl, List.getElem?_concat_length⟩

/-- A request that has ended stays as it is. -/
theorem getElem?_move {s : System} {i : Nat} {t : Thread} (hi : s.threads[i]? = some t)
    (ht : t.inFlight = false) (m : Move) : (s.move m).threads[i]? = some t := by
  have hlt : i < s.threads.length := (List.getElem?_eq_some_iff.1 hi).1
  unfold move
  split
  · exact (List.getElem?_append_left hlt).trans hi
  · rename_i j reply
    split
    · exact hi
    · rename_i u hj
      by_cases hij : j = i
      · subst hij
        obtain rfl : t = u := Option.some.inj (hi.symm.trans hj)
        rw [Thread.step_of_done ht]
        exact List.getElem?_set_self hlt
      · exact (List.getElem?_set_ne hij).trans hi
  all_goals exact hi

theorem getElem?_run : ∀ (moves : List Move) {s : System} {i : Nat} {t : Thread},
    s.threads[i]? = some t → t.inFlight = false → (s.run moves).threads[i]? = some t
  | [], _, _, _, hi, _ => hi
  | m :: moves, _, _, _, hi, ht => getElem?_run moves (getElem?_move hi ht m) ht

end System

namespace Sample

def pair (byte : UInt8) : KeyPair := DigestKeys.pair .es256 (Vector.replicate 32 byte)

def key : SigningKey := ⟨"k1", .es256, ⟨0⟩, pair 0⟩

def policy : TokenPolicy :=
  ⟨"https://issuer.example.com", .ofSeconds 600, .ofSeconds 600, .ofSeconds 86400⟩

/-- A world with one client, one active key and nothing issued. -/
def world : World :=
  ⟨⟨[publicApp], [alice], [], []⟩, ⟨.es256, 900, none, some key, [], some ⟨0⟩⟩, .zero⟩

/-- What a source puts into a call that gives one byte over and over. -/
def reply (byte : UInt8) : Reply :=
  ⟨⟨0⟩, fun n => Vector.replicate n byte, pair byte, none, none⟩

def steps (i : Nat) (byte : UInt8) (n : Nat) : List Move := List.replicate n (.step i (reply byte))

/-- The refresh token of such a source. -/
def refreshToken (byte : UInt8) : String := secretText (Vector.replicate 32 byte)

def refreshId (byte : UInt8) : String := refreshIdOf (refreshToken byte)

def issuance : Request := .issue ⟨some "u1", "c1", "openid", [], none⟩ policy ⟨0, 0⟩

def exchange (byte : UInt8) : Request :=
  .refresh ⟨refreshId byte, none, []⟩ policy ⟨0, 0⟩

/-- Tokens are issued, and two requests exchange the refresh token at the same time. -/
def race : List Move :=
  .start issuance :: steps 0 1 20 ++ [.start (exchange 1), .start (exchange 1)] ++ steps 1 2 1
    ++ steps 2 3 20 ++ steps 1 2 20

def raced : System := (System.start world).run race

/-- Tokens are issued and their refresh token exchanged. -/
def exchanged : System :=
  (System.start world).run
    (.start issuance :: steps 0 1 20 ++ .start (exchange 1) :: steps 1 2 20)

/-- After that, someone asks to revoke the token that was exchanged. -/
def withdrawn : System := exchanged.run (.start (.revoke (refreshToken 1)) :: steps 2 3 5)

def codePolicy : CodePolicy := ⟨.ofSeconds 600, false, true⟩

def code (byte : UInt8) : String := secretText (Vector.replicate 32 byte)

def consent : Request :=
  .issueCode ⟨"c1", "https://a/cb", "openid", some challenge, some "S256", "u1", none⟩ codePolicy
    ⟨0, 0⟩

def grant (byte : UInt8) : Request :=
  .exchange ⟨codePolicy, policy, .ofIssuer policy.issuer .es256 false⟩
    ⟨"authorization_code", some (code byte), some "https://a/cb", some "c1", some verifier, none,
      none⟩

/-- A code is issued, and two requests redeem it at the same time. A third one follows. -/
def redeemed : System :=
  (System.start world).run
    (.start consent :: steps 0 1 20 ++ [.start (grant 1), .start (grant 1)] ++ steps 1 2 4
      ++ steps 2 3 20 ++ steps 1 2 20 ++ .start (grant 1) :: steps 3 4 20)

end Sample

end TokenAuthority
