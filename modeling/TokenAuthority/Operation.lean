import TokenAuthority.Counter
import TokenAuthority.KeyRing
import TokenAuthority.Store.Call

/-!
# Operations as sequences of calls

An operation is a sequence of calls that it makes of its surroundings, each chosen by the answers
to those before it, and ends with a result or an error. Each call is one indivisible step, so that
operations that run at the same time are interleavings of their calls. `Operation.run` performs all
calls of one operation in turn.
-/

namespace TokenAuthority

open Time (Duration Instant Timestamp)

/-- What an operation asks of its surroundings. -/
inductive Call where
  | store (c : StoreCall)
  | clock
  | random (n : Nat)
  /-- A new signing key. -/
  | generateKey (algorithm : Algorithm) (createdAt : Timestamp)
  /-- The present state of the key ring. -/
  | ring
  /-- Puts in a first key and gives the identifier of the active one. -/
  | installKey (key : SigningKey) (now : Timestamp)
  /-- Puts in a key if one is still due, and tells whether it did. -/
  | rotateKey (key : SigningKey) (now : Timestamp)
  | count (counter : Counter) (n : Nat)

/-- The answer to a call. -/
abbrev Call.Answer : Call → Type
  | store c => Except StoreError c.Result
  | clock => Timestamp
  | random n => Vector UInt8 n
  | generateKey _ _ => Except String SigningKey
  | ring => KeyRing
  | installKey _ _ => String
  | rotateKey _ _ => Bool
  | count _ _ => Unit

/-- How an operation ends. -/
inductive Outcome (α : Type) where
  | ok (a : α)
  | error (e : TokenError)
  /-- A lifetime led beyond the last instant; nothing was done after that. -/
  | overflow

inductive Operation (α : Type) where
  | done (outcome : Outcome α)
  | call (c : Call) (next : c.Answer → Operation α)

namespace Operation

variable {α β : Type}

def bind (f : α → Operation β) : Operation α → Operation β
  | done (.ok a) => f a
  | done (.error e) => done (.error e)
  | done .overflow => done .overflow
  | call c next => call c fun answer => (next answer).bind f

instance : Monad Operation where
  pure a := done (.ok a)
  bind x f := x.bind f

def fail (e : TokenError) : Operation α := done (.error e)

def overflow : Operation α := done .overflow

def ofExcept : Except TokenError α → Operation α
  | .ok a => pure a
  | .error e => fail e

/-- The operation with its error as a result. -/
def attempt : Operation α → Operation (Except TokenError α)
  | done (.ok a) => pure (.ok a)
  | done (.error e) => pure (.error e)
  | done .overflow => overflow
  | call c next => call c fun answer => (next answer).attempt

/-- A call by itself. -/
def ask (c : Call) : Operation c.Answer := call c pure

/-- A call of the store; if it fails, so does the operation. -/
def ofStore (c : StoreCall) : Operation c.Result :=
  call (.store c) fun answer => ofExcept (answer.mapError .ofStore)

/-- A call of the store with its error as a result. -/
def tryStore (c : StoreCall) : Operation (Except StoreError c.Result) := ask (.store c)

/-- The end of a lifetime that begins now. -/
def after (now : Instant) (lifetime : Duration) : Operation Instant :=
  (now.after lifetime).elim overflow pure

def count (c : Counter) : Operation Unit := ask (.count c 1)

/-- Performs the calls of an operation in turn. -/
def run {σ : Type} (perform : (c : Call) → σ → c.Answer × σ) : Operation α → σ → Outcome α × σ
  | done outcome, s => (outcome, s)
  | call c next, s =>
    let (answer, s) := perform c s
    (next answer).run perform s

@[simp]
theorem pure_bind (a : α) (f : α → Operation β) : (pure a >>= f) = f a := rfl

@[simp]
theorem fail_bind (e : TokenError) (f : α → Operation β) : (fail e >>= f) = fail e := rfl

@[simp]
theorem overflow_bind (f : α → Operation β) : (overflow >>= f) = overflow := rfl

@[simp]
theorem call_bind (c : Call) (next : c.Answer → Operation α) (f : α → Operation β) :
    (call c next >>= f) = call c fun answer => next answer >>= f := rfl

theorem bind_pure : ∀ x : Operation α, (x >>= pure) = x
  | done (.ok _) => rfl
  | done (.error _) => rfl
  | done .overflow => rfl
  | call c next => congrArg (call c) (funext fun answer => bind_pure (next answer))

theorem bind_bind {γ : Type} (f : α → Operation β) (g : β → Operation γ) :
    ∀ x : Operation α, (x >>= f >>= g) = x >>= fun a => f a >>= g
  | done (.ok _) => rfl
  | done (.error _) => rfl
  | done .overflow => rfl
  | call c next => congrArg (call c) (funext fun answer => bind_bind f g (next answer))

instance : LawfulMonad Operation :=
  LawfulMonad.mk' Operation bind_pure pure_bind fun x f g => bind_bind f g x

/-- A sequence of two operations runs as the second from where the first ends, if that gives a
result. -/
theorem run_bind {σ : Type} (perform : (c : Call) → σ → c.Answer × σ) (f : α → Operation β) :
    ∀ (x : Operation α) (s : σ), (x >>= f).run perform s =
      match x.run perform s with
      | (.ok a, s) => (f a).run perform s
      | (.error e, s) => (.error e, s)
      | (.overflow, s) => (.overflow, s)
  | done (.ok _), _ => rfl
  | done (.error _), _ => rfl
  | done .overflow, _ => rfl
  | call c next, s => run_bind perform f (next (perform c s).1) (perform c s).2

/-- An attempt ends where the operation does, with its error as a result. -/
theorem run_attempt {σ : Type} (perform : (c : Call) → σ → c.Answer × σ) :
    ∀ (x : Operation α) (s : σ), x.attempt.run perform s =
      match x.run perform s with
      | (.ok a, s) => (.ok (.ok a), s)
      | (.error e, s) => (.ok (.error e), s)
      | (.overflow, s) => (.overflow, s)
  | done (.ok _), _ => rfl
  | done (.error _), _ => rfl
  | done .overflow, _ => rfl
  | call c next, s => run_attempt perform (next (perform c s).1) (perform c s).2

end Operation

end TokenAuthority
