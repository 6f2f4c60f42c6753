import TokenAuthority.Proofs.Provenance

/-!
# What a run has signed

Operations sign in some of their places, access tokens in some and ID tokens in others
(`SigningSites`). The calls that a request has made tell which of these places it has been to, and
what it has signed there (`SigningSites.Made`). The tokens that an authority answers with were
signed in this way, each as what it is answered for (`System.signed_of_answered`).
-/

namespace TokenAuthority

open Operation Time

variable {α β : Type}

/-- What is signed: claims whose lifetime begins with their issue. -/
inductive Draft where
  | access (claims : Claims) (lifetime : Duration)
  | id (claims : Claims) (lifetime : Duration) (accessToken : Option String)

namespace Draft

def kind : Draft → TokenKind
  | access _ _ => .access
  | id _ _ _ => .id

def payload : Draft → Json
  | access claims lifetime => (claims.expiringAfter lifetime.seconds).toJson
  | id claims lifetime accessToken =>
    (IdClaims.mk (claims.expiringAfter lifetime.seconds) (accessToken.map atHash)).toJson

def sign : Draft → Operation String
  | access claims lifetime => Signing.signAccess claims lifetime
  | id claims lifetime accessToken => Signing.signId claims lifetime accessToken

theorem sign_eq (d : Draft) : d.sign = Signing.sign d.payload := by
  cases d <;> rfl

end Draft

/-- A draft that was signed with a key. -/
structure Signature where
  key : SigningKey
  random : Vector UInt8 32
  draft : Draft

namespace Signature

variable (u : Signature)

def parts : Jws.Segments := Jws.parts u.key u.random u.draft.payload

def text : String := Jws.sign u.key u.random u.draft.payload

end Signature

/-- The calls that lead an operation to its end. -/
inductive Operation.Ends : Operation α → List Event → Outcome α → Prop
  | done (o : Outcome α) : Ends (done o) [] o
  | call {c : Call} {next : c.Answer → Operation α} {a : c.Answer} {past : List Event}
    {o : Outcome α} (ha : c.Credible a) (h : Ends (next a) past o) :
    Ends (call c next) (⟨c, a⟩ :: past) o

/-- The places where an operation signs. -/
inductive SigningSites : {α : Type} → Operation α → Type 1
  | nowhere {α : Type} (x : Operation α) : SigningSites x
  | sign (d : Draft) : SigningSites d.sign
  | bind {α β : Type} {x : Operation α} {f : α → Operation β} (m : SigningSites x)
      (n : ∀ a, SigningSites (f a)) : SigningSites (x >>= f)
  | attempt {α : Type} {x : Operation α} (m : SigningSites x) : SigningSites x.attempt
  | ite {α : Type} (p : Prop) [Decidable p] {x y : Operation α} (m : SigningSites x)
      (n : SigningSites y) : SigningSites (if p then x else y)

namespace SigningSites

/-- Calls have led an operation to a place where it signs, and through it. -/
inductive Made : {α : Type} → {x : Operation α} → SigningSites x → List Event → Signature → Prop
  | sign {d : Draft} {ring : KeyRing} {key : SigningKey} {random : Vector UInt8 32}
    (h : ring.active = some key) :
    Made (sign d) [⟨.ring, ring⟩, ⟨.random 32, random⟩] ⟨key, random, d⟩
  | first {α β : Type} {x : Operation α} {f : α → Operation β} {m : SigningSites x}
    {n : ∀ a, SigningSites (f a)} {past later : List Event} {u : Signature} (h : Made m past u) :
    Made (bind m n) (past ++ later) u
  | second {α β : Type} {x : Operation α} {f : α → Operation β} {m : SigningSites x}
    {n : ∀ a, SigningSites (f a)} {past later : List Event} {a : α} {u : Signature}
    (hx : x.Ends past (.ok a)) (h : Made (n a) later u) : Made (bind m n) (past ++ later) u
  | attempt {α : Type} {x : Operation α} {m : SigningSites x} {past : List Event} {u : Signature}
    (h : Made m past u) : Made (attempt m) past u
  | pos {α : Type} {p : Prop} [Decidable p] {x y : Operation α} {m : SigningSites x}
    {n : SigningSites y} {past : List Event} {u : Signature} (hp : p) (h : Made m past u) :
    Made (ite p m n) past u
  | neg {α : Type} {p : Prop} [Decidable p] {x y : Operation α} {m : SigningSites x}
    {n : SigningSites y} {past : List Event} {u : Signature} (hp : ¬ p) (h : Made n past u) :
    Made (ite p m n) past u

def mint (m : Issuance.Mint) (p : TokenPolicy) (now : Instant) :
    SigningSites (Issuance.mint m p now) :=
  .bind (.nowhere _) fun _ => .bind (.nowhere _) fun claims =>
    .bind (.sign (.access claims p.accessLifetime)) fun accessToken =>
      .ite _
        (.bind (.bind (.sign (.id claims p.idLifetime (some accessToken)))
          fun idToken => .nowhere (pure (some idToken))) fun _ => .nowhere _)
        (.nowhere _)

def issue (r : IssueRequest) (p : TokenPolicy) (now : Instant) :
    SigningSites (Issuance.issue r p now) :=
  .bind (.nowhere _) fun _ => .bind (mint _ p now) fun _ => .nowhere _

def continuation (record : TokenRecord) (audience : List String) (p : TokenPolicy)
    (now : Instant) : SigningSites (Rotation.exchange record audience p now) :=
  .bind (.nowhere _) fun _ => .bind (mint _ p now) fun _ => .nowhere _

def rotate (r : Rotation.Request) (p : TokenPolicy) (now : Instant) :
    SigningSites (Rotation.rotate r p now) :=
  .bind (.nowhere _) fun
    | none => .nowhere _
    | some record => .ite _ (.nowhere _) <| .ite _ (.nowhere _) <| .ite _ (.nowhere _) <|
        .ite _ (.nowhere _) (continuation record r.audience p now)

def refresh (r : Rotation.Request) (p : TokenPolicy) (now : Instant) :
    SigningSites (Rotation.refresh r p now) :=
  .bind (.attempt (rotate r p now)) fun _ => .nowhere _

def codeGrant (e : Endpoint) (r : TokenRequest) : SigningSites (e.codeGrant r) :=
  .bind (.nowhere _) fun _ => .bind (.nowhere _) fun _ => .bind (.nowhere _) fun _ =>
    .bind (.nowhere _) fun _ => .bind (.nowhere _) fun _ => .bind (.nowhere _) fun _ =>
      .bind (issue _ e.tokenPolicy _) fun _ => .nowhere _

def refreshGrant (e : Endpoint) (r : TokenRequest) : SigningSites (e.refreshGrant r) :=
  .bind (.nowhere _) fun _ => .bind (.nowhere _) fun _ => .bind (.nowhere _) fun _ =>
    .bind (refresh _ e.tokenPolicy _) fun _ => .nowhere _

def afterRotation {grant : Operation α} (m : SigningSites grant) :
    SigningSites (Endpoint.afterRotation grant) :=
  .bind (.nowhere _) fun _ => .bind (.nowhere _) fun _ => m

def exchange (e : Endpoint) (r : TokenRequest) : SigningSites (e.exchange r) :=
  .ite _ (afterRotation (codeGrant e r)) <|
    .ite _ (afterRotation (refreshGrant e r)) (.nowhere _)

def token (e : Endpoint) (r : TokenRequest) : SigningSites (e.token r) :=
  .bind (.attempt (exchange e r)) fun _ => .nowhere _

end SigningSites

def Request.signingSites : (q : Request) → SigningSites q.operation
  | issue r p now => .issue r p now
  | refresh r p now => .refresh r p now
  | exchange e r => .exchange e r
  | token e r => .token e r
  | signAccess claims lifetime => .sign (.access claims lifetime)
  | signId claims lifetime accessToken => .sign (.id claims lifetime accessToken)
  | _ => .nowhere _

/-- A request has signed something. -/
def System.Signed (s : System) (u : Signature) : Prop :=
  ∃ t ∈ s.threads, t.request.signingSites.Made t.past u

section Ends

variable {Φ : Type} {D : Discipline Φ}

/-- An operation that obeys ends with what fits its last phase. -/
theorem Operation.Obeys.of_ends {Q : Φ → Outcome α → Prop} {x : Operation α} {φ : Φ}
    {past : List Event} {o : Outcome α} (hx : x.Obeys D Q φ) (h : x.Ends past o) :
    Q (D.phase φ past) o := by
  induction h generalizing φ with
  | done o => exact hx
  | call ha _ ih => exact ih (hx.2 _ ha)

theorem Operation.obeys_of_ends {Q : List Event → Outcome α → Prop} :
    ∀ {x : Operation α} {before : List Event}, (∀ past o, x.Ends past o → Q (before ++ past) o) →
      x.Obeys ⟨fun _ _ => True, fun past c a => past ++ [⟨c, a⟩]⟩ Q before
  | .done o, before, h => by simpa using h [] o (.done o)
  | .call c next, before, h => ⟨trivial, fun a ha => obeys_of_ends fun past o hpast => by
      simpa using h (⟨c, a⟩ :: past) o (.call ha hpast)⟩

/-- The regime in which a phase is all that a request has done. -/
def Regime.past : Regime (List Event) where
  discipline := ⟨fun _ _ => True, fun past c a => past ++ [⟨c, a⟩]⟩
  start _ := []
  Fits q past o := q.operation.Ends past o
  obeys _ := obeys_of_ends fun _ _ h => h

theorem Regime.phase_past (t : Thread) : Regime.past.phase t = t.past := by
  have hphase : ∀ later before, Regime.past.discipline.phase before later = before ++ later := by
    intro later
    induction later with
    | nil => simp [Discipline.phase]
    | cons e later ih =>
      intro before
      refine (ih (before ++ [e])).trans ?_
      simp
  exact hphase t.past []

/-- A request has ended as its calls say. -/
theorem System.ends_of_done {w : World} {moves : List Move} {t : Thread}
    (ht : t ∈ ((start w).run moves).threads) {o : Outcome t.request.Result}
    (ho : t.rest = .done o) : t.request.operation.Ends t.past o := by
  have hfits := (Regime.past.lawful_of_start w moves t ht).fits ho
  rwa [Regime.phase_past] at hfits

theorem Operation.Ends.exists_of_bind {f : α → Operation β} {b : β} :
    ∀ {x : Operation α} {past : List Event}, (x >>= f).Ends past (.ok b) →
      ∃ a before later, past = before ++ later ∧ x.Ends before (.ok a) ∧
        (f a).Ends later (.ok b)
  | .done (.ok a), past, h => ⟨a, [], past, rfl, .done _, h⟩
  | .done (.error _), _, h => nomatch h
  | .done .overflow, _, h => nomatch h
  | .call c next, _, .call ha h => by
    obtain ⟨a, before, later, rfl, hx, hf⟩ := exists_of_bind h
    exact ⟨a, _, later, rfl, .call ha hx, hf⟩

theorem Operation.Ends.of_attempt {a : α} : ∀ {x : Operation α} {past : List Event},
    x.attempt.Ends past (.ok (.ok a)) → x.Ends past (.ok a)
  | .done (.ok _), _, .done _ => .done _
  | .done (.error _), _, h => nomatch h
  | .done .overflow, _, h => nomatch h
  | .call _ _, _, .call ha h => .call ha h.of_attempt

theorem Operation.Ends.eq_of_ask {c : Call} {a : c.Answer} {past : List Event}
    (h : (ask c).Ends past (.ok a)) : past = [⟨c, a⟩] := by
  cases h with
  | call _ h =>
    cases h
    rfl

theorem Operation.Ends.of_ofExcept {y : Except TokenError α} {a : α} {past : List Event}
    (h : (ofExcept y).Ends past (.ok a)) : past = [] ∧ y = .ok a := by
  rcases y with e | b <;> cases h
  exact ⟨rfl, rfl⟩

end Ends

namespace SigningSites

variable {x : Operation α} {f : α → Operation β} {kind : TokenKind}

/-- The texts that results show have been signed, as tokens of a kind. -/
def Shows (m : SigningSites x) (kind : TokenKind) (shown : α → Option String) : Prop :=
  ∀ past a text, x.Ends past (.ok a) → shown a = some text →
    ∃ u, m.Made past u ∧ u.draft.kind = kind ∧ u.text = text

section Rules

variable {m : SigningSites x} {n : ∀ a, SigningSites (f a)} {shown : α → Option String}
  {shown' : β → Option String}

theorem shows_nowhere
    (h : x.Obeys (.only fun _ => True) (fun _ => Outcome.Yields (shown · = none)) ()) :
    (nowhere x).Shows kind shown := by
  intro past a text hends htext
  have hnone : shown a = none := h.of_ends hends
  cases hnone.symm.trans htext

theorem shows_sign (d : Draft) : (sign d).Shows d.kind some := by
  intro past t text hends htext
  cases htext
  rw [d.sign_eq] at hends
  obtain ⟨ring, _, _, rfl, hring, hends⟩ := hends.exists_of_bind
  obtain ⟨key, _, _, rfl, hkey, hends⟩ := hends.exists_of_bind
  obtain ⟨random, _, _, rfl, hrandom, hends⟩ := hends.exists_of_bind
  obtain ⟨rfl, htext⟩ := Ends.of_ofExcept (y := .ok (Jws.sign key random d.payload)) hends
  obtain rfl := Except.ok.inj htext
  obtain rfl := hring.eq_of_ask
  obtain rfl := hrandom.eq_of_ask
  obtain ⟨rfl, hkey⟩ := hkey.of_ofExcept
  unfold KeyRing.signingKey at hkey
  split at hkey <;> cases hkey
  exact ⟨_, .sign ‹_›, rfl, rfl⟩

/-- The second of two operations shows what the first one does. -/
theorem Shows.first (hm : m.Shows kind shown)
    (hf : ∀ a, (f a).Obeys (.only fun _ => True) (fun _ => Outcome.Yields (shown' · = shown a))
      ()) : (bind m n).Shows kind shown' := by
  intro past b text hends htext
  obtain ⟨a, before, later, rfl, hx, hends⟩ := hends.exists_of_bind
  have hshown : shown' b = shown a := (hf a).of_ends hends
  obtain ⟨u, hu, hkind, hutext⟩ := hm before a text hx (hshown.symm.trans htext)
  exact ⟨u, .first hu, hkind, hutext⟩

theorem shows_second (hn : ∀ a, (n a).Shows kind shown') : (bind m n).Shows kind shown' := by
  intro past b text hends htext
  obtain ⟨a, before, later, rfl, hx, hends⟩ := hends.exists_of_bind
  obtain ⟨u, hu, hkind, hutext⟩ := hn a later b text hends htext
  exact ⟨u, .second hx hu, hkind, hutext⟩

theorem Shows.attempt (hm : m.Shows kind shown) :
    (attempt m).Shows kind fun r => r.toOption.bind shown := by
  rintro past (e | a) text hends htext
  · cases htext
  · obtain ⟨u, hu, hkind, hutext⟩ := hm past a text hends.of_attempt htext
    exact ⟨u, .attempt hu, hkind, hutext⟩

theorem shows_ite {p : Prop} [Decidable p] {y : Operation α} {m' : SigningSites y}
    (hm : p → m.Shows kind shown) (hm' : ¬ p → m'.Shows kind shown) :
    (ite p m m').Shows kind shown := by
  intro past a text hends htext
  by_cases hp : p
  · rw [if_pos hp] at hends
    obtain ⟨u, hu, h⟩ := hm hp past a text hends htext
    exact ⟨u, .pos hp hu, h⟩
  · rw [if_neg hp] at hends
    obtain ⟨u, hu, h⟩ := hm' hp past a text hends htext
    exact ⟨u, .neg hp hu, h⟩

end Rules

end SigningSites

/-- The token of a kind, if there is one and it is signed. -/
def TokenSet.signed? (t : TokenSet) : TokenKind → Option String
  | .access => some t.accessToken
  | .id => t.idToken
  | .refresh => none

def TokenResponse.signed? (t : TokenResponse) : TokenKind → Option String
  | .access => some t.accessToken
  | .id => t.idToken
  | .refresh => none

namespace SigningSites

variable {kind : TokenKind}

theorem shows_mint (m : Issuance.Mint) (p : TokenPolicy) (now : Instant) :
    (mint m p now).Shows kind fun t => t.1.signed? kind := by
  refine shows_second fun bytes => shows_second fun claims => ?_
  cases kind with
  | access =>
    refine (shows_sign _).first fun accessToken => ?_
    extract_lets finish
    have hfinish : ∀ idToken, (finish idToken).Obeys (.only fun _ => True) (fun _ =>
        Outcome.Yields fun t => t.1.signed? .access = some accessToken) () := fun _ =>
      .ask nofun fun _ => .after (fun _ _ => .ask nofun fun _ => .after (fun _ _ => rfl) trivial)
        trivial
    split_ifs
    · rw [bind_map_left]
      refine (Obeys.of_quiet (fun _ _ => trivial) (quiet_sign _)).bind (P := fun _ _ => True) ?_
      rintro ⟨⟩ (idToken | e | _) -
      · exact hfinish (some idToken)
      · trivial
      · trivial
    · exact hfinish none
  | id =>
    refine shows_second fun accessToken => shows_ite (fun _ => ?_) fun _ => shows_nowhere ?_
    · have hsign : (SigningSites.bind (.sign (.id claims p.idLifetime (some accessToken)))
          fun idToken => .nowhere (pure (some idToken))).Shows .id id :=
        (shows_sign _).first fun _ => rfl
      refine hsign.first fun idToken => ?_
      exact .ask nofun fun _ => .after (fun _ _ => .ask nofun fun _ => .after (fun _ _ => rfl)
        trivial) trivial
    · exact .ask nofun fun _ => .after (fun _ _ => .ask nofun fun _ => .after (fun _ _ => rfl)
        trivial) trivial
  | refresh => exact fun _ _ _ _ h => nomatch h

theorem shows_issue (r : IssueRequest) (p : TokenPolicy) (now : Instant) :
    (issue r p now).Shows kind (TokenSet.signed? · kind) := by
  refine shows_second fun client => (shows_mint _ p now).first ?_
  rintro ⟨tokens, record⟩
  refine .ofStore trivial (fun _ _ => .ask nofun fun _ => ?_) fun _ => trivial
  exact .ask nofun fun _ => .ask nofun fun _ => .ask nofun fun _ => rfl

theorem shows_continuation (record : TokenRecord) (audience : List String) (p : TokenPolicy)
    (now : Instant) :
    (continuation record audience p now).Shows kind (TokenSet.signed? · kind) := by
  refine shows_second fun client => (shows_mint _ p now).first ?_
  rintro ⟨tokens, child⟩
  refine .ofStore trivial (fun _ _ => .tryStore trivial ?_) fun _ => trivial
  rintro (e | _ | _) _
  · exact .tryStore trivial fun _ _ => trivial
  · exact only_burn record trivial fun _ => trivial
  · rfl

theorem shows_rotate (r : Rotation.Request) (p : TokenPolicy) (now : Instant) :
    (rotate r p now).Shows kind (TokenSet.signed? · kind) := by
  refine shows_second ?_
  rintro (_ | record)
  · exact shows_nowhere trivial
  · refine shows_ite (fun _ => shows_nowhere trivial) fun _ => ?_
    refine shows_ite (fun _ => ?_) fun _ => ?_
    · exact shows_nowhere (only_burn record trivial fun _ => trivial)
    refine shows_ite (fun _ => shows_nowhere trivial) fun _ => ?_
    refine shows_ite (fun _ => shows_nowhere trivial) fun _ => ?_
    exact shows_continuation record r.audience p now

theorem shows_refresh (r : Rotation.Request) (p : TokenPolicy) (now : Instant) :
    (refresh r p now).Shows kind (TokenSet.signed? · kind) := by
  refine (shows_rotate r p now).attempt.first fun result => .ask nofun fun _ => ?_
  rcases result with e | tokens
  · trivial
  · rfl

theorem shows_codeGrant (e : Endpoint) (r : TokenRequest) :
    (codeGrant e r).Shows kind (TokenResponse.signed? · kind) := by
  refine shows_second fun _ => shows_second fun _ => shows_second fun _ => shows_second fun _ =>
    shows_second fun _ => shows_second fun _ => (shows_issue _ e.tokenPolicy _).first fun _ => ?_
  cases kind <;> rfl

theorem shows_refreshGrant (e : Endpoint) (r : TokenRequest) :
    (refreshGrant e r).Shows kind (TokenResponse.signed? · kind) := by
  refine shows_second fun _ => shows_second fun _ => shows_second fun _ =>
    (shows_refresh _ e.tokenPolicy _).first fun _ => ?_
  cases kind <;> rfl

theorem shows_exchange (e : Endpoint) (r : TokenRequest) :
    (exchange e r).Shows kind (TokenResponse.signed? · kind) := by
  refine shows_ite (fun _ => ?_) fun _ => shows_ite (fun _ => ?_) fun _ => shows_nowhere trivial
  · exact shows_second fun _ => shows_second fun _ => shows_codeGrant e r
  · exact shows_second fun _ => shows_second fun _ => shows_refreshGrant e r

theorem shows_token (e : Endpoint) (r : TokenRequest) :
    (token e r).Shows kind fun answer => answer.toOption.bind (TokenResponse.signed? · kind) := by
  refine (shows_exchange e r).attempt.first fun result => ?_
  rcases result with e | t <;> rfl

end SigningSites

/-- The tokens of an answer have been signed, each as a token of its kind. -/
theorem System.signed_of_answered {w : World} {moves : List Move} {e : Endpoint}
    {r : TokenRequest} {t : TokenResponse} (h : ((start w).run moves).Answered e r t)
    {kind : TokenKind} {text : String} (htext : t.signed? kind = some text) :
    ∃ u, ((start w).run moves).Signed u ∧ u.draft.kind = kind ∧ u.text = text := by
  cases h with
  | exchange ht =>
    obtain ⟨u, hu, hkind⟩ :=
      SigningSites.shows_exchange e r _ t text (ends_of_done ht rfl) htext
    exact ⟨u, ⟨_, ht, hu⟩, hkind⟩
  | token ht =>
    obtain ⟨u, hu, hkind⟩ :=
      SigningSites.shows_token e r _ (.ok t) text (ends_of_done ht rfl) htext
    exact ⟨u, ⟨_, ht, hu⟩, hkind⟩

end TokenAuthority
