import TokenAuthority.Proofs.Token.Freshness

/-!
# Who has signed the tokens of an answer

Whatever an exchange is for, it answers with what it has minted, so that its signed tokens were
signed by the key that is active when it ends (`yields_made`). Each of them names that key in its
header (`Jws.kid?_sign`), so that whoever has the public keys finds the right one. A refresh token
names none (`Jws.kid?_secretText`).
-/

namespace TokenAuthority

open Operation Time

variable {α β : Type} {G : Reply → Prop} {ring : KeyRing}

/-- The tokens of an answer that are signed; its refresh token is not. -/
def TokenResponse.signed (t : TokenResponse) : List String := t.accessToken :: t.idToken.toList

def TokenSet.signed (t : TokenSet) : List String := t.accessToken :: t.idToken.toList

/-- The active key of a ring has signed the tokens, and the refresh token is drawn. -/
structure TokenSet.MadeUnder (t : TokenSet) (ring : KeyRing) : Prop where
  signed : ∃ key, ring.active = some key ∧
    ∀ text ∈ t.signed, ∃ random payload, text = Jws.sign key random payload
  drawn : ∃ bytes, t.refreshToken = secretText bytes

theorem Jws.kid?_sign (key : SigningKey) (random : Vector UInt8 32) (v : Json) :
    kid? (sign key random v) = some key.kid := by
  simp [kid?, ofText?_sign, readSegment_header, Except.toOption]

theorem Jws.kid?_secretText (bytes : Vector UInt8 32) : kid? (secretText bytes) = none := by
  have hcut : Segments.splitLast (secretText bytes).toList = none := by
    refine Option.eq_none_iff_forall_ne_some.2 fun (a, b) h => ?_
    obtain ⟨htext, -⟩ := Segments.splitLast_eq_some h
    refine point_not_mem_base64Url bytes.toList ?_
    rw [← secretText, htext]
    exact List.mem_append_right a List.mem_cons_self
  simp [kid?, Segments.ofText?, hcut]

namespace Operation

variable {P : α → Prop} {K : β → Prop}

theorem gives_fail (e : TokenError) : (fail e : Operation α).Gives G ring P :=
  fun _ hw => ⟨hw, trivial⟩

theorem gives_tryStore {c : StoreCall} {f : Except StoreError c.Result → Operation β}
    (hf : ∀ a, (f a).Gives G ring K) : (tryStore c >>= f).Gives G ring K := by
  have : Idle (tryStore c) := by
    rw [← bind_pure (tryStore c)]
    exact idle_tryStore fun _ => inferInstance
  exact gives_after_idle hf

theorem Gives.attempt {x : Operation α} (hx : x.Gives G ring P) :
    x.attempt.Gives G ring fun result => ∀ a, result = .ok a → P a := by
  intro w hw
  refine (ensures_attempt x w _).2 ((hx w hw).mono ?_)
  rintro (a | e | _) w' past ⟨hw', ha⟩
  · exact ⟨hw', fun _ h => Except.ok.inj h ▸ ha⟩
  · exact ⟨hw', nofun⟩
  · exact ⟨hw', trivial⟩

end Operation

section Minting

theorem gives_mint_signed (m : Issuance.Mint) (p : TokenPolicy) (now : Instant) :
    (Issuance.mint m p now).Gives G ring fun t => ∃ key, ring.active = some key ∧
      ∀ text ∈ t.1.signed, ∃ random payload, text = Jws.sign key random payload := by
  intro w hw
  refine ((Issuance.gives_mint m p now w hw).and (.of_quiet (quiet_mint_bears m p now))).mono ?_
  rintro (⟨t, r⟩ | e | _) w' past ⟨⟨hw', ho⟩, hbears, -, -⟩
  · obtain ⟨key, hkey, hsigned⟩ := ho
    obtain ⟨_, _, -, ⟨random, haccess⟩, hid⟩ := hsigned.claims
    obtain ⟨_, _, -, -, hnone⟩ := hbears.2.claims
    refine ⟨hw', key, hkey, List.forall_mem_cons.2 ⟨⟨random, _, haccess⟩, fun text htext => ?_⟩⟩
    rw [Option.mem_toList] at htext
    by_cases hwith : m.withIdToken
    · obtain ⟨random', hid⟩ := hid hwith
      exact ⟨random', _, Option.some.inj (htext.symm.trans hid)⟩
    · rw [if_neg hwith] at hnone
      exact absurd (htext.symm.trans hnone) nofun
  · exact ⟨hw', trivial⟩
  · exact ⟨hw', trivial⟩

theorem gives_mint_drawn (m : Issuance.Mint) (p : TokenPolicy) (now : Instant) :
    (Issuance.mint m p now).Gives G ring fun t => ∃ bytes, t.1.refreshToken = secretText bytes := by
  unfold Issuance.mint
  refine gives_after_idle fun _ => gives_after_idle fun claims => gives_after_idle fun _ => ?_
  extract_lets finish
  have hfinish : ∀ idToken : Option String, (finish idToken).Gives G ring fun t =>
      ∃ bytes, t.1.refreshToken = secretText bytes := fun idToken =>
    gives_after_idle fun bytes => gives_after_idle fun _ => gives_after_idle fun _ =>
      gives_after_idle fun _ => gives_pure ⟨bytes, rfl⟩
  split_ifs
  · rw [bind_map_left]
    exact gives_after_idle fun idToken => hfinish (some idToken)
  · exact hfinish none

theorem gives_mint_made (m : Issuance.Mint) (p : TokenPolicy) (now : Instant) :
    (Issuance.mint m p now).Gives G ring fun t => t.1.MadeUnder ring := by
  intro w hw
  refine ((gives_mint_signed m p now w hw).and (gives_mint_drawn m p now w hw)).mono ?_
  rintro (t | e | _) w' past ⟨⟨hw', hsigned⟩, -, hdrawn⟩
  · exact ⟨hw', hsigned, hdrawn⟩
  · exact ⟨hw', trivial⟩
  · exact ⟨hw', trivial⟩

end Minting

section Grants

-- What is so of all that is minted is so of what a grant gives.
variable {P : TokenSet → Prop}
  (hP : ∀ m p now, (Issuance.mint m p now).Gives G ring fun t => P t.1)

theorem gives_burn (record : TokenRecord) : (Rotation.burn record).Gives G ring P := by
  unfold Rotation.burn
  refine gives_tryStore ?_
  rintro (e | n)
  · exact gives_fail _
  · exact gives_after_idle fun _ => gives_after_idle fun _ => gives_fail _

theorem gives_succeed {tokens : TokenSet} (h : P tokens) (record child : TokenRecord) :
    (Rotation.succeed record child tokens).Gives G ring P := by
  unfold Rotation.succeed
  refine gives_ofStore fun _ => gives_tryStore ?_
  rintro (e | _ | _)
  · exact gives_tryStore fun _ => gives_fail _
  · exact gives_burn record
  · exact gives_pure h

include hP

theorem gives_issue_minted (r : IssueRequest) (p : TokenPolicy) (now : Instant) :
    (Issuance.issue r p now).Gives G ring P := by
  unfold Issuance.issue
  refine gives_after_idle fun client => (hP _ p now).bind ?_
  rintro ⟨tokens, record⟩ h
  refine gives_ofStore fun _ => gives_after_idle fun _ => gives_after_idle fun _ => ?_
  exact gives_after_idle fun _ => gives_after_idle fun _ => gives_pure h

theorem gives_rotate (r : Rotation.Request) (p : TokenPolicy) (now : Instant) :
    (Rotation.rotate r p now).Gives G ring P := by
  unfold Rotation.rotate
  refine gives_ofStore ?_
  rintro (_ | record)
  · exact gives_fail _
  dsimp only
  split_ifs
  · exact gives_fail _
  · exact gives_burn record
  · exact gives_fail _
  · exact gives_fail _
  unfold Rotation.exchange
  refine gives_after_idle fun client => (hP _ p now).bind ?_
  rintro ⟨tokens, child⟩ h
  exact gives_succeed h record child

theorem gives_refresh (r : Rotation.Request) (p : TokenPolicy) (now : Instant) :
    (Rotation.refresh r p now).Gives G ring P := by
  unfold Rotation.refresh
  refine (gives_rotate hP r p now).attempt.bind fun result hresult => gives_after_idle fun _ => ?_
  rcases result with e | t
  · exact gives_fail e
  · exact gives_pure (hresult t rfl)

theorem gives_codeGrant_minted (e : Endpoint) (r : TokenRequest) :
    (e.codeGrant r).Gives G ring fun t => ∃ s, P s ∧ t = .ofTokenSet s := by
  rw [Endpoint.codeGrant_eq]
  refine gives_after_idle fun q => gives_after_idle fun _ => gives_after_idle fun redeemed => ?_
  exact gives_after_idle fun now =>
    (gives_issue_minted hP _ e.tokenPolicy now).bind fun s hs => gives_pure ⟨s, hs, rfl⟩

theorem gives_refreshGrant (e : Endpoint) (r : TokenRequest) :
    (e.refreshGrant r).Gives G ring fun t => ∃ s, P s ∧ t = .ofTokenSet s := by
  unfold Endpoint.refreshGrant
  refine gives_after_idle fun token => gives_after_idle fun id => gives_after_idle fun now => ?_
  exact (gives_refresh hP _ e.tokenPolicy now).bind fun s hs => gives_pure ⟨s, hs, rfl⟩

end Grants

/-- The tokens of an exchange are made under the ring that it leaves. -/
theorem yields_made (e : Endpoint) (r : TokenRequest) (w : World) :
    (e.exchange r).Ensures G w fun o w' _ =>
      o.Yields fun t => ∃ s : TokenSet, s.MadeUnder w'.ring ∧ t = .ofTokenSet s := by
  have hgrant : ∀ {grant : Operation TokenResponse},
      (∀ ring, grant.Gives G ring fun t => ∃ s : TokenSet, s.MadeUnder ring ∧ t = .ofTokenSet s) →
      (Endpoint.afterRotation grant).Ensures G w fun o w' _ =>
        o.Yields fun t => ∃ s : TokenSet, s.MadeUnder w'.ring ∧ t = .ofTokenSet s := by
    intro grant hgives
    have hends : ∀ w₁ : World, grant.Ensures G w₁ fun o w' _ =>
        o.Yields fun t => ∃ s : TokenSet, s.MadeUnder w'.ring ∧ t = .ofTokenSet s := by
      intro w₁
      refine (hgives w₁.ring w₁ rfl).mono fun o w' _ ⟨hw', ho⟩ => ?_
      rwa [hw']
    unfold Endpoint.afterRotation
    refine .clock fun reply _ => .attempt (ensures_true _ _) ?_ ?_ fun _ _ _ => trivial
    · exact fun _ w₁ _ _ => hends w₁
    · exact fun _ w₁ _ _ => hends w₁
  unfold Endpoint.exchange
  split_ifs
  · exact hgrant fun ring => gives_codeGrant_minted gives_mint_made e r
  · exact hgrant fun ring => gives_refreshGrant gives_mint_made e r
  · exact trivial

end TokenAuthority
