import TokenAuthority.Proofs.Text.Words
import TokenAuthority.Proofs.Token.Kinds

/-!
# How a token is presented

An authorization header presents a token if it names the scheme `bearer`, in letters of any case,
and behind it the token, with blanks between the two and with nothing but blanks around them
(`Presents`). From such a header the token is taken as it is, and from no other header one is taken
(`bearerToken_eq_ok_iff`). No token that is signed has a blank in it (`Jws.solid_sign`), so that
each access token that is handed out can be presented (`presented_as_bearer`).
-/

namespace TokenAuthority

open Text

/-- An authorization header that presents a token. -/
structure Presents (header token : String) : Prop where
  solid : Solid token
  around : ∃ before scheme between after,
    header = before ++ scheme ++ between ++ token ++ after ∧ scheme.toLower = "bearer" ∧
      between ≠ "" ∧ Blanks before ∧ Blanks between ∧ Blanks after

namespace Text

theorem toList_toLower (s : String) : s.toLower.toList = s.toList.map Char.toLower :=
  String.toList_map

theorem sameLetters_bearer_iff {s : String} : sameLetters s "bearer" ↔ s.toLower = "bearer" := by
  have hlower : "bearer".toList.map Char.toLower = "bearer".toList := by decide
  rw [sameLetters, beq_iff_eq, hlower, ← String.toList_inj, toList_toLower]

/-- Only letters have another case. -/
theorem toLower_of_isBlank {c : Char} (h : isBlank c) : c.toLower = c := by
  refine dif_neg fun hletter => ?_
  have hbounds : 65 ≤ c.toNat ∧ c.toNat ≤ 90 := hletter
  simp only [isBlank, Bool.or_eq_true, Bool.and_eq_true, decide_eq_true_eq, beq_iff_eq] at h
  omega

/-- A text is a word if it is one in lower case. -/
theorem Solid.of_toLower {s : String} (h : Solid s.toLower) : Solid s := by
  refine ⟨?_, fun c hc hblank => ?_⟩
  · rintro rfl
    exact h.nonempty (String.toList_inj.1 (toList_toLower ""))
  · refine h.solid c ?_ hblank
    rw [toList_toLower]
    exact List.mem_map.2 ⟨c, hc, toLower_of_isBlank hblank⟩

theorem solid_bearer : Solid "bearer" := by decide

end Text

theorem bearerToken_eq_ok_iff_words {header token : String} : bearerToken header = .ok token ↔
    ∃ scheme, words header = [scheme, token] ∧ sameLetters scheme "bearer" := by
  unfold bearerToken
  constructor
  · intro h
    split at h
    · next scheme token' hwords =>
      split at h <;> cases h
      exact ⟨scheme, hwords, ‹_›⟩
    · cases h
  · rintro ⟨scheme, hwords, hscheme⟩
    rw [hwords]
    exact if_pos hscheme

/-- A token is taken from the headers that present it. -/
theorem bearerToken_eq_ok_iff {header token : String} :
    bearerToken header = .ok token ↔ Presents header token := by
  rw [bearerToken_eq_ok_iff_words]
  constructor
  · rintro ⟨scheme, hheader, hscheme⟩
    obtain ⟨before, between, after, rfl, hbefore, -, hsome, hbetween, htoken, hafter⟩ :=
      words_eq_pair_iff.1 hheader
    exact ⟨htoken, before, scheme, between, after, rfl, sameLetters_bearer_iff.1 hscheme, hsome,
      hbefore, hbetween, hafter⟩
  · rintro ⟨htoken, before, scheme, between, after, rfl, hscheme, hsome, hbefore, hbetween, hafter⟩
    have hsolid : Solid scheme := .of_toLower (hscheme ▸ solid_bearer)
    exact ⟨scheme, words_eq_pair_iff.2 ⟨before, between, after, rfl, hbefore, hsolid, hsome,
      hbetween, htoken, hafter⟩, sameLetters_bearer_iff.2 hscheme⟩

/-- There is one fault that a header can have. -/
theorem bearerToken_eq_error {header : String} (h : ¬ ∃ token, bearerToken header = .ok token) :
    bearerToken header = .error (.invalidToken "invalid authorization header") := by
  unfold bearerToken at *
  split
  · next scheme token hwords =>
    rw [hwords] at h
    refine if_neg fun hscheme => h ⟨token, ?_⟩
    exact if_pos hscheme
  · rfl

namespace Jws

theorem not_isBlank_of_mem_base64Url {bytes : List UInt8} {c : Char}
    (h : c ∈ (Encoding.base64Url bytes).toList) : ¬ isBlank c := by
  have hsextet : ∀ k : Fin 64, ¬ isBlank (Encoding.sextetChar k) := by decide
  rw [Encoding.base64Url, String.toList_ofList] at h
  obtain ⟨k, rfl⟩ := Encoding.Base64Url.mem_encode h
  exact hsextet k

/-- A token that is signed is a word: segments in base64url with points between them. -/
theorem solid_sign (key : SigningKey) (random : Vector UInt8 32) (payload : Json) :
    Solid (sign key random payload) := by
  have hpoint : ¬ isBlank '.' := by decide
  constructor
  · intro h
    have hmem : '.' ∈ (sign key random payload).toList := by simp [sign]
    rw [h] at hmem
    cases hmem
  · intro c hc
    simp only [sign, segment, String.toList_append, List.mem_append] at hc
    rcases hc with (((hc | hc) | hc) | hc) | hc
    · exact not_isBlank_of_mem_base64Url hc
    · exact List.mem_singleton.1 hc ▸ hpoint
    · exact not_isBlank_of_mem_base64Url hc
    · exact List.mem_singleton.1 hc ▸ hpoint
    · exact not_isBlank_of_mem_base64Url hc

end Jws

theorem presents_bearer {token : String} (h : Solid token) :
    Presents ("Bearer " ++ token) token := by
  have hlower : "Bearer".toLower = "bearer" := sameLetters_bearer_iff.1 (by decide)
  refine ⟨h, "", "Bearer", " ", "", ?_, hlower, by decide, by decide, by decide, by decide⟩
  simp

/-- An authorization header is read if it presents a token, and that token is read; otherwise it is
said to be invalid. The access token of any answer to a token request can be presented. -/
theorem presented_as_bearer :
    (∀ header token, bearerToken header = .ok token ↔ Presents header token) ∧
    (∀ header, (¬ ∃ token, Presents header token) →
      bearerToken header = .error (.invalidToken "invalid authorization header")) ∧
    ∀ w moves e r t, ((System.start w).run moves).Answered e r t →
      bearerToken ("Bearer " ++ t.accessToken) = .ok t.accessToken := by
  refine ⟨fun header token => bearerToken_eq_ok_iff, fun header hnone => ?_, ?_⟩
  · refine bearerToken_eq_error fun ⟨token, htoken⟩ => ?_
    exact hnone ⟨token, bearerToken_eq_ok_iff.1 htoken⟩
  · intro w moves e r t h
    have hshown : t.signed? .access = some t.accessToken := rfl
    obtain ⟨u, -, -, htext⟩ := System.signed_of_answered h hshown
    rw [← htext]
    exact bearerToken_eq_ok_iff.2 (presents_bearer (Jws.solid_sign ..))

/-- Blanks of several kinds around a token; another scheme; the answer to a request for tokens. -/
theorem presented_as_bearer_samples :
    bearerToken "\u3000bEARER\t a.b.c\n" = .ok "a.b.c" ∧
    bearerToken "Basic a.b.c" = .error (.invalidToken "invalid authorization header") ∧
    ∃ t, ((System.start Sample.world).run Sample.renewals).Answered Sample.endpoint
      Sample.codeRequest t ∧ bearerToken ("Bearer " ++ t.accessToken) = .ok t.accessToken := by
  obtain ⟨htaken, hrefused, hpresented⟩ := presented_as_bearer
  have hpresents : Presents "\u3000bEARER\t a.b.c\n" "a.b.c" := by
    have hlower : "bEARER".toLower = "bearer" := sameLetters_bearer_iff.1 (by decide)
    exact ⟨by decide, "\u3000", "bEARER", "\t ", "\n", by decide, hlower, by decide⟩
  have hnone : ¬ ∃ token, Presents "Basic a.b.c" token := by
    rintro ⟨token, htoken⟩
    have hok : bearerToken "Basic a.b.c" = .ok token := (htaken _ _).2 htoken
    have hother : bearerToken "Basic a.b.c" ≠ .ok token := nofun
    exact hother hok
  obtain ⟨t, ht⟩ := Sample.answered_codeRequest
  exact ⟨(htaken _ _).2 hpresents, hrefused _ hnone, t, ht, hpresented _ _ _ _ _ ht⟩

end TokenAuthority
