import TokenAuthority.Jws
import TokenAuthority.Proofs.Wire.Reads

/-!
# What a token carries

Anyone can read the claims in the payload of a token (`Jws.claims?`). They are those that were
signed, whatever the key (`claims?_access`, `claims?_idToken`): no segment has a point in it, what
base64url and JSON wrote is read back, and claims are read from their own members (`reads_fields`).
Access tokens and ID tokens differ in nothing but a member that the claims of the former pass over
(`IdClaims.ofJson_claims_toJson`) and those of the latter need not have (`Claims.toJson_mk_none`).
-/

namespace TokenAuthority

open Encoding Json

namespace Claims

/-- The names of the members of claims. -/
def names : List String :=
  ["iss", "sub", "aud", "iat", "exp", "jti", "scope", "client_id", "nonce"]

variable (c : Claims) {rest : List (String × Json)}

/-- Claims are read from their members, whatever else stands behind them. -/
theorem reads_fields (h : ∀ m ∈ rest, m.1 ∉ names) :
    Reads fields (.members (c.members ++ rest)) c := by
  have hone : ∀ name ∈ names, ∀ {v : Json}, Json.members name c.members = [v] →
      Json.members name (c.members ++ rest) = [v] := by
    intro name hname v hv
    rw [members_append, hv, members_eq_nil fun m hm he => h m hm (he ▸ hname), List.append_nil]
  have hiss := hone "iss" (by decide) rfl
  have hsub := hone "sub" (by decide) rfl
  have haud := hone "aud" (by decide) rfl
  have hiat := hone "iat" (by decide) rfl
  have hexp := hone "exp" (by decide) rfl
  have hjti := hone "jti" (by decide) rfl
  have hscope := hone "scope" (by decide) rfl
  have hclient := hone "client_id" (by decide) rfl
  have hnonce := hone "nonce" (by decide) rfl
  show Reads _ _
    (mk c.iss c.sub c.aud c.iat c.exp c.jti c.scope c.clientId c.nonce)
  refine .seq (.seq (.seq (.seq (.seq (.seq (.seq (.seq (.map ?_ mk) ?_) ?_) ?_) ?_) ?_) ?_) ?_) ?_
  · exact reads_field hiss rfl
  · exact reads_field hsub rfl
  · exact reads_field haud (readList_texts c.aud)
  · exact reads_field hiat (readInt64_toInt c.iat)
  · exact reads_field hexp (readInt64_toInt c.exp)
  · exact reads_field hjti rfl
  · exact reads_field hscope rfl
  · exact reads_field hclient rfl
  · exact reads_field hnonce rfl

theorem within_members : WithinMembers 1 c.members := by simp [members]

end Claims

namespace IdClaims

variable (c : IdClaims)

/-- Behind the members of claims stands at most the hash. -/
theorem name_of_mem_atHash {m : String × Json} (h : m ∈ present "at_hash" (c.atHash.map .str)) :
    m.1 = "at_hash" := by
  obtain ⟨v, -, rfl⟩ := List.mem_map.1 h
  rfl

theorem reads_claims :
    Reads Claims.fields (.members (c.claims.members ++ present "at_hash" (c.atHash.map .str)))
      c.claims :=
  c.claims.reads_fields fun _ hm => c.name_of_mem_atHash hm ▸ by decide

theorem ofJson_toJson : ofJson c.toJson = .ok c := by
  refine readObject_of_reads (a := mk c.claims c.atHash) (.seq (c.reads_claims.map mk) ?_)
  refine reads_optional_text ?_
  rw [members_append, members_present, if_pos rfl]
  rfl

/-- Read as the claims of an access token, those of an ID token lose their hash. -/
theorem ofJson_claims_toJson : Claims.ofJson c.toJson = .ok c.claims :=
  readObject_of_reads c.reads_claims

theorem within_toJson : Within 2 c.toJson := .obj (by simp [c.claims.within_members])

end IdClaims

namespace Claims

variable (c : Claims)

/-- Claims are written like those of an ID token without a hash. -/
theorem toJson_mk_none : (IdClaims.mk c none).toJson = c.toJson :=
  congrArg Json.obj (List.append_nil c.members)

theorem ofJson_toJson : ofJson c.toJson = .ok c :=
  c.toJson_mk_none ▸ (IdClaims.mk c none).ofJson_claims_toJson

theorem within_toJson : Within 2 c.toJson := .obj c.within_members

end Claims

namespace Jws

theorem point_not_mem_encode (bytes : List UInt8) : '.' ∉ Base64Url.encode bytes := by
  intro h
  have hne : ∀ k : Fin 64, '.' ≠ sextetChar k := by decide
  obtain ⟨k, hk⟩ := Base64Url.mem_encode h
  exact hne k hk

theorem point_not_mem_base64Url (bytes : List UInt8) : '.' ∉ (base64Url bytes).toList := by
  rw [base64Url, String.toList_ofList]
  exact point_not_mem_encode bytes

namespace Segments

theorem splitLast_append {s t : List Char} (h : '.' ∉ t) :
    splitLast (s ++ '.' :: t) = some (s, t) := by
  have hlast : ((s ++ '.' :: t).reverse.takeWhile (· ≠ '.')).reverse = t := by
    have hall : ∀ c ∈ t.reverse, decide (c ≠ '.') = true := by
      intro c hc
      simpa using fun he : c = '.' => h (he ▸ List.mem_reverse.1 hc)
    rw [List.reverse_append, List.reverse_cons, List.append_assoc,
      List.takeWhile_append_of_pos hall]
    simp
  unfold splitLast
  simp only [hlast, List.length_append, List.length_cons]
  rw [if_neg (by omega)]
  have htake : s.length + (t.length + 1) - t.length - 1 = s.length := by omega
  rw [htake, List.take_left]

/-- A text is taken apart at its last two points. -/
theorem ofText?_text {s : Segments} (hp : '.' ∉ s.payload.toList) (hs : '.' ∉ s.signature.toList) :
    ofText? s.text = some s := by
  have htext : s.text.toList =
      (s.header.toList ++ '.' :: s.payload.toList) ++ '.' :: s.signature.toList := by
    simp [text, message]
  unfold ofText?
  rw [htext, splitLast_append hs, Option.bind_eq_bind, Option.bind_some]
  dsimp only
  rw [splitLast_append hp, Option.bind_some]
  simp

end Segments

/-- The claims that a token carries, whoever signed it. -/
def claims? (type : ClaimType) (token : String) : Option type.Carrier := do
  let parts ← Segments.ofText? token
  (readSegment (claimsOfBytes? type.reading) parts.payload).toOption

theorem readSegment_segment {α : Type} {reading : Json.Reading α} {v : Json} {a : α}
    (hv : read v.text = .ok v) (ha : readClaims reading v = .ok a) :
    readSegment (claimsOfBytes? reading) (segment v) = .ok a := by
  have hread : claimsOfBytes? reading (utf8 v.text) = some a := by
    simp [claimsOfBytes?, valueOfBytes?, hv, ha, Except.toOption]
  unfold readSegment segment
  rw [ofBase64Url?_base64Url]
  dsimp only
  rw [hread]
  rfl

/-- The segments of a token. -/
def parts (key : SigningKey) (random : Vector UInt8 32) (v : Json) : Segments :=
  let header := segment (Header.mk key.algorithm.name (some key.kid)).toJson
  ⟨header, segment v, base64Url (key.pair.sign random (utf8 (header ++ "." ++ segment v)))⟩

theorem sign_eq (key : SigningKey) (random : Vector UInt8 32) (v : Json) :
    sign key random v = (parts key random v).text := rfl

section Claims

variable (key : SigningKey) (random : Vector UInt8 32)

/-- Whatever the key, a signed value is read from the payload. -/
theorem claims?_sign {type : ClaimType} {v : Json} {a : type.Carrier} (hv : read v.text = .ok v)
    (ha : readClaims type.reading v = .ok a) : claims? type (sign key random v) = some a := by
  have hparts : Segments.ofText? (parts key random v).text = some (parts key random v) :=
    Segments.ofText?_text (point_not_mem_base64Url _) (point_not_mem_base64Url _)
  have hread : readSegment (claimsOfBytes? type.reading) (parts key random v).payload = .ok a :=
    readSegment_segment hv ha
  simp only [claims?, sign_eq, hparts, Option.bind_eq_bind, Option.bind_some, hread,
    Except.toOption]

theorem claims?_access (c : Claims) : claims? .access (sign key random c.toJson) = some c :=
  claims?_sign key random (c.within_toJson.read_text (by decide)) c.ofJson_toJson

theorem claims?_idToken (c : IdClaims) : claims? .idToken (sign key random c.toJson) = some c := by
  refine claims?_sign key random (c.within_toJson.read_text (by decide)) ?_
  have hnbf : members "nbf" (c.claims.members ++ present "at_hash" (c.atHash.map .str)) = [] := by
    have hnone : members "nbf" (present "at_hash" (c.atHash.map .str)) = [] :=
      members_eq_nil fun m hm => c.name_of_mem_atHash hm ▸ by decide
    rw [members_append, hnone]
    rfl
  have hread : IdClaims.ofJson (.obj (c.claims.members ++ present "at_hash" (c.atHash.map .str))) =
      .ok c := c.ofJson_toJson
  simp only [IdClaims.toJson, readClaims, hnbf, List.all_nil, if_true]
  exact hread

end Claims

end Jws

end TokenAuthority
