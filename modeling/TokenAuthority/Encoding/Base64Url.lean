/-!
# Base64url without padding

`encode` writes bytes in the alphabet of letters, digits, `-` and `_`, four characters for three
bytes, two or three for a rest. `decode` is strict: no padding, no character outside the alphabet,
and the bits a rest leaves over have to be zero. So it reads what `encode` writes (`decode_encode`)
and nothing else (`eq_encode_of_decode`).
-/

namespace TokenAuthority.Encoding

/-- The character of a number below 64. -/
def sextetChar (n : Nat) : Char :=
  if n < 26 then Char.ofNat ('A'.toNat + n)
  else if n < 52 then Char.ofNat ('a'.toNat + (n - 26))
  else if n < 62 then Char.ofNat ('0'.toNat + (n - 52))
  else if n = 62 then '-' else '_'

def sextet? (c : Char) : Option Nat :=
  if 'A' ≤ c ∧ c ≤ 'Z' then some (c.toNat - 'A'.toNat)
  else if 'a' ≤ c ∧ c ≤ 'z' then some (c.toNat - 'a'.toNat + 26)
  else if '0' ≤ c ∧ c ≤ '9' then some (c.toNat - '0'.toNat + 52)
  else if c = '-' then some 62
  else if c = '_' then some 63
  else none

theorem sextet?_sextetChar {n : Nat} (h : n < 64) : sextet? (sextetChar n) = some n := by
  have : ∀ k : Fin 64, sextet? (sextetChar k) = some k.val := by decide
  exact this ⟨n, h⟩

theorem eq_sextetChar_of_sextet? {c : Char} {n : Nat} (h : sextet? c = some n) :
    c = sextetChar n ∧ n < 64 := by
  have hc : Char.ofNat c.toNat = c := Char.ofNat_toNat c
  unfold sextet? at h
  split at h
  · next hr =>
    have h1 : 65 ≤ c.toNat := hr.1
    have h2 : c.toNat ≤ 90 := hr.2
    have hn : c.toNat - 65 = n := Option.some.inj h
    refine ⟨?_, by omega⟩
    rw [sextetChar, if_pos (by omega), ← hn, show 'A'.toNat = 65 from rfl,
      Nat.add_sub_cancel' h1, hc]
  split at h
  · next hr =>
    have h1 : 97 ≤ c.toNat := hr.1
    have h2 : c.toNat ≤ 122 := hr.2
    have hn : c.toNat - 97 + 26 = n := Option.some.inj h
    refine ⟨?_, by omega⟩
    rw [sextetChar, if_neg (by omega), if_pos (by omega), ← hn, Nat.add_sub_cancel,
      show 'a'.toNat = 97 from rfl, Nat.add_sub_cancel' h1, hc]
  split at h
  · next hr =>
    have h1 : 48 ≤ c.toNat := hr.1
    have h2 : c.toNat ≤ 57 := hr.2
    have hn : c.toNat - 48 + 52 = n := Option.some.inj h
    refine ⟨?_, by omega⟩
    rw [sextetChar, if_neg (by omega), if_neg (by omega), if_pos (by omega), ← hn,
      Nat.add_sub_cancel, show '0'.toNat = 48 from rfl, Nat.add_sub_cancel' h1, hc]
  split at h
  · next hr =>
    cases h
    exact ⟨hr, by decide⟩
  split at h
  · next hr =>
    cases h
    exact ⟨hr, by decide⟩
  · cases h

theorem exists_eq_sextetChar (n : Nat) : ∃ k : Fin 64, sextetChar n = sextetChar k := by
  by_cases h : n < 64
  · exact ⟨⟨n, h⟩, rfl⟩
  · refine ⟨63, ?_⟩
    rw [sextetChar, if_neg (by omega), if_neg (by omega), if_neg (by omega), if_neg (by omega)]
    rfl

namespace Base64Url

def encode : List UInt8 → List Char
  | [] => []
  | [a] => [sextetChar (a.toNat / 4), sextetChar (a.toNat % 4 * 16)]
  | [a, b] =>
    [sextetChar (a.toNat / 4), sextetChar (a.toNat % 4 * 16 + b.toNat / 16),
      sextetChar (b.toNat % 16 * 4)]
  | a :: b :: c :: r =>
    sextetChar (a.toNat / 4) :: sextetChar (a.toNat % 4 * 16 + b.toNat / 16) ::
      sextetChar (b.toNat % 16 * 4 + c.toNat / 64) :: sextetChar (c.toNat % 64) :: encode r

/-- Refuses any text that `encode` does not write. -/
def decode : List Char → Option (List UInt8)
  | [] => some []
  | [_] => none
  | [p, q] => do
    let p ← sextet? p
    let q ← sextet? q
    if q % 16 = 0 then some [UInt8.ofNat (p * 4 + q / 16)] else none
  | [p, q, r] => do
    let p ← sextet? p
    let q ← sextet? q
    let r ← sextet? r
    if r % 4 = 0 then
      some [UInt8.ofNat (p * 4 + q / 16), UInt8.ofNat (q % 16 * 16 + r / 4)]
    else none
  | p :: q :: r :: s :: t => do
    let p ← sextet? p
    let q ← sextet? q
    let r ← sextet? r
    let s ← sextet? s
    let rest ← decode t
    return UInt8.ofNat (p * 4 + q / 16) :: UInt8.ofNat (q % 16 * 16 + r / 4) ::
      UInt8.ofNat (r % 4 * 64 + s) :: rest

theorem length_encode : ∀ bytes : List UInt8, (encode bytes).length = (4 * bytes.length + 2) / 3
  | [] => rfl
  | [_] | [_, _] => by simp [encode]
  | _ :: _ :: _ :: r => by
    simp only [encode, List.length_cons, length_encode r]
    omega

theorem mem_encode {c : Char} : ∀ {bytes : List UInt8}, c ∈ encode bytes →
    ∃ k : Fin 64, c = sextetChar k
  | [_], h | [_, _], h => by
    simp only [encode, List.mem_cons, List.not_mem_nil, or_false] at h
    rcases h with rfl | rfl | rfl
    all_goals exact exists_eq_sextetChar _
  | _ :: _ :: _ :: _, h => by
    simp only [encode, List.mem_cons] at h
    rcases h with rfl | rfl | rfl | rfl | h
    · exact exists_eq_sextetChar _
    · exact exists_eq_sextetChar _
    · exact exists_eq_sextetChar _
    · exact exists_eq_sextetChar _
    · exact mem_encode h

private theorem ofNat_eq {n : Nat} {a : UInt8} (h : n = a.toNat) : UInt8.ofNat n = a := by
  rw [h, UInt8.ofNat_toNat]

private theorem toNat_ofNat {n : Nat} (h : n < 256) : (UInt8.ofNat n).toNat = n := by
  simpa using h

theorem decode_encode : ∀ bytes : List UInt8, decode (encode bytes) = some bytes
  | [] => rfl
  | [a] => by
    have ha := a.toNat_lt
    simp only [encode, decode, sextet?_sextetChar (show a.toNat / 4 < 64 by omega),
      sextet?_sextetChar (show a.toNat % 4 * 16 < 64 by omega), Option.bind_eq_bind,
      Option.bind_some, show a.toNat % 4 * 16 % 16 = 0 by omega, if_true,
      ofNat_eq (show a.toNat / 4 * 4 + a.toNat % 4 * 16 / 16 = a.toNat by omega)]
  | [a, b] => by
    have ha := a.toNat_lt
    have hb := b.toNat_lt
    simp only [encode, decode, sextet?_sextetChar (show a.toNat / 4 < 64 by omega),
      sextet?_sextetChar (show a.toNat % 4 * 16 + b.toNat / 16 < 64 by omega),
      sextet?_sextetChar (show b.toNat % 16 * 4 < 64 by omega), Option.bind_eq_bind,
      Option.bind_some, show b.toNat % 16 * 4 % 4 = 0 by omega, if_true,
      ofNat_eq (show a.toNat / 4 * 4 + (a.toNat % 4 * 16 + b.toNat / 16) / 16 = a.toNat by omega),
      ofNat_eq (show (a.toNat % 4 * 16 + b.toNat / 16) % 16 * 16 + b.toNat % 16 * 4 / 4 = b.toNat
        by omega)]
  | a :: b :: c :: r => by
    have ha := a.toNat_lt
    have hb := b.toNat_lt
    have hc := c.toNat_lt
    simp only [encode, decode, sextet?_sextetChar (show a.toNat / 4 < 64 by omega),
      sextet?_sextetChar (show a.toNat % 4 * 16 + b.toNat / 16 < 64 by omega),
      sextet?_sextetChar (show b.toNat % 16 * 4 + c.toNat / 64 < 64 by omega),
      sextet?_sextetChar (show c.toNat % 64 < 64 by omega), decode_encode r,
      Option.bind_eq_bind, Option.bind_some,
      ofNat_eq (show a.toNat / 4 * 4 + (a.toNat % 4 * 16 + b.toNat / 16) / 16 = a.toNat by omega),
      ofNat_eq (show (a.toNat % 4 * 16 + b.toNat / 16) % 16 * 16
        + (b.toNat % 16 * 4 + c.toNat / 64) / 4 = b.toNat by omega),
      ofNat_eq (show (b.toNat % 16 * 4 + c.toNat / 64) % 4 * 64 + c.toNat % 64 = c.toNat by omega)]
    rfl

theorem eq_encode_of_decode : ∀ {s : List Char} {bytes : List UInt8},
    decode s = some bytes → s = encode bytes
  | [], bytes, h => by
    cases h
    rfl
  | [_], _, h => by cases h
  | [p, q], bytes, h => by
    simp only [decode, Option.bind_eq_bind, Option.bind_eq_some_iff,
      Option.ite_none_right_eq_some] at h
    obtain ⟨a, ha, b, hb, hg, h⟩ := h
    obtain ⟨rfl, ha⟩ := eq_sextetChar_of_sextet? ha
    obtain ⟨rfl, hb⟩ := eq_sextetChar_of_sextet? hb
    cases h
    rw [encode, toNat_ofNat (by omega), show (a * 4 + b / 16) / 4 = a by omega,
      show (a * 4 + b / 16) % 4 * 16 = b by omega]
  | [p, q, r], bytes, h => by
    simp only [decode, Option.bind_eq_bind, Option.bind_eq_some_iff,
      Option.ite_none_right_eq_some] at h
    obtain ⟨a, ha, b, hb, c, hc, hg, h⟩ := h
    obtain ⟨rfl, ha⟩ := eq_sextetChar_of_sextet? ha
    obtain ⟨rfl, hb⟩ := eq_sextetChar_of_sextet? hb
    obtain ⟨rfl, hc⟩ := eq_sextetChar_of_sextet? hc
    cases h
    rw [encode, toNat_ofNat (by omega), toNat_ofNat (by omega),
      show (a * 4 + b / 16) / 4 = a by omega,
      show (a * 4 + b / 16) % 4 * 16 + (b % 16 * 16 + c / 4) / 16 = b by omega,
      show (b % 16 * 16 + c / 4) % 16 * 4 = c by omega]
  | p :: q :: r :: s :: t, bytes, h => by
    simp only [decode, Option.bind_eq_bind, Option.bind_eq_some_iff] at h
    obtain ⟨a, ha, b, hb, c, hc, d, hd, rest, hr, h⟩ := h
    obtain ⟨rfl, ha⟩ := eq_sextetChar_of_sextet? ha
    obtain ⟨rfl, hb⟩ := eq_sextetChar_of_sextet? hb
    obtain ⟨rfl, hc⟩ := eq_sextetChar_of_sextet? hc
    obtain ⟨rfl, hd⟩ := eq_sextetChar_of_sextet? hd
    cases h
    rw [encode, toNat_ofNat (by omega), toNat_ofNat (by omega), toNat_ofNat (by omega),
      ← eq_encode_of_decode hr, show (a * 4 + b / 16) / 4 = a by omega,
      show (a * 4 + b / 16) % 4 * 16 + (b % 16 * 16 + c / 4) / 16 = b by omega,
      show (b % 16 * 16 + c / 4) % 16 * 4 + (c % 4 * 64 + d) / 64 = c by omega,
      show (c % 4 * 64 + d) % 64 = d by omega]

end Base64Url

/-- Bytes as base64url text. -/
def base64Url (bytes : List UInt8) : String :=
  String.ofList (Base64Url.encode bytes)

def ofBase64Url? (s : String) : Option (List UInt8) :=
  Base64Url.decode s.toList

@[simp]
theorem ofBase64Url?_base64Url (bytes : List UInt8) :
    ofBase64Url? (base64Url bytes) = some bytes := by
  simp [ofBase64Url?, base64Url, Base64Url.decode_encode]

end TokenAuthority.Encoding
