/-!
# Texts as bytes

`utf8` gives the bytes of a text. `ofUtf8?` reads them back and refuses any sequence that is no
well-formed UTF-8 (`ofUtf8?_utf8`), while `characters` reads any sequence, and marks the bytes that
belong to no character (`characters_utf8`).
-/

namespace TokenAuthority.Encoding

def utf8 (s : String) : List UInt8 := s.toByteArray.data.toList

theorem toByteArray_utf8 (s : String) : (⟨(utf8 s).toArray⟩ : ByteArray) = s.toByteArray := by
  simp [utf8]

def ofUtf8? (bytes : List UInt8) : Option String :=
  String.fromUTF8? ⟨bytes.toArray⟩

@[simp]
theorem ofUtf8?_utf8 (s : String) : ofUtf8? (utf8 s) = some s := by
  rw [ofUtf8?, toByteArray_utf8]
  simp [String.fromUTF8?, s.isValidUTF8, String.fromUTF8]

/-- The characters from a position on. -/
def charactersFrom (bytes : ByteArray) (i : Nat) : List (Option Char) :=
  if i < bytes.size then
    match bytes.utf8DecodeChar? i with
    | some c => some c :: charactersFrom bytes (i + c.utf8Size)
    | none => none :: charactersFrom bytes (i + 1)
  else []
termination_by bytes.size - i
decreasing_by
  · have := c.utf8Size_pos
    omega
  · omega

/-- The characters that some bytes hold, with `none` for a byte that belongs to no character. -/
def characters (bytes : List UInt8) : List (Option Char) := charactersFrom ⟨bytes.toArray⟩ 0

theorem charactersFrom_append (bytes : ByteArray) : ∀ cs : List Char,
    charactersFrom (bytes ++ cs.utf8Encode) bytes.size = cs.map some
  | [] => by
    rw [charactersFrom]
    simp
  | c :: cs => by
    have hc : (bytes ++ (c :: cs).utf8Encode).utf8DecodeChar? bytes.size = some c := by
      rw [ByteArray.utf8DecodeChar?_eq_utf8DecodeChar?_extract,
        ByteArray.extract_append_eq_right rfl ByteArray.size_append]
      exact List.utf8DecodeChar?_utf8Encode_cons
    have hr := charactersFrom_append (bytes ++ [c].utf8Encode) cs
    rw [ByteArray.append_assoc, ← List.utf8Encode_cons, ByteArray.size_append] at hr
    have hs : [c].utf8Encode.size = c.utf8Size := by
      simp [List.utf8Encode_singleton, String.length_utf8EncodeChar]
    have := ByteArray.le_size_of_utf8DecodeChar?_eq_some hc
    have := c.utf8Size_pos
    rw [charactersFrom, if_pos (by omega), hc]
    rw [hs] at hr
    simp [hr]

@[simp]
theorem characters_utf8 (s : String) : characters (utf8 s) = s.toList.map some := by
  have h := charactersFrom_append .empty s.toList
  rw [characters, toByteArray_utf8]
  rw [← String.toByteArray_ofList, String.ofList_toList] at h
  simpa using h

end TokenAuthority.Encoding
