import TokenAuthority.Json.Printer

/-!
# Random identifiers

A UUID of version 4 is sixteen random bytes, of which six bits are set aside for version and
variant, written in 32 hexadecimal digits in five groups.
-/

namespace TokenAuthority.Encoding

/-- Byte `i` of the identifier: bytes 6 and 8 carry version and variant. -/
def uuidByte (random : Vector UInt8 16) (i : Fin 16) : UInt8 :=
  if i.val = 6 then (random[i] &&& 0x0F) ||| 0x40
  else if i.val = 8 then (random[i] &&& 0x3F) ||| 0x80
  else random[i]

def hexByte (b : UInt8) : List Char := [Json.hexDigit (b.toNat / 16), Json.hexDigit (b.toNat % 16)]

/-- The groups begin with the bytes 4, 6, 8 and 10. -/
def groupMark (i : Fin 16) : List Char :=
  if i.val = 4 ∨ i.val = 6 ∨ i.val = 8 ∨ i.val = 10 then ['-'] else []

def uuid (random : Vector UInt8 16) : String :=
  String.ofList ((List.finRange 16).flatMap fun i => groupMark i ++ hexByte (uuidByte random i))

theorem length_uuid (random : Vector UInt8 16) : (uuid random).length = 36 := by
  have h : ∀ i, (groupMark i ++ hexByte (uuidByte random i)).length = (groupMark i).length + 2 := by
    intro i
    rw [List.length_append]
    rfl
  rw [uuid, String.length_ofList, List.length_flatMap, funext h]
  decide

end TokenAuthority.Encoding
