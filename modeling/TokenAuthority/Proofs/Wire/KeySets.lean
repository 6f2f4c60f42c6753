import TokenAuthority.Proofs.Wire.Reads
import TokenAuthority.PublicKey

/-!
# Published key sets

Whoever reads the text in which a set of keys is published gets that set (`KeySet.read_text`),
whatever the texts in it.
-/

namespace TokenAuthority

open Json

namespace PublicKey

variable (k : PublicKey)

theorem ofJson_toJson : ofJson k.toJson = .ok k := by
  obtain ⟨kty, kid, use, alg, n, e, crv, x, y⟩ := k
  refine readRecord_of_reads (a := mk kty kid use alg n e crv x y) ?_
  refine .seq (.seq (.seq (.seq (.seq (.seq (.seq (.seq (.map ?kty mk) ?kid) ?use) ?alg) ?n) ?e)
    ?crv) ?x) ?y
  case kty | kid | use | alg =>
    exact reads_field (v := .str _) (by simp [members_append, members_present, members_cons]) rfl
  case n | e | crv | x | y =>
    exact reads_optional_text (by simp [members_append, members_present, members_cons])

theorem within_toJson : Within 1 k.toJson := .obj (by simp)

end PublicKey

namespace KeySet

variable (s : KeySet)

theorem ofJson_toJson : ofJson s.toJson = .ok s := by
  obtain ⟨keys⟩ := s
  refine readRecord_of_reads (a := mk keys) (.map ?_ mk)
  exact reads_field rfl (readList_map PublicKey.ofJson_toJson keys)

theorem within_toJson : Within 3 s.toJson := by
  have hkeys : Within 2 (.arr (s.keys.map PublicKey.toJson)) :=
    .arr (by simpa using fun k _ => PublicKey.within_toJson k)
  exact .obj (by simpa using hkeys)

theorem read_text : Json.read s.text = .ok s.toJson := s.within_toJson.read_text (by decide)

end KeySet

end TokenAuthority
