/-!
# Letters without case

Two comparisons that ignore case. `sameLetters` folds the ASCII letters only. `upperAscii` is the
upper case of a text as far as it stays within ASCII: besides the ASCII letters it knows the long
s and the dotless i, the only other characters whose upper case is an ASCII letter. A character
whose upper case lies outside ASCII, or is a string of several letters, stands for itself, so that
no such character is ever read as part of an ASCII name.
-/

namespace TokenAuthority.Text

/-- Equality that ignores the case of ASCII letters. -/
def sameLetters (a b : String) : Bool :=
  a.toList.map Char.toLower == b.toList.map Char.toLower

def upperAsciiChar (c : Char) : Char :=
  if c = 'ſ' then 'S' else if c = 'ı' then 'I' else c.toUpper

def upperAscii (s : String) : String :=
  String.ofList (s.toList.map upperAsciiChar)

theorem sameLetters_refl (a : String) : sameLetters a a = true := by
  simp [sameLetters]

theorem sameLetters_comm (a b : String) : sameLetters a b = sameLetters b a := by
  simp [sameLetters, Bool.beq_comm]

end TokenAuthority.Text
