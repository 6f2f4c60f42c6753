/-!
# Blank characters and words

`isBlank` is the Unicode property `White_Space`, and `words` cuts a text into its maximal runs of
characters outside it. Scopes and authorization headers are read word by word.
-/

namespace TokenAuthority.Text

/-- The characters of the Unicode property `White_Space`. -/
def isBlank (c : Char) : Bool :=
  let n := c.toNat
  (0x9 ≤ n && n ≤ 0xD) || n == 0x20 || n == 0x85 || n == 0xA0 || n == 0x1680 ||
    (0x2000 ≤ n && n ≤ 0x200A) || n == 0x2028 || n == 0x2029 || n == 0x202F || n == 0x205F ||
    n == 0x3000

/-- The maximal runs of non-blank characters, in order. -/
def runs (s : List Char) : List (List Char) :=
  (s.splitOnP isBlank).filter (!·.isEmpty)

def words (s : String) : List String :=
  (runs s.toList).map String.ofList

theorem isBlank_of_isWhitespace {c : Char} (h : c.isWhitespace = true) : isBlank c = true := by
  simp only [Char.isWhitespace, Bool.or_eq_true, decide_eq_true_eq] at h
  rcases h with ((rfl | rfl) | rfl) | rfl <;> rfl

theorem runs_nil : runs [] = [] := rfl

theorem ne_nil_of_mem_runs {s w : List Char} (h : w ∈ runs s) : w ≠ [] := by
  intro hw
  subst hw
  simp [runs] at h

end TokenAuthority.Text
