/-!
# Decimal numerals

Numerals in base ten: `digits` writes a natural number, `ofDigits` reads a run of digits, and
`readWord` reads a numeral that has to fit into 64 bits, the form in which lifetimes are configured.
-/

namespace TokenAuthority.Text

def digits (n : Nat) : List Char := Nat.toDigits 10 n

/-- An integer, with a minus sign if it is negative. -/
def signedDigits (n : Int) : List Char :=
  if n < 0 then '-' :: digits n.natAbs else digits n.natAbs

/-- At least `width` digits, filled up with zeros on the left. -/
def padded (width n : Nat) : List Char :=
  List.replicate (width - (digits n).length) '0' ++ digits n

/-- The value of a run of digits. -/
def ofDigits (s : List Char) : Nat := Nat.ofDigitChars 10 s 0

/-- Why a text is no 64-bit numeral. -/
inductive NumeralFault where
  | empty
  | badDigit
  | tooLarge
  deriving DecidableEq

def NumeralFault.message : NumeralFault → String
  | .empty => "cannot parse integer from empty string"
  | .badDigit => "invalid digit found in string"
  | .tooLarge => "number too large to fit in target type"

/-- Reads the digits from the left and stops at the first one that does not belong there or no
longer fits. -/
def accumulate : Nat → List Char → Except NumeralFault UInt64
  | n, [] => .ok (UInt64.ofNat n)
  | n, c :: s =>
    if c.isDigit then
      let m := 10 * n + (c.toNat - '0'.toNat)
      if m < 0x10000000000000000 then accumulate m s else .error .tooLarge
    else .error .badDigit

/-- A numeral below 2^64: ASCII digits with an optional plus sign in front. -/
def readWord (s : String) : Except NumeralFault UInt64 :=
  match s.toList with
  | [] => .error .empty
  | ['+'] => .error .badDigit
  | '+' :: r => accumulate 0 r
  | r => accumulate 0 r

example : readWord "+18446744073709551615" = .ok 18446744073709551615 := by cbv
example : readWord "18446744073709551616" = .error .tooLarge := by cbv

end TokenAuthority.Text
