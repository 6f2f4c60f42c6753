import TokenAuthority.Text.Binary
import TokenAuthority.Text.Decimal

/-!
# Numbers with a fraction

A number that is no integer is kept to the precision of a binary fraction and written with the
fewest digits that lead back to it. `Decimal.ofBinary` gives these digits. `Decimal.read?` takes a
decimal as it stands in a text, its leading digits and a power of ten, to the one it is written as:
the digits and the power are both rounded to binary fractions before they are multiplied, so that
the result may lie some units of the last place away from the nearest fraction.
-/

namespace TokenAuthority.Text

/-- The number `± digits * 10 ^ exponent`. -/
structure Decimal where
  negative : Bool
  digits : Nat
  exponent : Int
  deriving DecidableEq, Inhabited

namespace Decimal

/-- The multiple of `10 ^ g` nearest to a fraction among those that lead back to it: those between
the middles to its two neighbours, or on such a middle if the significand is even. -/
def onGrid? (x : Binary) (g : Int) : Option Nat :=
  let m := x.significand
  let below := if m = Binary.leastFull && decide (-1074 < x.exponent) then 4 * m - 1 else 4 * m - 2
  let (a, b) := power 2 (x.exponent - 2)
  let (c, d) := power 10 g
  let inside := fun k =>
    let y := k * c * b
    if m % 2 = 0 then below * a * d ≤ y && y ≤ (4 * m + 2) * a * d
    else below * a * d < y && y < (4 * m + 2) * a * d
  let k := nearest (4 * m * a * d) (b * c)
  let low := 4 * m * a * d / (b * c)
  [k, low, low + 1].find? fun k => 0 < k && inside k

/-- The shortest decimal that leads back to a fraction. -/
def ofBinary (negative : Bool) (x : Binary) : Decimal :=
  if x.significand = 0 then ⟨negative, 0, 0⟩
  else
    let top := (x.exponent + x.significand.log2 + 1) * 30103 / 100000 + 1
    let hit := (List.range 20).findSome? fun (i : Nat) => (onGrid? x (top - i)).map (·, top - i)
    let (digits, exponent) := hit.getD (0, 0)
    ⟨negative, digits, exponent⟩

/-- The decimal that a number is written as; none if it is too large for a binary fraction. -/
def read? (x : Decimal) : Option Decimal := do
  let significand ← Binary.ofRatio? x.digits 1
  return ofBinary x.negative (← significand.scale? x.exponent)

/-- The text of a decimal: positional while the point stands within the sixteen digits before or
the five digits after it, scientific with a signed exponent beyond. -/
def text (x : Decimal) : List Char :=
  let ds := Text.digits x.digits
  let point := ds.length + x.exponent
  let body :=
    if 0 ≤ x.exponent && point ≤ 16 then
      ds ++ List.replicate x.exponent.toNat '0' ++ ['.', '0']
    else if 0 < point && point ≤ 16 then
      ds.take point.toNat ++ '.' :: ds.drop point.toNat
    else if -5 < point && point ≤ 0 then
      '0' :: '.' :: List.replicate (-point).toNat '0' ++ ds
    else
      let fraction := if ds.length = 1 then [] else '.' :: ds.drop 1
      let exponent := point - 1
      ds.take 1 ++ fraction ++ 'e' :: (if exponent < 0 then '-' else '+')
        :: Text.digits exponent.natAbs
  if x.negative then '-' :: body else body

end Decimal

end TokenAuthority.Text
