/-!
# Rounding of quotients

Quotients of natural numbers, rounded to a whole number, to a binary fraction of 53 digits or to a
number of decimal places. A quotient halfway between two candidates goes to the even one.
-/

namespace Unsugar.Decimal

/-- The whole number nearest to `num / den`; a half goes to the even neighbour. -/
def roundDiv (num den : Nat) : Nat :=
  let q := num / den
  let r := 2 * (num % den)
  if r < den then q
  else if den < r then q + 1
  else if q % 2 = 0 then q else q + 1

/-- A quotient of natural numbers. -/
structure Ratio where
  num : Nat
  den : Nat
deriving DecidableEq, Repr

namespace Ratio

/-- The sum of two quotients. -/
def add (a b : Ratio) : Ratio :=
  ⟨a.num * b.den + b.num * a.den, a.den * b.den⟩

/-- A quotient rounded to a multiple of `2 ^ (-scale)`. -/
def roundBinary (r : Ratio) (scale : Nat) : Ratio :=
  ⟨roundDiv (r.num * Nat.pow 2 scale) r.den, Nat.pow 2 scale⟩

/-- The number of a double precision float nearest to a quotient: it keeps 53 binary digits from the
first that is not zero. The range of exponents is not limited. -/
def toDouble (r : Ratio) : Ratio :=
  if r.num = 0 then ⟨0, 1⟩
  else if r.num < r.den then
    r.roundBinary (53 + ((r.den - 1) / r.num).log2)
  else
    let digits := (r.num / r.den).log2
    if digits ≤ 52 then r.roundBinary (52 - digits)
    else
      let unit := Nat.pow 2 (digits - 52)
      ⟨roundDiv r.num (r.den * unit) * unit, 1⟩

/-- A quotient with a fixed number of decimal places. -/
def fixed (r : Ratio) (places : Nat) : String :=
  let scaled := roundDiv (r.num * Nat.pow 10 places) r.den
  let whole := (scaled / Nat.pow 10 places).repr
  let fraction := (scaled % Nat.pow 10 places).repr
  whole ++ "." ++ "".pushn '0' (places - fraction.length) ++ fraction

end Ratio

end Unsugar.Decimal
