/-!
# Doubles as exact numbers

A finite double is a sign and a whole mantissa times a power of two. `Binary64.ofFloat?` reads these
off the bits, and `roundQuotient` divides naturals, going to the nearest and from a half to the even
neighbour.
-/

namespace GuardedHttp.Numeric

/-- A finite double: `± mantissa * 2 ^ exponent`. -/
structure Binary64 where
  /-- The number is negative, or a negative zero. -/
  negative : Bool
  /-- The whole mantissa, below `2 ^ 53`. -/
  mantissa : Nat
  /-- The power of two that scales it. -/
  exponent : Int
  /-- The next smaller double is only half as far away as the next larger one. -/
  narrowBelow : Bool
deriving DecidableEq

/-- The parts of a double, if it is finite. -/
def Binary64.ofFloat? (x : Float) : Option Binary64 :=
  let bits : Nat := x.toBits.toNat
  let negative := bits / Nat.pow 2 63 == 1
  let scale : Nat := bits / Nat.pow 2 52 % Nat.pow 2 11
  let fraction : Nat := bits % Nat.pow 2 52
  if scale = Nat.pow 2 11 - 1 then none
  else if scale = 0 then some ⟨negative, fraction, -1074, false⟩
  else some ⟨negative, Nat.pow 2 52 + fraction, (scale : Int) - 1075, fraction == 0 && scale > 1⟩

/-- The quotient `n / d` rounded to the nearest natural, a half going to the even neighbour. -/
def roundQuotient (n d : Nat) : Nat :=
  let q := n / d
  let twice := 2 * (n % d)
  if twice < d then q
  else if d < twice then q + 1
  else if q % 2 = 0 then q
  else q + 1

end GuardedHttp.Numeric
