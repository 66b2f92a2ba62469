/-! The double nearest to an exact quotient of naturals, rounded once. -/

namespace BuildNotice.Decimal.Nearest

def roundDiv (num den : Nat) : Nat :=
  let below := num / den
  let rest := 2 * (num % den)
  if rest < den then below
  else if den < rest then below + 1
  else if below % 2 = 0 then below else below + 1

def inUnits (num den : Nat) (e : Int) : Nat × Nat :=
  (num * Nat.pow 2 (-e).toNat, den * Nat.pow 2 e.toNat)

def unitExponent (num den : Nat) : Int :=
  let e : Int := max (-1074) ((Nat.log2 num : Int) - Nat.log2 den - 53)
  let (n, d) := inUnits num den e
  if n < Nat.pow 2 53 * d then e else e + 1

/-- Exponent and digits lie next to each other in the bits, so a carry out of the digits is a
carry into the exponent, and past the last exponent it is infinity. -/
def bits (num den : Nat) : Nat :=
  let e := unitExponent num den
  let (n, d) := inUnits num den e
  min (2047 * Nat.pow 2 52) ((e + 1074).toNat * Nat.pow 2 52 + roundDiv n d)

def ofQuotient (num den : Nat) : Float :=
  if num = 0 then 0 else Float.ofBits (bits num den).toUInt64

def ofScientific (m : Nat) (e : Int) : Float :=
  if m = 0 then 0
  else if 400 < e then Float.ofBits 0x7ff0000000000000
  else if e < -400 - (Nat.log2 m : Int) then 0
  else ofQuotient (m * Nat.pow 10 e.toNat) (Nat.pow 10 (-e).toNat)

end BuildNotice.Decimal.Nearest
