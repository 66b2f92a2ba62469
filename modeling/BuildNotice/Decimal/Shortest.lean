/-! The fewest digits that still read back as the same double, and of those the nearest. -/

namespace BuildNotice.Decimal.Shortest

structure Binary where
  negative : Bool
  m : Nat
  e : Int

def Binary.ofFloat (x : Float) : Binary :=
  let bits : Nat := x.toBits.toNat
  let fraction : Nat := bits % Nat.pow 2 52
  let exponent : Nat := bits / Nat.pow 2 52 % Nat.pow 2 11
  let negative : Bool := Nat.pow 2 63 ≤ bits
  if exponent = 0 then ⟨negative, fraction, -1074⟩
  else ⟨negative, Nat.pow 2 52 + fraction, (exponent : Int) - 1075⟩

structure Digits where
  digits : Nat
  exponent : Int

def twoPow (e : Int) : Nat := Nat.pow 2 e.toNat

def tenPow (e : Int) : Nat := Nat.pow 10 e.toNat

def scale (e k : Int) : Nat := twoPow (e - 2) * tenPow (-k)

def step (e k : Int) : Nat := twoPow (2 - e) * tenPow k

/-- The numbers that read back as `m * 2 ^ e`, in quarter units: half a unit to either side, less
below a power of two, with the ends when `m` is even. -/
def lowQuarters (m : Nat) (e : Int) : Nat :=
  if m = Nat.pow 2 52 ∧ -1074 < e then 4 * m - 1 else 4 * m - 2

def readsBack (m : Nat) (e k : Int) (d : Nat) : Bool :=
  let value := d * step e k
  let low := lowQuarters m e * scale e k
  let high := (4 * m + 2) * scale e k
  if m % 2 = 0 then low ≤ value ∧ value ≤ high else low < value ∧ value < high

def onGrid? (m : Nat) (e k : Int) : Option Nat :=
  let num := 4 * m * scale e k
  let den := step e k
  let below := num / den
  let above := below + 1
  match readsBack m e k below, readsBack m e k above with
  | true, true =>
    let fromBelow := num - below * den
    let toAbove := above * den - num
    if fromBelow < toAbove then some below
    else if toAbove < fromBelow then some above
    else if below % 2 = 0 then some below else some above
  | true, false => some below
  | false, true => some above
  | false, false => none

def leadingPlace (m : Nat) (e : Int) : Int :=
  let whole := m * twoPow e * Nat.pow 10 330 / twoPow (-e)
  ((Nat.toDigits 10 whole).length : Int) - 331

def search (m : Nat) (e place : Int) : (more used : Nat) → Digits
  | 0, _ => ⟨0, 0⟩
  | more + 1, used =>
    let k := place - used
    match onGrid? m e k with
    | some d => ⟨d, k⟩
    | none => search m e place more (used + 1)

/-- Seventeen digits tell any two doubles apart, so the search ends by then. -/
def shortest (m : Nat) (e : Int) : Digits :=
  search m e (leadingPlace m e) 18 0

end BuildNotice.Decimal.Shortest
