import BuildNotice.Decimal.Shortest

/-! Whole numbers below `2 ^ 53` print their own digits, any other finite number its shortest decimal. -/

namespace BuildNotice.Decimal.Print

open BuildNotice.Decimal.Shortest

def zeros (n : Nat) : List Char := List.replicate n '0'

def exponentText (e : Int) : List Char :=
  'e' :: (if e < 0 then '-' else '+') :: Nat.toDigits 10 e.natAbs

def widest : Int := 21

def finest : Int := -6

def layout (digits : List Char) (point : Int) : List Char :=
  let k : Int := digits.length
  if k ≤ point ∧ point ≤ widest then digits ++ zeros (point - k).toNat
  else if 0 < point ∧ point ≤ widest then
    digits.take point.toNat ++ '.' :: digits.drop point.toNat
  else if finest < point ∧ point ≤ 0 then
    '0' :: '.' :: (zeros (-point).toNat ++ digits)
  else match digits with
    | [d] => d :: exponentText (point - 1)
    | d :: ds => d :: '.' :: (ds ++ exponentText (point - 1))
    | [] => []

def positive (m : Nat) (e : Int) : List Char :=
  let found := shortest m e
  let digits := Nat.toDigits 10 found.digits
  let kept := (digits.reverse.dropWhile (· == '0')).reverse
  layout kept (found.exponent + digits.length)

def whole? (m : Nat) (e : Int) : Option Nat :=
  let n := m * twoPow e
  if n % twoPow (-e) = 0 ∧ n / twoPow (-e) < Nat.pow 2 53 then some (n / twoPow (-e)) else none

def magnitude (m : Nat) (e : Int) : List Char :=
  match whole? m e with
  | some n => Nat.toDigits 10 n
  | none => positive m e

def print (x : Float) : String :=
  if x.isNaN then "NaN"
  else if x.isInf then (if x < 0 then "-Infinity" else "Infinity")
  else
    let b := Binary.ofFloat x
    String.ofList (if b.negative && b.m != 0 then '-' :: magnitude b.m b.e else magnitude b.m b.e)

end BuildNotice.Decimal.Print
