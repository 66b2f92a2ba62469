import BuildNotice.Decimal.Nearest
import BuildNotice.Text.Blank
import BuildNotice.Text.Search

namespace BuildNotice.Decimal.Read

open BuildNotice.Text

def digitsValue (cs : List Char) : Nat :=
  cs.foldl (fun n c => 10 * n + (c.toNat - '0'.toNat)) 0

structure Parts where
  whole : List Char
  fraction : List Char
  exponent : Int

def Parts.value (p : Parts) : Float :=
  Nearest.ofScientific (digitsValue (p.whole ++ p.fraction)) (p.exponent - p.fraction.length)

def signed (negative : Bool) (x : Float) : Float :=
  if negative then -x else x

def takeSign : List Char → Bool × List Char
  | '-' :: cs => (true, cs)
  | '+' :: cs => (false, cs)
  | cs => (false, cs)

def takeFraction : List Char → List Char × List Char
  | '.' :: cs => (cs.takeWhile Char.isDigit, cs.dropWhile Char.isDigit)
  | cs => ([], cs)

def takeExponent : List Char → Option (Int × List Char)
  | [] => some (0, [])
  | c :: cs =>
    if c == 'e' || c == 'E' then
      let (negative, rest) := takeSign cs
      let digits := rest.takeWhile Char.isDigit
      if digits.isEmpty then none
      else
        let n : Int := digitsValue digits
        some (if negative then -n else n, rest.dropWhile Char.isDigit)
    else some (0, c :: cs)

def unsigned? (cs : List Char) : Option Float :=
  let whole := cs.takeWhile Char.isDigit
  let (fraction, rest) := takeFraction (cs.dropWhile Char.isDigit)
  if whole.isEmpty && fraction.isEmpty then none
  else match takeExponent rest with
    | some (e, []) => some (Parts.value ⟨whole, fraction, e⟩)
    | _ => none

def literal (cs : List Char) : Float :=
  let (negative, rest) := takeSign cs
  signed negative ((unsigned? rest).getD 0)

def digitIn? (base : Nat) (c : Char) : Option Nat :=
  let n :=
    if c.isDigit then c.toNat - '0'.toNat
    else if 'a' ≤ c && c ≤ 'f' then c.toNat - 'a'.toNat + 10
    else if 'A' ≤ c && c ≤ 'F' then c.toNat - 'A'.toNat + 10
    else base
  if n < base then some n else none

def inBase? (base : Nat) (cs : List Char) : Option Float :=
  if cs.isEmpty then none
  else
    (cs.foldlM (fun n c => (digitIn? base c).map (base * n + ·)) 0).map fun n =>
      Nearest.ofScientific n 0

def notANumber : Float := 0.0 / 0.0

def ofText (s : String) : Float :=
  match Blank.trim s.toList with
  | [] => 0
  | '0' :: 'x' :: cs => (inBase? 16 cs).getD notANumber
  | '0' :: 'X' :: cs => (inBase? 16 cs).getD notANumber
  | '0' :: 'o' :: cs => (inBase? 8 cs).getD notANumber
  | '0' :: 'O' :: cs => (inBase? 8 cs).getD notANumber
  | '0' :: 'b' :: cs => (inBase? 2 cs).getD notANumber
  | '0' :: 'B' :: cs => (inBase? 2 cs).getD notANumber
  | cs =>
    let (negative, rest) := takeSign cs
    if rest = "Infinity".toList then signed negative (1.0 / 0.0)
    else ((unsigned? rest).map (signed negative)).getD notANumber

end BuildNotice.Decimal.Read
