
namespace BuildNotice.Calendar

def dayLength : Int := 86400000

structure Date where
  year : Int
  month : Int
  day : Int

def dateOf (day : Int) : Date :=
  let shifted := day + 719468
  let era := shifted.fdiv 146097
  let dayOfEra := shifted.fmod 146097
  let yearOfEra := (dayOfEra - dayOfEra / 1460 + dayOfEra / 36524 - dayOfEra / 146096) / 365
  let dayOfYear := dayOfEra - (365 * yearOfEra + yearOfEra / 4 - yearOfEra / 100)
  let monthFromMarch := (5 * dayOfYear + 2) / 153
  let month := if monthFromMarch < 10 then monthFromMarch + 3 else monthFromMarch - 9
  let year := yearOfEra + era * 400
  ⟨if month ≤ 2 then year + 1 else year, month, dayOfYear - (153 * monthFromMarch + 2) / 5 + 1⟩

def padded (width : Nat) (n : Nat) : List Char :=
  let digits := Nat.toDigits 10 n
  List.replicate (width - digits.length) '0' ++ digits

def yearText (year : Int) : List Char :=
  if 0 ≤ year ∧ year ≤ 9999 then padded 4 year.toNat
  else (if year < 0 then '-' else '+') :: padded 6 year.natAbs

def two (n : Int) : List Char := padded 2 n.toNat

def dateText (d : Date) : List Char :=
  yearText d.year ++ '-' :: two d.month ++ '-' :: two d.day

def timeText (ms : Int) : List Char :=
  two (ms / 3600000) ++ ':' :: two (ms / 60000 % 60) ++ ':' :: two (ms / 1000 % 60) ++
    '.' :: padded 3 (ms % 1000).toNat

def text (ms : Int) : String :=
  String.ofList (dateText (dateOf (ms.fdiv dayLength)) ++ 'T' :: timeText (ms.fmod dayLength) ++
    ['Z'])

def farthest : Float := 8.64e15

def textOf? (ms : Float) : Option String :=
  if ms.abs ≤ farthest then some (text ms.toInt64.toInt) else none

end BuildNotice.Calendar
