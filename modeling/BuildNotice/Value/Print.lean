import BuildNotice.Value
import BuildNotice.Decimal.Print

/-! The text of a value. A record that brings a `toString` field of its own has none, nor has a list that
holds one. -/

namespace BuildNotice.Value

def recordText : String := "[object Object]"

mutual

def print? : Value → Option String
  | .undefined => some "undefined"
  | .null => some "null"
  | .bool b => some (if b then "true" else "false")
  | .number x => some (Decimal.Print.print x)
  | .text s => some s
  | .list _ items => (printItems? items).map (String.intercalate ",")
  | .record _ fields => if Record.has "toString" fields then none else some recordText

def printItems? : List Value → Option (List String)
  | [] => some []
  | v :: vs =>
    match printItem? v, printItems? vs with
    | some t, some ts => some (t :: ts)
    | _, _ => none

def printItem? : Value → Option String
  | .undefined => some ""
  | .null => some ""
  | .bool b => some (if b then "true" else "false")
  | .number x => some (Decimal.Print.print x)
  | .text s => some s
  | .list _ items => (printItems? items).map (String.intercalate ",")
  | .record _ fields => if Record.has "toString" fields then none else some recordText

end

theorem printItem?_eq (v : Value) :
    printItem? v = if v.isNullish then some "" else print? v := by
  cases v <;> simp [printItem?, print?, isNullish]

end BuildNotice.Value
