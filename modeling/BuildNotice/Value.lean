import BuildNotice.Record

/-! Two lists or records are the same one exactly when their labels agree; a composite made here takes a
label above all labels inside it. -/

namespace BuildNotice

inductive Value where
  | undefined
  | null
  | bool (b : Bool)
  | number (x : Float)
  | text (s : String)
  | list (label : Nat) (items : List Value)
  | record (label : Nat) (fields : List (String × Value))
  deriving Inhabited

namespace Value

abbrev Fields := List (String × Value)

mutual

def bound : Value → Nat
  | .list label items => max (label + 1) (itemsBound items)
  | .record label fields => max (label + 1) (fieldsBound fields)
  | _ => 1

def itemsBound : List Value → Nat
  | [] => 1
  | v :: vs => max v.bound (itemsBound vs)

def fieldsBound : List (String × Value) → Nat
  | [] => 1
  | f :: fs => max (fieldBound f) (fieldsBound fs)

def fieldBound : String × Value → Nat
  | (_, v) => v.bound

end

def ofItems (items : List Value) : Value := .list (itemsBound items) items

def ofFields (fields : Fields) : Value := .record (fieldsBound fields) fields

def nothing : Value := .record 0 []

def isNullish : Value → Bool
  | .undefined => true
  | .null => true
  | _ => false

def isTruthy : Value → Bool
  | .undefined => false
  | .null => false
  | .bool b => b
  | .number x => !(x == 0 || x.isNaN)
  | .text s => s != ""
  | .list _ _ => true
  | .record _ _ => true

def isEmpty : Value → Bool
  | .number x => x.isNaN
  | .list _ items => items.isEmpty
  | v => !v.isTruthy

def fields : Value → Fields
  | .record _ fields => fields
  | _ => []

end Value

end BuildNotice
