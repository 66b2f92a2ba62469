import BuildNotice.Value.Print
import BuildNotice.Decimal.Read

/-! A text or a composite on either side joins texts, everything else adds as numbers; none where a value
has no text. -/

namespace BuildNotice.Value

def isComposite : Value → Bool
  | .list _ _ => true
  | .record _ _ => true
  | _ => false

def plain? (v : Value) : Option Value :=
  if v.isComposite then v.print?.map .text else some v

def isText : Value → Bool
  | .text _ => true
  | _ => false

def toNumber : Value → Float
  | .null => 0
  | .bool b => if b then 1 else 0
  | .number x => x
  | .text s => Decimal.Read.ofText s
  | _ => Decimal.Read.notANumber

def addPlain (v w : Value) : Option Value :=
  if v.isText || w.isText then
    match v.print?, w.print? with
    | some s, some t => some (.text (s ++ t))
    | _, _ => none
  else some (.number (v.toNumber + w.toNumber))

def add? (v w : Value) : Option Value :=
  match plain? v, plain? w with
  | some v, some w => addPlain v w
  | _, _ => none

def plainAgree : Value → Value → Bool
  | .text s, .text t => s == t
  | v, w => v.toNumber == w.toNumber

/-- Loose agreement: composites by their labels, null with undefined, a composite with a plain
value through its text, and plain values through their numbers. -/
def agree? : Value → Value → Option Bool
  | .list l _, .list m _ => some (l == m)
  | .record l _, .record m _ => some (l == m)
  | .list _ _, .record _ _ => some false
  | .record _ _, .list _ _ => some false
  | v, w =>
    if v.isNullish || w.isNullish then some (v.isNullish && w.isNullish)
    else match plain? v, plain? w with
      | some v, some w => some (plainAgree v w)
      | _, _ => none

def same : Value → Value → Bool
  | .undefined, .undefined => true
  | .null, .null => true
  | .bool a, .bool b => a == b
  | .number x, .number y => x == y
  | .text s, .text t => s == t
  | .list l _, .list m _ => l == m
  | .record l _, .record m _ => l == m
  | _, _ => false

def sameOrNaN : Value → Value → Bool
  | .number x, .number y => x == y || (x.isNaN && y.isNaN)
  | v, w => same v w

end BuildNotice.Value
