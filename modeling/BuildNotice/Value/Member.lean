import BuildNotice.Value
import BuildNotice.Text.Units

/-! Names that every record or every list knows from the start count as present, and their values are
withheld. -/

namespace BuildNotice.Value

def recordNames : List String :=
  ["constructor", "__defineGetter__", "__defineSetter__", "hasOwnProperty", "__lookupGetter__",
    "__lookupSetter__", "isPrototypeOf", "propertyIsEnumerable", "toString", "valueOf", "__proto__",
    "toLocaleString"]

def listNames : List String :=
  ["at", "concat", "copyWithin", "entries", "every", "fill", "filter", "find", "findIndex",
    "findLast", "findLastIndex", "flat", "flatMap", "forEach", "includes", "indexOf", "join", "keys",
    "lastIndexOf", "map", "pop", "push", "reduce", "reduceRight", "reverse", "shift", "slice", "some",
    "sort", "splice", "toReversed", "toSorted", "toSpliced", "unshift", "values", "with"]

def own? (v : Value) (key : String) : Option Value :=
  match v with
  | .record _ fields => Record.get? key fields
  | .list _ items =>
    if key = "length" then some (.number items.length.toFloat)
    else (Record.index? key).bind (items[·]?)
  | .text s =>
    if key = "length" then some (.number (Text.Units.length s).toFloat)
    else (Record.index? key).bind fun i =>
      (Text.Units.at? s.toList i).map fun c => .text (String.singleton c)
  | _ => none

def own (v : Value) (key : String) : Value :=
  (v.own? key).getD .undefined

def knows (v : Value) (key : String) : Bool :=
  match v with
  | .record _ fields => Record.has key fields || recordNames.contains key
  | .list _ _ => (v.own? key).isSome || listNames.contains key || recordNames.contains key
  | _ => false

def spread : Value → Fields
  | .record _ fields => fields
  | .list _ items => items.zipIdx.map fun (v, i) => (toString i, v)
  | .text s =>
    (List.range (Text.Units.length s)).filterMap fun i =>
      (Text.Units.at? s.toList i).map fun c => (toString i, .text (String.singleton c))
  | _ => []

end BuildNotice.Value
