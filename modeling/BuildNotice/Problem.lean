import BuildNotice.Fault

namespace BuildNotice

open Value (Fields)

inductive Problem where
  | wrongType (path : List String) (expected received : String)
  | empty (path : List String) (message : String)
  | noChoice (path : List String) (choices : List String) (received : String)
  | unknownKeys (keys : List String)

namespace Problem

def typeName : Value → String
  | .undefined => "undefined"
  | .null => "null"
  | .bool _ => "boolean"
  | .number x => if x.isNaN then "nan" else "number"
  | .text _ => "string"
  | .list _ _ => "array"
  | .record _ _ => "object"

def quoted (s : String) : String := "'" ++ s ++ "'"

def choiceText (choices : List String) : String :=
  String.intercalate " | " (choices.map quoted)

def path : Problem → List String
  | .wrongType path _ _ => path
  | .empty path _ => path
  | .noChoice path _ _ => path
  | .unknownKeys _ => []

def message : Problem → String
  | .wrongType _ expected received =>
    if received = "undefined" then "Required"
    else "Expected " ++ expected ++ ", received " ++ received
  | .empty _ message => message
  | .noChoice _ choices received =>
    "Invalid enum value. Expected " ++ choiceText choices ++ ", received " ++ quoted received
  | .unknownKeys keys =>
    "Unrecognized key(s) in object: " ++ String.intercalate ", " (keys.map quoted)

def text (p : Problem) : String :=
  if p.path.isEmpty then p.message
  else String.intercalate "." p.path ++ ": " ++ p.message

def texts (keys : List String) : Value := Value.ofItems (keys.map .text)

def details : Problem → Fields
  | .wrongType _ expected received =>
    [("code", .text "invalid_type"), ("expected", .text expected), ("received", .text received)]
  | .empty _ _ =>
    [("code", .text "too_small"), ("minimum", .number 1), ("type", .text "string"),
      ("inclusive", .bool true), ("exact", .bool false)]
  | .noChoice _ choices received =>
    [("received", .text received), ("code", .text "invalid_enum_value"),
      ("options", texts choices)]
  | .unknownKeys keys => [("code", .text "unrecognized_keys"), ("keys", texts keys)]

def toValue (p : Problem) : Value :=
  Value.ofFields (p.details ++ [("path", texts p.path), ("message", .text p.message)])

def ofResult {α : Type} : Except Problem α → List Problem
  | .ok _ => []
  | .error p => [p]

end Problem

end BuildNotice
