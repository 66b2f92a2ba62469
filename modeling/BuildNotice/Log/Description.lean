import BuildNotice.Failure
import BuildNotice.Value.Json

namespace BuildNotice.Log

open Value (Fields)

namespace Description

def isErrorLike : Value → Bool
  | .record _ fields =>
    match Record.get? "message" fields with
    | some (.text _) => true
    | _ => false
  | _ => false

def messageOf (fields : Fields) : String :=
  match Record.get? "message" fields with
  | some (.text s) => s
  | _ => ""

mutual

def fullMessage : Value → String
  | .record _ fields => messageOf fields ++ causeMessages fields
  | _ => ""

def causeMessages : List (String × Value) → String
  | [] => ""
  | f :: fs => (causeMessage f).getD (causeMessages fs)

def causeMessage : String × Value → Option String
  | (key, v) =>
    if key = "cause" then some (if isErrorLike v then ": " ++ fullMessage v else "") else none

end

def stackOf (fields : Fields) : Value :=
  let stack := (Record.get? "stack" fields).getD .undefined
  if stack.isTruthy then stack else .text ""

mutual

def fullStack : Value → Value
  | .record _ fields =>
    match causeStacks fields with
    | none => stackOf fields
    | some text => .text (Fault.shown (stackOf fields) ++ text)
  | _ => .text ""

def causeStacks : List (String × Value) → Option String
  | [] => none
  | f :: fs => (causeStack f).getD (causeStacks fs)

def causeStack : String × Value → Option (Option String)
  | (key, v) =>
    if key = "cause" then
      some (if isErrorLike v then some ("\ncaused by: " ++ Fault.shown (fullStack v)) else none)
    else none

end

def typeOf (fields : Fields) : Value :=
  if Record.has "constructor" fields then (Record.get? "name" fields).getD .undefined
  else .text "Object"

def isTaken (key : String) (described : Fields) : Bool :=
  let v := (Record.get? key described).getD .undefined
  Value.Json.isShown v || Value.recordNames.contains key || key == "raw"

mutual

def ofValue (v : Value) : Value :=
  match v with
  | .record label fields =>
    if isErrorLike (.record label fields) then
      let head := [("type", typeOf fields), ("message", .text (fullMessage (.record label fields))),
        ("stack", fullStack (.record label fields))] ++ aggregated fields
      .record label (Record.merge head (carried head fields))
    else .record label fields
  | v => v

def aggregated : List (String × Value) → Fields
  | [] => []
  | f :: fs =>
    match aggregate f with
    | some items => [("aggregateErrors", .list 0 items)]
    | none => aggregated fs

def aggregate : String × Value → Option (List Value)
  | (key, .list _ items) => if key = "errors" then some (ofValues items) else none
  | _ => none

def ofValues : List Value → List Value
  | [] => []
  | v :: vs => ofValue v :: ofValues vs

def carried (head : Fields) : List (String × Value) → Fields
  | [] => []
  | f :: fs => carry head f ++ carried head fs

def carry (head : Fields) : String × Value → Fields
  | (key, v) =>
    if isTaken key head || (key == "cause" && isErrorLike v) then [] else [(key, ofValue v)]

end

def faultFields (f : Fault) : Fields :=
  let subject := match f.kind with
    | .templateNotFound => [("templatePath", f.subject)]
    | .undefinedKey => [("key", f.subject)]
    | _ => []
  [("isOperational", .bool f.operational), ("code", f.code), ("context", f.context)] ++ subject ++
    [("name", .text f.kind.name)]

def issuesName : String := "ZodError"

def issuesMessage (issues : List Value) : String :=
  Value.Json.text 0 (Value.ofItems issues)

def message : Failure → Value
  | .fault f => .text f.message
  | .error _ m => .text m
  | .issues items => .text (issuesMessage items)
  | .thrown v => v.own "message"

def ofFailure : Failure → Value
  | .fault f =>
    Value.ofFields ([("type", .text f.kind.name), ("message", .text f.message)] ++
      (faultFields f).map fun (key, v) => (key, ofValue v))
  | .error kind m => Value.ofFields [("type", .text kind.name), ("message", .text m)]
  | .issues items =>
    Value.ofFields [("type", .text issuesName), ("message", .text (issuesMessage items)),
      ("aggregateErrors", Value.ofItems (ofValues items)), ("issues", Value.ofItems items),
      ("name", .text issuesName)]
  | .thrown v => ofValue v

def plain : Failure → Value
  | .fault f => Value.ofFields f.toFields
  | .error _ _ => Value.ofFields []
  | .issues items =>
    Value.ofFields [("issues", Value.ofItems items), ("name", .text issuesName)]
  | .thrown v => v

end Description

end BuildNotice.Log
