import BuildNotice.Template.Scope

namespace BuildNotice.Template

open Value (Fields)

inductive Helper where
  | if
  | unless
  | each
  | with
  | lookup
  | log
  | join
  | has
  | property
  deriving DecidableEq

namespace Helper

abbrev Runner := Value → Option BlockArgs → Render Value

structure Options where
  this : Value
  hash : Fields
  ids : List Value
  body : Option Runner
  alternative : Option Runner

def table : List (String × Helper) :=
  [("if", .if), ("unless", .unless), ("each", .each), ("with", .with), ("lookup", .lookup),
    ("log", .log), ("join", .join), ("has", .has), ("property", .property)]

def ofName? (name : String) : Option Helper := Record.get? name table

def reserved : List String :=
  ["helperMissing", "blockHelperMissing", "each", "if", "unless", "with", "log", "lookup"]

def require (args : List Value) (ids : List Value) (name : String) : Render Unit :=
  match args.head? with
  | some .undefined =>
    match ids.head? with
    | some (.text id) =>
      fail (.missingArgument (if id = "" then "argument 1 of " ++ name else id))
    | _ => fail (.missingArgument ("argument 1 of " ++ name))
  | _ => pure ()

def run (body : Option Runner) (context : Value) (args : Option BlockArgs) : Render Value :=
  match body with
  | some f => f context args
  | none => fail .wrongKind

def appendPath (path id : Value) : Render String := do
  let id ← ofOption id.print?
  if path.isTruthy then pure ((← ofOption path.print?) ++ "." ++ id) else pure id

def argumentPath (o : Options) : Render String := do
  appendPath (← getData "contextPath") (o.ids.headD .undefined)

def choose (condition : Bool) (o : Options) : Render Value :=
  if condition then run o.body o.this none else run o.alternative o.this none

def holds (v : Value) (hash : Fields) : Bool :=
  let includeZero := ((Record.get? "includeZero" hash).getD .undefined).isTruthy
  !((!includeZero && !v.isTruthy) || v.isEmpty)

def single (name : String) (args : List Value) (k : Value → Render Value) : Render Value :=
  match args with
  | [v] => k v
  | _ => fail (.failure (name ++ " requires exactly one argument"))

def eachItem (o : Options) (path : String) (key : Value) (keyText : String) (index : Nat)
    (last : Bool) (v : Value) (acc : Value) : Render Value := do
  setData "key" key
  setData "index" (.number index.toFloat)
  setData "first" (.bool (index = 0))
  setData "last" (.bool last)
  setData "contextPath" (.text (path ++ keyText))
  let out ← run o.body v (some ⟨[v, key], some [.text (path ++ keyText), .null]⟩)
  ofOption (acc.add? out)

def eachFrom (o : Options) (path : String) :
    List (Value × String × Value) → Nat → Value → Render Value
  | [], _, acc => pure acc
  | (key, keyText, v) :: rest, index, acc => do
    let acc ← eachItem o path key keyText index rest.isEmpty v acc
    eachFrom o path rest (index + 1) acc

def entries : Value → List (Value × String × Value)
  | .list _ items =>
    items.zipIdx.map fun (v, i) => (.number i.toFloat, toString i, v)
  | .record _ fields => fields.map fun (k, v) => (.text k, k, v)
  | _ => []

def eachOf (v : Value) (o : Options) : Render Value := do
  let path ← argumentPath o
  match entries v with
  | [] => run o.alternative o.this none
  | e :: es => inFrame (eachFrom o (path ++ ".") (e :: es) 0 (.text ""))

def eachCall (args : List Value) (o : Options) : Render Value :=
  match args with
  | [] => fail (.failure "Must pass iterator to #each")
  | [v] => eachOf v o
  | _ :: options :: _ =>
    if options.isTruthy then fail .wrongKind
    else fail (.failure "Must pass iterator to #each")

def withContext (v : Value) (o : Options) : Render Value :=
  if v.isEmpty then run o.alternative o.this none
  else do
    let path ← argumentPath o
    inFrame do
      setData "contextPath" (.text path)
      run o.body v (some ⟨[v], some [.text path]⟩)

def lookupOf (args : List Value) : Render Value :=
  match args with
  | [] => fail (.memberOfNothing "undefined" "lookupProperty")
  | [v] =>
    if v.isTruthy then fail (.memberOfNothing "undefined" "lookupProperty") else pure v
  | [v, key] =>
    if v.isTruthy then do pure (v.own (← ofOption key.print?)) else pure v
  | v :: _ :: options :: _ =>
    if v.isTruthy then
      if options.isNullish then fail (.memberOfNothing (nothingText options) "lookupProperty")
      else fail .wrongKind
    else pure v

def textOr (default : String) : Option Value → String
  | some (.text s) => s
  | _ => default

def printAll? : List Value → Option (List String)
  | [] => some []
  | v :: vs =>
    match v.print?, printAll? vs with
    | some t, some ts => some (t :: ts)
    | _, _ => none

def joinOf (args : List Value) : Render Value :=
  match args.head? with
  | some (.list _ items) => do
    pure (.text (String.intercalate (textOr ", " args[1]?) (← ofOption (printAll? items))))
  | _ => pure (.text "")

def hasOf (args : List Value) : Bool :=
  match args with
  | v :: .text key :: _ => v.isComposite && !(v.own key).isNullish
  | _ => false

def propertyOf (args : List Value) : Value :=
  let default := Value.text (textOr "" args[2]?)
  match args with
  | build :: .text name :: _ =>
    if build.isComposite && build.knows "properties" then
      let properties := build.own "properties"
      if properties.isComposite then
        match properties.own name with
        | .list _ items => items.headD .undefined
        | _ => default
      else default
    else default
  | _ => default

def call (h : Helper) (args : List Value) (o : Options) : Render Value :=
  match h with
  | .if => do
    require args o.ids "#if"
    single "#if" args fun v => choose (holds v o.hash) o
  | .unless => do
    require args o.ids "#unless"
    single "#unless" args fun v => choose (!holds v o.hash) o
  | .each => do
    require args o.ids "#each"
    eachCall args o
  | .with => do
    require args o.ids "#with"
    single "#with" args fun v => withContext v o
  | .lookup => lookupOf args
  | .log => pure .undefined
  | .join => do
    require args o.ids "join"
    joinOf args
  | .has => do
    require args o.ids "has"
    pure (.bool (hasOf args))
  | .property => do
    require args o.ids "property"
    pure (propertyOf args)

def sectionOf (v : Value) (name : String) (o : Options) : Render Value :=
  match v with
  | .bool true => run o.body o.this none
  | .bool false => run o.alternative o.this none
  | .undefined => run o.alternative o.this none
  | .null => run o.alternative o.this none
  | .list _ items =>
    if items.isEmpty then run o.alternative o.this none
    else eachOf v { o with ids := [.text name] }
  | _ => do
    let path ← appendPath (← getData "contextPath") (.text name)
    inFrame do
      setData "contextPath" (.text path)
      run o.body v none

end Helper

end BuildNotice.Template
