import BuildNotice.Template.Levels
import BuildNotice.Template.Escape

/-! The value of a program is the sum of what its statements give, taken from the left. -/

namespace BuildNotice.Template

open Value (Fields)

inductive CallKind where
  | helper
  | ambiguous
  | simple
  deriving DecidableEq

def Call.kind (names : List (List String)) (c : Call) : CallKind :=
  if c.callee.isSimple ∧ (declared? c.callee.head names).isSome then .simple
  else if !c.isBare then .helper
  else if c.callee.isSimple then
    if Helper.reserved.contains c.callee.head then .helper else .ambiguous
  else .simple

namespace Render

open Helper (Runner Options)

def this (sc : Scope) : Value :=
  if sc.context.isNullish then .nothing else sc.context

def dropThis : List Char → List Char
  | ['t', 'h', 'i', 's'] => []
  | 't' :: 'h' :: 'i' :: 's' :: '.' :: rest => rest
  | cs => cs

def dropHere : List Char → List Char
  | '.' :: '/' :: rest => rest
  | cs => cs

def pathId (written : String) : String :=
  let cs := dropHere (dropThis written.toList)
  String.ofList (if cs = ['.'] then [] else cs)

def exprId (sc : Scope) : Expr → Render Value
  | .path p =>
    match p.declared? sc.names with
    | some (depth, i) => do
      let path ← sc.argPath depth i
      match p.parts.tail with
      | [] => pure path
      | rest =>
        pure (.text ((← ofOption path.print?) ++ "." ++ String.intercalate "." rest))
    | none => pure (.text (pathId p.written))
  | .group _ => pure (.bool true)
  | _ => pure .null

def exprIds (sc : Scope) : List Expr → Render (List Value)
  | [] => pure []
  | e :: es => do
    let id ← exprId sc e
    pure (id :: (← exprIds sc es))

/-- Named arguments in the order in which they are evaluated: from the last to the first, the
first of one name in the place of the last. -/
def arrangeHash (pairs : List (String × Option (Render Value))) :
    List (String × Option (Render Value)) :=
  pairs.reverse.foldl (fun fields (key, act) => Record.set key act fields) []

def runHash : List (String × Option (Render Value)) → Render Fields
  | [] => pure []
  | (_, none) :: rest => runHash rest
  | (key, some act) :: rest => do
    let v ← act
    pure ((key, v) :: (← runHash rest))

structure Bodies where
  body : Option Runner
  alternative : Option Runner

def Bodies.none : Bodies := ⟨Option.none, Option.none⟩

/-- A call that is known to be one. What it calls is settled before its arguments, and a value
that is no helper cannot be called. -/
def applyHelper (sc : Scope) (callee : Path) (args : Render (List Value)) (hash : Render Fields)
    (ids : Render (List Value)) (bodies : Render Bodies) : Render Value :=
  let named : Option Helper :=
    if callee.isSimple || Helper.reserved.contains callee.head then Helper.ofName? callee.head
    else none
  match named with
  | some h => do
    let args ← args
    let hash ← hash
    let b ← bodies
    let ids ← ids
    h.call args ⟨this sc, hash, ids, b.body, b.alternative⟩
  | none =>
    if Helper.reserved.contains callee.head then fail (.memberOfNothing "undefined" "call")
    else do
      let v ← sc.lookup true callee
      if v.isNullish then fail (.memberOfNothing (nothingText v) "call")
      else
        let _ ← args
        let _ ← hash
        let _ ← bodies
        fail .wrongKind

mutual

def expr (sc : Scope) : Expr → Render Value
  | .string s => pure (.text s)
  | .number x => pure (.number x)
  | .boolean b => pure (.bool b)
  | .undefined => pure .undefined
  | .null => pure .null
  | .path p => sc.lookup false p
  | .group c => group sc c

def exprs (sc : Scope) : List Expr → Render (List Value)
  | [] => pure []
  | e :: es => do
    let v ← expr sc e
    pure (v :: (← exprs sc es))

def hashActs (sc : Scope) : List (String × Expr) → List (String × Option (Render Value))
  | [] => []
  | p :: ps => hashAct sc p :: hashActs sc ps

def hashAct (sc : Scope) : String × Expr → String × Option (Render Value)
  | (key, .undefined) => (key, none)
  | (key, e) => (key, some (expr sc e))

def group (sc : Scope) : Call → Render Value
  | .mk callee args hash =>
    if callee.isSimple ∧ (declared? callee.head sc.names).isSome then sc.lookup true callee
    else applyHelper sc callee (exprs sc args) (runHash (arrangeHash (hashActs sc hash)))
      (exprIds sc args) (pure .none)

end

def hash (sc : Scope) (pairs : List (String × Expr)) : Render Fields :=
  runHash (arrangeHash (hashActs sc pairs))

def helperCall (sc : Scope) (c : Call) (bodies : Render Bodies) : Render Value :=
  applyHelper sc c.callee (exprs sc c.args) (hash sc c.hash) (exprIds sc c.args) bodies

def bareHelper? (c : Call) : Option Helper := Helper.ofName? c.callee.head

def bareCall (sc : Scope) (h : Helper) (bodies : Bodies) : Render Value :=
  h.call [] ⟨this sc, [], [], bodies.body, bodies.alternative⟩

def outputValue (sc : Scope) (c : Call) : Render Value :=
  match c.kind sc.names with
  | .helper => helperCall sc c (pure .none)
  | .simple => sc.lookup true c.callee
  | .ambiguous =>
    match bareHelper? c with
    | some h => bareCall sc h .none
    | none => sc.lookup true c.callee

def output (sc : Scope) (escaped : Bool) (c : Call) : Render Value := do
  let v ← outputValue sc c
  if escaped && sc.escapes then pure (.text (← ofOption (Escape.value? v)))
  else pure (if v.isNullish then .text "" else v)

/-- The sum so far: complete before the last block that completed it, and what came since. -/
structure Sum where
  total : Option Value
  run : Option Value

def plus (x : Option Value) (v : Value) : Render Value :=
  match x with
  | none => pure v
  | some w => ofOption (w.add? v)

namespace Sum

def empty : Sum := ⟨none, none⟩

def add (s : Sum) (more : Bool) (v : Value) : Render Sum :=
  match s.total with
  | some total =>
    if more then do pure ⟨s.total, some (← plus s.run v)⟩
    else do pure ⟨some (← plus (some total) v), none⟩
  | none => do pure ⟨none, some (← plus s.run v)⟩

def complete (s : Sum) : Render Value :=
  match s.total, s.run with
  | some total, some run => plus (some total) run
  | some total, none => pure total
  | none, some run => pure run
  | none, none => pure (.text "")

/-- Adds what a statement gives. One that completes the sum is evaluated after that. -/
def step (s : Sum) (completing more : Bool) (act : Render (Option Value)) : Render Sum := do
  if completing then
    let total ← s.complete
    match ← act with
    | some v => pure ⟨some (← plus (some total) v), none⟩
    | none => pure ⟨some total, none⟩
  else
    match ← act with
    | some v => s.add more v
    | none => pure s

end Sum

/-- Runs a closure with a context: the arguments of the call, the templates known to the caller,
and the block that the caller passes on. -/
abbrev Invoke := Closure → Value → Option BlockArgs → Partials → Option Closure → Render Value

def argsValue : List (Option BlockArgs) → List Value
  | [] => []
  | some a :: rest => Value.ofItems a.values :: argsValue rest
  | none :: rest => .undefined :: argsValue rest

def indentLines (indent : String) (text : String) : String :=
  let lines := (Text.Search.splitOn '\n' text.toList).map String.ofList
  let last := lines.getLast?.getD ""
  let shown := lines.dropLast.map (indent ++ ·) ++ [if last = "" then "" else indent ++ last]
  String.intercalate "\n" shown

def indented (indent : String) (v : Value) : Render Value :=
  if indent = "" then pure v
  else match v with
    | .text s => pure (.text (indentLines indent s))
    | _ => fail .wrongKind

def findPartial (sc : Scope) : PartialName → Render (String × Option Closure)
  | .fixed name =>
    if name = "@partial-block" then pure (name, sc.block)
    else pure (name, (Record.get? name sc.partials).join)
  | .computed c => do
    let v ← group sc c
    let name ← if v.isTruthy then ofOption v.print? else pure "undefined"
    pure (name, (Record.get? name sc.partials).join)

def insertionContext (sc : Scope) (args : List Expr) : Render (Value × Value) :=
  match args with
  | [] => pure (sc.context, .text "")
  | e :: _ => do
    let v ← expr sc e
    pure (v, ← exprId sc e)

def withHash (context : Value) (hash : Fields) : Render Value := do
  pure (.record (← freshLabel) (Record.merge context.spread hash))

/-- Inserts a template. A block that is passed to it is run where it asks for it, or in place of a
template that is not there. -/
def insertion (invoke : Invoke) (sc : Scope) (i : Insertion) (indent : String)
    (block : Render (Option Closure)) : Render Value := do
  let (name, found) ← findPartial sc i.name
  let (context, id) ← insertionContext sc i.args
  let fields ← hash sc i.hash
  let passed ← block
  let context ← if i.hash.isEmpty then pure context else withHash context fields
  let id := if i.hash.isEmpty then id else .bool true
  let kept ← getData "contextPath"
  setData "contextPath" (if id.isTruthy then id else kept)
  let args : Option BlockArgs := some ⟨argsValue sc.args, none⟩
  let isBlock := match i.name with
    | .fixed "@partial-block" => true
    | _ => false
  let start (c : Closure) (own : Option Closure) : Render Value :=
    if isBlock then inFrame (invoke c context args sc.partials c.block)
    else invoke c context args sc.partials own
  let out ← match passed, found with
    | none, some c => start c sc.block
    | none, none => fail (.failure ("The partial " ++ name ++ " could not be found"))
    | some b, some c => inFrame (start c (some b))
    | some b, none => inFrame (inFrame (invoke b context args sc.partials b.block))
  indented indent out

def declaredName (args : List Value) : Render String :=
  ofOption (args.headD .undefined).print?

mutual

def declarations (sc : Scope) : List Statement → Render Partials
  | [] => pure []
  | s :: rest => do
    let one ← declaration sc s
    pure (Record.merge one (← declarations sc rest))

def declaration (sc : Scope) : Statement → Render Partials
  | .decorator (.mk callee args pairs) body =>
    if callee.written ≠ "inline" then
      fail (.failure ("Missing decorator: \"" ++ callee.written ++ "\""))
    else do
      let _ ← hash sc pairs
      let closure ← declaredClosure sc body
      let values ← exprs sc args
      let _ ← exprIds sc args
      let name ← declaredName values
      pure [(name, closure)]
  | _ => pure []

def declaredClosure (sc : Scope) : Option Program → Render (Option Closure)
  | none => pure none
  | some (.mk params body) => do
    let inner := { sc with
      context := sc.outer.headD .undefined
      names := params :: sc.names }
    let declared ← declarations inner body
    pure (some (.mk (.mk params body) sc.names sc.outer sc.args declared sc.block sc.levels))

end

def declarationScope (sc : Scope) (params : List String) : Scope :=
  { sc with context := sc.outer.headD .undefined, names := params :: sc.names }

def Closure.make (sc : Scope) (p : Program) : Render Closure := do
  let declared ← declarations (declarationScope sc p.params) p.body
  pure (.mk p sc.names sc.outer sc.args declared sc.block sc.levels)

def enterBody (sc : Scope) (p : Program) (declared : Partials) (context : Value)
    (args : Option BlockArgs) : Render Scope := do
  let outer ← sc.around context
  pure { sc with
    context, outer
    names := p.params :: sc.names
    args := args :: sc.args
    partials := Record.merge sc.partials declared
    levels := p.looksOut }

def completes (names : List (List String)) : Statement → Bool
  | .block call _ _ => call.kind names == .ambiguous
  | _ => false

mutual

def statement (invoke : Invoke) (sc : Scope) : Statement → Render (Option Value)
  | .content text => pure (if text = "" then none else some (.text text))
  | .comment => pure none
  | .decorator _ _ => pure none
  | .output escaped call => do pure (some (← output sc escaped call))
  | .insertion i indent block => do
    pure (some (← insertion invoke sc i indent (passedBlock sc block)))
  | .block call body alternative => do
    let bodies : Render Bodies := do
      let b ← runner invoke sc body
      let a ← runner invoke sc alternative
      pure ⟨some b, some a⟩
    match call.kind sc.names with
    | .helper => do
      let v ← helperCall sc call bodies
      pure (if v.isNullish then some (.text "") else some v)
    | .simple => do
      let v ← sc.lookup true call.callee
      let b ← bodies
      let out ← Helper.sectionOf v call.callee.written ⟨sc.context, [], [], b.body, b.alternative⟩
      pure (if out.isNullish then some (.text "") else some out)
    | .ambiguous =>
      match bareHelper? call with
      | some h => do
        let b ← bodies
        let out ← bareCall sc h b
        pure (if out.isNullish then none else some out)
      | none => do
        let v ← sc.lookup true call.callee
        let b ← bodies
        let o : Options := ⟨sc.context, [], [], b.body, b.alternative⟩
        let out ← Helper.sectionOf v call.callee.head o
        pure (if out.isNullish then none else some out)

/-- A body as a helper runs it. Its declarations are evaluated now, its statements when it is
run. -/
def runner (invoke : Invoke) (sc : Scope) : Option Program → Render Runner
  | none => pure fun _ _ => pure (.text "")
  | some (.mk params body) => do
    let declared ← declarations (declarationScope sc params) body
    pure fun context args => do
      let inner ← enterBody sc (.mk params body) declared context args
      statements invoke inner body

def statements (invoke : Invoke) (sc : Scope) : List Statement → Render Value
  | [] => pure (.text "")
  | s :: rest =>
    if rest.isEmpty then do pure ((← statement invoke sc s).getD (.text ""))
    else do
      let more := rest.any (completes sc.names)
      let sum ← Sum.empty.step (completes sc.names s) more (statement invoke sc s)
      sumFrom invoke sc sum rest

def sumFrom (invoke : Invoke) (sc : Scope) (sum : Sum) : List Statement → Render Value
  | [] => sum.complete
  | s :: rest => do
    let more := rest.any (completes sc.names)
    let sum ← sum.step (completes sc.names s) more (statement invoke sc s)
    sumFrom invoke sc sum rest

def passedBlock (sc : Scope) : Option Program → Render (Option Closure)
  | none => pure none
  | some p => do pure (some (← Closure.make sc p))

end

def depthLimit : Nat := 1000

def invoke (escapes : Bool) : Nat → Invoke
  | 0 => fun _ _ _ _ _ => fail .tooDeep
  | fuel + 1 => fun (.mk (.mk params body) names outer captured declared _ levels) context args
      partials block => do
    let sc : Scope := ⟨escapes, .undefined, outer, names, captured, partials, block, levels⟩
    let inner ← enterBody sc (.mk params body) declared context args
    statements (invoke escapes fuel) inner body

/-- The value of a whole program. What it declares is evaluated without a context. -/
def main (escapes : Bool) (p : Program) (context : Value) : Render Value := do
  let outside : Scope := ⟨escapes, .undefined, [], [], [], [], none, p.looksOut⟩
  let declared ← declarations outside p.body
  let sc := { outside with context, outer := [context], partials := declared }
  let v ← statements (invoke escapes depthLimit) sc p.body
  ofOption ((Value.text "").add? v)

def initialState (context : Value) : State :=
  ⟨context.bound, [("root", context)], context.bound + 1⟩

def run (escapes : Bool) (p : Program) (context : Value) : Except RenderError String :=
  match main escapes p context (initialState context) with
  | .ok (.text s, _) => .ok s
  | .ok _ => .error .wrongKind
  | .error e => .error e

end Render

end BuildNotice.Template
