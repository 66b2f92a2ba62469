import BuildNotice.Template.Lexer
import BuildNotice.Template.Syntax
import BuildNotice.Template.SyntaxError
import BuildNotice.Decimal.Print

/-! A parser takes tokens off the front. Fuel bounds the nesting; the length of the list provides enough. -/

namespace BuildNotice.Template.Parser

open Text

abbrev Parse (α : Type) := List Placed → Except SyntaxError (α × List Placed)

def unexpected (p : Placed) : SyntaxError :=
  match p.token with
  | .unrecognized => .unrecognized p.start.line
  | _ => .unexpected p.since

def fail {α : Type} : Parse α
  | [] => .error (.unexpected 1)
  | p :: _ => .error (unexpected p)

def unbracket (text : String) : String :=
  match text.toList with
  | '[' :: cs =>
    if cs.getLast? = some ']' ∧ !cs.any Blank.isLineEnd then String.ofList cs.dropLast else text
  | _ => text

structure Segment where
  text : String
  separator : String

def segments (first : Segment) : Parse (List Segment)
  | p :: ps =>
    match p.token with
    | .separator sep =>
      match ps with
      | q :: qs =>
        match q.token with
        | .name text => (segments ⟨text, sep⟩ qs).map fun (more, rest) => (first :: more, rest)
        | _ => .error (unexpected q)
      | [] => fail []
    | _ => .ok ([first], p :: ps)
  | [] => .ok ([first], [])

def resolve (position : Position) : Path → List Segment → Except SyntaxError Path
  | path, [] => .ok path
  | path, s :: rest =>
    let part := unbracket s.text
    let written := path.written ++ s.separator ++ part
    if part = s.text ∧ (part = ".." ∨ part = "." ∨ part = "this") then
      if !path.parts.isEmpty then .error (.invalidPath written position)
      else
        let depth := if part = ".." then path.depth + 1 else path.depth
        resolve position { path with written, depth } rest
    else resolve position { path with written, parts := path.parts ++ [part] } rest

def followsPath : Token → Bool
  | .close _ | .tripleClose _ | .rawClose | .groupClose | .groupOpen | .name _ | .string _
  | .number _ | .boolean _ | .undefined | .null | .at | .paramsOpen => true
  | _ => false

def pathFrom (data : Bool) (position : Position) (first : String) : Parse Path := fun ps => do
  let (parts, rest) ← segments ⟨first, ""⟩ ps
  match rest with
  | p :: _ =>
    if followsPath p.token then
      let path ← resolve position ⟨data, 0, [], if data then "@" else "", position⟩ parts
      .ok (path, rest)
    else .error (unexpected p)
  | [] => fail []

inductive Name where
  | path (p : Path)
  | string (s : String)
  | number (x : Float)
  | boolean (b : Bool)
  | undefined
  | null

namespace Name

def toText : Name → String
  | .path p => p.written
  | .string s => s
  | .number x => Decimal.Print.print x
  | .boolean b => if b then "true" else "false"
  | .undefined => "undefined"
  | .null => "null"

def agree : Name → Name → Bool
  | .number x, .number y => x == y
  | .boolean a, .boolean b => a == b
  | .undefined, .undefined => true
  | .null, .null => true
  | .path p, .path q => p.written == q.written
  | .path p, .string s => p.written == s
  | .string s, .path p => s == p.written
  | .string s, .string t => s == t
  | _, _ => false

def toPath (position : Position) : Name → Path
  | .path p => p
  | n => .ofName n.toText position

def toExpr : Name → Expr
  | .path p => .path p
  | .string s => .string s
  | .number x => .number x
  | .boolean b => .boolean b
  | .undefined => .undefined
  | .null => .null

end Name

def name : Parse Name
  | p :: ps =>
    match p.token with
    | .name text => (pathFrom false p.start text ps).map fun (path, rest) => (.path path, rest)
    | .at =>
      match ps with
      | q :: qs =>
        match q.token with
        | .name text => (pathFrom true p.start text qs).map fun (path, rest) => (.path path, rest)
        | _ => .error (unexpected q)
      | [] => fail []
    | .string s => .ok (.string s, ps)
    | .number x => .ok (.number x, ps)
    | .boolean b => .ok (.boolean b, ps)
    | .undefined => .ok (.undefined, ps)
    | .null => .ok (.null, ps)
    | _ => .error (unexpected p)
  | [] => fail []

def position : List Placed → Position
  | p :: _ => p.start
  | [] => .start

def startsExpr : Token → Bool
  | .name _ | .at | .string _ | .number _ | .boolean _ | .undefined | .null | .groupOpen => true
  | _ => false

def startsPair : List Placed → Bool
  | p :: q :: _ =>
    match p.token, q.token with
    | .name _, .equals => true
    | _, _ => false
  | _ => false

mutual

def expr : Nat → Parse Expr
  | 0, ps => fail ps
  | fuel + 1, p :: ps =>
    match p.token with
    | .groupOpen => (group fuel ps).map fun (c, rest) => (.group c, rest)
    | _ => (name (p :: ps)).map fun (n, rest) => (n.toExpr, rest)
  | _ + 1, [] => fail []

def group : Nat → Parse Call
  | 0, ps => fail ps
  | fuel + 1, ps => do
    let (callee, rest) ← name ps
    let (args, rest) ← exprs fuel rest
    let (hash, rest) ← pairs fuel rest
    match rest with
    | p :: rest =>
      match p.token with
      | .groupClose => .ok (.mk (callee.toPath (position ps)) args hash, rest)
      | _ => .error (unexpected p)
    | [] => fail []

def exprs : Nat → Parse (List Expr)
  | 0, ps => fail ps
  | fuel + 1, p :: ps =>
    if startsExpr p.token ∧ !startsPair (p :: ps) then do
      let (e, rest) ← expr fuel (p :: ps)
      let (es, rest) ← exprs fuel rest
      .ok (e :: es, rest)
    else .ok ([], p :: ps)
  | _ + 1, [] => .ok ([], [])

def pairs : Nat → Parse (List (String × Expr))
  | 0, ps => fail ps
  | fuel + 1, p :: q :: ps =>
    match p.token, q.token with
    | .name key, .equals => do
      let (e, rest) ← expr fuel ps
      let (es, rest) ← pairs fuel rest
      .ok ((unbracket key, e) :: es, rest)
    | .name _, _ => .error (unexpected q)
    | _, _ => .ok ([], p :: q :: ps)
  | _ + 1, ps => .ok ([], ps)

end

/-- Fuel for a list of tokens: a parenthesis takes three steps, and so does each body. -/
def fuelFor (ps : List Placed) : Nat := 4 * ps.length + 8

structure Head where
  name : Name
  call : Call
  position : Position

def head : Parse Head := fun ps => do
  let (callee, rest) ← name ps
  let (args, rest) ← exprs (fuelFor ps) rest
  let (hash, rest) ← pairs (fuelFor ps) rest
  .ok (⟨callee, .mk (callee.toPath (position ps)) args hash, position ps⟩, rest)

def close : Parse Bool
  | p :: ps =>
    match p.token with
    | .close strip => .ok (strip, ps)
    | _ => .error (unexpected p)
  | [] => fail []

def tripleClose : Parse Bool
  | p :: ps =>
    match p.token with
    | .tripleClose strip => .ok (strip, ps)
    | _ => .error (unexpected p)
  | [] => fail []

def paramNames : Parse (List String)
  | p :: ps =>
    match p.token with
    | .name text => (paramNames ps).map fun (names, rest) => (text :: names, rest)
    | _ => .ok ([], p :: ps)
  | [] => .ok ([], [])

def params : Parse (List String)
  | p :: ps =>
    match p.token with
    | .paramsOpen => do
      let (names, rest) ← paramNames ps
      match names, rest with
      | [], _ => fail rest
      | _, q :: rest =>
        match q.token with
        | .paramsClose =>
          let joined := String.intercalate "," names
          if unbracket joined = joined then .ok (names, rest) else .error .bracketedParameters
        | _ => .error (unexpected q)
      | _, [] => fail []
    | _ => .ok ([], p :: ps)
  | [] => .ok ([], [])

structure Opening where
  head : Head
  params : List String
  strip : Strip

def opening (before : Bool) : Parse Opening := fun ps => do
  let (head, rest) ← head ps
  let (params, rest) ← params rest
  let (after, rest) ← close rest
  .ok (⟨head, params, ⟨before, after⟩⟩, rest)

structure InsertionHead where
  name : Name
  insertion : Insertion
  position : Position

def insertionHead (start : Position) : Parse InsertionHead := fun ps => do
  let fuel := fuelFor ps
  let (target, rest) ← expr fuel ps
  let (args, rest) ← exprs fuel rest
  let (hash, rest) ← pairs fuel rest
  let place := position ps
  match target with
  | .group c => .ok (⟨.undefined, ⟨.computed c, args, hash, start⟩, place⟩, rest)
  | _ =>
    let (n, _) ← name ps
    .ok (⟨n, ⟨.fixed n.toText, args, hash, start⟩, place⟩, rest)

def ending (opened : Name) (position : Position) : Parse Strip
  | p :: ps =>
    match p.token with
    | .endOpen before => do
      let (closed, rest) ← name ps
      let (after, rest) ← close rest
      if opened.agree closed then .ok (⟨before, after⟩, rest)
      else .error (.mismatch opened.toText closed.toText position)
    | _ => .error (unexpected p)
  | [] => fail []

def contents : Parse (List Node)
  | p :: ps =>
    match p.token with
    | .content text =>
      (contents ps).map fun (nodes, rest) => (.content (.ofText text) :: nodes, rest)
    | _ => .ok ([], p :: ps)
  | [] => .ok ([], [])

def rawBlock : Parse Node := fun ps => do
  let (head, rest) ← head ps
  match rest with
  | p :: rest =>
    match p.token with
    | .rawClose =>
      let (nodes, rest) ← contents rest
      match rest with
      | q :: rest =>
        match q.token with
        | .rawEnd closed =>
          if head.name.agree (.string closed) then
            let strip : BlockStrip := ⟨.none, .none, .none⟩
            .ok (.block (.section head.call) (some (.mk [] false nodes)) none strip, rest)
          else .error (.mismatch head.name.toText closed head.position)
        | _ => .error (unexpected q)
      | [] => fail []
    | _ => .error (unexpected p)
  | [] => fail []

structure Alternative where
  strip : Strip
  body : Body

def Body.endAt (ending : Strip) : Body → Body
  | .mk params true (.block kind body alternative strip :: nodes) =>
    .mk params true (.block kind body alternative { strip with ending } :: nodes)
  | b => b

def assemble (kind : BlockKind) (inverted : Bool) (opening ending : Strip) (body : Body)
    (alternative : Option Alternative) : Node :=
  let strips : BlockStrip :=
    ⟨opening, (alternative.map Alternative.strip).getD .none, ending⟩
  let other := alternative.map fun a => Body.endAt ending a.body
  if inverted then .block kind other (some body) strips else .block kind (some body) other strips

def startsNode : Token → Bool
  | .content _ | .comment _ | .rawOpen | .blockOpen _ _ | .inverseOpen _ | .outputOpen _ _
  | .tripleOpen _ | .partialOpen _ | .partialBlockOpen _ => true
  | _ => false

mutual

def nodes : Nat → Parse (List Node)
  | 0, ps => fail ps
  | fuel + 1, p :: ps =>
    if startsNode p.token then do
      let (n, rest) ← node fuel p ps
      let (ns, rest) ← nodes fuel rest
      .ok (n :: ns, rest)
    else .ok ([], p :: ps)
  | _ + 1, [] => .ok ([], [])

def node : Nat → Placed → Parse Node
  | 0, _, ps => fail ps
  | fuel + 1, p, ps =>
    match p.token with
    | .content text => .ok (.content (.ofText text), ps)
    | .comment strip => .ok (.comment strip, ps)
    | .outputOpen before mark => do
      let (head, rest) ← head ps
      let (after, rest) ← close rest
      match mark with
      | .decorator => .ok (.decorator head.call ⟨before, after⟩, rest)
      | .escaped => .ok (.output true head.call ⟨before, after⟩, rest)
      | .unescaped => .ok (.output false head.call ⟨before, after⟩, rest)
    | .tripleOpen before => do
      let (head, rest) ← head ps
      let (after, rest) ← tripleClose rest
      .ok (.output false head.call ⟨before, after⟩, rest)
    | .partialOpen before => do
      let (head, rest) ← insertionHead p.start ps
      let (after, rest) ← close rest
      .ok (.insertion head.insertion [] ⟨before, after⟩, rest)
    | .partialBlockOpen before => do
      let (head, rest) ← insertionHead p.start ps
      let (after, rest) ← close rest
      let (inner, rest) ← nodes fuel rest
      let (last, rest) ← ending head.name head.position rest
      let body := Body.mk [] false inner
      .ok (assemble (.insertion head.insertion) false ⟨before, after⟩ last body none, rest)
    | .rawOpen => rawBlock ps
    | .blockOpen before decorator => do
      let (o, rest) ← opening before ps
      let (inner, rest) ← nodes fuel rest
      let (other, rest) ← alternative? fuel true rest
      let (last, rest) ← ending o.head.name o.head.position rest
      let kind := if decorator then BlockKind.decorator o.head.call else .section o.head.call
      if decorator ∧ other.isSome then .error .alternativeOfDecorator
      else .ok (assemble kind false o.strip last (.mk o.params false inner) other, rest)
    | .inverseOpen before => do
      let (o, rest) ← opening before ps
      let (inner, rest) ← nodes fuel rest
      let (other, rest) ← alternative? fuel false rest
      let (last, rest) ← ending o.head.name o.head.position rest
      let body := Body.mk o.params false inner
      .ok (assemble (.section o.head.call) true o.strip last body other, rest)
    | _ => .error (unexpected p)

def alternative? : Nat → Bool → Parse (Option Alternative)
  | 0, _, ps => fail ps
  | fuel + 1, chains, p :: ps =>
    match p.token with
    | .inverse strip => do
      let (inner, rest) ← nodes fuel ps
      .ok (some ⟨strip, .mk [] false inner⟩, rest)
    | .chainOpen before =>
      if chains then do
        let (o, rest) ← opening before ps
        let (inner, rest) ← nodes fuel rest
        let (other, rest) ← alternative? fuel true rest
        let last := (other.map Alternative.strip).getD .none
        let block := assemble (.section o.head.call) false o.strip last
          (.mk o.params false inner) other
        .ok (some ⟨o.strip, .mk [] true [block]⟩, rest)
      else .ok (none, p :: ps)
    | _ => .ok (none, p :: ps)
  | _ + 1, _, [] => .ok (none, [])

end

def parse (template : String) : Except SyntaxError (List Node) := do
  let ps := Lexer.tokens template
  let (ns, rest) ← nodes (fuelFor ps) ps
  match rest with
  | p :: _ =>
    match p.token with
    | .finish => .ok ns
    | _ => .error (unexpected p)
  | [] => .ok ns

end BuildNotice.Template.Parser
