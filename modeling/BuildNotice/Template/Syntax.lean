import BuildNotice.Template.Token
import BuildNotice.Text.Blank

namespace BuildNotice.Template

/-- A dotted path: `depth` steps to enclosing contexts, then names. `written` is its text,
less the brackets of its segments. -/
structure Path where
  data : Bool
  depth : Nat
  parts : List String
  written : String
  position : Position

namespace Path

def ofName (name : String) (position : Position) : Path :=
  ⟨false, 0, [name], name, position⟩

def current (position : Position) : Path :=
  ⟨false, 0, [], "", position⟩

def endsWord : List Char → Bool
  | [] => true
  | c :: _ => !(c.isAlphanum || c == '_')

def mentionsThis : List Char → Bool
  | [] => false
  | 't' :: 'h' :: 'i' :: 's' :: cs => endsWord cs || mentionsThis cs
  | _ :: cs => mentionsThis cs

def isScoped (p : Path) : Bool :=
  p.written.toList.head? == some '.' || mentionsThis p.written.toList

def isSimple (p : Path) : Bool :=
  p.parts.length == 1 && !p.isScoped && p.depth == 0

def head (p : Path) : String := p.parts.headD ""

end Path

mutual

inductive Expr where
  | string (s : String)
  | number (x : Float)
  | boolean (b : Bool)
  | undefined
  | null
  | path (p : Path)
  | group (c : Call)

inductive Call where
  | mk (callee : Path) (args : List Expr) (hash : List (String × Expr))

end

namespace Call

def callee : Call → Path
  | .mk p _ _ => p

def args : Call → List Expr
  | .mk _ args _ => args

def hash : Call → List (String × Expr)
  | .mk _ _ hash => hash

def isBare : Call → Bool
  | .mk _ args hash => args.isEmpty && hash.isEmpty

end Call

inductive PartialName where
  | fixed (name : String)
  | computed (call : Call)

structure Insertion where
  name : PartialName
  args : List Expr
  hash : List (String × Expr)
  position : Position

/-- Content keeps its text as written; the layout shortens what is left of it, and remembers at
which side it has. -/
structure Content where
  written : List Char
  text : List Char
  frontCut : Bool
  backCut : Bool

def Content.ofText (s : String) : Content :=
  ⟨s.toList, s.toList, false, false⟩

inductive BlockKind where
  | section (call : Call)
  | decorator (call : Call)
  | insertion (insertion : Insertion)

structure BlockStrip where
  opening : Strip
  alternative : Strip
  ending : Strip

mutual

inductive Node where
  | content (c : Content)
  | comment (strip : Strip)
  | output (escaped : Bool) (call : Call) (strip : Strip)
  | decorator (call : Call) (strip : Strip)
  | insertion (insertion : Insertion) (indent : List Char) (strip : Strip)
  | block (kind : BlockKind) (body alternative : Option Body) (strip : BlockStrip)

inductive Body where
  | mk (params : List String) (chained : Bool) (nodes : List Node)

end

namespace Body

def params : Body → List String
  | .mk params _ _ => params

def chained : Body → Bool
  | .mk _ chained _ => chained

def nodes : Body → List Node
  | .mk _ _ nodes => nodes

end Body

end BuildNotice.Template
