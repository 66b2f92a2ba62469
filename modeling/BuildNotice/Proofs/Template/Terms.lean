import BuildNotice.Proofs.Template.Following
import BuildNotice.Proofs.Template.Quoting

/-! What is written in a program, however deep, and the keys that follow from it. -/

namespace BuildNotice.Template

open Render (pathId)

mutual

def Expr.terms : Expr → List Expr
  | .group c => .group c :: c.terms
  | e => [e]

def Call.terms : Call → List Expr
  | .mk callee args hash => .path callee :: (argsTerms args ++ hashTerms hash)

def argsTerms : List Expr → List Expr
  | [] => []
  | e :: es => e.terms ++ argsTerms es

def hashTerms : List (String × Expr) → List Expr
  | [] => []
  | p :: ps => pairTerms p ++ hashTerms ps

def pairTerms : String × Expr → List Expr
  | (_, e) => e.terms

end

def Call.applies (c : Call) : Bool :=
  !c.isBare || (c.callee.isSimple && Helper.reserved.contains c.callee.head)

def Call.tagTerms (c : Call) : List Expr :=
  if c.applies then .group c :: c.terms else c.terms

def PartialName.terms : PartialName → List Expr
  | .fixed _ => []
  | .computed c => .group c :: c.terms

def Insertion.terms (i : Insertion) : List Expr :=
  i.name.terms ++ (argsTerms i.args ++ hashTerms i.hash)

structure Sources where
  terms : List Expr
  names : List (List String)

namespace Sources

def ofTerms (terms : List Expr) : Sources := ⟨terms, []⟩

instance : Append Sources := ⟨fun a b => ⟨a.terms ++ b.terms, a.names ++ b.names⟩⟩

def Covers (src part : Sources) : Prop := part.terms ⊆ src.terms ∧ part.names ⊆ src.names

variable {src a b : Sources}

lemma covers_refl (src : Sources) : src.Covers src := ⟨List.Subset.refl _, List.Subset.refl _⟩

lemma covers_append : src.Covers (a ++ b) ↔ src.Covers a ∧ src.Covers b := by
  change a.terms ++ b.terms ⊆ src.terms ∧ a.names ++ b.names ⊆ src.names ↔ _
  rw [List.append_subset, List.append_subset, Covers, Covers]
  tauto

lemma covers_ofTerms {terms : List Expr} : src.Covers (ofTerms terms) ↔ terms ⊆ src.terms := by
  simp [Covers, ofTerms]

end Sources

mutual

def Statement.sources : Statement → Sources
  | .content _ => .ofTerms []
  | .comment => .ofTerms []
  | .output _ call => .ofTerms call.tagTerms
  | .decorator (.mk _ args hash) body =>
    .ofTerms (argsTerms args ++ hashTerms hash) ++ bodySources body
  | .insertion i _ block => .ofTerms i.terms ++ bodySources block
  | .block call body other => .ofTerms call.tagTerms ++ (bodySources body ++ bodySources other)

def bodySources : Option Program → Sources
  | none => .ofTerms []
  | some p => p.sources

def Program.sources : Program → Sources
  | .mk params body => ⟨[], [params]⟩ ++ statementsSources body

def statementsSources : List Statement → Sources
  | [] => .ofTerms []
  | s :: ss => s.sources ++ statementsSources ss

end

def Helper.title : Helper → String
  | .if => "#if"
  | .unless => "#unless"
  | .each => "#each"
  | .with => "#with"
  | .lookup => "lookup"
  | .log => "log"
  | .join => "join"
  | .has => "has"
  | .property => "property"

def Helper.place (h : Helper) : String := "argument 1 of " ++ h.title

def Helper.requiredKey (h : Helper) : Value → String
  | .text id => if id = "" then h.place else id
  | _ => h.place

def Expr.segments : Expr → List String
  | .path p => p.parts
  | _ => []

def Expr.subject? : Expr → Option (Helper × Expr)
  | .group (.mk callee (e :: _) _) =>
    match Helper.ofName? callee.head with
    | some h => if h.requires then some (h, e) else none
    | none => none
  | _ => none

def Expr.key (h : Helper) : Expr → String
  | .path p => pathId p.written
  | _ => h.place

namespace Sources

def segments (src : Sources) : List String := src.terms.flatMap Expr.segments

def subjects (src : Sources) : List (Helper × Expr) := src.terms.filterMap Expr.subject?

def keys (src : Sources) : List String :=
  src.segments ++ src.subjects.map fun (h, e) => e.key h

def Declares (src : Sources) (name : String) : Prop := ∃ l ∈ src.names, name ∈ l

/-- Keys that tell of an argument that begins with a declared name: what has been found under that
name, and the rest of the path. -/
def Tracks (src : Sources) (key : String) : Prop :=
  ∃ h p, (h, .path p) ∈ src.subjects ∧ src.Declares p.head ∧
    (p.parts.tail = [] ∨ ∃ t, key = t ++ "." ++ String.intercalate "." p.parts.tail)

/-- Names that no path has and that are looked up all the same: where `lookup` is called with too
few or too many arguments, where what is called is no helper, and where a body that declares names
is given none. -/
inductive Strays (src : Sources) : String → Prop
  | lookup {callee : Path} {args : List Expr} {hash : List (String × Expr)} :
      .group (.mk callee args hash) ∈ src.terms → Helper.ofName? callee.head = some .lookup →
      args.length ≠ 2 → Strays src "lookupProperty"
  | call {callee : Path} {args : List Expr} {hash : List (String × Expr)} :
      .group (.mk callee args hash) ∈ src.terms →
      (callee.isSimple = true → Helper.ofName? callee.head = none) → Strays src "call"
  | paths {name : String} : src.Declares name → Strays src "path"
  | argument {l : List String} {i : Nat} : l ∈ src.names → i < l.length → Strays src (toString i)

/-- Keys that are not in the template: stray names, the place of an argument that is a path, but of
the context itself, and what a segment is taken for that is empty or closes the quotes around it. -/
inductive Misleads (src : Sources) (key : String) : Prop
  | stray : src.Strays key → Misleads src key
  | context {h : Helper} {p : Path} : (h, .path p) ∈ src.subjects → pathId p.written = "" →
      key = h.place → Misleads src key
  | cut {name : String} : name ∈ src.segments → RenderError.Cuts name key → Misleads src key
  | empty : "" ∈ src.segments → Misleads src key

end Sources

end BuildNotice.Template
