import BuildNotice.Template.Compile
import BuildNotice.Template.Render
import BuildNotice.Failure

namespace BuildNotice

inductive Source where
  | inline (text : String)
  | file (path : String)
  deriving DecidableEq

namespace Source

def id : Source → String
  | .inline text => "inline:" ++ text
  | .file path => "file:" ++ path

def place : Source → String
  | .inline _ => "inline"
  | .file path => path

end Source

/-- Two templates are the same one exactly when they have the same serial number. -/
structure Template where
  serial : Nat
  source : Source
  escapes : Bool
  program : Template.Program

namespace Template

def syntaxFailure (source : Source) (e : SyntaxError) : Failure :=
  .fault (.templateSyntax e.message (Value.ofFields [("source", .text source.place)]))

def ofText (serial : Nat) (source : Source) (escapes : Bool) (text : String) :
    Except Failure Template :=
  match compile text with
  | .ok program => .ok ⟨serial, source, escapes, program⟩
  | .error e => .error (syntaxFailure source e)

def plainFailure (e : RenderError) : Failure :=
  match e with
  | .notSearchable _ _ => .error .wrongKind e.message
  | .memberOfNothing _ _ => .error .wrongKind e.message
  | .wrongKind => .error .wrongKind e.message
  | .tooDeep => .error .outOfRange e.message
  | _ => .error .plain e.message

def renderFailure (source : Source) (e : RenderError) : Failure :=
  match e with
  | .missingArgument key => .fault (.undefinedKey (.text key) .undefined)
  | e =>
    match e.missingKey? with
    | some key =>
      .fault (.undefinedKey (.text key) (Value.ofFields [("template", .text source.id)]))
    | none => plainFailure e

def render (t : Template) (context : Value) : Except Failure String :=
  match Render.run t.escapes t.program context with
  | .ok text => .ok text
  | .error e => .error (renderFailure t.source e)

end Template

end BuildNotice
