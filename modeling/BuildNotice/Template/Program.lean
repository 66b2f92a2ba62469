import BuildNotice.Template.Syntax

namespace BuildNotice.Template

mutual

inductive Statement where
  | content (text : String)
  | comment
  | output (escaped : Bool) (call : Call)
  | decorator (call : Call) (body : Option Program)
  | insertion (insertion : Insertion) (indent : String) (block : Option Program)
  | block (call : Call) (body alternative : Option Program)

inductive Program where
  | mk (params : List String) (body : List Statement)

end

namespace Program

def params : Program → List String
  | .mk params _ => params

def body : Program → List Statement
  | .mk _ body => body

end Program

end BuildNotice.Template
