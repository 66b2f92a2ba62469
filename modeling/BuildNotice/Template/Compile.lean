import BuildNotice.Template.Parser
import BuildNotice.Template.Layout

namespace BuildNotice.Template

mutual

def Statement.check : Statement → Except SyntaxError Unit
  | .insertion i _ block => do
    checkOption block
    if i.args.length > 1 then .error (.tooManyArguments i.args.length i.position) else .ok ()
  | .block _ body alternative => do
    checkOption body
    checkOption alternative
  | .decorator _ body => checkOption body
  | _ => .ok ()

def checkOption : Option Program → Except SyntaxError Unit
  | none => .ok ()
  | some p => Program.check p

def Program.check : Program → Except SyntaxError Unit
  | .mk _ body => checkAll body

def checkAll : List Statement → Except SyntaxError Unit
  | [] => .ok ()
  | s :: rest => do
    s.check
    checkAll rest

end

def compile (text : String) : Except SyntaxError Program := do
  let program := Layout.program (← Parser.parse text)
  program.check
  .ok program

end BuildNotice.Template
