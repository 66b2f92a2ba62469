import BuildNotice.Template.Helper

/-! Only where a program looks out of its context are the contexts around a body told apart from its own. -/

namespace BuildNotice.Template

/-- Where it is `known` that a helper is called, a reserved name is not looked up. -/
def Path.looksOut (p : Path) (known : Bool) : Bool :=
  p.depth != 0 && !(known && Helper.reserved.contains p.head)

mutual

def Expr.looksOut : Expr → Bool
  | .path p => p.looksOut false
  | .group c => c.looksOut true
  | _ => false

def Call.looksOut (known : Bool) : Call → Bool
  | .mk callee args hash =>
    callee.looksOut (known || !(args.isEmpty && hash.isEmpty)) || anyLooksOut args ||
      anyPairLooksOut hash

def anyLooksOut : List Expr → Bool
  | [] => false
  | e :: es => e.looksOut || anyLooksOut es

def anyPairLooksOut : List (String × Expr) → Bool
  | [] => false
  | p :: ps => pairLooksOut p || anyPairLooksOut ps

def pairLooksOut : String × Expr → Bool
  | (_, e) => e.looksOut

end

def PartialName.looksOut : PartialName → Bool
  | .fixed _ => false
  | .computed c => c.looksOut true

def Insertion.looksOut (i : Insertion) : Bool :=
  i.name.looksOut || anyLooksOut i.args || anyPairLooksOut i.hash

mutual

/-- A declaration is made with all the contexts around it, whatever it declares. -/
def Statement.looksOut : Statement → Bool
  | .content _ => false
  | .comment => false
  | .output _ call => call.looksOut false
  | .decorator _ _ => true
  | .insertion i _ block => i.looksOut || bodyLooksOut block
  | .block call body alternative =>
    call.looksOut false || bodyLooksOut body || bodyLooksOut alternative

def bodyLooksOut : Option Program → Bool
  | none => false
  | some p => p.looksOut

def Program.looksOut : Program → Bool
  | .mk _ body => anyStatementLooksOut body

def anyStatementLooksOut : List Statement → Bool
  | [] => false
  | s :: ss => s.looksOut || anyStatementLooksOut ss

end

end BuildNotice.Template
