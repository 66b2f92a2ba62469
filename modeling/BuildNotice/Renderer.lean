import BuildNotice.Message
import BuildNotice.Template

namespace BuildNotice

open Value (Fields)

structure Renderer where
  body : Template
  subject : Option Template
  type : MessageType
  extra : Fields

namespace Renderer

def merge (r : Renderer) (context : Value) : Fields :=
  Record.merge (Record.ofList context.spread) r.extra

def renderSubject (r : Renderer) (context : Value) : Except Failure (Option String) :=
  match r.subject with
  | none => .ok none
  | some t => do .ok (some (← t.render context))

def render (r : Renderer) (context : Value) : Except Failure Message := do
  let body ← r.body.render context
  let subject ← r.renderSubject context
  .ok ⟨body, r.type, subject⟩

end Renderer

end BuildNotice
