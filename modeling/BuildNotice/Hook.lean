import BuildNotice.MessageContext

/-! What is done to the context of a message before it is rendered, action by action. -/

namespace BuildNotice

open Value (Fields)

namespace Hook

inductive Action where
  | set (key : String) (v : Value)
  | delete (key : String)
  | copy (key source : String)
  | title (key : String)
  | seen (key : String)
  | throw (f : Failure)
  | wait

end Hook

abbrev Hook := List Hook.Action

namespace Hook

def put (key : String) (v : Value) (context : Fields) : Fields :=
  if key = "__proto__" then context else Record.set key v context

def titleOf (master : Value) : Except Failure Value := do
  MessageContext.memberOf (← MessageContext.memberOf master "config") "title"

def keysOf (context : Fields) : Value :=
  .list (Value.fieldsBound context) (context.map fun (k, _) => .text k)

def act (master : Value) (context : Fields) : Action → Except Failure Fields
  | .set key v => .ok (put key v context)
  | .delete key => .ok (Record.erase key context)
  | .copy key source => .ok (put key ((Record.get? source context).getD .undefined) context)
  | .title key => do .ok (put key (← titleOf master) context)
  | .seen key => .ok (put key (keysOf context) context)
  | .throw f => .error f
  | .wait => .ok context

def run (master : Value) : Hook → Fields → Except Failure Fields
  | [], context => .ok context
  | a :: rest, context => do run master rest (← act master context a)

end Hook

end BuildNotice
