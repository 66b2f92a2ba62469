import BuildNotice.Template.Program
import BuildNotice.Template.RenderError
import BuildNotice.Value.Member
import BuildNotice.Value.Sum

namespace BuildNotice.Template

open Value (Fields)

/-- Frames hold the data variables. Where the frame is a frame of its own, leaving it restores the
one before; `fresh` labels what is made on the way. -/
structure State where
  label : Nat
  frame : Fields
  fresh : Nat

abbrev Render := StateT State (Except RenderError)

def fail {α : Type} (e : RenderError) : Render α :=
  fun _ => .error e

def freshLabel : Render Nat :=
  fun s => .ok (s.fresh, { s with fresh := s.fresh + 1 })

def setData (key : String) (v : Value) : Render Unit :=
  fun s => .ok ((), { s with frame := Record.set key v s.frame })

def getData (key : String) : Render Value :=
  fun s => .ok ((Record.get? key s.frame).getD .undefined, s)

def inFrame {α : Type} (act : Render α) : Render α := fun s =>
  let child : State :=
    ⟨s.fresh, Record.set "_parent" (.record s.label s.frame) s.frame, s.fresh + 1⟩
  match act child with
  | .ok (a, t) => .ok (a, { s with fresh := t.fresh })
  | .error e => .error e

def ofOption {α : Type} (x : Option α) : Render α :=
  match x with
  | some a => pure a
  | none => fail .wrongKind

structure BlockArgs where
  values : List Value
  paths : Option (List Value)

inductive Closure where
  | mk (program : Program) (names : List (List String)) (outer : List Value)
      (args : List (Option BlockArgs)) (declared : List (String × Option Closure))
      (block : Option Closure) (levels : Bool)

def Closure.block : Closure → Option Closure
  | .mk _ _ _ _ _ block _ => block

abbrev Partials := List (String × Option Closure)

/-- The contexts around a program are kept where `levels` is set: where it looks out of its own. -/
structure Scope where
  escapes : Bool
  context : Value
  outer : List Value
  names : List (List String)
  args : List (Option BlockArgs)
  partials : Partials
  block : Option Closure
  levels : Bool

def nothingText (v : Value) : String :=
  match v with
  | .null => "null"
  | _ => "undefined"

def member (v : Value) (key : String) : Render Value :=
  if v.isNullish then fail (.memberOfNothing (nothingText v) key) else pure (v.own key)

def members (v : Value) : List String → Render Value
  | [] => pure v
  | key :: keys => do members (← member v key) keys

def knownMember (v : Value) (key : String) (position : Position) : Render Value := do
  if v.isTruthy && !v.isComposite then
    fail (.notSearchable key (← ofOption v.print?))
  else if v.isTruthy && v.knows key then pure (v.own key)
  else fail (.notDefined key (← ofOption v.print?) position)

def knownMembers (v : Value) (position : Position) : List String → Render Value
  | [] => pure v
  | [key] => knownMember v key position
  | key :: keys => do knownMembers (← member v key) position keys

def declared? (name : String) : List (List String) → Option (Nat × Nat)
  | [] => none
  | names :: rest =>
    match names.idxOf? name with
    | some i => some (0, i)
    | none => (declared? name rest).map fun (d, i) => (d + 1, i)

def Path.declared? (names : List (List String)) (p : Path) : Option (Nat × Nat) :=
  if p.depth = 0 ∧ !p.isScoped then
    p.parts.head?.bind fun name => Template.declared? name names
  else none

namespace Scope

def contextAt (sc : Scope) : Nat → Value
  | 0 => sc.context
  | n => sc.outer[n]?.getD .undefined

def blockArgs (sc : Scope) (depth : Nat) (key : String) : Render BlockArgs :=
  match sc.args[depth]? with
  | some (some a) => pure a
  | _ => fail (.memberOfNothing "undefined" key)

def arg (sc : Scope) (depth i : Nat) : Render Value := do
  let a ← sc.blockArgs depth (toString i)
  pure (a.values[i]?.getD .undefined)

def argPath (sc : Scope) (depth i : Nat) : Render Value := do
  let a ← sc.blockArgs depth "path"
  match a.paths with
  | some paths => pure (paths[i]?.getD .undefined)
  | none => fail (.memberOfNothing "undefined" (toString i))

def frameAt (v : Value) : Nat → Value
  | 0 => v
  | n + 1 => if v.isTruthy then frameAt (v.own "_parent") n else v

def base (sc : Scope) (p : Path) : Render Value := fun s =>
  if p.data then .ok (frameAt (.record s.label s.frame) p.depth, s)
  else .ok (sc.contextAt p.depth, s)

def lookup (sc : Scope) (strict : Bool) (p : Path) : Render Value :=
  match p.declared? sc.names with
  | some (depth, i) => do members (← sc.arg depth i) p.parts.tail
  | none =>
    if p.head = "" then pure (sc.contextAt p.depth)
    else do
      let v ← sc.base p
      if strict then knownMembers v p.position p.parts else members v p.parts

def enter (outer : List Value) (context : Value) : Render (List Value) := do
  let current := outer.headD .undefined
  let agree ← ofOption (Value.agree? context current)
  let standsIn : Bool := match context, current with
    | .record 0 _, .null => true
    | _, _ => false
  if agree || standsIn then pure outer else pure (context :: outer)

/-- The contexts around a body that is run with `context`: they are compared only if levels are kept. -/
def around (sc : Scope) (context : Value) : Render (List Value) :=
  if sc.levels then enter sc.outer context else pure sc.outer

end Scope

end BuildNotice.Template
