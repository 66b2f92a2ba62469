import BuildNotice.Renderer

/-! A renderer at work among records that change: its caller's own, the copy taken of it, the contexts
it is given and those it gives back. -/

namespace BuildNotice

open Value (Fields)

abbrev Heap := List Fields

namespace Heap

def look (heap : Heap) (place : Nat) : Fields := (heap[place]?).getD []

def change (heap : Heap) (place : Nat) (f : Fields → Fields) : Heap := heap.modify place f

def add (heap : Heap) (fields : Fields) : Heap := heap ++ [fields]

end Heap

namespace Renderer

structure Desk where
  heap : Heap
  copy : Nat
  body : Template
  subject : Option Template
  type : MessageType

namespace Desk

inductive Given where
  | held (place : Nat)
  | plain (v : Value)

inductive Use where
  | assign (place : Nat) (key : String) (v : Value)
  | delete (place : Nat) (key : String)
  | merge (context : Given)
  | render (context : Given)

inductive Answer where
  | changed
  | merged (place : Nat)
  | rendered (result : Except Failure Message)

def Given.value (heap : Heap) : Given → Value
  | .held place => .ofFields (heap.look place)
  | .plain v => v

/-- The copy of the extra fields is made here, and nobody else learns of its place. -/
def start (heap : Heap) (own : Nat) (body : Template) (subject : Option Template)
    (type : MessageType) : Desk :=
  ⟨heap.add (Record.ofList (heap.look own)), heap.length, body, subject, type⟩

def renderer (d : Desk) : Renderer := ⟨d.body, d.subject, d.type, d.heap.look d.copy⟩

/-- The name of the prototype is only written where it is a field already. -/
def written (key : String) (v : Value) (fields : Fields) : Fields :=
  if key = "__proto__" ∧ Record.has key fields = false then fields else Record.set key v fields

/-- The copy is frozen. -/
def change (d : Desk) (place : Nat) (f : Fields → Fields) : Desk :=
  if place = d.copy then d else { d with heap := d.heap.change place f }

def step (d : Desk) : Use → Answer × Desk
  | .assign place key v => (.changed, d.change place (written key v))
  | .delete place key => (.changed, d.change place (Record.erase key))
  | .merge context =>
    (.merged d.heap.length,
      { d with heap := d.heap.add (d.renderer.merge (context.value d.heap)) })
  | .render context => (.rendered (d.renderer.render (context.value d.heap)), d)

def run (d : Desk) : List Use → List (Answer × Desk)
  | [] => []
  | use :: rest =>
    let after := d.step use
    after :: run after.2 rest

def after (d : Desk) (uses : List Use) : Desk :=
  uses.foldl (fun d use => (d.step use).2) d

end Desk

end Renderer

end BuildNotice
