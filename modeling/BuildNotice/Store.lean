import BuildNotice.Disk
import BuildNotice.Event
import BuildNotice.Template.Bundled

/-! File templates are kept by path and escape mode until the store is cleared. -/

namespace BuildNotice

structure Request where
  content : Value
  directory : Value
  filename : Value
  defaultFilename : Value
  noEscape : Value

namespace Request

def mode (r : Request) : Value :=
  match r.noEscape with
  | .undefined => .bool false
  | v => v

def escapes (r : Request) : Bool :=
  !r.mode.isTruthy

def hasConflict (r : Request) : Bool :=
  r.content.isTruthy && (r.filename.isTruthy || r.directory.isTruthy)

def conflict (r : Request) : Fault :=
  .configuration "Only one of template or template path can be given"
    (Value.ofFields [("directory", r.directory), ("filename", r.filename)])

def path (r : Request) (disk : Disk) : Except Failure String :=
  let file := if r.filename.isNullish then r.defaultFilename else r.filename
  let directory := if r.directory.isNullish then .text disk.bundled else r.directory
  match file, directory with
  | .text f, .text d => .ok (Path.resolve disk.here d f)
  | .text f, _ => if Path.isAbsolute f then .ok (Path.normalize f) else .error .wrongKind
  | _, _ => .error .wrongKind

end Request

structure Store where
  kept : List ((Bool × String) × Template)
  next : Nat

namespace Store

def empty : Store := ⟨[], 0⟩

def find? (s : Store) (escapes : Bool) (path : String) : Option Template :=
  (s.kept.find? fun (key, _) => key == (escapes, path)).map (·.2)

def clear (s : Store) : Store :=
  { s with kept := [] }

structure Resolved where
  template : Template
  store : Store
  events : List Event

def compiled (r : Request) (t : Template) : Event :=
  .compiled t.source r.mode

def resolveContent (s : Store) (r : Request) : Except Failure Resolved :=
  match r.content with
  | .text text => do
    let t ← Template.ofText s.next (.inline text) r.escapes text
    .ok ⟨t, { s with next := s.next + 1 }, [compiled r t]⟩
  | v =>
    match v.print? with
    | some text => .error (Template.syntaxFailure (.inline text) .notText)
    | none => .error .wrongKind

def resolveFile (s : Store) (disk : Disk) (r : Request) (path : String) :
    Except Failure Resolved :=
  match disk.read? path with
  | none => .error (.fault (.templateNotFound (.text path) .undefined))
  | some text => do
    let t ← Template.ofText s.next (.file path) r.escapes text
    .ok ⟨t, ⟨((r.escapes, path), t) :: s.kept, s.next + 1⟩, [compiled r t]⟩

def resolve (s : Store) (disk : Disk) (r : Request) : Except Failure Resolved :=
  if r.hasConflict then .error (.fault r.conflict)
  else if r.content.isTruthy then s.resolveContent r
  else do
    let path ← r.path disk
    match s.find? r.escapes path with
    | some t => .ok ⟨t, s, []⟩
    | none => s.resolveFile disk r path

structure Made (α : Type) where
  result : Except Failure α
  store : Store
  events : List Event

/-- Resolves the template of a body, then that of a subject if there is one. A failing subject
leaves what the body left in the store. -/
def resolvePair (s : Store) (disk : Disk) (body : Request) (subject : Option Request) :
    Made (Template × Option Template) :=
  match s.resolve disk body with
  | .error f => ⟨.error f, s, []⟩
  | .ok b =>
    match subject with
    | none => ⟨.ok (b.template, none), b.store, b.events⟩
    | some r =>
      match b.store.resolve disk r with
      | .error f => ⟨.error f, b.store, b.events⟩
      | .ok t => ⟨.ok (b.template, some t.template), t.store, b.events ++ t.events⟩

end Store

end BuildNotice
