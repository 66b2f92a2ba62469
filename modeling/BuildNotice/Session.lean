import BuildNotice.Formatter

/-! A store over files that change, the templates resolved and the formatters made so far. -/

namespace BuildNotice

structure Session where
  disk : Disk
  store : Store
  templates : List (String × Template)
  formatters : List (String × Formatter)

namespace Session

inductive Step where
  | resolve (name : String) (request : Request)
  | render (name : String) (context : Value)
  | clear
  | write (path text : String)
  | remove (path : String)
  | makeDirectory (path : String)
  | make (name : String) (kind : Formatter.Kind) (options : Value) (hook : Option Hook)
  | info (name : String)
  | formatBuild (name : String) (mode builder build master blamelist : Value)
  | formatWorker (name : String) (master worker : Value)
  | equals (name other : String)
  | equalsValue (name : String)

inductive Answer where
  | done
  | resolved (t : Template) (same : List String)
  | rendered (text : String)
  | formatter (f : Formatter)
  | message (m : Message)
  | equal (b : Bool)
  | failed (f : Failure)

structure Outcome where
  answer : Answer
  events : List Event
  session : Session

def start (disk : Disk) : Session := ⟨disk, Store.empty, [], []⟩

def keep {α : Type} (name : String) (a : α) (kept : List (String × α)) : List (String × α) :=
  if Record.has name kept then Record.replace name a kept else kept ++ [(name, a)]

def holders (t : Template) (kept : List (String × Template)) : List String :=
  (kept.filter fun (_, u) => u.serial == t.serial).map (·.1)

def unknown (what name : String) : Answer :=
  .failed (.fault (.general ("no " ++ what ++ " " ++ name) true .undefined .undefined))

def quiet (s : Session) (a : Answer) : Outcome := ⟨a, [], s⟩

def resolve (s : Session) (name : String) (request : Request) : Outcome :=
  match s.store.resolve s.disk request with
  | .error f => s.quiet (.failed f)
  | .ok r =>
    ⟨.resolved r.template (holders r.template s.templates), r.events,
      { s with store := r.store, templates := keep name r.template s.templates }⟩

def render (s : Session) (name : String) (context : Value) : Answer :=
  match Record.get? name s.templates with
  | none => unknown "template" name
  | some t =>
    match t.render context with
    | .ok text => .rendered text
    | .error f => .failed f

def make (s : Session) (name : String) (kind : Formatter.Kind) (options : Value)
    (hook : Option Hook) : Outcome :=
  let made := Formatter.make s.store s.disk kind options hook
  match made.result with
  | .error f => ⟨.failed f, made.events, { s with store := made.store }⟩
  | .ok f =>
    ⟨.formatter f, made.events,
      { s with store := made.store, formatters := keep name f s.formatters }⟩

def withFormatter (s : Session) (name : String) (k : Formatter → Answer × List Event) : Outcome :=
  match Record.get? name s.formatters with
  | none => s.quiet (unknown "formatter" name)
  | some f => ⟨(k f).1, (k f).2, s⟩

def ofFormatted (r : Formatter.Formatted) : Answer × List Event :=
  match r.result with
  | .ok m => (.message m, r.events)
  | .error f => (.failed f, r.events)

def step (s : Session) : Step → Outcome
  | .resolve name request => s.resolve name request
  | .render name context => s.quiet (s.render name context)
  | .clear => { s with store := s.store.clear }.quiet .done
  | .write path text => { s with disk := s.disk.write path text }.quiet .done
  | .remove path => { s with disk := s.disk.remove path }.quiet .done
  -- a directory is no file, so none of them has changed
  | .makeDirectory _ => s.quiet .done
  | .make name kind options hook => s.make name kind options hook
  | .info name => s.withFormatter name fun f => (.formatter f, [])
  | .formatBuild name mode builder build master blamelist =>
    s.withFormatter name fun f =>
      if f.kind.formatsBuilds then
        ofFormatted (f.formatBuild mode builder build master blamelist)
      else (.failed .wrongKind, [])
  | .formatWorker name master worker =>
    s.withFormatter name fun f =>
      if f.kind.formatsBuilds then (.failed .wrongKind, [])
      else ofFormatted (f.formatWorker master worker)
  | .equals name other =>
    s.withFormatter name fun f =>
      match Record.get? other s.formatters with
      | none => (unknown "formatter" other, [])
      | some g => (.equal (f.equals g), [])
  | .equalsValue name => s.withFormatter name fun _ => (.equal false, [])

def run (s : Session) : List Step → List Outcome
  | [] => []
  | step :: rest =>
    let o := s.step step
    o :: run o.session rest

end Session

end BuildNotice
