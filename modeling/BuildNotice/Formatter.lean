import BuildNotice.Hook
import BuildNotice.Options
import BuildNotice.Renderer
import BuildNotice.Store

/-! To format is to assemble a context, run the hook on it, lay the extra context over it and render. -/

namespace BuildNotice

open Value (Fields)

namespace Formatter

/-- A staging formatter is one of builds that names its environment and knows no other hook. -/
inductive Kind where
  | build
  | worker
  | staging
  deriving DecidableEq

def Kind.formatsBuilds : Kind → Bool
  | .worker => false
  | _ => true

def Kind.defaultFilename (k : Kind) : String :=
  if k.formatsBuilds then Template.Bundled.buildName else Template.Bundled.workerName

end Formatter

structure Formatter where
  kind : Formatter.Kind
  renderer : Renderer
  want : Want
  hook : Hook

namespace Formatter

def optionValue : Option String → Value
  | some s => .text s
  | none => .undefined

def typeOf (o : Options) : MessageType := o.templateType.getD .plain

def request (o : Options) (default : String) (content filename : Option String) : Request :=
  ⟨optionValue content, optionValue o.templateDirectory, optionValue filename, .text default,
    .bool !(typeOf o).escapes⟩

def bodyRequest (o : Options) (default : String) : Request :=
  request o default o.template o.templateFilename

def subjectRequest (o : Options) (default : String) : Request :=
  request o default o.subject o.subjectFilename

def isGiven (s : Option String) : Bool :=
  s.getD "" != ""

def hasSubject (o : Options) : Bool :=
  isGiven o.subjectFilename || isGiven o.subject

def rendererOf (o : Options) (templates : Template × Option Template) : Renderer :=
  ⟨templates.1, templates.2, typeOf o, o.extraContext.getD []⟩

def templatesOf (s : Store) (disk : Disk) (o : Options) (default : String) :
    Store.Made (Template × Option Template) :=
  s.resolvePair disk (bodyRequest o default)
    (if hasSubject o then some (subjectRequest o default) else none)

def noWant : Want := ⟨true, false, false⟩

def parseOptions (kind : Kind) (settings : Value) : Except Fault (BuildOptions × List Event) :=
  if kind.formatsBuilds then Options.parseBuild settings
  else (Options.parse settings).map fun o => (⟨o, noWant⟩, [])

def ofTemplates (kind : Kind) (o : BuildOptions) (hook : Hook)
    (templates : Template × Option Template) : Formatter :=
  ⟨kind, rendererOf o.general templates, o.want, hook⟩

def hookKey : String := "buildAdditionalContext"

def settingsOf (options : Value) : Except Failure Value :=
  match options with
  | .undefined => .ok (Value.ofFields [])
  | .null => .error .wrongKind
  | v => .ok (Value.ofFields (Record.erase hookKey v.spread))

/-- The hook that was given, or what stands in its place among the options: that is no hook and
fails when it is run. -/
def hookOf (options : Value) (hook : Option Hook) : Hook :=
  match hook with
  | some h => h
  | none => if (options.own hookKey).isTruthy then [.throw .wrongKind] else []

def makeWith (s : Store) (disk : Disk) (kind : Kind) (settings : Value) (hook : Hook) :
    Store.Made Formatter :=
  match parseOptions kind settings with
  | .error f => ⟨.error (.fault f), s, []⟩
  | .ok (o, events) =>
    let found := templatesOf s disk o.general kind.defaultFilename
    ⟨found.result.map (ofTemplates kind o hook), found.store, events ++ found.events⟩

def make (s : Store) (disk : Disk) (kind : Kind) (options : Value) (hook : Option Hook) :
    Store.Made Formatter :=
  match settingsOf options with
  | .error f => ⟨.error f, s, []⟩
  | .ok settings => makeWith s disk kind settings (hookOf options hook)

def prepare (f : Formatter) (master : Value) (context : Fields) : Except Failure Fields :=
  match f.kind with
  | .staging => do
    match (← Hook.titleOf master).print? with
    | some title => .ok (Record.set "environment" (.text (title ++ " staging")) context)
    | none => .error .wrongKind
  | _ => f.hook.run master context

structure Formatted where
  result : Except Failure Message
  events : List Event

def messageOf (f : Formatter) (master : Value) (context : Fields) : Except Failure Message := do
  let context ← f.prepare master context
  f.renderer.render (Value.ofFields (f.renderer.merge (Value.ofFields context)))

def report (subject : Subject) (r : Except Failure Message) : Formatted :=
  match r with
  | .ok m => ⟨.ok m, [.completed subject 0 m.type.name]⟩
  | .error e =>
    match e.normalize? with
    | some fault => ⟨.error e, [.failed subject 0 fault]⟩
    | none => ⟨.error .wrongKind, []⟩

def renderMessage (f : Formatter) (master : Value) (subject : Subject)
    (context : Except Failure Fields) : Formatted :=
  match context with
  | .error e => ⟨.error e, []⟩
  | .ok context => report subject (f.messageOf master context)

open MessageContext (memberOf)

def previousResults (build : Value) : Except Failure Value := do
  let previous ← memberOf build "prev_build"
  .ok (if previous.isTruthy then previous.own "results" else .null)

def buildContext (mode builder build master blamelist : Value) : Except Failure Fields := do
  let config ← memberOf master "config"
  let title ← memberOf config "title"
  let url ← memberOf config "buildbotURL"
  let previous ← previousResults build
  let stamps ← memberOf (← memberOf build "buildset") "sourcestamps"
  let projects ← Build.projectsText stamps title
  let builderId ← memberOf (← memberOf build "builder") "builderid"
  let link ← Build.linkOf url builderId (← memberOf build "number")
  MessageContext.ofBuild ⟨mode, builder, build, previous, blamelist, projects, .text link, url⟩

def workerContext (master worker : Value) : Except Failure Fields := do
  let config ← memberOf master "config"
  let title ← memberOf config "title"
  let url ← memberOf config "buildbotURL"
  let _ ← memberOf worker "name"
  .ok (MessageContext.ofWorker title url worker)

def formatBuild (f : Formatter) (mode builder build master blamelist : Value) : Formatted :=
  f.renderMessage master (.build builder (build.own "number"))
    (buildContext mode builder build master blamelist)

def formatWorker (f : Formatter) (master worker : Value) : Formatted :=
  f.renderMessage master (.worker (worker.own "name")) (workerContext master worker)

def subjectId (f : Formatter) : Option String :=
  f.renderer.subject.map fun t => t.source.id

def equals (f g : Formatter) : Bool :=
  f.kind == g.kind && g.renderer.body.source.id == f.renderer.body.source.id &&
    g.subjectId == f.subjectId && g.renderer.type == f.renderer.type &&
    (!f.kind.formatsBuilds || g.want == f.want)

end Formatter

end BuildNotice
