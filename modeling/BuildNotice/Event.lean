import BuildNotice.Template
import BuildNotice.Text.Units

namespace BuildNotice

inductive Component where
  | templates
  | formatter
  deriving DecidableEq

def Component.name : Component → String
  | .templates => "templates"
  | .formatter => "formatter"

inductive Severity where
  | debug
  | warn
  | error
  deriving DecidableEq

def Severity.name : Severity → String
  | .debug => "debug"
  | .warn => "warn"
  | .error => "error"

inductive Subject where
  | build (builder number : Value)
  | worker (name : Value)

namespace Subject

open Value (Fields)

def operation : Subject → String
  | .build _ _ => "formatForBuild"
  | .worker _ => "formatForMissingWorker"

def toFields : Subject → Fields
  | .build builder number => [("builder", builder), ("buildNumber", number)]
  | .worker name => [("worker", name)]

end Subject

inductive Event where
  | compiled (source : Source) (noEscape : Value)
  | renamedOption (filename : String) (ignored : Option String)
  | completed (subject : Subject) (duration : Float) (type : String)
  | failed (subject : Subject) (duration : Float) (fault : Fault)

namespace Event

open Value (Fields)

def component : Event → Component
  | .compiled _ _ => .templates
  | _ => .formatter

def severity : Event → Severity
  | .compiled _ _ => .debug
  | .renamedOption _ _ => .warn
  | .completed _ _ _ => .debug
  | .failed _ _ _ => .error

def message : Event → String
  | .compiled _ _ => "Template compiled"
  | .renamedOption _ _ => "templateName is deprecated, use templateFilename"
  | .completed _ _ _ => "Operation completed"
  | .failed _ _ _ => "Operation failed"

def shownLength : Nat := 120

def shownId (source : Source) : String :=
  String.ofList (Text.Units.take shownLength source.id.toList)

def optionalText : Option String → Value
  | some s => .text s
  | none => .undefined

def fields : Event → Fields
  | .compiled source noEscape =>
    [("sourceId", .text (shownId source)), ("noEscape", noEscape)]
  | .renamedOption filename ignored =>
    [("templateName", .text filename), ("ignoredTemplateFilename", optionalText ignored)]
  | .completed subject duration type =>
    [("operation", .text subject.operation), ("duration", .number duration)] ++
      subject.toFields ++ [("type", .text type)]
  | .failed subject duration fault =>
    [("operation", .text subject.operation), ("duration", .number duration),
      ("err", Value.ofFields fault.toFields)] ++ subject.toFields

end Event

end BuildNotice
