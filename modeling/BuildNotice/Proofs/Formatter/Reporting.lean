import BuildNotice.Proofs.Formatter.Pipeline

namespace BuildNotice

open Value (Fields)

namespace Failure

end Failure

structure Event.Carries (entry : Event) (severity : Severity) (fields : Fields) : Prop where
  component : entry.component = .formatter
  severity : entry.severity = severity
  fields : ∀ f ∈ fields, Record.get? f.1 entry.fields = some f.2

namespace Formatter

open Hook

inductive Call where
  | finished (mode builder build master blamelist : Value)
  | missing (master worker : Value)

namespace Call

def master : Call → Value
  | .finished _ _ _ master _ => master
  | .missing master _ => master

def context : Call → Except Failure Fields
  | .finished mode builder build master blamelist =>
    buildContext mode builder build master blamelist
  | .missing master worker => workerContext master worker

def details : Call → Fields
  | .finished _ builder build _ _ => [("operation", .text "formatForBuild"), ("builder", builder),
      ("buildNumber", build.own "number")]
  | .missing _ worker => [("operation", .text "formatForMissingWorker"),
      ("worker", worker.own "name")]

def subject : Call → Subject
  | .finished _ builder build _ _ => .build builder (build.own "number")
  | .missing _ worker => .worker (worker.own "name")

end Call

def format (f : Formatter) : Call → Formatted
  | .finished mode builder build master blamelist =>
    f.formatBuild mode builder build master blamelist
  | .missing master worker => f.formatWorker master worker

structure Gives (f : Formatter) (call : Call) (m : Message) : Prop where
  result : (f.format call).result = .ok m
  entry : ∃ subject duration type, (f.format call).events = [.completed subject duration type] ∧
    (Event.completed subject duration type).Carries .debug
      (("type", .text m.type.name) :: call.details)

variable {f : Formatter} {call : Call} {context : Fields}

end Formatter

end BuildNotice
