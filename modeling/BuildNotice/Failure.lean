import BuildNotice.Fault
import BuildNotice.Value.Sum

/-! Everything that can stop an operation, and the fault that stands for it in the log. -/

namespace BuildNotice

inductive ErrorKind where
  | plain
  | wrongKind
  | outOfRange
  deriving DecidableEq

def ErrorKind.name : ErrorKind → String
  | .plain => "Error"
  | .wrongKind => "TypeError"
  | .outOfRange => "RangeError"

inductive Failure where
  | fault (f : Fault)
  | error (kind : ErrorKind) (message : String)
  | issues (issues : List Value)
  | thrown (v : Value)

namespace Issue

def lead (path : String) (message : Value) : Option String :=
  message.print?.map (path ++ ": " ++ ·)

def alone (message : Value) : Option String :=
  if message.isNullish then some "" else message.print?

def isPositive? (length : Value) : Option Bool :=
  length.plain?.map fun n => decide (0 < n.toNumber)

/-- One issue as text: where it lies, if anywhere, and what it says. Only a list can be joined. -/
def text? (issue : Value) : Option String :=
  let message := issue.own "message"
  match issue.own "path" with
  | .list _ segments =>
    if segments.isEmpty then alone message
    else (Value.printItems? segments).bind fun parts => lead (String.intercalate "." parts) message
  | path =>
    if path.isNullish || isPositive? (path.own "length") ≠ some false then none else alone message

def texts? : List Value → Option (List String)
  | [] => some []
  | issue :: rest =>
    match text? issue, texts? rest with
    | some t, some ts => some (t :: ts)
    | _, _ => none

def summary? (issues : List Value) : Option String :=
  (texts? issues).map (String.intercalate "; ")

end Issue

namespace Failure

def wrongKind : Failure := .error .wrongKind ""

def issuesFault (message : String) (issues : List Value) : Fault :=
  .configuration message (Value.ofFields [("issues", Value.ofItems issues)])

def unknown (message cause : String) : Fault :=
  .general message false (.text "UNKNOWN_ERROR") (Value.ofFields [("originalError", .text cause)])

def normalize? : Failure → Option Fault
  | .fault f => some f
  | .issues items => (Issue.summary? items).map fun text => issuesFault text items
  | .error _ message => some (unknown message message)
  | .thrown v => v.print?.map (unknown "An unexpected error occurred")

end Failure

end BuildNotice
