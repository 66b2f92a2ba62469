import BuildNotice.Message
import BuildNotice.Problem
import BuildNotice.Event

/-! Every field is checked, and all problems are told at once: those of the fields in their order, then
the keys that are no fields. -/

namespace BuildNotice

open Value (Fields)

structure Options where
  templateDirectory : Option String
  templateFilename : Option String
  template : Option String
  subjectFilename : Option String
  subject : Option String
  templateType : Option MessageType
  extraContext : Option Fields

structure Want where
  properties : Bool
  steps : Bool
  logs : Bool
  deriving DecidableEq

structure BuildOptions where
  general : Options
  want : Want

namespace Options

def wrongType (key expected : String) (v : Value) : Problem :=
  .wrongType [key] expected (Problem.typeName v)

def textField (data : Value) (key : String) : Except Problem (Option String) :=
  match data.own key with
  | .undefined => .ok none
  | .text s => .ok (some s)
  | v => .error (wrongType key "string" v)

def nonemptyField (data : Value) (key message : String) : Except Problem (Option String) :=
  match textField data key with
  | .ok (some s) => if s = "" then .error (.empty [key] message) else .ok (some s)
  | r => r

def typeField (data : Value) (key : String) : Except Problem (Option MessageType) :=
  match data.own key with
  | .undefined => .ok none
  | .text s =>
    match MessageType.ofName? s with
    | some t => .ok (some t)
    | none => .error (.noChoice [key] (MessageType.all.map MessageType.name) s)
  | v => .error (wrongType key (Problem.choiceText (MessageType.all.map MessageType.name)) v)

def recordField (data : Value) (key : String) : Except Problem (Option Fields) :=
  match data.own key with
  | .undefined => .ok none
  | .record _ fields => .ok (some (Record.erase "__proto__" fields))
  | v => .error (wrongType key "object" v)

def flagField (data : Value) (key : String) (default : Bool) : Except Problem Bool :=
  match data.own key with
  | .undefined => .ok default
  | .bool b => .ok b
  | v => .error (wrongType key "boolean" v)

def valueOf {α : Type} (default : α) : Except Problem α → α
  | .ok a => a
  | .error _ => default

def directoryOf (data : Value) : Except Problem (Option String) :=
  nonemptyField data "templateDirectory" "Template directory cannot be empty"

def filenameOf (data : Value) : Except Problem (Option String) :=
  nonemptyField data "templateFilename" "Template filename cannot be empty"

def subjectFilenameOf (data : Value) : Except Problem (Option String) :=
  nonemptyField data "subjectFilename" "Subject filename cannot be empty"

def nameOf (data : Value) : Except Problem (Option String) :=
  nonemptyField data "templateName" "Template name cannot be empty"

def fieldNames : List String :=
  ["templateDirectory", "templateFilename", "template", "subjectFilename", "subject",
    "templateType", "extraContext"]

def buildFieldNames : List String :=
  fieldNames ++ ["templateName", "wantProperties", "wantSteps", "wantLogs"]

def unknownKeys (names : List String) (data : Value) : List Problem :=
  match data.fields.map (·.1) |>.filter fun k => !names.contains k with
  | [] => []
  | keys => [.unknownKeys keys]

def fieldProblems (data : Value) : List Problem :=
  Problem.ofResult (directoryOf data) ++ Problem.ofResult (filenameOf data) ++
    Problem.ofResult (textField data "template") ++ Problem.ofResult (subjectFilenameOf data) ++
    Problem.ofResult (textField data "subject") ++
    Problem.ofResult (typeField data "templateType") ++
    Problem.ofResult (recordField data "extraContext")

def buildFieldProblems (data : Value) : List Problem :=
  fieldProblems data ++ Problem.ofResult (nameOf data) ++
    Problem.ofResult (flagField data "wantProperties" true) ++
    Problem.ofResult (flagField data "wantSteps" false) ++
    Problem.ofResult (flagField data "wantLogs" false)

def isRecord : Value → Bool
  | .record _ _ => true
  | _ => false

def notARecord (data : Value) : Problem :=
  .wrongType [] "object" (Problem.typeName data)

def problems (data : Value) : List Problem :=
  if isRecord data then fieldProblems data ++ unknownKeys fieldNames data else [notARecord data]

def buildProblems (data : Value) : List Problem :=
  if isRecord data then buildFieldProblems data ++ unknownKeys buildFieldNames data
  else [notARecord data]

def ofValue (data : Value) : Options :=
  ⟨valueOf none (directoryOf data), valueOf none (filenameOf data),
    valueOf none (textField data "template"), valueOf none (subjectFilenameOf data),
    valueOf none (textField data "subject"), valueOf none (typeField data "templateType"),
    valueOf none (recordField data "extraContext")⟩

def wantOf (data : Value) : Want :=
  ⟨valueOf true (flagField data "wantProperties" true),
    valueOf false (flagField data "wantSteps" false),
    valueOf false (flagField data "wantLogs" false)⟩

def invalid (problems : List Problem) : Fault :=
  .configuration
    ("Invalid formatter options: " ++ String.intercalate "; " (problems.map Problem.text))
    (Value.ofFields [("issues", Value.ofItems (problems.map Problem.toValue))])

def parse (data : Value) : Except Fault Options :=
  match problems data with
  | [] => .ok (ofValue data)
  | ps => .error (invalid ps)

def rename (name : Option String) (o : Options) : Options × List Event :=
  match name with
  | none => (o, [])
  | some name => ({ o with templateFilename := some name },
      [.renamedOption name o.templateFilename])

def parseBuild (data : Value) : Except Fault (BuildOptions × List Event) :=
  match buildProblems data with
  | [] =>
    let (general, events) := rename (valueOf none (nameOf data)) (ofValue data)
    .ok (⟨general, wantOf data⟩, events)
  | ps => .error (invalid ps)

def optionalText (key : String) : Option String → Fields
  | some s => [(key, .text s)]
  | none => []

def toFields (o : Options) : Fields :=
  optionalText "templateDirectory" o.templateDirectory ++
    optionalText "templateFilename" o.templateFilename ++ optionalText "template" o.template ++
    optionalText "subjectFilename" o.subjectFilename ++ optionalText "subject" o.subject ++
    optionalText "templateType" (o.templateType.map MessageType.name) ++
    (match o.extraContext with
    | some fields => [("extraContext", Value.ofFields fields)]
    | none => [])

end Options

namespace BuildOptions

def toFields (o : BuildOptions) : Fields :=
  o.general.toFields ++ [("wantProperties", .bool o.want.properties),
    ("wantSteps", .bool o.want.steps), ("wantLogs", .bool o.want.logs)]

end BuildOptions

end BuildNotice
