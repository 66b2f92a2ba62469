import BuildNotice.Template.Position
import BuildNotice.Text.Blank
import BuildNotice.Text.Search

namespace BuildNotice.Template

inductive RenderError where
  | missingArgument (key : String)
  | notDefined (key container : String) (position : Position)
  | notSearchable (key container : String)
  | memberOfNothing (nothing key : String)
  | failure (message : String)
  | wrongKind
  | tooDeep
  deriving DecidableEq

namespace RenderError

open Text

def message : RenderError → String
  | .missingArgument key => "'" ++ key ++ "' is undefined in the rendering context"
  | .notDefined key container p =>
    "\"" ++ key ++ "\" not defined in " ++ container ++ " - " ++ p.toText
  | .notSearchable key container =>
    "Cannot use 'in' operator to search for '" ++ key ++ "' in " ++ container
  | .memberOfNothing nothing key =>
    "Cannot read properties of " ++ nothing ++ " (reading '" ++ key ++ "')"
  | .failure message => message
  | .wrongKind => "A value is of the wrong kind"
  | .tooDeep => "Maximum call stack size exceeded"

def quotedBefore (close : List Char) : List Char → Option (List Char)
  | [] => none
  | c :: cs =>
    if Blank.isLineEnd c then none
    else if Search.startsWith close cs then some [c]
    else (quotedBefore close cs).map (c :: ·)

def keyQuotes : List (String × String) :=
  [("\"", "\" not defined in"),
    ("Cannot use 'in' operator to search for '", "' in"),
    ("Cannot read properties of undefined (reading '", "')"),
    ("Cannot read properties of null (reading '", "')")]

def missingKeyIn? (message : String) : Option String :=
  keyQuotes.findSome? fun (before, after) =>
    (Search.after? before.toList message.toList).bind fun rest =>
      (quotedBefore after.toList rest).map String.ofList

def missingKey? (e : RenderError) : Option String :=
  missingKeyIn? e.message

end RenderError

end BuildNotice.Template
