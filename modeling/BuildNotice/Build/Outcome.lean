import BuildNotice.Value.Print

namespace BuildNotice.Build

/-- An outcome is unfinished where no code is given, and unknown where the code is none of the
seven. -/
inductive Outcome where
  | success
  | warnings
  | failure
  | skipped
  | exception
  | retry
  | cancelled
  | unfinished
  | unknown
  deriving DecidableEq

namespace Outcome

def coded : List Outcome :=
  [.success, .warnings, .failure, .skipped, .exception, .retry, .cancelled]

def ofNumber (x : Float) : Outcome :=
  if x == 0 then .success
  else if x == 1 then .warnings
  else if x == 2 then .failure
  else if x == 3 then .skipped
  else if x == 4 then .exception
  else if x == 5 then .retry
  else if x == 6 then .cancelled
  else .unknown

def ofValue : Value → Outcome
  | .undefined => .unfinished
  | .null => .unfinished
  | .number x => ofNumber x
  | _ => .unknown

def name : Outcome → String
  | .success => "success"
  | .warnings => "warnings"
  | .failure => "failure"
  | .skipped => "skipped"
  | .exception => "exception"
  | .retry => "retry"
  | .cancelled => "cancelled"
  | .unfinished => "not finished"
  | .unknown => "Invalid status"

def ofText (s : String) : Outcome :=
  ((Record.index? s).bind (coded[·]?)).getD .unknown

def displayed? : Value → Option Outcome
  | .undefined => some .unfinished
  | .null => some .unfinished
  | .number x => some (ofNumber x)
  | v => v.print?.map ofText

end Outcome

end BuildNotice.Build
