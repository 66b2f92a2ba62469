import BuildNotice.Failure
import BuildNotice.Value.Sum

namespace BuildNotice.Build

def itemsOf : Value → Except Failure (List Value)
  | .list _ items => .ok items
  | .text s => .ok (s.toList.map fun c => .text (String.singleton c))
  | _ => .error .wrongKind

def textOf (v : Value) : Except Failure String :=
  match v.print? with
  | some s => .ok s
  | none => .error .wrongKind

def given (v : Value) (write : String → String) (absent : String) : Except Failure String :=
  if v.isTruthy then do .ok (write (← textOf v)) else .ok absent

def stampLine (stamp : Value) : Except Failure String :=
  if stamp.isNullish then .error .wrongKind
  else do
    let branch ← given (stamp.own "branch") (fun s => "[branch " ++ s ++ "] ") ""
    let revision ← given (stamp.own "revision") (fun s => s) "HEAD"
    let patch := if (stamp.own "patch").isNullish then "" else " (plus patch)"
    let codebase ← given (stamp.own "codebase") (fun s => " '" ++ s ++ "'") ""
    .ok ("Build Source Stamp" ++ codebase ++ ": " ++ branch ++ revision ++ patch ++ "\n")

def stampLines : List Value → Except Failure String
  | [] => .ok ""
  | stamp :: rest => do
    let line ← stampLine stamp
    .ok (line ++ (← stampLines rest))

def stampText (stamps : Value) : Except Failure String := do
  stampLines (← itemsOf stamps)

def addProject (projects : List Value) (v : Value) : List Value :=
  if v.isTruthy && !projects.any (·.sameOrNaN v) then projects ++ [v] else projects

def projectOf (stamp : Value) : Except Failure Value :=
  if stamp.isNullish then .error .wrongKind else .ok (stamp.own "project")

def projectsFrom (projects : List Value) : List Value → Except Failure (List Value)
  | [] => .ok projects
  | stamp :: rest => do projectsFrom (addProject projects (← projectOf stamp)) rest

def projects (stamps : Value) : Except Failure (List Value) := do
  projectsFrom [] (← itemsOf stamps)

def projectsText (stamps title : Value) : Except Failure Value := do
  let found ← projects stamps
  if found.isEmpty then .ok title
  else match Value.printItems? found with
    | some parts => .ok (.text (String.intercalate ", " parts))
    | none => .error .wrongKind

end BuildNotice.Build
