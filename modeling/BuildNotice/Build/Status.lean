import BuildNotice.Build.Outcome
import BuildNotice.Failure
import BuildNotice.Text.Search
import BuildNotice.Value.Sum

namespace BuildNotice.Build

def statusText (code : Value) : Except Failure String :=
  match Outcome.displayed? code with
  | some o => .ok o.name
  | none => .error .wrongKind

def hasTag (mode : Value) (tag : String) : Except Failure Bool :=
  match mode with
  | .list _ items => .ok (items.any fun v => v.same (.text tag))
  | .text s => .ok (Text.Search.contains tag.toList s.toList)
  | _ => .error .wrongKind

def isKnownOther (o : Outcome) (previous : Value) : Bool :=
  !previous.isNullish && Outcome.ofValue previous != o

def isKnownProblem (previous : Value) : Bool :=
  previous.isTruthy && Outcome.ofValue previous != .failure

def isNewFailure (mode previous : Value) : Except Failure Bool := do
  let change ← hasTag mode "change"
  if change && isKnownOther .failure previous then .ok true
  else do
    let problem ← hasTag mode "problem"
    .ok (problem && isKnownProblem previous)

def isRestored (mode previous : Value) : Except Failure Bool := do
  let change ← hasTag mode "change"
  .ok (change && isKnownOther .success previous)

def detectedText (mode results previous : Value) : Except Failure String :=
  match Outcome.ofValue results with
  | .failure => do .ok (if ← isNewFailure mode previous then "new failure" else "failed build")
  | .warnings => .ok "problem in the build"
  | .success => do .ok (if ← isRestored mode previous then "restored build" else "passing build")
  | .exception => .ok "build exception"
  | _ => do .ok ((← statusText results) ++ " build")

def stateSuffix (build : Value) : Except Failure String :=
  if build.isNullish then .error .wrongKind
  else
    let state := build.own "state_string"
    if state.isTruthy then
      match state.print? with
      | some s => .ok (": " ++ s)
      | none => .error .wrongKind
    else .ok ""

def summary (o : Outcome) (suffix : String) : String :=
  match o with
  | .success => "Build succeeded!"
  | .warnings => "Build Had Warnings" ++ suffix
  | .cancelled => "Build was cancelled"
  | _ => "BUILD FAILED" ++ suffix

def summaryText (build results : Value) : Except Failure String := do
  .ok (summary (Outcome.ofValue results) (← stateSuffix build))

end BuildNotice.Build
