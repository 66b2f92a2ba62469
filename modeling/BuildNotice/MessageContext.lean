import BuildNotice.Build.Status
import BuildNotice.Build.Stamp
import BuildNotice.Build.Link

namespace BuildNotice.MessageContext

open Value (Fields)

structure Finished where
  mode : Value
  builderName : Value
  build : Value
  previousResults : Value
  blamelist : Value
  projectsText : Value
  buildURL : Value
  buildbotURL : Value

def unknownWorker : String := "<unknown>"

def memberOf (v : Value) (key : String) : Except Failure Value :=
  if v.isNullish then .error .wrongKind else .ok (v.own key)

def workerName (build : Value) : Except Failure Value := do
  let property ← memberOf (← memberOf build "properties") "workername"
  .ok (if property.isTruthy then property.own "0" else .text unknownWorker)

def ofBuild (f : Finished) : Except Failure Fields := do
  let buildset ← memberOf f.build "buildset"
  let results ← memberOf f.build "results"
  let worker ← workerName f.build
  let detected ← Build.detectedText f.mode results f.previousResults
  let summary ← Build.summaryText f.build results
  let stamps ← Build.stampText (← memberOf buildset "sourcestamps")
  .ok [("results", results), ("mode", f.mode), ("buildername", f.builderName),
    ("workername", worker), ("buildset", buildset), ("build", f.build),
    ("projects", f.projectsText), ("previous_results", f.previousResults),
    ("status_detected", .text detected), ("build_url", f.buildURL),
    ("buildbot_url", f.buildbotURL), ("blamelist", f.blamelist), ("summary", .text summary),
    ("sourcestamps", .text stamps)]

def ofWorker (title url worker : Value) : Fields :=
  [("buildbot_title", title), ("buildbot_url", url), ("worker", worker)]

end BuildNotice.MessageContext
