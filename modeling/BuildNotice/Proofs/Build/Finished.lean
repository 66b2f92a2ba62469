import BuildNotice.Proofs.MessageContext
import BuildNotice.Proofs.Value.Printable

namespace BuildNotice

open Value (Fields)

def Value.isNumber : Value → Bool
  | .number _ => true
  | _ => false

def Value.isPrimitive : Value → Bool
  | .text _ => true
  | .number _ => true
  | .bool _ => true
  | .null => true
  | _ => false

namespace Build

open MessageContext (IsRecorded workerOf memberOf_of_isNullish config_ok)

def isProperty : Value → Bool
  | .list _ [v, .text _] => v.isPrimitive
  | .undefined => true
  | _ => false

structure IsFinished (build : Value) : Prop where
  isRecord : Options.isRecord build = true
  number : (build.own "number").isNumber = true
  results : (build.own "results").isNumber = true
  state : (build.own "state_string").isTextOrNothing = true
  builder : ((build.own "builder").own "builderid").isNumber = true
  properties : ∃ label fields, build.own "properties" = .record label fields ∧
    ∀ name v, Record.get? name fields = some v → isProperty v = true
  stamps : ∃ label stamps, (build.own "buildset").own "sourcestamps" = .list label stamps ∧
    stamps.all isStamp = true

lemma print_of_number {v : Value} (h : v.isNumber = true) : ∃ s, v.print? = some s := by
  cases v with
  | number x => exact ⟨_, rfl⟩
  | _ => exact absurd h (by simp [Value.isNumber])

lemma projectsText_ok {stamps : List Value} (h : stamps.all isStamp = true) (label : Nat)
    (title : String) : ∃ projects, projectsText (.list label stamps) (.text title) =
      .ok (.text projects) := by
  rw [projectsText_eq h]
  split
  · exact ⟨title, rfl⟩
  · exact ⟨_, rfl⟩

lemma isCode_of_isNumber {v : Value} (h : v.isNumber = true) : v.isCode = true := by
  cases v with
  | number x => rfl
  | _ => exact absurd h (by simp [Value.isNumber])

def firstOf (build : Value) (name : String) : Value :=
  match (build.own "properties").own name with
  | .list _ (v :: _) => v
  | _ => .text "<unknown>"

lemma property_cases {build : Value} (h : IsFinished build) (name : String) :
    (∃ label v source, (build.own "properties").own name = .list label [v, source] ∧
      v.isPrimitive = true) ∨ (build.own "properties").own name = .undefined := by
  obtain ⟨label, fields, hp, hall⟩ := h.properties
  rw [hp, Value.own, Value.own?]
  cases hv : Record.get? name fields with
  | none => exact .inr rfl
  | some v =>
    have hprop := hall name v hv
    unfold isProperty at hprop
    split at hprop
    · next l w source => exact .inl ⟨l, w, .text source, rfl, hprop⟩
    · exact .inr rfl
    · exact absurd hprop (by simp)

lemma firstOf_isPrimitive {build : Value} (h : IsFinished build) (name : String) :
    (firstOf build name).isPrimitive = true := by
  rcases property_cases h name with ⟨label, v, source, hv, hp⟩ | hv
  · rw [firstOf, hv]
    exact hp
  · rw [firstOf, hv]
    rfl

lemma firstOf_isPrintable {build : Value} (h : IsFinished build) (name : String) :
    (firstOf build name).isPrintable = true := by
  have hp := firstOf_isPrimitive h name
  apply Value.isPrintable_of_simple
  cases hv : firstOf build name with
  | list label items => simp [hv, Value.isPrimitive] at hp
  | record label fields => simp [hv, Value.isPrimitive] at hp
  | _ => rfl

lemma IsFinished.isRecorded {build : Value} (h : IsFinished build) : IsRecorded build where
  isNullish := isNullish_of_isRecord h.isRecord
  results := isCode_of_isNumber h.results
  state := h.state
  properties := by
    obtain ⟨label, fields, hp, -⟩ := h.properties
    rw [hp]
    rfl
  stamps := h.stamps

lemma workerOf_eq {build : Value} (h : IsFinished build) :
    workerOf build = firstOf build "workername" := by
  rcases property_cases h "workername" with ⟨label, v, source, hv, -⟩ | hv
  · rw [workerOf, firstOf, hv]
    rfl
  · rw [workerOf, firstOf, hv]
    rfl

structure Derives (mode build master : Value) (detected projects link summary : String) : Prop where
  detected : detectedText mode (build.own "results") (Formatter.resultsBefore build) = .ok detected
  projects : projectsText ((build.own "buildset").own "sourcestamps")
    ((master.own "config").own "title") = .ok (.text projects)
  link : linkOf ((master.own "config").own "buildbotURL") ((build.own "builder").own "builderid")
    (build.own "number") = .ok link
  summary : summaryText build (build.own "results") = .ok summary

structure Holds (base : Fields) (builder build blamelist : Value) (url : String)
    (detected projects link summary : String) : Prop where
  detected : Record.get? "status_detected" base = some (.text detected)
  builder : Record.get? "buildername" base = some builder
  projects : Record.get? "projects" base = some (.text projects)
  link : Record.get? "build_url" base = some (.text link)
  url : Record.get? "buildbot_url" base = some (.text url)
  worker : Record.get? "workername" base = some (firstOf build "workername")
  build : Record.get? "build" base = some build
  blamelist : Record.get? "blamelist" base = some blamelist
  summary : Record.get? "summary" base = some (.text summary)

lemma Holds.congr {base m : Fields} {builder build blamelist : Value}
    {url detected projects link summary : String}
    (h : Holds base builder build blamelist url detected projects link summary)
    (hm : ∀ key, Record.get? key m = Record.get? key base) :
    Holds m builder build blamelist url detected projects link summary :=
  ⟨(hm _).trans h.detected, (hm _).trans h.builder, (hm _).trans h.projects, (hm _).trans h.link,
    (hm _).trans h.url, (hm _).trans h.worker, (hm _).trans h.build, (hm _).trans h.blamelist,
    (hm _).trans h.summary⟩

variable {build master : Value} {title url : String}

lemma previousResults_ok (h : IsFinished build) :
    Formatter.previousResults build = .ok (Formatter.resultsBefore build) := by
  have hprevious := memberOf_of_isNullish (isNullish_of_isRecord h.isRecord) "prev_build"
  simp [Formatter.previousResults, Formatter.resultsBefore, hprevious, bind, Except.bind]

lemma isNullish_of_isNumber {v : Value} (h : v.isNumber = true) : v.isNullish = false := by
  cases v with
  | number x => rfl
  | _ => exact absurd h (by simp [Value.isNumber])

lemma ofBuild_ok (h : IsFinished build) (label : Nat) (tags : List Value)
    (builder blamelist : Value) (url projects link : String) :
    ∃ base detected summary,
      detectedText (.list label tags) (build.own "results") (Formatter.resultsBefore build) =
        .ok detected ∧
      summaryText build (build.own "results") = .ok summary ∧
      MessageContext.ofBuild ⟨.list label tags, builder, build, Formatter.resultsBefore build,
        blamelist, .text projects, .text link, .text url⟩ = .ok base ∧
      Holds base builder build blamelist url detected projects link summary := by
  obtain ⟨stamps, hbase⟩ := MessageContext.ofBuild_eq
    (f := ⟨.list label tags, builder, build, Formatter.resultsBefore build, blamelist,
      .text projects, .text link, .text url⟩) h.isRecorded rfl
  exact ⟨_, _, _, detectedText_eq h.isRecorded.results label tags _,
    summaryText_eq h.isRecorded.isNullish h.state _, hbase,
    ⟨rfl, rfl, rfl, rfl, rfl, congrArg some (workerOf_eq h), rfl, rfl, rfl⟩⟩

lemma buildContext_ok (h : IsFinished build)
    (htitle : (master.own "config").own "title" = .text title)
    (hurl : (master.own "config").own "buildbotURL" = .text url) (label : Nat) (tags : List Value)
    (builder blamelist : Value) :
    ∃ base detected projects link summary,
      Formatter.buildContext (.list label tags) builder build master blamelist = .ok base ∧
      Derives (.list label tags) build master detected projects link summary ∧
      Holds base builder build blamelist url detected projects link summary := by
  obtain ⟨hconfig, hmember⟩ := config_ok htitle
  have hnumber := memberOf_of_isNullish (isNullish_of_isRecord h.isRecord) "number"
  have hbuilder := memberOf_of_isNullish (isNullish_of_isRecord h.isRecord) "builder"
  have hbuildset := memberOf_of_isNullish (isNullish_of_isRecord h.isRecord) "buildset"
  have hid :=
    memberOf_of_isNullish (Value.isNullish_of_own _ (isNullish_of_isNumber h.builder)) "builderid"
  have hstamps := memberOf_of_isNullish h.isRecorded.buildset "sourcestamps"
  obtain ⟨id, hidText⟩ := print_of_number h.builder
  obtain ⟨number, hnumberText⟩ := print_of_number h.number
  obtain ⟨l, stamps, hs, hall⟩ := h.stamps
  obtain ⟨projects, hprojects⟩ := projectsText_ok hall l title
  rw [← hs, ← htitle] at hprojects
  have hlink : linkOf ((master.own "config").own "buildbotURL")
      ((build.own "builder").own "builderid") (build.own "number") =
        .ok (Build.link url id number) := by
    simp only [hurl, linkOf, hidText, hnumberText]
  obtain ⟨base, detected, summary, hdetected, hsummary, hbase, hholds⟩ :=
    ofBuild_ok h label tags builder blamelist url projects (Build.link url id number)
  refine ⟨base, detected, projects, Build.link url id number, summary, ?_,
    ⟨hdetected, hprojects, hlink, hsummary⟩, hholds⟩
  rw [← hurl] at hbase
  simp [Formatter.buildContext, hconfig, hmember, previousResults_ok h, hbuildset, hstamps,
    hprojects, hbuilder, hid, hnumber, hlink, hbase, bind, Except.bind]

end Build

end BuildNotice
