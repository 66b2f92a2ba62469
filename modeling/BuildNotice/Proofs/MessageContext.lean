import BuildNotice.Proofs.Build.Status
import BuildNotice.Proofs.Formatter.Pipeline

namespace BuildNotice.MessageContext

open Build

structure IsRecorded (build : Value) : Prop where
  isNullish : build.isNullish = false
  results : (build.own "results").isCode = true
  state : (build.own "state_string").isTextOrNothing = true
  properties : (build.own "properties").isNullish = false
  stamps : ∃ label stamps, (build.own "buildset").own "sourcestamps" = .list label stamps ∧
    stamps.all isStamp = true

lemma IsRecorded.buildset {build : Value} (h : IsRecorded build) :
    (build.own "buildset").isNullish = false := by
  obtain ⟨label, stamps, hs, -⟩ := h.stamps
  exact Value.isNullish_of_own "sourcestamps" (by rw [hs]; rfl)

def workerOf (build : Value) : Value :=
  if ((build.own "properties").own "workername").isTruthy then
    ((build.own "properties").own "workername").own "0"
  else .text unknownWorker

lemma workerName_eq {build : Value} (h : IsRecorded build) :
    workerName build = .ok (workerOf build) := by
  rw [workerName, memberOf_of_isNullish h.isNullish]
  change (memberOf (build.own "properties") "workername" >>= _) = _
  rw [memberOf_of_isNullish h.properties]
  rfl

lemma ofBuild_eq {f : Finished} (h : IsRecorded f.build) {label : Nat} {tags : List Value}
    (hmode : f.mode = .list label tags) :
    ∃ stamps, ofBuild f = .ok [("results", f.build.own "results"), ("mode", f.mode),
      ("buildername", f.builderName), ("workername", workerOf f.build),
      ("buildset", f.build.own "buildset"), ("build", f.build), ("projects", f.projectsText),
      ("previous_results", f.previousResults),
      ("status_detected", .text (wordsFor (Outcome.ofValue (f.build.own "results"))
        (turns (Outcome.ofValue (f.build.own "results")) f.previousResults
          (isTagged tags "change") (isTagged tags "problem")))),
      ("build_url", f.buildURL), ("buildbot_url", f.buildbotURL), ("blamelist", f.blamelist),
      ("summary", .text (summary (Outcome.ofValue (f.build.own "results"))
        (suffixOf (f.build.own "state_string")))),
      ("sourcestamps", .text stamps)] := by
  have hbuildset := memberOf_of_isNullish h.isNullish "buildset"
  have hresults := memberOf_of_isNullish h.isNullish "results"
  have hdetected := detectedText_eq h.results label tags f.previousResults
  rw [← hmode] at hdetected
  have hsummary := summaryText_eq h.isNullish h.state (f.build.own "results")
  obtain ⟨l, stamps, hs, hall⟩ := h.stamps
  have hstamps : stampText ((f.build.own "buildset").own "sourcestamps") =
      .ok (writeLines stamps) := hs ▸ stampText_eq hall l
  refine ⟨writeLines stamps, ?_⟩
  simp [ofBuild, hbuildset, hresults, workerName_eq h, hdetected, hsummary,
    memberOf_of_isNullish h.buildset, hstamps, bind, Except.bind]

/-- The summary and the words for the outcome do not contradict each other, and the state of the
build ends the summary of a build with warnings and of one that failed. -/
theorem ofBuild_texts_agree {f : Finished} (h : IsRecorded f.build) {label : Nat}
    {tags : List Value} (hmode : f.mode = .list label tags) :
    ∃ context detected summary, ofBuild f = .ok context ∧
      Record.get? "status_detected" context = some (.text detected) ∧
      Record.get? "summary" context = some (.text summary) ∧
      (summary = "Build succeeded!" ↔ detected = "passing build" ∨ detected = "restored build") ∧
      ((∃ rest, summary = "Build Had Warnings" ++ rest) ↔ detected = "problem in the build") ∧
      (summary = "Build was cancelled" ↔ detected = "cancelled build") ∧
      ((∃ rest, summary = "BUILD FAILED" ++ rest) ↔ detected ∉
        ["passing build", "restored build", "problem in the build", "cancelled build"]) ∧
      (∀ state, f.build.own "state_string" = .text state →
        ((∃ lead, summary = lead ++ ": " ++ state) ↔ state ≠ "" ∧
          ((∃ rest, summary = "Build Had Warnings" ++ rest) ∨
            ∃ rest, summary = "BUILD FAILED" ++ rest))) ∧
      ((f.build.own "state_string").words? = none → summary ∈
        ["Build succeeded!", "Build Had Warnings", "Build was cancelled", "BUILD FAILED"]) := by
  obtain ⟨stamps, hcontext⟩ := ofBuild_eq h hmode
  have hwarned := summary_begins_iff (Outcome.ofValue (f.build.own "results")) .warnings
    (suffixOf (f.build.own "state_string"))
  have hfailed := summary_begins_iff (Outcome.ofValue (f.build.own "results")) .failure
    (suffixOf (f.build.own "state_string"))
  refine ⟨_, _, _, hcontext, rfl, rfl, ?_, hwarned.trans (heading_eq_warnings_iff _ _), ?_,
    hfailed.trans (heading_eq_failed_iff _ _), fun state hstate => ?_, fun hnone => ?_⟩
  · exact (summary_eq_heading_iff (p := .success) rfl _ _).trans (heading_eq_success_iff _ _)
  · exact (summary_eq_heading_iff (p := .cancelled) rfl _ _).trans (heading_eq_cancelled_iff _ _)
  · rw [summary_ends_iff _ hstate, showsState_iff]
    exact and_congr_right fun _ => (or_congr hwarned hfailed).symm
  · rw [summary_bare hnone]
    cases Outcome.ofValue (f.build.own "results") <;> decide

def unfinished : Finished where
  mode := .list 1 [.text "change"]
  builderName := .text "b"
  build := .record 3 [("results", .null), ("state_string", .text "lint"),
    ("properties", .record 1 []), ("buildset", .record 2 [("sourcestamps", .list 1 [])])]
  previousResults := .number 2
  blamelist := .list 1 []
  projectsText := .text "CI"
  buildURL := .text "http://ci/#/builders/1/builds/2"
  buildbotURL := .text "http://ci/"

lemma unfinished_isRecorded : IsRecorded unfinished.build :=
  ⟨rfl, rfl, rfl, rfl, 1, [], rfl, rfl⟩

theorem ofBuild_texts_agree_unfinished :
    IsRecorded unfinished.build ∧ unfinished.mode = .list 1 [.text "change"] ∧
      unfinished.build.own "state_string" = .text "lint" ∧
      ∃ context summary, ofBuild unfinished = .ok context ∧
        Record.get? "status_detected" context = some (.text "not finished build") ∧
        Record.get? "summary" context = some (.text summary) ∧
        (∃ rest, summary = "BUILD FAILED" ++ rest) ∧ ∃ lead, summary = lead ++ ": " ++ "lint" := by
  obtain ⟨context, detected, summary, hcontext, hdetected, hsummary, -, -, -, hfailed, hstate, -⟩ :=
    ofBuild_texts_agree unfinished_isRecorded (show unfinished.mode = .list 1 _ from rfl)
  have hsaid : detected = "not finished build" := by
    obtain ⟨_, hbuild⟩ := ofBuild_eq unfinished_isRecorded
      (show unfinished.mode = .list 1 _ from rfl)
    obtain rfl := Except.ok.inj (hcontext.symm.trans hbuild)
    exact (Value.text.inj (Option.some.inj hdetected)).symm
  have hfails : ∃ rest, summary = "BUILD FAILED" ++ rest := hfailed.mpr (by rw [hsaid]; decide)
  exact ⟨unfinished_isRecorded, rfl, rfl, context, summary, hcontext, hsaid ▸ hdetected, hsummary,
    hfails, (hstate "lint" rfl).mpr ⟨by decide, .inr hfails⟩⟩

end BuildNotice.MessageContext
