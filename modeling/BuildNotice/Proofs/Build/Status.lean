import BuildNotice.Build.Status
import BuildNotice.Proofs.Build.Stamps
import Mathlib

namespace BuildNotice

section Numbers

open Float.Model.UnpackedFloat

lemma beq_iff {x y : Float} : (x == y) = true ↔ x.toModel.unpack ≠ notANumber ∧
    y.toModel.unpack ≠ notANumber ∧ (x.toModel.unpack = y.toModel.unpack ∨
      x.toModel.unpack = zero .positive ∧ y.toModel.unpack = zero .negative ∨
      x.toModel.unpack = zero .negative ∧ y.toModel.unpack = zero .positive) :=
  beq_iff_ne_notANumber_and_eq x.toModel.unpack y.toModel.unpack

lemma beq_of_beq {x y z : Float} (hy : (x == y) = true) (hz : (x == z) = true) :
    (y == z) = true := by
  rw [beq_iff] at *
  grind

lemma isNaN_of_beq {x y : Float} (h : (x == y) = true) : x.isNaN = false :=
  Bool.eq_false_iff.mpr fun hnan => (beq_iff.mp h).1 (isNaN_iff.mp hnan)

end Numbers

namespace Value

def isCode : Value → Bool
  | .number _ => true
  | v => v.isNullish

def isNaN : Value → Bool
  | .number x => x.isNaN
  | _ => false

end Value

namespace Build

def isSuccess (v : Value) : Bool := v.same (.number 0)

def isFailure (v : Value) : Bool := v.same (.number 2)

lemma ofValue_eq_success_iff {v : Value} : Outcome.ofValue v = .success ↔ isSuccess v = true := by
  cases v with
  | number x =>
    simp only [Outcome.ofValue, Outcome.ofNumber, isSuccess, Value.same]
    grind
  | _ => simp [Outcome.ofValue, isSuccess, Value.same]

lemma ofValue_eq_failure_iff {v : Value} : Outcome.ofValue v = .failure ↔ isFailure v = true := by
  cases v with
  | number x =>
    -- the outcome tries zero and one before two
    have hzero (h : (x == 2) = true) : (x == 0) = false :=
      Bool.eq_false_iff.mpr fun h0 => absurd (beq_of_beq h h0) (by decide)
    have hone (h : (x == 2) = true) : (x == 1) = false :=
      Bool.eq_false_iff.mpr fun h1 => absurd (beq_of_beq h h1) (by decide)
    simp only [Outcome.ofValue, Outcome.ofNumber, isFailure, Value.same]
    grind
  | _ => simp [Outcome.ofValue, isFailure, Value.same]

lemma isKnownOther_success (previous : Value) :
    isKnownOther .success previous = (!previous.isNullish && !isSuccess previous) := by
  rw [isKnownOther, Bool.eq_iff_iff]
  simp [ofValue_eq_success_iff]

lemma isKnownOther_failure (previous : Value) :
    isKnownOther .failure previous = (!previous.isNullish && !isFailure previous) := by
  rw [isKnownOther, Bool.eq_iff_iff]
  simp [ofValue_eq_failure_iff]

lemma isKnownProblem_eq {previous : Value} (h : previous.isCode = true) :
    isKnownProblem previous = (!previous.isNullish && !previous.isNaN && !isSuccess previous &&
      !isFailure previous) := by
  have hfailure : (Outcome.ofValue previous != .failure) = !isFailure previous := by
    rw [Bool.eq_iff_iff]
    simp [ofValue_eq_failure_iff]
  rw [isKnownProblem, hfailure]
  cases previous with
  | number x =>
    simp [Value.isTruthy, Value.isNullish, Value.isNaN, isSuccess, Value.same, Bool.and_comm]
  | undefined => rfl
  | null => rfl
  | _ => exact absurd h (by simp [Value.isCode, Value.isNullish])

lemma isFailure_of_isNaN {v : Value} (h : v.isNaN = true) : isFailure v = false := by
  cases v with
  | number x =>
    refine Bool.eq_false_iff.mpr fun hfailure => absurd (isNaN_of_beq hfailure) ?_
    simpa [Value.isNaN] using h
  | _ => exact absurd h (by simp [Value.isNaN])

lemma isNullish_of_isNaN {v : Value} (h : v.isNaN = true) : v.isNullish = false := by
  cases v with
  | number x => rfl
  | _ => exact absurd h (by simp [Value.isNaN])

def wordsFor (o : Outcome) (turned : Bool) : String :=
  match o with
  | .failure => if turned then "new failure" else "failed build"
  | .success => if turned then "restored build" else "passing build"
  | .warnings => "problem in the build"
  | .exception => "build exception"
  | o => o.name ++ " build"

def turns (o : Outcome) (previous : Value) (change problem : Bool) : Bool :=
  match o with
  | .failure =>
    change && isKnownOther .failure previous || problem && isKnownProblem previous
  | .success => change && isKnownOther .success previous
  | _ => false

lemma wordsFor_new_iff (o : Outcome) (turned : Bool) :
    wordsFor o turned = "new failure" ↔ o = .failure ∧ turned = true := by
  cases o <;> cases turned <;> decide

lemma wordsFor_restored_iff (o : Outcome) (turned : Bool) :
    wordsFor o turned = "restored build" ↔ o = .success ∧ turned = true := by
  cases o <;> cases turned <;> decide

lemma wordsFor_mono (o : Outcome) {turned turned' : Bool} (h : turned = true → turned' = true) :
    wordsFor o turned' = wordsFor o turned ∨
      wordsFor o turned = "failed build" ∧ wordsFor o turned' = "new failure" ∨
      wordsFor o turned = "passing build" ∧ wordsFor o turned' = "restored build" := by
  revert h
  cases o <;> cases turned <;> cases turned' <;> decide

lemma turns_mono {o : Outcome} {previous : Value} {change problem change' problem' : Bool}
    (hchange : change = true → change' = true) (hproblem : problem = true → problem' = true)
    (h : turns o previous change problem = true) : turns o previous change' problem' = true := by
  cases o with
  | failure =>
    simp only [turns, Bool.or_eq_true, Bool.and_eq_true] at h ⊢
    exact h.imp (And.imp_left hchange) (And.imp_left hproblem)
  | success =>
    simp only [turns, Bool.and_eq_true] at h ⊢
    exact h.imp_left hchange
  | _ => exact absurd h (by simp [turns])

def isTagged (tags : List Value) (tag : String) : Bool := tags.any fun v => v.same (.text tag)

lemma isTagged_texts (tags : List String) (tag : String) :
    isTagged (tags.map .text) tag = decide (tag ∈ tags) := by
  rw [Bool.eq_iff_iff]
  simp [isTagged, Value.same]

lemma statusText_code {results : Value} (h : results.isCode = true) :
    statusText results = .ok (Outcome.ofValue results).name := by
  cases results with
  | number x => rfl
  | undefined => rfl
  | null => rfl
  | _ => exact absurd h (by simp [Value.isCode, Value.isNullish])

lemma detectedText_eq {results : Value} (h : results.isCode = true) (label : Nat)
    (tags : List Value) (previous : Value) : detectedText (.list label tags) results previous =
      .ok (wordsFor (Outcome.ofValue results) (turns (Outcome.ofValue results) previous
        (isTagged tags "change") (isTagged tags "problem"))) := by
  have htag (tag : String) : hasTag (.list label tags) tag = .ok (isTagged tags tag) := rfl
  have hnew : isNewFailure (.list label tags) previous =
      .ok (isTagged tags "change" && isKnownOther .failure previous ||
        isTagged tags "problem" && isKnownProblem previous) := by
    simp only [isNewFailure, htag, bind, Except.bind]
    split
    · next hchange => rw [hchange, Bool.true_or]
    · next hchange => rw [Bool.eq_false_iff.mpr hchange, Bool.false_or]
  rw [detectedText, hnew, isRestored, htag, statusText_code h]
  cases Outcome.ofValue results <;> rfl

def modeOf (label : Nat) (tags : List String) : Value := .list label (tags.map .text)

lemma detectedText_modeOf {results : Value} (h : results.isCode = true) (label : Nat)
    (tags : List String) (previous : Value) : detectedText (modeOf label tags) results previous =
      .ok (wordsFor (Outcome.ofValue results) (turns (Outcome.ofValue results) previous
        (decide ("change" ∈ tags)) (decide ("problem" ∈ tags)))) := by
  rw [modeOf, detectedText_eq h, isTagged_texts, isTagged_texts]

section Turning

variable {results previous : Value} (tags : List String)

lemma detected_new_iff (h : previous.isCode = true) :
    wordsFor (Outcome.ofValue results) (turns (Outcome.ofValue results) previous
        (decide ("change" ∈ tags)) (decide ("problem" ∈ tags))) = "new failure" ↔
      isFailure results = true ∧
        ("change" ∈ tags ∧ previous.isNullish = false ∧ isFailure previous = false ∨
          "problem" ∈ tags ∧ previous.isNullish = false ∧ previous.isNaN = false ∧
            isSuccess previous = false ∧ isFailure previous = false) := by
  rw [wordsFor_new_iff, ofValue_eq_failure_iff]
  refine and_congr_right fun hfailed => ?_
  rw [ofValue_eq_failure_iff.mpr hfailed]
  simp only [turns, isKnownOther_failure, isKnownProblem_eq h, Bool.or_eq_true, Bool.and_eq_true,
    decide_eq_true_eq, Bool.not_eq_true', and_assoc]

lemma detected_restored_iff :
    wordsFor (Outcome.ofValue results) (turns (Outcome.ofValue results) previous
        (decide ("change" ∈ tags)) (decide ("problem" ∈ tags))) = "restored build" ↔
      isSuccess results = true ∧
        "change" ∈ tags ∧ previous.isNullish = false ∧ isSuccess previous = false := by
  rw [wordsFor_restored_iff, ofValue_eq_success_iff]
  refine and_congr_right fun hpassed => ?_
  rw [ofValue_eq_success_iff.mpr hpassed]
  simp only [turns, isKnownOther_success, Bool.and_eq_true, decide_eq_true_eq, Bool.not_eq_true']

end Turning

/-- The words depend on two tags only; which results, before and after, and which of the two tags
make a new failure or a restored build; more tags turn nothing else. A result before that is no
number counts as known where changes do, and not as a problem. -/
theorem detectedText_by_tags {results previous : Value} (hresults : results.isCode = true)
    (hprevious : previous.isCode = true) (label : Nat) (tags : List String) :
    ∃ text, detectedText (modeOf label tags) results previous = .ok text ∧
      (∀ l others, ("change" ∈ others ↔ "change" ∈ tags) → ("problem" ∈ others ↔ "problem" ∈ tags) →
        detectedText (modeOf l others) results previous = .ok text) ∧
      (previous.isNaN = false → (text = "new failure" ↔ isFailure results = true ∧
        ("change" ∈ tags ∧ previous.isNullish = false ∧ isFailure previous = false ∨
          "problem" ∈ tags ∧ previous.isNullish = false ∧ isSuccess previous = false ∧
            isFailure previous = false))) ∧
      (previous.isNaN = true →
        (text = "new failure" ↔ isFailure results = true ∧ "change" ∈ tags)) ∧
      (text = "restored build" ↔ isSuccess results = true ∧
        "change" ∈ tags ∧ previous.isNullish = false ∧ isSuccess previous = false) ∧
      ∀ l more, tags ⊆ more → ∃ text', detectedText (modeOf l more) results previous = .ok text' ∧
        (text' = text ∨ text = "failed build" ∧ text' = "new failure" ∨
          text = "passing build" ∧ text' = "restored build") := by
  refine ⟨_, detectedText_modeOf hresults label tags previous, ?_, fun hnan => ?_, fun hnan => ?_,
    detected_restored_iff tags, ?_⟩
  · intro l others hchange hproblem
    rw [detectedText_modeOf hresults, decide_eq_decide.mpr hchange, decide_eq_decide.mpr hproblem]
  · rw [detected_new_iff tags hprevious]
    simp only [hnan, true_and]
  · rw [detected_new_iff tags hprevious]
    simp [hnan, isNullish_of_isNaN hnan, isFailure_of_isNaN hnan]
  · intro l more hmore
    have hchange : decide ("change" ∈ tags) = true → decide ("change" ∈ more) = true := by
      simpa using @hmore "change"
    have hproblem : decide ("problem" ∈ tags) = true → decide ("problem" ∈ more) = true := by
      simpa using @hmore "problem"
    exact ⟨_, detectedText_modeOf hresults l more previous,
      wordsFor_mono _ (turns_mono hchange hproblem)⟩

theorem detectedText_by_tags_problem :
    (Value.number 2).isCode = true ∧ (Value.number 4).isCode = true ∧
      (Value.number 4).isNaN = false ∧ ["failing", "problem"] ⊆ ["change", "problem", "failing"] ∧
      detectedText (modeOf 1 ["failing", "problem"]) (.number 2) (.number 4) = .ok "new failure" ∧
      detectedText (modeOf 2 ["problem", "problem"]) (.number 2) (.number 4) = .ok "new failure" ∧
      detectedText (modeOf 1 ["change", "problem", "failing"]) (.number 2) (.number 4) =
        .ok "new failure" := by
  have hsub : ["failing", "problem"] ⊆ ["change", "problem", "failing"] := by simp
  obtain ⟨text, htext, hothers, hnew, -, -, hmore⟩ :=
    detectedText_by_tags (show (Value.number 2).isCode = true from rfl)
      (show (Value.number 4).isCode = true from rfl) 1 ["failing", "problem"]
  obtain rfl : text = "new failure" := (hnew (by decide)).mpr (by decide)
  obtain ⟨text', htext', hgrown⟩ := hmore 1 _ hsub
  obtain rfl : text' = "new failure" := by simpa using hgrown
  exact ⟨rfl, rfl, by decide, hsub, htext, hothers 2 _ (by simp) (by simp), htext'⟩

theorem detectedText_overlooks_notANumber :
    (Value.number Decimal.Read.notANumber).isCode = true ∧
      (Value.number Decimal.Read.notANumber).isNullish = false ∧
      isSuccess (.number Decimal.Read.notANumber) = false ∧
      isFailure (.number Decimal.Read.notANumber) = false ∧ isFailure (.number 2) = true ∧
      detectedText (modeOf 1 ["problem"]) (.number 2) (.number Decimal.Read.notANumber) =
        .ok "failed build" := by
  refine ⟨rfl, rfl, by decide +kernel, by decide +kernel, by decide +kernel, ?_⟩
  rw [detectedText_modeOf rfl]
  exact congrArg Except.ok (by decide +kernel)

def heading : Outcome → String
  | .success => "Build succeeded!"
  | .warnings => "Build Had Warnings"
  | .cancelled => "Build was cancelled"
  | _ => "BUILD FAILED"

def showsState : Outcome → Bool
  | .success => false
  | .cancelled => false
  | _ => true

lemma summary_eq (o : Outcome) (suffix : String) :
    summary o suffix = heading o ++ if showsState o then suffix else "" := by
  cases o with
  | success => exact String.append_empty.symm
  | cancelled => exact String.append_empty.symm
  | _ => rfl

lemma heading_eq_of_append {o p : Outcome} {s t : String} (h : heading o ++ s = heading p ++ t) :
    heading o = heading p := by
  have hlist : (heading o).toList ++ s.toList = (heading p).toList ++ t.toList := by
    simpa using congrArg String.toList h
  have hprefix : (heading o).toList <+: (heading p).toList ∨
      (heading p).toList <+: (heading o).toList :=
    List.prefix_or_prefix_of_prefix ⟨s.toList, rfl⟩ ⟨t.toList, hlist.symm⟩
  revert hprefix
  cases o <;> cases p <;> decide

lemma summary_begins_iff (o p : Outcome) (suffix : String) :
    (∃ rest, summary o suffix = heading p ++ rest) ↔ heading o = heading p := by
  rw [summary_eq]
  constructor
  · rintro ⟨rest, h⟩
    exact heading_eq_of_append h
  · intro h
    exact ⟨_, by rw [h]⟩

lemma summary_eq_heading_iff {p : Outcome} (hp : showsState p = false) (o : Outcome)
    (suffix : String) : summary o suffix = heading p ↔ heading o = heading p := by
  constructor
  · intro h
    exact (summary_begins_iff o p suffix).mp ⟨"", by rw [h, String.append_empty]⟩
  · intro h
    have hstate : showsState o = false := by
      revert h hp
      cases o <;> cases p <;> decide
    rw [summary_eq, hstate, h]
    simp

def suffixOf (state : Value) : String := state.words?.elim "" fun s => ": " ++ s

lemma stateSuffix_eq {build : Value} (hbuild : build.isNullish = false)
    (hstate : (build.own "state_string").isTextOrNothing = true) :
    stateSuffix build = .ok (suffixOf (build.own "state_string")) := by
  rw [stateSuffix, hbuild]
  cases hv : build.own "state_string" with
  | text s =>
    by_cases hs : s = "" <;> simp [suffixOf, Value.isTruthy, Value.words?, hs, Value.print?]
  | undefined => rfl
  | null => rfl
  | _ => simp [hv, Value.isTextOrNothing, Value.isNullish] at hstate

lemma summaryText_eq {build : Value} (hbuild : build.isNullish = false)
    (hstate : (build.own "state_string").isTextOrNothing = true) (results : Value) :
    summaryText build results =
      .ok (summary (Outcome.ofValue results) (suffixOf (build.own "state_string"))) := by
  rw [summaryText, stateSuffix_eq hbuild hstate]
  rfl

lemma summary_ends_iff (o : Outcome) {state : Value} {s : String} (hstate : state = .text s) :
    (∃ lead, summary o (suffixOf state) = lead ++ ": " ++ s) ↔ s ≠ "" ∧ showsState o = true := by
  rw [summary_eq, hstate]
  constructor
  · rintro ⟨lead, h⟩
    by_contra hnot
    have hbare : (if showsState o then suffixOf (.text s) else "") = "" := by
      by_cases hs : s = ""
      · simp [suffixOf, Value.words?, hs]
      · simp [show showsState o = false by simpa [hs] using hnot]
    have hcolon : ':' ∈ (heading o).toList := by
      rw [hbare, String.append_empty] at h
      simp [h]
    revert hcolon
    cases o <;> decide
  · rintro ⟨hs, hshows⟩
    exact ⟨heading o, by simp [hshows, suffixOf, Value.words?, hs, String.append_assoc]⟩

lemma heading_eq_success_iff (o : Outcome) (turned : Bool) : heading o = "Build succeeded!" ↔
    wordsFor o turned = "passing build" ∨ wordsFor o turned = "restored build" := by
  cases o <;> cases turned <;> decide

lemma heading_eq_warnings_iff (o : Outcome) (turned : Bool) :
    heading o = "Build Had Warnings" ↔ wordsFor o turned = "problem in the build" := by
  cases o <;> cases turned <;> decide

lemma heading_eq_cancelled_iff (o : Outcome) (turned : Bool) :
    heading o = "Build was cancelled" ↔ wordsFor o turned = "cancelled build" := by
  cases o <;> cases turned <;> decide

lemma heading_eq_failed_iff (o : Outcome) (turned : Bool) : heading o = "BUILD FAILED" ↔
    wordsFor o turned ∉
      ["passing build", "restored build", "problem in the build", "cancelled build"] := by
  cases o <;> cases turned <;> decide

lemma showsState_iff (o : Outcome) : showsState o = true ↔
    heading o = "Build Had Warnings" ∨ heading o = "BUILD FAILED" := by
  cases o <;> decide

lemma summary_bare {state : Value} (h : state.words? = none) (o : Outcome) :
    summary o (suffixOf state) = heading o := by
  rw [summary_eq, suffixOf, h]
  simp

end Build

end BuildNotice
