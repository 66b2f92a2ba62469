import BuildNotice.Formatter
import BuildNotice.Proofs.Record

/-! Options are read as a table of fields says. -/

namespace BuildNotice.Options

open Formatter (optionValue)

inductive Shape where
  | name (message : String)
  | text
  | type
  | record
  | flag

namespace Shape

def admits : Shape → Value → Bool
  | _, .undefined => true
  | .name _, .text s => s != ""
  | .text, .text _ => true
  | .type, .text s => s == "plain" || s == "html"
  | .record, .record _ _ => true
  | .flag, .bool _ => true
  | _, _ => false

def expected : Shape → String
  | .name _ => "string"
  | .text => "string"
  | .type => "'plain' | 'html'"
  | .record => "object"
  | .flag => "boolean"

def complaint (key : String) : Shape → Value → Problem
  | .name message, .text _ => .empty [key] message
  | .type, .text s => .noChoice [key] ["plain", "html"] s
  | shape, v => .wrongType [key] shape.expected (Problem.typeName v)

end Shape

def table : List (String × Shape) :=
  [("templateDirectory", .name "Template directory cannot be empty"),
    ("templateFilename", .name "Template filename cannot be empty"), ("template", .text),
    ("subjectFilename", .name "Subject filename cannot be empty"), ("subject", .text),
    ("templateType", .type), ("extraContext", .record),
    ("templateName", .name "Template name cannot be empty"), ("wantProperties", .flag),
    ("wantSteps", .flag), ("wantLogs", .flag)]

structure Accepts (data : Value) : Prop where
  record : ∃ label fields, data = .record label fields
  known : ∀ key ∈ Record.keys data.fields, key ∈ table.map Prod.fst
  admitted : ∀ field ∈ table, field.2.admits (data.own field.1) = true

def complaints (data : Value) (fields : List (String × Shape)) : List Problem :=
  (fields.filter fun (key, shape) => !shape.admits (data.own key)).map fun (key, shape) =>
    shape.complaint key (data.own key)

def strangers (data : Value) : List String :=
  (Record.keys data.fields).filter fun key => key ∉ table.map Prod.fst

def faults (data : Value) : List Problem :=
  match data with
  | .record _ _ =>
    complaints data table ++ if strangers data = [] then [] else [.unknownKeys (strangers data)]
  | v => [.wrongType [] "object" (Problem.typeName v)]

def given (v default : Value) : Value :=
  match v with
  | .undefined => default
  | v => v

structure IsReadFrom (o : BuildOptions) (data : Value) : Prop where
  directory : optionValue o.general.templateDirectory = data.own "templateDirectory"
  filename : optionValue o.general.templateFilename =
    given (data.own "templateName") (data.own "templateFilename")
  template : optionValue o.general.template = data.own "template"
  subjectFilename : optionValue o.general.subjectFilename = data.own "subjectFilename"
  subject : optionValue o.general.subject = data.own "subject"
  type : optionValue (o.general.templateType.map MessageType.name) = data.own "templateType"
  noExtra : data.own "extraContext" = .undefined → o.general.extraContext = none
  extra : ∀ label fields, data.own "extraContext" = .record label fields →
    Record.has "__proto__" fields = false → o.general.extraContext = some fields
  properties : .bool o.want.properties = given (data.own "wantProperties") (.bool true)
  steps : .bool o.want.steps = given (data.own "wantSteps") (.bool false)
  logs : .bool o.want.logs = given (data.own "wantLogs") (.bool false)

def textOf : Value → Option String
  | .text s => some s
  | _ => none

@[simp] lemma textOf_optionValue (s : Option String) : textOf (optionValue s) = s := by
  cases s <;> rfl

def warnings (data : Value) : List Event :=
  match textOf (data.own "templateName") with
  | none => []
  | some name => [.renamedOption name (textOf (data.own "templateFilename"))]

section Fields

variable {data : Value} {key : String}

def Shape.problems (shape : Shape) (key : String) (v : Value) : List Problem :=
  if shape.admits v then [] else [shape.complaint key v]

lemma textField_problems (data : Value) (key : String) :
    Problem.ofResult (textField data key) = Shape.text.problems key (data.own key) := by
  rw [textField]
  cases data.own key <;> rfl

lemma nonemptyField_problems (data : Value) (key message : String) :
    Problem.ofResult (nonemptyField data key message) =
      (Shape.name message).problems key (data.own key) := by
  rw [nonemptyField, textField]
  cases data.own key with
  | text s =>
    by_cases hs : s = "" <;>
      simp [hs, Problem.ofResult, Shape.problems, Shape.admits, Shape.complaint]
  | _ => rfl

lemma ofName?_eq (s : String) :
    MessageType.ofName? s =
      if s = "plain" then some .plain else if s = "html" then some .html else none := by
  rw [MessageType.ofName?, MessageType.all, List.find?_cons, List.find?_cons, List.find?_nil]
  by_cases hplain : s = "plain"
  · subst hplain
    rfl
  · by_cases hhtml : s = "html"
    · subst hhtml
      rfl
    · rw [if_neg hplain, if_neg hhtml, MessageType.name, MessageType.name,
        beq_eq_false_iff_ne.mpr (Ne.symm hplain), beq_eq_false_iff_ne.mpr (Ne.symm hhtml)]

lemma typeField_problems (data : Value) (key : String) :
    Problem.ofResult (typeField data key) = Shape.type.problems key (data.own key) := by
  rw [typeField]
  cases data.own key with
  | text s =>
    simp only [ofName?_eq, Shape.problems, Shape.admits, Shape.complaint]
    by_cases hplain : s = "plain"
    · simp [hplain, Problem.ofResult]
    · by_cases hhtml : s = "html"
      · simp [hhtml, Problem.ofResult]
      · simp [hplain, hhtml, Problem.ofResult, MessageType.all, MessageType.name]
  | _ => rfl

lemma recordField_problems (data : Value) (key : String) :
    Problem.ofResult (recordField data key) = Shape.record.problems key (data.own key) := by
  rw [recordField]
  cases data.own key <;> rfl

lemma flagField_problems (data : Value) (key : String) (default : Bool) :
    Problem.ofResult (flagField data key default) = Shape.flag.problems key (data.own key) := by
  rw [flagField]
  cases data.own key <;> rfl

lemma textField_value (h : Shape.text.admits (data.own key) = true) :
    optionValue (valueOf none (textField data key)) = data.own key := by
  rw [textField]
  cases hv : data.own key with
  | undefined => rfl
  | text s => rfl
  | _ => simp [hv, Shape.admits] at h

lemma nonemptyField_value {message : String}
    (h : (Shape.name message).admits (data.own key) = true) :
    optionValue (valueOf none (nonemptyField data key message)) = data.own key := by
  rw [nonemptyField, textField]
  cases hv : data.own key with
  | undefined => rfl
  | text s =>
    have hs : s ≠ "" := by simpa [hv, Shape.admits] using h
    simp [hs, valueOf, optionValue]
  | _ => simp [hv, Shape.admits] at h

lemma typeField_value (h : Shape.type.admits (data.own key) = true) :
    optionValue ((valueOf none (typeField data key)).map MessageType.name) = data.own key := by
  rw [typeField]
  cases hv : data.own key with
  | undefined => rfl
  | text s =>
    obtain rfl | rfl : s = "plain" ∨ s = "html" := by simpa [hv, Shape.admits] using h
    · rfl
    · rfl
  | _ => simp [hv, Shape.admits] at h

lemma flagField_value {default : Bool} (h : Shape.flag.admits (data.own key) = true) :
    .bool (valueOf default (flagField data key default)) =
      given (data.own key) (.bool default) := by
  rw [flagField]
  cases hv : data.own key with
  | undefined => rfl
  | bool b => rfl
  | _ => simp [hv, Shape.admits] at h

lemma recordField_absent (h : data.own key = .undefined) :
    valueOf none (recordField data key) = none := by
  rw [recordField, h]
  rfl

lemma recordField_value {label : Nat} {fields : Value.Fields}
    (h : data.own key = .record label fields) (hproto : Record.has "__proto__" fields = false) :
    valueOf none (recordField data key) = some fields := by
  rw [recordField, h]
  exact congrArg some (Record.erase_eq_self hproto)

end Fields

section Problems

variable {data : Value}

@[simp] lemma complaints_nil (data : Value) : complaints data [] = [] := rfl

@[simp] lemma complaints_cons (data : Value) (key : String) (shape : Shape)
    (fields : List (String × Shape)) :
    complaints data ((key, shape) :: fields) =
      shape.problems key (data.own key) ++ complaints data fields := by
  rw [complaints, complaints, Shape.problems, List.filter_cons]
  cases h : shape.admits (data.own key) <;> simp [h]

lemma buildFieldProblems_eq (data : Value) : buildFieldProblems data = complaints data table := by
  simp only [buildFieldProblems, fieldProblems, directoryOf, filenameOf, subjectFilenameOf, nameOf,
    nonemptyField_problems, textField_problems, typeField_problems, recordField_problems,
    flagField_problems, table, complaints_cons, complaints_nil, List.append_assoc, List.append_nil]

lemma unknownKeys_eq (data : Value) :
    unknownKeys buildFieldNames data =
      if strangers data = [] then [] else [.unknownKeys (strangers data)] := by
  have hkeys : (data.fields.map (·.1) |>.filter fun k => !buildFieldNames.contains k) =
      strangers data := by
    refine List.filter_congr fun key _ => ?_
    rw [show table.map Prod.fst = buildFieldNames from rfl, List.contains_eq_mem]
    by_cases hkey : key ∈ buildFieldNames <;> simp [hkey]
  rw [unknownKeys, hkeys]
  cases strangers data with
  | nil => rfl
  | cons key keys => rfl

lemma buildProblems_eq (data : Value) : buildProblems data = faults data := by
  cases data with
  | record label fields =>
    have hrecord : isRecord (.record label fields) = true := rfl
    rw [buildProblems, if_pos hrecord, buildFieldProblems_eq, unknownKeys_eq, faults]
  | _ => rfl

lemma complaints_eq_nil_iff (data : Value) (fields : List (String × Shape)) :
    complaints data fields = [] ↔
      ∀ field ∈ fields, field.2.admits (data.own field.1) = true := by
  rw [complaints, List.map_eq_nil_iff, List.filter_eq_nil_iff]
  simp

lemma strangers_eq_nil_iff (data : Value) :
    strangers data = [] ↔ ∀ key ∈ Record.keys data.fields, key ∈ table.map Prod.fst := by
  rw [strangers, List.filter_eq_nil_iff]
  simp

lemma faults_eq_nil_iff (data : Value) : faults data = [] ↔ Accepts data := by
  cases data with
  | record label fields =>
    rw [faults, List.append_eq_nil_iff, complaints_eq_nil_iff]
    constructor
    · rintro ⟨hadmitted, hnone⟩
      have hstrangers : strangers (.record label fields) = [] := by
        by_contra hsome
        rw [if_neg hsome] at hnone
        exact absurd hnone (by simp)
      exact ⟨⟨label, fields, rfl⟩, (strangers_eq_nil_iff _).mp hstrangers, hadmitted⟩
    · rintro ⟨-, hknown, hadmitted⟩
      exact ⟨hadmitted, if_pos ((strangers_eq_nil_iff _).mpr hknown)⟩
  | _ => exact ⟨fun h => absurd h (by simp [faults]), fun h => absurd h.record (by simp)⟩

end Problems

section Renaming

variable {data : Value}

lemma optionValue_or (a b : Option String) :
    optionValue (a.or b) = given (optionValue a) (optionValue b) := by
  cases a <;> rfl

lemma rename_options (name : Option String) (o : Options) :
    (rename name o).1 = { o with templateFilename := name.or o.templateFilename } := by
  cases name <;> rfl

lemma rename_events (name : Option String) (o : Options) :
    (rename name o).2 = match name with
      | none => []
      | some name => [.renamedOption name o.templateFilename] := by
  cases name <;> rfl

namespace Accepts

lemma admits (h : Accepts data) {key : String} {shape : Shape} (hmem : (key, shape) ∈ table) :
    shape.admits (data.own key) = true :=
  h.admitted (key, shape) hmem

lemma name_value (h : Accepts data) :
    optionValue (valueOf none (nameOf data)) = data.own "templateName" :=
  nonemptyField_value (h.admits (by simp [table]))

lemma filename_value (h : Accepts data) :
    optionValue (valueOf none (filenameOf data)) = data.own "templateFilename" :=
  nonemptyField_value (h.admits (by simp [table]))

lemma rename_warns (h : Accepts data) :
    (rename (valueOf none (nameOf data)) (ofValue data)).2 = warnings data := by
  rw [rename_events, warnings, ← h.name_value, ← h.filename_value, textOf_optionValue,
    textOf_optionValue]
  rfl

lemma isReadFrom (h : Accepts data) :
    IsReadFrom ⟨(rename (valueOf none (nameOf data)) (ofValue data)).1, wantOf data⟩ data := by
  have filename : optionValue ((valueOf none (nameOf data)).or (valueOf none (filenameOf data))) =
      given (data.own "templateName") (data.own "templateFilename") := by
    rw [optionValue_or, h.name_value, h.filename_value]
  rw [rename_options]
  exact {
    directory := nonemptyField_value (h.admits (by simp [table]))
    filename
    template := textField_value (h.admits (by simp [table]))
    subjectFilename := nonemptyField_value (h.admits (by simp [table]))
    subject := textField_value (h.admits (by simp [table]))
    type := typeField_value (h.admits (by simp [table]))
    noExtra := recordField_absent
    extra := fun _ _ => recordField_value
    properties := flagField_value (h.admits (by simp [table]))
    steps := flagField_value (h.admits (by simp [table]))
    logs := flagField_value (h.admits (by simp [table])) }

end Accepts

end Renaming

lemma parseBuild_of_accepts {data : Value} (h : Accepts data) :
    ∃ o, parseBuild data = .ok (o, warnings data) ∧ IsReadFrom o data := by
  refine ⟨⟨(rename (valueOf none (nameOf data)) (ofValue data)).1, wantOf data⟩, ?_, h.isReadFrom⟩
  rw [parseBuild, buildProblems_eq, (faults_eq_nil_iff data).mpr h, ← h.rename_warns]

lemma parseBuild_of_faults {data : Value} (h : faults data ≠ []) :
    parseBuild data = .error (invalid (faults data)) := by
  rw [parseBuild, buildProblems_eq]
  cases hfaults : faults data with
  | nil => exact absurd hfaults h
  | cons p ps => rfl

/-- Options are read exactly where they are accepted. What is given is kept, what is absent of the
flags stands for its default, and the former name of the filename, where it is used, takes its place
with one warning. All that is wrong is told at once otherwise. -/
theorem parseBuild_reads (data : Value) :
    match parseBuild data with
    | .ok (o, events) => Accepts data ∧ IsReadFrom o data ∧ events = warnings data
    | .error f => ¬ Accepts data ∧
        f = .configuration
          ("Invalid formatter options: " ++
            String.intercalate "; " ((faults data).map Problem.text))
          (Value.ofFields [("issues", Value.ofItems ((faults data).map Problem.toValue))]) := by
  by_cases h : faults data = []
  · have haccepts := (faults_eq_nil_iff data).mp h
    obtain ⟨o, ho, hread⟩ := parseBuild_of_accepts haccepts
    rw [ho]
    exact ⟨haccepts, hread, rfl⟩
  · rw [parseBuild_of_faults h]
    exact ⟨fun haccepts => h ((faults_eq_nil_iff data).mpr haccepts), rfl⟩

example : (faults (.record 0 [("color", .null), ("templateName", .text ""), ("subject", .null)])).map
    Problem.text = ["subject: Expected string, received null",
      "templateName: Template name cannot be empty",
      "Unrecognized key(s) in object: 'color'"] := by decide +kernel

end BuildNotice.Options
