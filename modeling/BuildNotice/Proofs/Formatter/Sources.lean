import BuildNotice.Proofs.Formatter.Default
import BuildNotice.Proofs.Formatter.Making

/-! Each template of a formatter is of the text in its options, or of one that the file they name has held. -/

namespace BuildNotice

def Source.Holds (held : String → String → Prop) : Source → String → Prop
  | .inline text => fun t => t = text
  | .file path => held path

structure Template.IsFrom (held : String → String → Prop) (origin : Source) (mode : Bool)
    (t : Template) : Prop where
  source : t.source = origin
  escapes : t.escapes = mode
  program : ∃ text, origin.Holds held text ∧ Template.compile text = .ok t.program

namespace Store

def KeepsHeld (held : String → String → Prop) (s : Store) : Prop :=
  ∀ escapes path t, ((escapes, path), t) ∈ s.kept → t.IsFrom held (.file path) escapes

variable {held : String → String → Prop} {s : Store} {disk : Disk} {request : Request}
  {r : Resolved}

lemma keepsHeld_empty (held : String → String → Prop) : empty.KeepsHeld held := by
  intro escapes path t ht
  exact absurd ht (by simp [empty])

lemma keepsHeld_clear (held : String → String → Prop) (s : Store) : s.clear.KeepsHeld held := by
  intro escapes path t ht
  exact absurd ht (by simp [clear])

lemma KeepsHeld.find? (hs : s.KeepsHeld held) {escapes : Bool} {path : String} {t : Template}
    (h : s.find? escapes path = some t) : t.IsFrom held (.file path) escapes := by
  obtain ⟨⟨key, u⟩, hfind, rfl⟩ := Option.map_eq_some_iff.mp h
  obtain rfl : key = (escapes, path) := by simpa using List.find?_some hfind
  exact hs escapes path u (List.mem_of_find?_eq_some hfind)

lemma KeepsHeld.resolve (hs : s.KeepsHeld held)
    (hread : ∀ path text, disk.read? path = some text → held path text)
    (h : s.resolve disk request = .ok r) : r.store.KeepsHeld held := by
  obtain ⟨-, -, hstore⟩ | ⟨key, text, -, -, htext, hof, hstore⟩ | ⟨key, -, -, hstore⟩ :=
    resolve_cases h
  · rw [hstore]
    exact hs
  · intro escapes path t ht
    rw [hstore, List.mem_cons] at ht
    rcases ht with ht | ht
    · obtain ⟨rfl, rfl⟩ := Prod.mk.inj ht
      obtain ⟨hsource, hescapes, hprogram⟩ := ofText_ok hof
      exact ⟨hsource, hescapes, text, hread _ _ htext, hprogram⟩
    · exact hs escapes path t ht
  · rw [hstore]
    exact hs

end Store

namespace Formatter

open Options (faults faults_eq_nil_iff given parseBuild_of_accepts parseBuild_of_faults)

def Slot.sourceIn (slot : Slot) (disk : Disk) (default : String) : Source :=
  if isGiven slot.content then .inline (slot.content.getD "")
  else .file (Path.resolve disk.here (slot.directory.getD disk.bundled)
    (slot.filename.getD default))

variable {held : String → String → Prop} {s : Store} {disk : Disk}

namespace Slot

variable {slot : Slot} {default : String} {escapes : Bool} {r : Store.Resolved}

lemma sourceIn_congr (slot : Slot) (default : String) {disk other : Disk}
    (hhere : disk.here = other.here) (hbundled : disk.bundled = other.bundled) :
    slot.sourceIn disk default = slot.sourceIn other default := by
  rw [sourceIn, sourceIn, hhere, hbundled]

lemma escapes_requestFor (slot : Slot) (default : String) (escapes : Bool) :
    (slot.requestFor default escapes).escapes = escapes := by
  cases escapes <;> rfl

lemma path_requestFor (slot : Slot) (default : String) (escapes : Bool) (disk : Disk) :
    (slot.requestFor default escapes).path disk = .ok (Path.resolve disk.here
      (slot.directory.getD disk.bundled) (slot.filename.getD default)) := by
  obtain ⟨content, directory, filename⟩ := slot
  cases directory <;> cases filename <;> rfl

lemma resolveContent_isFrom (hgiven : isGiven slot.content = true)
    (h : s.resolveContent (slot.requestFor default escapes) = .ok r) :
    r.template.IsFrom held (slot.sourceIn disk default) escapes := by
  obtain ⟨text, htext⟩ := exists_content hgiven
  have hcontent : (slot.requestFor default escapes).content = .text text := by
    rw [requestFor, htext]
    rfl
  rw [Store.resolveContent, hcontent] at h
  obtain ⟨t, ht, h⟩ := exists_of_bind_ok h
  obtain rfl := Except.ok.inj h
  obtain ⟨hsource, hmode, hprogram⟩ := Store.ofText_ok ht
  rw [sourceIn, if_pos hgiven, htext]
  exact ⟨hsource, hmode.trans (escapes_requestFor slot default escapes), text, rfl, hprogram⟩

lemma resolve_isFrom (hs : s.KeepsHeld held)
    (hread : ∀ path text, disk.read? path = some text → held path text)
    (h : s.resolve disk (slot.requestFor default escapes) = .ok r) :
    r.template.IsFrom held (slot.sourceIn disk default) escapes := by
  have htruthy : (slot.requestFor default escapes).content.isTruthy = isGiven slot.content :=
    isTruthy_optionValue slot.content
  rw [Store.resolve] at h
  split at h
  · exact absurd h (by simp)
  · rw [htruthy] at h
    split at h
    · next hgiven => exact resolveContent_isFrom hgiven h
    · next hgiven =>
      rw [path_requestFor, escapes_requestFor] at h
      rw [sourceIn, if_neg hgiven]
      simp only [bind, Except.bind] at h
      split at h
      · next t ht =>
        obtain rfl := Except.ok.inj h
        exact hs.find? ht
      · obtain ⟨text, t, htext, hfile, rfl, -⟩ := Store.resolveFile_kept h
        exact ⟨hfile.source, hfile.escapes.trans (escapes_requestFor slot default escapes), text,
          hread _ _ htext, hfile.program⟩

end Slot

lemma resolvePair_isFrom (hs : s.KeepsHeld held)
    (hread : ∀ path text, disk.read? path = some text → held path text) (body : Slot)
    (subject : Option Slot) (default : String) (escapes : Bool) :
    let made := s.resolvePair disk (body.requestFor default escapes)
      (subject.map fun slot => slot.requestFor default escapes)
    made.store.KeepsHeld held ∧ ∀ templates, made.result = .ok templates →
      templates.1.IsFrom held (body.sourceIn disk default) escapes ∧
        Option.Rel (fun slot t => t.IsFrom held (slot.sourceIn disk default) escapes) subject
          templates.2 := by
  intro made
  unfold made
  rw [Store.resolvePair]
  cases hb : s.resolve disk (body.requestFor default escapes) with
  | error f => exact ⟨hs, fun templates h => absurd h (by simp)⟩
  | ok b =>
    have hbody := Slot.resolve_isFrom hs hread hb
    have hkeeps := hs.resolve hread hb
    cases subject with
    | none =>
      refine ⟨hkeeps, fun templates h => ?_⟩
      obtain rfl := Except.ok.inj h
      exact ⟨hbody, .none⟩
    | some slot =>
      simp only [Option.map_some]
      -- the subject is looked for in the store that the body has left
      cases ht : b.store.resolve disk (slot.requestFor default escapes) with
      | error f => exact ⟨hkeeps, fun templates h => absurd h (by simp)⟩
      | ok t =>
        refine ⟨hkeeps.resolve hread ht, fun templates h => ?_⟩
        obtain rfl := Except.ok.inj h
        exact ⟨hbody, .some (Slot.resolve_isFrom hkeeps hread ht)⟩

section Parsing

variable {data : Value} {o : BuildOptions} {events : List Event}

lemma mem_of_unknownKeys {names : List String} (h : Options.unknownKeys names data = []) :
    ∀ key ∈ Record.keys data.fields, key ∈ names := by
  intro key hkey
  rw [Options.unknownKeys] at h
  split at h
  · next hnone =>
    have hknown := List.filter_eq_nil_iff.mp hnone key hkey
    simpa using hknown
  · exact absurd h (by simp)

lemma flagField_undefined {key : String} (h : data.own key = .undefined) (default : Bool) :
    Options.flagField data key default = .ok default := by
  rw [Options.flagField, h]

structure IsGeneral (data : Value) : Prop where
  record : Options.isRecord data = true
  fields : Options.fieldProblems data = []
  known : ∀ key ∈ Record.keys data.fields, key ∈ Options.fieldNames

lemma isGeneral_of_problems (h : Options.problems data = []) : IsGeneral data := by
  rw [Options.problems] at h
  split at h
  · next hrecord =>
    obtain ⟨hfields, hunknown⟩ := List.append_eq_nil_iff.mp h
    exact ⟨hrecord, hfields, mem_of_unknownKeys hunknown⟩
  · exact absurd h (by simp)

namespace IsGeneral

lemma own (h : IsGeneral data) {key : String} (hkey : key ∉ Options.fieldNames) :
    data.own key = .undefined := by
  obtain ⟨hrecord, -, hknown⟩ := h
  cases data with
  | record label fields =>
    have hnone : Record.get? key fields = none :=
      Record.get?_eq_none fun hmem => hkey (hknown key hmem)
    rw [Value.own, Value.own?, hnone]
    rfl
  | _ => exact absurd hrecord Bool.false_ne_true

lemma nameOf (h : IsGeneral data) : Options.nameOf data = .ok none :=
  nonemptyField_undefined _ (h.own (by decide))

lemma properties (h : IsGeneral data) : Options.flagField data "wantProperties" true = .ok true :=
  flagField_undefined (h.own (by decide)) true

lemma steps (h : IsGeneral data) : Options.flagField data "wantSteps" false = .ok false :=
  flagField_undefined (h.own (by decide)) false

lemma logs (h : IsGeneral data) : Options.flagField data "wantLogs" false = .ok false :=
  flagField_undefined (h.own (by decide)) false

lemma wantOf (h : IsGeneral data) : Options.wantOf data = noWant := by
  rw [Options.wantOf, h.properties, h.steps, h.logs]
  rfl

lemma accepts (h : IsGeneral data) : Options.Accepts data := by
  have hstrangers : Options.strangers data = [] :=
    (Options.strangers_eq_nil_iff data).mpr fun key hkey =>
      List.mem_append_left _ (h.known key hkey)
  rw [← faults_eq_nil_iff, ← Options.buildProblems_eq, Options.buildProblems, if_pos h.record,
    Options.buildFieldProblems, h.fields, h.nameOf, h.properties, h.steps, h.logs,
    Options.unknownKeys_eq, if_pos hstrangers]
  rfl

end IsGeneral

lemma parse_isReadFrom {general : Options} (h : Options.parse data = .ok general) :
    Options.IsReadFrom ⟨general, noWant⟩ data := by
  rw [Options.parse] at h
  split at h
  · next hproblems =>
    obtain rfl := Except.ok.inj h
    have hgeneral := isGeneral_of_problems hproblems
    have hread := hgeneral.accepts.isReadFrom
    rw [hgeneral.nameOf, hgeneral.wantOf] at hread
    exact hread
  · exact absurd h (by simp)

lemma parseOptions_isReadFrom {kind : Kind} (h : parseOptions kind data = .ok (o, events)) :
    Options.IsReadFrom o data := by
  rw [parseOptions] at h
  split at h
  · by_cases hfaults : faults data = []
    · obtain ⟨o', ho, hread⟩ := parseBuild_of_accepts ((faults_eq_nil_iff data).mp hfaults)
      rw [ho] at h
      obtain ⟨rfl, -⟩ := Prod.mk.inj (Except.ok.inj h)
      exact hread
    · rw [parseBuild_of_faults hfaults] at h
      exact absurd h (by simp)
  · cases hparse : Options.parse data with
    | error f => simp [hparse, Except.map] at h
    | ok general =>
      obtain ⟨rfl, -⟩ : ⟨general, noWant⟩ = o ∧ [] = events := by
        simpa [hparse, Except.map] using h
      exact parse_isReadFrom hparse

end Parsing

def typeIn (data : Value) : Value :=
  given (data.own "templateType") (.text "plain")

def wantIn (data : Value) : Value × Value × Value :=
  (given (data.own "wantProperties") (.bool true), given (data.own "wantSteps") (.bool false),
    given (data.own "wantLogs") (.bool false))

def subjectSlot? (data : Value) : Option Slot :=
  if asksForSubject data then some (subjectSlot data) else none

structure IsFrom (held : String → String → Prop) (disk : Disk) (data : Value) (f : Formatter) :
    Prop where
  type : .text f.renderer.type.name = typeIn data
  body : f.renderer.body.IsFrom held ((bodySlot data).sourceIn disk f.kind.defaultFilename)
    f.renderer.type.escapes
  subject : Option.Rel (fun slot t => Template.IsFrom held
    (slot.sourceIn disk f.kind.defaultFilename) f.renderer.type.escapes t) (subjectSlot? data)
    f.renderer.subject
  want : (.bool f.want.properties, .bool f.want.steps, .bool f.want.logs) = wantIn data

section Making

variable {kind : Kind} {data : Value} {o : BuildOptions} {f : Formatter}

lemma IsFrom.congr (hf : f.IsFrom held disk data) {other : Disk} (hhere : disk.here = other.here)
    (hbundled : disk.bundled = other.bundled) : f.IsFrom held other data := by
  have hsource (slot : Slot) := slot.sourceIn_congr f.kind.defaultFilename hhere hbundled
  obtain ⟨type, body, subject, want⟩ := hf
  simp only [hsource] at body subject
  exact ⟨type, body, subject, want⟩

lemma type_isFrom (ho : Options.IsReadFrom o data) :
    .text (typeOf o.general).name = typeIn data := by
  rw [typeIn, ← ho.type, typeOf]
  cases o.general.templateType <;> rfl

lemma want_isFrom (ho : Options.IsReadFrom o data) :
    (.bool o.want.properties, .bool o.want.steps, .bool o.want.logs) = wantIn data := by
  rw [wantIn, ← ho.properties, ← ho.steps, ← ho.logs]

lemma subjectRequest?_isFrom (ho : Options.IsReadFrom o data) (default : String) :
    (if hasSubject o.general then some (subjectRequest o.general default) else none) =
      (subjectSlot? data).map fun slot => slot.requestFor default (typeOf o.general).escapes := by
  rw [hasSubject_eq ho, subjectRequest_isFrom ho, subjectSlot?]
  split <;> rfl

lemma makeWith_isFrom (hs : s.KeepsHeld held)
    (hread : ∀ path text, disk.read? path = some text → held path text) (kind : Kind)
    (data : Value) (hook : Hook) :
    (makeWith s disk kind data hook).store.KeepsHeld held ∧
      ∀ f, (makeWith s disk kind data hook).result = .ok f →
        f.kind = kind ∧ f.IsFrom held disk data := by
  rw [makeWith]
  cases hparse : parseOptions kind data with
  | error e => exact ⟨hs, fun f h => absurd h (by simp)⟩
  | ok parsed =>
    obtain ⟨o, events⟩ := parsed
    have ho := parseOptions_isReadFrom hparse
    obtain ⟨hkeeps, htemplates⟩ := resolvePair_isFrom hs hread (bodySlot data) (subjectSlot? data)
      kind.defaultFilename (typeOf o.general).escapes
    rw [← bodyRequest_isFrom ho, ← subjectRequest?_isFrom ho, ← templatesOf] at hkeeps htemplates
    refine ⟨hkeeps, fun f h => ?_⟩
    cases hfound : (templatesOf s disk o.general kind.defaultFilename).result with
    | error e => simp [hfound, Except.map] at h
    | ok templates =>
      obtain rfl : ofTemplates kind o hook templates = f := by
        simpa [hfound, Except.map] using h
      obtain ⟨hbody, hsubject⟩ := htemplates templates hfound
      exact ⟨rfl, type_isFrom ho, hbody, hsubject, want_isFrom ho⟩

lemma make_isFrom (hs : s.KeepsHeld held)
    (hread : ∀ path text, disk.read? path = some text → held path text) (kind : Kind)
    (options : Value) (hook : Option Hook) :
    (make s disk kind options hook).store.KeepsHeld held ∧
      ∀ f, (make s disk kind options hook).result = .ok f →
        f.kind = kind ∧ ∃ data, settingsOf options = .ok data ∧ f.IsFrom held disk data := by
  rw [make]
  cases hsettings : settingsOf options with
  | error e => exact ⟨hs, fun f h => absurd h (by simp)⟩
  | ok data =>
    obtain ⟨hkeeps, hmade⟩ := makeWith_isFrom hs hread kind data (hookOf options hook)
    refine ⟨hkeeps, fun f h => ?_⟩
    obtain ⟨hkind, hfrom⟩ := hmade f h
    exact ⟨hkind, data, rfl, hfrom⟩

end Making

end Formatter

end BuildNotice
