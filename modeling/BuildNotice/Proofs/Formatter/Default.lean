import BuildNotice.Proofs.Formatter.Pipeline
import BuildNotice.Proofs.Store

namespace BuildNotice.Formatter

open Value (Fields)
open Hook

def AreDefault (options : Value) : Prop :=
  ∀ key ∈ Options.fieldNames ++ ["templateName"], key ≠ "templateType" →
    optionOf options key = .undefined

def bundledPath (disk : Disk) (kind : Kind) : String :=
  Path.resolve disk.here disk.bundled kind.defaultFilename

lemma textField_undefined {data : Value} {key : String} (h : data.own key = .undefined) :
    Options.textField data key = .ok none := by
  rw [Options.textField, h]

lemma nonemptyField_undefined {data : Value} {key : String} (message : String)
    (h : data.own key = .undefined) : Options.nonemptyField data key message = .ok none := by
  rw [Options.nonemptyField, textField_undefined h]

lemma ofValue_default {settings : Value}
    (h : ∀ key ∈ Options.fieldNames ++ ["templateName"], key ≠ "templateType" →
      settings.own key = .undefined) :
    ∃ type, Options.ofValue settings = ⟨none, none, none, none, none, type, none⟩ := by
  have hdirectory : Options.directoryOf settings = .ok none :=
    nonemptyField_undefined _ (h _ (by decide) (by decide))
  have hfilename : Options.filenameOf settings = .ok none :=
    nonemptyField_undefined _ (h _ (by decide) (by decide))
  have hsubjectFilename : Options.subjectFilenameOf settings = .ok none :=
    nonemptyField_undefined _ (h _ (by decide) (by decide))
  have htemplate : Options.textField settings "template" = .ok none :=
    textField_undefined (h _ (by decide) (by decide))
  have hsubject : Options.textField settings "subject" = .ok none :=
    textField_undefined (h _ (by decide) (by decide))
  have hextra : Options.recordField settings "extraContext" = .ok none := by
    rw [Options.recordField, h "extraContext" (by decide) (by decide)]
  refine ⟨Options.valueOf none (Options.typeField settings "templateType"), ?_⟩
  rw [Options.ofValue, hdirectory, hfilename, htemplate, hsubjectFilename, hsubject, hextra]
  rfl

lemma parse_default {kind : Kind} {settings : Value} {o : BuildOptions} {events : List Event}
    (h : ∀ key ∈ Options.fieldNames ++ ["templateName"], key ≠ "templateType" →
      settings.own key = .undefined) (ho : parseOptions kind settings = .ok (o, events)) :
    ∃ type, o.general = ⟨none, none, none, none, none, type, none⟩ := by
  obtain ⟨type, hvalue⟩ := ofValue_default h
  have hname : Options.nameOf settings = .ok none :=
    nonemptyField_undefined _ (h _ (by decide) (by decide))
  refine ⟨type, ?_⟩
  rw [parseOptions] at ho
  split at ho
  · rw [Options.parseBuild] at ho
    split at ho
    · obtain ⟨rfl, -⟩ := Prod.mk.inj (Except.ok.inj ho)
      simp [hname, Options.valueOf, hvalue]
    · exact absurd ho (by simp)
  · rw [Options.parse] at ho
    split at ho
    · obtain ⟨rfl, -⟩ := Prod.mk.inj (Except.ok.inj ho)
      exact hvalue
    · exact absurd ho (by simp [Except.map])

structure Plain (f : Formatter) (kind : Kind) (program : Template.Program) : Prop where
  kind : f.kind = kind
  program : f.renderer.body.program = program
  escapes : f.renderer.body.escapes = f.renderer.type.escapes
  subject : f.renderer.subject = none
  extra : f.renderer.extra = []
  hook : f.hook = []

namespace Plain

variable {f : Formatter} {kind : Kind} {program : Template.Program}

lemma messageOf_eq (hf : f.Plain kind program) (hkind : kind ≠ .staging) {context : Fields}
    (hd : Record.Distinct context) (master : Value) :
    ∃ m, (∀ key, Record.get? key m = Record.get? key context) ∧
      f.messageOf master context = f.renderer.outcome (Value.ofFields m) := by
  have hnone : f.hook = Hook.program [] none := hf.hook
  obtain ⟨m, hm, hmessage⟩ :=
    messageOf_outcome (by rwa [hf.kind]) hnone hd
  refine ⟨m, fun key => ?_, hmessage⟩
  have hkey := hm key
  rw [hf.extra] at hkey
  exact hkey

lemma outcome_run (hf : f.Plain kind program) {c : Value} {body : String}
    (h : Template.Render.run f.renderer.type.escapes program c = .ok body) :
    f.renderer.outcome c = .ok ⟨body, f.renderer.type, none⟩ := by
  have hrender : f.renderer.body.render c = .ok body := by
    rw [Template.render, hf.program, hf.escapes, h]
  rw [Renderer.outcome, hrender, hf.subject]

end Plain

lemma request_default (type : Option MessageType) (kind : Kind) (disk : Disk) :
    let o : Options := ⟨none, none, none, none, none, type, none⟩
    (bodyRequest o kind.defaultFilename).content.isTruthy = false ∧
      (bodyRequest o kind.defaultFilename).path disk = .ok (bundledPath disk kind) ∧
      (bodyRequest o kind.defaultFilename).escapes = (typeOf o).escapes ∧ hasSubject o = false := by
  refine ⟨rfl, rfl, ?_, rfl⟩
  simp [bodyRequest, request, Request.escapes, Request.mode, Value.isTruthy]

variable {s : Store} {disk : Disk} {kind : Kind} {options : Value} {hook : Option Hook}
  {f : Formatter} {text : String} {program : Template.Program}

lemma templates_default (hs : s.Serves (bundledPath disk kind) text)
    (hdisk : disk.read? (bundledPath disk kind) = some text)
    (hprogram : Template.compile text = .ok program) {o : Options} {type : Option MessageType}
    (ho : o = ⟨none, none, none, none, none, type, none⟩) :
    ∃ t, (templatesOf s disk o kind.defaultFilename).result = .ok (t, none) ∧
      t.program = program ∧ t.escapes = (typeOf o).escapes := by
  obtain ⟨hcontent, hpath, hescapes, hsubject⟩ := request_default type kind disk
  obtain ⟨r, hr, hfile⟩ := hs.resolve_file hdisk hprogram hcontent hpath
  subst ho
  refine ⟨r.template, ?_, Except.ok.inj (hfile.program.symm.trans hprogram),
    hfile.escapes.trans hescapes⟩
  rw [templatesOf, hsubject, Store.resolvePair, hr]
  rfl

lemma exists_make (hs : s.Serves (bundledPath disk kind) text)
    (hdisk : disk.read? (bundledPath disk kind) = some text)
    (hprogram : Template.compile text = .ok program) {settings : Value}
    (hsettings : settingsOf options = .ok settings) {o : BuildOptions} {events : List Event}
    (ho : parseOptions kind settings = .ok (o, events)) {type : Option MessageType}
    (hgeneral : o.general = ⟨none, none, none, none, none, type, none⟩) :
    ∃ f, (make s disk kind options hook).result = .ok f := by
  obtain ⟨t, ht, -⟩ := templates_default hs hdisk hprogram hgeneral
  refine ⟨ofTemplates kind o (hookOf options hook) (t, none), ?_⟩
  simp [make, hsettings, makeWith, ho, ht, Except.map]

lemma make_default (hs : s.Serves (bundledPath disk kind) text)
    (hdisk : disk.read? (bundledPath disk kind) = some text)
    (hprogram : Template.compile text = .ok program) (hoptions : AreDefault options)
    (hhook : hookOf options hook = [])
    (hmake : (make s disk kind options hook).result = .ok f) : f.Plain kind program := by
  rw [make] at hmake
  split at hmake
  · exact absurd hmake (by simp)
  · next settings hsettings =>
    have hdefault : ∀ key ∈ Options.fieldNames ++ ["templateName"], key ≠ "templateType" →
        settings.own key = .undefined := by
      intro key hkey htype
      rw [settings_own hsettings, hoptions key hkey htype]
      rintro rfl
      exact absurd hkey (by decide)
    rw [makeWith] at hmake
    split at hmake
    · exact absurd hmake (by simp)
    · next o events ho =>
      obtain ⟨type, hgeneral⟩ := parse_default hdefault ho
      obtain ⟨t, ht, hbody, hescapes⟩ := templates_default hs hdisk hprogram hgeneral
      obtain rfl : ofTemplates kind o (hookOf options hook) (t, none) = f := by
        simpa [ht, Except.map] using hmake
      exact ⟨rfl, hbody, hescapes, rfl, by simp [ofTemplates, rendererOf, hgeneral], hhook⟩

def htmlOptions : Value := .record 1 [("templateType", .text "html")]

lemma areDefault_htmlOptions : AreDefault htmlOptions := by
  intro key _ htype
  have hfields : htmlOptions.spread = [("templateType", .text "html")] := rfl
  simp [optionOf, hfields, Record.get?, Ne.symm htype]

def bundledDisk : Disk := ⟨"/", "/", Template.Bundled.files ""⟩

end BuildNotice.Formatter
