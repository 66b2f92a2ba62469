import BuildNotice.Proofs.Formatter.Reporting
import BuildNotice.Proofs.Formatter.Sources

/-! Classes of formatters that inherit from one another, and when their members are equal. -/

namespace BuildNotice

open Value (Fields)

lemma Source.id_injective : Function.Injective Source.id := by
  intro a b h
  cases a with
  | inline s =>
    cases b with
    | inline t => exact congrArg Source.inline (by simpa [Source.id] using h)
    | file p => exact absurd (congrArg (fun s => s.toList.head?) h) (by simp [Source.id])
  | file p =>
    cases b with
    | inline t => exact absurd (congrArg (fun s => s.toList.head?) h) (by simp [Source.id])
    | file q => exact congrArg Source.file (by simpa [Source.id] using h)

lemma MessageType.name_injective : Function.Injective MessageType.name := by
  intro a b h
  have hname : MessageType.ofName? a.name = MessageType.ofName? b.name := by rw [h]
  rw [MessageType.ofName?_name, MessageType.ofName?_name] at hname
  exact Option.some.inj hname

structure Renderer.Alike (r q : Renderer) : Prop where
  body : r.body.Alike q.body
  subject : Option.Rel Template.Alike r.subject q.subject
  type : r.type = q.type
  extra : r.extra = q.extra

namespace Renderer.Alike

variable {r q : Renderer}

lemma renderSubject (h : r.Alike q) (c : Value) : r.renderSubject c = q.renderSubject c := by
  have hsubject := h.subject
  rw [Renderer.renderSubject, Renderer.renderSubject]
  generalize r.subject = t at hsubject
  generalize q.subject = u at hsubject
  cases hsubject with
  | none => rfl
  | some htu => simp only [htu.render c]

lemma render (h : r.Alike q) (c : Value) : r.render c = q.render c := by
  rw [Renderer.render, Renderer.render, h.body.render c, h.renderSubject c, h.type]

lemma merge (h : r.Alike q) (c : Value) : r.merge c = q.merge c := by
  rw [Renderer.merge, Renderer.merge, h.extra]

end Renderer.Alike

lemma Template.IsFrom.alike {held : String → String → Prop} {t u : Template}
    {origin other : Source} {mode : Bool} (ht : t.IsFrom held origin mode)
    (hu : u.IsFrom held other mode) (hsource : t.source = u.source)
    (hone : ∀ a b, t.source.Holds held a → t.source.Holds held b → a = b) : t.Alike u := by
  obtain ⟨a, ha, hat⟩ := ht.program
  obtain ⟨b, hb, hbu⟩ := hu.program
  rw [← ht.source] at ha
  rw [← hu.source, ← hsource] at hb
  obtain rfl := hone a b ha hb
  exact ⟨hsource, ht.escapes.trans hu.escapes.symm, Except.ok.inj (hat.symm.trans hbu)⟩

namespace Formatter

/-- A class of formatters is one of the kinds or inherits from one, and may override what prepares
its contexts. -/
structure Classes (κ : Type) where
  base : κ → Kind
  override : κ → Option (Hook → Value → Fields → Except Failure Fields)

def Classes.kinds : Classes Kind := ⟨id, fun _ => none⟩

structure Member {κ : Type} (classes : Classes κ) where
  cls : κ
  formatter : Formatter
  kind_eq : formatter.kind = classes.base cls

inductive Operand {κ : Type} (classes : Classes κ) where
  | formatter (x : Member classes)
  | value (v : Value)

def subjectSource (f : Formatter) : Option Source :=
  f.renderer.subject.map Template.source

namespace Member

variable {κ : Type} {classes : Classes κ}

def equals [DecidableEq κ] (x : Member classes) : Operand classes → Bool
  | .formatter y => y.cls == x.cls && x.formatter.equals y.formatter
  | .value _ => false

def prepare (x : Member classes) (master : Value) (context : Fields) : Except Failure Fields :=
  match classes.override x.cls with
  | some override => override x.formatter.hook master context
  | none => x.formatter.prepare master context

def messageOf (x : Member classes) (master : Value) (context : Fields) :
    Except Failure Message := do
  let context ← x.prepare master context
  let r := x.formatter.renderer
  r.render (Value.ofFields (r.merge (Value.ofFields context)))

end Member

def Call.suits : Call → Kind → Bool
  | .finished .., kind => kind.formatsBuilds
  | .missing .., kind => !kind.formatsBuilds

def Member.format {κ : Type} {classes : Classes κ} (x : Member classes) (call : Call) : Formatted :=
  if call.suits x.formatter.kind then
    match call.context with
    | .error e => ⟨.error e, []⟩
    | .ok context => report call.subject (x.messageOf call.master context)
  else ⟨.error .wrongKind, []⟩

section Kinds

variable {x y : Member Classes.kinds}

lemma Member.equals_kinds (x y : Member Classes.kinds) :
    x.equals (.formatter y) = x.formatter.equals y.formatter := by
  have hx : x.formatter.kind = x.cls := x.kind_eq
  have hy : y.formatter.kind = y.cls := y.kind_eq
  rw [equals, Formatter.equals, hx, hy]
  by_cases h : x.cls = y.cls
  · simp [h]
  · simp [h]

lemma Member.format_kinds (x : Member Classes.kinds) (call : Call) :
    x.format call =
      if call.suits x.formatter.kind then x.formatter.format call else ⟨.error .wrongKind, []⟩ := by
  rw [Member.format]
  cases call <;> rfl

end Kinds

section Equality

variable {κ : Type} [DecidableEq κ] {classes : Classes κ} {x y : Member classes}

structure Matches (f g : Formatter) : Prop where
  body : f.renderer.body.source = g.renderer.body.source
  subject : f.subjectSource = g.subjectSource
  type : f.renderer.type = g.renderer.type
  want : f.kind.formatsBuilds = true → f.want = g.want

lemma subjectId_eq_iff (f g : Formatter) :
    f.subjectId = g.subjectId ↔ f.subjectSource = g.subjectSource := by
  have hmap (h : Formatter) : h.subjectId = h.subjectSource.map Source.id := by
    rw [subjectSource, Option.map_map]
    rfl
  rw [hmap, hmap]
  exact (Option.map_injective Source.id_injective).eq_iff

lemma equals_iff (f g : Formatter) : f.equals g = true ↔ f.kind = g.kind ∧ f.Matches g := by
  have hwant : (!f.kind.formatsBuilds || g.want == f.want) = true ↔
      (f.kind.formatsBuilds = true → f.want = g.want) := by
    rw [Bool.or_eq_true, Bool.not_eq_true', ← Bool.not_eq_true, ← imp_iff_not_or, beq_iff_eq]
    exact forall_congr' fun _ => eq_comm
  simp only [equals, Bool.and_eq_true, hwant, beq_iff_eq, Source.id_injective.eq_iff,
    subjectId_eq_iff]
  constructor
  · rintro ⟨⟨⟨⟨hkind, hbody⟩, hsubject⟩, htype⟩, hwants⟩
    exact ⟨hkind, hbody.symm, hsubject.symm, htype.symm, hwants⟩
  · rintro ⟨hkind, hbody, hsubject, htype, hwants⟩
    exact ⟨⟨⟨⟨hkind, hbody.symm⟩, hsubject.symm⟩, htype.symm⟩, hwants⟩

lemma Member.equals_iff (x y : Member classes) :
    x.equals (.formatter y) = true ↔ x.cls = y.cls ∧ x.formatter.Matches y.formatter := by
  rw [equals, Bool.and_eq_true, beq_iff_eq, Formatter.equals_iff, x.kind_eq, y.kind_eq]
  constructor
  · rintro ⟨hcls, -, hmatches⟩
    exact ⟨hcls.symm, hmatches⟩
  · rintro ⟨hcls, hmatches⟩
    exact ⟨hcls.symm, congrArg classes.base hcls, hmatches⟩

lemma Member.equals_equivalence (classes : Classes κ) :
    Equivalence fun x y : Member classes => x.equals (.formatter y) = true := by
  -- what is wanted is compared for builds only, so the kinds have to be matched first
  simp only [Member.equals_iff]
  refine ⟨fun x => ⟨rfl, rfl, rfl, rfl, fun _ => rfl⟩, ?_, ?_⟩
  · rintro x y ⟨hcls, hbody, hsubject, htype, hwant⟩
    have hkind : x.formatter.kind = y.formatter.kind := by rw [x.kind_eq, y.kind_eq, hcls]
    exact ⟨hcls.symm, hbody.symm, hsubject.symm, htype.symm,
      fun hbuilds => (hwant (hkind ▸ hbuilds)).symm⟩
  · rintro x y z ⟨hcls, hbody, hsubject, htype, hwant⟩ ⟨hcls', hbody', hsubject', htype', hwant'⟩
    have hkind : x.formatter.kind = y.formatter.kind := by rw [x.kind_eq, y.kind_eq, hcls]
    exact ⟨hcls.trans hcls', hbody.trans hbody', hsubject.trans hsubject', htype.trans htype',
      fun hbuilds => (hwant hbuilds).trans (hwant' (hkind ▸ hbuilds))⟩

end Equality

section Answers

variable {κ : Type} {classes : Classes κ} {x y : Member classes}

lemma prepare_congr {f g : Formatter} (hkind : f.kind = g.kind) (hhook : f.hook = g.hook)
    (master : Value) (context : Fields) : f.prepare master context = g.prepare master context := by
  rw [prepare, prepare, hkind, hhook]

lemma Member.format_congr (hcls : x.cls = y.cls) (hhook : x.formatter.hook = y.formatter.hook)
    (hrenderer : x.formatter.renderer.Alike y.formatter.renderer) (call : Call) :
    x.format call = y.format call := by
  have hkind : x.formatter.kind = y.formatter.kind := by rw [x.kind_eq, y.kind_eq, hcls]
  have hprepare (master : Value) (context : Fields) :
      x.prepare master context = y.prepare master context := by
    rw [prepare, prepare, hcls, hhook, prepare_congr hkind hhook]
  have hmessage (master : Value) (context : Fields) :
      x.messageOf master context = y.messageOf master context := by
    simp only [messageOf, hprepare, hrenderer.merge, hrenderer.render]
  simp only [Member.format, hkind, hmessage]

end Answers

section Settings

def subjectSourceIn (disk : Disk) (kind : Kind) (data : Value) : Option Source :=
  (subjectSlot? data).map fun slot => slot.sourceIn disk kind.defaultFilename

structure SameSettings (disk : Disk) (kind : Kind) (d e : Value) : Prop where
  type : typeIn d = typeIn e
  body : (bodySlot d).sourceIn disk kind.defaultFilename =
    (bodySlot e).sourceIn disk kind.defaultFilename
  subject : subjectSourceIn disk kind d = subjectSourceIn disk kind e
  want : kind.formatsBuilds = true → wantIn d = wantIn e

variable {held : String → String → Prop} {disk : Disk} {d e : Value} {f g : Formatter}

lemma IsFrom.subjectSource_eq (hf : f.IsFrom held disk d) :
    f.subjectSource = subjectSourceIn disk f.kind d := by
  have hsubject := hf.subject
  rw [subjectSource, subjectSourceIn]
  generalize subjectSlot? d = slot at hsubject
  generalize f.renderer.subject = t at hsubject
  cases hsubject with
  | none => rfl
  | some h => exact congrArg some h.source

lemma IsFrom.type_eq_iff (hf : f.IsFrom held disk d) (hg : g.IsFrom held disk e) :
    f.renderer.type = g.renderer.type ↔ typeIn d = typeIn e := by
  rw [← hf.type, ← hg.type, Value.text.injEq, MessageType.name_injective.eq_iff]

lemma IsFrom.want_eq_iff (hf : f.IsFrom held disk d) (hg : g.IsFrom held disk e) :
    f.want = g.want ↔ wantIn d = wantIn e := by
  obtain ⟨kind, renderer, ⟨properties, steps, logs⟩, hook⟩ := f
  obtain ⟨kind', renderer', ⟨properties', steps', logs'⟩, hook'⟩ := g
  rw [← hf.want, ← hg.want]
  simp

lemma IsFrom.matches_iff (hf : f.IsFrom held disk d) (hg : g.IsFrom held disk e)
    (hkind : f.kind = g.kind) : f.Matches g ↔ SameSettings disk f.kind d e := by
  have hbody : f.renderer.body.source = g.renderer.body.source ↔
      (bodySlot d).sourceIn disk f.kind.defaultFilename =
        (bodySlot e).sourceIn disk f.kind.defaultFilename := by
    rw [hf.body.source, hg.body.source, hkind]
  have hsubject : f.subjectSource = g.subjectSource ↔
      subjectSourceIn disk f.kind d = subjectSourceIn disk f.kind e := by
    rw [hf.subjectSource_eq, hg.subjectSource_eq, hkind]
  constructor
  · rintro ⟨body, subject, type, want⟩
    exact ⟨(hf.type_eq_iff hg).mp type, hbody.mp body, hsubject.mp subject,
      fun h => (hf.want_eq_iff hg).mp (want h)⟩
  · rintro ⟨type, body, subject, want⟩
    exact ⟨hbody.mpr body, hsubject.mpr subject, (hf.type_eq_iff hg).mpr type,
      fun h => (hf.want_eq_iff hg).mpr (want h)⟩

def templates (f : Formatter) : List Template :=
  f.renderer.body :: f.renderer.subject.toList

lemma IsFrom.exists_subject (hf : f.IsFrom held disk d) {t : Template}
    (ht : f.renderer.subject = some t) :
    ∃ origin, t.IsFrom held origin f.renderer.type.escapes := by
  have hsubject := hf.subject
  rw [ht] at hsubject
  generalize subjectSlot? d = slot at hsubject
  cases hsubject with
  | some h => exact ⟨_, h⟩

lemma IsFrom.alike (hf : f.IsFrom held disk d) (hg : g.IsFrom held disk e) (h : f.Matches g)
    (hextra : f.renderer.extra = g.renderer.extra)
    (hone : ∀ t ∈ f.templates, ∀ a b, t.source.Holds held a → t.source.Holds held b → a = b) :
    f.renderer.Alike g.renderer := by
  have hbody : f.renderer.body.Alike g.renderer.body :=
    hf.body.alike (h.type ▸ hg.body) h.body (hone _ List.mem_cons_self)
  refine ⟨hbody, ?_, h.type, hextra⟩
  have hsource := h.subject
  rw [subjectSource, subjectSource] at hsource
  cases ht : f.renderer.subject with
  | none =>
    rw [ht, Option.map_none, eq_comm, Option.map_eq_none_iff] at hsource
    rw [hsource]
    exact .none
  | some t =>
    rw [ht, Option.map_some, eq_comm, Option.map_eq_some_iff] at hsource
    obtain ⟨u, hu, hut⟩ := hsource
    obtain ⟨origin, htorigin⟩ := hf.exists_subject ht
    obtain ⟨other, huorigin⟩ := hg.exists_subject hu
    rw [← h.type] at huorigin
    rw [hu]
    exact .some (htorigin.alike huorigin hut.symm (hone t (by simp [templates, ht])))

end Settings

end Formatter

end BuildNotice
