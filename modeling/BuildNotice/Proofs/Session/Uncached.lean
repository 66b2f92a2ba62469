import BuildNotice.Proofs.Session.Resolving

/-! A store that keeps templates answers like one that compiles a template on every resolve. -/

namespace BuildNotice

structure Template.Alike (t u : Template) : Prop where
  source : t.source = u.source
  escapes : t.escapes = u.escapes
  program : t.program = u.program

lemma Template.Alike.render {t u : Template} (h : t.Alike u) (c : Value) :
    t.render c = u.render c := by
  rw [Template.render, Template.render, h.source, h.escapes, h.program]

def Event.Fewer (es fs : List Event) : Prop :=
  es = fs ∨ es = [] ∧ ∃ source mode, fs = [.compiled source mode]

namespace Store

def resolveAnew (s : Store) (disk : Disk) (r : Request) : Except Failure Resolved :=
  if r.hasConflict then .error (.fault r.conflict)
  else if r.content.isTruthy then s.resolveContent r
  else do
    let path ← r.path disk
    s.resolveFile disk r path

def KeepsFiles (disk : Disk) (s : Store) : Prop :=
  ∀ escapes path t, ((escapes, path), t) ∈ s.kept →
    ∃ text, disk.read? path = some text ∧ OfFile path text escapes t

inductive Resolved.Alike : Except Failure Resolved → Except Failure Resolved → Prop
  | error (f : Failure) : Resolved.Alike (.error f) (.error f)
  | ok {r q : Resolved} : r.template.Alike q.template → Event.Fewer r.events q.events →
      Resolved.Alike (.ok r) (.ok q)

variable {s u : Store} {disk : Disk} {request : Request} {r : Resolved}

lemma keepsFiles_empty (disk : Disk) : empty.KeepsFiles disk := by
  intro escapes path t ht
  exact absurd ht (by simp [empty])

lemma keepsFiles_clear (disk : Disk) (s : Store) : s.clear.KeepsFiles disk := by
  intro escapes path t ht
  exact absurd ht (by simp [clear])

lemma KeepsFiles.resolve (hs : s.KeepsFiles disk) (h : s.resolve disk request = .ok r) :
    r.store.KeepsFiles disk := by
  obtain ⟨-, -, hstore⟩ | ⟨key, text, -, -, htext, hof, hstore⟩ | ⟨key, -, -, hstore⟩ :=
    resolve_cases h
  · rw [hstore]
    exact hs
  · intro escapes path t ht
    rw [hstore, List.mem_cons] at ht
    rcases ht with ht | ht
    · obtain ⟨rfl, rfl⟩ := Prod.mk.inj ht
      obtain ⟨hsource, hescapes, hprogram⟩ := ofText_ok hof
      exact ⟨text, htext, hsource, hescapes, hprogram⟩
    · exact hs escapes path t ht
  · rw [hstore]
    exact hs

lemma KeepsFiles.find? (hs : s.KeepsFiles disk) {escapes : Bool} {path : String} {t : Template}
    (h : s.find? escapes path = some t) :
    ∃ text, disk.read? path = some text ∧ OfFile path text escapes t := by
  obtain ⟨⟨key, u⟩, hfind, rfl⟩ := Option.map_eq_some_iff.mp h
  obtain rfl : key = (escapes, path) := by simpa using List.find?_some hfind
  exact hs escapes path u (List.mem_of_find?_eq_some hfind)

lemma resolveContent_alike (s u : Store) (request : Request) :
    Resolved.Alike (s.resolveContent request) (u.resolveContent request) := by
  unfold resolveContent
  split
  · next text _ =>
    cases hc : Template.compile text with
    | error e =>
      simp only [Template.ofText, hc, bind, Except.bind]
      exact .error _
    | ok program =>
      simp only [Template.ofText, hc, bind, Except.bind]
      exact .ok ⟨rfl, rfl, rfl⟩ (.inl rfl)
  · split <;> exact .error _

lemma resolveFile_alike (s u : Store) (disk : Disk) (request : Request) (path : String) :
    Resolved.Alike (s.resolveFile disk request path) (u.resolveFile disk request path) := by
  unfold resolveFile
  split
  · exact .error _
  · next text _ =>
    cases hc : Template.compile text with
    | error e =>
      simp only [Template.ofText, hc, bind, Except.bind]
      exact .error _
    | ok program =>
      simp only [Template.ofText, hc, bind, Except.bind]
      exact .ok ⟨rfl, rfl, rfl⟩ (.inl rfl)

lemma kept_alike (hs : s.KeepsFiles disk) {path : String} {t : Template}
    (h : s.find? request.escapes path = some t) (u : Store) :
    Resolved.Alike (.ok ⟨t, s, []⟩) (u.resolveFile disk request path) := by
  obtain ⟨text, htext, hsource, hescapes, hprogram⟩ := hs.find? h
  have hof := ofText_of_compile hprogram u.next (.file path) request.escapes
  simp only [resolveFile, htext, hof, bind, Except.bind]
  exact .ok ⟨hsource, hescapes, rfl⟩ (.inr ⟨rfl, _, _, rfl⟩)

lemma KeepsFiles.resolve_alike (hs : s.KeepsFiles disk) (u : Store) (request : Request) :
    Resolved.Alike (s.resolve disk request) (u.resolveAnew disk request) := by
  unfold Store.resolve resolveAnew
  split
  · exact .error _
  · split
    · exact resolveContent_alike s u request
    · cases request.path disk with
      | error f => exact .error f
      | ok path =>
        simp only [bind, Except.bind]
        split
        · next t ht => exact kept_alike hs ht u
        · exact resolveFile_alike s u disk request path

end Store

namespace Session

def resolveAnew (s : Session) (name : String) (request : Request) : Outcome :=
  match s.store.resolveAnew s.disk request with
  | .error f => s.quiet (.failed f)
  | .ok r =>
    ⟨.resolved r.template (holders r.template s.templates), r.events,
      { s with store := r.store, templates := keep name r.template s.templates }⟩

def stepAnew (s : Session) : Step → Outcome
  | .resolve name request => s.resolveAnew name request
  | step => s.step step

def runAnew (s : Session) : List Step → List Outcome
  | [] => []
  | step :: rest =>
    let o := s.stepAnew step
    o :: runAnew o.session rest

def Step.keepsFiles : Step → Bool
  | .resolve _ _ => true
  | .render _ _ => true
  | .clear => true
  | _ => false

inductive Answer.Alike : Answer → Answer → Prop
  | done : Answer.Alike .done .done
  | resolved {t u : Template} (same same' : List String) :
      t.Alike u → Answer.Alike (.resolved t same) (.resolved u same')
  | rendered (text : String) : Answer.Alike (.rendered text) (.rendered text)
  | failed (f : Failure) : Answer.Alike (.failed f) (.failed f)

structure Outcome.Alike (o p : Outcome) : Prop where
  answer : o.answer.Alike p.answer
  events : Event.Fewer o.events p.events

abbrev KeptAlike : List (String × Template) → List (String × Template) → Prop :=
  List.Forall₂ fun a b => a.1 = b.1 ∧ a.2.Alike b.2

structure Mirrors (s t : Session) : Prop where
  disk : s.disk = t.disk
  keepsFiles : s.store.KeepsFiles s.disk
  templates : KeptAlike s.templates t.templates

variable {s t : Session} {kept kept' : List (String × Template)}

lemma KeptAlike.has (h : KeptAlike kept kept') (name : String) :
    Record.has name kept = Record.has name kept' := by
  induction h with
  | nil => rfl
  | cons hab _ ih =>
    simp only [Record.has, List.any_cons] at ih ⊢
    rw [hab.1, ih]

lemma KeptAlike.replace (h : KeptAlike kept kept') (name : String) {a b : Template}
    (hab : a.Alike b) : KeptAlike (Record.replace name a kept) (Record.replace name b kept') := by
  induction h with
  | nil => exact .nil
  | @cons x y _ _ hxy hrest ih =>
    obtain ⟨k, v⟩ := x
    obtain ⟨k', w⟩ := y
    obtain ⟨rfl, hvw⟩ := hxy
    rw [Record.replace, Record.replace]
    split
    · exact .cons ⟨rfl, hab⟩ hrest
    · exact .cons ⟨rfl, hvw⟩ ih

lemma KeptAlike.keep (h : KeptAlike kept kept') (name : String) {a b : Template}
    (hab : a.Alike b) : KeptAlike (keep name a kept) (keep name b kept') := by
  unfold Session.keep
  rw [h.has name]
  split
  · exact h.replace name hab
  · exact List.rel_append h (.cons ⟨rfl, hab⟩ .nil)

lemma KeptAlike.get? (h : KeptAlike kept kept') (name : String) :
    Option.Rel Template.Alike (Record.get? name kept) (Record.get? name kept') := by
  induction h with
  | nil => exact .none
  | @cons x y _ _ hxy _ ih =>
    obtain ⟨k, v⟩ := x
    obtain ⟨k', w⟩ := y
    obtain ⟨rfl, hvw⟩ := hxy
    rw [Record.get?, Record.get?]
    split
    · exact .some hvw
    · exact ih

lemma Mirrors.render (h : s.Mirrors t) (name : String) (c : Value) :
    (s.render name c).Alike (t.render name c) := by
  have hkept := h.templates.get? name
  unfold Session.render
  cases hs : Record.get? name s.templates with
  | none =>
    cases ht : Record.get? name t.templates with
    | none => exact .failed _
    | some u => exact absurd (hs ▸ ht ▸ hkept) (by rintro ⟨⟩)
  | some a =>
    cases ht : Record.get? name t.templates with
    | none => exact absurd (hs ▸ ht ▸ hkept) (by rintro ⟨⟩)
    | some b =>
      rw [hs, ht] at hkept
      cases hkept with
      | some hab =>
        simp only [hab.render c]
        split
        · exact .rendered _
        · exact .failed _

lemma Mirrors.resolve (h : s.Mirrors t) (name : String) (request : Request) :
    (s.resolve name request).Alike (t.resolveAnew name request) ∧
      (s.resolve name request).session.Mirrors (t.resolveAnew name request).session := by
  have halike := h.keepsFiles.resolve_alike t.store request
  rw [Session.resolve, resolveAnew, ← h.disk]
  cases hs : s.store.resolve s.disk request with
  | error f =>
    rw [hs] at halike
    cases ht : t.store.resolveAnew s.disk request with
    | ok q => exact absurd (ht ▸ halike) (by rintro ⟨⟩)
    | error g =>
      rw [ht] at halike
      cases halike
      exact ⟨⟨.failed f, .inl rfl⟩, h⟩
  | ok r =>
    have hkeeps := h.keepsFiles.resolve hs
    rw [hs] at halike
    cases ht : t.store.resolveAnew s.disk request with
    | error g => exact absurd (ht ▸ halike) (by rintro ⟨⟩)
    | ok q =>
      rw [ht] at halike
      cases halike with
      | ok htemplate hevents =>
        exact ⟨⟨.resolved _ _ htemplate, hevents⟩, rfl, hkeeps, h.templates.keep name htemplate⟩

lemma Mirrors.step (h : s.Mirrors t) {step : Step} (hstep : step.keepsFiles = true) :
    (s.step step).Alike (t.stepAnew step) ∧
      (s.step step).session.Mirrors (t.stepAnew step).session := by
  cases step with
  | resolve name request => exact h.resolve name request
  | render name c => exact ⟨⟨h.render name c, .inl rfl⟩, h⟩
  | clear => exact ⟨⟨.done, .inl rfl⟩, h.disk, Store.keepsFiles_clear _ _, h.templates⟩
  | _ => exact absurd hstep Bool.false_ne_true

lemma Mirrors.run (h : s.Mirrors t) {steps : List Step}
    (hsteps : steps.all Step.keepsFiles = true) :
    List.Forall₂ Outcome.Alike (run s steps) (runAnew t steps) := by
  induction steps generalizing s t with
  | nil => exact .nil
  | cons step steps ih =>
    rw [List.all_cons, Bool.and_eq_true] at hsteps
    obtain ⟨halike, hmirrors⟩ := h.step hsteps.1
    exact .cons halike (ih hmirrors hsteps.2)

/-- While the files stay as they are, every resolve and every rendering of a run comes out as it
would if nothing were kept. -/
theorem run_alike_runAnew (disk : Disk) {steps : List Step}
    (h : steps.all Step.keepsFiles = true) :
    List.Forall₂ Outcome.Alike (run (start disk) steps) (runAnew (start disk) steps) := by
  have hstart : (start disk).Mirrors (start disk) := ⟨rfl, Store.keepsFiles_empty disk, .nil⟩
  exact hstart.run h

theorem run_alike_runAnew_spellings :
    let r : Request := ⟨.undefined, .text "/t", .text "a.txt", .text "x", .undefined⟩
    let q : Request := ⟨.null, .undefined, .text "/t/../t/./a.txt", .text "x", .bool false⟩
    let steps : List Step :=
      [.resolve "a" r, .resolve "b" q, .render "b" .null, .clear, .resolve "a" q]
    let disk : Disk := ⟨"/", "/b", [("/t/a.txt", "old")]⟩
    steps.all Step.keepsFiles = true ∧
      List.Forall₂ Outcome.Alike (run (start disk) steps) (runAnew (start disk) steps) :=
  ⟨rfl, run_alike_runAnew _ rfl⟩

end Session

end BuildNotice
