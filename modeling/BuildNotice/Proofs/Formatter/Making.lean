import BuildNotice.Proofs.Options
import BuildNotice.Proofs.Session.Uncached

/-! What can refuse to make a formatter of builds, in the order in which it is looked for. -/

namespace BuildNotice.Formatter

open Value (Fields)
open Options (faults faults_eq_nil_iff given parseBuild_of_accepts parseBuild_of_faults textOf
  textOf_optionValue warnings)

structure Slot where
  content : Option String
  directory : Option String
  filename : Option String

namespace Slot

def path (slot : Slot) (disk : Disk) : String :=
  Path.resolve disk.here (slot.directory.getD disk.bundled)
    (slot.filename.getD "default_mail.txt")

def conflict? (slot : Slot) : Option Failure :=
  if isGiven slot.content && (isGiven slot.directory || isGiven slot.filename) then
    some (.fault (.configuration "Only one of template or template path can be given"
      (Value.ofFields [("directory", optionValue slot.directory),
        ("filename", optionValue slot.filename)])))
  else none

def source? (slot : Slot) (disk : Disk) : Option (Source × String) :=
  if isGiven slot.content then slot.content.map fun text => (.inline text, text)
  else (disk.read? (slot.path disk)).map fun text => (.file (slot.path disk), text)

def missing? (slot : Slot) (disk : Disk) : Option Failure :=
  if (slot.source? disk).isNone then
    some (.fault (.templateNotFound (.text (slot.path disk)) .undefined))
  else none

def syntax? (source : Source) (text : String) : Option Failure :=
  match Template.compile text with
  | .ok _ => none
  | .error e => some (Template.syntaxFailure source e)

def malformed? (slot : Slot) (disk : Disk) : Option Failure :=
  (slot.source? disk).bind fun (source, text) => syntax? source text

def refusals (slot : Slot) (disk : Disk) : List (Option Failure) :=
  [slot.conflict?, slot.missing? disk, slot.malformed? disk]

end Slot

def firstOf (refusals : List (Option Failure)) : Option Failure :=
  refusals.findSome? id

def unaccepted? (data : Value) : Option Failure :=
  if faults data = [] then none else some (.fault (Options.invalid (faults data)))

def bodySlot (data : Value) : Slot :=
  ⟨textOf (data.own "template"), textOf (data.own "templateDirectory"),
    textOf (given (data.own "templateName") (data.own "templateFilename"))⟩

def subjectSlot (data : Value) : Slot :=
  ⟨textOf (data.own "subject"), textOf (data.own "templateDirectory"),
    textOf (data.own "subjectFilename")⟩

def asksForSubject (data : Value) : Bool :=
  isGiven (textOf (data.own "subjectFilename")) || isGiven (textOf (data.own "subject"))

/-- All that may refuse to make a formatter, in the order in which it is looked for. -/
def refusals (disk : Disk) (data : Value) : List (Option Failure) :=
  unaccepted? data :: ((bodySlot data).refusals disk ++
    if asksForSubject data then (subjectSlot data).refusals disk else [])

def FailsAs {α : Type} (refusal : Option Failure) (r : Except Failure α) : Prop :=
  match refusal with
  | some f => r = .error f
  | none => ∃ a, r = .ok a

lemma FailsAs.or {first second : Option Failure} {α β : Type} {r : Except Failure α}
    {t : Except Failure β} (h : FailsAs first r) (herror : ∀ f, r = .error f → t = .error f)
    (hok : ∀ a, r = .ok a → FailsAs second t) : FailsAs (first.or second) t := by
  cases first with
  | some f => exact herror f h
  | none =>
    obtain ⟨a, ha⟩ := h
    exact hok a ha

lemma FailsAs.imp {refusal : Option Failure} {α β : Type} {r : Except Failure α}
    {t : Except Failure β} (h : FailsAs refusal r) (herror : ∀ f, r = .error f → t = .error f)
    (hok : ∀ a, r = .ok a → ∃ b, t = .ok b) : FailsAs refusal t := by
  rw [← Option.or_none (o := refusal)]
  exact h.or herror hok

lemma FailsAs.map {refusal : Option Failure} {α β : Type} {r : Except Failure α}
    (h : FailsAs refusal r) (f : α → β) : FailsAs refusal (r.map f) :=
  h.imp (fun e he => by rw [he]; rfl) fun a ha => ⟨f a, by rw [ha]; rfl⟩

lemma firstOf_append (first second : List (Option Failure)) :
    firstOf (first ++ second) = (firstOf first).or (firstOf second) :=
  List.findSome?_append

lemma isTruthy_optionValue (s : Option String) : (optionValue s).isTruthy = isGiven s := by
  cases s <;> rfl

namespace Slot

variable {s : Store} {disk : Disk} {slot : Slot} {escapes : Bool}

def request (slot : Slot) (escapes : Bool) : Request :=
  ⟨optionValue slot.content, optionValue slot.directory, optionValue slot.filename,
    .text "default_mail.txt", .bool !escapes⟩

lemma hasConflict_eq (slot : Slot) (escapes : Bool) :
    (slot.request escapes).hasConflict =
      (isGiven slot.content && (isGiven slot.directory || isGiven slot.filename)) := by
  simp only [Request.hasConflict, request, isTruthy_optionValue, Bool.or_comm]

lemma path_eq (slot : Slot) (escapes : Bool) (disk : Disk) :
    (slot.request escapes).path disk = .ok (slot.path disk) := by
  obtain ⟨content, directory, filename⟩ := slot
  cases directory <;> cases filename <;> rfl

lemma exists_content (h : isGiven slot.content = true) : ∃ text, slot.content = some text := by
  cases hcontent : slot.content with
  | none => simp [hcontent, isGiven] at h
  | some text => exact ⟨text, rfl⟩

lemma firstOf_missing (hconflict : slot.conflict? = none) (hsource : slot.source? disk = none) :
    firstOf (slot.refusals disk) =
      some (.fault (.templateNotFound (.text (slot.path disk)) .undefined)) := by
  rw [firstOf, refusals, List.findSome?_cons, hconflict, missing?, hsource]
  rfl

lemma firstOf_found (hconflict : slot.conflict? = none) {source : Source} {text : String}
    (hsource : slot.source? disk = some (source, text)) :
    firstOf (slot.refusals disk) = syntax? source text := by
  rw [firstOf, refusals, List.findSome?_cons, hconflict, missing?, malformed?, hsource]
  change [syntax? source text].findSome? id = syntax? source text
  rw [List.findSome?_singleton, id_eq]

lemma ofText_failsAs (serial : Nat) (source : Source) (escapes : Bool) (text : String)
    (kept : Template → Store.Resolved) :
    FailsAs (syntax? source text)
      (do let t ← Template.ofText serial source escapes text; .ok (kept t)) := by
  rw [syntax?, Template.ofText]
  cases Template.compile text with
  | ok program => exact ⟨_, rfl⟩
  | error e => rfl

lemma resolveAnew_failsAs (s : Store) (disk : Disk) (slot : Slot) (escapes : Bool) :
    FailsAs (firstOf (slot.refusals disk)) (s.resolveAnew disk (slot.request escapes)) := by
  rw [Store.resolveAnew]
  by_cases hconflict : (slot.request escapes).hasConflict = true
  · have hfirst : slot.conflict? = some (.fault (slot.request escapes).conflict) := by
      rw [conflict?, if_pos ((hasConflict_eq slot escapes).symm.trans hconflict)]
      rfl
    rw [if_pos hconflict, firstOf, refusals, List.findSome?_cons, hfirst]
    rfl
  · have hfirst : slot.conflict? = none := by
      rw [conflict?, if_neg (by rwa [hasConflict_eq] at hconflict)]
    have htruthy : (slot.request escapes).content.isTruthy = isGiven slot.content :=
      isTruthy_optionValue slot.content
    rw [if_neg hconflict, htruthy]
    cases hgiven : isGiven slot.content with
    | true =>
      obtain ⟨text, htext⟩ := exists_content hgiven
      have hsource : slot.source? disk = some (.inline text, text) := by
        rw [source?, if_pos hgiven, htext]
        rfl
      have hcontent : (slot.request escapes).content = .text text := by
        rw [request, htext]
        rfl
      rw [firstOf_found hfirst hsource, if_pos rfl, Store.resolveContent, hcontent]
      exact ofText_failsAs s.next (.inline text) _ text _
    | false =>
      have hsource : slot.source? disk = (disk.read? (slot.path disk)).map fun text =>
          (.file (slot.path disk), text) := by
        rw [source?, hgiven]
        rfl
      rw [path_eq]
      change FailsAs _ (s.resolveFile disk (slot.request escapes) (slot.path disk))
      rw [Store.resolveFile]
      cases hread : disk.read? (slot.path disk) with
      | none =>
        rw [firstOf_missing hfirst (by rw [hsource, hread]; rfl)]
        rfl
      | some text =>
        rw [firstOf_found hfirst (by rw [hsource, hread]; rfl)]
        exact ofText_failsAs s.next (.file (slot.path disk)) _ text _

lemma resolve_failsAs (hs : s.KeepsFiles disk) (slot : Slot) (escapes : Bool) :
    FailsAs (firstOf (slot.refusals disk)) (s.resolve disk (slot.request escapes)) := by
  have hanew := resolveAnew_failsAs s disk slot escapes
  have halike := hs.resolve_alike s (slot.request escapes)
  generalize s.resolve disk (slot.request escapes) = r at halike
  generalize s.resolveAnew disk (slot.request escapes) = t at halike hanew
  cases halike with
  | error f => exact hanew
  | ok htemplate hevents =>
    cases hfirst : firstOf (slot.refusals disk) with
    | none => exact ⟨_, rfl⟩
    | some f =>
      rw [hfirst] at hanew
      exact absurd hanew (by simp [FailsAs])

end Slot

variable {s : Store} {disk : Disk}

lemma resolvePair_failsAs (hs : s.KeepsFiles disk) (body subject : Slot) (escapes asks : Bool) :
    FailsAs (firstOf (body.refusals disk ++ if asks then subject.refusals disk else []))
      (s.resolvePair disk (body.request escapes)
        (if asks then some (subject.request escapes) else none)).result := by
  rw [firstOf_append, Store.resolvePair]
  refine (body.resolve_failsAs hs escapes).or (fun f hf => by rw [hf]) fun b hb => ?_
  rw [hb]
  cases asks with
  | false => exact ⟨_, rfl⟩
  | true =>
    -- The body may have been kept by now, and the subject may be the same file.
    have hsubject := subject.resolve_failsAs (hs.resolve hb) escapes
    change FailsAs (firstOf (subject.refusals disk)) _
    refine hsubject.imp (fun f hf => by simp [hf]) fun t ht => ?_
    exact ⟨(b.template, some t.template), by simp [ht]⟩

def Slot.requestFor (slot : Slot) (default : String) (escapes : Bool) : Request :=
  ⟨optionValue slot.content, optionValue slot.directory, optionValue slot.filename,
    .text default, .bool !escapes⟩

lemma bodyRequest_isFrom {o : BuildOptions} {data : Value} (ho : Options.IsReadFrom o data)
    (default : String) : bodyRequest o.general default =
      (bodySlot data).requestFor default (typeOf o.general).escapes := by
  rw [bodySlot, ← ho.template, ← ho.directory, ← ho.filename, textOf_optionValue,
    textOf_optionValue, textOf_optionValue]
  rfl

lemma subjectRequest_isFrom {o : BuildOptions} {data : Value} (ho : Options.IsReadFrom o data)
    (default : String) : subjectRequest o.general default =
      (subjectSlot data).requestFor default (typeOf o.general).escapes := by
  rw [subjectSlot, ← ho.subject, ← ho.directory, ← ho.subjectFilename, textOf_optionValue,
    textOf_optionValue, textOf_optionValue]
  rfl

lemma hasSubject_eq {o : BuildOptions} {data : Value} (ho : Options.IsReadFrom o data) :
    hasSubject o.general = asksForSubject data := by
  rw [hasSubject, asksForSubject, ← ho.subject, ← ho.subjectFilename, textOf_optionValue,
    textOf_optionValue]

lemma templatesOf_failsAs (hs : s.KeepsFiles disk) {o : BuildOptions} {data : Value}
    (ho : Options.IsReadFrom o data) :
    FailsAs (firstOf ((bodySlot data).refusals disk ++
        if asksForSubject data then (subjectSlot data).refusals disk else []))
      (templatesOf s disk o.general (Kind.defaultFilename .build)).result := by
  rw [templatesOf, hasSubject_eq ho, bodyRequest_isFrom ho, subjectRequest_isFrom ho]
  exact resolvePair_failsAs hs _ _ _ _

lemma makeWith_failsAs (hs : s.KeepsFiles disk) (data : Value) (hook : Hook) :
    FailsAs (firstOf (refusals disk data)) (makeWith s disk .build data hook).result := by
  by_cases hfaults : faults data = []
  · obtain ⟨o, ho, hread⟩ := parseBuild_of_accepts ((faults_eq_nil_iff data).mp hfaults)
    have hparse : parseOptions .build data = .ok (o, warnings data) := ho
    rw [firstOf, refusals, unaccepted?, if_pos hfaults, makeWith, hparse]
    exact (templatesOf_failsAs hs hread).map _
  · have hparse : parseOptions .build data = .error (Options.invalid (faults data)) :=
      parseBuild_of_faults hfaults
    rw [makeWith, hparse, refusals, unaccepted?, if_neg hfaults]
    rfl

/-- Making a formatter of builds fails as the first of its refusals says, and it succeeds where
there is none. -/
theorem make_refuses (s : Store) (disk : Disk) (label : Nat) (fields : Fields)
    (hook : Option Hook) :
    FailsAs (firstOf (refusals disk (Value.ofFields (Record.erase hookKey fields))))
      (make s.clear disk .build (.record label fields) hook).result :=
  makeWith_failsAs (Store.keepsFiles_clear disk s) _ _

end BuildNotice.Formatter
