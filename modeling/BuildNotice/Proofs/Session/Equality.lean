import BuildNotice.Proofs.Formatter.Equality
import BuildNotice.Proofs.Session.Formatting

namespace BuildNotice.Session

open Formatter

def Held (disk : Disk) (steps : List Step) (path text : String) : Prop :=
  ∃ n, (sessionAt disk steps n).disk.read? path = some text

def Steady (disk : Disk) (steps : List Step) (path : String) : Prop :=
  ∀ n, (sessionAt disk steps n).disk.read? path = disk.read? path

def IsMade (disk : Disk) (steps : List Step) (data : Value) (f : Formatter) : Prop :=
  ∃ i name kind options hook, steps[i]? = some (.make name kind options hook) ∧
    settingsOf options = .ok data ∧ Builds disk steps i name f

def Call.step (name : String) : Call → Step
  | .finished mode builder build master blamelist =>
    .formatBuild name mode builder build master blamelist
  | .missing master worker => .formatWorker name master worker

variable {disk : Disk} {steps : List Step} {held : String → String → Prop} {data : Value}
  {f : Formatter} {s : Session} {name other : String}

lemma step_member {x y : Member Classes.kinds} (call : Call)
    (hx : Record.get? name s.formatters = some x.formatter)
    (hy : Record.get? other s.formatters = some y.formatter) :
    (s.step (.equals name other)).answer = .equal (x.equals (.formatter y)) ∧
      ((s.step (Call.step name call)).answer, (s.step (Call.step name call)).events) =
        ofFormatted (x.format call) := by
  rw [x.equals_kinds y, x.format_kinds]
  refine ⟨by simp only [step, withFormatter, hx, hy], ?_⟩
  cases hbuilds : x.formatter.kind.formatsBuilds <;> cases call <;>
    simp [Call.step, step, withFormatter, hx, hbuilds, Call.suits, Formatter.format, ofFormatted]

lemma store_make (s : Session) (name : String) (kind : Kind) (options : Value)
    (hook : Option Hook) : (s.step (.make name kind options hook)).session.store =
      (Formatter.make s.store s.disk kind options hook).store := by
  rw [step, make]
  split <;> rfl

lemma keepsHeld_step (hs : s.store.KeepsHeld held)
    (hread : ∀ path text, s.disk.read? path = some text → held path text) (step : Step) :
    (s.step step).session.store.KeepsHeld held := by
  cases step with
  | resolve name request =>
    rw [Session.step, resolve]
    split
    · exact hs
    · next r hr => exact hs.resolve hread hr
  | make name kind options hook =>
    rw [store_make]
    exact (make_isFrom hs hread kind options hook).1
  | clear => exact Store.keepsHeld_clear held s.store
  | info name => simpa [Session.step] using hs
  | formatBuild name mode builder build master blamelist => simpa [Session.step] using hs
  | formatWorker name master worker => simpa [Session.step] using hs
  | equals name other => simpa [Session.step] using hs
  | equalsValue name => simpa [Session.step] using hs
  | _ => exact hs

lemma keepsHeld_sessionAt (disk : Disk) (steps : List Step) (n : Nat) :
    (sessionAt disk steps n).store.KeepsHeld (Held disk steps) := by
  induction n with
  | zero => exact Store.keepsHeld_empty _
  | succ n ih =>
    cases hn : steps[n]? with
    | none => rwa [sessionAt_succ_of_none hn]
    | some step =>
      rw [sessionAt_succ hn]
      -- what the files hold before the step is held at some place of the run, namely here
      exact keepsHeld_step ih (fun path text h => ⟨n, h⟩) step

lemma IsMade.isFrom (h : IsMade disk steps data f) : f.IsFrom (Held disk steps) disk data := by
  obtain ⟨i, name, kind, options, hook, hstep, hsettings, hbuilds⟩ := h
  obtain ⟨kind', options', hook', hstep', hmade⟩ := builds_iff.mp hbuilds
  obtain ⟨rfl, rfl, rfl⟩ := by simpa [hstep] using hstep'
  obtain ⟨-, hfrom⟩ := make_isFrom (keepsHeld_sessionAt disk steps i)
    (fun path text h => ⟨i, h⟩) kind options hook
  obtain ⟨-, data', hdata', hf⟩ := hfrom f hmade
  obtain rfl : data = data' := Except.ok.inj (hsettings.symm.trans hdata')
  exact hf.congr (disk_sessionAt disk steps i).1 (disk_sessionAt disk steps i).2

lemma holds_unique {origin : Source}
    (h : ∀ path, origin = .file path → Steady disk steps path) (a b : String)
    (ha : origin.Holds (Held disk steps) a) (hb : origin.Holds (Held disk steps) b) : a = b := by
  cases origin with
  | inline text => exact Eq.trans ha (Eq.symm hb)
  | file path =>
    obtain ⟨m, hm⟩ := ha
    obtain ⟨n, hn⟩ := hb
    rw [h path rfl m] at hm
    rw [h path rfl n] at hn
    exact Option.some.inj (hm.symm.trans hn)

def Step.changesFiles : Step → Bool
  | .write _ _ => true
  | .remove _ => true
  | _ => false

lemma step_disk_of_unchanged (s : Session) {step : Step} (h : step.changesFiles = false) :
    (s.step step).session.disk = s.disk := by
  cases step with
  | resolve name request =>
    rw [Session.step, resolve]
    split <;> rfl
  | make name kind options hook =>
    rw [Session.step, make]
    split <;> rfl
  | write path text => exact absurd h (by simp [Step.changesFiles])
  | remove path => exact absurd h (by simp [Step.changesFiles])
  | info name => simp [Session.step]
  | formatBuild name mode builder build master blamelist => simp [Session.step]
  | formatWorker name master worker => simp [Session.step]
  | equals name other => simp [Session.step]
  | equalsValue name => simp [Session.step]
  | _ => rfl

lemma disk_sessionAt_of_unchanged (disk : Disk)
    (h : ∀ step ∈ steps, step.changesFiles = false) (n : Nat) :
    (sessionAt disk steps n).disk = disk := by
  induction n with
  | zero => rfl
  | succ n ih =>
    cases hn : steps[n]? with
    | none => rwa [sessionAt_succ_of_none hn]
    | some step =>
      rwa [sessionAt_succ hn, step_disk_of_unchanged _ (h step (List.mem_of_getElem? hn))]

/-- Equality of the formatters of a session is an equivalence that no other value takes part in. It
says that they are of one class and made of the same settings, and then, with the same hook and the
same extra context, they answer every call alike if their files stay as they are. -/
theorem equals_of_made {κ : Type} [DecidableEq κ] {classes : Classes κ} {x y : Member classes}
    {dx dy : Value} (hx : IsMade disk steps dx x.formatter)
    (hy : IsMade disk steps dy y.formatter) :
    (Equivalence fun a b : Member classes => a.equals (.formatter b) = true) ∧
      (∀ v, x.equals (.value v) = false) ∧
      (x.equals (.formatter y) = true ↔
        x.cls = y.cls ∧ SameSettings disk (classes.base x.cls) dx dy) ∧
      (x.equals (.formatter y) = true → x.formatter.hook = y.formatter.hook →
        x.formatter.renderer.extra = y.formatter.renderer.extra →
        (∀ t ∈ x.formatter.templates, ∀ path, t.source = .file path → Steady disk steps path) →
        ∀ call, x.format call = y.format call) := by
  refine ⟨Member.equals_equivalence classes, fun v => rfl, ?_, fun heq hhook hextra hsteady => ?_⟩
  · rw [Member.equals_iff]
    refine and_congr_right fun hcls => ?_
    have hkind : x.formatter.kind = y.formatter.kind := by rw [x.kind_eq, y.kind_eq, hcls]
    rw [hx.isFrom.matches_iff hy.isFrom hkind, x.kind_eq]
  · obtain ⟨hcls, hmatches⟩ := (Member.equals_iff x y).mp heq
    exact Member.format_congr hcls hhook
      (hx.isFrom.alike hy.isFrom hmatches hextra fun t ht => holds_unique (hsteady t ht))

def spelledOptions : Value :=
  .record 1 [("templateDirectory", .text "/t/../t"), ("templateName", .text "./a.txt")]

def fileMember (serial : Nat) : Member Classes.kinds :=
  ⟨.build, ⟨.build, ⟨⟨serial, .file "/t/a.txt", false, .mk [] [.content "old"]⟩, none, .plain, []⟩,
    noWant, []⟩, rfl⟩

theorem equals_of_made_spelled :
    let steps : List Step := [.make "f" .build fileOptions (some []), .clear,
      .make "g" .build spelledOptions (some [])]
    let x := fileMember 0
    let y := fileMember 1
    IsMade fileDisk steps fileOptions x.formatter ∧
      IsMade fileDisk steps spelledOptions y.formatter ∧
      x.equals (.formatter y) = true ∧ ∀ call, x.format call = y.format call := by
  intro steps x y
  have hunchanged : ∀ step ∈ steps, step.changesFiles = false := by
    simp [steps, Step.changesFiles]
  have hdisk := disk_sessionAt_of_unchanged fileDisk hunchanged
  obtain ⟨hfirst, hnext⟩ := make_file .build fileOptions
    ⟨⟨some "/t", some "a.txt", none, none, none, none, none⟩, noWant⟩ rfl rfl rfl (by decide)
    (s := Store.empty) rfl []
  have hx : IsMade fileDisk steps fileOptions x.formatter :=
    ⟨0, "f", .build, fileOptions, some [], rfl, rfl, builds_iff.mpr ⟨_, _, _, rfl, hfirst⟩⟩
  have hstore : (sessionAt fileDisk steps 2).store = ⟨[], 1⟩ := by
    have hone : (sessionAt fileDisk steps 1).store.next = 1 := by
      rw [sessionAt_succ (n := 0) rfl, store_make]
      exact hnext
    rw [sessionAt_succ (n := 1) rfl]
    exact congrArg (Store.mk []) hone
  have hy : IsMade fileDisk steps spelledOptions y.formatter := by
    refine ⟨2, "g", .build, spelledOptions, some [], rfl, rfl, builds_iff.mpr ⟨_, _, _, rfl, ?_⟩⟩
    rw [hstore, hdisk]
    exact (make_file .build spelledOptions
      ⟨⟨some "/t/../t", some "./a.txt", none, none, none, none, none⟩, noWant⟩
      rfl rfl rfl (by decide) rfl []).1
  obtain ⟨-, -, hiff, hanswers⟩ := equals_of_made hx hy
  have heq : x.equals (.formatter y) = true :=
    hiff.mpr ⟨rfl, rfl, by decide, rfl, fun _ => rfl⟩
  exact ⟨hx, hy, heq, hanswers heq rfl rfl fun t _ path _ n => by rw [hdisk]⟩

end BuildNotice.Session
