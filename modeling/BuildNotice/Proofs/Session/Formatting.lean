import BuildNotice.Proofs.Formatter.Pipeline
import BuildNotice.Proofs.Session.Resolving

namespace BuildNotice.Session

def Step.formats (name : String) : Step → Bool
  | .formatBuild n _ _ _ _ _ => n == name
  | .formatWorker n _ _ => n == name
  | _ => false

def Builds (disk : Disk) (steps : List Step) (i : Nat) (name : String) (f : Formatter) : Prop :=
  ∃ kind options hook outcome, steps[i]? = some (.make name kind options hook) ∧
    (run (start disk) steps)[i]? = some outcome ∧ outcome.answer = .formatter f

variable {disk : Disk} {steps : List Step} {i j n : Nat} {name : String} {f : Formatter}

lemma get?_keep {α : Type} (name key : String) (a : α) (kept : List (String × α)) :
    Record.get? key (keep name a kept) = if key = name then some a else Record.get? key kept := by
  unfold keep
  split
  · next h => exact Record.get?_replace name key a kept h
  · next h => exact Record.get?_append_new name key a kept (by simpa using h)

lemma builds_iff : Builds disk steps i name f ↔
    ∃ kind options hook, steps[i]? = some (.make name kind options hook) ∧
      (Formatter.make (sessionAt disk steps i).store (sessionAt disk steps i).disk kind options
        hook).result = .ok f := by
  constructor
  · rintro ⟨kind, options, hook, outcome, hstep, hrun, hanswer⟩
    rw [getElem?_run, hstep, Option.map_some, Option.some.injEq] at hrun
    subst hrun
    rw [step, make] at hanswer
    split at hanswer
    · exact absurd hanswer (by simp)
    · next g hg => exact ⟨kind, options, hook, hstep, by rw [hg, Answer.formatter.inj hanswer]⟩
  · rintro ⟨kind, options, hook, hstep, hmade⟩
    have hrun : (run (start disk) steps)[i]? =
        some ((sessionAt disk steps i).step (.make name kind options hook)) := by
      rw [getElem?_run, hstep, Option.map_some]
    exact ⟨kind, options, hook, _, hstep, hrun, by rw [step, make, hmade]⟩

lemma formatters_step (s : Session) (step : Step) :
    (s.step step).session.formatters = s.formatters ∨
      ∃ name kind options hook f, step = .make name kind options hook ∧
        (Formatter.make s.store s.disk kind options hook).result = .ok f ∧
        (s.step step).session.formatters = keep name f s.formatters := by
  have hcall (name : String) (k : Formatter → Answer × List Event) :
      (s.withFormatter name k).session.formatters = s.formatters := by
    rw [session_withFormatter]
  cases step with
  | resolve name request =>
    refine .inl ?_
    rw [Session.step, resolve]
    split <;> rfl
  | make name kind options hook =>
    rw [Session.step, make]
    split
    · exact .inl rfl
    · next f hf => exact .inr ⟨name, kind, options, hook, f, rfl, hf, rfl⟩
  | info name => exact .inl (hcall name _)
  | formatBuild name mode builder build master blamelist => exact .inl (hcall name _)
  | formatWorker name master worker => exact .inl (hcall name _)
  | equals name other => exact .inl (hcall name _)
  | equalsValue name => exact .inl (hcall name _)
  | _ => exact .inl rfl

lemma get?_formatters_succ (h : ∀ g, ¬ Builds disk steps n name g) :
    Record.get? name (sessionAt disk steps (n + 1)).formatters =
      Record.get? name (sessionAt disk steps n).formatters := by
  cases hn : steps[n]? with
  | none => rw [sessionAt_succ_of_none hn]
  | some step =>
    rw [sessionAt_succ hn]
    obtain hsame | ⟨other, kind, options, hook, g, rfl, hmade, hkeep⟩ :=
      formatters_step (sessionAt disk steps n) step
    · rw [hsame]
    · have hne : name ≠ other := by
        rintro rfl
        exact h g (builds_iff.mpr ⟨kind, options, hook, hn, hmade⟩)
      rw [hkeep, get?_keep, if_neg hne]

lemma get?_formatters_of_builds (h : Builds disk steps i name f) (hij : i < j)
    (hlast : ∀ k g, i < k → k < j → ¬ Builds disk steps k name g) :
    Record.get? name (sessionAt disk steps j).formatters = some f := by
  induction hij with
  | refl =>
    obtain ⟨kind, options, hook, hstep, hmade⟩ := builds_iff.mp h
    rw [sessionAt_succ hstep, step, make, hmade]
    simp only [get?_keep, if_pos]
  | @step m hm ih =>
    rw [get?_formatters_succ fun g => hlast m g hm (Nat.lt_succ_self m)]
    exact ih fun k g hi hk => hlast k g hi (Nat.lt_succ_of_lt hk)

lemma step_formats_congr {s t : Session} {call : Step} (hcall : call.formats name = true)
    (hs : Record.get? name s.formatters = some f) (ht : Record.get? name t.formatters = some f) :
    (s.step call).answer = (t.step call).answer ∧ (s.step call).events = (t.step call).events := by
  cases call with
  | formatBuild n mode builder build master blamelist =>
    obtain rfl : n = name := by simpa [Step.formats] using hcall
    simp [step, withFormatter, hs, ht]
  | formatWorker n master worker =>
    obtain rfl : n = name := by simpa [Step.formats] using hcall
    simp [step, withFormatter, hs, ht]
  | _ => exact absurd hcall Bool.false_ne_true

/-- A format call comes out as it would have right after its formatter was made. -/
theorem run_formats_as_made (h : Builds disk steps i name f) (hij : i < j)
    (hlast : ∀ k g, i < k → k < j → ¬ Builds disk steps k name g) {call : Step}
    (hj : steps[j]? = some call) (hcall : call.formats name = true) :
    ∃ o p, (run (start disk) steps)[j]? = some o ∧
      (run (start disk) (steps.take (i + 1) ++ [call]))[i + 1]? = some p ∧
      o.answer = p.answer ∧ o.events = p.events := by
  have hlength : i + 1 ≤ steps.length := by
    have := (List.getElem?_eq_some_iff.mp hj).1
    omega
  have hfirst : sessionAt disk (steps.take (i + 1) ++ [call]) (i + 1) =
      sessionAt disk steps (i + 1) := by
    simp [sessionAt, hlength]
  have hnext : (steps.take (i + 1) ++ [call])[i + 1]? = some call := by
    simp [hlength]
  have hthen := get?_formatters_of_builds h hij hlast
  have hmade := get?_formatters_of_builds h (Nat.lt_succ_self i) fun k g hi hk => by omega
  refine ⟨_, _, by rw [getElem?_run, hj, Option.map_some],
    by rw [getElem?_run, hnext, Option.map_some], ?_⟩
  rw [hfirst]
  exact step_formats_congr hcall hthen hmade

def fileDisk : Disk := ⟨"/", "/b", [("/t/a.txt", "old")]⟩

def fileOptions : Value :=
  .record 1 [("templateDirectory", .text "/t"), ("templateFilename", .text "a.txt")]

def fileFormatter (hook : Hook) : Formatter :=
  ⟨.worker, ⟨⟨0, .file "/t/a.txt", false, .mk [] [.content "old"]⟩, none, .plain, []⟩,
    Formatter.noWant, hook⟩

lemma make_file (kind : Formatter.Kind) (options : Value) {data : Value} (o : BuildOptions)
    {events : List Event} (hsettings : Formatter.settingsOf options = .ok data)
    (hparse : Formatter.parseOptions kind data = .ok (o, events))
    (hsubject : Formatter.hasSubject o.general = false)
    (hkey : (Formatter.bodyRequest o.general kind.defaultFilename).key? fileDisk =
      some (false, "/t/a.txt"))
    {s : Store} (hkept : s.kept = []) (hook : Hook) :
    let made := Formatter.make s fileDisk kind options (some hook)
    made.result = .ok (Formatter.ofTemplates kind o hook
        (⟨s.next, .file "/t/a.txt", false, .mk [] [.content "old"]⟩, none)) ∧
      made.store.next = s.next + 1 := by
  have hcompile : Template.compile "old" = .ok (.mk [] [.content "old"]) :=
    Template.compile_text (by decide) (by decide)
  have hfind : s.find? false "/t/a.txt" = none := by
    rw [Store.find?, hkept]
    rfl
  have hread := Store.resolve_read hkey hfind rfl
    (Store.ofText_of_compile hcompile s.next (.file "/t/a.txt") false)
  simp only [Formatter.make, hsettings, Formatter.makeWith, hparse, Formatter.templatesOf,
    hsubject, Store.resolvePair, hread]
  exact ⟨rfl, rfl⟩

lemma make_fileFormatter (hook : Hook) :
    (Formatter.make Store.empty fileDisk .worker fileOptions (some hook)).result =
      .ok (fileFormatter hook) :=
  (make_file .worker fileOptions
    ⟨⟨some "/t", some "a.txt", none, none, none, none, none⟩, Formatter.noWant⟩
    rfl rfl rfl (by decide) rfl hook).1

theorem run_formats_as_made_rewritten :
    let call : Step := .formatWorker "f" Formatter.sampleMaster (.record 1 [("name", .text "w")])
    let made (name : String) : Step := .make name .worker fileOptions (some [.delete "worker"])
    let steps : List Step := [made "f", call, .write "/t/a.txt" "new", .clear, made "g", call]
    Builds fileDisk steps 0 "f" (fileFormatter [.delete "worker"]) ∧
      ∃ o p, (run (start fileDisk) steps)[5]? = some o ∧
        (run (start fileDisk) (steps.take 1 ++ [call]))[1]? = some p ∧
        o.answer = p.answer ∧ o.events = p.events := by
  intro call made steps
  have hmade : Builds fileDisk steps 0 "f" (fileFormatter [.delete "worker"]) :=
    builds_iff.mpr ⟨_, _, _, rfl, make_fileFormatter _⟩
  refine ⟨hmade, run_formats_as_made hmade (by omega) ?_ rfl rfl⟩
  rintro k g hk hk5 ⟨kind, options, hook, outcome, hstep, -⟩
  have hk' : k = 1 ∨ k = 2 ∨ k = 3 ∨ k = 4 := by omega
  rcases hk' with rfl | rfl | rfl | rfl <;> simp [steps, made, call] at hstep

end BuildNotice.Session
