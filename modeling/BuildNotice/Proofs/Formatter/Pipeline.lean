import BuildNotice.Formatter
import BuildNotice.Proofs.Record
import BuildNotice.Proofs.Template.Compiling
import BuildNotice.Proofs.Value.Printable

/-! The hook changes the context, the extra context is laid over it, and the body is rendered before the
subject. -/

namespace BuildNotice

open Value (Fields)

lemma exists_of_bind_ok {ε α β : Type} {x : Except ε α} {f : α → Except ε β} {b : β}
    (h : (x >>= f) = .ok b) : ∃ a, x = .ok a ∧ f a = .ok b := by
  cases x with
  | error e => exact absurd h (by simp [bind, Except.bind])
  | ok a => exact ⟨a, rfl, h⟩

namespace Hook

inductive Change where
  | set (key : String) (v : Value)
  | delete (key : String)
  | copy (key source : String)

namespace Change

def toAction : Change → Action
  | .set key v => .set key v
  | .delete key => .delete key
  | .copy key source => .copy key source

def assign (key : String) (v : Value) (h : String → Option Value) : String → Option Value :=
  if key = "__proto__" then h else Function.update h key (some v)

def on (h : String → Option Value) : Change → String → Option Value
  | .set key v => assign key v h
  | .delete key => Function.update h key none
  | .copy key source => assign key ((h source).getD .undefined) h

end Change

def program (changes : List Change) (failure : Option Failure) : Hook :=
  changes.map Change.toAction ++ (failure.map Action.throw).toList

def held (fields : Fields) (key : String) : Option Value := Record.get? key fields

lemma held_put (key : String) (v : Value) (context : Fields) :
    held (put key v context) = Change.assign key v (held context) := by
  unfold put Change.assign
  split
  · rfl
  · funext k
    simp [held, Record.get?_set, Function.update_apply]

lemma distinct_put {context : Fields} (h : Record.Distinct context) (key : String) (v : Value) :
    Record.Distinct (put key v context) := by
  rw [put]
  split
  · exact h
  · exact h.set key v

lemma act_change (master : Value) {context : Fields} (h : Record.Distinct context) (c : Change) :
    ∃ context', act master context c.toAction = .ok context' ∧ Record.Distinct context' ∧
      held context' = c.on (held context) := by
  cases c with
  | set key v => exact ⟨_, rfl, distinct_put h key v, held_put key v context⟩
  | delete key =>
    refine ⟨_, rfl, h.erase key, ?_⟩
    funext k
    simp [held, Record.get?_erase, Change.on, Function.update_apply]
  | copy key source => exact ⟨_, rfl, distinct_put h key _, held_put key _ context⟩

lemma run_changes (master : Value) (changes : List Change) (rest : Hook) {context : Fields}
    (h : Record.Distinct context) :
    ∃ context',
      run master (changes.map Change.toAction ++ rest) context = run master rest context' ∧
      Record.Distinct context' ∧ held context' = changes.foldl Change.on (held context) := by
  induction changes generalizing context with
  | nil => exact ⟨context, rfl, h, rfl⟩
  | cons c changes ih =>
    obtain ⟨context₁, hact, hd₁, hheld₁⟩ := act_change master h c
    obtain ⟨context₂, hrun, hd₂, hheld₂⟩ := ih hd₁
    refine ⟨context₂, ?_, hd₂, by rw [hheld₂, hheld₁]; rfl⟩
    simp only [List.map_cons, List.cons_append, run, hact, bind, Except.bind]
    exact hrun

lemma run_program (master : Value) (changes : List Change) {context : Fields}
    (h : Record.Distinct context) :
    ∃ context', run master (program changes none) context = .ok context' ∧
      Record.Distinct context' ∧ held context' = changes.foldl Change.on (held context) :=
  run_changes master changes [] h

end Hook

namespace MessageContext

lemma ofBuild_distinct {f : Finished} {base : Fields} (h : ofBuild f = .ok base) :
    Record.Distinct base := by
  obtain ⟨buildset, -, h⟩ := exists_of_bind_ok h
  obtain ⟨results, -, h⟩ := exists_of_bind_ok h
  obtain ⟨worker, -, h⟩ := exists_of_bind_ok h
  obtain ⟨detected, -, h⟩ := exists_of_bind_ok h
  obtain ⟨summary, -, h⟩ := exists_of_bind_ok h
  obtain ⟨source, -, h⟩ := exists_of_bind_ok h
  obtain ⟨stamps, -, h⟩ := exists_of_bind_ok h
  obtain rfl := Except.ok.inj h
  simp only [Record.Distinct, Record.keys, List.map_cons, List.map_nil]
  decide

lemma memberOf_ok {v w : Value} {key : String} (h : memberOf v key = .ok w) : w = v.own key := by
  rw [memberOf] at h
  split at h
  · exact absurd h (by simp)
  · exact (Except.ok.inj h).symm

lemma memberOf_of_isNullish {v : Value} (h : v.isNullish = false) (key : String) :
    memberOf v key = .ok (v.own key) := by
  simp [MessageContext.memberOf, h]

lemma config_ok {master : Value} {title : String}
    (h : (master.own "config").own "title" = .text title) :
    memberOf master "config" = .ok (master.own "config") ∧
      ∀ key, memberOf (master.own "config") key = .ok ((master.own "config").own key) := by
  have hconfig : (master.own "config").isNullish = false :=
    Value.isNullish_of_own "title" (by rw [h]; rfl)
  exact ⟨memberOf_of_isNullish (Value.isNullish_of_own "config" hconfig) "config",
    memberOf_of_isNullish hconfig⟩

end MessageContext

namespace Formatter

open MessageContext Hook

def resultsBefore (build : Value) : Value :=
  if (build.own "prev_build").isTruthy then (build.own "prev_build").own "results" else .null

def IsBase (mode builder build master blamelist : Value) (base : Fields) : Prop :=
  ∃ projects link,
    Build.projectsText ((build.own "buildset").own "sourcestamps")
      ((master.own "config").own "title") = .ok projects ∧
    Build.linkOf ((master.own "config").own "buildbotURL")
      ((build.own "builder").own "builderid") (build.own "number") = .ok link ∧
    MessageContext.ofBuild ⟨mode, builder, build, resultsBefore build, blamelist, projects,
      .text link, (master.own "config").own "buildbotURL"⟩ = .ok base

lemma isBase_of_buildContext {mode builder build master blamelist : Value} {base : Fields}
    (h : buildContext mode builder build master blamelist = .ok base) :
    IsBase mode builder build master blamelist base := by
  obtain ⟨config, hconfig, h⟩ := exists_of_bind_ok h
  obtain ⟨title, htitle, h⟩ := exists_of_bind_ok h
  obtain ⟨url, hurl, h⟩ := exists_of_bind_ok h
  obtain ⟨previous, hprevious, h⟩ := exists_of_bind_ok h
  obtain ⟨buildset, hbuildset, h⟩ := exists_of_bind_ok h
  obtain ⟨stamps, hstamps, h⟩ := exists_of_bind_ok h
  obtain ⟨projects, hprojects, h⟩ := exists_of_bind_ok h
  obtain ⟨of, hof, h⟩ := exists_of_bind_ok h
  obtain ⟨id, hid, h⟩ := exists_of_bind_ok h
  obtain ⟨number, hnumber, h⟩ := exists_of_bind_ok h
  obtain ⟨link, hlink, hbase⟩ := exists_of_bind_ok h
  obtain rfl := memberOf_ok hconfig
  obtain rfl := memberOf_ok htitle
  obtain rfl := memberOf_ok hurl
  obtain rfl := memberOf_ok hbuildset
  obtain rfl := memberOf_ok hstamps
  obtain rfl := memberOf_ok hof
  obtain rfl := memberOf_ok hid
  obtain rfl := memberOf_ok hnumber
  have hbefore : previous = resultsBefore build := by
    obtain ⟨before, hmember, hbefore⟩ := exists_of_bind_ok hprevious
    obtain rfl := memberOf_ok hmember
    exact (Except.ok.inj hbefore).symm
  subst hbefore
  exact ⟨projects, link, hprojects, hlink, hbase⟩

def optionOf (options : Value) (key : String) : Value :=
  (Record.get? key options.spread).getD .undefined

lemma settings_own {options settings : Value} (h : settingsOf options = .ok settings) {key : String}
    (hkey : key ≠ hookKey) : settings.own key = optionOf options key := by
  have hown (fields : Fields) : (Value.ofFields (Record.erase hookKey fields)).own key =
      (Record.get? key fields).getD .undefined := by
    rw [Value.own, Value.ofFields, Value.own?, Record.get?_erase, if_neg hkey]
  unfold settingsOf at h
  split at h
  · obtain rfl := Except.ok.inj h
    rfl
  · exact absurd h (by simp)
  · obtain rfl := Except.ok.inj h
    exact hown _

end Formatter

lemma Template.render_normalizes {t : Template} {c : Value} {e : Failure}
    (h : t.render c = .error e) : e.normalize?.isSome = true := by
  rw [Template.render] at h
  split at h
  · exact absurd h (by simp)
  · next e' _ =>
    obtain rfl := Except.error.inj h
    unfold Template.renderFailure
    split
    · rfl
    · split
      · rfl
      · unfold Template.plainFailure
        split <;> rfl

namespace Renderer

def outcome (r : Renderer) (c : Value) : Except Failure Message :=
  match r.body.render c, r.subject with
  | .error e, _ => .error e
  | .ok body, none => .ok ⟨body, r.type, none⟩
  | .ok body, some t =>
    match t.render c with
    | .error e => .error e
    | .ok subject => .ok ⟨body, r.type, some subject⟩

lemma render_eq_outcome (r : Renderer) (c : Value) : r.render c = r.outcome c := by
  unfold render outcome renderSubject
  cases r.body.render c with
  | error e => rfl
  | ok body =>
    cases r.subject with
    | none => rfl
    | some t => cases ht : t.render c <;> simp [ht, bind, Except.bind]

lemma outcome_normalizes {r : Renderer} {c : Value} {e : Failure} (h : r.outcome c = .error e) :
    e.normalize?.isSome = true := by
  rw [outcome] at h
  cases hb : r.body.render c with
  | error e' =>
    obtain rfl : e' = e := by simpa [hb] using h
    exact Template.render_normalizes hb
  | ok body =>
    cases hs : r.subject with
    | none => simp [hb, hs] at h
    | some t =>
      cases ht : t.render c with
      | error e' =>
        obtain rfl : e' = e := by simpa [hb, hs, ht] using h
        exact Template.render_normalizes ht
      | ok subject => simp [hb, hs, ht] at h

end Renderer

namespace Formatter

open Hook

def surfaced (e : Failure) : Failure :=
  if e.normalize?.isSome then e else .wrongKind

lemma report_error (subject : Subject) (e : Failure) :
    (report subject (.error e)).result = .error (surfaced e) := by
  unfold report surfaced
  cases h : e.normalize? <;> simp [h]

lemma report_outcome (subject : Subject) (r : Renderer) (c : Value) :
    (report subject (r.outcome c)).result = r.outcome c := by
  cases h : r.outcome c with
  | ok m => rfl
  | error e => rw [report_error, surfaced, if_pos (r.outcome_normalizes h)]

variable {f : Formatter} {mode builder build master blamelist : Value} {context base : Fields}

lemma prepare_eq (h : f.kind ≠ .staging) (master : Value) (context : Fields) :
    f.prepare master context = f.hook.run master context := by
  rw [prepare]
  split
  · next hk => exact absurd hk h
  · rfl

lemma messageOf_outcome (hkind : f.kind ≠ .staging) {changes : List Change}
    (hhook : f.hook = program changes none) (hd : Record.Distinct context) :
    ∃ m, (∀ key, held m key = (held (Record.ofList f.renderer.extra) key).or
        (changes.foldl Change.on (held context) key)) ∧
      f.messageOf master context = f.renderer.outcome (Value.ofFields m) := by
  obtain ⟨prepared, hrun, hdistinct, hheld⟩ := run_program master changes hd
  refine ⟨f.renderer.merge (Value.ofFields prepared), fun key => ?_, ?_⟩
  · have hlist : Record.get? key (Record.ofList prepared) = held prepared key :=
      Record.get?_ofList key hdistinct
    simp only [held, Renderer.merge, Value.ofFields, Value.spread, Record.get?_merge]
    rw [hlist, hheld]
  · simp [messageOf, prepare_eq hkind, hhook, hrun, Renderer.render_eq_outcome, bind, Except.bind]

def sampleBuild : Value :=
  .record 3 [("number", .text "7"), ("results", .null), ("properties", .record 1 []),
    ("builder", .record 1 [("builderid", .text "3")]),
    ("buildset", .record 2 [("sourcestamps", .list 1 [])])]

def sampleMaster : Value :=
  .record 2 [("config", .record 1 [("title", .text "CI"), ("buildbotURL", .text "http://ci/")])]

end Formatter

end BuildNotice
