import BuildNotice.Template
import BuildNotice.Proofs.Formatter.Blanks
import BuildNotice.Proofs.MessageContext

/-! The worker of a build as a field of the context, and as a property of the build. -/

namespace BuildNotice

open Value (Fields)
open Template Template.Render Template.Written

namespace MessageContext

def isReported : Value → Bool
  | .list _ parts => !(parts.headD .undefined).isComposite
  | v => v.isNullish

lemma own_zero (label : Nat) (parts : List Value) :
    (Value.list label parts).own "0" = parts.headD .undefined := by
  have hzero : Record.index? "0" = some 0 := by decide
  cases parts <;> simp [Value.own, Value.own?, hzero]

lemma workerOf_cases {build : Value}
    (h : isReported ((build.own "properties").own "workername") = true) :
    (∃ label parts, (build.own "properties").own "workername" = .list label parts ∧
      workerOf build = parts.headD .undefined ∧ (workerOf build).isComposite = false) ∨
    ((build.own "properties").own "workername").isNullish = true ∧
      workerOf build = .text unknownWorker := by
  rw [workerOf]
  cases hname : (build.own "properties").own "workername" with
  | list label parts =>
    rw [hname, isReported, Bool.not_eq_true'] at h
    rw [if_pos (by rfl), own_zero]
    exact .inl ⟨label, parts, rfl, rfl, h⟩
  | undefined => exact .inr ⟨rfl, rfl⟩
  | null => exact .inr ⟨rfl, rfl⟩
  | _ => exact absurd h (by simp [hname, isReported, Value.isNullish])

lemma workerOf_isPrintable {build : Value}
    (h : isReported ((build.own "properties").own "workername") = true) :
    (workerOf build).isPrintable = true := by
  rcases workerOf_cases h with ⟨label, parts, -, -, hsimple⟩ | ⟨-, hunknown⟩
  · exact Value.isPrintable_of_simple hsimple
  · rw [hunknown]
    rfl

lemma isComposite_of_own {v : Value} {key : String} (hindex : Record.index? key = none)
    (hlength : key ≠ "length") (h : v.own key ≠ .undefined) : v.isComposite = true := by
  cases v with
  | list label items => rfl
  | record label fields => rfl
  | _ => exact absurd (by simp [Value.own, Value.own?, hindex, hlength]) h

lemma propertyOf_eq_workerOf {build : Value}
    (hproperties : (build.own "properties").isNullish = false)
    (h : isReported ((build.own "properties").own "workername") = true) :
    Helper.propertyOf [build, .text "workername", .text unknownWorker] = workerOf build := by
  have hbuild : build.isComposite = true := by
    refine isComposite_of_own (show Record.index? "properties" = none by decide) (by decide) ?_
    intro hnone
    rw [hnone] at hproperties
    cases hproperties
  have hknows : build.knows "properties" = true := knows_of_own hbuild hproperties
  have hdefault : Helper.textOr "" (some (.text unknownWorker)) = unknownWorker := rfl
  rcases workerOf_cases h with ⟨label, parts, hlist, hworker, -⟩ | ⟨hnone, hworker⟩
  · have hcomposite : (build.own "properties").isComposite = true :=
      isComposite_of_own (show Record.index? "workername" = none by decide) (by decide)
        (by simp [hlist])
    simp [Helper.propertyOf, hbuild, hknows, hcomposite, hlist, hworker]
  · rw [hworker]
    simp only [Helper.propertyOf, hbuild, hknows, Bool.and_self, if_true]
    split
    · split
      · next hlist => exact absurd hnone (by simp [hlist, Value.isNullish])
      · exact congrArg Value.text hdefault
    · exact congrArg Value.text hdefault

lemma ofBuild_worker {f : Finished} {context : Fields} (h : ofBuild f = .ok context) :
    (f.build.own "properties").isNullish = false ∧
      Record.get? "workername" context = some (workerOf f.build) ∧
      Record.get? "build" context = some f.build := by
  obtain ⟨buildset, -, h⟩ := exists_of_bind_ok h
  obtain ⟨results, -, h⟩ := exists_of_bind_ok h
  obtain ⟨worker, hworker, h⟩ := exists_of_bind_ok h
  obtain ⟨detected, -, h⟩ := exists_of_bind_ok h
  obtain ⟨summary, -, h⟩ := exists_of_bind_ok h
  obtain ⟨source, -, h⟩ := exists_of_bind_ok h
  obtain ⟨stamps, -, h⟩ := exists_of_bind_ok h
  obtain rfl := Except.ok.inj h
  obtain ⟨properties, hproperties, hworker⟩ := exists_of_bind_ok hworker
  obtain ⟨property, hproperty, hworker⟩ := exists_of_bind_ok hworker
  obtain rfl := memberOf_ok hproperties
  have hnullish : (f.build.own "properties").isNullish = false := by
    by_contra hn
    rw [memberOf, if_pos (by simpa using hn)] at hproperty
    cases hproperty
  obtain rfl := memberOf_ok hproperty
  obtain rfl := Except.ok.inj hworker
  exact ⟨hnullish, rfl, rfl⟩

def workerTag : String := "\x7b\x7bworkername\x7d\x7d"

def workerCall : String := "\x7b\x7bproperty build \"workername\" \"<unknown>\"\x7d\x7d"

def callPieces : List Piece :=
  [.output ["property"] [.path ["build"], .string "workername", .string unknownWorker]]

lemma write_workerTag : write [.output ["workername"] []] = workerTag := by decide +kernel

lemma write_workerCall : write callPieces = workerCall := by decide +kernel

lemma workerTag_shows {ss : List Statement} (hss : Compile [.output ["workername"] []] ss)
    (escapes : Bool) {text : String} {v : Value} {fields : Fields}
    (hv : Record.get? "workername" fields = some v) (ht : printed? escapes v = some text)
    (label : Nat) : run escapes (.mk [] ss) (.record label fields) = .ok text := by
  refine run_piece (lookup_shows (rootScope_sees escapes _ _) rfl (by decide) (by decide)
    (missing?_field hv) ?_) hss
  rw [show reached (.record label fields) ["workername"] = v from own_field hv]
  exact ht

lemma workerCall_shows {ss : List Statement} (hss : Compile callPieces ss) (escapes : Bool)
    {text : String} {build : Value} {fields : Fields}
    (hv : Record.get? "build" fields = some build) (hbuild : build ≠ .undefined)
    (ht : printed? escapes (Helper.propertyOf [build, .text "workername", .text unknownWorker]) =
      some text) (label : Nat) : run escapes (.mk [] ss) (.record label fields) = .ok text :=
  run_piece (property_prints _ (rootScope_sees escapes _ _) (by decide) hv hbuild ht) hss

theorem workername_prints_property (f : Finished)
    (hworker : isReported ((f.build.own "properties").own "workername") = true)
    (type : MessageType) (serial serial' : Nat) (source source' : Source) :
    (IsRecorded f.build → ∀ label tags, f.mode = .list label tags →
      ∃ context, ofBuild f = .ok context) ∧
    ∃ tag call, Template.ofText serial source type.escapes workerTag = .ok tag ∧
      Template.ofText serial' source' type.escapes workerCall = .ok call ∧
      ∀ context label, ofBuild f = .ok context →
        tag.render (.record label context) = .ok (type.fill (workerOf f.build)) ∧
        call.render (.record label context) = .ok (type.fill (workerOf f.build)) := by
  obtain ⟨tag, htag, htags⟩ :=
    compile_write (show isPlain [.output ["workername"] []] = true by decide) rfl
  obtain ⟨call, hcall, hcalls⟩ := compile_write (show isPlain callPieces = true by decide) rfl
  rw [write_workerTag] at htag
  rw [write_workerCall] at hcall
  refine ⟨fun hrecorded label tags hmode => ?_, ⟨serial, source, type.escapes, .mk [] tag⟩,
    ⟨serial', source', type.escapes, .mk [] call⟩, by rw [Template.ofText, htag],
    by rw [Template.ofText, hcall], fun context label hcontext => ?_⟩
  · obtain ⟨stamps, hcontext⟩ := ofBuild_eq hrecorded hmode
    exact ⟨_, hcontext⟩
  · obtain ⟨hproperties, hname, hbuild⟩ := ofBuild_worker hcontext
    have hfill := type.printed_fill (workerOf_isPrintable hworker)
    have hproperty : printed? type.escapes
        (Helper.propertyOf [f.build, .text "workername", .text unknownWorker]) =
        some (type.fill (workerOf f.build)) := by
      rw [propertyOf_eq_workerOf hproperties hworker]
      exact hfill
    have hne : f.build ≠ .undefined := by
      intro hundefined
      rw [hundefined] at hproperties
      cases hproperties
    have hrunTag := workerTag_shows htags type.escapes hname hfill label
    have hrunCall := workerCall_shows hcalls type.escapes hbuild hne hproperty label
    exact ⟨by rw [Template.render, hrunTag], by rw [Template.render, hrunCall]⟩

def unfinishedBy (property : Value) : Finished :=
  { unfinished with
    build := .record 6 [("results", .null), ("state_string", .text "lint"),
      ("properties", .record 5 [("workername", property)]),
      ("buildset", .record 2 [("sourcestamps", .list 1 [])])] }

theorem workername_prints_property_unnamed :
    ∃ tag call, Template.ofText 0 (.inline workerTag) true workerTag = .ok tag ∧
      Template.ofText 1 (.inline workerCall) true workerCall = .ok call ∧
      ∃ context, ofBuild (unfinishedBy (.list 4 [])) = .ok context ∧
        tag.render (.record 7 context) = .ok "" ∧ call.render (.record 7 context) = .ok "" := by
  obtain ⟨hok, tag, call, htag, hcall, hrender⟩ := workername_prints_property
    (unfinishedBy (.list 4 [])) rfl .html 0 1 (.inline workerTag) (.inline workerCall)
  obtain ⟨context, hcontext⟩ := hok ⟨rfl, rfl, rfl, rfl, 1, [], rfl, rfl⟩ 1 _ rfl
  exact ⟨tag, call, htag, hcall, context, hcontext, hrender context 7 hcontext⟩

end MessageContext

end BuildNotice
