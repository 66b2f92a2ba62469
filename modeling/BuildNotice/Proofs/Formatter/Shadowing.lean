import BuildNotice.Proofs.Formatter.Blanks
import BuildNotice.Proofs.Formatter.Making
import BuildNotice.Proofs.Formatter.Pipeline

namespace BuildNotice

open Value (Fields)
open Template Template.Render Template.Written

def Template.tagOf (key : String) : String := "\x7b\x7b" ++ key ++ "\x7d\x7d"

namespace Template

variable {key : String} {fields : Fields}

lemma write_tag (key : String) : write [.output [key] []] = tagOf key := by
  apply String.toList_inj.mp
  simp [write, chars, Piece.chars, pathChars, argChars, tagOf]

lemma isPlain_tag (hkey : isIdentifier key = true) : isPlain [.output [key] []] = true := by
  simp [isPlain, Piece.isPlain, Piece.isText, isPlainPath, hkey, arePlain]

lemma compile_tag (hkey : isIdentifier key = true) :
    ∃ callee, compile (tagOf key) = .ok (.mk [] [.output true (.mk callee [] [])]) ∧
      callee.Names [key] := by
  obtain ⟨ss, hcompile, hss⟩ := compile_write (isPlain_tag hkey) rfl
  rw [write_tag] at hcompile
  obtain ⟨s, rest, hs, hrest, rfl⟩ := List.forall₂_cons_left_iff.mp hss
  cases hrest
  cases hs with
  | @output _ _ callee es hcallee hes =>
    obtain rfl := eq_nil_of_readAll hes
    exact ⟨callee, hcompile, hcallee⟩

lemma run_output {escapes : Bool} {call : Template.Call} {c v : Value} {t : String}
    (hv : Yields (outputValue
      (rootScope escapes (Program.mk [] [.output true call]).looksOut c) call) v)
    (ht : printed? escapes v = some t) : run escapes (.mk [] [.output true call]) c = .ok t := by
  obtain ⟨w, hw, hprint⟩ := added_of_printed ht
  have hstatement : Yields (statement (Render.invoke escapes depthLimit)
      (rootScope escapes (Program.mk [] [.output true call]).looksOut c)
      (.output true call)) (some w) := outputStatement_yields (output_yields hv hw)
  exact run_yields rfl (statements_single hstatement) hprint

lemma run_lookup {callee : Path} (hcallee : callee.Names [key]) (hkey : isIdentifier key = true)
    (hlooksUp : looksUp [key] = true) (label : Nat) {v : String}
    (hv : Record.get? key fields = some (.text v)) :
    run false (.mk [] [.output true (.mk callee [] [])]) (.record label fields) = .ok v := by
  let levels := (Program.mk [] [.output true (.mk callee [] [])]).looksOut
  have hsees := rootScope_sees false levels (.record label fields)
  have hpath : isPlainPath [key] = true := by simp [isPlainPath, hkey]
  have hlookup := lookup_strict_yields hsees hcallee hpath rfl (missing?_field hv)
  have hreached : reached (.record label fields) [key] = .text v := own_field hv
  rw [hreached, ← outputValue_lookup hsees hcallee hlooksUp] at hlookup
  exact run_output hlookup rfl

lemma run_bare_join {callee : Path} (hcallee : callee.Names ["join"]) (c : Value) :
    run false (.mk [] [.output true (.mk callee [] [])]) c = .ok "" := by
  let levels := (Program.mk [] [.output true (.mk callee [] [])]).looksOut
  have hsees := rootScope_sees false levels c
  obtain ⟨hsimple, hhead, hof⟩ :=
    isSimple_of_helper hcallee (show isHelperName "join" .join = true by decide)
  have hdeclared : declared? callee.head (rootScope false levels c).names = none :=
    declared?_eq_none hsees.names _
  have hkind : Call.kind (rootScope false levels c).names (.mk callee [] []) = .ambiguous := by
    have hreserved : callee.head ∉ Helper.reserved := by
      rw [hhead]
      decide
    simp [Call.kind, Call.callee, Call.isBare, hdeclared, hsimple, hreserved]
  have hjoin : Yields (Helper.join.call [] ⟨this (rootScope false levels c), [], [], none, none⟩)
      (.text "") :=
    (require_yields (by simp) [] "join").bind (yields_pure _)
  have hvalue : Yields (outputValue (rootScope false levels c) (.mk callee [] [])) (.text "") := by
    rw [outputValue, hkind]
    simp only [bareHelper?, Call.callee, hhead, hof]
    exact hjoin
  exact run_output hvalue rfl

end Template

namespace Formatter

structure ArePlain (data : Value) (template : String) (extra : Fields) : Prop where
  accepted : Options.Accepts data
  body : bodySlot data = ⟨some template, none, none⟩
  noSubject : asksForSubject data = false
  type : data.own "templateType" = .undefined ∨ data.own "templateType" = .text "plain"
  extra : ∃ label, data.own "extraContext" = .record label extra

variable {data options : Value} {template : String} {extra : Fields} {o : BuildOptions}

lemma typeOf_plain (ho : Options.IsReadFrom o data)
    (h : data.own "templateType" = .undefined ∨ data.own "templateType" = .text "plain") :
    typeOf o.general = .plain := by
  rw [← ho.type] at h
  rw [typeOf]
  cases htype : o.general.templateType with
  | none => rfl
  | some type =>
    cases type with
    | plain => rfl
    | html => simp [htype, optionValue, MessageType.name] at h

lemma make_plain (s : Store) (disk : Disk) (hook : Option Hook) {program : Program}
    (hsettings : settingsOf options = .ok data) (hdata : ArePlain data template extra)
    (hproto : Record.has "__proto__" extra = false) (hne : template ≠ "")
    (hcompile : compile template = .ok program) :
    ∃ want, (make s disk .build options hook).result = .ok ⟨.build,
      ⟨⟨s.next, .inline template, false, program⟩, none, .plain, extra⟩, want,
      hookOf options hook⟩ := by
  obtain ⟨o, ho, hread⟩ := Options.parseBuild_of_accepts hdata.accepted
  have htype := typeOf_plain hread hdata.type
  have hextra : o.general.extraContext = some extra := by
    obtain ⟨label, hlabel⟩ := hdata.extra
    exact hread.extra label extra hlabel hproto
  have hrequest : bodyRequest o.general (Kind.defaultFilename .build) =
      (⟨some template, none, none⟩ : Slot).request false := by
    rw [bodyRequest_isFrom hread, hdata.body, htype]
    rfl
  have hfound : (templatesOf s disk o.general (Kind.defaultFilename .build)).result =
      .ok (⟨s.next, .inline template, false, program⟩, none) := by
    rw [templatesOf, hasSubject_eq hread, hdata.noSubject, hrequest]
    simp [Store.resolvePair, Store.resolve, Slot.request, optionValue, Request.hasConflict,
      hne, Value.isTruthy, Store.resolveContent, Template.ofText, hcompile, Request.escapes,
      Request.mode, bind, Except.bind]
  refine ⟨o.want, ?_⟩
  rw [make, hsettings]
  simp only [makeWith, parseOptions, Kind.formatsBuilds, if_true, ho, hfound]
  rw [Except.map, ofTemplates, rendererOf, htype, hextra]
  rfl

lemma tagOf_ne_empty (key : String) : tagOf key ≠ "" := by
  intro h
  have hlist := congrArg String.toList h
  simp [tagOf] at hlist

lemma formatBuild_of_renders {f : Formatter} (hkind : f.kind = .build) {m : Message}
    (hrender : ∀ changed, f.renderer.render (.ofFields (f.renderer.merge (.ofFields changed))) =
      .ok m) (mode builder build master blamelist : Value) :
    (f.formatBuild mode builder build master blamelist).result =
      match buildContext mode builder build master blamelist with
      | .error e => .error e
      | .ok context => (match f.hook.run master context with
        | .error e => .error (surfaced e)
        | .ok _ => .ok m) := by
  have hstaging : f.kind ≠ .staging := by simp [hkind]
  rw [formatBuild]
  cases buildContext mode builder build master blamelist with
  | error e => rfl
  | ok context =>
    simp only [renderMessage, messageOf, prepare_eq hstaging]
    cases f.hook.run master context with
    | error e => exact report_error _ e
    | ok changed =>
      simp only [bind, Except.bind, hrender changed]
      rfl

theorem formatBuild_shows_extra (s : Store) (disk : Disk) {options data : Value}
    (hook : Option Hook) {key : String} (v : String) (hkey : isIdentifier key = true)
    (hlooksUp : looksUp [key] = true) (hproto : key ≠ "__proto__")
    (hsettings : settingsOf options = .ok data)
    (hdata : ArePlain data (tagOf key) [(key, .text v)]) :
    ∃ f, (make s disk .build options hook).result = .ok f ∧
      (∀ changed, f.renderer.render (.ofFields (f.renderer.merge (.ofFields changed))) =
        .ok ⟨v, .plain, none⟩) ∧
      ∀ mode builder build master blamelist,
        (f.formatBuild mode builder build master blamelist).result =
          match buildContext mode builder build master blamelist with
          | .error e => .error e
          | .ok context => (match (hookOf options hook).run master context with
            | .error e => .error (surfaced e)
            | .ok _ => .ok ⟨v, .plain, none⟩) := by
  have hhas : Record.has "__proto__" [(key, Value.text v)] = false := by
    simpa [Record.has] using hproto
  obtain ⟨callee, hcompile, hcallee⟩ := compile_tag hkey
  obtain ⟨want, hmake⟩ := make_plain s disk hook hsettings hdata hhas
    (tagOf_ne_empty key) hcompile
  refine ⟨_, hmake, ?_⟩
  have hrender (changed : Fields) : Renderer.render
      ⟨⟨s.next, .inline (tagOf key), false, .mk [] [.output true (.mk callee [] [])]⟩, none, .plain,
        [(key, .text v)]⟩ (.ofFields (Record.merge (Record.ofList changed) [(key, .text v)])) =
        .ok ⟨v, .plain, none⟩ := by
    have hget : Record.get? key (Record.merge (Record.ofList changed) [(key, .text v)]) =
        some (.text v) := by
      rw [Record.get?_merge]
      simp [Record.ofList, Record.merge, Record.get?_set]
    have hrun := run_lookup hcallee hkey hlooksUp
      (Value.fieldsBound (Record.merge (Record.ofList changed) [(key, .text v)])) hget
    rw [Renderer.render_eq_outcome, Renderer.outcome, Template.render, Value.ofFields, hrun]
  exact ⟨hrender, formatBuild_of_renders rfl hrender⟩

def optionsOf (key v : String) : Value :=
  .record 2 [("template", .text (tagOf key)), ("extraContext", .record 1 [(key, .text v)])]

lemma settingsOf_optionsOf (key v : String) :
    settingsOf (optionsOf key v) = .ok (optionsOf key v) := rfl

lemma optionsOf_arePlain (key v : String) :
    ArePlain (optionsOf key v) (tagOf key) [(key, .text v)] where
  accepted := (Options.faults_eq_nil_iff _).mp rfl
  body := rfl
  noSubject := rfl
  type := Or.inl rfl
  extra := ⟨1, rfl⟩

theorem formatBuild_shows_summary :
    isIdentifier "summary" = true ∧ looksUp ["summary"] = true ∧ "summary" ≠ "__proto__" ∧
      ∃ f, (make Store.empty ⟨"/", "/", []⟩ .build (optionsOf "summary" "custom")
          (some [.set "summary" (.text "of the hook"), .delete "mode"])).result = .ok f ∧
        (f.formatBuild (.list 1 []) (.text "b") sampleBuild sampleMaster (.list 1 [])).result =
          .ok ⟨"custom", .plain, none⟩ := by
  have hkey : isIdentifier "summary" = true := by decide
  have hlooksUp : looksUp ["summary"] = true := by decide
  have hproto : "summary" ≠ "__proto__" := by decide
  obtain ⟨f, hmake, -, hresult⟩ := formatBuild_shows_extra Store.empty ⟨"/", "/", []⟩
    (some [.set "summary" (.text "of the hook"), .delete "mode"]) "custom" hkey hlooksUp hproto
    (settingsOf_optionsOf "summary" "custom") (optionsOf_arePlain "summary" "custom")
  refine ⟨hkey, hlooksUp, hproto, f, hmake, ?_⟩
  rw [hresult]
  rfl

theorem formatBuild_shows_no_join :
    isIdentifier "join" = true ∧
      ArePlain (optionsOf "join" "v") (tagOf "join") [("join", .text "v")] ∧
      ∃ f, (make Store.empty ⟨"/", "/", []⟩ .build (optionsOf "join" "v") (some [])).result =
          .ok f ∧
        (f.formatBuild (.list 1 []) (.text "b") sampleBuild sampleMaster (.list 1 [])).result =
          .ok ⟨"", .plain, none⟩ := by
  have hkey : isIdentifier "join" = true := by decide
  obtain ⟨callee, hcompile, hcallee⟩ := compile_tag hkey
  obtain ⟨want, hmake⟩ := make_plain Store.empty ⟨"/", "/", []⟩ (some [])
    (settingsOf_optionsOf "join" "v") (optionsOf_arePlain "join" "v") rfl (tagOf_ne_empty "join")
    hcompile
  refine ⟨hkey, optionsOf_arePlain "join" "v", _, hmake, ?_⟩
  have hrender (changed : Fields) : Renderer.render
      ⟨⟨0, .inline (tagOf "join"), false, .mk [] [.output true (.mk callee [] [])]⟩, none, .plain,
        [("join", .text "v")]⟩
      (.ofFields (Record.merge (Record.ofList changed) [("join", .text "v")])) =
        .ok ⟨"", .plain, none⟩ := by
    rw [Renderer.render_eq_outcome, Renderer.outcome, Template.render, run_bare_join hcallee]
  rw [formatBuild_of_renders rfl hrender]
  rfl

end Formatter

end BuildNotice
