import BuildNotice.Proofs.Template.Following
import BuildNotice.Proofs.Template.Meaning
import BuildNotice.Renderer

namespace BuildNotice.Template

open Render Helper
open Value (Extension)

def Expr.isString : Expr → Bool
  | .string _ => true
  | _ => false

def Call.asks (helpers : List Helper) : Call → Bool
  | .mk callee (.path p :: rest) [] =>
    callee.isSimple && (Helper.ofName? callee.head).any helpers.contains && p.isKeyed &&
      rest.all Expr.isString
  | _ => false

def Expr.isAsked : Expr → Bool
  | .path p => p.isKeyed
  | .group c => c.asks [.has]
  | _ => false

def Call.opensAsked : Call → Bool
  | .mk callee [e] [] => (Helper.ofName? callee.head).any isBlock && e.isAsked
  | _ => false

def keyed : Grammar where
  char _ := true
  output _ call := call.isBare && call.callee.isKeyed || call.asks [.join, .has, .property]
  block call := call.opensAsked
  params names := names.isEmpty

lemma Call.exists_of_asks {helpers : List Helper} {call : Call} (h : call.asks helpers = true) :
    ∃ callee p rest helper, call = .mk callee (.path p :: rest) [] ∧ callee.isSimple = true ∧
      Helper.ofName? callee.head = some helper ∧ helper ∈ helpers ∧ p.isKeyed = true ∧
      rest.all Expr.isString = true := by
  unfold Call.asks at h
  split at h
  · next callee p rest =>
    simp only [Bool.and_eq_true, Option.any_eq_true] at h
    obtain ⟨⟨⟨hsimple, helper, hof, hmem⟩, hp⟩, hrest⟩ := h
    exact ⟨callee, p, rest, helper, rfl, hsimple, hof, by simpa using hmem, hp, hrest⟩
  · exact absurd h Bool.false_ne_true

lemma Call.exists_of_opensAsked {call : Call} (h : call.opensAsked = true) :
    ∃ callee e helper, call = .mk callee [e] [] ∧ Helper.ofName? callee.head = some helper ∧
      helper.isBlock = true ∧ e.isAsked = true := by
  unfold Call.opensAsked at h
  split at h
  · next callee e =>
    simp only [Bool.and_eq_true, Option.any_eq_true] at h
    obtain ⟨⟨helper, hof, hblock⟩, he⟩ := h
    exact ⟨callee, e, helper, rfl, hof, hblock, he⟩
  · exact absurd h Bool.false_ne_true

lemma requires_of_isBlock {helper : Helper} (h : helper.isBlock = true) :
    helper.requires = true := by
  cases helper with
  | lookup => exact absurd h Bool.false_ne_true
  | log => exact absurd h Bool.false_ne_true
  | _ => rfl

variable {x : Extension} {sc sc' : Scope}

section Calls

variable {callee p : Path} {helper : Helper} {e : Expr} {es : List Expr}

def ArgsPair (x : Extension) (args args' : List Value) : Prop :=
  ∃ v v' rest, args = v :: rest ∧ args' = v' :: rest ∧ x.Kept v v'

structure Render.Bodies.Pair (x : Extension) (b b' : Bodies) : Prop where
  body : RunsPair x b.body b'.body
  alternative : RunsPair x b.alternative b'.alternative

lemma bodies_none_pair (x : Extension) : Bodies.none.Pair x .none :=
  ⟨fun _ _ _ _ _ => follows_fail _, fun _ _ _ _ _ => follows_fail _⟩

lemma strings_yield (h : es.all Expr.isString = true) :
    ∃ vs, ∀ sc, Yields (exprs sc es) vs := by
  induction es with
  | nil => exact ⟨[], fun _ => yields_pure []⟩
  | cons e es ih =>
    rw [List.all_cons, Bool.and_eq_true] at h
    obtain ⟨vs, hvs⟩ := ih h.2
    cases e with
    | string s =>
      refine ⟨.text s :: vs, fun sc => ?_⟩
      rw [exprs]
      exact (yields_pure _).bind ((hvs sc).bind (yields_pure _))
    | _ => exact absurd h.1 Bool.false_ne_true

lemma exprs_follows (he : Follows x.Kept (expr sc e) (expr sc' e))
    (hes : es.all Expr.isString = true) :
    Follows (ArgsPair x) (exprs sc (e :: es)) (exprs sc' (e :: es)) := by
  obtain ⟨vs, hvs⟩ := strings_yield hes
  rw [exprs, exprs]
  refine he.bind fun v v' hv => ?_
  exact follows_of_yields ((hvs sc).bind (yields_pure _)) ((hvs sc').bind (yields_pure _))
    ⟨v, v', vs, rfl, rfl, hv⟩

lemma exprId_follows (h : sc.Pair x sc') (e : Expr) :
    Follows Eq (exprId sc e) (exprId sc' e) := by
  cases e with
  | path p =>
    rw [exprId, exprId, ← h.names, Path.declared?_eq_none h.undeclared]
    exact follows_pure rfl
  | _ => exact follows_pure rfl

lemma exprIds_follows (h : sc.Pair x sc') (es : List Expr) :
    Follows Eq (exprIds sc es) (exprIds sc' es) := by
  induction es with
  | nil => exact follows_pure rfl
  | cons e es ih =>
    exact (exprId_follows h e).bind_eq fun id => ih.bind_eq fun ids => follows_pure rfl

lemma this_pair (h : sc.Pair x sc') : x.Pair (this sc) (this sc') := by
  rw [this, this, ← h.context.isNullish]
  split
  · exact .same ⟨by simpa [Value.nothing, Value.avoids, Value.fieldsAvoid] using x.label_ne.symm,
      by simpa [Value.nothing, Value.avoids, Value.fieldsAvoid] using x.longLabel_ne.symm⟩
  · exact h.context

lemma applyHelper_follows {R : Value → Value → Prop} (h : sc.Pair x sc')
    (hof : Helper.ofName? callee.head = some helper)
    (hnamed : (callee.isSimple || Helper.reserved.contains callee.head) = true)
    {hash : Scope → Render Value.Fields} (hhash : ∀ sc, Yields (hash sc) [])
    (hargs : Follows (ArgsPair x) (exprs sc es) (exprs sc' es)) {bodies bodies' : Render Bodies}
    (hb : Follows (Bodies.Pair x) bodies bodies')
    (hcall : ∀ o o' v v' rest, o.Pair x o' → x.Kept v v' →
      Follows R (helper.call (v :: rest) o) (helper.call (v' :: rest) o')) :
    Follows R (applyHelper sc callee (exprs sc es) (hash sc) (exprIds sc es) bodies)
      (applyHelper sc' callee (exprs sc' es) (hash sc') (exprIds sc' es) bodies') := by
  simp only [applyHelper, hnamed, if_true, hof]
  refine hargs.bind fun args args' hargs => ?_
  obtain ⟨v, v', rest, rfl, rfl, hv⟩ := hargs
  have hhash' : Follows Eq (hash sc) (hash sc') := follows_of_yields (hhash sc) (hhash sc') rfl
  refine hhash'.bind_eq fun fields => hb.bind fun b b' hb => ?_
  refine (exprIds_follows h es).bind_eq fun ids => ?_
  exact hcall _ _ v v' rest ⟨this_pair h, rfl, rfl, hb.body, hb.alternative⟩ hv

lemma hash_yields (sc : Scope) : Yields (runHash (arrangeHash (hashActs sc []))) [] :=
  yields_pure []

lemma path_follows (h : sc.Pair x sc') (hp : p.isKeyed = true) :
    Follows x.Kept (expr sc (.path p)) (expr sc' (.path p)) := by
  rw [expr, expr]
  exact (lookup_follows h hp).1

lemma has_follows {o o' : Helper.Options} (h : o.Pair x o') {v v' : Value} (hv : x.Kept v v')
    (rest : List Value) :
    Follows x.Kept (Helper.has.call (v :: rest) o) (Helper.has.call (v' :: rest) o') := by
  obtain rfl | ⟨rfl, -⟩ := hv
  · exact follows_of_stops (call_undefined_stops rfl rest o).choose_spec
  · have hrequire := require_follows (v :: rest) o.ids "has"
    rw [Helper.call, Helper.call, ← h.ids]
    exact hrequire.bind_eq fun _ => follows_pure (Extension.kept_same ⟨rfl, rfl⟩)

lemma asked_follows (h : sc.Pair x sc') (he : e.isAsked = true) :
    Follows x.Kept (expr sc e) (expr sc' e) := by
  cases e with
  | path p => exact path_follows h he
  | group c =>
    obtain ⟨callee, p, rest, helper, rfl, hsimple, hof, hmem, hp, hrest⟩ := Call.exists_of_asks he
    obtain rfl := List.mem_singleton.mp hmem
    have hnot : ¬ (callee.isSimple = true ∧ (declared? callee.head sc.names).isSome = true) := by
      simp [declared?_eq_none h.undeclared]
    rw [expr, expr, group, group, ← h.names, if_neg hnot, if_neg hnot]
    exact applyHelper_follows h hof (by simp [hsimple]) hash_yields
      (exprs_follows (path_follows h hp) hrest) (follows_pure (bodies_none_pair x))
      fun o o' v v' rest ho hv => has_follows ho hv rest
  | _ => exact absurd he Bool.false_ne_true

lemma helperCall_follows (h : sc.Pair x sc') (hof : Helper.ofName? callee.head = some helper)
    (hnamed : (callee.isSimple || Helper.reserved.contains callee.head) = true)
    (hr : helper.requires = true) (he : Follows x.Kept (expr sc e) (expr sc' e))
    (hes : es.all Expr.isString = true) {bodies bodies' : Render Bodies}
    (hb : Follows (Bodies.Pair x) bodies bodies') :
    Follows Eq (helperCall sc (.mk callee (e :: es) []) bodies)
      (helperCall sc' (.mk callee (e :: es) []) bodies') :=
  applyHelper_follows h hof hnamed hash_yields (exprs_follows he hes) hb
    fun _ _ _ _ rest ho hv => call_follows ho hr hv rest

lemma reserved_of_kind {names : List (List String)}
    (hk : Call.kind names (.mk p [] []) = .helper) : Helper.reserved.contains p.head = true := by
  rw [Call.kind] at hk
  split at hk
  · exact absurd hk (by simp)
  · split at hk
    · next hbare => exact absurd hbare (by simp [Call.isBare])
    · split at hk
      · split at hk
        · next hr => exact hr
        · exact absurd hk (by simp)
      · exact absurd hk (by simp)

lemma bareCall_follows (b b' : Bodies) :
    Follows Eq (bareCall sc helper b) (bareCall sc' helper b') :=
  call_nil_follows helper _ _

lemma bareValue_follows (h : sc.Pair x sc') (hp : p.isKeyed = true) :
    Follows Eq (outputValue sc (.mk p [] [])) (outputValue sc' (.mk p [] [])) := by
  rw [outputValue, outputValue, ← h.names]
  cases hk : Call.kind sc.names (.mk p [] []) with
  | simple => exact (lookup_follows h hp).2
  | ambiguous =>
    cases hb : bareHelper? (.mk p [] []) with
    | none => exact (lookup_follows h hp).2
    | some helper => exact bareCall_follows _ _
  | helper =>
    have hr := reserved_of_kind hk
    simp only [helperCall, Call.callee, applyHelper, hr, Bool.or_true, if_true]
    cases hof : Helper.ofName? p.head with
    | none => exact follows_fail _
    | some helper => exact call_nil_follows helper _ _

lemma outputValue_follows (h : sc.Pair x sc') {escaped : Bool} {call : Call}
    (hc : keyed.output escaped call = true) :
    Follows Eq (outputValue sc call) (outputValue sc' call) := by
  have hfits : (call.isBare && call.callee.isKeyed ||
      call.asks [.join, .has, .property]) = true := hc
  rw [Bool.or_eq_true, Bool.and_eq_true] at hfits
  rcases hfits with ⟨hbare, hp⟩ | hasks
  · obtain ⟨p, args, pairs⟩ := call
    simp only [Call.isBare, Bool.and_eq_true, List.isEmpty_iff] at hbare
    obtain ⟨rfl, rfl⟩ := hbare
    exact bareValue_follows h hp
  · obtain ⟨callee, p, rest, helper, rfl, hsimple, hof, hmem, hp, hrest⟩ :=
      Call.exists_of_asks hasks
    have hr : helper.requires = true := by
      have hall : ∀ f ∈ [Helper.join, .has, .property], f.requires = true := by decide
      exact hall helper hmem
    have hkind : Call.kind sc.names (.mk callee (.path p :: rest) []) = .helper :=
      kind_args h.undeclared (by simp)
    rw [outputValue, outputValue, ← h.names, hkind]
    exact helperCall_follows h hof (by simp [hsimple]) hr (path_follows h hp) hrest
      (follows_pure (bodies_none_pair x))

lemma output_follows (h : sc.Pair x sc') {escaped : Bool} {call : Call}
    (hc : keyed.output escaped call = true) :
    Follows Eq (output sc escaped call) (output sc' escaped call) := by
  refine (outputValue_follows h hc).bind_eq fun v => ?_
  rw [← h.escapes]
  split
  · exact (follows_ofOption _).bind_eq fun text => follows_pure rfl
  · exact follows_pure rfl

end Calls

section Statements

variable {invoke : Invoke}

lemma enterBody_follows (h : sc.Pair x sc') {v v' : Value} (hv : x.Pair v v')
    (body : List Statement) (args args' : Option BlockArgs) :
    Follows (Scope.Pair x) (enterBody sc (.mk [] body) [] v args)
      (enterBody sc' (.mk [] body) [] v' args') := by
  refine (around_follows h hv).bind fun outer outer' ho => follows_pure ?_
  exact ⟨h.escapes, congrArg ([] :: ·) h.names, by simpa [Program.params] using h.undeclared, hv,
    ho, rfl⟩

mutual

lemma statement_follows {sc sc' : Scope} (h : sc.Pair x sc') :
    (s : Statement) → s.fits keyed = true →
    Follows Eq (statement invoke sc s) (statement invoke sc' s)
  | .content text, _ => by
    rw [statement, statement]
    exact follows_pure rfl
  | .comment, hs => absurd hs Bool.false_ne_true
  | .decorator _ _, hs => absurd hs Bool.false_ne_true
  | .insertion _ _ _, hs => absurd hs Bool.false_ne_true
  | .output escaped call, hs => by
    rw [statement, statement]
    exact (output_follows h hs).bind_eq fun v => follows_pure rfl
  | .block call body other, hs => by
    obtain ⟨hcall, hbody, hother⟩ := Statement.fits_block.mp hs
    obtain ⟨callee, e, helper, rfl, hof, hblock, he⟩ := Call.exists_of_opensAsked hcall
    have hbodies : Follows (Bodies.Pair x)
        (do
          let b ← runner invoke sc body
          let a ← runner invoke sc other
          pure ⟨some b, some a⟩)
        (do
          let b ← runner invoke sc' body
          let a ← runner invoke sc' other
          pure ⟨some b, some a⟩) :=
      (runner_follows h body hbody).bind fun b b' hb =>
        (runner_follows h other hother).bind fun a a' ha => follows_pure ⟨hb, ha⟩
    have hkind : Call.kind sc.names (.mk callee [e] []) = .helper :=
      kind_args h.undeclared (by simp)
    rw [statement, statement, ← h.names, hkind]
    refine (helperCall_follows h hof (by rw [reserved_of_isBlock hof hblock, Bool.or_true])
      (requires_of_isBlock hblock) (asked_follows h he) rfl hbodies).bind_eq fun v => ?_
    exact follows_pure rfl

lemma runner_follows {sc sc' : Scope} (h : sc.Pair x sc') :
    (p : Option Program) → programFits? keyed p = true →
    Follows (fun f f' => RunsPair x (some f) (some f')) (runner invoke sc p) (runner invoke sc' p)
  | none, _ => by
    rw [runner, runner]
    exact follows_pure fun _ _ _ _ _ => follows_pure rfl
  | some (.mk params body), hp => by
    have hfits : (Program.mk params body).fits keyed = true := hp
    obtain ⟨hparams, hbody⟩ := Program.fits_mk.mp hfits
    obtain rfl := List.isEmpty_iff.mp hparams
    rw [runner, runner]
    have hdeclared : Follows (fun d d' => d = [] ∧ d' = [])
        (declarations (declarationScope sc []) body)
        (declarations (declarationScope sc' []) body) :=
      follows_of_yields (declarations_yields _ (declares_of_fits hbody))
        (declarations_yields _ (declares_of_fits hbody)) ⟨rfl, rfl⟩
    refine hdeclared.bind fun d d' hd => follows_pure fun v v' args args' hv => ?_
    obtain ⟨rfl, rfl⟩ := hd
    exact (enterBody_follows h hv body args args').bind fun inner inner' hinner =>
      statements_follows hinner body hbody

lemma statements_follows {sc sc' : Scope} (h : sc.Pair x sc') :
    (ss : List Statement) → statementsFit keyed ss = true →
    Follows Eq (statements invoke sc ss) (statements invoke sc' ss)
  | [], _ => by
    rw [statements, statements]
    exact follows_pure rfl
  | s :: rest, hss => by
    obtain ⟨hs, hrest⟩ := statementsFit_cons.mp hss
    have hstatement : Follows Eq (statement invoke sc s) (statement invoke sc' s) :=
      statement_follows h s hs
    rw [statements, statements, ← h.names]
    split
    · exact hstatement.bind_eq fun added => follows_pure rfl
    · exact (step_follows _ _ _ hstatement).bind_eq fun sum => sumFrom_follows h rest hrest sum

lemma sumFrom_follows {sc sc' : Scope} (h : sc.Pair x sc') :
    (ss : List Statement) → statementsFit keyed ss = true → (sum : Sum) →
    Follows Eq (sumFrom invoke sc sum ss) (sumFrom invoke sc' sum ss)
  | [], _, sum => by
    rw [sumFrom, sumFrom]
    exact complete_follows sum
  | s :: rest, hss, sum => by
    obtain ⟨hs, hrest⟩ := statementsFit_cons.mp hss
    rw [sumFrom, sumFrom, ← h.names]
    exact (step_follows sum _ _ (statement_follows h s hs)).bind_eq fun sum =>
      sumFrom_follows h rest hrest sum

end

lemma main_follows (x : Extension) (escapes : Bool) {ss : List Statement}
    (hss : statementsFit keyed ss = true) :
    Follows Eq (main escapes (.mk [] ss) x.short) (main escapes (.mk [] ss) x.long) := by
  have hdeclared (sc : Scope) := declarations_yields sc (declares_of_fits hss)
  have hroot (declared : Partials) : Scope.Pair x
      ⟨escapes, x.short, [x.short], [], [], declared, none, (Program.mk [] ss).looksOut⟩
      ⟨escapes, x.long, [x.long], [], [], declared, none, (Program.mk [] ss).looksOut⟩ :=
    ⟨rfl, rfl, rfl, .ends, .cons .ends .nil, rfl⟩
  refine (follows_of_yields (hdeclared _) (hdeclared _) rfl).bind_eq fun declared => ?_
  exact (statements_follows (hroot declared) ss hss).bind_eq fun v => follows_ofOption _

lemma run_follows (x : Extension) (escapes : Bool) {ss : List Statement}
    (hss : statementsFit keyed ss = true) {out : String}
    (h : Render.run escapes (.mk [] ss) x.short = .ok out) :
    Render.run escapes (.mk [] ss) x.long = .ok out := by
  rw [Render.run] at h
  split at h
  · next s t hmain =>
    obtain rfl := Except.ok.inj h
    obtain ⟨_, t', hmain', -, rfl⟩ := main_follows x escapes hss (initialState x.short)
      (initialState x.long) _ _ rfl hmain
    rw [Render.run, hmain']
  · exact absurd h (by simp)
  · exact absurd h (by simp)

end Statements

/-- A template that only asks for what has to be there renders the same text when entries of other
names are laid over its context. -/
theorem render_merge {text : String} (htext : keyed.accepts text = true) (serial : Nat)
    (source : Source) (escapes : Bool) :
    ∃ t, Template.ofText serial source escapes text = .ok t ∧
      ∀ (r : Renderer) {label : Nat} {fields : Value.Fields}, Value.IsObject label fields →
        Value.Adds fields r.extra → ∀ out, t.render (.record label fields) = .ok out →
          t.render (.ofFields (r.merge (.record label fields))) = .ok out := by
  obtain ⟨ss, hcompile, hss⟩ := compile_accepts htext
  refine ⟨⟨serial, source, escapes, .mk [] ss⟩, by simp [Template.ofText, hcompile], ?_⟩
  intro r label fields hc hadds out hout
  rw [Template.render] at hout
  split at hout
  · next s hrun =>
    obtain rfl := Except.ok.inj hout
    have hlong := run_follows (Extension.ofMerge hc hadds) escapes hss hrun
    have hmerge : (Extension.ofMerge hc hadds).long =
        .ofFields (r.merge (.record label fields)) := rfl
    rw [Template.render, ← hmerge, hlong]
  · exact absurd hout (by simp)

def noticeText : String :=
  Written.write [
    .block "each" [.path ["people"]]
      [.output ["name"] [], .text " of ", .output ["../title"] [],
        .block "if" [.call "has" [.path ["info"], .string "new"]] [.text " (new)"] none,
        .text ": ", .output ["join"] [.path ["tags"], .string " | "], .text "\n"]
      (some [.text "nobody"])]

def noticeFields : Value.Fields :=
  [("title", .text "CI"), ("people", .list 2 [
    .record 3 [("name", .text "a"), ("info", .record 4 [("new", .bool true)]),
      ("tags", .list 5 [.text "s", .text "t"])],
    .record 6 [("name", .text "b"), ("info", .record 7 []), ("tags", .list 8 [])]])]

def noticeExtra : Value.Fields :=
  [("name", .text "c"), ("info", .record 2 [("new", .null)]), ("tags", .list 1 [.text "u"])]

theorem render_merge_shadowed :
    ∃ t, Template.ofText 0 (.inline noticeText) true noticeText = .ok t ∧
      t.render (.record 1 noticeFields) = .ok "a of CI (new): s | t\nb of CI: \n" ∧
      Value.IsObject 1 noticeFields ∧ Value.Adds noticeFields noticeExtra ∧
      t.render (.ofFields (Renderer.merge ⟨t, none, .plain, noticeExtra⟩
        (.record 1 noticeFields))) = .ok "a of CI (new): s | t\nb of CI: \n" := by
  obtain ⟨t, ht, hmerge⟩ :=
    @render_merge noticeText (by decide +kernel) 0 (.inline noticeText) true
  have hshown : (Template.ofText 0 (.inline noticeText) true noticeText).toOption.map
      (fun t => (t.render (.record 1 noticeFields)).toOption) =
        some (some "a of CI (new): s | t\nb of CI: \n") := by decide +kernel
  have hrender : t.render (.record 1 noticeFields) = .ok "a of CI (new): s | t\nb of CI: \n" := by
    rw [ht] at hshown
    exact eq_ok_of_toOption (Option.some.inj hshown)
  have hobject : Value.IsObject 1 noticeFields := ⟨by decide, by decide, by decide⟩
  have hadds : Value.Adds noticeFields noticeExtra := by decide
  exact ⟨t, ht, hrender, hobject, hadds, hmerge _ hobject hadds _ hrender⟩

end BuildNotice.Template
