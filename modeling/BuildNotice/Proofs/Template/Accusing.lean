import BuildNotice.Proofs.Template.Causes
import BuildNotice.Proofs.Template.Meaning

namespace BuildNotice.Template

open Render Helper

section Terms

variable {src : Sources} {sc : Scope} {callee : Path} {args : List Expr}
  {pairs : List (String × Expr)} {call : Call}

lemma mem_subjects {helper : Helper} {e : Expr} {rest : List Expr}
    (hc : .group (.mk callee (e :: rest) pairs) ∈ src.terms)
    (hof : Helper.ofName? callee.head = some helper) (hr : helper.requires = true) :
    (helper, e) ∈ src.subjects :=
  List.mem_filterMap.mpr ⟨_, hc, by simp [Expr.subject?, hof, hr]⟩

lemma applyHelper_admits (hsc : sc.Within src) (hc : .group (.mk callee args pairs) ∈ src.terms)
    (hcallee : .path callee ∈ src.terms) {values : Render (List Value)}
    {fields : Render Value.Fields} {ids : Render (List Value)} {bodies : Render Bodies}
    (hvalues : src.Admits (fun vs => vs.length = args.length) values)
    (hfields : src.AdmitsAny fields) (hids : src.Admits (List.Forall₂ src.Knows args) ids)
    (hbodies : src.Admits (fun b => src.AdmitsRuns b.body ∧ src.AdmitsRuns b.alternative) bodies) :
    src.AdmitsAny (applyHelper sc callee values fields ids bodies) := by
  rw [applyHelper]
  split
  · next helper hnamed =>
    have hof : Helper.ofName? callee.head = some helper := by
      split at hnamed
      · exact hnamed
      · exact absurd hnamed (by simp)
    refine hvalues.bind fun vs hvs => hfields.bind fun hash _ => ?_
    refine hbodies.bind fun b hb => hids.bind fun known hknown => ?_
    -- What its helper lacks is its first argument, and what that is known by was read beside it.
    refine call_admits ⟨hb.1, hb.2⟩ (fun hr hundefined => ?_) fun hlookup hlength => ?_
    · cases args with
      | nil =>
        obtain rfl := List.length_eq_zero_iff.mp hvs
        exact absurd hundefined (by simp)
      | cons e rest =>
        cases hknown with
        | cons hid _ => exact .argument (mem_subjects hc hof hr) hid
    · subst hlookup
      exact .lookup hc hof (hvs ▸ hlength)
  · next hnamed =>
    have hnone (hsimple : callee.isSimple = true) : Helper.ofName? callee.head = none := by
      simpa [hsimple] using hnamed
    have hcall {nothing : String} (hn : nothing = "undefined" ∨ nothing = "null") :
        src.Causes (.memberOfNothing nothing "call") :=
      .lookup "call" ⟨rfl, hn⟩ (.inr (.call hc hnone))
    split
    · exact admits_fail (hcall (.inl rfl))
    · refine (lookup_admits hsc hcallee true).bind fun v _ => ?_
      split
      · exact admits_fail (hcall (nothingText_cases v))
      · refine hvalues.bind fun _ _ => hfields.bind fun _ _ => hbodies.bind fun _ _ => ?_
        exact admits_wrongKind

def Sources.AdmitsActs (src : Sources) (acts : List (String × Option (Render Value))) : Prop :=
  ∀ a ∈ acts, ∀ act, a.2 = some act → src.AdmitsAny act

lemma runHash_admits {acts : List (String × Option (Render Value))} (h : src.AdmitsActs acts) :
    src.AdmitsAny (runHash acts) := by
  induction acts with
  | nil => exact admits_pure trivial
  | cons a acts ih =>
    obtain ⟨key, act⟩ := a
    obtain ⟨ha, hacts⟩ := List.forall_mem_cons.mp h
    cases act with
    | none => exact ih hacts
    | some act => exact (ha act rfl).bind fun v _ => (ih hacts).bind fun vs _ => admits_pure trivial

lemma runHash_arrange_admits {acts : List (String × Option (Render Value))}
    (h : src.AdmitsActs acts) : src.AdmitsAny (runHash (arrangeHash acts)) := by
  have harranged : src.AdmitsActs (Record.merge [] acts.reverse) :=
    Record.forall_merge (P := fun a => ∀ act, a = some act → src.AdmitsAny act) (by simp)
      fun a ha => h a (List.mem_reverse.mp ha)
  exact runHash_admits harranged

mutual

lemma expr_admits (hsc : sc.Within src) : (e : Expr) → e.terms ⊆ src.terms →
    src.AdmitsAny (expr sc e)
  | .string _, _ => admits_pure trivial
  | .number _, _ => admits_pure trivial
  | .boolean _, _ => admits_pure trivial
  | .undefined, _ => admits_pure trivial
  | .null, _ => admits_pure trivial
  | .path p, h => lookup_admits hsc (h (by simp [Expr.terms])) false
  | .group c, h => by
    rw [Expr.terms, List.cons_subset] at h
    rw [expr]
    exact group_admits hsc c h.1 h.2

lemma exprs_admits (hsc : sc.Within src) : (es : List Expr) → argsTerms es ⊆ src.terms →
    src.Admits (fun vs => vs.length = es.length) (exprs sc es)
  | [], _ => admits_pure rfl
  | e :: es, h => by
    rw [argsTerms, List.append_subset] at h
    rw [exprs]
    refine (expr_admits hsc e h.1).bind fun v _ => (exprs_admits hsc es h.2).bind fun vs hvs => ?_
    exact admits_pure (congrArg (· + 1) hvs)

lemma hashActs_admits (hsc : sc.Within src) : (ps : List (String × Expr)) →
    hashTerms ps ⊆ src.terms → src.AdmitsActs (hashActs sc ps)
  | [], _ => by simp [hashActs, Sources.AdmitsActs]
  | p :: ps, h => by
    rw [hashTerms, List.append_subset] at h
    rw [hashActs, Sources.AdmitsActs, List.forall_mem_cons]
    exact ⟨hashAct_admits hsc p h.1, hashActs_admits hsc ps h.2⟩

lemma hashAct_admits (hsc : sc.Within src) : (p : String × Expr) → pairTerms p ⊆ src.terms →
    ∀ act, (hashAct sc p).2 = some act → src.AdmitsAny act
  | (key, e), h, act, hact => by
    rw [pairTerms] at h
    have he := expr_admits hsc e h
    cases e with
    | undefined => exact absurd hact (by simp [hashAct])
    | _ =>
      obtain rfl := Option.some.inj hact
      exact he

lemma group_admits (hsc : sc.Within src) : (c : Call) → .group c ∈ src.terms →
    c.terms ⊆ src.terms → src.AdmitsAny (group sc c)
  | .mk callee args pairs, hc, h => by
    rw [Call.terms, List.cons_subset, List.append_subset] at h
    rw [group]
    split
    · exact lookup_admits hsc h.1 true
    · exact applyHelper_admits hsc hc h.1 (exprs_admits hsc args h.2.1)
        (runHash_arrange_admits (hashActs_admits hsc pairs h.2.2)) (exprIds_admits hsc args)
        (admits_pure ⟨by rintro f ⟨⟩, by rintro f ⟨⟩⟩)

end

lemma hash_admits (hsc : sc.Within src) (h : hashTerms pairs ⊆ src.terms) :
    src.AdmitsAny (hash sc pairs) :=
  runHash_arrange_admits (hashActs_admits hsc pairs h)

lemma helperCall_admits (hsc : sc.Within src) (hc : .group call ∈ src.terms)
    (h : call.terms ⊆ src.terms) {bodies : Render Bodies}
    (hbodies : src.Admits (fun b => src.AdmitsRuns b.body ∧ src.AdmitsRuns b.alternative) bodies) :
    src.AdmitsAny (helperCall sc call bodies) := by
  obtain ⟨callee, args, pairs⟩ := call
  rw [Call.terms, List.cons_subset, List.append_subset] at h
  exact applyHelper_admits hsc hc h.1 (exprs_admits hsc args h.2.1) (hash_admits hsc h.2.2)
    (exprIds_admits hsc args) hbodies

lemma applies_of_kind {names : List (List String)} (h : call.kind names = .helper) :
    call.applies = true := by
  rw [Call.kind] at h
  rw [Call.applies]
  split at h
  · exact absurd h (by simp)
  · split at h
    · next hbare => simp [hbare]
    · split at h
      · next hsimple =>
        split at h
        · next hreserved =>
          rw [hsimple, hreserved]
          simp
        · exact absurd h (by simp)
      · exact absurd h (by simp)

lemma terms_of_tagTerms (h : call.tagTerms ⊆ src.terms) : call.terms ⊆ src.terms := by
  rw [Call.tagTerms] at h
  split at h
  · exact (List.cons_subset.mp h).2
  · exact h

lemma group_of_tagTerms (h : call.tagTerms ⊆ src.terms) (ha : call.applies = true) :
    .group call ∈ src.terms := by
  rw [Call.tagTerms, if_pos ha] at h
  exact (List.cons_subset.mp h).1

lemma callee_of_terms (h : call.terms ⊆ src.terms) : .path call.callee ∈ src.terms := by
  obtain ⟨callee, args, pairs⟩ := call
  rw [Call.terms] at h
  exact (List.cons_subset.mp h).1

lemma bareCall_admits {helper : Helper} {b : Bodies} (hlookup : helper ≠ .lookup)
    (hb : src.AdmitsRuns b.body ∧ src.AdmitsRuns b.alternative) :
    src.AdmitsAny (bareCall sc helper b) :=
  -- There is no first argument that could be undefined.
  call_admits ⟨hb.1, hb.2⟩ (fun _ h => absurd h (by simp)) fun h => absurd h hlookup

lemma ne_lookup_of_kind {names : List (List String)} {helper : Helper}
    (h : call.kind names = .ambiguous) (hb : bareHelper? call = some helper) :
    helper ≠ .lookup := by
  rintro rfl
  have hreserved : Helper.reserved.contains call.callee.head = true := by
    have htable : ∀ e ∈ Helper.table, e.2 = .lookup → Helper.reserved.contains e.1 = true := by
      decide
    exact htable (_, .lookup) (Record.mem_of_get? hb) rfl
  rw [Call.kind] at h
  split at h
  · exact absurd h (by simp)
  · split at h
    · exact absurd h (by simp)
    · split at h
      · exact absurd h (by simp)
      · exact absurd h (by simp)

lemma outputValue_admits (hsc : sc.Within src) (h : call.tagTerms ⊆ src.terms) :
    src.AdmitsAny (outputValue sc call) := by
  have hterms := terms_of_tagTerms h
  have hnone : src.AdmitsRuns Bodies.none.body ∧ src.AdmitsRuns Bodies.none.alternative :=
    ⟨by rintro f ⟨⟩, by rintro f ⟨⟩⟩
  rw [outputValue]
  split
  · next hkind =>
    exact helperCall_admits hsc (group_of_tagTerms h (applies_of_kind hkind)) hterms
      (admits_pure hnone)
  · exact lookup_admits hsc (callee_of_terms hterms) true
  · next hkind =>
    split
    · next helper hbare => exact bareCall_admits (ne_lookup_of_kind hkind hbare) hnone
    · exact lookup_admits hsc (callee_of_terms hterms) true

lemma output_admits (hsc : sc.Within src) (h : call.tagTerms ⊆ src.terms) (escaped : Bool) :
    src.AdmitsAny (output sc escaped call) := by
  refine (outputValue_admits hsc h).bind fun v _ => ?_
  split
  · exact (admits_ofOption fun _ _ => trivial).bind fun _ _ => admits_pure trivial
  · exact admits_pure trivial

end Terms

section Sums

variable {src : Sources} {sum : Sum} {act : Render (Option Value)}

lemma plus_admits (x : Option Value) (v : Value) : src.AdmitsAny (plus x v) := by
  cases x with
  | none => exact admits_pure trivial
  | some w => exact admits_ofOption fun _ _ => trivial

lemma add_admits (sum : Sum) (more : Bool) (v : Value) : src.AdmitsAny (sum.add more v) := by
  rw [Sum.add]
  split
  · split
    · exact (plus_admits _ v).bind fun _ _ => admits_pure trivial
    · exact (plus_admits _ v).bind fun _ _ => admits_pure trivial
  · exact (plus_admits _ v).bind fun _ _ => admits_pure trivial

lemma complete_admits (sum : Sum) : src.AdmitsAny sum.complete := by
  rw [Sum.complete]
  split
  · exact plus_admits _ _
  · exact admits_pure trivial
  · exact admits_pure trivial
  · exact admits_pure trivial

lemma step_admits (sum : Sum) (completing more : Bool) (h : src.AdmitsAny act) :
    src.AdmitsAny (sum.step completing more act) := by
  rw [Sum.step]
  split
  · refine (complete_admits sum).bind fun total _ => h.bind fun x _ => ?_
    cases x with
    | none => exact admits_pure trivial
    | some v => exact (plus_admits _ v).bind fun _ _ => admits_pure trivial
  · refine h.bind fun x _ => ?_
    cases x with
    | none => exact admits_pure trivial
    | some v => exact add_admits sum more v

end Sums

section Closures

variable {src : Sources} {sc : Scope}

lemma Sources.Holds.block {c : Closure} (h : src.Holds c) :
    ∀ b, c.block = some b → src.Holds b := by
  cases h with
  | mk _ _ _ hblock => exact hblock

lemma covers_program {params : List String} {body : List Statement}
    (h : src.Covers (Program.mk params body).sources) :
    params ∈ src.names ∧ src.Covers (statementsSources body) := by
  rw [Program.sources, Sources.covers_append] at h
  exact ⟨h.1.2 List.mem_cons_self, h.2⟩

lemma holdsAll_nil : src.HoldsAll [] := by
  rintro e ⟨⟩

lemma Sources.HoldsAll.merge {base later : Partials} (h : src.HoldsAll base)
    (hl : src.HoldsAll later) : src.HoldsAll (Record.merge base later) :=
  Record.forall_merge (P := fun x => ∀ c, x = some c → src.Holds c) h hl

lemma Sources.HoldsAll.get? {partials : Partials} (h : src.HoldsAll partials) (name : String) :
    ∀ c, (Record.get? name partials).join = some c → src.Holds c := by
  intro c hc
  exact h (name, some c) (Record.mem_of_get? (Option.join_eq_some_iff.mp hc)) c rfl

lemma Scope.Within.inner (h : sc.Within src) {params : List String} (hparams : params ∈ src.names)
    (v : Value) : Scope.Within { sc with context := v, names := params :: sc.names } src :=
  ⟨List.cons_subset.mpr ⟨hparams, h.names⟩, h.partials, h.block⟩

mutual

lemma declarations_admits {sc : Scope} (hsc : sc.Within src) : (ss : List Statement) →
    src.Covers (statementsSources ss) → src.Admits src.HoldsAll (declarations sc ss)
  | [], _ => admits_pure holdsAll_nil
  | s :: ss, h => by
    rw [statementsSources, Sources.covers_append] at h
    rw [declarations]
    refine (declaration_admits hsc s h.1).bind fun one hone => ?_
    exact (declarations_admits hsc ss h.2).bind fun more hmore => admits_pure (hone.merge hmore)

lemma declaration_admits {sc : Scope} (hsc : sc.Within src) : (s : Statement) →
    src.Covers s.sources → src.Admits src.HoldsAll (declaration sc s)
  | .decorator (.mk callee args pairs) body, h => by
    rw [Statement.sources, Sources.covers_append, Sources.covers_ofTerms, List.append_subset] at h
    rw [declaration]
    split
    · refine admits_failure (RenderError.missingKeyIn?_eq_none ?_)
      simp [RenderError.keyQuotes, Text.Search.after?]
    · refine (hash_admits hsc h.1.2).bind fun _ _ => ?_
      refine (declaredClosure_admits hsc body h.2).bind fun closure hclosure => ?_
      refine (exprs_admits hsc args h.1.1).bind fun values _ => ?_
      refine (exprIds_admits hsc args).bind fun _ _ => ?_
      refine (admits_ofOption fun _ _ => trivial).bind fun name _ => admits_pure ?_
      exact List.forall_mem_singleton.mpr hclosure
  | .content _, _ => admits_pure holdsAll_nil
  | .comment, _ => admits_pure holdsAll_nil
  | .output _ _, _ => admits_pure holdsAll_nil
  | .insertion _ _ _, _ => admits_pure holdsAll_nil
  | .block _ _ _, _ => admits_pure holdsAll_nil

lemma declaredClosure_admits {sc : Scope} (hsc : sc.Within src) : (p : Option Program) →
    src.Covers (bodySources p) →
    src.Admits (fun x => ∀ c, x = some c → src.Holds c) (declaredClosure sc p)
  | none, _ => admits_pure (by simp)
  | some (.mk params body), h => by
    obtain ⟨hparams, hbody⟩ := covers_program h
    rw [declaredClosure]
    refine (declarations_admits (hsc.inner hparams _) body hbody).bind fun declared hdeclared => ?_
    refine admits_pure ?_
    rintro c ⟨⟩
    exact .mk h hsc.names hdeclared hsc.block

end

def Render.Invoke.Within (invoke : Invoke) (src : Sources) : Prop :=
  ∀ c v args partials block, src.Holds c → src.HoldsAll partials →
    (∀ b, block = some b → src.Holds b) → src.AdmitsAny (invoke c v args partials block)

lemma make_admits (hsc : sc.Within src) {p : Program} (h : src.Covers p.sources) :
    src.Admits src.Holds (Closure.make sc p) := by
  obtain ⟨params, body⟩ := p
  obtain ⟨hparams, hbody⟩ := covers_program h
  refine (declarations_admits (hsc.inner hparams _) body hbody).bind fun declared hdeclared => ?_
  exact admits_pure (.mk h hsc.names hdeclared hsc.block)

lemma passedBlock_admits (hsc : sc.Within src) {p : Option Program}
    (h : src.Covers (bodySources p)) :
    src.Admits (fun x => ∀ c, x = some c → src.Holds c) (passedBlock sc p) := by
  cases p with
  | none => exact admits_pure (by simp)
  | some p =>
    refine (make_admits hsc h).bind fun c hc => admits_pure ?_
    rintro _ ⟨⟩
    exact hc

lemma enterBody_admits (hsc : sc.Within src) {p : Program} (hparams : p.params ∈ src.names)
    {declared : Partials} (hdeclared : src.HoldsAll declared) (v : Value)
    (args : Option BlockArgs) :
    src.Admits (fun inner => inner.Within src) (enterBody sc p declared v args) :=
  (around_admits sc v).bind fun _ _ => admits_pure
    ⟨List.cons_subset.mpr ⟨hparams, hsc.names⟩, hsc.partials.merge hdeclared, hsc.block⟩

lemma findPartial_admits (hsc : sc.Within src) {name : PartialName} (h : name.terms ⊆ src.terms) :
    src.Admits (fun found => ∀ c, found.2 = some c → src.Holds c) (findPartial sc name) := by
  cases name with
  | fixed name =>
    rw [findPartial]
    split
    · exact admits_pure hsc.block
    · exact admits_pure (hsc.partials.get? name)
  | computed c =>
    rw [PartialName.terms, List.cons_subset] at h
    rw [findPartial]
    refine (group_admits hsc c h.1 h.2).bind fun v _ => ?_
    dsimp only
    split
    · refine (admits_ofOption fun _ _ => trivial).bind fun name _ => ?_
      exact admits_pure (hsc.partials.get? name)
    · exact admits_pure (hsc.partials.get? "undefined")

lemma insertionContext_admits (hsc : sc.Within src) {args : List Expr}
    (h : argsTerms args ⊆ src.terms) : src.AdmitsAny (insertionContext sc args) := by
  cases args with
  | nil => exact admits_pure trivial
  | cons e args =>
    rw [argsTerms, List.append_subset] at h
    refine (expr_admits hsc e h.1).bind fun v _ => ?_
    exact (exprId_admits hsc e).bind fun id _ => admits_pure trivial

lemma indented_admits (indent : String) (v : Value) : src.AdmitsAny (indented indent v) := by
  unfold indented
  split
  · exact admits_pure trivial
  · split
    · exact admits_pure trivial
    · exact admits_wrongKind

lemma insertion_admits {invoke : Invoke} (hinvoke : invoke.Within src) (hsc : sc.Within src)
    {i : Insertion} (h : i.terms ⊆ src.terms) (indent : String) {block : Render (Option Closure)}
    (hblock : src.Admits (fun x => ∀ c, x = some c → src.Holds c) block) :
    src.AdmitsAny (insertion invoke sc i indent block) := by
  rw [Insertion.terms, List.append_subset, List.append_subset] at h
  rw [insertion]
  refine (findPartial_admits hsc h.1).bind fun found hfound => ?_
  obtain ⟨name, found⟩ := found
  refine (insertionContext_admits hsc h.2.1).bind fun known _ => ?_
  obtain ⟨context, id⟩ := known
  refine (hash_admits hsc h.2.2).bind fun fields _ => hblock.bind fun passed hpassed => ?_
  -- The two choices of an insertion: whether it has named arguments, and whether it has a block.
  have hcontext {rest : Value → Render Value} (hrest : ∀ v, src.AdmitsAny (rest v)) :
      src.AdmitsAny (if i.hash.isEmpty = true then pure context >>= rest
        else withHash context fields >>= rest) := by
    split
    · exact hrest context
    · have hmerged : src.AdmitsAny (withHash context fields) := fun _ => trivial
      exact hmerged.bind fun v _ => hrest v
  have hstart (isBlock : Bool) (v : Value) (args : Option BlockArgs) {c : Closure}
      (hc : src.Holds c) {own : Option Closure} (hown : ∀ b, own = some b → src.Holds b) :
      src.AdmitsAny (if isBlock = true then inFrame (invoke c v args sc.partials c.block)
        else invoke c v args sc.partials own) := by
    split
    · exact (hinvoke c v args _ _ hc hsc.partials hc.block).inFrame
    · exact hinvoke c v args _ _ hc hsc.partials hown
  refine hcontext fun v => ?_
  refine (admits_getData "contextPath").bind fun kept _ => ?_
  refine (admits_setData "contextPath" _).bind fun _ _ => ?_
  cases passed with
  | none =>
    cases found with
    | none =>
      refine Sources.Admits.bind (P := fun _ => True) (admits_failure ?_) fun out _ =>
        indented_admits indent out
      apply RenderError.missingKeyIn?_eq_none
      simp [RenderError.keyQuotes, Text.Search.after?]
    | some c =>
      exact (hstart _ v _ (hfound c rfl) hsc.block).bind fun out _ => indented_admits indent out
  | some b =>
    cases found with
    | none =>
      have hb := hpassed b rfl
      exact (hinvoke b v _ _ _ hb hsc.partials hb.block).inFrame.inFrame.bind fun out _ =>
        indented_admits indent out
    | some c =>
      exact (hstart _ v _ (hfound c rfl) hpassed).inFrame.bind fun out _ =>
        indented_admits indent out

end Closures

section Statements

variable {src : Sources} {invoke : Invoke}

mutual

lemma statement_admits (hinvoke : invoke.Within src) {sc : Scope} (hsc : sc.Within src) :
    (s : Statement) → src.Covers s.sources → src.AdmitsAny (statement invoke sc s)
  | .content _, _ => admits_pure trivial
  | .comment, _ => admits_pure trivial
  | .decorator _ _, _ => admits_pure trivial
  | .output escaped call, h => by
    rw [Statement.sources, Sources.covers_ofTerms] at h
    rw [statement]
    exact (output_admits hsc h escaped).bind fun _ _ => admits_pure trivial
  | .insertion i indent block, h => by
    rw [Statement.sources, Sources.covers_append, Sources.covers_ofTerms] at h
    rw [statement]
    refine (insertion_admits hinvoke hsc h.1 indent ?_).bind fun _ _ => admits_pure trivial
    exact passedBlock_admits hsc h.2
  | .block call body other, h => by
    rw [Statement.sources, Sources.covers_append, Sources.covers_append,
      Sources.covers_ofTerms] at h
    have hterms := terms_of_tagTerms h.1
    have hbodies : src.Admits (fun b => src.AdmitsRuns b.body ∧ src.AdmitsRuns b.alternative) (do
        let b ← runner invoke sc body
        let a ← runner invoke sc other
        pure (Bodies.mk (some b) (some a))) := by
      refine (runner_admits hinvoke hsc body h.2.1).bind fun f hf => ?_
      refine (runner_admits hinvoke hsc other h.2.2).bind fun g hg => admits_pure ⟨?_, ?_⟩
      · rintro _ ⟨⟩
        exact hf
      · rintro _ ⟨⟩
        exact hg
    have hlookup := lookup_admits hsc (callee_of_terms hterms) true
    rw [statement]
    split
    · next hkind =>
      refine (helperCall_admits hsc (group_of_tagTerms h.1 (applies_of_kind hkind)) hterms
        hbodies).bind fun _ _ => admits_pure trivial
    · refine hlookup.bind fun v _ => hbodies.bind fun b hb => ?_
      exact (sectionOf_admits ⟨hb.1, hb.2⟩ v _).bind fun _ _ => admits_pure trivial
    · next hkind =>
      split
      · next helper hbare =>
        refine hbodies.bind fun b hb => ?_
        exact (bareCall_admits (ne_lookup_of_kind hkind hbare) hb).bind fun _ _ =>
          admits_pure trivial
      · refine hlookup.bind fun v _ => hbodies.bind fun b hb => ?_
        exact (sectionOf_admits ⟨hb.1, hb.2⟩ v _).bind fun _ _ => admits_pure trivial

lemma runner_admits (hinvoke : invoke.Within src) {sc : Scope} (hsc : sc.Within src) :
    (p : Option Program) → src.Covers (bodySources p) →
    src.Admits (fun f => ∀ v args, src.AdmitsAny (f v args)) (runner invoke sc p)
  | none, _ => by
    rw [runner]
    exact admits_pure fun _ _ => admits_pure trivial
  | some (.mk params body), h => by
    obtain ⟨hparams, hbody⟩ := covers_program h
    rw [runner]
    refine (declarations_admits (hsc.inner hparams _) body hbody).bind fun declared hdeclared => ?_
    refine admits_pure fun v args => ?_
    refine (enterBody_admits (p := .mk params body) hsc hparams hdeclared v args).bind fun inner hinner => ?_
    exact statements_admits hinvoke hinner body hbody

lemma statements_admits (hinvoke : invoke.Within src) {sc : Scope} (hsc : sc.Within src) :
    (ss : List Statement) → src.Covers (statementsSources ss) →
    src.AdmitsAny (statements invoke sc ss)
  | [], _ => by
    rw [statements]
    exact admits_pure trivial
  | s :: ss, h => by
    rw [statementsSources, Sources.covers_append] at h
    have hs := statement_admits hinvoke hsc s h.1
    rw [statements]
    split
    · exact hs.bind fun _ _ => admits_pure trivial
    · exact (step_admits _ _ _ hs).bind fun sum _ => sumFrom_admits hinvoke hsc sum ss h.2

lemma sumFrom_admits (hinvoke : invoke.Within src) {sc : Scope} (hsc : sc.Within src) (sum : Sum) :
    (ss : List Statement) → src.Covers (statementsSources ss) →
    src.AdmitsAny (sumFrom invoke sc sum ss)
  | [], _ => by
    rw [sumFrom]
    exact complete_admits sum
  | s :: ss, h => by
    rw [statementsSources, Sources.covers_append] at h
    rw [sumFrom]
    exact (step_admits sum _ _ (statement_admits hinvoke hsc s h.1)).bind fun sum _ =>
      sumFrom_admits hinvoke hsc sum ss h.2

end

lemma invoke_within (src : Sources) (escapes : Bool) (fuel : Nat) :
    (Render.invoke escapes fuel).Within src := by
  -- The induction is on how deep insertions may still nest.
  induction fuel with
  | zero => exact fun _ _ _ _ _ _ _ _ => admits_fail (.other (by decide) (by simp))
  | succ fuel ih =>
    intro c v args partials block hc hpartials hblock
    cases hc with
    | @mk p names outer captured declared _ levels hp hnames hdeclared _ =>
      obtain ⟨params, body⟩ := p
      obtain ⟨hparams, hbody⟩ := covers_program hp
      have hsc : Scope.Within
          ⟨escapes, .undefined, outer, names, captured, partials, block, levels⟩ src :=
        ⟨hnames, hpartials, hblock⟩
      rw [Render.invoke]
      refine (enterBody_admits (p := .mk params body) hsc hparams hdeclared v args).bind fun inner hinner => ?_
      exact statements_admits ih hinner body hbody

lemma main_admits (escapes : Bool) (p : Program) (c : Value) :
    p.sources.AdmitsAny (main escapes p c) := by
  obtain ⟨params, body⟩ := p
  obtain ⟨-, hbody⟩ := covers_program (Sources.covers_refl (Program.mk params body).sources)
  have houtside : Scope.Within
      ⟨escapes, .undefined, [], [], [], [], none, (Program.mk params body).looksOut⟩
      (Program.mk params body).sources := ⟨List.nil_subset _, holdsAll_nil, by simp⟩
  rw [main]
  refine (declarations_admits houtside body hbody).bind fun declared hdeclared => ?_
  refine (statements_admits (invoke_within _ escapes depthLimit) ?_ body hbody).bind fun v _ => ?_
  · exact ⟨List.nil_subset _, hdeclared, by simp⟩
  · exact admits_ofOption fun _ _ => trivial

lemma causes_of_run {escapes : Bool} {p : Program} {c : Value} {e : RenderError}
    (h : Render.run escapes p c = .error e) : p.sources.Causes e := by
  have hmain := main_admits escapes p c (initialState c)
  rw [Render.run] at h
  split at h
  · exact absurd h (by simp)
  · obtain rfl := Except.error.inj h
    exact .other (by decide) (by simp)
  · next e' he =>
    obtain rfl := Except.error.inj h
    rwa [he] at hmain

end Statements

section Keys

variable {src : Sources} {key : String}

lemma Sources.Strays.isKey (h : src.Strays key) : RenderError.isKey key = true := by
  cases h with
  | lookup _ _ _ => decide
  | call _ _ => decide
  | paths _ => decide
  | argument _ _ => exact RenderError.isKey_toString _

lemma accuses_of_lacks {e : RenderError} {name : String} (hlacks : e.Lacks name)
    (hname : name ∈ src.segments ∨ src.Strays name) (hkey : e.missingKey? = some key) :
    key ∈ src.keys ∨ src.Misleads key := by
  obtain hname | hstray := hname
  · by_cases hempty : name = ""
    · subst hempty
      exact .inr (.empty hname)
    · obtain rfl | hcut := hlacks.eq_or_cuts hempty hkey
      · exact .inl (List.mem_append_left _ hname)
      · exact .inr (.cut hname hcut)
  · obtain rfl := Option.some.inj ((hlacks.missingKey? hstray.isKey).symm.trans hkey)
    exact .inr (.stray hstray)

lemma Sources.Knows.accuses {h : Helper} {e : Expr} {id : Value} (hid : src.Knows e id)
    (he : (h, e) ∈ src.subjects) :
    h.requiredKey id ∈ src.keys ∨ src.Tracks (h.requiredKey id) ∨
      src.Misleads (h.requiredKey id) := by
  have hmem : e.key h ∈ src.keys :=
    List.mem_append_right _ (List.mem_map.mpr ⟨(h, e), he, rfl⟩)
  cases hid with
  | path p =>
    by_cases hempty : pathId p.written = ""
    · exact .inr (.inr (.context he hempty (if_pos hempty)))
    · rw [requiredKey, if_neg hempty]
      exact .inl hmem
  | @declared p id hdeclares htail =>
    refine .inr (.inl ⟨h, p, he, hdeclares, htail.imp_right fun ⟨t, ht⟩ => ⟨t, ?_⟩⟩)
    rw [ht, requiredKey, if_neg (by simp)]
  | other hpath htext =>
    have hplace : h.requiredKey id = h.place := by
      cases id with
      | text s => exact absurd rfl (htext s)
      | _ => rfl
    have hkey : e.key h = h.place := by
      cases e with
      | path p => exact absurd rfl (hpath p)
      | _ => rfl
    rw [hplace, ← hkey]
    exact .inl hmem

end Keys

lemma plainFailure_ne_fault (e : RenderError) (f : Fault) : plainFailure e ≠ .fault f := by
  cases e <;> simp [plainFailure]

lemma exists_key_of_fault {source : Source} {e : RenderError} {f : Fault}
    (h : renderFailure source e = .fault f) (he : ∀ key, e ≠ .missingArgument key) :
    ∃ key, e.missingKey? = some key ∧
      f = .undefinedKey (.text key) (Value.ofFields [("template", .text source.id)]) := by
  unfold renderFailure at h
  split at h
  · exact absurd rfl (he _)
  · split at h
    · next key hkey => exact ⟨key, hkey, (Failure.fault.inj h).symm⟩
    · exact absurd h (plainFailure_ne_fault e f)

lemma exists_causes {t : Template} {c : Value} {f : Fault} (h : t.render c = .error (.fault f)) :
    ∃ e, t.program.sources.Causes e ∧ renderFailure t.source e = .fault f := by
  rw [Template.render] at h
  split at h
  · exact absurd h (by simp)
  · next e he => exact ⟨e, causes_of_run he, Except.error.inj h⟩

lemma Sources.Causes.accuses {src : Sources} {source : Source} {e : RenderError} {f : Fault}
    (h : src.Causes e) (hfault : renderFailure source e = .fault f) :
    ∃ key context, f = .undefinedKey (.text key) context ∧
      (key ∈ src.keys ∨ src.Tracks key ∨ src.Misleads key) := by
  cases h with
  | argument he hid => exact ⟨_, _, (Failure.fault.inj hfault).symm, hid.accuses he⟩
  | lookup name hlacks hname =>
    have hargument : ∀ key, e ≠ .missingArgument key := by
      rintro key rfl
      exact hlacks
    obtain ⟨key, hkey, rfl⟩ := exists_key_of_fault hfault hargument
    refine ⟨key, _, rfl, ?_⟩
    exact (accuses_of_lacks hlacks hname hkey).imp_right .inr
  | other hnone hargument =>
    obtain ⟨key, hkey, -⟩ := exists_key_of_fault hfault hargument
    exact absurd (hnone.symm.trans hkey) (by simp)

section Clear

def Expr.isHelped : Expr → Bool
  | .group (.mk callee args _) =>
    callee.isSimple && match Helper.ofName? callee.head with
      | some .lookup => args.length == 2
      | some _ => true
      | none => false
  | _ => true

def Expr.isNamed : Expr → Bool
  | .path p => pathId p.written != ""
  | _ => true

structure Sources.IsClear (src : Sources) : Prop where
  names : ∀ l ∈ src.names, l = []
  helped : ∀ e ∈ src.terms, e.isHelped = true
  named : ∀ s ∈ src.subjects, s.2.isNamed = true
  keys : ∀ name ∈ src.segments, RenderError.isKey name = true

variable {src : Sources} {key : String}

lemma Sources.IsClear.not_declares (h : src.IsClear) (name : String) : ¬ src.Declares name := by
  rintro ⟨l, hl, hname⟩
  rw [h.names l hl] at hname
  exact List.not_mem_nil hname

lemma Sources.IsClear.not_strays (h : src.IsClear) : ¬ src.Strays key := by
  intro hstray
  cases hstray with
  | lookup hc hof hlength =>
    have hhelped := h.helped _ hc
    simp [Expr.isHelped, hof, hlength] at hhelped
  | call hc hnone =>
    have hhelped := h.helped _ hc
    rw [Expr.isHelped, Bool.and_eq_true] at hhelped
    rw [hnone hhelped.1] at hhelped
    exact absurd hhelped.2 Bool.false_ne_true
  | paths hdeclares => exact h.not_declares _ hdeclares
  | argument hl hi =>
    rw [h.names _ hl] at hi
    exact absurd hi (by simp)

lemma Sources.IsClear.not_misleads (h : src.IsClear) : ¬ src.Misleads key := by
  rintro (hstray | ⟨hsubject, hempty, -⟩ | ⟨hname, hcut⟩ | hempty)
  · exact h.not_strays hstray
  · have hnamed := h.named _ hsubject
    simp [Expr.isNamed, hempty] at hnamed
  · exact RenderError.not_cuts_of_isKey (h.keys _ hname) hcut
  · exact absurd (h.keys "" hempty) (by decide)

theorem render_accuses_of_isClear {t : Template} (hclear : t.program.sources.IsClear) {c : Value}
    {f : Fault} (h : t.render c = .error (.fault f)) :
    ∃ key context, f = .undefinedKey (.text key) context ∧ key ∈ t.program.sources.keys := by
  obtain ⟨e, hcauses, hfault⟩ := exists_causes h
  obtain ⟨key, context, rfl, hkey | ⟨helper, p, -, hdeclares, -⟩ | hmisleads⟩ :=
    hcauses.accuses hfault
  · exact ⟨key, context, rfl, hkey⟩
  · exact absurd hdeclares (hclear.not_declares _)
  · exact absurd hmisleads hclear.not_misleads

end Clear

end BuildNotice.Template
