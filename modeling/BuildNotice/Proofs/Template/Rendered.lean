import BuildNotice.Proofs.Template.Denotation

namespace BuildNotice.Template

open Render Helper

section Levels

lemma Path.looksOut_of_isDotted {p : Path} (h : p.isDotted = true) (known : Bool) :
    p.looksOut known = false := by
  simp only [Path.isDotted, Bool.and_eq_true, beq_iff_eq] at h
  simp [Path.looksOut, h.1.2]

lemma Path.looksOut_of_isSimple {p : Path} (h : p.isSimple = true) (known : Bool) :
    p.looksOut known = false := by
  simp only [Path.isSimple, Bool.and_eq_true, beq_iff_eq] at h
  simp [Path.looksOut, h.2]

mutual

lemma Expr.looksOut_of_isRead : (e : Expr) → e.isRead = true → e.looksOut = false
  | .string s, _ => rfl
  | .number x, _ => rfl
  | .boolean b, _ => rfl
  | .undefined, _ => rfl
  | .null, _ => rfl
  | .path p, hp => p.looksOut_of_isDotted hp false
  | .group call, hcall => Call.looksOut_of_isRead call hcall true

lemma Call.looksOut_of_isRead : (call : Call) → call.isRead = true → (known : Bool) →
    call.looksOut known = false
  | .mk callee args pairs, hcall, known => by
    obtain ⟨_, helper, e, es, heq, hsimple, -, -, he, hes⟩ := Call.exists_of_isRead hcall
    cases heq
    have hrest : anyLooksOut es = false := anyLooksOut_of_areRead es hes
    simp [Call.looksOut, anyLooksOut, anyPairLooksOut, Path.looksOut_of_isSimple hsimple,
      Expr.looksOut_of_isRead e he, hrest]

lemma anyLooksOut_of_areRead : (es : List Expr) → areRead es = true → anyLooksOut es = false
  | [], _ => rfl
  | e :: es, hes => by
    obtain ⟨he, hes⟩ := Bool.and_eq_true_iff.mp hes
    rw [anyLooksOut, Expr.looksOut_of_isRead e he, anyLooksOut_of_areRead es hes]
    rfl

end

lemma exists_of_answering_output {escaped : Bool} {call : Call}
    (h : answering.output escaped call = true) :
    (∃ p, call = .mk p [] [] ∧ p.isDotted = true ∧ p.isValue = true) ∨ call.isRead = true := by
  have hfits : (call.isBare && call.callee.isDotted && call.callee.isValue || call.isRead) =
      true := h
  rw [Bool.or_eq_true] at hfits
  refine hfits.imp_left fun hbare => ?_
  obtain ⟨p, args, pairs⟩ := call
  simp only [Call.isBare, Bool.and_eq_true, List.isEmpty_iff] at hbare
  obtain ⟨⟨⟨rfl, rfl⟩, hdotted⟩, hvalue⟩ := hbare
  exact ⟨p, rfl, hdotted, hvalue⟩

mutual

lemma Statement.looksOut_of_fits : (s : Statement) → s.fits answering = true → s.looksOut = false
  | .content text, _ => rfl
  | .comment, h => absurd h Bool.false_ne_true
  | .decorator _ _, h => absurd h Bool.false_ne_true
  | .insertion _ _ _, h => absurd h Bool.false_ne_true
  | .output escaped call, h => by
    rw [Statement.looksOut]
    obtain ⟨p, rfl, hdotted, -⟩ | hread := exists_of_answering_output h
    · simp [Call.looksOut, anyLooksOut, anyPairLooksOut, Path.looksOut_of_isDotted hdotted]
    · exact Call.looksOut_of_isRead call hread false
  | .block call body other, h => by
    obtain ⟨hcall, hbody, hother⟩ := Statement.fits_block.mp h
    obtain ⟨callee, helper, e, rfl, hsimple, -, -, he⟩ := Call.exists_of_opensRead hcall
    rw [Statement.looksOut, bodyLooksOut_of_fits body hbody, bodyLooksOut_of_fits other hother]
    simp [Call.looksOut, anyLooksOut, anyPairLooksOut, Path.looksOut_of_isSimple hsimple,
      Expr.looksOut_of_isRead e he]

lemma bodyLooksOut_of_fits : (p : Option Program) → programFits? answering p = true →
    bodyLooksOut p = false
  | none, _ => rfl
  | some p, h => by
    rw [bodyLooksOut]
    exact Program.looksOut_of_fits p h

lemma Program.looksOut_of_fits : (p : Program) → p.fits answering = true → p.looksOut = false
  | .mk _ body, h => by
    rw [Program.looksOut]
    exact anyStatementLooksOut_of_fits body (Program.fits_mk.mp h).2

lemma anyStatementLooksOut_of_fits : (ss : List Statement) → statementsFit answering ss = true →
    anyStatementLooksOut ss = false
  | [], _ => rfl
  | s :: ss, h => by
    obtain ⟨hs, hss⟩ := statementsFit_cons.mp h
    rw [anyStatementLooksOut, Statement.looksOut_of_fits s hs, anyStatementLooksOut_of_fits ss hss]
    rfl

end

end Levels

section Blocks

variable {o : Helper.Options} {c v : Value} {body other : Value → Except Gap Value}
  {helper : Helper} {e : Expr} {ids : List Value}

lemma opened_eq (hblock : helper.isBlock = true) (v c : Value)
    (body other : Value → Except Gap Value) :
    opened helper v c body other = helper.shown v (here c) body other
      ((entries v).foldlM (fun sum e => body e.2.2 >>= fun w => told (sum.add? w)) (.text "")) := by
  cases helper with
  | each =>
    rw [opened, Helper.shown]
    cases entries v <;> rfl
  | «if» => rfl
  | «unless» => rfl
  | «with» => rfl
  | _ => exact absurd hblock Bool.false_ne_true

lemma blockName_eq (hblock : helper.isBlock = true) : blockName helper = helper.title := by
  cases helper with
  | lookup => exact absurd hblock Bool.false_ne_true
  | log => exact absurd hblock Bool.false_ne_true
  | join => exact absurd hblock Bool.false_ne_true
  | has => exact absurd hblock Bool.false_ne_true
  | property => exact absurd hblock Bool.false_ne_true
  | _ => rfl

lemma block_denotes (h : o.Runs (fun _ => True) Eq (here c) body other)
    (hblock : helper.isBlock = true) (hids : o.ids = e.known :: ids) (v : Value) :
    Comes Eq (helper.call [v] o) (do
      let v ← e.given helper v
      opened helper v c body other) := by
  have hrequire := require_denotes helper e ids v []
  rw [← hids] at hrequire
  have hadd (acc sum out w : Value) (hacc : acc = sum) (hout : out = w) :
      Comes Eq (ofOption (acc.add? out)) (told (sum.add? w)) := by
    rw [hacc, hout]
    exact comes_ofOption _
  rw [call_block hblock, blockName_eq hblock]
  refine hrequire.bind fun _ w hw => ?_
  obtain ⟨rfl, -⟩ := hw
  rw [opened_eq hblock]
  exact shows_comes h hblock trivial fun path _ =>
    eachFrom_comes h hadd path (fun _ _ => trivial) 0 rfl

end Blocks

section Statements

variable {invoke : Invoke} {sc : Scope} {c : Value} {ss : List Statement}

lemma adds_values : Adds Eq none addTo? where
  start := rfl
  zero_add := fun _ => rfl
  add := by
    rintro run v _ _ rfl rfl
    cases v with
    | none => cases run <;> exact comes_pure rfl
    | some v =>
      cases run with
      | none => exact comes_pure rfl
      | some r =>
        refine (comes_ofOption (r.add? v)).bind fun a b hab => ?_
        rw [hab]
        exact comes_pure rfl

lemma args_of_answering (call : Call) (h : answering.block call = true) :
    call.args ≠ [] ∧ call.hash = [] := by
  obtain ⟨callee, helper, e, rfl, -⟩ := Call.exists_of_opensRead h
  exact ⟨List.cons_ne_nil _ _, rfl⟩

lemma sumDenote_eq (escapes : Bool) (c : Value) (x : Option Value) (ss : List Statement) :
    sumDenote escapes c x ss = ss.foldlM (fun x s => s.denote escapes c >>= addTo? x) x := by
  induction ss generalizing x with
  | nil => rfl
  | cons s ss ih => simp only [sumDenote, List.foldlM_cons, bind_assoc, ih]

lemma output_denotes (h : sc.Reads c) {escaped : Bool} {call : Call}
    (hs : answering.output escaped call = true) :
    Comes Eq (statement invoke sc (.output escaped call))
      ((Statement.output escaped call).denote sc.escapes c) := by
  have hvalue : Comes Eq (outputValue sc call) (call.shown c) := by
    obtain ⟨p, rfl, hdotted, hvalue⟩ | hread := exists_of_answering_output hs
    · rw [outputValue_of_isValue h.names hvalue]
      exact lookup_denotes h hdotted true
    · obtain ⟨callee, helper, e, es, rfl, -⟩ := Call.exists_of_isRead hread
      rw [outputValue_args h.names (by simp)]
      exact call_denotes h _ hread
  rw [statement, output_eq, Statement.denote, bind_assoc]
  refine hvalue.bind fun v w hv => ?_
  obtain rfl := hv
  refine (comes_ofOption _).bind fun w x hw => ?_
  obtain rfl := hw
  exact comes_pure rfl

lemma this_eq_here (h : sc.Reads c) : this sc = here c := by
  rw [this, h.context, here]

lemma enterBody_reads (h : sc.Reads c) (v : Value) {body : List Statement}
    (hbody : statementsFit answering body = true) (args : Option BlockArgs) :
    ∃ inner, Yields (enterBody sc (.mk [] body) [] v args) inner ∧ inner.Reads v ∧
      inner.escapes = sc.escapes := by
  have haround : Yields (sc.around v) sc.outer := by
    rw [Scope.around, h.levels]
    exact yields_pure _
  refine ⟨_, haround.bind (yields_pure _), ⟨?_, rfl, ?_⟩, rfl⟩
  · simpa [Program.params] using h.names
  · exact Program.looksOut_of_fits (.mk [] body) (Program.fits_mk.mpr ⟨rfl, hbody⟩)

lemma block_shown (h : sc.Reads c) {callee : Path} {helper : Helper} {e : Expr}
    (hsimple : callee.isSimple = true) (hof : Helper.ofName? callee.head = some helper)
    (hblock : helper.isBlock = true) (he : e.isRead = true) {bodies : Render Bodies} {b : Bodies}
    (hb : Yields bodies b) {body other : Value → Except Gap Value}
    (hmeans : Helper.Options.Runs (fun _ => True) Eq
      ⟨this sc, [], [e.known], b.body, b.alternative⟩ (here c) body other) :
    Comes Eq (helperCall sc (.mk callee [e] []) bodies) (do
      let v ← e.denote c
      let v ← e.given helper v
      opened helper v c body other) := by
  have hargs : Comes (fun vs v => vs = [v]) (exprs sc [e]) (e.denote c) :=
    (expr_denotes h e he).of_action fun v w hv => ⟨[v], yields_pure _, by rw [hv]⟩
  refine helperCall_comes hof (by rw [hsimple, Bool.true_or]) (exprIds_known h.names [e]) hb hargs
    fun vs v hvs => ?_
  rw [hvs]
  exact block_denotes hmeans hblock rfl v

lemma denote_block {callee : Path} {helper : Helper} {e : Expr}
    (hof : Helper.ofName? callee.head = some helper) (body other : Option Program)
    (escapes : Bool) (c : Value) :
    (Statement.block (.mk callee [e] []) body other).denote escapes c = ((do
      let v ← e.denote c
      let v ← e.given helper v
      opened helper v c (fun c => bodyDenote escapes c body) (fun c => bodyDenote escapes c other))
        >>= fun w => .ok (some (if w.isNullish then .text "" else w))) := by
  rw [Statement.denote, hof]
  simp only [bind_assoc]

mutual

lemma statement_denotes {sc : Scope} {c : Value} (h : sc.Reads c) :
    (s : Statement) → s.fits answering = true →
    Comes Eq (statement invoke sc s) (s.denote sc.escapes c)
  | .content text, _ => by
    rw [statement, Statement.denote]
    exact comes_pure rfl
  | .comment, hs => absurd hs Bool.false_ne_true
  | .decorator _ _, hs => absurd hs Bool.false_ne_true
  | .insertion _ _ _, hs => absurd hs Bool.false_ne_true
  | .output _ _, hs => output_denotes h hs
  | .block call body other, hs => by
    obtain ⟨hcall, hbody, hother⟩ := Statement.fits_block.mp hs
    obtain ⟨callee, helper, e, rfl, hsimple, hof, hblock, he⟩ := Call.exists_of_opensRead hcall
    obtain ⟨f, hf, hfs⟩ := runner_denotes h body hbody
    obtain ⟨g, hg, hgs⟩ := runner_denotes h other hother
    have hbodies : Yields (do
        let b ← runner invoke sc body
        let a ← runner invoke sc other
        pure ⟨some b, some a⟩) (Bodies.mk (some f) (some g)) :=
      hf.bind (hg.bind (yields_pure _))
    -- whichever body the helper runs, and with whatever context, it comes to what it means there
    have hmeans : Helper.Options.Runs (fun _ => True) Eq ⟨this sc, [], [e.known], some f, some g⟩
        (here c) (fun v => bodyDenote sc.escapes v body) fun v => bodyDenote sc.escapes v other :=
      ⟨this_eq_here h, trivial, rfl, known_isPrintable e, fun v args _ => hfs v args,
        fun v args _ => hgs v args⟩
    rw [statement, kind_args h.names (by simp), denote_block hof]
    refine (block_shown h hsimple hof hblock he hbodies hmeans).bind fun v w hv => ?_
    obtain rfl := hv
    split <;> exact comes_pure rfl

lemma runner_denotes {sc : Scope} {c : Value} (h : sc.Reads c) :
    (p : Option Program) → programFits? answering p = true →
    ∃ f, Yields (runner invoke sc p) f ∧
      ∀ v args, Comes Eq (f v args) (bodyDenote sc.escapes v p)
  | none, _ => by
    refine ⟨fun _ _ => pure (.text ""), ?_, fun v args => ?_⟩
    · rw [runner]
      exact yields_pure _
    · rw [bodyDenote]
      exact comes_pure rfl
  | some (.mk params body), hp => by
    have hfits : (Program.mk params body).fits answering = true := hp
    obtain ⟨hparams, hbody⟩ := Program.fits_mk.mp hfits
    obtain rfl : params = [] := List.isEmpty_iff.mp hparams
    refine ⟨fun context args => do
      let inner ← enterBody sc (.mk [] body) [] context args
      statements invoke inner body, ?_, fun v args => ?_⟩
    · rw [runner]
      exact (declarations_yields _ (declares_of_fits hbody)).bind (yields_pure _)
    · obtain ⟨inner, henter, hinner, hescapes⟩ := enterBody_reads h v hbody args
      rw [bodyDenote, ← hescapes, sumDenote_eq]
      exact comes_of_yields_bind henter (statements_comes adds_values (fun h => by rw [h])
        (uninterrupted_of_fits args_of_answering hinner.names hbody) (each_denotes hinner body hbody))

lemma each_denotes {sc : Scope} {c : Value} (h : sc.Reads c) :
    (ss : List Statement) → statementsFit answering ss = true →
    ∀ s ∈ ss, Comes Eq (statement invoke sc s) (s.denote sc.escapes c)
  | [], _ => List.forall_mem_nil _
  | s :: rest, hss => by
    obtain ⟨hs, hrest⟩ := statementsFit_cons.mp hss
    exact List.forall_mem_cons.mpr ⟨statement_denotes h s hs, each_denotes h rest hrest⟩

end

end Statements

section Whole

variable {c : Value} {ss : List Statement}

lemma add?_print (v : Value) : (Value.text "").add? v = v.print?.map .text := by
  cases hprint : v.print? with
  | some s => simpa using Value.add?_text "" hprint
  | none =>
    have hcomposite : v.isComposite = true := by
      by_contra h
      have hsome := print?_isSome_of_not_composite (v := v) (by simpa using h)
      rw [hprint] at hsome
      exact Bool.false_ne_true hsome
    have hplain : v.plain? = none := by simp [Value.plain?, hcomposite, hprint]
    rw [Value.add?, hplain]
    rfl

lemma main_denotes (hss : statementsFit answering ss = true) (escapes : Bool) (c : Value) :
    Comes (fun v s => v = .text s) (main escapes (.mk [] ss) c)
      ((Program.mk [] ss).denote escapes c) := by
  have hlevels : (Program.mk [] ss).looksOut = false :=
    Program.looksOut_of_fits _ (Program.fits_mk.mpr ⟨rfl, hss⟩)
  have hreads : (rootScope escapes false c).Reads c := ⟨rfl, rfl, rfl⟩
  have hdeclarations := declarations_yields
    ⟨escapes, .undefined, [], [], [], [], none, false⟩ (declares_of_fits hss)
  rw [main, hlevels]
  refine comes_of_yields_bind hdeclarations ?_
  have hstatements : Comes Eq (statements (Render.invoke escapes depthLimit)
      (rootScope escapes false c) ss) (bodyDenote escapes c (some (.mk [] ss))) := by
    rw [bodyDenote, sumDenote_eq]
    exact statements_comes adds_values (fun h => by rw [h])
      (uninterrupted_of_fits args_of_answering hreads.names hss) (each_denotes hreads ss hss)
  rw [Program.denote]
  refine hstatements.bind fun v w hv => ?_
  obtain rfl := hv
  rw [add?_print, ofOption_map]
  exact (comes_ofOption _).of_action fun s t hst => ⟨_, yields_pure _, congrArg _ hst⟩

lemma render_eq_denote (hss : statementsFit answering ss = true) (serial : Nat) (source : Source)
    (escapes : Bool) (c : Value) :
    (Template.mk serial source escapes (.mk [] ss)).render c =
      ((Program.mk [] ss).denote escapes c).mapError (Gap.failure source) := by
  have hmain := main_denotes hss escapes c (initialState c) rfl
  rw [Template.render, Render.run]
  cases hmeaning : (Program.mk [] ss).denote escapes c with
  | ok s =>
    rw [hmeaning] at hmain
    obtain ⟨v, t, hrun, -, rfl⟩ := hmain
    rw [hrun]
    rfl
  | error gap =>
    rw [hmeaning] at hmain
    cases gap with
    | lacks key =>
      obtain ⟨e, hrun, hlacks, hkey⟩ := hmain _ rfl
      rw [hrun]
      exact congrArg Except.error (hlacks.renderFailure hkey source)
    | lacksArgument path =>
      obtain ⟨e, hrun, rfl⟩ := hmain _ rfl
      rw [hrun]
      rfl
    | noText =>
      obtain ⟨e, hrun, rfl⟩ := hmain _ rfl
      rw [hrun]
      rfl

/-- A template of this class renders what it stands for, in every context. A call whose first
argument is there tells of a later path only what is lost on the way: where just its end is not
there, the call stands for what it does without it. Releases of the template language differ in what
a field named `toHTML` does; nothing is said of contexts that have one. -/
theorem render_denotes {text : String} (htext : answering.accepts text = true) (serial : Nat)
    (source : Source) (escapes : Bool) :
    (∃ t, Template.ofText serial source escapes text = .ok t ∧
      ∀ c : Value, c.isWithout "toHTML" = true →
        t.render c = (t.program.denote escapes c).mapError (Gap.failure source)) ∧
    ∀ (c : Value) {callee p : Path} {helper : Helper} {e : Expr} {es : List Expr} {v : Value}
      {ws : List Value}, Helper.ofName? callee.head = some helper → e.denote c = .ok v →
      v ≠ .undefined → denoteAll c es = .ok ws →
      (∀ key after, lost? c p.parts = some key →
        (Call.mk callee (e :: (es ++ .path p :: after)) []).denote c = .error (.lacks key)) ∧
      (lost? c p.parts = none → reached c p.parts = .undefined →
        (Call.mk callee (e :: (es ++ [.path p])) []).denote c =
          (Call.mk callee (e :: es) []).denote c) := by
  obtain ⟨ss, hcompile, hss⟩ := compile_accepts htext
  refine ⟨⟨⟨serial, source, escapes, .mk [] ss⟩, by rw [Template.ofText, hcompile],
    fun c _ => render_eq_denote hss serial source escapes c⟩, ?_⟩
  intro c callee p helper e es v ws hof hv hne hes
  exact ⟨fun key after hlost => Call.denote_of_lost hof hv hne hes hlost after,
    Call.denote_of_undefined hof hv hne hes⟩

end Whole

def rosterText : String :=
  "\x7b\x7b#each teams\x7d\x7d\x7b\x7b#if (has this label)\x7d\x7d\x7b\x7bjoin names style.bar\x7d\x7d;" ++
    "\x7b\x7b/if\x7d\x7d\x7b\x7b/each\x7d\x7d"

def team (n : Nat) (names : List String) (rest : Value.Fields) : Value :=
  .record (n + 3) (("names", .list (n + 1) (names.map .text)) :: rest)

def roster (teams : List Value) : Value := .record 11 [("teams", .list 10 teams)]

def threeTeams : Value := roster
  [team 0 ["ann", "bo"] [("label", .text "names"), ("style", .record 2 [("bar", .text " | ")])],
    team 3 ["cy", "di"] [("label", .text "names"), ("style", .record 5 [])], team 6 ["ed"] []]

def plainTeam : Value := roster [team 0 ["ann"] [("label", .text "names")]]

def joinPath : Path := Path.ofName "join" ⟨1, 0⟩

def namesPath : Path := Path.ofName "names" ⟨1, 5⟩

def barPath : Path := ⟨false, 0, ["style", "bar"], "style.bar", ⟨1, 11⟩⟩

def barless : Value := team 3 ["cy", "di"] [("style", .record 5 [])]

theorem render_denotes_roster :
    (∃ t, Template.ofText 0 (.file "/mail.txt") false rosterText = .ok t ∧
      t.render threeTeams = .ok "ann | bo;cy, di;" ∧
      t.render plainTeam = .error (.fault (.undefinedKey (.text "bar")
        (Value.ofFields [("template", .text "file:/mail.txt")])))) ∧
    (Call.mk joinPath [.path namesPath, .path barPath] []).denote barless =
      (Call.mk joinPath [.path namesPath] []).denote barless ∧
    (Call.mk joinPath [.path namesPath, .path barPath] []).denote (team 0 ["ann"] []) =
      .error (.lacks "bar") := by
  obtain ⟨⟨t, ht, hrender⟩, hcall⟩ :=
    @render_denotes rosterText (by decide +kernel) 0 (.file "/mail.txt") false
  have hprogram : (Template.ofText 0 (.file "/mail.txt") false rosterText).toOption.map
      Template.program = some t.program := by
    rw [ht]
    rfl
  have hthree : t.program.denote false threeTeams = .ok "ann | bo;cy, di;" :=
    eq_ok_of_toOption (eq_of_map hprogram (f := fun p => (p.denote false threeTeams).toOption)
      (by decide +kernel))
  have hplain : t.program.denote false plainTeam = .error (.lacks "bar") :=
    eq_error_of_failure? (eq_of_map hprogram (f := fun p => failure? (p.denote false plainTeam))
      (by decide +kernel))
  have hjoin : Helper.ofName? joinPath.head = some .join := by decide
  refine ⟨⟨t, ht, ?_, ?_⟩, ?_, ?_⟩
  · rw [hrender threeTeams (by decide), hthree]
    rfl
  · rw [hrender plainTeam (by decide), hplain]
    rfl
  · exact (@hcall barless joinPath barPath .join (.path namesPath) []
      (.list 4 [.text "cy", .text "di"]) [] hjoin rfl (by simp) rfl).2 (by decide) rfl
  · exact (@hcall (team 0 ["ann"] []) joinPath barPath .join (.path namesPath) []
      (.list 1 [.text "ann"]) [] hjoin rfl (by simp) rfl).1 "bar" [] (by decide)

theorem render_joins_without_separator :
    ∃ t, Template.ofText 0 (.inline "\x7b\x7bjoin list sep\x7d\x7d") false
        "\x7b\x7bjoin list sep\x7d\x7d" = .ok t ∧
      reached (.record 2 [("list", .list 1 [.text "a", .text "b"])]) ["sep"] = .undefined ∧
      t.render (.record 2 [("list", .list 1 [.text "a", .text "b"])]) = .ok "a, b" := by
  have hfacts : (Template.ofText 0 (.inline "\x7b\x7bjoin list sep\x7d\x7d") false
      "\x7b\x7bjoin list sep\x7d\x7d").toOption.map (fun t =>
        (t.render (.record 2 [("list", .list 1 [.text "a", .text "b"])])).toOption) =
          some (some "a, b") := by
    decide +kernel
  obtain ⟨t, ht, hrender⟩ := Option.map_eq_some_iff.mp hfacts
  exact ⟨t, eq_ok_of_toOption ht, rfl, eq_ok_of_toOption hrender⟩

end BuildNotice.Template
