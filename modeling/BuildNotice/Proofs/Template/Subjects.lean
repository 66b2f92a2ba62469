import BuildNotice.Proofs.Template.AddedEntries
import BuildNotice.Proofs.Template.Answers
import BuildNotice.Proofs.Template.Shapes

namespace BuildNotice.Template

open Render Helper Written

def Statement.isLiteral : Statement → Bool
  | .content _ => true
  | .comment => true
  | _ => false

def Program.isLiteral (p : Program) : Bool := p.body.all Statement.isLiteral

def Statement.isAsked : Statement → Bool
  | .block call body other =>
    call.isAbout Helper.isBlock && body.all Program.isLiteral && other.all Program.isLiteral
  | s => s.isAnswered

def Meets (t : Template) (c : Value) : Prop :=
  match t.program.body.findSome? (Statement.obstacle? c) with
  | some o => o.Ends t c
  | none => ∃ text, t.render c = .ok text

section Blocks

variable {o : Helper.Options} {c v : Value} {helper : Helper}

def StaysPrintable (o : Helper.Options) (c : Value) : Prop :=
  o.Runs (fun v => v.isPrintable = true) (fun v (_ : Unit) => v.isPrintable = true) c
    (fun _ => (.ok () : Except Halt Unit)) fun _ => .ok ()

lemma entries_printable (hv : v.isPrintable = true) : ∀ e ∈ entries v, e.2.2.isPrintable = true :=
  forall_entries (P := fun v => v.isPrintable = true)
    (by rintro _ _ rfl w hw; exact Value.isPrintable_of_mem hv hw)
    (by
      rintro _ _ rfl f hf
      exact Value.fieldsPrintable_iff.mp (Bool.and_eq_true_iff.mp hv).2 f hf)

lemma shown_const {α : Type} (helper : Helper) (v c : Value) (x : α) :
    helper.shown v c (fun _ => x) (fun _ => x) x = x := by
  cases helper <;> simp [Helper.shown]

lemma block_gives (h : StaysPrintable o c) (hblock : helper.isBlock = true) (hv : v ≠ .undefined)
    (hp : v.isPrintable = true) :
    Gives (fun v => v.isPrintable = true) (helper.call [v] o) := by
  have hadd (acc : Value) (_ : Unit) (out : Value) (_ : Unit) (hacc : acc.isPrintable = true)
      (hout : out.isPrintable = true) :
      Gives (fun v => v.isPrintable = true) (ofOption (acc.add? out)) := by
    obtain ⟨sum, hsum, hprintable⟩ := Value.exists_add hacc hout
    exact comes_of_yields (yields_ofOption hsum) hprintable
  have hitems (path : String) : Gives (fun v => v.isPrintable = true)
      (eachFrom o path (entries v) 0 (.text "")) := by
    have hfold : (entries v).foldlM (fun _ _ => (.ok () : Except Halt Unit)) () = .ok () :=
      List.foldlM_pure
    have heach : Comes (fun v (_ : Unit) => v.isPrintable = true)
        (eachFrom o path (entries v) 0 (.text ""))
        ((entries v).foldlM (fun _ _ => (.ok () : Except Halt Unit)) ()) :=
      eachFrom_comes h hadd path (entries_printable hp) 0 rfl
    rwa [hfold] at heach
  rw [call_block hblock]
  refine comes_of_yields_bind (require_yields (by simpa using hv) _ _) ?_
  have hshows := shows_comes h hblock hp fun path _ => hitems path
  rwa [shown_const] at hshows

end Blocks

section Statements

variable {invoke : Invoke} {sc : Scope} {c : Value} {s : Statement} {o : Obstacle}
  {ss : List Statement}

lemma literal_gives (invoke : Invoke) (sc : Scope) (h : ss.all Statement.isLiteral = true) :
    Gives (fun v => v.isPrintable = true) (statements invoke sc ss) := by
  rw [List.all_eq_true] at h
  apply statements_gives
  · rw [Uninterrupted, List.all_eq_true]
    intro s hs
    have hliteral := h s hs
    cases s with
    | block => exact absurd hliteral Bool.false_ne_true
    | _ => rfl
  · intro s hs
    have hliteral := h s hs
    cases s with
    | content t =>
      rw [statement]
      refine gives_pure ?_
      split
      · rintro _ ⟨⟩
      · rintro _ ⟨⟩
        rfl
    | comment =>
      rw [statement]
      refine gives_pure ?_
      rintro _ ⟨⟩
    | _ => exact absurd hliteral Bool.false_ne_true

lemma runner_gives (invoke : Invoke) (h : sc.Stands c) {q : Option Program}
    (hq : q.all Program.isLiteral = true) :
    ∃ f, Yields (runner invoke sc q) f ∧
      ∀ v args, v.isPrintable = true → Gives (fun v => v.isPrintable = true) (f v args) := by
  cases q with
  | none =>
    refine ⟨fun _ _ => pure (.text ""), ?_, fun v args _ => gives_pure rfl⟩
    rw [runner]
    exact yields_pure _
  | some p =>
    obtain ⟨params, body⟩ := p
    have hbody : body.all Statement.isLiteral = true := hq
    have hdeclares : body.all (fun s => !declares s) = true := by
      rw [List.all_eq_true] at hbody ⊢
      intro s hs
      have hliteral := hbody s hs
      cases s with
      | decorator => exact absurd hliteral Bool.false_ne_true
      | _ => rfl
    refine ⟨fun context args => do
      let inner ← enterBody sc (.mk params body) [] context args
      statements invoke inner body, ?_, fun v args hv => ?_⟩
    · rw [runner]
      exact (declarations_yields _ hdeclares).bind (yields_pure _)
    · obtain ⟨outer, houter, -⟩ := around_yields h hv
      obtain ⟨inner, hinner⟩ : ∃ inner,
          Yields (enterBody sc (.mk params body) [] v args) inner :=
        ⟨_, houter.bind (yields_pure _)⟩
      exact comes_of_yields_bind hinner (literal_gives invoke inner hbody)

lemma bodies_yield (invoke : Invoke) (h : sc.Stands c) (hc : c.isPrintable = true)
    (hnull : c.isNullish = false) {body other : Option Program}
    (hbody : body.all Program.isLiteral = true) (hother : other.all Program.isLiteral = true) :
    ∃ f g, Yields (do
        let b ← runner invoke sc body
        let a ← runner invoke sc other
        pure (Bodies.mk (some b) (some a))) (Bodies.mk (some f) (some g)) ∧
      ∀ path ids, StaysPrintable ⟨this sc, [], .text path :: ids, some f, some g⟩ c := by
  obtain ⟨f, hf, hfs⟩ := runner_gives invoke h hbody
  obtain ⟨g, hg, hgs⟩ := runner_gives invoke h hother
  refine ⟨f, g, hf.bind (hg.bind (yields_pure _)), fun path ids => ⟨?_, hc, rfl, rfl, hfs, hgs⟩⟩
  rw [this, h.context, if_neg (by simp [hnull])]

lemma Statement.exists_of_isAsked (h : s.isAsked = true) :
    s.isAnswered = true ∨ ∃ callee helper p more body other,
      s = .block (.mk callee (.path p :: more) []) body other ∧ helper.isBlock = true ∧
        Call.About callee helper p more ∧ body.all Program.isLiteral = true ∧
          other.all Program.isLiteral = true := by
  cases s with
  | block call body other =>
    obtain ⟨hcall, hother⟩ := Bool.and_eq_true_iff.mp h
    obtain ⟨hcall, hbody⟩ := Bool.and_eq_true_iff.mp hcall
    obtain ⟨callee, helper, p, more, rfl, hblock, habout⟩ := Call.exists_of_isAbout hcall
    exact .inr ⟨callee, helper, p, more, body, other, rfl, hblock, habout, hbody, hother⟩
  | _ => exact .inl h

lemma asked_gives (invoke : Invoke) (h : sc.Sees c) (hstands : sc.Stands c)
    (hc : c.isPrintable = true) (hnull : c.isNullish = false) (ha : s.isAsked = true)
    (ho : s.obstacle? c = none) : Gives IsPrintable (statement invoke sc s) := by
  obtain ha | ⟨callee, helper, p, more, body, other, rfl, hblock, habout, hbody, hother⟩ :=
    Statement.exists_of_isAsked ha
  · exact answered_gives invoke h hc ha ho
  · obtain ⟨hlost, hv, hmore⟩ := obstacle?_none ho
    obtain rfl := hmore rfl
    obtain ⟨hargs, ids, hids⟩ := habout.reads h hlost
    obtain ⟨f, g, hbodies, hruns⟩ := bodies_yield invoke hstands hc hnull hbody hother
    have hhash : Yields (hash sc []) [] := yields_pure []
    have hcall : Gives (fun v => v.isPrintable = true)
        (helper.call [reached c p.parts] ⟨this sc, [], .text p.written :: ids, some f, some g⟩) :=
      block_gives (hruns _ ids) hblock hv (reached_isPrintable hc p.parts)
    rw [statement, kind_args h.names (List.cons_ne_nil _ _)]
    simp only
    rw [habout.helperCall]
    refine (comes_of_yields_bind hargs (comes_of_yields_bind hhash (comes_of_yields_bind hbodies
      (comes_of_yields_bind hids hcall)))).after fun v hv => gives_pure ?_
    split
    · rintro _ ⟨⟩
      rfl
    · rintro _ ⟨⟩
      exact hv

lemma asked_stops (invoke : Invoke) (h : sc.Sees c) (hstands : sc.Stands c)
    (hc : c.isPrintable = true) (hnull : c.isNullish = false) (ha : s.isAsked = true)
    (ho : s.obstacle? c = some o) : ∃ e, Stops (statement invoke sc s) e ∧ o.Raises e := by
  obtain ha | ⟨callee, helper, p, more, body, other, rfl, hblock, habout, hbody, hother⟩ :=
    Statement.exists_of_isAsked ha
  · exact answered_stops h ha ho
  · -- The bodies are made before the helper is called, so they must be known not to fail.
    obtain ⟨f, g, hbodies, -⟩ := bodies_yield invoke hstands hc hnull hbody hother
    have ho' : obstacle? c helper.isBlock (.path p :: more) = some o := by
      rw [hblock]
      exact ho
    obtain ⟨e, he, hraises⟩ := habout.stops h (requires_of_isBlock hblock) hbodies ho'
    refine ⟨e, ?_, hraises⟩
    rw [statement, kind_args h.names (List.cons_ne_nil _ _)]
    exact he.bind

lemma uninterrupted_of_isAsked (hn : sc.names.all List.isEmpty = true)
    (ha : ss.all Statement.isAsked = true) : Uninterrupted sc ss := by
  rw [List.all_eq_true] at ha
  rw [Uninterrupted, List.all_eq_true]
  intro s hs
  obtain hanswered | ⟨callee, helper, p, more, body, other, rfl, -⟩ :=
    Statement.exists_of_isAsked (ha s hs)
  · cases s with
    | block => exact absurd hanswered Bool.false_ne_true
    | _ => rfl
  · rw [completes, kind_args hn (List.cons_ne_nil _ _)]
    rfl

lemma declares_of_isAsked (ha : ss.all Statement.isAsked = true) :
    ss.all (fun s => !declares s) = true := by
  rw [List.all_eq_true] at ha ⊢
  intro s hs
  have hasked := ha s hs
  cases s with
  | decorator => exact absurd hasked Bool.false_ne_true
  | _ => rfl

end Statements

lemma rootScope_stands {c : Value} (hc : c.isPrintable = true) (escapes levels : Bool) :
    (rootScope escapes levels c).Stands c := by
  refine ⟨rfl, rfl, fun v hv => ?_⟩
  obtain rfl := List.mem_singleton.mp hv
  exact hc

theorem render_meets {t : Template} (hasked : t.program.body.all Statement.isAsked = true)
    {label : Nat} {fields : Value.Fields} (hc : (Value.record label fields).isPrintable = true) :
    Meets t (.record label fields) := by
  let levels := (Program.mk [] t.program.body).looksOut
  have hsees := rootScope_sees t.escapes levels (.record label fields)
  have hstands := rootScope_stands hc t.escapes levels
  have hall := List.all_eq_true.mp hasked
  have huninterrupted := uninterrupted_of_isAsked hsees.names hasked
  have hdeclares := declares_of_isAsked hasked
  rw [Meets]
  split
  · next o ho =>
    obtain ⟨before, s, after, hbody, hso, hbefore⟩ := List.findSome?_eq_some_iff.mp ho
    obtain ⟨e, he, hraises⟩ := asked_stops _ hsees hstands hc rfl (hall s (by simp [hbody])) hso
    refine hraises.ends ?_
    rw [hbody] at hall huninterrupted hdeclares
    rw [run_body, hbody]
    refine run_fails hdeclares (by simp only [levels, hbody]) huninterrupted (fun z hz => ?_)
      (fails_of_stops he)
    exact asked_gives _ hsees hstands hc rfl (hall z (by simp [hz])) (hbefore z hz)
  · next ho =>
    rw [List.findSome?_eq_none_iff] at ho
    obtain ⟨text, hrun⟩ := run_gives hdeclares rfl huninterrupted fun s hs =>
      asked_gives _ hsees hstands hc rfl (hall s hs) (ho s hs)
    exact ⟨text, by rw [Template.render, run_body, hrun]⟩

def stepsText : String :=
  "\x7b\x7b#each build.steps\x7d\x7d*\x7b\x7b/each\x7d\x7d \x7b\x7bjoin build.names \"+\"\x7d\x7d"

def steps (build : Value) : Value := .record 4 [("build", build)]

theorem render_meets_steps :
    ∃ t, Template.ofText 0 (.file "/mail.txt") false stepsText = .ok t ∧
      (∃ text, t.render (steps (.record 2 [("steps", .list 1 []), ("names", .bool false)])) =
        .ok text) ∧
      t.render (steps .null) = .error (.fault (.undefinedKey (.text "steps")
        (Value.ofFields [("template", .text "file:/mail.txt")]))) ∧
      t.render (steps (.record 2 [("steps", .null)])) =
        .error (.fault (.undefinedKey (.text "build.names") .undefined)) := by
  let compiled := (Template.ofText 0 (.file "/mail.txt") false stepsText).toOption
  have hshape : compiled.map (fun t => (t.program.body.all Statement.isAsked, t.source.id)) =
      some (true, "file:/mail.txt") := by
    decide +kernel
  obtain ⟨t, ht, hshape⟩ := Option.map_eq_some_iff.mp hshape
  obtain ⟨hasked, hid⟩ := Prod.mk.inj hshape
  have hbody : compiled.map (fun t => t.program.body) = some t.program.body := congrArg _ ht
  have hmeets (build : Value) (h : (steps build).isPrintable = true) : Meets t (steps build) :=
    render_meets hasked h
  have hempty : t.program.body.findSome? (Statement.obstacle?
      (steps (.record 2 [("steps", .list 1 []), ("names", .bool false)]))) = none :=
    eq_of_map hbody (by decide +kernel)
  have hlost : t.program.body.findSome? (Statement.obstacle? (steps .null)) =
      some (.lacks "steps") := eq_of_map hbody (by decide +kernel)
  have hundefined : t.program.body.findSome? (Statement.obstacle?
      (steps (.record 2 [("steps", .null)]))) = some (.undefined "build.names") :=
    eq_of_map hbody (by decide +kernel)
  refine ⟨t, eq_ok_of_toOption ht, ?_, ?_, ?_⟩
  · have hshown := hmeets (.record 2 [("steps", .list 1 []), ("names", .bool false)]) (by decide)
    rwa [Meets, hempty] at hshown
  · have hends := hmeets .null (by decide)
    rw [Meets, hlost] at hends
    rw [← hid]
    exact hends
  · have hends := hmeets (.record 2 [("steps", .null)]) (by decide)
    rwa [Meets, hundefined] at hends

def surplusText : String := "\x7b\x7b#if a \"x\"\x7d\x7dyes\x7b\x7b/if\x7d\x7d"

theorem render_refuses_surplus :
    ∃ t, Template.ofText 0 (.inline surplusText) false surplusText = .ok t ∧
      reached (.record 1 [("a", .number 1)]) ["a"] = .number 1 ∧
      t.render (.record 1 [("a", .number 1)]) =
        .error (.error .plain "#if requires exactly one argument") := by
  have hfacts : (Template.ofText 0 (.inline surplusText) false surplusText).toOption.map (fun t =>
      failure? (run t.escapes t.program (.record 1 [("a", .number 1)]))) =
        some (some (.failure "#if requires exactly one argument")) := by
    decide +kernel
  obtain ⟨t, ht, hrun⟩ := Option.map_eq_some_iff.mp hfacts
  refine ⟨t, eq_ok_of_toOption ht, rfl, ?_⟩
  rw [Template.render, eq_error_of_failure? hrun]
  rfl

section Written

variable {s : Statement} {ss : List Statement} {n : Node} {ns : List Node} {ps : List Piece}
  {kind : Helper → Bool} {name : String} {args : List Term}

def Written.Term.isFlat : Term → Bool
  | .path _ => true
  | .string _ => true
  | .call _ _ => false

def Written.isAbout (kind : Helper → Bool) (name : String) : List Term → Bool
  | .path _ :: more => (Helper.ofName? name).any kind && more.all Term.isFlat
  | _ => false

def Written.Piece.isAsked : Piece → Bool
  | .text _ => true
  | .output [name] args => Written.isAbout Helper.answers name args
  | .output _ _ => false
  | .block name args body other =>
    Written.isAbout Helper.isBlock name args && body.all Piece.isText &&
      other.all fun ps => ps.all Piece.isText

lemma isHelperName_of_ofName? {helper : Helper} (h : Helper.ofName? name = some helper) :
    isHelperName name helper = true := by
  have htable : ∀ e ∈ Helper.table, isHelperName e.1 e.2 = true := by decide
  exact htable (name, helper) (Record.mem_of_get? h)

lemma flat_of_readAll {es : List Expr} (hargs : arePlain args = true)
    (hflat : args.all Term.isFlat = true) (hes : ReadAll args es) :
    es.all Expr.isFlat = true := by
  induction args generalizing es with
  | nil =>
    rw [eq_nil_of_readAll hes]
    rfl
  | cons t args ih =>
    obtain ⟨ht, harest⟩ := Bool.and_eq_true_iff.mp hargs
    obtain ⟨-, hrest⟩ := Bool.and_eq_true_iff.mp hflat
    match t, es, hes with
    | .path names, .path p :: es, hes =>
      have hp : p.Names names := hes.1
      exact Bool.and_eq_true_iff.mpr ⟨hp.isPlain ht, ih harest hrest hes.2⟩
    | .string _, .string _ :: es, hes =>
      have hes : es.all Expr.isFlat = true := ih harest hrest hes.2
      exact hes

lemma isAbout_of_readAll {callee : Path} {es : List Expr} (hargs : arePlain args = true)
    (h : Written.isAbout kind name args = true) (hcallee : callee.Names [name])
    (hes : ReadAll args es) : (Call.mk callee es []).isAbout kind = true := by
  unfold Written.isAbout at h
  split at h
  · next names more =>
    obtain ⟨hkind, hmore⟩ := Bool.and_eq_true_iff.mp h
    obtain ⟨helper, hof, hkind⟩ := (Option.any_eq_true _ _).mp hkind
    obtain ⟨hsimple, hhead, -⟩ := isSimple_of_helper hcallee (isHelperName_of_ofName? hof)
    match es, hes with
    | .path p :: es, hes =>
      have hp : p.Names names := hes.1
      obtain ⟨hnames, hargs⟩ := Bool.and_eq_true_iff.mp hargs
      simp [Call.isAbout, hsimple, hhead, hof, hkind, hp.isPlain hnames,
        flat_of_readAll hargs hmore hes.2]
  · exact absurd h Bool.false_ne_true

lemma isLiteral_bare (s : Statement) : s.bare.isLiteral = s.isLiteral := by
  cases s <;> rfl

lemma all_isLiteral_bare (ss : List Statement) :
    (bareStatements ss).all Statement.isLiteral = ss.all Statement.isLiteral := by
  induction ss with
  | nil => rfl
  | cons s ss ih => rw [bareStatements, List.all_cons, isLiteral_bare, ih, List.all_cons]

lemma isLiteral_bareProgram? (p : Option Program) :
    (bareProgram? p).all Program.isLiteral = p.all Program.isLiteral := by
  cases p with
  | none => rfl
  | some p =>
    obtain ⟨params, body⟩ := p
    exact all_isLiteral_bare body

lemma isAsked_bare (s : Statement) : s.bare.isAsked = s.isAsked := by
  cases s with
  | block call body other =>
    rw [Statement.bare, Statement.isAsked, isLiteral_bareProgram?, isLiteral_bareProgram?,
      Statement.isAsked]
  | _ => rfl

lemma all_isAsked_bare (ss : List Statement) :
    (bareStatements ss).all Statement.isAsked = ss.all Statement.isAsked := by
  induction ss with
  | nil => rfl
  | cons s ss ih => rw [bareStatements, List.all_cons, isAsked_bare, ih, List.all_cons]

lemma isLiteral_of_reads (ht : ps.all Piece.isText = true) (h : PiecesRead ps ns) :
    (Layout.toStatements (bareNodes ns)).all Statement.isLiteral = true := by
  induction ps generalizing ns with
  | nil =>
    obtain rfl := h.nil
    rfl
  | cons p ps ih =>
    obtain ⟨n, ns, rfl, hn, hns⟩ := h.cons
    obtain ⟨hp, hps⟩ := Bool.and_eq_true_iff.mp ht
    cases p with
    | text s =>
      obtain rfl := hn.of_text
      rw [bareNodes, Layout.toStatements, List.all_cons, ih hps hns]
      rfl
    | _ => exact absurd hp Bool.false_ne_true

lemma isLiteral_of_alternativeReads {alternative : Option (List Piece)} {other : Option Body}
    (ht : alternative.all (fun ps => ps.all Piece.isText) = true)
    (h : AlternativeReads alternative other) :
    (Layout.toProgram? (bareBody? other)).all Program.isLiteral = true := by
  match alternative, other, h with
  | none, none, _ => rfl
  | some ps, some (.mk params chained nodes), h => exact isLiteral_of_reads ht h.2.2

lemma asked_of_reads {p : Piece} (hplain : p.isPlain = true) (ha : p.isAsked = true)
    (h : p.Reads n) : (Layout.toStatement n.bare).isAsked = true := by
  match p, ha, h with
  | .text t, _, h =>
    obtain rfl := h.of_text
    rfl
  | .output [name] args, ha, h =>
    obtain ⟨callee, es, rfl, hcallee, hes⟩ := h.of_output
    exact isAbout_of_readAll (Bool.and_eq_true_iff.mp hplain).2 ha hcallee hes
  | .block name args body alternative, ha, h =>
    obtain ⟨callee, es, nodes, other, rfl, hcallee, hes, hbody, hother⟩ := h.exists_block
    simp only [Piece.isAsked, Bool.and_eq_true] at ha
    simp only [Piece.isPlain, Bool.and_eq_true] at hplain
    have hmain : (Layout.toProgram? (bareBody? (some (.mk [] false nodes)))).all
        Program.isLiteral = true := isLiteral_of_reads ha.1.2 hbody
    rw [Node.bare, Layout.toStatement, Statement.isAsked, hmain,
      isLiteral_of_alternativeReads ha.2 hother,
      isAbout_of_readAll hplain.1.1.2 ha.1.1 hcallee hes]
    rfl

lemma all_asked_of_reads (hplain : isPlain ps = true) (ha : ps.all Piece.isAsked = true)
    (h : PiecesRead ps ns) :
    (Layout.toStatements (bareNodes ns)).all Statement.isAsked = true := by
  induction ps generalizing ns with
  | nil =>
    obtain rfl := h.nil
    rfl
  | cons p ps ih =>
    obtain ⟨n, ns, rfl, hn, hns⟩ := h.cons
    obtain ⟨hp, hps⟩ := Bool.and_eq_true_iff.mp ha
    simp only [isPlain, Bool.and_eq_true] at hplain
    rw [bareNodes, Layout.toStatements, List.all_cons, asked_of_reads hplain.1.1 hp hn,
      ih hplain.2 hps hns]
    rfl

lemma check_of_isLiteral {p : Option Program} (h : p.all Program.isLiteral = true) :
    checkOption p = .ok () := by
  cases p with
  | none => rfl
  | some p =>
    obtain ⟨params, body⟩ := p
    have hbody : body.all Statement.isLiteral = true := h
    rw [checkOption, Program.check]
    clear h
    induction body with
    | nil => rfl
    | cons s body ih =>
      obtain ⟨hs, hbody⟩ := Bool.and_eq_true_iff.mp hbody
      rw [checkAll, ih hbody]
      cases s with
      | content t => rfl
      | comment => rfl
      | _ => exact absurd hs Bool.false_ne_true

lemma check_of_isAsked (h : s.isAsked = true) : s.check = .ok () := by
  obtain hanswered | ⟨callee, helper, p, more, body, other, rfl, -, -, hbody, hother⟩ :=
    Statement.exists_of_isAsked h
  · cases s with
    | content t => rfl
    | comment => rfl
    | output escaped call => rfl
    | _ => exact absurd hanswered Bool.false_ne_true
  · rw [Statement.check, check_of_isLiteral hbody, check_of_isLiteral hother]
    rfl

lemma checkAll_of_isAsked (h : ss.all Statement.isAsked = true) : checkAll ss = .ok () := by
  induction ss with
  | nil => rfl
  | cons s ss ih =>
    obtain ⟨hs, hss⟩ := Bool.and_eq_true_iff.mp h
    rw [checkAll, check_of_isAsked hs]
    exact ih hss

theorem compile_isAsked (hplain : isPlain ps = true) (ha : ps.all Piece.isAsked = true) :
    ∃ program, compile (write ps) = .ok program ∧
      program.body.all Statement.isAsked = true := by
  obtain ⟨ns, hparse, hreads⟩ := Parser.parse_write hplain
  obtain ⟨ss, hprogram⟩ : ∃ ss, Layout.program ns = .mk [] ss := ⟨_, rfl⟩
  have hbare := Layout.program_bare ns
  rw [hprogram] at hbare
  have hasked : ss.all Statement.isAsked = true := by
    rw [← all_isAsked_bare, (Program.mk.inj hbare).2]
    exact all_asked_of_reads hplain ha hreads
  refine ⟨.mk [] ss, ?_, hasked⟩
  simp [compile, hparse, hprogram, Program.check, checkAll_of_isAsked hasked, bind, Except.bind]

end Written

end BuildNotice.Template
