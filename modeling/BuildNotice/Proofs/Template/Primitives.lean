import BuildNotice.Proofs.Template.Classes
import BuildNotice.Proofs.Template.Subjects

/-! Names that are looked up in texts, numbers and truth values. -/

namespace BuildNotice.Template

open Render Helper Written

def isScalar : Value → Bool
  | .text _ => true
  | .number _ => true
  | .bool _ => true
  | _ => false

inductive Written.IsCallAbout (names : List String) (more : List Term) : Piece → Prop
  | tag {name : String} {helper : Helper} : Helper.ofName? name = some helper →
      helper.answers = true → IsCallAbout names more (.output [name] (.path names :: more))
  | block {name : String} {helper : Helper} {body : List Piece}
      {alternative : Option (List Piece)} : Helper.ofName? name = some helper →
      helper.isBlock = true →
      IsCallAbout names more (.block name (.path names :: more) body alternative)

def Written.Term.lost? (c : Value) : Term → Option String
  | .path names => Template.lost? c names
  | _ => none

section Lookups

variable {v c : Value} {names : List String} {key : String} {sc : Scope} {callee : Path}

lemma isNullish_of_isScalar (h : isScalar v = true) : v.isNullish = false := by
  cases v with
  | undefined => exact absurd h Bool.false_ne_true
  | null => exact absurd h Bool.false_ne_true
  | _ => rfl

lemma reached_append (v : Value) (names : List String) (key : String) :
    reached v (names ++ [key]) = (reached v names).own key := by
  rw [reached, List.foldl_append]
  rfl

lemma isNullish_of_reached (h : (reached v names).isNullish = false) : v.isNullish = false := by
  induction names generalizing v with
  | nil => exact h
  | cons name names ih => exact Value.isNullish_of_own name (ih h)

lemma lost?_append (h : (reached v names).isNullish = false) (key : String) :
    lost? v (names ++ [key]) = none := by
  induction names generalizing v with
  | nil =>
    have hv : v.isNullish = false := h
    simp [lost?, hv]
  | cons name names ih =>
    rw [List.cons_append, lost?, if_neg (by simp [isNullish_of_reached h])]
    exact ih h

lemma index?_of_isIdentifier (h : isIdentifier key = true) : Record.index? key = none := by
  have hplain := isPlainName_of_isIdentifier h
  rw [Lexer.isPlainName] at hplain
  split at hplain
  · exact absurd hplain Bool.false_ne_true
  · next d ds hkey =>
    simp only [Bool.and_eq_true, Bool.not_eq_true'] at hplain
    have hdigit : d.isDigit = false := hplain.1.1.2
    have hcanonical : Record.isCanonical (d :: ds) = false := by
      have hzero : d ≠ '0' := by
        rintro rfl
        exact absurd hdigit (by decide)
      unfold Record.isCanonical
      split
      · rfl
      · next heq => exact absurd (List.cons.inj heq).1 hzero
      · rfl
      · simp [hdigit]
    rw [Record.index?, hkey, if_neg (by simp [hcanonical])]

lemma own?_isSome (h : isScalar v = true) (hkey : isIdentifier key = true) :
    (v.own? key).isSome = (v.isText && key == "length") := by
  cases v with
  | text s =>
    rw [Value.own?, index?_of_isIdentifier hkey]
    by_cases hlength : key = "length"
    · simp [hlength, Value.isText]
    · simp [hlength, Value.isText]
  | number x => rfl
  | bool b => rfl
  | _ => exact absurd h Bool.false_ne_true

lemma own_ne_undefined (h : isScalar v = true) (hown : (v.own? key).isSome = true) :
    v.own key ≠ .undefined := by
  obtain ⟨w, hw⟩ := Option.isSome_iff_exists.mp hown
  rw [Value.own, hw]
  rintro rfl
  cases v with
  | text s =>
    rw [Value.own?] at hw
    split at hw
    · exact absurd hw (by simp)
    · obtain ⟨i, -, hi⟩ := Option.bind_eq_some_iff.mp hw
      obtain ⟨c, -, hc⟩ := Option.map_eq_some_iff.mp hi
      exact Value.noConfusion hc
  | number x => exact absurd hw (by simp [Value.own?])
  | bool b => exact absurd hw (by simp [Value.own?])
  | _ => exact absurd h Bool.false_ne_true

lemma knownMembers_append (h : (reached v names).isNullish = false) {position : Position}
    {e : RenderError} (he : Stops (knownMember (reached v names) key position) e) :
    Stops (knownMembers v position (names ++ [key])) e := by
  induction names generalizing v with
  | nil => exact he
  | cons name names ih =>
    obtain ⟨next, rest, hrest⟩ : ∃ next rest, names ++ [key] = next :: rest := by
      cases names with
      | nil => exact ⟨key, [], rfl⟩
      | cons next rest => exact ⟨next, rest ++ [key], rfl⟩
    have htail := ih h he
    rw [hrest] at htail
    rw [List.cons_append, hrest]
    exact (member_yields (isNullish_of_reached h) name).bind_stops htail

lemma knownMember_scalar (h : isScalar v = true) (key : String) (position : Position) :
    ∃ e, Stops (knownMember v key position) e ∧ e.Lacks key := by
  have hprintable : v.isPrintable = true := by
    cases v <;> first | rfl | exact absurd h Bool.false_ne_true
  have hcomposite : ¬ (v.isComposite && v.knows key) = true := by
    cases v <;> first | exact Bool.false_ne_true | exact absurd h Bool.false_ne_true
  exact knownMember_stops hprintable hcomposite position

lemma isPlainPath_left (hne : names ≠ []) (h : isPlainPath (names ++ [key]) = true) :
    isPlainPath names = true := by
  simp only [isPlainPath, List.all_append, Bool.and_eq_true, Bool.not_eq_true',
    List.isEmpty_eq_false_iff] at h ⊢
  exact ⟨hne, h.2.1⟩

lemma output_stops (invoke : Invoke) (h : sc.Sees c) (hp : callee.Names (names ++ [key]))
    (hn : isPlainPath names = true) (hreached : (reached c names).isNullish = false)
    {e : RenderError} (he : Stops (knownMember (reached c names) key callee.position) e) :
    Stops (statement invoke sc (.output true (.mk callee [] []))) e := by
  obtain ⟨name, rest, rfl⟩ : ∃ name rest, names = name :: rest := by
    cases names with
    | nil => exact absurd hn Bool.false_ne_true
    | cons name rest => exact ⟨name, rest, rfl⟩
  have hhead : callee.head ≠ "" := Path.head_ne hp.parts (isPlainPath_cons hn).1
  have hlooksUp : looksUp (name :: rest ++ [key]) = true := by cases rest <;> rfl
  apply outputStatement_stops
  rw [outputValue_lookup h hp hlooksUp, Scope.lookup, h.declared?_path]
  simp only [hhead, if_false, if_true, hp.parts]
  exact (base_yields h hp).bind_stops (knownMembers_append hreached he)

lemma output_scalar_stops (invoke : Invoke) (h : sc.Sees c) (hp : callee.Names (names ++ [key]))
    (hn : isPlainPath names = true) (hscalar : isScalar (reached c names) = true) :
    ∃ e, Stops (statement invoke sc (.output true (.mk callee [] []))) e ∧ e.Lacks key := by
  obtain ⟨e, he, hlacks⟩ := knownMember_scalar hscalar key callee.position
  exact ⟨e, output_stops invoke h hp hn (isNullish_of_isScalar hscalar) he, hlacks⟩

end Lookups

section Calls

variable {c : Value} {helper : Helper} {callee q : Path} {more : List Term} {es : List Expr}
  {s : Statement} {t : Template} {e : RenderError}

def Program.declaresNothing (p : Program) : Bool := p.body.all fun s => !declares s

inductive Statement.Calls (helper : Helper) (call : Call) : Statement → Prop
  | tag {escaped : Bool} : helper.answers = true → Calls helper call (.output escaped call)
  | block {body other : Option Program} : helper.isBlock = true →
      body.all Program.declaresNothing = true → other.all Program.declaresNothing = true →
      Calls helper call (.block call body other)

lemma runner_made (invoke : Invoke) (sc : Scope) {p : Option Program}
    (hp : p.all Program.declaresNothing = true) : ∃ f, Yields (runner invoke sc p) f := by
  cases p with
  | none => exact ⟨_, yields_pure _⟩
  | some p =>
    obtain ⟨params, body⟩ := p
    exact ⟨_, (declarations_yields _ hp).bind (yields_pure _)⟩

lemma Statement.Calls.stops {sc : Scope} {obstacle : Obstacle} (invoke : Invoke) (hsees : sc.Sees c)
    (habout : Call.About callee helper q es)
    (h : s.Calls helper (.mk callee (.path q :: es) []))
    (ho : Template.obstacle? c helper.isBlock (.path q :: es) = some obstacle) :
    ∃ e, Stops (statement invoke sc s) e ∧ obstacle.Raises e := by
  cases h with
  | tag hanswers =>
    obtain ⟨e, he, hraises⟩ :=
      habout.stops hsees (requires_of_answers hanswers) (yields_pure Bodies.none) ho
    refine ⟨e, outputStatement_stops ?_, hraises⟩
    rw [outputValue_args hsees.names (List.cons_ne_nil _ _)]
    exact he
  | @block body other hblock hbody hother =>
    -- The bodies are made before the helper is called, but only the helper would run them.
    obtain ⟨f, hf⟩ := runner_made invoke sc hbody
    obtain ⟨g, hg⟩ := runner_made invoke sc hother
    have hbodies : Yields (do
        let b ← runner invoke sc body
        let a ← runner invoke sc other
        pure (Bodies.mk (some b) (some a))) (Bodies.mk (some f) (some g)) :=
      hf.bind (hg.bind (yields_pure _))
    obtain ⟨e, he, hraises⟩ := habout.stops hsees (requires_of_isBlock hblock) hbodies ho
    refine ⟨e, ?_, hraises⟩
    rw [statement, kind_args hsees.names (List.cons_ne_nil _ _)]
    exact he.bind

lemma Statement.Calls.quiet (h : s.Calls helper (.mk callee (.path q :: es) [])) :
    declares s = false ∧ completes [] s = false := by
  cases h with
  | tag hanswers => exact ⟨rfl, rfl⟩
  | block hblock hbody hother =>
    have hkind : Call.kind [] (.mk callee (.path q :: es) []) ≠ .ambiguous :=
      kind_ne_ambiguous [] callee (List.cons_ne_nil _ _)
    exact ⟨rfl, beq_eq_false_iff_ne.mpr hkind⟩

lemma run_single {escapes : Bool} (hdeclares : declares s = false)
    (hcompletes : completes [] s = false)
    (h : Stops (statement (Render.invoke escapes depthLimit)
      (rootScope escapes (Program.mk [] [s]).looksOut c) s) e) :
    Render.run escapes (.mk [] [s]) c = .error e := by
  have hnone : [s].all (fun s => !declares s) = true := by simp [hdeclares]
  have hopen : Uninterrupted (rootScope escapes (Program.mk [] [s]).looksOut c) ([] ++ [s]) := by
    rw [Uninterrupted, List.nil_append, List.all_cons, rootScope, hcompletes]
    rfl
  exact run_stops hnone (statements_stops hopen .nil (by simp) h)

lemma obstacle?_undefined {single : Bool} (hlost : lost? c q.parts = none)
    (hundefined : reached c q.parts = .undefined) :
    obstacle? c single (.path q :: es) =
      some ((es.findSome? (Expr.lost? c)).elim (.undefined q.written) .lacks) := by
  rw [obstacle?, List.findSome?_cons, Expr.lost?, hlost]
  cases es.findSome? (Expr.lost? c) with
  | some key => rfl
  | none => rw [hundefined]; rfl

lemma obstacle?_defined {single : Bool} (hlost : lost? c q.parts = none)
    (hmore : es.findSome? (Expr.lost? c) = none) (hdefined : reached c q.parts ≠ .undefined)
    (hsingle : single = true → es = []) : obstacle? c single (.path q :: es) = none := by
  have hsurplus : (single && !es.isEmpty) = false := by
    cases single with
    | false => rfl
    | true =>
      rw [hsingle rfl]
      rfl
  rw [obstacle?, List.findSome?_cons, Expr.lost?, hlost, hmore]
  cases hv : reached c q.parts with
  | undefined => exact absurd hv hdefined
  | _ => simp [hsurplus]

lemma lost?_of_readAll (hflat : more.all Term.isFlat = true) (h : ReadAll more es) :
    es.findSome? (Expr.lost? c) = more.findSome? (Term.lost? c) := by
  induction more generalizing es with
  | nil =>
    rw [eq_nil_of_readAll h]
    rfl
  | cons t more ih =>
    obtain ⟨-, hrest⟩ := Bool.and_eq_true_iff.mp hflat
    match t, es, h with
    | .path names, .path p :: es, h =>
      have hp : p.Names names := h.1
      rw [List.findSome?_cons, List.findSome?_cons, ih hrest h.2, Expr.lost?, Term.lost?, hp.parts]
    | .string _, .string _ :: es, h =>
      have hes : es.findSome? (Expr.lost? c) = more.findSome? (Term.lost? c) := ih hrest h.2
      exact hes

end Calls

section Written

variable {p : Piece} {names : List String} {more : List Term}

def anyKinds : Kinds := ⟨fun _ => true, fun _ _ => true, fun _ _ => true⟩

def anyGrammar : Grammar := ⟨fun _ => true, fun _ _ => true, fun _ => true, fun _ => true⟩

lemma anyKinds_within : anyKinds.Within anyGrammar where
  char _ _ := rfl
  output _ _ _ _ _ _ _ := rfl
  block _ _ _ _ _ _ _ := rfl
  params := rfl

mutual

lemma isOf_any : (p : Piece) → p.isOf anyKinds = true
  | .text _ => List.all_eq_true.mpr fun _ _ => rfl
  | .output _ _ => rfl
  | .block _ _ body alternative =>
    Bool.and_eq_true_iff.mpr ⟨areOf_any body, alternativeIsOf_any alternative⟩

lemma areOf_any : (ps : List Piece) → areOf anyKinds ps = true
  | [] => rfl
  | p :: ps => Bool.and_eq_true_iff.mpr ⟨isOf_any p, areOf_any ps⟩

lemma alternativeIsOf_any : (alternative : Option (List Piece)) →
    alternativeIsOf anyKinds alternative = true
  | none => rfl
  | some ps => areOf_any ps

end

lemma program_of_compile {text : String} {nodes : List Node} {program : Program}
    (hparse : Parser.parse text = .ok nodes) (h : compile text = .ok program) :
    Layout.program nodes = program := by
  rw [compile, hparse] at h
  simp only [bind, Except.bind] at h
  split at h
  · exact absurd h (by simp)
  · exact Except.ok.inj h

lemma exists_of_bareStatements {ss : List Statement} {x : Statement}
    (h : bareStatements ss = [x]) : ∃ s, ss = [s] ∧ s.bare = x := by
  match ss, h with
  | [s], h => exact ⟨s, rfl, (List.cons.inj h).1⟩

lemma compile_single (hplain : isPlain [p] = true) :
    ∃ n s, compile (write [p]) = .ok (.mk [] [s]) ∧ s.fits anyGrammar = true ∧ p.Reads n ∧
      s.bare = Layout.toStatement n.bare := by
  obtain ⟨ns, hparse, hreads⟩ := Parser.parse_write hplain
  obtain ⟨n, rest, rfl, hn, hrest⟩ := hreads.cons
  obtain rfl := hrest.nil
  obtain ⟨ss, hcompile, hfits⟩ :=
    compile_accepts (accepts_write anyKinds_within hplain (areOf_any [p]))
  have hbare := Layout.program_bare [n]
  rw [program_of_compile hparse hcompile] at hbare
  obtain ⟨s, rfl, hs⟩ := exists_of_bareStatements (Program.mk.inj hbare).2
  exact ⟨n, s, hcompile, (statementsFit_cons.mp hfits).1, hn, hs⟩

lemma declaresNothing_of_fits {q : Option Program} (h : programFits? anyGrammar q = true) :
    q.all Program.declaresNothing = true := by
  cases q with
  | none => rfl
  | some q =>
    obtain ⟨params, body⟩ := q
    have hfits : (Program.mk params body).fits anyGrammar = true := h
    exact declares_of_fits (Program.fits_mk.mp hfits).2

lemma readAll_path {es : List Expr} (h : ReadAll (.path names :: more) es) :
    ∃ q rest, es = .path q :: rest ∧ q.Names names ∧ ReadAll more rest := by
  match es, h with
  | .path q :: rest, h => exact ⟨q, rest, rfl, h.1, h.2⟩

lemma about_of_readAll {callee q : Path} {name : String} {helper : Helper} {es : List Expr}
    (hcallee : callee.Names [name]) (hof : Helper.ofName? name = some helper)
    (hq : q.Names names) (hargs : arePlain (.path names :: more) = true)
    (hflat : more.all Term.isFlat = true) (hes : ReadAll more es) :
    Call.About callee helper q es := by
  obtain ⟨hsimple, hhead, -⟩ := isSimple_of_helper hcallee (isHelperName_of_ofName? hof)
  obtain ⟨hnames, hmore⟩ := Bool.and_eq_true_iff.mp hargs
  exact ⟨hsimple, by rw [hhead, hof], hq.isPlain hnames, flat_of_readAll hmore hflat hes⟩

lemma Written.IsCallAbout.compiles (h : IsCallAbout names more p) (hplain : isPlain [p] = true)
    (hflat : more.all Term.isFlat = true) :
    ∃ callee helper q es s, compile (write [p]) = .ok (.mk [] [s]) ∧
      Call.About callee helper q es ∧ q.Names names ∧ ReadAll more es ∧
        helper.isBlock = p.isBlock ∧ s.Calls helper (.mk callee (.path q :: es) []) := by
  obtain ⟨n, s, hcompile, hfits, hn, hs⟩ := compile_single hplain
  have hpiece : p.isPlain = true := by
    simp only [isPlain, Bool.and_eq_true] at hplain
    exact hplain.1.1
  cases h with
  | @tag name helper hof hanswers =>
    obtain ⟨callee, es, rfl, hcallee, hes⟩ := hn.of_output
    obtain ⟨q, es, rfl, hq, hes⟩ := readAll_path hes
    have habout := about_of_readAll hcallee hof hq (Bool.and_eq_true_iff.mp hpiece).2 hflat hes
    refine ⟨callee, helper, q, es, s, hcompile, habout, hq, hes, isBlock_of_answers hanswers, ?_⟩
    cases s with
    | output escaped call =>
      obtain rfl := (Statement.output.inj hs).2
      exact .tag hanswers
    | _ => exact absurd hs (by simp [Statement.bare, Node.bare, Layout.toStatement])
  | @block name helper body alternative hof hblock =>
    obtain ⟨callee, es, nodes, other, rfl, hcallee, hes, hbody, hother⟩ := hn.exists_block
    obtain ⟨q, es, rfl, hq, hes⟩ := readAll_path hes
    simp only [Piece.isPlain, Bool.and_eq_true] at hpiece
    have habout := about_of_readAll hcallee hof hq hpiece.1.1.2 hflat hes
    refine ⟨callee, helper, q, es, s, hcompile, habout, hq, hes, hblock, ?_⟩
    cases s with
    | block call body other =>
      obtain rfl : call = .mk callee (.path q :: es) [] := (Statement.block.inj hs).1
      obtain ⟨-, hbody, hother⟩ := Statement.fits_block.mp hfits
      exact .block hblock (declaresNothing_of_fits hbody) (declaresNothing_of_fits hother)
    | _ => exact absurd hs (by simp [Statement.bare, Node.bare, Layout.toStatement])

end Written

def lookupFault (source : Source) (key : String) : Fault :=
  .undefinedKey (.text key) (Value.ofFields [("template", .text source.id)])

/-- What is told of a helper whose path leads to nothing that is defined: another path that it takes
may be cut short, and otherwise it is the path as written. -/
def callFault (source : Source) (c : Value) (names : List String) (more : List Term) : Fault :=
  match more.findSome? (Term.lost? c) with
  | some key => lookupFault source key
  | none => .undefinedKey (.text (String.ofList (pathChars names))) .undefined

section Renders

variable {names : List String} {key : String} {more : List Term} {p : Piece} {label : Nat}
  {fields : Value.Fields}

lemma render_tag_lacks (hpath : isPlainPath (names ++ [key]) = true) (hne : names ≠ [])
    (hscalar : isScalar (reached (.record label fields) names) = true) (serial : Nat)
    (source : Source) (escapes : Bool) :
    ∃ t, Template.ofText serial source escapes (write [.output (names ++ [key]) []]) = .ok t ∧
      t.render (.record label fields) = .error (.fault (lookupFault source key)) := by
  have hplain : isPlain [.output (names ++ [key]) []] = true := by
    simp [isPlain, Piece.isPlain, hpath, arePlain, Piece.isText]
  obtain ⟨ss, hcompile, hss⟩ := compile_write hplain rfl
  obtain ⟨callee, rfl, hcallee⟩ : ∃ callee : Path, ss = [.output true (.mk callee [] [])] ∧
      callee.Names (names ++ [key]) := by
    cases hss with
    | cons hs hnil =>
      cases hnil
      cases hs with
      | output hcallee hes =>
        rw [eq_nil_of_readAll hes]
        exact ⟨_, rfl, hcallee⟩
  obtain ⟨e, he, hlacks⟩ := output_scalar_stops (Render.invoke escapes depthLimit)
    (rootScope_sees escapes _ (.record label fields)) hcallee (isPlainPath_left hne hpath) hscalar
  have hkey : RenderError.isKey key = true := by
    simp only [isPlainPath, Bool.and_eq_true, List.all_eq_true] at hpath
    exact RenderError.isKey_of_isIdentifier (hpath.2 key (by simp))
  refine ⟨⟨serial, source, escapes, _⟩, by rw [Template.ofText, hcompile], ?_⟩
  rw [Template.render, run_single rfl rfl he]
  exact congrArg Except.error (hlacks.renderFailure hkey source)

lemma render_call_lacks (hplain : isPlain [p] = true) (hp : IsCallAbout (names ++ [key]) more p)
    (hflat : more.all Term.isFlat = true)
    (hscalar : isScalar (reached (.record label fields) names) = true)
    (hown : (reached (.record label fields) names).own? key = none) (serial : Nat)
    (source : Source) (escapes : Bool) :
    ∃ t, Template.ofText serial source escapes (write [p]) = .ok t ∧
      t.render (.record label fields) =
        .error (.fault (callFault source (.record label fields) (names ++ [key]) more)) := by
  obtain ⟨callee, helper, q, es, s, hcompile, habout, hq, hes, -, hcalls⟩ :=
    hp.compiles hplain hflat
  have hlost : lost? (.record label fields) q.parts = none := by
    rw [hq.parts]
    exact lost?_append (isNullish_of_isScalar hscalar) key
  have hundefined : reached (.record label fields) q.parts = .undefined := by
    rw [hq.parts, reached_append, Value.own, hown]
    rfl
  obtain ⟨e, he, hraises⟩ := hcalls.stops (Render.invoke escapes depthLimit)
    (rootScope_sees escapes _ (.record label fields)) habout (obstacle?_undefined hlost hundefined)
  obtain ⟨hdeclares, hcompletes⟩ := hcalls.quiet
  let t : Template := ⟨serial, source, escapes, .mk [] [s]⟩
  have hends : Obstacle.Ends t (.record label fields) _ :=
    hraises.ends (run_single hdeclares hcompletes he)
  rw [lost?_of_readAll hflat hes] at hends
  refine ⟨t, by rw [Template.ofText, hcompile], ?_⟩
  rw [callFault, ← hq.written]
  cases hmore : more.findSome? (Term.lost? (.record label fields)) with
  | some lost =>
    rw [hmore] at hends
    exact hends
  | none =>
    rw [hmore] at hends
    exact hends

lemma render_call_answers (hplain : isPlain [p] = true) (hp : IsCallAbout (names ++ [key]) more p)
    (hasked : p.isAsked = true) (hflat : more.all Term.isFlat = true)
    (hmore : more.findSome? (Term.lost? (.record label fields)) = none)
    (hsingle : p.isBlock = true → more = [])
    (hprintable : (Value.record label fields).isPrintable = true)
    (hscalar : isScalar (reached (.record label fields) names) = true)
    (hown : ((reached (.record label fields) names).own? key).isSome = true) (serial : Nat)
    (source : Source) (escapes : Bool) :
    ∃ t, Template.ofText serial source escapes (write [p]) = .ok t ∧
      ∃ text, t.render (.record label fields) = .ok text := by
  obtain ⟨callee, helper, q, es, s, hcompile, habout, hq, hes, hblock, hcalls⟩ :=
    hp.compiles hplain hflat
  obtain ⟨program, hprogram, hsasked⟩ :=
    compile_isAsked hplain (List.all_eq_true.mpr fun _ hmem => List.mem_singleton.mp hmem ▸ hasked)
  obtain rfl : .mk [] [s] = program := Except.ok.inj (hcompile.symm.trans hprogram)
  have hlost : lost? (.record label fields) q.parts = none := by
    rw [hq.parts]
    exact lost?_append (isNullish_of_isScalar hscalar) key
  have hdefined : reached (.record label fields) q.parts ≠ .undefined := by
    rw [hq.parts, reached_append]
    exact own_ne_undefined hscalar hown
  have hnone (single : Bool) (hsingle : single = true → es = []) :
      Template.obstacle? (.record label fields) single (.path q :: es) = none :=
    obstacle?_defined hlost ((lost?_of_readAll hflat hes).trans hmore) hdefined hsingle
  have hobstacle : s.obstacle? (.record label fields) = none := by
    cases hcalls with
    | tag => exact hnone false (fun h => absurd h Bool.false_ne_true)
    | block hisBlock =>
      refine hnone true fun _ => eq_nil_of_readAll ?_
      rwa [hsingle (hblock ▸ hisBlock)] at hes
  have hsees := rootScope_sees escapes (Program.mk [] [s]).looksOut (.record label fields)
  have hasked : [s].all Statement.isAsked = true := hsasked
  obtain ⟨text, hrun⟩ := run_gives (declares_of_isAsked hasked) rfl
    (uninterrupted_of_isAsked hsees.names hasked) fun s' hs' => by
      obtain rfl := List.mem_singleton.mp hs'
      exact asked_gives _ hsees (rootScope_stands hprintable escapes _) hprintable rfl
        (List.all_eq_true.mp hasked s' hs') hobstacle
  refine ⟨⟨serial, source, escapes, _⟩, by rw [Template.ofText, hcompile], text, ?_⟩
  rw [Template.render, hrun]

/-- A tag refuses every name that is looked up in a text, a number or a truth value, and so does a
helper about the same path, but for the length of a text. -/
theorem render_call_of_scalar (hplain : isPlain [p] = true)
    (hp : IsCallAbout (names ++ [key]) more p) (hflat : more.all Term.isFlat = true)
    (hne : names ≠ []) (hpath : isPlainPath (names ++ [key]) = true)
    (hscalar : isScalar (reached (.record label fields) names) = true) (serial : Nat)
    (source : Source) (escapes : Bool) :
    (∃ t, Template.ofText serial source escapes (write [.output (names ++ [key]) []]) = .ok t ∧
      t.render (.record label fields) = .error (.fault (lookupFault source key))) ∧
    ∃ t, Template.ofText serial source escapes (write [p]) = .ok t ∧
      if (reached (.record label fields) names).isText && key == "length" then
        p.isAsked = true → more.findSome? (Term.lost? (.record label fields)) = none →
          (p.isBlock = true → more = []) → (Value.record label fields).isPrintable = true →
            ∃ text, t.render (.record label fields) = .ok text
      else t.render (.record label fields) =
        .error (.fault (callFault source (.record label fields) (names ++ [key]) more)) := by
  refine ⟨render_tag_lacks hpath hne hscalar serial source escapes, ?_⟩
  have hkey : isIdentifier key = true := by
    simp only [isPlainPath, Bool.and_eq_true, List.all_eq_true] at hpath
    exact hpath.2 key (by simp)
  have hown := own?_isSome hscalar hkey
  split
  · next hlength =>
    obtain ⟨_, _, _, _, s, hcompile, -⟩ := hp.compiles hplain hflat
    have ht : Template.ofText serial source escapes (write [p]) =
        .ok ⟨serial, source, escapes, .mk [] [s]⟩ := by rw [Template.ofText, hcompile]
    refine ⟨_, ht, fun hasked hmore hsingle hprintable => ?_⟩
    obtain ⟨u, hu, hrender⟩ := render_call_answers hplain hp hasked hflat hmore hsingle hprintable
      hscalar (hown.trans hlength) serial source escapes
    obtain rfl := Except.ok.inj (ht.symm.trans hu)
    exact hrender
  · next hlength =>
    rw [Bool.not_eq_true] at hlength
    rw [hlength, Option.isSome_eq_false_iff, Option.isNone_iff_eq_none] at hown
    exact render_call_lacks hplain hp hflat hscalar hown serial source escapes

def sizeText : String :=
  "\x7b\x7b#each a.size\x7d\x7d\x7b\x7bb.c\x7d\x7d\x7b\x7b/each\x7d\x7d"

theorem render_call_of_scalar_each :
    ∃ t, Template.ofText 0 (.inline sizeText) false sizeText = .ok t ∧
      t.render (.record 1 [("a", .bool false)]) =
        .error (.fault (.undefinedKey (.text "a.size") .undefined)) := by
  have hwrite : write [.block "each" [.path ["a", "size"]] [.output ["b", "c"] []] none] =
      sizeText := by decide
  have heach : Helper.ofName? "each" = some .each := rfl
  have hcall : IsCallAbout (["a"] ++ ["size"]) []
      (.block "each" [.path ["a", "size"]] [.output ["b", "c"] []] none) := .block heach rfl
  have hscalar : isScalar (reached (.record 1 [("a", .bool false)]) ["a"]) = true := rfl
  obtain ⟨-, t, ht, hrender⟩ := render_call_of_scalar (by decide) hcall rfl (by decide) (by decide)
    hscalar 0 (.inline sizeText) false
  rw [hwrite] at ht
  exact ⟨t, ht, hrender⟩

def lengthTag : String := "\x7b\x7ba.length\x7d\x7d"

def lengthBlock : String := "\x7b\x7b#if a.length\x7d\x7dyes\x7b\x7b/if\x7d\x7d"

theorem render_if_length :
    ∃ t u, Template.ofText 0 (.inline lengthTag) false lengthTag = .ok t ∧
      t.render (.record 1 [("a", .text "abc")]) =
        .error (.fault (lookupFault (.inline lengthTag) "length")) ∧
      Template.ofText 1 (.inline lengthBlock) false lengthBlock = .ok u ∧
      ∃ text, u.render (.record 1 [("a", .text "abc")]) = .ok text := by
  have hwrite : write [.block "if" [.path ["a", "length"]] [.text "yes"] none] = lengthBlock := by
    decide
  have hif : Helper.ofName? "if" = some .if := rfl
  have hcall : IsCallAbout (["a"] ++ ["length"]) []
      (.block "if" [.path ["a", "length"]] [.text "yes"] none) := .block hif rfl
  have hpath : isPlainPath (["a"] ++ ["length"]) = true := by decide
  have hscalar : isScalar (reached (.record 1 [("a", .text "abc")]) ["a"]) = true := rfl
  obtain ⟨t, ht, htag⟩ := render_tag_lacks hpath (by decide) hscalar 0 (.inline lengthTag) false
  obtain ⟨u, hu, hblock⟩ := render_call_answers (by decide) hcall (by decide) rfl rfl
    (fun _ => rfl) (by decide) hscalar rfl 1 (.inline lengthBlock) false
  rw [hwrite] at hu
  exact ⟨t, u, ht, htag, hu, hblock⟩

end Renders

end BuildNotice.Template
