import BuildNotice.Proofs.Template.Compiling
import BuildNotice.Proofs.Template.Lookup

namespace BuildNotice.Template

open Render Written

def Written.looksUp : List String → Bool
  | [name] => (Helper.ofName? name).isNone && !Helper.reserved.contains name
  | _ => true

def added? (escapes : Bool) (v : Value) : Option Value :=
  if escapes then (Escape.value? v).map .text else some (if v.isNullish then .text "" else v)

def printed? (escapes : Bool) (v : Value) : Option String :=
  if escapes then Escape.value? v else if v.isNullish then some "" else v.print?

lemma added_of_printed {escapes : Bool} {v : Value} {t : String} (h : printed? escapes v = some t) :
    ∃ w, added? escapes v = some w ∧ w.print? = some t := by
  cases escapes with
  | true => exact ⟨.text t, congrArg (Option.map Value.text) h, rfl⟩
  | false =>
    cases hn : v.isNullish with
    | true =>
      obtain rfl : "" = t := by simpa [printed?, hn] using h
      exact ⟨.text "", by simp [added?, hn], rfl⟩
    | false => exact ⟨v, by simp [added?, hn], by simpa [printed?, hn] using h⟩

lemma kind_ne_ambiguous (names : List (List String)) (callee : Path) {es : List Expr}
    (he : es ≠ []) : Call.kind names (.mk callee es []) ≠ .ambiguous := by
  by_cases hd : callee.isSimple = true ∧ (declared? callee.head names).isSome = true
  · simp [Call.kind, Call.callee, hd]
  · simp [Call.kind, Call.isBare, Call.callee, hd, he]

lemma Written.Piece.Compiles.completes {p : Piece} {s : Statement} (h : p.Compiles s)
    (names : List (List String)) : completes names s = false := by
  cases h with
  | text s => rfl
  | output hcallee hes => rfl
  | block hcallee hes hargs hbody =>
    simpa [Render.completes] using kind_ne_ambiguous names _ (ne_nil_of_readAll hes hargs)

lemma Written.Piece.Compiles.declares {p : Piece} {s : Statement} (h : p.Compiles s) :
    declares s = false := by
  cases h <;> rfl

lemma Written.Compile.uninterrupted {pieces : List Piece} {ss : List Statement}
    (h : Compile pieces ss) (sc : Scope) : Uninterrupted sc ss := by
  induction h with
  | nil => rfl
  | cons hp _ ih =>
    simp only [Uninterrupted, List.all_cons, hp.completes, Bool.not_false, Bool.true_and]
    exact ih

lemma Written.Compile.declares {pieces : List Piece} {ss : List Statement}
    (h : Compile pieces ss) : ss.all (fun s => !Render.declares s) = true := by
  induction h with
  | nil => rfl
  | cons hp _ ih => simp [hp.declares, ih]

def Path.isValue (p : Path) : Bool :=
  !(p.isSimple && ((Helper.ofName? p.head).isSome || Helper.reserved.contains p.head))

lemma outputValue_of_isValue {sc : Scope} {p : Path} (h : sc.names.all List.isEmpty = true)
    (hp : p.isValue = true) : outputValue sc (.mk p [] []) = sc.lookup true p := by
  have hdeclared : declared? p.head sc.names = none := declared?_eq_none h _
  by_cases hs : p.isSimple = true
  · simp only [Path.isValue, hs, Bool.true_and, Bool.not_eq_true', Bool.or_eq_false_iff,
      Option.isSome_eq_false_iff, Option.isNone_iff_eq_none] at hp
    have hkind : Call.kind sc.names (.mk p [] []) = .ambiguous := by
      rw [List.contains_eq_mem, decide_eq_false_iff_not] at hp
      simp [Call.kind, Call.callee, Call.isBare, hdeclared, hs, hp.2]
    simp [outputValue, hkind, bareHelper?, Call.callee, hp.1]
  · have hkind : Call.kind sc.names (.mk p [] []) = .simple := by
      simp [Call.kind, Call.callee, Call.isBare, hdeclared, hs]
    simp [outputValue, hkind, Call.callee]

section Calls

variable {sc : Scope} {c : Value} {callee : Path} {names : List String}

lemma Path.Names.isValue (hp : callee.Names names) (hl : looksUp names = true) :
    callee.isValue = true := by
  cases hs : callee.isSimple with
  | false => simp [Path.isValue, hs]
  | true =>
    obtain ⟨name, rfl⟩ : ∃ name, names = [name] := by
      simp only [Path.isSimple, Bool.and_eq_true, beq_iff_eq, hp.parts] at hs
      exact List.length_eq_one_iff.mp hs.1.1
    have hhead : callee.head = name := by simp [Path.head, hp.parts]
    simp only [looksUp, Bool.and_eq_true, Option.isNone_iff_eq_none, Bool.not_eq_true'] at hl
    rw [Path.isValue, hhead, hl.1, hl.2]
    simp

lemma outputValue_lookup (h : sc.Sees c) (hp : callee.Names names) (hl : looksUp names = true) :
    outputValue sc (.mk callee [] []) = sc.lookup true callee :=
  outputValue_of_isValue h.names (hp.isValue hl)

lemma shown_yields {v w : Value} (hw : added? sc.escapes v = some w) :
    Yields (if (true && sc.escapes) = true then do
        pure (.text (← ofOption (Escape.value? v)))
      else pure (if v.isNullish = true then .text "" else v)) w := by
  rw [added?] at hw
  split at hw
  · next he =>
    obtain ⟨s, hs, rfl⟩ := Option.map_eq_some_iff.mp hw
    rw [if_pos (by simp [he])]
    exact (yields_ofOption hs).bind (yields_pure _)
  · next he =>
    obtain rfl := Option.some.inj hw
    rw [if_neg (by simp [he])]
    exact yields_pure _

lemma output_yields {call : Call} {v w : Value} (hv : Yields (outputValue sc call) v)
    (hw : added? sc.escapes v = some w) : Yields (output sc true call) w :=
  hv.bind (shown_yields hw)

def isHelperName (name : String) (helper : Helper) : Bool :=
  Helper.ofName? name == some helper && name.toList.head? != some '.' &&
    !Path.mentionsThis name.toList

variable {name : String} {helper : Helper} {es : List Expr}

lemma isSimple_of_helper (hp : callee.Names [name]) (hn : isHelperName name helper = true) :
    callee.isSimple = true ∧ callee.head = name ∧ Helper.ofName? name = some helper := by
  simp only [isHelperName, Bool.and_eq_true, bne_iff_ne, ne_eq, beq_iff_eq,
    Bool.not_eq_true'] at hn
  have hwritten : callee.written.toList = name.toList := by simp [hp.written, pathChars]
  refine ⟨?_, by simp [Path.head, hp.parts], hn.1.1⟩
  simp [Path.isSimple, Path.isScoped, hp.parts, hp.depth, hwritten, hn.1.2, hn.2]

lemma kind_args (h : sc.names.all List.isEmpty = true) (he : es ≠ []) :
    Call.kind sc.names (.mk callee es []) = .helper := by
  have hdeclared : declared? callee.head sc.names = none := declared?_eq_none h _
  simp [Call.kind, Call.callee, Call.isBare, hdeclared, he]

lemma outputValue_args (h : sc.names.all List.isEmpty = true) (he : es ≠ []) :
    outputValue sc (.mk callee es []) = helperCall sc (.mk callee es []) (pure .none) := by
  rw [outputValue, kind_args h he]

lemma helperCall_yields (hp : callee.Names [name]) (hn : isHelperName name helper = true)
    {args ids : List Value} {bodies : Render Bodies} {b : Bodies} {v : Value}
    (hargs : Yields (exprs sc es) args) (hids : Yields (exprIds sc es) ids) (hb : Yields bodies b)
    (hcall : Yields (helper.call args ⟨this sc, [], ids, b.body, b.alternative⟩) v) :
    Yields (helperCall sc (.mk callee es []) bodies) v := by
  obtain ⟨hsimple, hhead, hof⟩ := isSimple_of_helper hp hn
  have hhash : Yields (hash sc []) [] := yields_pure []
  simp only [helperCall, Call.callee, Call.args, Call.hash, applyHelper, hsimple, Bool.true_or,
    if_true, hhead, hof]
  exact hargs.bind (hhash.bind (hb.bind (hids.bind hcall)))

end Calls

section Terms

variable {sc : Scope} {c : Value}

def Written.Term.Gives (sc : Scope) (t : Term) (v : Value) : Prop :=
  ∀ e, t.Reads e → Yields (expr sc e) v ∧ ∃ id, Yields (exprId sc e) id

lemma string_gives (s : String) : (Term.string s).Gives sc (.text s) := by
  intro e he
  match e, he with
  | .string t, he =>
    obtain rfl : t = s := by simpa [Term.Reads] using he
    exact ⟨yields_pure _, _, yields_pure _⟩

def leads (v : Value) : List String → Bool
  | [] => true
  | key :: rest => !v.isNullish && leads (v.own key) rest

lemma members_yields {v : Value} {names : List String} (h : leads v names = true) :
    Yields (members v names) (reached v names) := by
  induction names generalizing v with
  | nil => exact yields_pure v
  | cons key names ih =>
    simp only [leads, Bool.and_eq_true, Bool.not_eq_true'] at h
    exact (member_yields h.1 key).bind (ih h.2)

lemma path_gives (h : sc.Sees c) {names : List String} (hn : isPlainPath names = true)
    (hl : leads c names = true) : (Term.path names).Gives sc (reached c names) := by
  intro e he
  match e, he with
  | .path p, he =>
    have hp : p.Names names := by simpa [Term.Reads] using he
    constructor
    · rw [expr, Scope.lookup, h.declared?_path]
      simp only [hp.head_ne hn, if_false, Bool.false_eq_true, hp.parts]
      exact (base_yields h hp).bind (members_yields hl)
    · rw [exprId, h.declared?_path]
      exact ⟨_, yields_pure _⟩

lemma args_give {ts : List Term} {vs : List Value} (h : List.Forall₂ (Term.Gives sc) ts vs)
    {es : List Expr} (hes : ReadAll ts es) :
    Yields (exprs sc es) vs ∧ ∃ ids, Yields (exprIds sc es) ids := by
  induction h generalizing es with
  | nil =>
    obtain rfl := eq_nil_of_readAll hes
    exact ⟨yields_pure [], [], yields_pure []⟩
  | @cons t v ts vs ht _ ih =>
    match es, hes with
    | e :: es, hes =>
      obtain ⟨he, hes⟩ : t.Reads e ∧ ReadAll ts es := by simpa [ReadAll] using hes
      obtain ⟨hv, id, hid⟩ := ht e he
      obtain ⟨hvs, ids, hids⟩ := ih hes
      refine ⟨?_, id :: ids, ?_⟩
      · rw [exprs]
        exact hv.bind (hvs.bind (yields_pure _))
      · rw [exprIds]
        exact hid.bind (hids.bind (yields_pure _))

lemma call_gives (h : sc.Sees c) {name : String} {helper : Helper}
    (hn : isHelperName name helper = true) {ts : List Term} {vs : List Value}
    (hargs : List.Forall₂ (Term.Gives sc) ts vs) {v : Value}
    (hcall : ∀ ids, Yields (helper.call vs ⟨this sc, [], ids, none, none⟩) v) :
    (Term.call name ts).Gives sc v := by
  intro e he
  match e, he with
  | .group (.mk callee es pairs), he =>
    obtain ⟨hcallee, rfl, hes⟩ := by simpa [Term.Reads] using he
    obtain ⟨hvs, ids, hids⟩ := args_give hargs hes
    have hdeclared : declared? callee.head sc.names = none := declared?_eq_none h.names _
    refine ⟨?_, .bool true, ?_⟩
    · rw [expr, group]
      simp only [hdeclared, Option.isSome_none, Bool.false_eq_true, and_false, if_false]
      exact helperCall_yields hcallee hn hvs hids (yields_pure Bodies.none) (hcall ids)
    · rw [exprId]
      exact yields_pure _

lemma require_yields {args : List Value} (h : args.head? ≠ some .undefined) (ids : List Value)
    (name : String) : Yields (Helper.require args ids name) () := by
  rw [Helper.require]
  split
  · next hu => exact absurd hu h
  · exact yields_pure _

end Terms

section Shown

variable {invoke : Invoke} {sc : Scope} {c : Value}

lemma content_yields {s : String} (h : s ≠ "") :
    Yields (statement invoke sc (.content s)) (some (.text s)) := by
  rw [statement, if_neg h]
  exact yields_pure _

lemma outputStatement_yields {escaped : Bool} {call : Call} {v : Value}
    (h : Yields (output sc escaped call) v) :
    Yields (statement invoke sc (.output escaped call)) (some v) := by
  rw [statement]
  exact h.map some

lemma statements_single {s : Statement} {v : Value} (h : Yields (statement invoke sc s) (some v)) :
    Yields (statements invoke sc [s]) v := by
  rw [statements, if_pos List.isEmpty_nil]
  exact h.bind (yields_pure _)

lemma outputStatement_stops {escaped : Bool} {call : Call} {e : RenderError}
    (h : Stops (outputValue sc call) e) : Stops (statement invoke sc (.output escaped call)) e := by
  rw [statement]
  exact (Stops.bind h).bind

def Shows (invoke : Invoke) (sc : Scope) (s : Statement) (t : String) : Prop :=
  ∃ x, Yields (statement invoke sc s) x ∧ x.elim (some "") Value.print? = some t

def Written.Piece.Shows (invoke : Invoke) (sc : Scope) (p : Piece) (t : String) : Prop :=
  ∀ s, p.Compiles s → Template.Shows invoke sc s t

def Written.Piece.Tells (invoke : Invoke) (sc : Scope) (p : Piece) (t : String) : Prop :=
  ∀ s, p.Compiles s → Yields (statement invoke sc s) (some (.text t))

def Written.Piece.IsSilent (invoke : Invoke) (sc : Scope) (p : Piece) : Prop :=
  ∀ s, p.Compiles s → Yields (statement invoke sc s) none

lemma Written.Piece.Tells.shows {p : Piece} {t : String} (h : p.Tells invoke sc t) :
    p.Shows invoke sc t := fun s hs => ⟨_, h s hs, rfl⟩

lemma Written.Piece.IsSilent.shows {p : Piece} (h : p.IsSilent invoke sc) :
    p.Shows invoke sc "" := fun s hs => ⟨_, h s hs, rfl⟩

lemma text_tells {s : String} (h : s ≠ "") : (Piece.text s).Tells invoke sc s := by
  intro st hst
  cases hst
  exact content_yields h

lemma text_silent : (Piece.text "").IsSilent invoke sc := by
  intro st hst
  cases hst
  rw [statement, if_pos rfl]
  exact yields_pure _

lemma text_shows (s : String) : (Piece.text s).Shows invoke sc s := by
  by_cases h : s = ""
  · subst h
    exact text_silent.shows
  · exact (text_tells h).shows

lemma output_shows {call : Call} {v : Value} (hv : Yields (outputValue sc call) v) {t : String}
    (ht : printed? sc.escapes v = some t) : Shows invoke sc (.output true call) t := by
  obtain ⟨w, hw, hp⟩ := added_of_printed ht
  exact ⟨some w, outputStatement_yields (output_yields hv hw), hp⟩

lemma lookup_shows (h : sc.Sees c) (hc : c.isNullish = false) {names : List String}
    (hn : isPlainPath names = true) (hl : looksUp names = true) (hm : missing? c names = none)
    {t : String} (ht : printed? sc.escapes (reached c names) = some t) :
    (Piece.output names []).Shows invoke sc t := by
  intro s hs
  cases hs with
  | @output names args callee es hcallee hes =>
    obtain rfl := eq_nil_of_readAll hes
    apply output_shows _ ht
    rw [outputValue_lookup h hcallee hl]
    exact lookup_strict_yields h hcallee hn hc hm

lemma call_shows (h : sc.Sees c) {name : String} {helper : Helper}
    (hn : isHelperName name helper = true) {ts : List Term} (hts : ts ≠ []) {vs : List Value}
    (hargs : List.Forall₂ (Term.Gives sc) ts vs) {v : Value}
    (hcall : ∀ ids, Yields (helper.call vs ⟨this sc, [], ids, none, none⟩) v) {t : String}
    (ht : printed? sc.escapes v = some t) : (Piece.output [name] ts).Shows invoke sc t := by
  intro s hs
  cases hs with
  | @output names args callee es hcallee hes =>
    obtain ⟨hvs, ids, hids⟩ := args_give hargs hes
    apply output_shows _ ht
    rw [outputValue_args h.names (ne_nil_of_readAll hes hts)]
    exact helperCall_yields hcallee hn hvs hids (yields_pure Bodies.none) (hcall ids)

/-- What pieces show one after the other, where the first one that adds anything adds a text:
numbers at the front would be added up. -/
inductive Written.ShowAll (invoke : Invoke) (sc : Scope) : List Piece → List String → Prop
  | nil : ShowAll invoke sc [] []
  | silent {p : Piece} {ps : List Piece} {ts : List String} :
      p.IsSilent invoke sc → ShowAll invoke sc ps ts → ShowAll invoke sc (p :: ps) ("" :: ts)
  | text {p : Piece} {t : String} {ps : List Piece} {ts : List String} :
      p.Tells invoke sc t → List.Forall₂ (Piece.Shows invoke sc) ps ts →
      ShowAll invoke sc (p :: ps) (t :: ts)

variable {pieces : List Piece} {ss : List Statement} {ts : List String}

lemma exists_give (h : List.Forall₂ (Piece.Shows invoke sc) pieces ts) (hs : Compile pieces ss) :
    ∃ xs us, Give invoke sc ss xs ∧
      List.Forall₂ (fun v t => v.print? = some t) xs.reduceOption us ∧
      String.join us = String.join ts := by
  induction h generalizing ss with
  | nil =>
    cases hs
    exact ⟨[], [], .nil, .nil, rfl⟩
  | @cons p t _ _ hp _ ih =>
    cases hs with
    | cons hps hss =>
      obtain ⟨x, hx, hprint⟩ := hp _ hps
      obtain ⟨xs, us, hgive, hus, hjoin⟩ := ih hss
      cases x with
      | none =>
        obtain rfl := Option.some.inj hprint
        exact ⟨none :: xs, us, .cons hx hgive, by simpa [List.reduceOption_cons_of_none] using hus,
          by simpa [String.join_cons] using hjoin⟩
      | some v =>
        refine ⟨some v :: xs, t :: us, .cons hx hgive, ?_, ?_⟩
        · rw [List.reduceOption_cons_of_some]
          exact .cons hprint hus
        · rw [String.join_cons, String.join_cons, hjoin]

lemma statements_show (h : ShowAll invoke sc pieces ts) (hs : Compile pieces ss) :
    Yields (statements invoke sc ss) (.text (String.join ts)) := by
  obtain ⟨xs, hgive, hsum⟩ : ∃ xs, Give invoke sc ss xs ∧
      Value.sum? xs.reduceOption = some (.text (String.join ts)) := by
    induction h generalizing ss with
    | nil =>
      cases hs
      exact ⟨[], .nil, rfl⟩
    | silent hp _ ih =>
      cases hs with
      | cons hps hss =>
        obtain ⟨xs, hgive, hsum⟩ := ih hss
        exact ⟨none :: xs, .cons (hp _ hps) hgive,
          by simpa [List.reduceOption_cons_of_none, String.join_cons] using hsum⟩
    | text hp hshow =>
      cases hs with
      | cons hps hss =>
        obtain ⟨xs, us, hgive, hus, hjoin⟩ := exists_give hshow hss
        refine ⟨some (.text _) :: xs, .cons (hp _ hps) hgive, ?_⟩
        rw [List.reduceOption_cons_of_some, Value.sum?_text _ hus, String.join_cons, hjoin]
  exact statements_yields (hs.uninterrupted sc) hgive hsum

lemma run_shows {escapes : Bool}
    (h : ShowAll (Render.invoke escapes depthLimit)
      (rootScope escapes (Program.mk [] ss).looksOut c) pieces ts)
    (hs : Compile pieces ss) : run escapes (.mk [] ss) c = .ok (String.join ts) :=
  run_yields hs.declares (statements_show h hs) rfl

lemma run_piece {escapes : Bool} {p : Piece} {t : String}
    (h : p.Shows (Render.invoke escapes depthLimit)
      (rootScope escapes (Program.mk [] ss).looksOut c) t)
    (hs : Compile [p] ss) : run escapes (.mk [] ss) c = .ok t := by
  obtain ⟨s, rest, hps, hrest, rfl⟩ := List.forall₂_cons_left_iff.mp hs
  cases hrest
  obtain ⟨x, hx, hprint⟩ := h s hps
  cases x with
  | none =>
    obtain rfl := Option.some.inj hprint
    exact run_yields hs.declares
      (statements_yields (hs.uninterrupted _) (.cons hx .nil) rfl) rfl
  | some v => exact run_yields hs.declares (statements_single hx) hprint

end Shown

end BuildNotice.Template
