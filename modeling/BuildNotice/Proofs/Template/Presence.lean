import BuildNotice.Proofs.Template.Guards
import BuildNotice.Proofs.Template.Primitives

namespace BuildNotice.Template

open Render Written

def Written.textPieces (s : String) : List Piece := if s = "" then [] else [.text s]

def Written.guarded (names : List String) (key otherwise : String) : List Piece :=
  [.block "if" [.call "has" [.path names, .string key]] [.output (names ++ [key]) []]
    (some (textPieces otherwise))]

def guardedText? (escapes : Bool) (otherwise : String) (v : Value) (key : String) :
    Option String :=
  match v.own? key with
  | none => some otherwise
  | some .undefined => some otherwise
  | some .null => some otherwise
  | some w => printed? escapes w

section Layout

open Text.Blank Layout

lemma Layout.endsLine_eq_false {cs : List Char} (h : '\n' ∉ cs) : endsLine cs = false := by
  have hnotMem : '\n' ∉ takeEndWhile isBlank cs := by
    intro hmem
    rw [takeEndWhile, List.mem_reverse] at hmem
    have hreverse := (List.takeWhile_prefix isBlank).subset hmem
    exact h (List.mem_reverse.mp hreverse)
  rw [endsLine, List.contains_eq_mem, decide_eq_false hnotMem]

lemma Layout.program_alternative (kind : BlockKind) (call : Call) {alternative : List Node}
    (h : alternative = [] ∨ ∃ s : String, '\n' ∉ s.toList ∧
      alternative = [.content (.ofText s)]) :
    Layout.program [.block kind (some (.mk [] false [.output true call .none]))
        (some (.mk [] false alternative)) ⟨.none, .none, .none⟩] =
      .mk [] [toStatement (.block kind (some (.mk [] false [.output true call .none]))
        (some (.mk [] false alternative)) ⟨.none, .none, .none⟩)] := by
  rcases h with rfl | ⟨s, hs, rfl⟩
  · rfl
  · have hends : endsLine (Content.ofText s).written = false := endsLine_eq_false hs
    simp [Layout.program, settleAll, settle, settleOption, settleBody, settleBlock, settlePair,
      arrange, blockAdvice, Body.nodes, alternativeNodes, lineBefore, lineAfter, onContent,
      onNodes, onAlternative, when, Strip.none, hends, onFirst, toStatements]

end Layout

section Compiled

variable {names : List String} {key otherwise : String}

lemma isPlainString_of_isIdentifier (h : isIdentifier key = true) :
    Lexer.isPlainString key = true := by
  obtain ⟨c, cs, hc, hn, hcs⟩ := isPlainName_cons (isPlainName_of_isIdentifier h)
  rw [Lexer.isPlainString, hc, List.all_eq_true]
  intro d hd
  have hname : Lexer.isNameChar d = true := by
    rcases List.mem_cons.mp hd with rfl | hd
    · exact hn
    · exact List.all_eq_true.mp hcs d hd
  simp [Lexer.ne_of_isNameChar hname (show Lexer.isNameChar '"' = false by decide),
    Lexer.ne_of_isNameChar hname (show Lexer.isNameChar '\\' = false by decide)]

lemma isPlainPath_append (hnames : isPlainPath names = true) (hkey : isIdentifier key = true) :
    isPlainPath (names ++ [key]) = true := by
  simp only [isPlainPath, Bool.and_eq_true, List.all_append, List.all_cons, List.all_nil] at *
  exact ⟨by simp, hnames.2, hkey, trivial⟩

lemma isPlain_textPieces (h : otherwise.toList.all Lexer.isLiteralChar = true) :
    isPlain (textPieces otherwise) = true := by
  rw [textPieces]
  split
  · rfl
  · next hne => simp [isPlain, Piece.isPlain, Piece.isText, startsWithText, hne, h]

lemma isPlain_guarded (hnames : isPlainPath names = true) (hkey : isIdentifier key = true)
    (hotherwise : otherwise.toList.all Lexer.isLiteralChar = true) :
    isPlain (guarded names key otherwise) = true := by
  have hif : isIdentifier "if" = true := by decide
  have hhas : isIdentifier "has" = true := by decide
  simp [guarded, isPlain, Piece.isPlain, Piece.isText, arePlain, Term.isPlain, isPlainAlternative,
    hif, hhas, hnames, isPlainString_of_isIdentifier hkey, isPlainPath_append hnames hkey,
    isPlain_textPieces hotherwise]

lemma read_textPieces {nodes : List Node} (h : PiecesRead (textPieces otherwise) nodes)
    (hline : '\n' ∉ otherwise.toList) :
    (nodes = [] ∨ ∃ s : String, '\n' ∉ s.toList ∧ nodes = [.content (.ofText s)]) ∧
      Compile (textPieces otherwise) (Layout.toStatements nodes) := by
  rw [textPieces] at h ⊢
  split at h
  · next hempty =>
    obtain rfl := h.nil
    rw [if_pos hempty]
    exact ⟨Or.inl rfl, .nil⟩
  · next hne =>
    obtain ⟨n, rest, rfl, hn, hrest⟩ := h.cons
    obtain rfl := hrest.nil
    obtain rfl := hn.of_text
    rw [if_neg hne]
    refine ⟨Or.inr ⟨otherwise, hline, rfl⟩, .cons ?_ .nil⟩
    rw [Layout.toStatement, Content.ofText, String.ofList_toList]
    exact .text otherwise

lemma compile_guarded (hnames : isPlainPath names = true) (hkey : isIdentifier key = true)
    (hotherwise : otherwise.toList.all Lexer.isLiteralChar = true)
    (hline : '\n' ∉ otherwise.toList) :
    ∃ callee es body other, compile (write (guarded names key otherwise)) =
        .ok (.mk [] [.block (.mk callee es []) (some (.mk [] body)) (some (.mk [] other))]) ∧
      callee.Names ["if"] ∧ ReadAll [.call "has" [.path names, .string key]] es ∧
      Compile [.output (names ++ [key]) []] body ∧ Compile (textPieces otherwise) other := by
  obtain ⟨ns, hparse, hreads⟩ := Parser.parse_write (isPlain_guarded hnames hkey hotherwise)
  obtain ⟨n, rest, rfl, hn, hrest⟩ := hreads.cons
  obtain rfl := hrest.nil
  obtain ⟨callee, es, nodes, other, rfl, hcallee, hes, hbody, hother⟩ := hn.exists_block
  obtain ⟨b, bs, rfl, hb, hbs⟩ := hbody.cons
  obtain rfl := hbs.nil
  obtain ⟨path, args, rfl, hpath, hargs⟩ := hb.of_output
  cases other with
  | none => exact absurd hother (by simp [AlternativeReads])
  | some other =>
    obtain ⟨params, chained, alternative⟩ := other
    obtain ⟨rfl, rfl, halternative⟩ := hother
    obtain ⟨hnodes, hcompile⟩ := read_textPieces halternative hline
    have hprogram := Layout.program_alternative (.section (.mk callee es [])) (.mk path args [])
      hnodes
    refine ⟨callee, es, [.output true (.mk path args [])], Layout.toStatements alternative, ?_,
      hcallee, hes, .cons (.output hpath hargs) .nil, hcompile⟩
    have hchecks := Compile.checkAll _ _ hcompile
    simp [compile, hparse, hprogram, Layout.toStatement, Layout.toStatements, Layout.toProgram?,
      Layout.toProgram, Program.check, checkAll, Statement.check, checkOption, hchecks, bind,
      Except.bind]

end Compiled

section Rendered

variable {invoke : Invoke} {sc : Scope} {label : Nat} {fields : Value.Fields}

lemma ifElse_yields (h : sc.Sees (.record label fields)) {t : Term} {w : Value}
    (ht : t.Gives sc w) (hw : w ≠ .undefined) {callee : Path} {es : List Expr}
    (hcallee : callee.Names ["if"]) (hes : ReadAll [t] es) {ps qs : List Piece}
    {body other : List Statement} (hbody : Compile ps body) (hother : Compile qs other) {v : Value}
    (hv : v.isNullish = false)
    (hchosen : Yields (statements invoke
      (sc.inBody (Program.mk [] (if Helper.holds w [] then body else other)).looksOut)
      (if Helper.holds w [] then body else other)) v) :
    Yields (statement invoke sc
      (.block (.mk callee es []) (some (.mk [] body)) (some (.mk [] other)))) (some v) := by
  obtain ⟨hvs, ids, hids⟩ := args_give (.cons ht .nil) hes
  have hbodies : Yields (do
      let b ← runner invoke sc (some (.mk [] body))
      let a ← runner invoke sc (some (.mk [] other))
      pure (Bodies.mk (some b) (some a)))
      ⟨some (bodyRunner invoke sc body), some (bodyRunner invoke sc other)⟩ :=
    (runner_yields hbody).bind ((runner_yields hother).bind (yields_pure _))
  have hthis : this sc = .record label fields := by rw [this, h.context]; rfl
  have hchoose : Yields (Helper.choose (Helper.holds w []) ⟨this sc, [], ids,
      some (bodyRunner invoke sc body), some (bodyRunner invoke sc other)⟩) v := by
    rw [Helper.choose, hthis]
    split at hchosen
    · next hholds =>
      rw [if_pos hholds]
      exact (enterBody_yields h _).bind hchosen
    · next hholds =>
      rw [if_neg hholds]
      exact (enterBody_yields h _).bind hchosen
  have hcall : Yields (Helper.if.call [w] ⟨this sc, [], ids, some (bodyRunner invoke sc body),
      some (bodyRunner invoke sc other)⟩) v :=
    (require_yields (by simpa using hw) ids "#if").bind hchoose
  rw [statement, kind_args h.names (ne_nil_of_readAll hes (by simp))]
  refine (helperCall_yields hcallee (by decide) hvs hids hbodies hcall).bind ?_
  rw [hv]
  exact yields_pure _

lemma textPieces_yields (s : String) {ss : List Statement} (hs : Compile (textPieces s) ss) :
    Yields (statements invoke sc ss) (.text s) := by
  rw [textPieces] at hs
  split at hs
  · next hempty =>
    cases hs
    rw [hempty, statements]
    exact yields_pure _
  · next hne =>
    obtain ⟨t, ts, ht, hts, rfl⟩ := List.forall₂_cons_left_iff.mp hs
    cases hts
    exact statements_single (text_tells hne t ht)

lemma isNullish_added {escapes : Bool} {v w : Value} (h : added? escapes v = some w) :
    w.isNullish = false := by
  rw [added?] at h
  split at h
  · obtain ⟨t, -, rfl⟩ := Option.map_eq_some_iff.mp h
    rfl
  · obtain rfl := Option.some.inj h
    cases hn : v.isNullish with
    | true => rfl
    | false => simpa using hn

variable {c : Value} {names : List String} {key otherwise : String}

lemma leads_of_reached (h : (reached c names).isNullish = false) : leads c names = true := by
  induction names generalizing c with
  | nil => rfl
  | cons name names ih =>
    have hc := isNullish_of_reached h
    simp [leads, hc, ih h]

lemma missing?_append (hparent : (reached c names).isComposite = true)
    (hknows : (reached c names).knows key = true) : missing? c (names ++ [key]) = none := by
  induction names generalizing c with
  | nil => exact if_pos (by simp [show c.isComposite = true from hparent,
      show c.knows key = true from hknows])
  | cons name names ih =>
    obtain ⟨next, rest, hrest⟩ : ∃ next rest, names ++ [key] = next :: rest := by
      cases names with
      | nil => exact ⟨key, [], rfl⟩
      | cons next rest => exact ⟨next, rest ++ [key], rfl⟩
    have htail := ih hparent hknows
    have hown : (c.own name).isNullish = false :=
      isNullish_of_reached (isNullish_of_isComposite hparent)
    rw [hrest] at htail
    rw [List.cons_append, hrest, missing?, if_neg (by simp [hown])]
    exact htail

lemma lookup_yields (h : sc.Sees c) (hc : c.isNullish = false)
    (hpath : isPlainPath (names ++ [key]) = true) (hne : names ≠ [])
    (hparent : (reached c names).isComposite = true)
    (hvalue : ((reached c names).own key).isNullish = false) {w : Value}
    (hw : added? sc.escapes ((reached c names).own key) = some w) {ss : List Statement}
    (hs : Compile [.output (names ++ [key]) []] ss) : Yields (statements invoke sc ss) w := by
  obtain ⟨s, rest, hcompiles, hrest, rfl⟩ := List.forall₂_cons_left_iff.mp hs
  cases hrest
  cases hcompiles with
  | @output _ _ callee es hcallee hes =>
    obtain rfl := eq_nil_of_readAll hes
    have hlooksUp : looksUp (names ++ [key]) = true := by
      obtain ⟨name, rest, rfl⟩ := List.exists_cons_of_ne_nil hne
      cases rest <;> rfl
    have hlookup := lookup_strict_yields h hcallee hpath hc
      (missing?_append hparent (knows_of_own hparent hvalue))
    rw [reached_append] at hlookup
    rw [← outputValue_lookup h hcallee hlooksUp] at hlookup
    exact statements_single (outputStatement_yields (output_yields hlookup hw))

lemma exists_printed (escapes : Bool) {v : Value} (hn : v.isNullish = false)
    (hc : v.isComposite = false) : ∃ t, printed? escapes v = some t := by
  have hprintable : v.isPrintable = true := by
    cases v <;> first | rfl | exact absurd hc (by simp [Value.isComposite])
  obtain ⟨s, hs⟩ := Value.exists_print hprintable
  cases escapes with
  | true => exact ⟨Escape.text s, by simp [printed?, Escape.value?, hn, hs]⟩
  | false => exact ⟨s, by simp [printed?, hn, hs]⟩

lemma guardedText?_eq (escapes : Bool) (otherwise : String) (v : Value) (key : String) :
    guardedText? escapes otherwise v key =
      if (v.own key).isNullish then some otherwise else printed? escapes (v.own key) := by
  rw [guardedText?, Value.own]
  cases v.own? key with
  | none => rfl
  | some w => cases w <;> rfl

lemma chosen_yields (invoke : Invoke) (h : sc.Sees c) (hc : c.isNullish = false)
    (hpath : isPlainPath (names ++ [key]) = true) (hne : names ≠ [])
    (hparent : (reached c names).isComposite = true)
    (hvalue : ((reached c names).own key).isComposite = false) {body other : List Statement}
    (hbody : Compile [.output (names ++ [key]) []] body)
    (hother : Compile (textPieces otherwise) other) :
    ∃ w text, guardedText? sc.escapes otherwise (reached c names) key = some text ∧
      w.print? = some text ∧ w.isNullish = false ∧
      Yields (statements invoke sc
        (if Helper.hasOf [reached c names, .text key] then body else other)) w := by
  have hhas : Helper.hasOf [reached c names, .text key] =
      !((reached c names).own key).isNullish := by
    simp [Helper.hasOf, hparent]
  rw [hhas, guardedText?_eq]
  cases hn : ((reached c names).own key).isNullish with
  | true => exact ⟨.text otherwise, otherwise, rfl, rfl, rfl, textPieces_yields otherwise hother⟩
  | false =>
    obtain ⟨text, htext⟩ := exists_printed sc.escapes hn hvalue
    obtain ⟨w, hw, hprint⟩ := added_of_printed htext
    exact ⟨w, text, htext, hprint, isNullish_added hw,
      lookup_yields h hc hpath hne hparent hn hw hbody⟩

end Rendered

/-- A guarded lookup renders in every context that has the thing it is about. -/
theorem guarded_lookup_renders (serial : Nat) (source : Source) (escapes : Bool) (label : Nat)
    (fields : Value.Fields) {names : List String} {key otherwise : String}
    (hnames : isPlainPath names = true) (hkey : isIdentifier key = true)
    (hotherwise : otherwise.toList.all Lexer.isLiteralChar = true)
    (hline : '\n' ∉ otherwise.toList)
    (hparent : (reached (.record label fields) names).isComposite = true)
    (hvalue : ((reached (.record label fields) names).own key).isComposite = false) :
    ∃ t text, Template.ofText serial source escapes (write (guarded names key otherwise)) = .ok t ∧
      guardedText? escapes otherwise (reached (.record label fields) names) key = some text ∧
      t.render (.record label fields) = .ok text := by
  obtain ⟨callee, es, body, other, hcompile, hcallee, hes, hbody, hother⟩ :=
    compile_guarded hnames hkey hotherwise hline
  have hsees := rootScope_sees escapes (Program.mk [] [.block (.mk callee es [])
    (some (.mk [] body)) (some (.mk [] other))]).looksOut (.record label fields)
  have hne : names ≠ [] := by
    rintro rfl
    exact Bool.false_ne_true hnames
  have hleads := leads_of_reached (isNullish_of_isComposite hparent)
  have hdefined : reached (.record label fields) names ≠ .undefined := by
    intro hundefined
    rw [hundefined] at hparent
    exact Bool.false_ne_true hparent
  have hgives := has_gives hsees (path_gives hsees hnames hleads) hdefined key
  obtain ⟨w, text, htext, hprint, hw, hchosen⟩ :=
    chosen_yields (Render.invoke escapes depthLimit) (hsees.inBody _) rfl
      (isPlainPath_append hnames hkey) hne hparent hvalue hbody hother
  rw [← holds_bool (Helper.hasOf _)] at hchosen
  have hblock := ifElse_yields hsees hgives (by simp) hcallee hes hbody hother hw hchosen
  have hrun := run_yields rfl (statements_single hblock) hprint
  refine ⟨⟨serial, source, escapes, .mk [] [.block (.mk callee es []) (some (.mk [] body))
    (some (.mk [] other))]⟩, text, ?_, htext, ?_⟩
  · rw [Template.ofText, hcompile]
  · rw [Template.render, hrun]

theorem guarded_false_renders :
    isPlainPath ["build", "worker"] = true ∧ isIdentifier "idle" = true ∧
      "none".toList.all Lexer.isLiteralChar = true ∧ '\n' ∉ "none".toList ∧
      ∃ t, Template.ofText 0 (.inline "") true (write (guarded ["build", "worker"] "idle" "none")) =
          .ok t ∧
        t.render (.record 3 [("build", .record 2 [("worker", .record 1 [("idle", .bool false)])])]) =
          .ok "false" := by
  have hnames : isPlainPath ["build", "worker"] = true := by decide
  have hkey : isIdentifier "idle" = true := by decide
  have hotherwise : "none".toList.all Lexer.isLiteralChar = true := by decide
  have hline : '\n' ∉ "none".toList := by decide
  obtain ⟨t, text, ht, htext, hrender⟩ := guarded_lookup_renders 0 (.inline "") true 3
    [("build", .record 2 [("worker", .record 1 [("idle", .bool false)])])] hnames hkey hotherwise
    hline rfl rfl
  obtain rfl : "false" = text := Option.some.inj htext
  exact ⟨hnames, hkey, hotherwise, hline, t, ht, hrender⟩

theorem guarded_nul_fails :
    "\x00".toList.all (fun c => c != '\x7b' && c != '\x7d' && c != '\\' && c != '\n') = true ∧
      isPlainPath ["a"] = true ∧ isIdentifier "k" = true ∧
      (reached (.record 2 [("a", .record 1 [])]) ["a"]).isComposite = true ∧
      (reached (.record 2 [("a", .record 1 [])]) ["a"]).own? "k" = none ∧
      ∀ serial source escapes t,
        Template.ofText serial source escapes (write (guarded ["a"] "k" "\x00")) ≠ .ok t := by
  have hcompile : (compile (write (guarded ["a"] "k" "\x00"))).toBool = false := by decide +kernel
  refine ⟨by decide, by decide, by decide, rfl, rfl, ?_⟩
  intro serial source escapes t ht
  rw [Template.ofText] at ht
  split at ht
  · next program hok =>
    rw [hok] at hcompile
    exact Bool.false_ne_true hcompile.symm
  · exact absurd ht (by simp)

end BuildNotice.Template
