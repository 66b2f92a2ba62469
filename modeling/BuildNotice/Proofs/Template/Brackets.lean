import BuildNotice.Proofs.Template.Accusing
import BuildNotice.Proofs.Template.Primitives

/-! Tags whose path ends in a name between square brackets. -/

namespace BuildNotice.Template

open Render Written
open Lexer (isBracketable inBrackets toList_inBrackets)
open Text

def bracketed (names : List String) (key : String) : Piece :=
  .output (names ++ [inBrackets key]) []

def lookedUp (key : String) : String :=
  if key.toList.any Blank.isLineEnd then inBrackets key else key

section Reading

variable {names : List String} {key : String}

lemma pathChars_append (hne : names ≠ []) (name : String) :
    pathChars (names ++ [name]) = pathChars names ++ '.' :: name.toList := by
  obtain ⟨s, names, rfl⟩ := List.exists_cons_of_ne_nil hne
  rw [List.cons_append, Parser.pathChars_flatMap, Parser.pathChars_flatMap]
  simp

lemma pathTokens_append (hne : names ≠ []) (name : String) :
    pathTokens (names ++ [name]) = pathTokens names ++ [.separator ".", .name name] := by
  obtain ⟨s, names, rfl⟩ := List.exists_cons_of_ne_nil hne
  rw [List.cons_append, Parser.pathTokens_flatMap, Parser.pathTokens_flatMap]
  simp

lemma kinds_inBrackets (hk : isBracketable key = true) (rest : List Char) :
    Lexer.kinds .tag ('.' :: ((inBrackets key).toList ++ rest)) =
      .separator "." :: .name (inBrackets key) :: Lexer.kinds .tag rest := by
  have hdot (cs : List Char) :
      Lexer.kinds .tag ('.' :: '[' :: cs) = .separator "." :: Lexer.kinds .tag ('[' :: cs) := by
    have hstep : Lexer.inTag ('.' :: '[' :: cs) = Lexer.lexeme 1 (.separator ".") .tag :=
      Lexer.inTag_dot (by decide) rfl
    exact Lexer.kinds_token ['.'] _ (by simp) hstep
  have hname : Lexer.kinds .tag ((inBrackets key).toList ++ rest) =
      .name (inBrackets key) :: Lexer.kinds .tag rest := by
    refine Lexer.kinds_token _ _ (by simp [toList_inBrackets]) ?_
    simpa [Lexer.step, toList_inBrackets] using Lexer.inTag_bracketed hk rest
  rw [toList_inBrackets, List.cons_append] at hname ⊢
  rw [hdot, hname]

lemma kinds_bracketed (hn : isPlainPath names = true) (hk : isBracketable key = true) :
    Lexer.kinds .text (write [bracketed names key]).toList =
      tokens [bracketed names key] ++ [.finish] := by
  have hne : names ≠ [] := by
    rintro rfl
    exact absurd hn Bool.false_ne_true
  have hends (rest : List Char) : Lexer.endsName ('.' :: rest) = true := rfl
  have hclose : Lexer.kinds .tag ['\x7d', '\x7d'] = .close false :: Lexer.kinds .text [] :=
    kinds_close (by simp)
  simp only [write, chars, bracketed, Piece.chars, argChars, tokens, Piece.tokens, argTokens,
    pathChars_append hne, pathTokens_append hne, String.toList_ofList, List.cons_append,
    List.append_assoc, List.nil_append, List.append_nil]
  rw [kinds_outputOpen hn (hends _), kinds_path hn (hends _), kinds_inBrackets hk, hclose,
    Lexer.kinds_nil]

namespace Parser

lemma unbracket_inBrackets (key : String) : unbracket (inBrackets key) = lookedUp key := by
  have hend : Blank.isLineEnd ']' = false := by decide
  cases hkey : key.toList.any Blank.isLineEnd with
  | true => simp [unbracket, toList_inBrackets, lookedUp, hkey, hend]
  | false => simp [unbracket, toList_inBrackets, lookedUp, hkey, hend]

lemma not_special_inBrackets (key : String) :
    ¬ (lookedUp key = inBrackets key ∧
      (lookedUp key = ".." ∨ lookedUp key = "." ∨ lookedUp key = "this")) := by
  rintro ⟨heq, hspecial⟩
  rw [heq] at hspecial
  have hne (s : String) (hs : s.toList.head? ≠ some '[') : inBrackets key ≠ s := by
    rintro rfl
    exact hs (by rw [toList_inBrackets]; rfl)
  rcases hspecial with h | h | h
  · exact hne _ (by decide) h
  · exact hne _ (by decide) h
  · exact hne _ (by decide) h

lemma resolve_append (position : Position) (path : Path) (before after : List Segment) :
    resolve position path (before ++ after) =
      (resolve position path before).bind (resolve position · after) := by
  induction before generalizing path with
  | nil => simp [resolve, Except.bind]
  | cons s before ih =>
    simp only [List.cons_append, resolve]
    split
    · split
      · rfl
      · exact ih _
    · exact ih _

lemma resolve_bracketed {s : String} {names : List String} (h : isPlainPath (s :: names) = true)
    (key : String) (position : Position) :
    resolve position ⟨false, 0, [], "", position⟩
        (⟨s, ""⟩ :: (names ++ [inBrackets key]).map (⟨·, "."⟩)) =
      .ok ⟨false, 0, s :: names ++ [lookedUp key],
        String.ofList (pathChars (s :: names ++ [lookedUp key])), position⟩ := by
  have hsegments : (⟨s, ""⟩ :: (names ++ [inBrackets key]).map (⟨·, "."⟩) : List Segment) =
      (⟨s, ""⟩ :: names.map (⟨·, "."⟩)) ++ [⟨inBrackets key, "."⟩] := by simp
  rw [hsegments, resolve_append, resolve_path h, Except.bind, resolve, unbracket_inBrackets,
    if_neg (not_special_inBrackets key), resolve, pathChars_append (List.cons_ne_nil _ _)]
  simp [String.append_assoc]

lemma name_bracketed (hn : isPlainPath names = true) (key : String) {more : List Token}
    (hm : followsPathAt more = true) (ps : List Placed)
    (h : ps.map Placed.token = pathTokens (names ++ [inBrackets key]) ++ more) :
    ∃ p rest, name ps = .ok (.path p, rest) ∧ p.Names (names ++ [lookedUp key]) ∧
      rest.map Placed.token = more := by
  match names, hn with
  | s :: names, hn =>
    obtain ⟨position, rest, hrest, hname⟩ := name_segments hm ps h
    exact ⟨_, rest, hname _ (resolve_bracketed hn key position), ⟨rfl, rfl, rfl, rfl⟩, hrest⟩

lemma parse_bracketed (hn : isPlainPath names = true) (hk : isBracketable key = true) :
    ∃ callee : Path, callee.Names (names ++ [lookedUp key]) ∧
      parse (write [bracketed names key]) = .ok [.output true (.mk callee [] []) .none] := by
  have htokens : (Lexer.tokens (write [bracketed names key])).map Placed.token =
      .outputOpen false .escaped ::
        (pathTokens (names ++ [inBrackets key]) ++ [.close false, .finish]) := by
    rw [Lexer.tokens_kinds, kinds_bracketed hn hk]
    simp [tokens, bracketed, Piece.tokens, argTokens]
  obtain ⟨p, ps, hps, hp, h⟩ := List.map_eq_cons_iff.mp htokens
  obtain ⟨callee, rest, hname, hcallee, hrest⟩ := name_bracketed hn key rfl ps h
  obtain ⟨q, qs, rfl, hq, hqs⟩ := List.map_eq_cons_iff.mp hrest
  obtain ⟨r, rs, rfl, hr, -⟩ := List.map_eq_cons_iff.mp hqs
  have hends : endsArgs [.close false, .finish] = true := rfl
  have hexprs : exprs (fuelFor ps) (q :: r :: rs) = .ok ([], q :: r :: rs) := by
    rw [fuelFor, exprs]
    simp [hq, startsExpr]
  have hpairs : pairs (fuelFor ps) (q :: r :: rs) = .ok ([], q :: r :: rs) :=
    pairs_ends hends _ _ hrest
  have hhead : head ps = .ok (⟨.path callee, .mk callee [] [], position ps⟩, q :: r :: rs) := by
    simp [head, hname, hexprs, hpairs, bind, Except.bind, Name.toPath]
  have hclose : close (q :: r :: rs) = .ok (false, r :: rs) := by simp [close, hq]
  refine ⟨callee, hcallee, ?_⟩
  rw [parse, hps]
  simp [fuelFor, nodes, node, hp, hr, hhead, hclose, bind, Except.bind, Strip.none, startsNode]

end Parser

lemma compile_bracketed (hn : isPlainPath names = true) (hk : isBracketable key = true) :
    ∃ callee : Path, callee.Names (names ++ [lookedUp key]) ∧
      compile (write [bracketed names key]) = .ok (.mk [] [.output true (.mk callee [] [])]) := by
  obtain ⟨callee, hcallee, hparse⟩ := Parser.parse_bracketed hn hk
  refine ⟨callee, hcallee, ?_⟩
  rw [compile, hparse]
  rfl

end Reading

section Failures

variable {v c : Value} {names : List String} {key : String} {source : Source} {e : RenderError}

def unknown (v : Value) (key : String) (position : Position) : RenderError :=
  match v.print? with
  | some container => .notDefined key container position
  | none => .wrongKind

lemma knownMember_unknown (hc : v.isComposite = true) (hk : v.knows key = false)
    (position : Position) : Stops (knownMember v key position) (unknown v key position) := by
  have hsearch : ¬ (v.isTruthy && !v.isComposite) = true := by simp [hc]
  have hknows : ¬ (v.isTruthy && v.knows key) = true := by simp [hk]
  rw [knownMember, if_neg hsearch, if_neg hknows, unknown]
  cases hv : v.print? with
  | some container => exact (yields_ofOption rfl).bind_stops (stops_fail _)
  | none => exact (stops_fail _).bind

lemma missingKey?_unknown (position : Position) :
    (unknown v key position).missingKey? = some key ↔
      RenderError.IsQuotable key ∧ v.print?.isSome = true := by
  rw [unknown]
  cases v.print? with
  | some container => simpa using RenderError.missingKey?_notDefined key container position
  | none =>
    have hnone : RenderError.wrongKind.missingKey? = none := by decide
    simp [hnone]

lemma missingKey?_of_lookupFault (h : renderFailure source e = .fault (lookupFault source key)) :
    e.missingKey? = some key := by
  -- for the lack of an argument no template is told
  have hargument : ∀ name, e ≠ .missingArgument name := by
    rintro name rfl
    have hnone : (Fault.undefinedKey (.text name) .undefined).context.own? "template" = none := rfl
    have hsome : (lookupFault source key).context.own? "template" = some (.text source.id) := rfl
    rw [Failure.fault.inj h, hsome] at hnone
    exact Option.some_ne_none _ hnone
  obtain ⟨name, hname, hfault⟩ := exists_key_of_fault h hargument
  obtain rfl : key = name := Value.text.inj (congrArg Fault.subject hfault)
  exact hname

lemma lookupFault_of_missingKey? (h : e.missingKey? = some key)
    (hargument : ∀ name, e ≠ .missingArgument name) :
    renderFailure source e = .fault (lookupFault source key) := by
  cases e with
  | missingArgument name => exact absurd rfl (hargument name)
  | _ => simp [renderFailure, h, lookupFault]

lemma unknown_ne_missingArgument (v : Value) (key : String) (position : Position) (name : String) :
    unknown v key position ≠ .missingArgument name := by
  rw [unknown]
  cases v.print? <;> simp

lemma renderFailure_unknown (position : Position) :
    renderFailure source (unknown v key position) = .fault (lookupFault source key) ↔
      RenderError.IsQuotable key ∧ v.print?.isSome = true := by
  rw [← missingKey?_unknown position]
  exact ⟨missingKey?_of_lookupFault,
    fun h => lookupFault_of_missingKey? h (unknown_ne_missingArgument v key position)⟩

lemma oneLine_of_render {t : Template}
    (h : t.render c = .error (.fault (lookupFault t.source key))) :
    key.toList.any Blank.isLineEnd = false := by
  rw [Template.render] at h
  split at h
  · exact absurd h (by simp)
  · exact RenderError.missingKey?_oneLine (missingKey?_of_lookupFault (Except.error.inj h))

end Failures

section Renders

variable {c : Value} {names : List String} {key : String}

lemma render_unknown (hn : isPlainPath names = true) (hk : isBracketable key = true)
    (hc : (reached c names).isComposite = true) (serial : Nat) (source : Source)
    (escapes : Bool) :
    ∃ t position, Template.ofText serial source escapes (write [bracketed names key]) = .ok t ∧
      t.source = source ∧ ((reached c names).knows (lookedUp key) = false →
        t.render c =
          .error (renderFailure source (unknown (reached c names) (lookedUp key) position))) := by
  obtain ⟨callee, hcallee, hcompile⟩ := compile_bracketed hn hk
  refine ⟨⟨serial, source, escapes, _⟩, callee.position, by rw [Template.ofText, hcompile], rfl,
    fun hknows => ?_⟩
  let levels := (Program.mk [] [.output true (.mk callee [] [])]).looksOut
  have hstops := output_stops (Render.invoke escapes depthLimit) (rootScope_sees escapes levels c)
    hcallee hn (isNullish_of_isComposite hc) (knownMember_unknown hc hknows callee.position)
  rw [Template.render, run_single rfl rfl hstops]

/-- A tag that looks for a name that is not known fails, and is said to lack that name exactly where
the message quotes it in full and the value it is looked up in has a text. -/
theorem render_bracketed (hn : isPlainPath names = true) (hk : isBracketable key = true)
    (hc : (reached c names).isComposite = true) (hknows : (reached c names).knows key = false)
    (serial : Nat) (source : Source) (escapes : Bool) :
    ∃ t, Template.ofText serial source escapes (write [bracketed names key]) = .ok t ∧
      ((reached c names).knows (lookedUp key) = false → ∃ f, t.render c = .error f) ∧
      (t.render c = .error (.fault (lookupFault source key)) ↔
        RenderError.IsQuotable key ∧ (reached c names).print?.isSome = true) := by
  obtain ⟨t, position, ht, rfl, hrender⟩ := render_unknown hn hk hc serial source escapes
  refine ⟨t, ht, fun hlooked => ⟨_, hrender hlooked⟩, ?_⟩
  cases hline : key.toList.any Blank.isLineEnd with
  | true =>
    -- another name is looked up here, and the record may even know that
    constructor
    · intro h
      exact absurd (oneLine_of_render h) (by simp [hline])
    · rintro ⟨hquotable, -⟩
      exact absurd hquotable.oneLine (by simp [hline])
  | false =>
    have hlooked : lookedUp key = key := by simp [lookedUp, hline]
    rw [hlooked] at hrender
    rw [hrender hknows, ← renderFailure_unknown position]
    exact ⟨Except.error.inj, congrArg Except.error⟩

def quotedName : String := "it's \"new\" \x7d\x7d"

def quotedText : String := "\x7b\x7bbuild.[it's \"new\" \x7d\x7d]\x7d\x7d"

theorem render_bracketed_quotes :
    ∃ t, Template.ofText 0 (.inline quotedText) false quotedText = .ok t ∧
      t.render (.record 2 [("build", .record 1 [])]) =
        .error (.fault (lookupFault (.inline quotedText) quotedName)) := by
  have hwrite : write [bracketed ["build"] quotedName] = quotedText := by decide
  have hquotable : RenderError.IsQuotable quotedName :=
    ⟨by decide, by decide, fun h => absurd h.length_le (by decide)⟩
  have hplain : isPlainPath ["build"] = true := by decide
  have hkey : isBracketable quotedName = true := by decide
  have hrecord : (reached (.record 2 [("build", .record 1 [])]) ["build"]).isComposite = true := rfl
  obtain ⟨t, ht, -, hrender⟩ := render_bracketed hplain hkey hrecord (by decide) 0
    (.inline quotedText) false
  rw [hwrite] at ht
  exact ⟨t, ht, hrender.mpr ⟨hquotable, rfl⟩⟩

def emptyText : String := "\x7b\x7ba.[]\x7d\x7d"

theorem render_bracketed_empty :
    ∃ t, Template.ofText 0 (.inline emptyText) false emptyText = .ok t ∧
      (∃ f, t.render (.record 2 [("a", .record 1 [])]) = .error f) ∧
      ∀ context, t.render (.record 2 [("a", .record 1 [])]) ≠
        .error (.fault (.undefinedKey (.text "") context)) := by
  have hwrite : write [bracketed ["a"] ""] = emptyText := by decide
  have hplain : isPlainPath ["a"] = true := by decide
  have hrecord : (reached (.record 2 [("a", .record 1 [])]) ["a"]).isComposite = true := rfl
  have hkey : isBracketable "" = true := rfl
  have hlooked : lookedUp "" = "" := rfl
  obtain ⟨t, position, ht, -, hrender⟩ := render_unknown hplain hkey hrecord 0 (.inline emptyText)
    false
  rw [hwrite] at ht
  rw [hlooked] at hrender
  refine ⟨t, ht, ⟨_, hrender (by decide)⟩, fun context h => ?_⟩
  rw [hrender (by decide)] at h
  obtain ⟨name, hname, hfault⟩ :=
    exists_key_of_fault (Except.error.inj h) (unknown_ne_missingArgument _ _ _)
  obtain rfl : "" = name := Value.text.inj (congrArg Fault.subject hfault)
  exact ((missingKey?_unknown position).mp hname).1.ne_empty rfl

end Renders

end BuildNotice.Template
