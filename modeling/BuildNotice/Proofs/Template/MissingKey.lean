import BuildNotice.Store
import BuildNotice.Proofs.Template.Outputs

namespace BuildNotice.Template

open Render Written
open Value (sum?)

def Written.Piece.isLookup : Piece → Bool
  | .text _ => true
  | .output names args => args.isEmpty && looksUp names
  | .block _ _ _ _ => false

def Written.Piece.missing? (c : Value) : Piece → Option String
  | .output names _ => Template.missing? c names
  | _ => none

def Written.Piece.added? (escapes : Bool) (c : Value) : Piece → Option Value
  | .text s => some (.text s)
  | .output names _ => Template.added? escapes (reached c names)
  | .block _ _ _ _ => none

def Written.text? (escapes : Bool) (c : Value) (pieces : List Piece) : Option String := do
  let sum ← sum? (← pieces.mapM (Piece.added? escapes c))
  sum.print?

lemma exists_added (escapes : Bool) {v : Value} (h : v.isPrintable = true) :
    ∃ w, added? escapes v = some w ∧ w.isPrintable = true := by
  obtain ⟨s, hs⟩ := Value.exists_print h
  cases escapes with
  | true => cases hn : v.isNullish <;> simp [added?, Escape.value?, hn, hs, Value.isPrintable]
  | false => cases hn : v.isNullish <;> simp [added?, hn, h, Value.isPrintable]

section Pieces

variable {invoke : Invoke} {sc : Scope} {c : Value}

lemma piece_yields (h : sc.Sees c) (hc : c.isNullish = false) (hpr : c.isPrintable = true)
    {p : Piece} {s : Statement} (hp : p.isPlain = true) (hl : p.isLookup = true)
    (hs : p.Compiles s) (hm : p.missing? c = none) :
    ∃ v, p.added? sc.escapes c = some v ∧ v.isPrintable = true ∧
      Yields (statement invoke sc s) (some v) := by
  cases hs with
  | text s =>
    have hne : s ≠ "" := by
      simp only [Piece.isPlain, Bool.and_eq_true] at hp
      simpa using hp.1
    exact ⟨.text s, rfl, rfl, content_yields hne⟩
  | @output names args callee es hcallee hes =>
    simp only [Piece.isPlain, Bool.and_eq_true] at hp
    simp only [Piece.isLookup, Bool.and_eq_true, List.isEmpty_iff] at hl
    obtain ⟨rfl, hl⟩ := hl
    obtain rfl := eq_nil_of_readAll hes
    have hlookup := lookup_strict_yields h hcallee hp.1 hc hm
    obtain ⟨w, hw, hwp⟩ := exists_added sc.escapes (reached_isPrintable hpr names)
    refine ⟨w, hw, hwp, outputStatement_yields (output_yields ?_ hw)⟩
    rw [outputValue_lookup h hcallee hl]
    exact hlookup
  | block hcallee hes hargs hbody => exact absurd hl (by simp [Piece.isLookup])

lemma piece_stops (h : sc.Sees c) (hc : c.isNullish = false) (hpr : c.isPrintable = true)
    {p : Piece} {s : Statement} (hp : p.isPlain = true) (hl : p.isLookup = true)
    (hs : p.Compiles s) {key : String} (hm : p.missing? c = some key) :
    ∃ e, Stops (statement invoke sc s) e ∧ e.Lacks key ∧ isIdentifier key = true := by
  cases hs with
  | text s => exact absurd hm (by simp [Piece.missing?])
  | @output names args callee es hcallee hes =>
    simp only [Piece.isPlain, Bool.and_eq_true] at hp
    simp only [Piece.isLookup, Bool.and_eq_true, List.isEmpty_iff] at hl
    obtain ⟨rfl, hl⟩ := hl
    obtain rfl := eq_nil_of_readAll hes
    obtain ⟨e, he, hlacks⟩ := lookup_strict_stops h hcallee hp.1 hc hpr hm
    have hkey : isIdentifier key = true := by
      have hnames := hp.1
      simp only [isPlainPath, Bool.and_eq_true, List.all_eq_true] at hnames
      exact hnames.2 key (missing?_mem hm)
    refine ⟨e, outputStatement_stops ?_, hlacks, hkey⟩
    rw [outputValue_lookup h hcallee hl]
    exact he
  | block hcallee hes hargs hbody => exact absurd hl (by simp [Piece.isLookup])

lemma pieces_give (invoke : Invoke) (h : sc.Sees c) (hc : c.isNullish = false)
    (hpr : c.isPrintable = true) {pieces : List Piece} {ss : List Statement}
    (hs : Compile pieces ss)
    (hp : ∀ p ∈ pieces, p.isPlain = true ∧ p.isLookup = true)
    (hm : ∀ p ∈ pieces, p.missing? c = none) :
    ∃ vs, pieces.mapM (Piece.added? sc.escapes c) = some vs ∧ (∀ v ∈ vs, v.isPrintable = true) ∧
      Give invoke sc ss (vs.map some) := by
  induction hs with
  | nil => exact ⟨[], rfl, by simp, .nil⟩
  | @cons p s pieces ss hps _ ih =>
    simp only [List.mem_cons, forall_eq_or_imp] at hp hm
    obtain ⟨v, hv, hvp, hyields⟩ := piece_yields h hc hpr hp.1.1 hp.1.2 hps hm.1
    obtain ⟨vs, hvs, hvsp, hgive⟩ := ih hp.2 hm.2
    refine ⟨v :: vs, by simp [List.mapM_cons, hv, hvs], ?_, .cons hyields hgive⟩
    simp only [List.mem_cons, forall_eq_or_imp]
    exact ⟨hvp, hvsp⟩

lemma pieces_stop (invoke : Invoke) (h : sc.Sees c) (hc : c.isNullish = false)
    (hpr : c.isPrintable = true) {pieces : List Piece} {ss : List Statement}
    (hs : Compile pieces ss)
    (hp : ∀ p ∈ pieces, p.isPlain = true ∧ p.isLookup = true) {key : String}
    (hm : pieces.findSome? (Piece.missing? c) = some key) :
    ∃ (before : List Statement) (s : Statement) (after : List Statement) (vs : List Value)
      (e : RenderError), ss = before ++ s :: after ∧ Give invoke sc before (vs.map some) ∧
        (∀ v ∈ vs, v.isPrintable = true) ∧ Stops (statement invoke sc s) e ∧ e.Lacks key ∧
        isIdentifier key = true := by
  induction hs with
  | nil => exact absurd hm (by simp)
  | @cons p s pieces ss hps _ ih =>
    simp only [List.mem_cons, forall_eq_or_imp] at hp
    rw [List.findSome?_cons] at hm
    split at hm
    · next k hk =>
      obtain rfl := Option.some.inj hm
      obtain ⟨e, he, hlacks, hkey⟩ := piece_stops h hc hpr hp.1.1 hp.1.2 hps hk
      exact ⟨[], s, ss, [], e, rfl, .nil, by simp, he, hlacks, hkey⟩
    · next hk =>
      obtain ⟨v, -, hvp, hyields⟩ := piece_yields h hc hpr hp.1.1 hp.1.2 hps hk
      obtain ⟨before, t, after, vs, e, rfl, hgive, hvs, he, hlacks, hkey⟩ := ih hp.2 hm
      refine ⟨s :: before, t, after, v :: vs, e, rfl, .cons hyields hgive, ?_, he, hlacks, hkey⟩
      simp only [List.mem_cons, forall_eq_or_imp]
      exact ⟨hvp, hvs⟩

end Pieces

lemma isPlain_of_mem {pieces : List Piece} (h : isPlain pieces = true) {p : Piece}
    (hp : p ∈ pieces) : p.isPlain = true := by
  induction pieces with
  | nil => exact absurd hp (by simp)
  | cons q pieces ih =>
    simp only [isPlain, Bool.and_eq_true] at h
    rcases List.mem_cons.mp hp with rfl | hp
    · exact h.1.1
    · exact ih h.2 hp

lemma isInline_of_isLookup {p : Piece} (h : p.isLookup = true) : p.isInline = true := by
  cases p with
  | block helper args body alternative => exact absurd h (by simp [Piece.isLookup])
  | _ => rfl

section Whole

variable {escapes : Bool} {label : Nat} {fields : Value.Fields} {pieces : List Piece}
  {ss : List Statement}

lemma run_text (hc : (Value.record label fields).isPrintable = true) (hs : Compile pieces ss)
    (hp : ∀ p ∈ pieces, p.isPlain = true ∧ p.isLookup = true)
    (hm : pieces.findSome? (Piece.missing? (.record label fields)) = none) :
    ∃ t, text? escapes (.record label fields) pieces = some t ∧
      run escapes (.mk [] ss) (.record label fields) = .ok t := by
  have hsees := rootScope_sees escapes (Program.mk [] ss).looksOut (.record label fields)
  obtain ⟨vs, hvs, hvsp, hgive⟩ :=
    pieces_give (Render.invoke escapes depthLimit) hsees rfl hc hs hp
      (List.findSome?_eq_none_iff.mp hm)
  obtain ⟨w, hw, hwp⟩ := Value.exists_sum hvsp
  obtain ⟨t, ht⟩ := Value.exists_print hwp
  refine ⟨t, ?_, ?_⟩
  · have hvs' : pieces.mapM (Piece.added? escapes (.record label fields)) = some vs := hvs
    simp [text?, hvs', hw, ht]
  · apply run_yields hs.declares _ ht
    apply statements_yields (hs.uninterrupted _) hgive
    rw [reduceOption_map_some, hw]

lemma run_missing (hc : (Value.record label fields).isPrintable = true) (hs : Compile pieces ss)
    (hp : ∀ p ∈ pieces, p.isPlain = true ∧ p.isLookup = true) {key : String}
    (hm : pieces.findSome? (Piece.missing? (.record label fields)) = some key) :
    ∃ e, run escapes (.mk [] ss) (.record label fields) = .error e ∧ e.Lacks key ∧
      isIdentifier key = true := by
  have hsees := rootScope_sees escapes (Program.mk [] ss).looksOut (.record label fields)
  obtain ⟨before, s, after, vs, e, rfl, hgive, hvs, he, hlacks, hkey⟩ :=
    pieces_stop (Render.invoke escapes depthLimit) hsees rfl hc hs hp hm
  refine ⟨e, ?_, hlacks, hkey⟩
  apply run_stops hs.declares
  exact statements_stops (hs.uninterrupted _) hgive (by rwa [reduceOption_map_some]) he

end Whole

def Written.Renders (t : Template) (c : Value) (pieces : List Piece) : Prop :=
  match pieces.findSome? (Piece.missing? c) with
  | some key => t.render c =
      .error (.fault (.undefinedKey (.text key)
        (Value.ofFields [("template", .text t.source.id)])))
  | none => ∃ text, Written.text? t.escapes c pieces = some text ∧ t.render c = .ok text

lemma renders_compiled {t : Template} {label : Nat} {fields : Value.Fields} {pieces : List Piece}
    {ss : List Statement} (ht : t.program = .mk [] ss)
    (hc : (Value.record label fields).isPrintable = true) (hs : Compile pieces ss)
    (hp : ∀ p ∈ pieces, p.isPlain = true ∧ p.isLookup = true) :
    Renders t (.record label fields) pieces := by
  rw [Renders]
  split
  · next key hm =>
    obtain ⟨e, he, hlacks, hkey⟩ := run_missing hc hs hp hm
    rw [Template.render, ht, he]
    exact congrArg Except.error (hlacks.renderFailure (RenderError.isKey_of_isIdentifier hkey) t.source)
  · next hm =>
    obtain ⟨text, htext, hrun⟩ := run_text hc hs hp hm
    refine ⟨text, htext, ?_⟩
    rw [Template.render, ht, hrun]

lemma write_ne_empty {pieces : List Piece} (hne : pieces ≠ []) (h : isPlain pieces = true) :
    write pieces ≠ "" := by
  obtain ⟨p, ps, rfl⟩ := List.exists_cons_of_ne_nil hne
  have hp := isPlain_of_mem h List.mem_cons_self
  rw [write, Ne, String.ofList_eq_empty_iff, chars, List.append_eq_nil_iff, not_and]
  intro hchars
  exfalso
  cases p with
  | text s =>
    obtain rfl : s = "" := by simpa [Piece.chars] using hchars
    simp [Piece.isPlain] at hp
  | output names args => simp [Piece.chars] at hchars
  | block helper args body alternative => simp [Piece.chars] at hchars

theorem resolve_renders_lookups (store : Store) (disk : Disk) {request : Request}
    {pieces : List Piece} (hcontent : request.content = .text (write pieces))
    (hconflict : request.hasConflict = false) (hne : pieces ≠ [])
    (hplain : isPlain pieces = true) (hlookup : pieces.all Piece.isLookup = true) :
    ∃ r, store.resolve disk request = .ok r ∧ r.template.source = .inline (write pieces) ∧
      r.template.escapes = request.escapes ∧
      ∀ label fields, (Value.record label fields).isPrintable = true →
        Renders r.template (.record label fields) pieces := by
  have hinline : pieces.all Piece.isInline = true := by
    rw [List.all_eq_true] at hlookup ⊢
    exact fun p hp => isInline_of_isLookup (hlookup p hp)
  obtain ⟨ss, hcompile, hss⟩ := compile_write hplain hinline
  have htruthy : (Value.text (write pieces)).isTruthy = true := by
    simpa [Value.isTruthy] using write_ne_empty hne hplain
  let t : Template := ⟨store.next, .inline (write pieces), request.escapes, .mk [] ss⟩
  refine ⟨⟨t, { store with next := store.next + 1 }, [Store.compiled request t]⟩, ?_, rfl, rfl, ?_⟩
  · simp [Store.resolve, hconflict, hcontent, htruthy, Store.resolveContent, Template.ofText,
      hcompile, bind, Except.bind, t]
  · intro label fields hc
    refine renders_compiled rfl hc hss fun p hp => ⟨isPlain_of_mem hplain hp, ?_⟩
    exact List.all_eq_true.mp hlookup p hp

theorem resolve_renders_nested_key :
    ∃ r, Store.empty.resolve ⟨"/", "/", []⟩
        ⟨.text "by \x7b\x7bbuild.owner.name\x7d\x7d", .undefined, .undefined, .text "unused.txt",
          .undefined⟩ = .ok r ∧
      r.template.render (.record 2 [("build", .record 1 [("owner", .text "ann")])]) =
        .error (.fault (.undefinedKey (.text "name") (Value.ofFields
          [("template", .text "inline:by \x7b\x7bbuild.owner.name\x7d\x7d")]))) ∧
      r.template.render (.record 2 [("build", .record 1 [("owner", .null)])]) =
        .error (.fault (.undefinedKey (.text "name") (Value.ofFields
          [("template", .text "inline:by \x7b\x7bbuild.owner.name\x7d\x7d")]))) := by
  obtain ⟨r, hr, hsource, -, hrender⟩ :=
    @resolve_renders_lookups Store.empty ⟨"/", "/", []⟩
      ⟨.text "by \x7b\x7bbuild.owner.name\x7d\x7d", .undefined, .undefined, .text "unused.txt",
        .undefined⟩ [.text "by ", .output ["build", "owner", "name"] []]
      (congrArg Value.text (by decide)) rfl (by simp) (by decide) (by decide)
  have hid : r.template.source.id = "inline:by \x7b\x7bbuild.owner.name\x7d\x7d" := by
    rw [hsource]
    decide
  refine ⟨r, hr, ?_, ?_⟩
  · rw [← hid]
    exact hrender 2 [("build", .record 1 [("owner", .text "ann")])] (by decide)
  · rw [← hid]
    exact hrender 2 [("build", .record 1 [("owner", .null)])] (by decide)

theorem resolve_nul_fails :
    "\x00".toList.all (fun c => c != '\x7b' && c != '\x7d' && c != '\\') = true ∧
      [Piece.text "\x00"].findSome? (Piece.missing? (.record 1 [])) = none ∧
      Store.empty.resolve ⟨"/", "/", []⟩
        ⟨.text "\x00", .undefined, .undefined, .text "unused.txt", .undefined⟩ =
          .error (syntaxFailure (.inline "\x00") (.unrecognized 1)) := by
  have htokens : Lexer.tokens "\x00" = [⟨.unrecognized, .start, 1⟩] := by
    simp [Lexer.tokens, Lexer.scan, Lexer.step, Lexer.inText, Lexer.inText.untilNul, Lexer.isNul,
      Text.Search.breakAt?, Text.Search.startsWith, Text.Search.after?, Lexer.braces,
      List.replicate_succ]
  have hcompile : compile "\x00" = .error (.unrecognized 1) := by
    simp [compile, Parser.parse, htokens, Parser.fuelFor, Parser.nodes, Parser.startsNode,
      Parser.unexpected, bind, Except.bind, Position.start]
  refine ⟨by decide, rfl, ?_⟩
  simp [Store.resolve, Request.hasConflict, Value.isTruthy, Store.resolveContent,
    Template.ofText, hcompile, bind, Except.bind]

end BuildNotice.Template
