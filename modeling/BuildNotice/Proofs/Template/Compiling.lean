import BuildNotice.Template.Compile
import BuildNotice.Proofs.Template.Parsing
import Mathlib.Data.List.Forall2

/-! Written templates in which every tag of a block has a line of its own. -/

namespace BuildNotice.Template

open Text.Blank

namespace Written

inductive Piece.Compiles : Piece → Statement → Prop
  | text (s : String) : Compiles (.text s) (.content s)
  | output {names : List String} {args : List Term} {callee : Path} {es : List Expr} :
      callee.Names names → ReadAll args es →
      Compiles (.output names args) (.output true (.mk callee es []))
  | block {helper : String} {args : List Term} {body : List Piece} {callee : Path}
      {es : List Expr} {ss : List Statement} :
      callee.Names [helper] → ReadAll args es → args ≠ [] → List.Forall₂ Compiles body ss →
      Compiles (.block helper args body none) (.block (.mk callee es []) (some (.mk [] ss)) none)

lemma eq_nil_of_readAll {es : List Expr} (h : ReadAll [] es) : es = [] := by
  cases es with
  | nil => rfl
  | cons e es => exact absurd h (by simp [ReadAll])

lemma ne_nil_of_readAll {ts : List Term} {es : List Expr} (h : ReadAll ts es) (hts : ts ≠ []) :
    es ≠ [] := by
  rintro rfl
  cases ts with
  | nil => exact hts rfl
  | cons t ts => exact absurd h (by simp [ReadAll])

abbrev Compile (pieces : List Piece) (ss : List Statement) : Prop :=
  List.Forall₂ Piece.Compiles pieces ss

def belowBreak (s : String) : String :=
  String.ofList (Layout.dropBreak (s.toList.dropWhile isSpaceOrTab))

def startsWithBreak : List Piece → Bool
  | .text s :: _ => s.toList.head? == some '\n'
  | _ => false

def Piece.breaks : Piece → Bool
  | .text s => s.toList.getLast? == some '\n'
  | _ => false

def breaksAfter (begun : Bool) : List Piece → Bool
  | [] => begun
  | p :: ps => breaksAfter p.breaks ps

mutual

/-- Every tag of a block has a line of its own; `begun` and `ended` say whether a line begins before
the piece and ends after it. -/
def Piece.standsAlone (begun ended : Bool) : Piece → Bool
  | .block _ args body none =>
    !args.isEmpty && begun && ended && startsWithBreak body && breaksAfter false body &&
      standAlone false body
  | .block _ _ _ (some _) => false
  | _ => true

def standAlone (begun : Bool) : List Piece → Bool
  | [] => true
  | p :: ps => p.standsAlone begun (startsWithBreak ps) && standAlone p.breaks ps

end

def Piece.isBlock : Piece → Bool
  | .block _ _ _ _ => true
  | _ => false

mutual

def Piece.laid (below : Bool) : Piece → Piece
  | .text s => .text (if below then belowBreak s else s)
  | .output names args => .output names args
  | .block helper args body alternative => .block helper args (laid true body) alternative

def laid (below : Bool) : List Piece → List Piece
  | [] => []
  | p :: ps => p.laid below :: laid p.isBlock ps

end

end Written

open Written

namespace Layout

lemma onFirst_id (ns : List Node) : onFirst (fun c => c) ns = ns := by
  cases ns with
  | nil => rfl
  | cons n ns => cases n <;> rfl

lemma dropBreak_suffix (cs : List Char) : dropBreak cs <:+ cs := by
  unfold dropBreak
  split
  · exact (List.suffix_cons _ _).trans (List.suffix_cons _ _)
  · exact List.suffix_cons _ _
  · exact List.suffix_cons _ _
  · exact List.suffix_refl _

lemma dropEndWhile_append_singleton {p : Char → Bool} {c : Char} (hc : p c = false)
    (cs : List Char) : dropEndWhile p (cs ++ [c]) = cs ++ [c] := by
  simp [dropEndWhile, hc]

def contentOf (below : Bool) (s : String) : Content :=
  if below then cutFront .line (.ofText s) else .ofText s

lemma contentOf_written (below : Bool) (s : String) : (contentOf below s).written = s.toList := by
  cases below <;> rfl

lemma contentOf_suffix (below : Bool) (s : String) : (contentOf below s).text <:+ s.toList := by
  cases below with
  | false => exact List.suffix_refl _
  | true => exact (dropBreak_suffix _).trans (List.dropWhile_suffix _)

lemma toStatement_contentOf (below : Bool) (s : String) :
    toStatement (.content (contentOf below s)) = .content (if below then belowBreak s else s) := by
  cases below <;> simp [contentOf, toStatement, cutFront, belowBreak, Content.ofText]

def Breaks : List Node → Prop
  | .content c :: _ => c.written.getLast? = some '\n' ∧ c.text <:+ c.written
  | _ => False

lemma cutBack_line {c : Content} (hw : c.written.getLast? = some '\n')
    (ht : c.text <:+ c.written) : cutBack .line c = c := by
  have htext : dropEndWhile isSpaceOrTab c.text = c.text := by
    obtain ⟨before, hbefore⟩ := ht
    rcases List.eq_nil_or_concat c.text with hn | ⟨cs, x, hx⟩
    · rw [hn]
      rfl
    · rw [List.concat_eq_append] at hx
      obtain rfl : x = '\n' := by
        rw [← hbefore, hx, ← List.append_assoc, List.getLast?_concat] at hw
        exact Option.some.inj hw
      have hbreak : isSpaceOrTab '\n' = false := by decide
      rw [hx, dropEndWhile_append_singleton hbreak]
  rw [cutBack]
  cases hc : c.backCut with
  | true => simp
  | false => simp [htext, ← hc]

lemma endsLine_of_getLast? {cs : List Char} (h : cs.getLast? = some '\n') :
    endsLine cs = true := by
  obtain ⟨before, rfl⟩ := List.getLast?_eq_some_iff.mp h
  have hblank : isBlank '\n' = true := by decide
  simp [endsLine, takeEndWhile, hblank]

lemma beginsLine_of_head? {cs : List Char} (h : cs.head? = some '\n') :
    beginsLine cs = true := by
  obtain ⟨rest, rfl⟩ := List.head?_eq_some_iff.mp h
  have hblank : isBlank '\n' = true := by decide
  simp [beginsLine, hblank]

lemma Breaks.exists {before : List Node} (h : Breaks before) :
    ∃ c rest, before = .content c :: rest ∧ c.written.getLast? = some '\n' ∧
      c.text <:+ c.written := by
  cases before with
  | nil => exact absurd h id
  | cons n rest =>
    cases n with
    | content c => exact ⟨c, rest, rfl, h.1, h.2⟩
    | _ => exact absurd h id

lemma Breaks.lineBefore {before : List Node} (h : Breaks before) (root : Bool) :
    lineBefore root before = true := by
  obtain ⟨c, rest, rfl, hw, -⟩ := h.exists
  simp [Layout.lineBefore, endsLine_of_getLast? hw]

lemma Breaks.onFirst_cutBack {before : List Node} (h : Breaks before) :
    onFirst (cutBack .line) before = before := by
  obtain ⟨c, rest, rfl, hw, ht⟩ := h.exists
  simp [onFirst, onContent, cutBack_line hw ht]

def due (below : Bool) : List Cut := if below then [.line] else []

lemma due_text (below : Bool) (s : String) :
    (due below).foldl (fun c cut => cutFront cut c) (.ofText s) = contentOf below s := by
  cases below <;> rfl

lemma breaks_contentOf (below : Bool) {s : String} (h : s.toList.getLast? = some '\n')
    (before : List Node) : Breaks (.content (contentOf below s) :: before) := by
  refine ⟨?_, ?_⟩
  · rw [contentOf_written, h]
  · rw [contentOf_written]
    exact contentOf_suffix below s

lemma exists_text_of_startsWithBreak {ps : List Piece} {ns : List Node} (h : PiecesRead ps ns)
    (hs : startsWithBreak ps = true) :
    ∃ s ps' ns', ps = .text s :: ps' ∧ ns = .content (.ofText s) :: ns' ∧ PiecesRead ps' ns' ∧
      s.toList.head? = some '\n' := by
  cases ps with
  | nil => exact absurd hs (by simp [startsWithBreak])
  | cons p ps =>
    obtain ⟨n, ns, rfl, hn, hns⟩ := h.cons
    cases p with
    | text s =>
      obtain rfl := hn.of_text
      exact ⟨s, ps, ns, rfl, rfl, hns, by simpa [startsWithBreak] using hs⟩
    | _ => exact absurd hs (by simp [startsWithBreak])

lemma lineAfter_content {s : String} (h : s.toList.head? = some '\n') (root : Bool)
    (ns : List Node) : lineAfter root (.content (.ofText s) :: ns) = true := by
  have hbegins : beginsLine (Content.ofText s).written = true := beginsLine_of_head? h
  simp [lineAfter, hbegins]

lemma Breaks.below {s : String} {ms : List Node}
    (h : Breaks (ms.reverse ++ [.content (.ofText s)])) :
    Breaks (ms.reverse ++ [.content (contentOf true s)]) := by
  cases hr : ms.reverse with
  | nil =>
    rw [hr] at h
    exact breaks_contentOf true h.1 []
  | cons n ns =>
    rw [hr] at h
    cases n with
    | content c => exact h
    | _ => exact absurd h id

lemma settle_block (kind : BlockKind) (ns : List Node) :
    let ms := arrange false [] [] (settleAll ns)
    settle (.block kind (some (.mk [] false ns)) none ⟨.none, .none, .none⟩) =
      (.block kind (some (.mk [] false ms)) none ⟨.none, .none, .none⟩,
        some ⟨.none, lineAfter false ms, lineBefore false ms.reverse, false⟩) := by
  simp [settle, settleOption, settleBody, settleBlock, settleSingle, onNodes, when, Strip.none,
    blockAdvice, Body.nodes]

lemma arrange_block {before : List Node} (hb : Breaks before) (root below : Bool)
    (kind : BlockKind) {s : String} (hs : s.toList.head? = some '\n') {ms : List Node}
    (hms : Breaks (ms.reverse ++ [.content (.ofText s)])) {rest : List (Node × Option Advice)}
    (hrest : lineAfter root ((rest.map (·.1)).take 2) = true) :
    let ns := Node.content (.ofText s) :: ms
    arrange root before (due below) ((.block kind (some (.mk [] false ns)) none
        ⟨.none, .none, .none⟩,
        some ⟨.none, lineAfter false ns, lineBefore false ns.reverse, false⟩) :: rest) =
      arrange root (.block kind (some (.mk [] false (.content (contentOf true s) :: ms))) none
        ⟨.none, .none, .none⟩ :: before) (due true) rest := by
  have hopens : lineAfter false (.content (.ofText s) :: ms) = true := lineAfter_content hs false ms
  have hcloses : lineBefore false (ms.reverse ++ [.content (.ofText s)]) = true :=
    hms.lineBefore false
  have hlast : onLast (cutBack .line) (.content (contentOf true s) :: ms) =
      .content (contentOf true s) :: ms := by
    rw [onLast, List.reverse_cons, hms.below.onFirst_cutBack, ← List.reverse_cons,
      List.reverse_reverse]
  have hfirst : onFirst (cutFront .line) (.content (.ofText s) :: ms) =
      .content (contentOf true s) :: ms := rfl
  have hbefore := hb.onFirst_cutBack
  simp [arrange, onContent, hopens, hcloses, hb.lineBefore root, hrest, when, Strip.none,
    onFrontBody, onBackBody, onNodes, hfirst, hlast, hbefore, due]

lemma arrange_pieces : (ps : List Piece) → (ns : List Node) → PiecesRead ps ns →
    (root below begun : Bool) → (before : List Node) → standAlone begun ps = true →
    (begun = true → Breaks before) →
    ∃ ms, arrange root before (due below) (settleAll ns) = before.reverse ++ ms ∧
      Compile (laid below ps) (toStatements ms) ∧
      (breaksAfter begun ps = true → Breaks (ms.reverse ++ before))
  -- the recursion is on the pieces, and a block needs it twice: for its body and for what follows
  | [], ns, h, root, below, begun, before, _, hb => by
    obtain rfl := h.nil
    refine ⟨[], ?_, .nil, hb⟩
    simp [settleAll, arrange]
  | .text s :: ps, ns, h, root, below, begun, before, ha, _ => by
    obtain ⟨n, ns, rfl, hn, hns⟩ := h.cons
    obtain rfl := hn.of_text
    simp only [standAlone, Bool.and_eq_true] at ha
    obtain ⟨ms, harrange, hcompile, hbreaks⟩ := arrange_pieces ps ns hns root false
      (Piece.text s).breaks (.content (contentOf below s) :: before) ha.2
      (fun hl => breaks_contentOf below (by simpa [Piece.breaks] using hl) before)
    refine ⟨.content (contentOf below s) :: ms, ?_, ?_, ?_⟩
    · simp only [settleAll, settle, arrange, onContent, due_text]
      rw [show [] = due false from rfl, harrange]
      simp
    · rw [toStatements, toStatement_contentOf]
      exact .cons (.text _) hcompile
    · intro hl
      simpa using hbreaks hl
  | .output names args :: ps, ns, h, root, below, begun, before, ha, _ => by
    obtain ⟨n, ns, rfl, hn, hns⟩ := h.cons
    obtain ⟨callee, es, rfl, hcallee, hes⟩ := hn.of_output
    simp only [standAlone, Bool.and_eq_true] at ha
    obtain ⟨ms, harrange, hcompile, hbreaks⟩ := arrange_pieces ps ns hns root false false
      (.output true (.mk callee es []) .none :: before) ha.2 (by simp)
    refine ⟨.output true (.mk callee es []) .none :: ms, ?_, ?_, ?_⟩
    · simpa [settleAll, settle, arrange, onContent, when, onFirst_id, Strip.none, due]
        using harrange
    · exact .cons (.output hcallee hes) hcompile
    · intro hl
      simpa using hbreaks hl
  | .block helper args body none :: ps, ns, h, root, below, begun, before, ha, hb => by
    obtain ⟨n, ns, rfl, hn, hns⟩ := h.cons
    obtain ⟨callee, es, nodes, rfl, hcallee, hes, hbody⟩ := hn.of_block
    simp only [standAlone, Piece.standsAlone, Bool.and_eq_true, Bool.not_eq_true'] at ha
    obtain ⟨⟨⟨⟨⟨⟨hargs, rfl⟩, hnext⟩, hopens⟩, hcloses⟩, halone⟩, hafter⟩ := ha
    obtain ⟨s, body, nodes, rfl, rfl, hnodes, hs⟩ := exists_text_of_startsWithBreak hbody hopens
    obtain ⟨t, after, rest, rfl, rfl, hrest, ht⟩ := exists_text_of_startsWithBreak hns hnext
    simp only [standAlone, Bool.and_eq_true] at halone
    obtain ⟨ms, hms, hss, hmsBreaks⟩ := arrange_pieces body nodes hnodes false false
      (Piece.text s).breaks [.content (.ofText s)] halone.2
      (fun hl => breaks_contentOf false (by simpa [Piece.breaks] using hl) [])
    -- the outer tags see the body as it was laid out by itself, and cut only its front
    let block : Node := .block (.section (.mk callee es []))
      (some (.mk [] false (.content (contentOf true s) :: ms))) none ⟨.none, .none, .none⟩
    obtain ⟨ns, harrange, hcompile, hbreaks⟩ := arrange_pieces (.text t :: after)
      (.content (.ofText t) :: rest) hns root true false (block :: before) hafter (by simp)
    refine ⟨block :: ns, ?_, ?_, ?_⟩
    · have hinner : arrange false [] [] (settleAll (.content (.ofText s) :: nodes)) =
          .content (.ofText s) :: ms := by
        simpa [settleAll, settle, arrange, onContent, due] using hms
      rw [settleAll, settle_block, hinner]
      rw [arrange_block (hb rfl) root below _ hs (hmsBreaks hcloses) ?_, harrange]
      · simp
      · exact lineAfter_content ht root _
    · refine .cons (.block hcallee hes (by simpa using hargs) ?_) hcompile
      change Compile (.text (belowBreak s) :: laid false body)
        (toStatement (.content (contentOf true s)) :: toStatements ms)
      rw [toStatement_contentOf]
      exact .cons (.text _) hss
    · intro hl
      simpa using hbreaks hl
  | .block helper args body (some alternative) :: ps, _, _, root, below, begun, before, ha, _ =>
    absurd ha (by simp [standAlone, Piece.standsAlone])

end Layout

mutual

lemma Written.Piece.Compiles.check : (p : Piece) → (s : Statement) → p.Compiles s →
    s.check = .ok ()
  | _, _, .text s => rfl
  | _, _, .output _ _ => rfl
  | .block _ _ body _, .block _ (some (.mk [] ss)) none, .block _ _ _ hss => by
    simp [Statement.check, checkOption, Program.check, Written.Compile.checkAll body ss hss, bind,
      Except.bind]

lemma Written.Compile.checkAll : (ps : List Piece) → (ss : List Statement) → Compile ps ss →
    Template.checkAll ss = .ok ()
  | [], [], .nil => rfl
  | p :: ps, s :: ss, .cons hp hps => by
    simp [Template.checkAll, Written.Piece.Compiles.check p s hp,
      Written.Compile.checkAll ps ss hps, bind, Except.bind]

end

lemma compile_laid {pieces : List Piece} (h : isPlain pieces = true)
    (ha : standAlone false pieces = true) :
    ∃ ss, compile (write pieces) = .ok (.mk [] ss) ∧ Compile (laid false pieces) ss := by
  obtain ⟨ns, hparse, hreads⟩ := Parser.parse_write h
  obtain ⟨ms, harrange, hss, -⟩ :=
    Layout.arrange_pieces pieces ns hreads true false false [] ha (by simp)
  have hms : Layout.arrange true [] [] (Layout.settleAll ns) = ms := harrange
  have hprogram : Layout.program ns = .mk [] (Layout.toStatements ms) := by
    rw [Layout.program, hms]
  refine ⟨Layout.toStatements ms, ?_, hss⟩
  simp [compile, hparse, hprogram, Program.check, Compile.checkAll _ _ hss, bind, Except.bind]

def Written.Piece.isInline (p : Piece) : Bool := !p.isBlock

lemma Written.standAlone_inline {pieces : List Piece} (h : pieces.all Piece.isInline = true)
    (begun : Bool) : standAlone begun pieces = true ∧ laid false pieces = pieces := by
  induction pieces generalizing begun with
  | nil => exact ⟨rfl, rfl⟩
  | cons p pieces ih =>
    simp only [List.all_cons, Bool.and_eq_true] at h
    obtain ⟨ha, hl⟩ := ih h.2 p.breaks
    cases p with
    | text s => exact ⟨ha, by simp [laid, Piece.laid, Piece.isBlock, hl]⟩
    | output names args => exact ⟨ha, by simp [laid, Piece.laid, Piece.isBlock, hl]⟩
    | block helper args body alternative =>
      exact absurd h.1 (by simp [Piece.isInline, Piece.isBlock])

lemma compile_write {pieces : List Piece} (h : isPlain pieces = true)
    (hi : pieces.all Piece.isInline = true) :
    ∃ ss, compile (write pieces) = .ok (.mk [] ss) ∧ Compile pieces ss := by
  obtain ⟨ha, hl⟩ := standAlone_inline hi false
  obtain ⟨ss, hcompile, hss⟩ := compile_laid h ha
  rw [hl] at hss
  exact ⟨ss, hcompile, hss⟩

lemma compile_text {s : String} (hne : s ≠ "") (hs : s.toList.all Lexer.isLiteralChar = true) :
    compile s = .ok (.mk [] [.content s]) := by
  have hplain : isPlain [.text s] = true := by
    simp [isPlain, Piece.isPlain, Piece.isText, startsWithText, hne, hs]
  have hwrite : write [.text s] = s := by simp [write, chars, Piece.chars]
  obtain ⟨ss, hcompile, hss⟩ := compile_write hplain rfl
  obtain rfl : ss = [.content s] := by
    cases hss with
    | cons hp hnil =>
      cases hp
      cases hnil
      rfl
  rwa [hwrite] at hcompile

end BuildNotice.Template
