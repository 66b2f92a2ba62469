import BuildNotice.Proofs.Template.AddedEntries
import BuildNotice.Proofs.Template.Escaping
import BuildNotice.Proofs.Template.PlainText

namespace BuildNotice.Template

open Render Written

/-- Which pieces a template may be written from: characters of its texts, tags and blocks. -/
structure Written.Kinds where
  char : Char → Bool
  output : List String → List Term → Bool
  block : String → List Term → Bool

mutual

def Written.Piece.isOf (k : Kinds) : Piece → Bool
  | .text s => s.toList.all k.char
  | .output names args => k.output names args
  | .block helper args body alternative =>
    k.block helper args && (areOf k body && alternativeIsOf k alternative)

def Written.areOf (k : Kinds) : List Piece → Bool
  | [] => true
  | p :: ps => p.isOf k && areOf k ps

def Written.alternativeIsOf (k : Kinds) : Option (List Piece) → Bool
  | none => true
  | some ps => areOf k ps

end

structure Written.Kinds.Within (k : Kinds) (g : Grammar) : Prop where
  char : ∀ c, k.char c = true → g.char c = true
  output : ∀ names args callee es, k.output names args = true → callee.Names names →
    ReadAll args es → g.output true (.mk callee es []) = true
  block : ∀ helper args callee es, k.block helper args = true → callee.Names [helper] →
    ReadAll args es → g.block (.mk callee es []) = true
  params : g.params [] = true

section Kinds

variable {k : Kinds} {g : Grammar}

mutual

lemma piece_fits (hk : k.Within g) : (p : Piece) → p.isOf k = true → {n : Node} → p.Reads n →
    n.fits g = true
  | .text s, hp, n, h => by
    obtain rfl := h.of_text
    have hall : s.toList.all k.char = true := by simpa [Piece.isOf] using hp
    rw [List.all_eq_true] at hall
    exact List.all_eq_true.mpr fun c hc => hk.char c (hall c hc)
  | .output names args, hp, n, h => by
    obtain ⟨callee, es, rfl, hcallee, hes⟩ := h.of_output
    exact hk.output names args callee es hp hcallee hes
  | .block helper args body alternative, hp, n, h => by
    obtain ⟨callee, es, nodes, other, rfl, hcallee, hes, hbody, hother⟩ := h.exists_block
    simp only [Piece.isOf, Bool.and_eq_true] at hp
    have hmain : (Body.mk [] false nodes).fits g = true :=
      Body.fits_mk.mpr ⟨hk.params, pieces_fit hk body hp.2.1 hbody⟩
    exact Node.fits_section.mpr ⟨hk.block helper args callee es hp.1 hcallee hes, hmain,
      alternative_fits hk alternative hp.2.2 hother⟩

lemma pieces_fit (hk : k.Within g) : (ps : List Piece) → areOf k ps = true → {ns : List Node} →
    PiecesRead ps ns → nodesFit g ns = true
  | [], _, ns, h => by
    rw [h.nil]
    rfl
  | p :: ps, hps, ns, h => by
    obtain ⟨n, rest, rfl, hn, hrest⟩ := h.cons
    rw [areOf, Bool.and_eq_true] at hps
    exact nodesFit_cons.mpr ⟨piece_fits hk p hps.1 hn, pieces_fit hk ps hps.2 hrest⟩

lemma alternative_fits (hk : k.Within g) : (alternative : Option (List Piece)) →
    alternativeIsOf k alternative = true → {other : Option Body} →
    AlternativeReads alternative other → optionFits g other = true
  | none, _, none, _ => rfl
  | none, _, some _, h => absurd h (by simp [AlternativeReads])
  | some _, _, none, h => absurd h (by simp [AlternativeReads])
  | some ps, hps, some (.mk params chained nodes), h => by
    obtain ⟨rfl, rfl, hnodes⟩ := h
    have hbody : (Body.mk [] false nodes).fits g = true :=
      Body.fits_mk.mpr ⟨hk.params, pieces_fit hk ps hps hnodes⟩
    exact hbody

end

lemma accepts_write (hk : k.Within g) {ps : List Piece} (hplain : isPlain ps = true)
    (hps : areOf k ps = true) : g.accepts (write ps) = true := by
  obtain ⟨ns, hparse, hreads⟩ := Parser.parse_write hplain
  rw [Grammar.accepts, hparse]
  exact pieces_fit hk ps hps hreads

end Kinds

def escapingKinds : Kinds where
  char c := !Escape.isMarkup c
  output _ _ := true
  block helper _ := (Helper.ofName? helper).all Helper.isBlock

def dottedKinds : Kinds where
  char _ := true
  output names args :=
    match args with
    | [] => isPlainPath names && looksUp names
    | [.path q] => names == ["join"] && isPlainPath q
    | _ => false
  block helper args :=
    match args with
    | [.path q] => isPlainPath q && (Helper.ofName? helper).any Helper.isBlock
    | _ => false

def Written.Term.isString : Term → Bool
  | .string _ => true
  | _ => false

def Written.asks (helpers : List Helper) (name : String) : List Term → Bool
  | .path q :: rest =>
    helpers.any (isHelperName name) && isPlainPath q && rest.all Term.isString
  | _ => false

def keyedKinds : Kinds where
  char _ := true
  output names args :=
    match names, args with
    | names, [] => isPlainPath names
    | [name], args => asks [.join, .has, .property] name args
    | _, _ => false
  block helper args := (Helper.ofName? helper).any Helper.isBlock &&
    match args with
    | [.path q] => isPlainPath q
    | [.call name rest] => asks [.has] name rest
    | _ => false

lemma Path.Names.head_eq {p : Path} {name : String} (hp : p.Names [name]) : p.head = name := by
  simp [Path.head, hp.parts]

lemma escapingKinds_within : escapingKinds.Within escaping where
  char _ hc := hc
  output _ _ _ _ _ _ _ := rfl
  block helper args callee es hblock hcallee _ := by
    have hopens : (Helper.ofName? helper).all Helper.isBlock = true := hblock
    simpa [escaping, Call.callee, hcallee.head_eq] using hopens
  params := rfl

lemma Path.Names.isDotted {p : Path} {names : List String} (hp : p.Names names)
    (hn : isPlainPath names = true) : p.isDotted = true := by
  simp only [isPlainPath, Bool.and_eq_true, List.all_eq_true] at hn
  have hkeys : p.parts.all RenderError.isKey = true := by
    rw [hp.parts, List.all_eq_true]
    exact fun s hs => RenderError.isKey_of_isIdentifier (hn.2 s hs)
  simp [Path.isDotted, hp.data, hp.depth, hkeys]

lemma exists_of_readAll_path {q : List String} {es : List Expr} (h : ReadAll [.path q] es)
    (hq : isPlainPath q = true) (callee : Path) :
    ∃ p, es = [.path p] ∧ (Call.mk callee es []).hasSubject = true := by
  match es, h with
  | [.path p], h =>
    have hp : p.Names q := h.1
    exact ⟨p, rfl, hp.isDotted hq⟩

section Dotted

variable {names : List String} {helper : String} {args : List Term} {callee : Path}
  {es : List Expr}

lemma dottedKinds_output (h : dottedKinds.output names args = true) (hcallee : callee.Names names)
    (hes : ReadAll args es) : dotted.output true (.mk callee es []) = true := by
  simp only [dottedKinds] at h
  split at h
  · obtain rfl := eq_nil_of_readAll hes
    obtain ⟨hplain, hlooks⟩ := Bool.and_eq_true_iff.mp h
    simp [dotted, Call.isBare, Call.callee, hcallee.isDotted hplain, hcallee.isValue hlooks]
  · obtain ⟨hname, hq⟩ := Bool.and_eq_true_iff.mp h
    obtain rfl := beq_iff_eq.mp hname
    obtain ⟨p, rfl, hsubject⟩ := exists_of_readAll_path hes hq callee
    have hjoin : isHelperName "join" .join = true := by decide
    obtain ⟨hsimple, hhead, hof⟩ := isSimple_of_helper hcallee hjoin
    simp [dotted, Call.callee, hsubject, hsimple, hhead, hof]
  · exact absurd h Bool.false_ne_true

lemma dottedKinds_block (h : dottedKinds.block helper args = true) (hcallee : callee.Names [helper])
    (hes : ReadAll args es) : dotted.block (.mk callee es []) = true := by
  simp only [dottedKinds] at h
  split at h
  · obtain ⟨hq, hopens⟩ := Bool.and_eq_true_iff.mp h
    obtain ⟨p, rfl, hsubject⟩ := exists_of_readAll_path hes hq callee
    simp [dotted, Call.callee, hsubject, hcallee.head_eq, hopens]
  · exact absurd h Bool.false_ne_true

lemma dottedKinds_within : dottedKinds.Within dotted where
  char _ _ := rfl
  output _ _ _ _ := dottedKinds_output
  block _ _ _ _ := dottedKinds_block
  params := rfl

end Dotted

lemma Path.Names.isKeyed {p : Path} {names : List String} (hp : p.Names names)
    (hn : isPlainPath names = true) : p.isKeyed = true := by
  simp [Path.isKeyed, hp.data, hp.head_ne hn]

lemma readAll_strings {ts : List Term} (h : ts.all Term.isString = true) {es : List Expr}
    (hes : ReadAll ts es) : es.all Expr.isString = true := by
  induction ts generalizing es with
  | nil =>
    rw [eq_nil_of_readAll hes]
    rfl
  | cons t ts ih =>
    rw [List.all_cons, Bool.and_eq_true] at h
    match t, es, h, hes with
    | .string _, .string _ :: es, h, hes =>
      have hrest : es.all Expr.isString = true := ih h.2 hes.2
      exact hrest

lemma asks_of_readAll {helpers : List Helper} {name : String} {args : List Term}
    (h : asks helpers name args = true) {callee : Path} (hcallee : callee.Names [name])
    {es : List Expr} (hes : ReadAll args es) : (Call.mk callee es []).asks helpers = true := by
  unfold Written.asks at h
  split at h
  · next q rest =>
    simp only [Bool.and_eq_true, List.any_eq_true] at h
    obtain ⟨⟨⟨helper, hmem, hn⟩, hq⟩, hrest⟩ := h
    obtain ⟨hsimple, hhead, hof⟩ := isSimple_of_helper hcallee hn
    match es, hes with
    | .path p :: es, hes =>
      have hp : p.Names q := hes.1
      simp [Call.asks, hsimple, hhead, hof, hmem, hp.isKeyed hq, readAll_strings hrest hes.2]
  · exact absurd h Bool.false_ne_true

section Keyed

variable {names : List String} {helper : String} {args : List Term} {callee : Path}
  {es : List Expr}

lemma keyedKinds_output (h : keyedKinds.output names args = true) (hcallee : callee.Names names)
    (hes : ReadAll args es) : keyed.output true (.mk callee es []) = true := by
  simp only [keyedKinds] at h
  split at h
  · obtain rfl := eq_nil_of_readAll hes
    simp [keyed, Call.isBare, Call.callee, hcallee.isKeyed h]
  · simp [keyed, asks_of_readAll h hcallee hes]
  · exact absurd h Bool.false_ne_true

lemma isAsked_of_reads {t : Term} {e : Expr} (h : keyedKinds.block helper [t] = true)
    (he : t.Reads e) : e.isAsked = true := by
  have hasked := (Bool.and_eq_true_iff.mp h).2
  cases t with
  | string s => exact absurd hasked Bool.false_ne_true
  | path q =>
    cases e with
    | path p =>
      have hp : p.Names q := he
      exact hp.isKeyed hasked
    | _ => exact absurd he id
  | call name rest =>
    cases e with
    | group c =>
      obtain ⟨inner, es, pairs⟩ := c
      obtain ⟨hinner, rfl, hrest⟩ : inner.Names [name] ∧ pairs = [] ∧ ReadAll rest es := he
      exact asks_of_readAll hasked hinner hrest
    | _ => exact absurd he id

lemma keyedKinds_block (h : keyedKinds.block helper args = true) (hcallee : callee.Names [helper])
    (hes : ReadAll args es) : keyed.block (.mk callee es []) = true := by
  obtain ⟨hopens, hasked⟩ := Bool.and_eq_true_iff.mp h
  cases args with
  | nil => exact absurd hasked Bool.false_ne_true
  | cons t ts =>
    cases ts with
    | cons u ts => cases t <;> exact absurd hasked Bool.false_ne_true
    | nil =>
      cases es with
      | nil => exact absurd hes id
      | cons e es =>
        obtain ⟨he, hes⟩ := hes
        obtain rfl := eq_nil_of_readAll hes
        simp [keyed, Call.opensAsked, hcallee.head_eq, hopens, isAsked_of_reads h he]

lemma keyedKinds_within : keyedKinds.Within keyed where
  char _ _ := rfl
  output _ _ _ _ := keyedKinds_output
  block _ _ _ _ := keyedKinds_block
  params := rfl

end Keyed

def Written.Piece.value? (c : Value) : Piece → Option Value
  | .text s => some (.text s)
  | .output names [] =>
    if looksUp names && (missing? c names).isNone then some (reached c names) else none
  | _ => none

lemma Written.Piece.Reads.inline {c v : Value} (hc : c.isNullish = false) {p : Piece}
    (hp : p.isPlain = true) (hv : p.value? c = some v) {n : Node} (h : p.Reads n) :
    n.isInline = true ∧ n.value? c = some (some v) := by
  match p, hp, hv, h with
  | .text s, hp, hv, h =>
    obtain rfl := h.of_text
    obtain rfl := Option.some.inj hv
    have hne : s ≠ "" := by
      simp only [Piece.isPlain, Bool.and_eq_true, bne_iff_ne] at hp
      exact hp.1
    refine ⟨rfl, ?_⟩
    simp [Node.value?, Content.ofText, hne]
  | .output names [], hp, hv, h =>
    obtain ⟨callee, es, rfl, hcallee, hes⟩ := h.of_output
    obtain rfl := eq_nil_of_readAll hes
    have hplain : isPlainPath names = true := by simpa [Piece.isPlain, arePlain] using hp
    rw [Piece.value?] at hv
    split at hv
    · next hfound =>
      rw [Bool.and_eq_true, Option.isNone_iff_eq_none] at hfound
      obtain rfl := Option.some.inj hv
      have hlookup := lookup_strict_yields (rootScope_sees false false c) hcallee hplain hc hfound.2
      refine ⟨by simp [Node.isInline, hcallee.isValue hfound.1, Strip.none], ?_⟩
      simp [Node.value?, found?, Call.callee, hlookup (initialState c)]
    · exact absurd hv (by simp)

lemma pieces_inline {c : Value} (hc : c.isNullish = false) {ps : List Piece}
    (hplain : isPlain ps = true) {vs : List Value} (hvs : ps.mapM (Piece.value? c) = some vs)
    {ns : List Node} (h : PiecesRead ps ns) :
    ns.all Node.isInline = true ∧ ns.mapM (Node.value? c) = some (vs.map some) := by
  induction ps generalizing ns vs with
  | nil =>
    obtain rfl := h.nil
    obtain rfl : [] = vs := by simpa using hvs
    exact ⟨rfl, rfl⟩
  | cons p ps ih =>
    obtain ⟨n, rest, rfl, hn, hrest⟩ := h.cons
    simp only [isPlain, Bool.and_eq_true] at hplain
    rw [List.mapM_cons] at hvs
    obtain ⟨v, hv, hvs⟩ := Option.bind_eq_some_iff.mp hvs
    obtain ⟨ws, hws, hvs⟩ := Option.bind_eq_some_iff.mp hvs
    obtain rfl := Option.some.inj hvs
    obtain ⟨hinline, hvalue⟩ := hn.inline hc hplain.1.1 hv
    obtain ⟨hinlines, hvalues⟩ := ih hplain.2 hws hrest
    refine ⟨by rw [List.all_cons, hinline, hinlines]; rfl, ?_⟩
    rw [List.mapM_cons, hvalue, hvalues]
    rfl

theorem values?_write {c : Value} (hc : c.isNullish = false) {ps : List Piece}
    (hplain : isPlain ps = true) {vs : List Value} (hvs : ps.mapM (Piece.value? c) = some vs) :
    values? c (write ps) = some vs := by
  obtain ⟨ns, hparse, hreads⟩ := Parser.parse_write hplain
  obtain ⟨hinline, hvalues⟩ := pieces_inline hc hplain hvs hreads
  simp [values?, hparse, hinline, hvalues, List.reduceOption]

theorem escaping_accepts_write {ps : List Piece} (hplain : isPlain ps = true)
    (hps : areOf escapingKinds ps = true) : escaping.accepts (write ps) = true :=
  accepts_write escapingKinds_within hplain hps

theorem dotted_accepts_write {ps : List Piece} (hplain : isPlain ps = true)
    (hps : areOf dottedKinds ps = true) : dotted.accepts (write ps) = true :=
  accepts_write dottedKinds_within hplain hps

theorem keyed_accepts_write {ps : List Piece} (hplain : isPlain ps = true)
    (hps : areOf keyedKinds ps = true) : keyed.accepts (write ps) = true :=
  accepts_write keyedKinds_within hplain hps

end BuildNotice.Template
