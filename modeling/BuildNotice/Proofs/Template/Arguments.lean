import BuildNotice.Proofs.Template.FirstFault
import BuildNotice.Proofs.Template.Following

namespace BuildNotice.Template

open Render Helper Written
open RenderError (isKey)
open Lexer (isNameChar)

def Path.isPlain (p : Path) : Bool :=
  !p.data && p.depth == 0 && isPlainPath p.parts && p.written == String.ofList (pathChars p.parts)

def Expr.isFlat : Expr → Bool
  | .path p => p.isPlain
  | .string _ => true
  | _ => false

def Expr.value (c : Value) : Expr → Value
  | .path p => reached c p.parts
  | .string s => .text s
  | _ => .undefined

def Expr.lost? (c : Value) : Expr → Option String
  | .path p => Template.lost? c p.parts
  | _ => none

lemma takeWhile_pathChars {name : String} {rest : List String} (h : isIdentifier name = true) :
    (pathChars (name :: rest)).takeWhile isNameChar = name.toList := by
  obtain ⟨c, cs, hc, hn, hcs⟩ := isPlainName_cons (isPlainName_of_isIdentifier h)
  have hname : name.toList.all isNameChar = true := by rw [hc, List.all_cons, hn, hcs]; rfl
  have htail : ∀ tail : List Char, tail.head?.any isNameChar = false →
      (name.toList ++ tail).takeWhile isNameChar = name.toList :=
    fun tail ht => (Lexer.takeWhile_name hname ht).1
  cases rest with
  | nil => simpa [pathChars] using htail [] rfl
  | cons next rest => exact htail ('.' :: pathChars (next :: rest)) rfl

lemma pathId_written {names : List String} (h : isPlainPath names = true) :
    pathId (String.ofList (pathChars names)) = String.ofList (pathChars names) := by
  obtain ⟨name, rest, rfl⟩ : ∃ name rest, names = name :: rest := by
    cases names with
    | nil => exact absurd h (by simp [isPlainPath])
    | cons name rest => exact ⟨name, rest, rfl⟩
  have hid := (isPlainPath_cons h).1
  have htake : (pathChars (name :: rest)).takeWhile isNameChar = name.toList :=
    takeWhile_pathChars hid
  -- An identifier is no `this` and begins with no dot, so nothing is dropped in front of it.
  have hthis : name.toList ≠ ['t', 'h', 'i', 's'] := by
    intro heq
    have hname : name = "this" := String.toList_injective heq
    simp [isIdentifier, hname] at hid
  obtain ⟨c, cs, hcs, hc⟩ := pathChars_cons h
  have hdot : c ≠ '.' := Lexer.ne_of_isNameChar hc (by decide)
  have hdropThis : dropThis (pathChars (name :: rest)) = pathChars (name :: rest) := by
    unfold dropThis
    split
    · next heq => exact absurd ((congrArg _ heq.symm).trans htake).symm hthis
    · next heq => exact absurd ((congrArg _ heq.symm).trans htake).symm hthis
    · rfl
  have hdropHere : dropHere (c :: cs) = c :: cs := by
    unfold dropHere
    split
    · next heq => exact absurd (List.cons.inj heq).1 hdot
    · rfl
  rw [pathId, String.toList_ofList, hdropThis, hcs, hdropHere]
  exact congrArg _ (if_neg fun heq => hdot (List.cons.inj heq).1)

section Paths

variable {sc : Scope} {c : Value} {p : Path} {e : Expr} {es : List Expr} {key : String}

lemma Path.names_of_isPlain (h : p.isPlain = true) :
    p.Names p.parts ∧ isPlainPath p.parts = true := by
  simp only [Path.isPlain, Bool.and_eq_true, Bool.not_eq_true', beq_iff_eq] at h
  obtain ⟨⟨⟨hdata, hdepth⟩, hplain⟩, hwritten⟩ := h
  exact ⟨⟨hdata, hdepth, rfl, hwritten⟩, hplain⟩

lemma Path.Names.isPlain {names : List String} (h : p.Names names)
    (hn : isPlainPath names = true) : p.isPlain = true := by
  simp [Path.isPlain, h.data, h.depth, h.parts, h.written, hn]

lemma Path.written_ne_empty (h : p.isPlain = true) : p.written ≠ "" := by
  obtain ⟨hp, hn⟩ := p.names_of_isPlain h
  obtain ⟨d, ds, hds, -⟩ := pathChars_cons hn
  rw [Ne, hp.written, String.ofList_eq_empty_iff, hds]
  exact List.cons_ne_nil d ds

lemma path_stops (h : sc.Sees c) (hp : p.isPlain = true)
    (hk : Template.lost? c p.parts = some key) :
    ∃ err, Stops (expr sc (.path p)) err ∧ err.Lacks key ∧ isKey key = true := by
  obtain ⟨hnames, hn⟩ := p.names_of_isPlain hp
  obtain ⟨err, herr, hlacks⟩ := members_lost hk
  refine ⟨err, ?_, hlacks, ?_⟩
  · rw [expr, Scope.lookup, h.declared?_path]
    simp only [hnames.head_ne hn, if_false, Bool.false_eq_true]
    exact (base_yields h hnames).bind_stops herr
  · simp only [isPlainPath, Bool.and_eq_true, List.all_eq_true] at hn
    exact RenderError.isKey_of_isIdentifier (hn.2 key (lost?_mem hk))

lemma path_yields (h : sc.Sees c) (hp : p.isPlain = true) (hk : Template.lost? c p.parts = none) :
    Yields (expr sc (.path p)) (reached c p.parts) := by
  obtain ⟨hnames, hn⟩ := p.names_of_isPlain hp
  rw [expr, Scope.lookup, h.declared?_path]
  simp only [hnames.head_ne hn, if_false, Bool.false_eq_true]
  exact (base_yields h hnames).bind (members_yields (leads_of_lost? hk))

lemma pathId_yields (h : sc.Sees c) (hp : p.isPlain = true) :
    Yields (exprId sc (.path p)) (.text p.written) := by
  obtain ⟨hnames, hn⟩ := p.names_of_isPlain hp
  rw [exprId, h.declared?_path, hnames.written, pathId_written hn]
  exact yields_pure _

lemma expr_stops (h : sc.Sees c) (he : e.isFlat = true) (hk : e.lost? c = some key) :
    ∃ err, Stops (expr sc e) err ∧ err.Lacks key ∧ isKey key = true := by
  cases e with
  | path p => exact path_stops h he hk
  | string s => exact absurd hk (by simp [Expr.lost?])
  | _ => exact absurd he Bool.false_ne_true

lemma expr_yields (h : sc.Sees c) (he : e.isFlat = true) (hk : e.lost? c = none) :
    Yields (expr sc e) (e.value c) ∧ ∃ id, Yields (exprId sc e) id := by
  cases e with
  | path p => exact ⟨path_yields h he hk, _, pathId_yields h he⟩
  | string s => exact ⟨yields_pure _, .null, yields_pure _⟩
  | _ => exact absurd he Bool.false_ne_true

lemma exprs_stop (h : sc.Sees c) (hes : es.all Expr.isFlat = true)
    (hk : es.findSome? (Expr.lost? c) = some key) :
    ∃ err, Stops (exprs sc es) err ∧ err.Lacks key ∧ isKey key = true := by
  induction es with
  | nil => exact absurd hk (by simp)
  | cons e es ih =>
    obtain ⟨he, hes⟩ := Bool.and_eq_true_iff.mp hes
    rw [exprs]
    rw [List.findSome?_cons] at hk
    cases hlost : e.lost? c with
    | some k =>
      rw [hlost] at hk
      obtain rfl := Option.some.inj hk
      obtain ⟨err, herr, hlacks⟩ := expr_stops h he hlost
      exact ⟨err, herr.bind, hlacks⟩
    | none =>
      rw [hlost] at hk
      obtain ⟨hv, -⟩ := expr_yields h he hlost
      obtain ⟨err, herr, hlacks⟩ := ih hes hk
      exact ⟨err, hv.bind_stops herr.bind, hlacks⟩

lemma exprs_yield (h : sc.Sees c) (hes : es.all Expr.isFlat = true)
    (hk : es.findSome? (Expr.lost? c) = none) :
    Yields (exprs sc es) (es.map (Expr.value c)) ∧ ∃ ids, Yields (exprIds sc es) ids := by
  induction es with
  | nil => exact ⟨yields_pure [], [], yields_pure []⟩
  | cons e es ih =>
    obtain ⟨he, hes⟩ := Bool.and_eq_true_iff.mp hes
    rw [List.findSome?_eq_none_iff, List.forall_mem_cons, ← List.findSome?_eq_none_iff] at hk
    obtain ⟨hv, id, hid⟩ := expr_yields h he hk.1
    obtain ⟨hvs, ids, hids⟩ := ih hes hk.2
    rw [exprs, exprIds]
    exact ⟨hv.bind (hvs.bind (yields_pure _)), _, hid.bind (hids.bind (yields_pure _))⟩

end Paths

inductive Obstacle where
  | lacks (key : String)
  | undefined (path : String)
  | surplus
  deriving DecidableEq

def surplusErrors : List RenderError :=
  [.failure "#if requires exactly one argument", .failure "#unless requires exactly one argument",
    .failure "#with requires exactly one argument", .failure "Must pass iterator to #each",
    .wrongKind]

def Obstacle.Raises : Obstacle → RenderError → Prop
  | .lacks key, e => e.Lacks key ∧ isKey key = true
  | .undefined path, e => e = .missingArgument path
  | .surplus, e => e ∈ surplusErrors

/-- The obstacle in the way of a call about a path. A helper of blocks is `single`: it takes nothing
beside the path. -/
def obstacle? (c : Value) (single : Bool) : List Expr → Option Obstacle
  | .path p :: more =>
    match (Expr.path p :: more).findSome? (Expr.lost? c) with
    | some key => some (.lacks key)
    | none =>
      match reached c p.parts with
      | .undefined => some (.undefined p.written)
      | _ => if single && !more.isEmpty then some .surplus else none
  | _ => none

def Call.isAbout (kind : Helper → Bool) : Call → Bool
  | .mk callee (.path p :: more) [] =>
    callee.isSimple && (Helper.ofName? callee.head).any kind && p.isPlain && more.all Expr.isFlat
  | _ => false

structure Call.About (callee : Path) (helper : Helper) (p : Path) (more : List Expr) : Prop where
  simple : callee.isSimple = true
  named : Helper.ofName? callee.head = some helper
  plain : p.isPlain = true
  flat : more.all Expr.isFlat = true

section Calls

variable {sc : Scope} {c v : Value} {callee p : Path} {helper : Helper} {more : List Expr}
  {bodies : Render Bodies} {b : Bodies} {o : Helper.Options}

lemma Call.exists_of_isAbout {kind : Helper → Bool} {call : Call} (h : call.isAbout kind = true) :
    ∃ callee helper p more, call = .mk callee (.path p :: more) [] ∧ kind helper = true ∧
      About callee helper p more := by
  unfold Call.isAbout at h
  split at h
  · next callee p more =>
    simp only [Bool.and_eq_true, Option.any_eq_true] at h
    obtain ⟨⟨⟨hsimple, helper, hof, hkind⟩, hp⟩, hmore⟩ := h
    exact ⟨callee, helper, p, more, rfl, hkind, hsimple, hof, hp, hmore⟩
  · exact absurd h Bool.false_ne_true

lemma Call.About.helperCall (h : About callee helper p more) (sc : Scope)
    (bodies : Render Bodies) :
    Render.helperCall sc (.mk callee (.path p :: more) []) bodies = (do
      let args ← exprs sc (.path p :: more)
      let hash ← Render.hash sc []
      let b ← bodies
      let ids ← exprIds sc (.path p :: more)
      helper.call args ⟨Render.this sc, hash, ids, b.body, b.alternative⟩) := by
  simp only [Render.helperCall, Call.callee, Call.args, Call.hash, applyHelper, h.simple,
    Bool.true_or, if_true, h.named]

lemma Call.About.reads (h : About callee helper p more) (hsees : sc.Sees c)
    (hlost : (Expr.path p :: more).findSome? (Expr.lost? c) = none) :
    Yields (exprs sc (.path p :: more)) (reached c p.parts :: more.map (Expr.value c)) ∧
      ∃ ids, Yields (exprIds sc (.path p :: more)) (.text p.written :: ids) := by
  have hflat : (Expr.path p :: more).all Expr.isFlat = true :=
    Bool.and_eq_true_iff.mpr ⟨h.plain, h.flat⟩
  obtain ⟨hargs, -⟩ := exprs_yield hsees hflat hlost
  rw [List.findSome?_eq_none_iff, List.forall_mem_cons, ← List.findSome?_eq_none_iff] at hlost
  obtain ⟨-, ids, hids⟩ := exprs_yield hsees h.flat hlost.2
  refine ⟨hargs, ids, ?_⟩
  rw [exprIds]
  exact (pathId_yields hsees h.plain).bind (hids.bind (yields_pure _))

lemma require_stops (name path : String) (hne : path ≠ "") (args ids : List Value) :
    Stops (require (.undefined :: args) (.text path :: ids) name) (.missingArgument path) := by
  rw [require, List.head?_cons, List.head?_cons]
  simp only [if_neg hne]
  exact stops_fail _

lemma call_undefined_names (hr : helper.requires = true) {path : String} (hne : path ≠ "")
    {ids : List Value} (hids : o.ids = .text path :: ids) (args : List Value) :
    Stops (helper.call (.undefined :: args) o) (.missingArgument path) := by
  have hstops (name : String) (k : Unit → Render Value) :
      Stops (require (.undefined :: args) o.ids name >>= k) (.missingArgument path) := by
    rw [hids]
    exact (require_stops name path hne args ids).bind
  cases helper with
  | lookup => exact absurd hr Bool.false_ne_true
  | log => exact absurd hr Bool.false_ne_true
  | _ => exact hstops _ _

lemma call_surplus_stops (hblock : helper.isBlock = true) (hv : v ≠ .undefined) (w : Value)
    (args : List Value) : ∃ e ∈ surplusErrors, Stops (helper.call (v :: w :: args) o) e := by
  have hrequire (name : String) : Yields (require (v :: w :: args) o.ids name) () :=
    require_yields (by simpa using hv) _ _
  cases helper with
  | «if» => exact ⟨_, by simp [surplusErrors], (hrequire _).bind_stops (stops_fail _)⟩
  | «unless» => exact ⟨_, by simp [surplusErrors], (hrequire _).bind_stops (stops_fail _)⟩
  | «with» => exact ⟨_, by simp [surplusErrors], (hrequire _).bind_stops (stops_fail _)⟩
  | each =>
    cases hw : w.isTruthy with
    | true =>
      refine ⟨.wrongKind, by simp [surplusErrors], (hrequire _).bind_stops ?_⟩
      rw [eachCall, if_pos hw]
      exact stops_fail _
    | false =>
      refine ⟨.failure "Must pass iterator to #each", by simp [surplusErrors],
        (hrequire _).bind_stops ?_⟩
      rw [eachCall, if_neg (by simp [hw])]
      exact stops_fail _
  | _ => exact absurd hblock Bool.false_ne_true

lemma obstacle?_none {single : Bool} (h : obstacle? c single (.path p :: more) = none) :
    (Expr.path p :: more).findSome? (Expr.lost? c) = none ∧ reached c p.parts ≠ .undefined ∧
      (single = true → more = []) := by
  rw [obstacle?] at h
  split at h
  · exact absurd h (by simp)
  · next hlost =>
    split at h
    · exact absurd h (by simp)
    · next hv =>
      refine ⟨hlost, hv, ?_⟩
      rintro rfl
      simpa using h

lemma Call.About.stops (h : About callee helper p more) (hsees : sc.Sees c)
    (hr : helper.requires = true) (hb : Yields bodies b) {obstacle : Obstacle}
    (ho : obstacle? c helper.isBlock (.path p :: more) = some obstacle) :
    ∃ e, Stops (Render.helperCall sc (.mk callee (.path p :: more) []) bodies) e ∧
      obstacle.Raises e := by
  have hhash : Yields (Render.hash sc []) [] := yields_pure []
  rw [h.helperCall]
  rw [obstacle?] at ho
  split at ho
  · next key hkey =>
    obtain rfl := Option.some.inj ho
    have hflat : (Expr.path p :: more).all Expr.isFlat = true :=
      Bool.and_eq_true_iff.mpr ⟨h.plain, h.flat⟩
    obtain ⟨e, he, hlacks⟩ := exprs_stop hsees hflat hkey
    exact ⟨e, he.bind, hlacks⟩
  · next hlost =>
    obtain ⟨hargs, ids, hids⟩ := h.reads hsees hlost
    split at ho
    · next hv =>
      obtain rfl := Option.some.inj ho
      rw [hv] at hargs
      refine ⟨_, hargs.bind_stops (hhash.bind_stops (hb.bind_stops (hids.bind_stops ?_))), rfl⟩
      exact call_undefined_names hr (p.written_ne_empty h.plain) rfl _
    · next hv =>
      split at ho
      · next hsurplus =>
        obtain rfl := Option.some.inj ho
        obtain ⟨hblock, hmore⟩ := Bool.and_eq_true_iff.mp hsurplus
        obtain ⟨e', more, rfl⟩ : ∃ e rest, more = e :: rest := by
          cases more with
          | nil => exact absurd hmore (by simp)
          | cons e rest => exact ⟨e, rest, rfl⟩
        obtain ⟨e, he, hstops⟩ :=
          call_surplus_stops hblock hv (e'.value c) (more.map (Expr.value c))
        exact ⟨e, hargs.bind_stops (hhash.bind_stops (hb.bind_stops (hids.bind_stops hstops))), he⟩
      · exact absurd ho (by simp)

end Calls

def Statement.obstacle? (c : Value) : Statement → Option Obstacle
  | .output _ call => Template.obstacle? c false call.args
  | .block call _ _ => Template.obstacle? c true call.args
  | _ => none

/-- How a rendering fails at an obstacle: the missing key is told with the template, or, where an
argument is undefined, is the path it was written with. -/
def Obstacle.Ends (t : Template) (c : Value) : Obstacle → Prop
  | .lacks key => t.render c =
      .error (.fault (.undefinedKey (.text key) (Value.ofFields [("template", .text t.source.id)])))
  | .undefined path => t.render c = .error (.fault (.undefinedKey (.text path) .undefined))
  | .surplus => ∃ kind message, t.render c = .error (.error kind message)

lemma Obstacle.Raises.ends {o : Obstacle} {e : RenderError} (h : o.Raises e) {t : Template}
    {c : Value} (hrun : Render.run t.escapes t.program c = .error e) : o.Ends t c := by
  have hrender : t.render c = .error (renderFailure t.source e) := by rw [Template.render, hrun]
  cases o with
  | lacks key =>
    exact hrender.trans (congrArg Except.error (RenderError.Lacks.renderFailure h.2 h.1 t.source))
  | undefined path =>
    obtain rfl : e = .missingArgument path := h
    exact hrender
  | surplus =>
    have hnone : ∀ e ∈ surplusErrors, e.missingKey? = none := by decide
    have hkey := hnone e h
    rw [Obstacle.Ends, hrender]
    cases e with
    | missingArgument key => simp [Obstacle.Raises, surplusErrors] at h
    | _ =>
      simp only [renderFailure, hkey]
      exact ⟨_, _, rfl⟩

end BuildNotice.Template
