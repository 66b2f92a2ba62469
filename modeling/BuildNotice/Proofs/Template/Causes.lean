import BuildNotice.Proofs.Template.Terms

/-! What can stop the parts of a rendering, and which names it may tell to be missing. -/

namespace BuildNotice.Template

open Render Helper
open RenderError (missingKeyIn?)

inductive Sources.Knows (src : Sources) : Expr → Value → Prop
  | path (p : Path) : Knows src (.path p) (.text (pathId p.written))
  | declared {p : Path} {id : Value} : src.Declares p.head →
      (p.parts.tail = [] ∨ ∃ t, id = .text (t ++ "." ++ String.intercalate "." p.parts.tail)) →
      Knows src (.path p) id
  | other {e : Expr} {id : Value} : (∀ p, e ≠ .path p) → (∀ s, id ≠ .text s) → Knows src e id

inductive Sources.Causes (src : Sources) : RenderError → Prop
  | lookup {e : RenderError} (name : String) : e.Lacks name →
      (name ∈ src.segments ∨ src.Strays name) → Causes src e
  | argument {h : Helper} {e : Expr} {id : Value} : (h, e) ∈ src.subjects → src.Knows e id →
      Causes src (.missingArgument (h.requiredKey id))
  | other {e : RenderError} : e.missingKey? = none → (∀ key, e ≠ .missingArgument key) →
      Causes src e

/-- What an action gives has a property, and what stops it comes from the template. -/
def Sources.Admits {α : Type} (src : Sources) (P : α → Prop) (act : Render α) : Prop :=
  ∀ s, match act s with
    | .ok (a, _) => P a
    | .error e => src.Causes e

section Rules

variable {src : Sources} {α β : Type} {P Q : α → Prop} {R : β → Prop} {act : Render α}
  {f : α → Render β}

lemma admits_pure {a : α} (h : P a) : src.Admits P (pure a) := fun _ => h

lemma admits_fail {e : RenderError} (h : src.Causes e) : src.Admits P (fail e) := fun _ => h

lemma Sources.Admits.bind (h : src.Admits P act) (hf : ∀ a, P a → src.Admits R (f a)) :
    src.Admits R (act >>= f) := by
  intro s
  have hact := h s
  simp only [Bind.bind, StateT.bind]
  cases hr : act s with
  | error e =>
    rw [hr] at hact
    exact hact
  | ok r =>
    rw [hr] at hact
    exact hf r.1 hact r.2

lemma Sources.Admits.inFrame (h : src.Admits P act) : src.Admits P (inFrame act) := by
  intro s
  have hchild := h ⟨s.fresh, Record.set "_parent" (.record s.label s.frame) s.frame, s.fresh + 1⟩
  rw [Template.inFrame]
  cases hr : act ⟨s.fresh, Record.set "_parent" (.record s.label s.frame) s.frame, s.fresh + 1⟩ with
  | error e => rwa [hr] at hchild
  | ok r => rwa [hr] at hchild

lemma admits_wrongKind : src.Admits P (fail .wrongKind) :=
  admits_fail (.other (by decide) (by simp))

lemma admits_failure {message : String} (h : missingKeyIn? message = none) :
    src.Admits P (fail (.failure message)) :=
  admits_fail (.other h (by simp))

lemma admits_ofOption {x : Option α} (h : ∀ a, x = some a → P a) : src.Admits P (ofOption x) := by
  cases x with
  | none => exact admits_wrongKind
  | some a => exact admits_pure (h a rfl)

lemma admits_setData (key : String) (v : Value) : src.Admits (fun _ => True) (setData key v) :=
  fun _ => trivial

lemma admits_getData (key : String) : src.Admits (fun _ => True) (getData key) :=
  fun _ => trivial

end Rules

abbrev Sources.AdmitsAny {α : Type} (src : Sources) (act : Render α) : Prop :=
  src.Admits (fun _ => True) act

section Lookups

variable {src : Sources} {names keys : List String} {name key : String} {p : Path}

lemma member_admits (h : key ∈ src.segments) (v : Value) : src.AdmitsAny (member v key) := by
  rw [member]
  split
  · exact admits_fail (.lookup key ⟨rfl, nothingText_cases v⟩ (.inl h))
  · exact admits_pure trivial

lemma members_admits (h : ∀ key ∈ keys, key ∈ src.segments) (v : Value) :
    src.AdmitsAny (members v keys) := by
  induction keys generalizing v with
  | nil => exact admits_pure trivial
  | cons key keys ih =>
    rw [List.forall_mem_cons] at h
    exact (member_admits h.1 v).bind fun w _ => ih h.2 w

lemma knownMember_admits (h : key ∈ src.segments) (v : Value) (position : Position) :
    src.AdmitsAny (knownMember v key position) := by
  rw [knownMember]
  split
  · refine (admits_ofOption fun _ _ => trivial).bind fun text _ => admits_fail ?_
    exact .lookup key rfl (.inl h)
  · split
    · exact admits_pure trivial
    · refine (admits_ofOption fun _ _ => trivial).bind fun text _ => admits_fail ?_
      exact .lookup key rfl (.inl h)

lemma knownMembers_admits (position : Position) : (keys : List String) →
    (∀ key ∈ keys, key ∈ src.segments) → (v : Value) →
    src.AdmitsAny (knownMembers v position keys)
  | [], _, _ => admits_pure trivial
  | [key], h, v => knownMember_admits (h key List.mem_cons_self) v position
  | key :: next :: rest, h, v => by
    rw [List.forall_mem_cons] at h
    exact (member_admits h.1 v).bind fun w _ => knownMembers_admits position (next :: rest) h.2 w

lemma exists_of_declared? {lists : List (List String)} {depth i : Nat}
    (h : declared? name lists = some (depth, i)) : ∃ l ∈ lists, name ∈ l ∧ i < l.length := by
  induction lists generalizing depth with
  | nil => exact absurd h (by simp [declared?])
  | cons l lists ih =>
    rw [declared?] at h
    split at h
    · next j hj =>
      obtain ⟨-, rfl⟩ := Prod.mk.inj (Option.some.inj h)
      obtain ⟨hlt, hget, -⟩ := List.idxOf?_eq_some_iff.mp hj
      exact ⟨l, List.mem_cons_self, List.mem_of_getElem hget, hlt⟩
    · obtain ⟨⟨d, j⟩, hd, heq⟩ := Option.map_eq_some_iff.mp h
      obtain ⟨-, rfl⟩ := Prod.mk.inj heq
      obtain ⟨l, hl, hname⟩ := ih hd
      exact ⟨l, List.mem_cons_of_mem _ hl, hname⟩

lemma mem_segments (hp : .path p ∈ src.terms) : ∀ key ∈ p.parts, key ∈ src.segments :=
  fun _ hkey => List.mem_flatMap.mpr ⟨.path p, hp, hkey⟩

end Lookups

inductive Sources.Holds (src : Sources) : Closure → Prop
  | mk {p : Program} {names : List (List String)} {outer : List Value}
      {args : List (Option BlockArgs)} {declared : Partials} {block : Option Closure}
      {levels : Bool} :
      src.Covers p.sources → names ⊆ src.names →
      (∀ e ∈ declared, ∀ c, e.2 = some c → Holds src c) → (∀ c, block = some c → Holds src c) →
      Holds src (.mk p names outer args declared block levels)

def Sources.HoldsAll (src : Sources) (partials : Partials) : Prop :=
  ∀ e ∈ partials, ∀ c, e.2 = some c → src.Holds c

structure Scope.Within (sc : Scope) (src : Sources) : Prop where
  names : sc.names ⊆ src.names
  partials : src.HoldsAll sc.partials
  block : ∀ c, sc.block = some c → src.Holds c

section Scopes

variable {src : Sources} {sc : Scope} {p : Path} {depth i : Nat}

lemma declares_of_declared? (h : sc.Within src) (hp : p.declared? sc.names = some (depth, i)) :
    src.Declares p.head ∧ ∃ l ∈ src.names, i < l.length := by
  rw [Path.declared?] at hp
  split at hp
  · obtain ⟨name, hname, hdeclared⟩ := Option.bind_eq_some_iff.mp hp
    obtain ⟨l, hl, hmem, hi⟩ := exists_of_declared? hdeclared
    have hhead : p.head = name := by
      rw [Path.head, List.headD_eq_head?_getD, hname]
      rfl
    rw [hhead]
    exact ⟨⟨l, h.names hl, hmem⟩, l, h.names hl, hi⟩
  · exact absurd hp (by simp)

lemma blockArgs_admits {key : String} (h : src.Strays key) (sc : Scope) (depth : Nat) :
    src.AdmitsAny (sc.blockArgs depth key) := by
  rw [Scope.blockArgs]
  split
  · exact admits_pure trivial
  · exact admits_fail (.lookup key ⟨rfl, .inl rfl⟩ (.inr h))

lemma arg_admits (h : ∃ l ∈ src.names, i < l.length) (sc : Scope) (depth : Nat) :
    src.AdmitsAny (sc.arg depth i) := by
  obtain ⟨l, hl, hi⟩ := h
  exact (blockArgs_admits (.argument hl hi) sc depth).bind fun a _ => admits_pure trivial

lemma argPath_admits (h : sc.Within src) (hp : p.declared? sc.names = some (depth, i)) :
    src.AdmitsAny (sc.argPath depth i) := by
  obtain ⟨hdeclares, l, hl, hi⟩ := declares_of_declared? h hp
  refine (blockArgs_admits (.paths hdeclares) sc depth).bind fun a _ => ?_
  split
  · exact admits_pure trivial
  · exact admits_fail (.lookup (toString i) ⟨rfl, .inl rfl⟩ (.inr (.argument hl hi)))

lemma lookup_admits (h : sc.Within src) (hp : .path p ∈ src.terms) (strict : Bool) :
    src.AdmitsAny (sc.lookup strict p) := by
  have hparts := mem_segments hp
  rw [Scope.lookup]
  split
  · next depth i hdeclared =>
    refine (arg_admits (declares_of_declared? h hdeclared).2 sc depth).bind fun v _ => ?_
    exact members_admits (fun key hkey => hparts key (List.mem_of_mem_tail hkey)) v
  · split
    · exact admits_pure trivial
    · have hbase : src.AdmitsAny (sc.base p) := by
        intro s
        rw [Scope.base]
        split
        · next hok =>
          trivial
        · next e herr =>
          split at herr <;> exact absurd herr (by simp)
      refine hbase.bind fun v _ => ?_
      split
      · exact knownMembers_admits p.position p.parts hparts v
      · exact members_admits hparts v

lemma exprId_admits (h : sc.Within src) (e : Expr) :
    src.Admits (src.Knows e) (exprId sc e) := by
  cases e with
  | path p =>
    rw [exprId]
    split
    · next depth i hdeclared =>
      have hdeclares := (declares_of_declared? h hdeclared).1
      refine (argPath_admits h hdeclared).bind fun path _ => ?_
      split
      · next htail => exact admits_pure (.declared hdeclares (.inl htail))
      · refine (admits_ofOption fun _ _ => trivial).bind fun t _ => admits_pure ?_
        exact .declared hdeclares (.inr ⟨t, rfl⟩)
    · exact admits_pure (.path p)
  | group c =>
    rw [exprId]
    exact admits_pure (.other (by simp) (by simp))
  | _ => exact admits_pure (.other (by simp) (by simp))

lemma exprIds_admits (h : sc.Within src) (es : List Expr) :
    src.Admits (List.Forall₂ src.Knows es) (exprIds sc es) := by
  induction es with
  | nil => exact admits_pure .nil
  | cons e es ih =>
    rw [exprIds]
    exact (exprId_admits h e).bind fun id hid => ih.bind fun ids hids =>
      admits_pure (.cons hid hids)

lemma enter_admits (outer : List Value) (v : Value) : src.AdmitsAny (Scope.enter outer v) := by
  have hlevel (stays : Bool) :
      src.AdmitsAny (if stays = true then pure outer else pure (v :: outer)) := by
    split
    · exact admits_pure trivial
    · exact admits_pure trivial
  exact (admits_ofOption fun _ _ => trivial).bind fun agree _ => hlevel (agree || _)

lemma around_admits (sc : Scope) (v : Value) : src.AdmitsAny (sc.around v) := by
  rw [Scope.around]
  split
  · exact enter_admits sc.outer v
  · exact admits_pure trivial

end Scopes

def Sources.AdmitsRuns (src : Sources) (body : Option Runner) : Prop :=
  ∀ f ∈ body, ∀ v args, src.AdmitsAny (f v args)

structure Helper.Options.Within (o : Helper.Options) (src : Sources) : Prop where
  body : src.AdmitsRuns o.body
  alternative : src.AdmitsRuns o.alternative

section Calls

variable {src : Sources} {o : Helper.Options} {args : List Value} {helper : Helper}

lemma run_admits {body : Option Runner} (h : src.AdmitsRuns body) (v : Value)
    (args : Option BlockArgs) : src.AdmitsAny (Helper.run body v args) := by
  cases body with
  | none => exact admits_wrongKind
  | some f => exact h f rfl v args

lemma choose_admits (h : o.Within src) (condition : Bool) : src.AdmitsAny (choose condition o) := by
  rw [choose]
  split
  · exact run_admits h.body _ _
  · exact run_admits h.alternative _ _

lemma appendPath_admits (path id : Value) : src.AdmitsAny (appendPath path id) := by
  refine (admits_ofOption fun _ _ => trivial).bind fun id _ => ?_
  split
  · exact (admits_ofOption fun _ _ => trivial).bind fun path _ => admits_pure trivial
  · exact admits_pure trivial

lemma argumentPath_admits (o : Helper.Options) : src.AdmitsAny (argumentPath o) :=
  (admits_getData "contextPath").bind fun path _ => appendPath_admits path _

lemma eachItem_admits (h : o.Within src) (path : String) (key : Value) (keyText : String)
    (index : Nat) (last : Bool) (v acc : Value) :
    src.AdmitsAny (eachItem o path key keyText index last v acc) := by
  refine (admits_setData "key" key).bind fun _ _ => ?_
  refine (admits_setData "index" _).bind fun _ _ => ?_
  refine (admits_setData "first" _).bind fun _ _ => ?_
  refine (admits_setData "last" _).bind fun _ _ => ?_
  refine (admits_setData "contextPath" _).bind fun _ _ => ?_
  exact (run_admits h.body v _).bind fun out _ => admits_ofOption fun _ _ => trivial

lemma eachFrom_admits (h : o.Within src) (path : String) (es : List (Value × String × Value))
    (index : Nat) (acc : Value) : src.AdmitsAny (eachFrom o path es index acc) := by
  induction es generalizing index acc with
  | nil => exact admits_pure trivial
  | cons e es ih =>
    obtain ⟨key, keyText, v⟩ := e
    exact (eachItem_admits h path key keyText index es.isEmpty v acc).bind fun acc _ =>
      ih (index + 1) acc

lemma eachOf_admits (h : o.Within src) (v : Value) : src.AdmitsAny (eachOf v o) := by
  refine (argumentPath_admits o).bind fun path _ => ?_
  cases entries v with
  | nil => exact run_admits h.alternative _ _
  | cons e es => exact (eachFrom_admits h _ (e :: es) 0 _).inFrame

lemma eachCall_admits (h : o.Within src) (args : List Value) : src.AdmitsAny (eachCall args o) := by
  unfold eachCall
  split
  · exact admits_failure (by decide)
  · exact eachOf_admits h _
  · split
    · exact admits_wrongKind
    · exact admits_failure (by decide)

lemma withContext_admits (h : o.Within src) (v : Value) : src.AdmitsAny (withContext v o) := by
  rw [withContext]
  split
  · exact run_admits h.alternative _ _
  · refine (argumentPath_admits o).bind fun path _ => Sources.Admits.inFrame ?_
    exact (admits_setData "contextPath" _).bind fun _ _ => run_admits h.body v _

lemma sectionOf_admits (h : o.Within src) (v : Value) (name : String) :
    src.AdmitsAny (sectionOf v name o) := by
  have hbody (w : Value) : src.AdmitsAny (do
      let path ← appendPath (← getData "contextPath") (.text name)
      inFrame do
        setData "contextPath" (.text path)
        Helper.run o.body w none) := by
    refine (admits_getData "contextPath").bind fun path _ => ?_
    refine (appendPath_admits path _).bind fun path _ => Sources.Admits.inFrame ?_
    exact (admits_setData "contextPath" _).bind fun _ _ => run_admits h.body w none
  cases v with
  | bool b =>
    cases b with
    | true => exact run_admits h.body _ _
    | false => exact run_admits h.alternative _ _
  | undefined => exact run_admits h.alternative _ _
  | null => exact run_admits h.alternative _ _
  | list label items =>
    rw [sectionOf]
    split
    · exact run_admits h.alternative _ _
    · have hlist : Helper.Options.Within { o with ids := [.text name] } src :=
        ⟨h.body, h.alternative⟩
      exact eachOf_admits hlist _
  | _ => exact hbody _

lemma lookupOf_admits (h : args.length ≠ 2 → src.Strays "lookupProperty") :
    src.AdmitsAny (lookupOf args) := by
  have hnothing {nothing : String} (hargs : args.length ≠ 2)
      (hn : nothing = "undefined" ∨ nothing = "null") :
      src.Causes (.memberOfNothing nothing "lookupProperty") :=
    .lookup "lookupProperty" ⟨rfl, hn⟩ (.inr (h hargs))
  match args with
  | [] => exact admits_fail (hnothing (by simp) (.inl rfl))
  | [v] =>
    rw [lookupOf]
    split
    · exact admits_fail (hnothing (by simp) (.inl rfl))
    · exact admits_pure trivial
  | [v, key] =>
    rw [lookupOf]
    split
    · exact (admits_ofOption fun _ _ => trivial).bind fun _ _ => admits_pure trivial
    · exact admits_pure trivial
  | v :: key :: options :: rest =>
    rw [lookupOf]
    split
    · split
      · exact admits_fail (hnothing (by simp) (nothingText_cases options))
      · exact admits_wrongKind
    · exact admits_pure trivial

lemma require_admits (helper : Helper) {ids : List Value}
    (h : args.head? = some .undefined →
      src.Causes (.missingArgument (helper.requiredKey (ids.headD .undefined)))) :
    src.AdmitsAny (require args ids helper.title) := by
  rw [require]
  split
  · next hargs =>
    have hcauses := h hargs
    cases ids with
    | nil => exact admits_fail hcauses
    | cons id ids =>
      cases id with
      | text s => exact admits_fail hcauses
      | _ => exact admits_fail hcauses
  · exact admits_pure trivial

lemma single_admits {name : String} {k : Value → Render Value}
    (h : missingKeyIn? (name ++ " requires exactly one argument") = none)
    (hk : ∀ v, src.AdmitsAny (k v)) : src.AdmitsAny (single name args k) := by
  unfold single
  split
  · exact hk _
  · exact admits_failure h

lemma call_admits (h : o.Within src)
    (hrequired : helper.requires = true → args.head? = some .undefined →
      src.Causes (.missingArgument (helper.requiredKey (o.ids.headD .undefined))))
    (hlookup : helper = .lookup → args.length ≠ 2 → src.Strays "lookupProperty") :
    src.AdmitsAny (helper.call args o) := by
  cases helper with
  | «if» =>
    refine (require_admits .if (hrequired rfl)).bind fun _ _ => ?_
    exact single_admits (by decide) fun v => choose_admits h _
  | «unless» =>
    refine (require_admits .unless (hrequired rfl)).bind fun _ _ => ?_
    exact single_admits (by decide) fun v => choose_admits h _
  | each =>
    exact (require_admits .each (hrequired rfl)).bind fun _ _ => eachCall_admits h args
  | «with» =>
    refine (require_admits .with (hrequired rfl)).bind fun _ _ => ?_
    exact single_admits (by decide) fun v => withContext_admits h v
  | lookup => exact lookupOf_admits (hlookup rfl)
  | log => exact admits_pure trivial
  | join =>
    refine (require_admits .join (hrequired rfl)).bind fun _ _ => ?_
    rw [joinOf]
    split
    · exact (admits_ofOption fun _ _ => trivial).bind fun _ _ => admits_pure trivial
    · exact admits_pure trivial
  | has =>
    exact (require_admits .has (hrequired rfl)).bind fun _ _ => admits_pure trivial
  | property =>
    exact (require_admits .property (hrequired rfl)).bind fun _ _ => admits_pure trivial

end Calls

end BuildNotice.Template
