import BuildNotice.Proofs.Template.Evaluation
import BuildNotice.Proofs.Value.Extended

/-! Two renderings side by side, of a context and of one with further entries. -/

namespace BuildNotice.Template

open Render Helper
open Value (Extension)

def State.path (s : State) : Option Value := Record.get? "contextPath" s.frame

section Follows

variable {α β : Type} {P : α → α → Prop} {Q : β → β → Prop} {act act' : Render α}
  {f f' : α → Render β} {a a' : α} {e : RenderError}

/-- Where the first action gives a value, the second one gives a value that goes with it. -/
def Follows (P : α → α → Prop) (act act' : Render α) : Prop :=
  ∀ s s' a t, s.path = s'.path → act s = .ok (a, t) →
    ∃ a' t', act' s' = .ok (a', t') ∧ t.path = t'.path ∧ P a a'

lemma follows_pure (h : P a a') : Follows P (pure a) (pure a') := by
  rintro s s' _ _ hs ⟨⟩
  exact ⟨a', s', rfl, hs, h⟩

lemma follows_of_stops (h : Stops act e) : Follows P act act' := by
  intro s s' a t _ hact
  rw [h s] at hact
  exact absurd hact (by simp)

lemma follows_fail (e : RenderError) : Follows P (fail e) act' := follows_of_stops (stops_fail e)

lemma follows_of_yields (h : Yields act a) (h' : Yields act' a') (hP : P a a') :
    Follows P act act' := by
  intro s s' b t hs hact
  rw [h s] at hact
  obtain ⟨rfl, rfl⟩ := Prod.mk.inj (Except.ok.inj hact)
  exact ⟨a', s', h' s', hs, hP⟩

lemma follows_ofOption (x : Option α) : Follows Eq (ofOption x) (ofOption x) := by
  cases x with
  | none => exact follows_fail _
  | some a => exact follows_pure rfl

lemma Follows.bind (h : Follows P act act') (hf : ∀ a a', P a a' → Follows Q (f a) (f' a')) :
    Follows Q (act >>= f) (act' >>= f') := by
  intro s s' b u hs hb
  simp only [Bind.bind, StateT.bind, Except.bind] at hb ⊢
  split at hb
  · exact absurd hb (by simp)
  · next r hact =>
    obtain ⟨a', t', hact', ht, hP⟩ := h s s' r.1 r.2 hs hact
    rw [hact']
    exact hf r.1 a' hP r.2 t' b u ht hb

lemma Follows.bind_eq (h : Follows Eq act act') (hf : ∀ a, Follows Q (f a) (f' a)) :
    Follows Q (act >>= f) (act' >>= f') := by
  refine h.bind fun a a' ha => ?_
  rw [← ha]
  exact hf a

lemma follows_bind_of_stops (h : Stops act e) : Follows Q (act >>= f) (act' >>= f') :=
  follows_of_stops h.bind

lemma Follows.inFrame (h : Follows P act act') : Follows P (inFrame act) (inFrame act') := by
  have hchild (s : State) : State.path ⟨s.fresh, Record.set "_parent" (.record s.label s.frame)
      s.frame, s.fresh + 1⟩ = s.path := by
    rw [State.path, Record.get?_set, if_neg (by decide), State.path]
  intro s s' a t hs hact
  simp only [Template.inFrame] at hact ⊢
  split at hact
  · next b u hb =>
    obtain ⟨b', u', hb', -, hP⟩ := h _ _ b u ((hchild s).trans (hs.trans (hchild s').symm)) hb
    obtain ⟨rfl, rfl⟩ := Prod.mk.inj (Except.ok.inj hact)
    rw [hb']
    exact ⟨b', { s' with fresh := u'.fresh }, rfl, hs, hP⟩
  · exact absurd hact (by simp)

lemma setData_follows (key : String) (v : Value) : Follows Eq (setData key v) (setData key v) := by
  rintro s s' _ _ hs ⟨⟩
  refine ⟨(), _, rfl, ?_, rfl⟩
  simp only [State.path, Record.get?_set] at hs ⊢
  rw [hs]

lemma getPath_follows : Follows Eq (getData "contextPath") (getData "contextPath") := by
  rintro s s' _ _ hs ⟨⟩
  exact ⟨_, s', rfl, hs, congrArg (·.getD .undefined) hs⟩

end Follows

structure Scope.Pair (x : Extension) (sc sc' : Scope) : Prop where
  escapes : sc.escapes = sc'.escapes
  names : sc.names = sc'.names
  undeclared : sc.names.all List.isEmpty = true
  context : x.Pair sc.context sc'.context
  outer : List.Forall₂ x.Pair sc.outer sc'.outer
  levels : sc.levels = sc'.levels

variable {x : Extension} {sc sc' : Scope} {v v' : Value}

section Paths

variable {p : Path} {key : String} {names : List String}

lemma member_follows (h : x.Pair v v') (key : String) :
    Follows x.Kept (member v key) (member v' key) := by
  rw [member, member, ← h.isNullish]
  split
  · exact follows_fail _
  · exact follows_pure (h.own key)

lemma member_undefined_stops (key : String) :
    Stops (member .undefined key) (.memberOfNothing "undefined" key) := stops_fail _

lemma members_follows (h : x.Kept v v') (names : List String) :
    Follows x.Kept (members v names) (members v' names) := by
  induction names generalizing v v' with
  | nil => exact follows_pure h
  | cons key names ih =>
    obtain rfl | ⟨rfl, hv⟩ := h
    · exact follows_bind_of_stops (member_undefined_stops key)
    · exact (member_follows (.same hv) key).bind fun w w' hw => ih hw

lemma members_pair_follows (h : x.Pair v v') (hne : names ≠ []) :
    Follows x.Kept (members v names) (members v' names) := by
  cases names with
  | nil => exact absurd rfl hne
  | cons key names => exact (member_follows h key).bind fun w w' hw => members_follows hw names

lemma refused_stops (text : Option String) (e : String → RenderError) :
    ∃ e', Stops (do fail (α := Value) (e (← ofOption text))) e' := by
  cases text with
  | none => exact ⟨_, (stops_fail _).bind⟩
  | some s => exact ⟨e s, (yields_pure s).bind_stops (stops_fail _)⟩

lemma knownMember_follows (h : x.Pair v v') (key : String) (position : Position) :
    Follows Eq (knownMember v key position) (knownMember v' key position) := by
  have htruthy : v.isTruthy = v'.isTruthy := by cases h <;> rfl
  have hcomposite : v.isComposite = v'.isComposite := by cases h <;> rfl
  rw [knownMember, knownMember, ← htruthy, ← hcomposite]
  split
  · exact follows_of_stops (refused_stops v.print? _).choose_spec
  · split
    · next hk =>
      rw [Bool.and_eq_true] at hk
      obtain ⟨hk', hown⟩ := h.knows hk.2
      rw [hk.1, hk', hown]
      exact follows_pure rfl
    · exact follows_of_stops (refused_stops v.print? _).choose_spec

lemma knownMembers_undefined_stops (position : Position) (hne : names ≠ []) :
    ∃ e, Stops (knownMembers .undefined position names) e := by
  match names, hne with
  | [key], _ => exact refused_stops _ _
  | key :: next :: rest, _ => exact ⟨_, (member_undefined_stops key).bind⟩

lemma knownMembers_pair_follows (h : x.Pair v v') (position : Position) (hne : names ≠ []) :
    Follows Eq (knownMembers v position names) (knownMembers v' position names) := by
  induction names generalizing v v' with
  | nil => exact absurd rfl hne
  | cons key names ih =>
    cases names with
    | nil => exact knownMember_follows h key position
    | cons next rest =>
      refine (member_follows h key).bind fun w w' hw => ?_
      obtain rfl | ⟨rfl, hv⟩ := hw
      · exact follows_of_stops (knownMembers_undefined_stops position (by simp)).choose_spec
      · exact ih (.same hv) (by simp)

def Path.isKeyed (p : Path) : Bool := !p.data && p.head != ""

lemma Path.parts_ne_nil (h : p.isKeyed = true) : p.parts ≠ [] := by
  intro hparts
  simp [Path.isKeyed, Path.head, hparts] at h

lemma getD_pair {vs vs' : List Value} (h : List.Forall₂ x.Pair vs vs') (n : Nat) :
    x.Pair (vs[n]?.getD .undefined) (vs'[n]?.getD .undefined) := by
  induction h generalizing n with
  | nil => exact .same ⟨rfl, rfl⟩
  | cons hv _ ih =>
    cases n with
    | zero => exact hv
    | succ n => simpa using ih n

lemma headD_pair {vs vs' : List Value} (h : List.Forall₂ x.Pair vs vs') :
    x.Pair (vs.headD .undefined) (vs'.headD .undefined) := by
  cases h with
  | nil => exact .same ⟨rfl, rfl⟩
  | cons hv _ => exact hv

lemma Scope.Pair.contextAt (h : sc.Pair x sc') (n : Nat) :
    x.Pair (sc.contextAt n) (sc'.contextAt n) := by
  cases n with
  | zero => exact h.context
  | succ n => exact getD_pair h.outer (n + 1)

lemma base_follows (h : sc.Pair x sc') (hp : p.isKeyed = true) :
    Follows x.Pair (sc.base p) (sc'.base p) := by
  have hdata : p.data = false := by
    simp only [Path.isKeyed, Bool.and_eq_true, Bool.not_eq_true'] at hp
    exact hp.1
  have hbase (sc : Scope) : Yields (sc.base p) (sc.contextAt p.depth) := fun s => by
    simp [Scope.base, hdata]
  exact follows_of_yields (hbase sc) (hbase sc') (h.contextAt p.depth)

lemma lookup_follows (h : sc.Pair x sc') (hp : p.isKeyed = true) :
    Follows x.Kept (sc.lookup false p) (sc'.lookup false p) ∧
      Follows Eq (sc.lookup true p) (sc'.lookup true p) := by
  have hhead : p.head ≠ "" := by
    simp only [Path.isKeyed, Bool.and_eq_true, bne_iff_ne] at hp
    exact hp.2
  have hundeclared := h.names ▸ Path.declared?_eq_none h.undeclared p
  simp only [Scope.lookup, hundeclared, Path.declared?_eq_none h.undeclared, hhead, if_false,
    if_true, Bool.false_eq_true]
  exact ⟨(base_follows h hp).bind fun v v' hv => members_pair_follows hv (Path.parts_ne_nil hp),
    (base_follows h hp).bind fun v v' hv =>
      knownMembers_pair_follows hv p.position (Path.parts_ne_nil hp)⟩

lemma enter_follows {outer outer' : List Value} (hv : x.Pair v v')
    (ho : List.Forall₂ x.Pair outer outer') :
    Follows (List.Forall₂ x.Pair) (Scope.enter outer v) (Scope.enter outer' v') := by
  have hcurrent := headD_pair ho
  have hlevel {stays stays' : Bool} (h : stays = stays') : Follows (List.Forall₂ x.Pair)
      (if stays = true then pure outer else pure (v :: outer))
      (if stays' = true then pure outer' else pure (v' :: outer')) := by
    subst h
    cases stays with
    | true => exact follows_pure ho
    | false => exact follows_pure (.cons hv ho)
  unfold Scope.enter
  simp only
  rw [← hv.agree? hcurrent]
  refine (follows_ofOption _).bind_eq fun agree => hlevel (congrArg (agree || ·) ?_)
  generalize outer.headD .undefined = w at hcurrent
  generalize outer'.headD .undefined = w' at hcurrent
  -- the record that stands in where there is no context is neither of the two
  obtain ⟨n, hn⟩ := Nat.exists_eq_succ_of_ne_zero x.label_ne
  obtain ⟨m, hm⟩ := Nat.exists_eq_succ_of_ne_zero x.longLabel_ne
  cases hv with
  | same _ =>
    cases hcurrent with
    | same _ => rfl
    | ends =>
      cases v with
      | record label fields => cases label <;> rfl
      | _ => rfl
  | ends =>
    rw [Extension.short, Extension.long, hn, hm]
    cases w <;> rfl

lemma around_follows (h : sc.Pair x sc') (hv : x.Pair v v') :
    Follows (List.Forall₂ x.Pair) (sc.around v) (sc'.around v') := by
  rw [Scope.around, Scope.around, ← h.levels]
  split
  · exact enter_follows hv h.outer
  · exact follows_pure h.outer

end Paths

section Helpers

variable {o o' : Helper.Options} {ids : List Value}

def RunsPair (x : Extension) (body body' : Option Runner) : Prop :=
  ∀ v v' args args', x.Pair v v' → Follows Eq (Helper.run body v args) (Helper.run body' v' args')

structure Helper.Options.Pair (x : Extension) (o o' : Helper.Options) : Prop where
  this : x.Pair o.this o'.this
  hash : o.hash = o'.hash
  ids : o.ids = o'.ids
  body : RunsPair x o.body o'.body
  alternative : RunsPair x o.alternative o'.alternative

lemma require_undefined_stops (args ids : List Value) (name : String) :
    ∃ e, Stops (require (.undefined :: args) ids name) e := by
  rw [require, List.head?_cons]
  simp only
  split <;> exact ⟨_, stops_fail _⟩

lemma choose_follows (h : o.Pair x o') (condition : Bool) :
    Follows Eq (choose condition o) (choose condition o') := by
  rw [choose, choose]
  split
  · exact h.body _ _ _ _ h.this
  · exact h.alternative _ _ _ _ h.this

lemma appendPath_follows (path id : Value) :
    Follows Eq (appendPath path id) (appendPath path id) := by
  refine (follows_ofOption _).bind_eq fun s => ?_
  split
  · exact (follows_ofOption _).bind_eq fun t => follows_pure rfl
  · exact follows_pure rfl

lemma argumentPath_follows (h : o.Pair x o') :
    Follows Eq (argumentPath o) (argumentPath o') := by
  rw [argumentPath, argumentPath, ← h.ids]
  exact getPath_follows.bind_eq fun path => appendPath_follows path _

lemma withContext_follows (h : o.Pair x o') (hv : x.Apart v) :
    Follows Eq (withContext v o) (withContext v o') := by
  rw [withContext, withContext]
  split
  · exact h.alternative _ _ _ _ h.this
  · refine (argumentPath_follows h).bind_eq fun path => Follows.inFrame ?_
    exact (setData_follows _ _).bind_eq fun _ => h.body _ _ _ _ (.same hv)

lemma eachItem_follows (h : o.Pair x o') (path : String) (key : Value) (keyText : String)
    (index : Nat) (last : Bool) (hv : x.Apart v) (acc : Value) :
    Follows Eq (eachItem o path key keyText index last v acc)
      (eachItem o' path key keyText index last v acc) := by
  refine (setData_follows _ _).bind_eq fun _ => (setData_follows _ _).bind_eq fun _ =>
    (setData_follows _ _).bind_eq fun _ => (setData_follows _ _).bind_eq fun _ =>
    (setData_follows _ _).bind_eq fun _ => ?_
  exact (h.body _ _ _ _ (.same hv)).bind_eq fun out => follows_ofOption _

lemma eachFrom_follows (h : o.Pair x o') (path : String) {es : List (Value × String × Value)}
    (hes : ∀ e ∈ es, x.Apart e.2.2) (index : Nat) (acc : Value) :
    Follows Eq (eachFrom o path es index acc) (eachFrom o' path es index acc) := by
  induction es generalizing index acc with
  | nil => exact follows_pure rfl
  | cons e es ih =>
    obtain ⟨key, keyText, v⟩ := e
    rw [List.forall_mem_cons] at hes
    exact (eachItem_follows h path key keyText index es.isEmpty hes.1 acc).bind_eq fun acc =>
      ih hes.2 (index + 1) acc

lemma entries_apart (hv : x.Apart v) : ∀ e ∈ entries v, x.Apart e.2.2 :=
  forall_entries (by rintro _ _ rfl w hw; exact Extension.apart_of_items hv hw)
    (by rintro _ _ rfl f hf; exact Extension.apart_of_fields hv hf)

lemma eachOf_follows (h : o.Pair x o') (hv : x.Apart v) :
    Follows Eq (eachOf v o) (eachOf v o') := by
  refine (argumentPath_follows h).bind_eq fun path => ?_
  have hes := entries_apart hv
  cases hentries : entries v with
  | nil => exact h.alternative _ _ _ _ h.this
  | cons e es =>
    rw [hentries] at hes
    exact (eachFrom_follows h _ hes 0 _).inFrame

lemma eachCall_follows (h : o.Pair x o') (hv : x.Apart v) (args : List Value) :
    Follows Eq (eachCall (v :: args) o) (eachCall (v :: args) o') := by
  cases args with
  | nil => exact eachOf_follows h hv
  | cons options rest =>
    rw [eachCall, eachCall]
    split <;> exact follows_fail _

lemma single_follows {name : String} {args : List Value} {k k' : Value → Render Value}
    (h : Follows Eq (k v) (k' v)) :
    Follows Eq (single name (v :: args) k) (single name (v :: args) k') := by
  cases args with
  | nil => exact h
  | cons w args => exact follows_fail _

lemma joinOf_follows (args : List Value) : Follows Eq (joinOf args) (joinOf args) := by
  unfold joinOf
  split
  · exact (follows_ofOption _).bind_eq fun texts => follows_pure rfl
  · exact follows_pure rfl

lemma require_follows (args ids : List Value) (name : String) :
    Follows Eq (require args ids name) (require args ids name) := by
  unfold require
  split
  · split <;> exact follows_fail _
  · exact follows_pure rfl

def Helper.requires : Helper → Bool
  | .lookup => false
  | .log => false
  | _ => true

lemma call_undefined_stops {helper : Helper} (hr : helper.requires = true) (args : List Value)
    (o : Helper.Options) : ∃ e, Stops (helper.call (.undefined :: args) o) e := by
  have hstops (name : String) (k : Unit → Render Value) :
      ∃ e, Stops (require (.undefined :: args) o.ids name >>= k) e := by
    obtain ⟨e, he⟩ := require_undefined_stops args o.ids name
    exact ⟨e, he.bind⟩
  cases helper with
  | lookup => exact absurd hr Bool.false_ne_true
  | log => exact absurd hr Bool.false_ne_true
  | _ => exact hstops _ _

lemma call_apart_follows (h : o.Pair x o') {helper : Helper} (hr : helper.requires = true)
    (hv : x.Apart v) (args : List Value) :
    Follows Eq (helper.call (v :: args) o) (helper.call (v :: args) o') := by
  have hrequire (name : String) {k k' : Unit → Render Value} (hk : Follows Eq (k ()) (k' ())) :
      Follows Eq (require (v :: args) o.ids name >>= k)
        (require (v :: args) o'.ids name >>= k') := by
    rw [← h.ids]
    exact (require_follows _ _ _).bind_eq fun _ => hk
  cases helper with
  | «if» =>
    refine hrequire _ (single_follows ?_)
    rw [← h.hash]
    exact choose_follows h _
  | «unless» =>
    refine hrequire _ (single_follows ?_)
    rw [← h.hash]
    exact choose_follows h _
  | each => exact hrequire _ (eachCall_follows h hv args)
  | «with» => exact hrequire _ (single_follows (withContext_follows h hv))
  | join => exact hrequire _ (joinOf_follows _)
  | has => exact hrequire _ (follows_pure rfl)
  | property => exact hrequire _ (follows_pure rfl)
  | lookup => exact absurd hr Bool.false_ne_true
  | log => exact absurd hr Bool.false_ne_true

lemma call_follows (h : o.Pair x o') {helper : Helper} (hr : helper.requires = true)
    (hv : x.Kept v v') (args : List Value) :
    Follows Eq (helper.call (v :: args) o) (helper.call (v' :: args) o') := by
  obtain rfl | ⟨rfl, hv⟩ := hv
  · exact follows_of_stops (call_undefined_stops hr args o).choose_spec
  · exact call_apart_follows h hr hv args

lemma call_nil_follows (helper : Helper) (o o' : Helper.Options) :
    Follows Eq (helper.call [] o) (helper.call [] o') := by
  cases helper with
  | «if» => exact follows_fail _
  | «unless» => exact follows_fail _
  | each => exact follows_fail _
  | «with» => exact follows_fail _
  | lookup => exact follows_fail _
  | log => exact follows_pure rfl
  | join => exact follows_pure rfl
  | has => exact follows_pure rfl
  | property => exact follows_pure rfl

end Helpers

section Sums

variable {act act' : Render (Option Value)}

lemma plus_follows (run : Option Value) (v : Value) : Follows Eq (plus run v) (plus run v) := by
  cases run with
  | none => exact follows_pure rfl
  | some w => exact follows_ofOption _

lemma add_follows (sum : Sum) (more : Bool) (v : Value) :
    Follows Eq (sum.add more v) (sum.add more v) := by
  unfold Sum.add
  split
  · split <;> exact (plus_follows _ v).bind_eq fun w => follows_pure rfl
  · exact (plus_follows _ v).bind_eq fun w => follows_pure rfl

lemma complete_follows (sum : Sum) : Follows Eq sum.complete sum.complete := by
  unfold Sum.complete
  split
  · exact plus_follows _ _
  · exact follows_pure rfl
  · exact follows_pure rfl
  · exact follows_pure rfl

lemma step_follows (sum : Sum) (completing more : Bool) (h : Follows Eq act act') :
    Follows Eq (sum.step completing more act) (sum.step completing more act') := by
  cases completing with
  | true =>
    refine (complete_follows sum).bind_eq fun total => h.bind_eq fun added => ?_
    cases added with
    | none => exact follows_pure rfl
    | some v => exact (plus_follows _ v).bind_eq fun w => follows_pure rfl
  | false =>
    refine h.bind_eq fun added => ?_
    cases added with
    | none => exact follows_pure rfl
    | some v => exact add_follows sum more v

end Sums

end BuildNotice.Template
