import BuildNotice.Proofs.Template.Answers

/-! The text that a template stands for, by recursion on its program. -/

namespace BuildNotice

namespace Value

mutual

def isWithout (name : String) : Value → Bool
  | .list _ items => areWithout name items
  | .record _ fields => fieldsWithout name fields
  | _ => true

def areWithout (name : String) : List Value → Bool
  | [] => true
  | v :: vs => v.isWithout name && areWithout name vs

def fieldsWithout (name : String) : List (String × Value) → Bool
  | [] => true
  | f :: fs => fieldWithout name f && fieldsWithout name fs

def fieldWithout (name : String) : String × Value → Bool
  | (key, v) => key != name && v.isWithout name

end

end Value

namespace Template

open Render Helper
open RenderError (isKey)

mutual

def Expr.isRead : Expr → Bool
  | .path p => p.isDotted
  | .group c => c.isRead
  | _ => true

def Call.isRead : Call → Bool
  | .mk callee args pairs =>
    callee.isSimple && (Helper.ofName? callee.head).any answers && !args.isEmpty && pairs.isEmpty &&
      areRead args

def areRead : List Expr → Bool
  | [] => true
  | e :: es => e.isRead && areRead es

end

def Call.opensRead : Call → Bool
  | .mk callee [e] [] =>
    callee.isSimple && (Helper.ofName? callee.head).any isBlock && e.isRead
  | _ => false

def answering : Grammar where
  char _ := true
  output _ call :=
    call.isBare && call.callee.isDotted && call.callee.isValue || call.isRead
  block call := call.opensRead
  params names := names.isEmpty

/-- What keeps a template from being rendered: a key that is not there, an argument of a helper that
is undefined, or a value that has no text where one is asked for. -/
inductive Gap where
  | lacks (key : String)
  | lacksArgument (path : String)
  | noText
  deriving DecidableEq

def Gap.failure (source : Source) : Gap → Failure
  | .lacks key =>
    .fault (.undefinedKey (.text key) (Value.ofFields [("template", .text source.id)]))
  | .lacksArgument path => .fault (.undefinedKey (.text path) .undefined)
  | .noText => plainFailure .wrongKind

def told {α : Type} : Option α → Except Gap α
  | some a => .ok a
  | none => .error .noText

def looselyAt (v : Value) (names : List String) : Except Gap Value :=
  match lost? v names with
  | some key => .error (.lacks key)
  | none => .ok (reached v names)

/-- The value under a path whose last name has to be there. Where it is not, the value that it is
looked up in is told. -/
def strictlyAt (v : Value) : List String → Except Gap Value
  | [] => .ok v
  | [key] =>
    if v.isComposite && v.knows key then .ok (v.own key)
    else do
      let _ ← told v.print?
      .error (.lacks key)
  | key :: next :: names =>
    if v.isNullish then .error (.lacks key) else strictlyAt (v.own key) (next :: names)

def Expr.known : Expr → Value
  | .path p => .text (pathId p.written)
  | .group _ => .bool true
  | _ => .null

def Expr.given (helper : Helper) (e : Expr) : Value → Except Gap Value
  | .undefined => .error (.lacksArgument (helper.requiredKey e.known))
  | v => .ok v

mutual

def Expr.denote (c : Value) : Expr → Except Gap Value
  | .string s => .ok (.text s)
  | .number x => .ok (.number x)
  | .boolean b => .ok (.bool b)
  | .undefined => .ok .undefined
  | .null => .ok .null
  | .path p => looselyAt c p.parts
  | .group call => call.denote c

def Call.denote (c : Value) : Call → Except Gap Value
  | .mk callee (e :: es) _ =>
    match Helper.ofName? callee.head with
    | some helper => do
      let v ← e.denote c
      let more ← denoteAll c es
      let v ← e.given helper v
      told (helper.answer? v more)
    | none => .ok .undefined
  | _ => .ok .undefined

def denoteAll (c : Value) : List Expr → Except Gap (List Value)
  | [] => .ok []
  | e :: es => do
    let v ← e.denote c
    let more ← denoteAll c es
    .ok (v :: more)

end

def Call.shown (c : Value) (call : Call) : Except Gap Value :=
  if call.isBare then strictlyAt c call.callee.parts else call.denote c

def here (c : Value) : Value := if c.isNullish then .nothing else c

def opened (helper : Helper) (v c : Value) (body other : Value → Except Gap Value) :
    Except Gap Value :=
  match helper with
  | .if => if holds v [] then body (here c) else other (here c)
  | .unless => if !holds v [] then body (here c) else other (here c)
  | .each =>
    match entries v with
    | [] => other (here c)
    | e :: es => (e :: es).foldlM (fun sum e => do
        let w ← body e.2.2
        told (sum.add? w)) (.text "")
  | .with => if v.isEmpty then other (here c) else body v
  | _ => .ok .undefined

def addTo? : Option Value → Option Value → Except Gap (Option Value)
  | none, y => .ok y
  | some x, none => .ok (some x)
  | some x, some y => do
    let sum ← told (x.add? y)
    .ok (some sum)

mutual

def Statement.denote (escapes : Bool) (c : Value) : Statement → Except Gap (Option Value)
  | .content text => .ok (if text = "" then none else some (.text text))
  | .output escaped call => do
    let v ← call.shown c
    let w ← told (added? (escaped && escapes) v)
    .ok (some w)
  | .block (.mk callee (e :: _) _) body other =>
    match Helper.ofName? callee.head with
    | some helper => do
      let v ← e.denote c
      let v ← e.given helper v
      let w ← opened helper v c (fun c => bodyDenote escapes c body)
        (fun c => bodyDenote escapes c other)
      .ok (some (if w.isNullish then .text "" else w))
    | none => .ok none
  | _ => .ok none

def bodyDenote (escapes : Bool) (c : Value) : Option Program → Except Gap Value
  | none => .ok (.text "")
  | some (.mk _ body) => do
    let sum ← sumDenote escapes c none body
    .ok (sum.getD (.text ""))

def sumDenote (escapes : Bool) (c : Value) (sum : Option Value) :
    List Statement → Except Gap (Option Value)
  | [] => .ok sum
  | s :: ss => do
    let x ← s.denote escapes c
    let sum ← addTo? sum x
    sumDenote escapes c sum ss

end

def Program.denote (escapes : Bool) (c : Value) (p : Program) : Except Gap String := do
  let v ← bodyDenote escapes c (some p)
  told v.print?

instance : Reason Gap where
  raises
    | .lacks key => some fun e => e.Lacks key ∧ isKey key = true
    | .lacksArgument path => some fun e => e = .missingArgument path
    | .noText => some fun e => e = .wrongKind

structure Scope.Reads (sc : Scope) (c : Value) : Prop where
  names : sc.names.all List.isEmpty = true
  context : sc.context = c
  levels : sc.levels = false

section Lookups

variable {sc : Scope} {c v : Value} {p : Path} {names : List String}

lemma comes_ofOption {α : Type} (x : Option α) : Comes Eq (ofOption x) (told x) := by
  cases x with
  | none =>
    refine comes_of_stops (stops_fail _) ?_
    rintro _ ⟨⟩
    rfl
  | some a => exact comes_pure rfl

lemma comes_lacks {α : Type} {act : Render α} {e : RenderError} {key : String} (h : Stops act e)
    (hlacks : e.Lacks key) (hkey : isKey key = true) : Comes Eq act (.error (Gap.lacks key)) := by
  refine comes_of_stops h ?_
  rintro _ ⟨⟩
  exact ⟨hlacks, hkey⟩

lemma members_denote (hkeys : names.all isKey = true) (v : Value) :
    Comes Eq (members v names) (looselyAt v names) := by
  rw [looselyAt]
  cases hlost : lost? v names with
  | some key =>
    obtain ⟨e, he, hlacks⟩ := members_lost hlost
    exact comes_lacks he hlacks (List.all_eq_true.mp hkeys key (lost?_mem hlost))
  | none => exact comes_of_yields (members_yields (leads_of_lost? hlost)) rfl

lemma print?_isSome_of_not_composite (h : v.isComposite = false) : v.print?.isSome = true := by
  cases v with
  | list label items => exact absurd h (by simp [Value.isComposite])
  | record label fields => exact absurd h (by simp [Value.isComposite])
  | _ => rfl

lemma knownMember_denotes {key : String} (hkey : isKey key = true) (v : Value)
    (position : Position) : Comes Eq (knownMember v key position) (strictlyAt v [key]) := by
  rw [strictlyAt]
  split
  · next hknown =>
    obtain ⟨hcomposite, hknows⟩ := Bool.and_eq_true_iff.mp hknown
    exact comes_of_yields (knownMember_yields hcomposite hknows position) rfl
  · next hunknown =>
    rw [knownMember]
    split
    · exact (comes_ofOption _).bind fun s t hst =>
        comes_lacks (stops_fail (.notSearchable key s)) rfl hkey
    · next hsearch =>
      have hnot : ¬ (v.isTruthy && v.knows key) = true := by
        intro h
        obtain ⟨htruthy, hknows⟩ := Bool.and_eq_true_iff.mp h
        exact hunknown (by simpa [htruthy, hknows] using hsearch)
      rw [if_neg hnot]
      exact (comes_ofOption _).bind fun s t hst =>
        comes_lacks (stops_fail (.notDefined key s position)) rfl hkey

lemma knownMembers_denote (position : Position) :
    (names : List String) → names.all isKey = true → (v : Value) →
    Comes Eq (knownMembers v position names) (strictlyAt v names)
  | [], _, v => comes_pure rfl
  | [key], hkeys, v => knownMember_denotes (by simpa using hkeys) v position
  | key :: next :: rest, hkeys, v => by
    obtain ⟨hkey, hrest⟩ := Bool.and_eq_true_iff.mp hkeys
    have hstep : knownMembers v position (key :: next :: rest) =
        (member v key >>= fun w => knownMembers w position (next :: rest)) := rfl
    rw [hstep, strictlyAt]
    split
    · next hn =>
      obtain ⟨e, he, hlacks⟩ := member_stops hn key
      exact comes_lacks he.bind hlacks hkey
    · next hn =>
      exact comes_of_yields_bind (member_yields (by simpa using hn) key)
        (knownMembers_denote position (next :: rest) hrest (v.own key))

lemma lookup_denotes (h : sc.Reads c) (hp : p.isDotted = true) (strict : Bool) :
    Comes Eq (sc.lookup strict p)
      (if strict then strictlyAt c p.parts else looselyAt c p.parts) := by
  rw [lookup_dotted h.names h.context hp]
  simp only [Path.isDotted, Bool.and_eq_true] at hp
  cases strict with
  | true => exact knownMembers_denote p.position p.parts hp.2 c
  | false => exact members_denote hp.2 c

end Lookups

section Calls

variable {sc : Scope} {c v : Value} {callee : Path} {helper : Helper} {e : Expr} {es : List Expr}
  {bodies : Render Bodies} {b : Bodies}

lemma Call.exists_of_isRead {call : Call} (h : call.isRead = true) :
    ∃ callee helper e es, call = .mk callee (e :: es) [] ∧ callee.isSimple = true ∧
      Helper.ofName? callee.head = some helper ∧ helper.answers = true ∧ e.isRead = true ∧
        areRead es = true := by
  obtain ⟨callee, args, pairs⟩ := call
  simp only [Call.isRead, Bool.and_eq_true, Option.any_eq_true, List.isEmpty_iff] at h
  obtain ⟨⟨⟨⟨hsimple, helper, hof, ha⟩, hne⟩, rfl⟩, hargs⟩ := h
  cases args with
  | nil => exact absurd hne (by simp)
  | cons e es =>
    obtain ⟨he, hes⟩ := Bool.and_eq_true_iff.mp hargs
    exact ⟨callee, helper, e, es, rfl, hsimple, hof, ha, he, hes⟩

lemma Call.exists_of_opensRead {call : Call} (h : call.opensRead = true) :
    ∃ callee helper e, call = .mk callee [e] [] ∧ callee.isSimple = true ∧
      Helper.ofName? callee.head = some helper ∧ helper.isBlock = true ∧ e.isRead = true := by
  unfold Call.opensRead at h
  split at h
  · next callee e =>
    simp only [Bool.and_eq_true, Option.any_eq_true] at h
    obtain ⟨⟨hsimple, helper, hof, hblock⟩, he⟩ := h
    exact ⟨callee, helper, e, rfl, hsimple, hof, hblock, he⟩
  · exact absurd h Bool.false_ne_true

lemma exprId_known (hn : sc.names.all List.isEmpty = true) (e : Expr) :
    Yields (exprId sc e) e.known := by
  cases e with
  | path p =>
    rw [exprId, Path.declared?_eq_none hn]
    exact yields_pure _
  | _ => exact yields_pure _

lemma exprIds_known (hn : sc.names.all List.isEmpty = true) (es : List Expr) :
    Yields (exprIds sc es) (es.map Expr.known) := by
  induction es with
  | nil => exact yields_pure []
  | cons e es ih =>
    rw [exprIds]
    exact (exprId_known hn e).bind (ih.bind (yields_pure _))

lemma known_isPrintable (e : Expr) : e.known.isPrintable = true := by
  cases e <;> rfl

lemma denoteAll_append (c : Value) (es es' : List Expr) :
    denoteAll c (es ++ es') = (do
      let vs ← denoteAll c es
      let ws ← denoteAll c es'
      .ok (vs ++ ws)) := by
  induction es with
  | nil =>
    rw [List.nil_append, denoteAll]
    cases denoteAll c es' <;> rfl
  | cons e es ih =>
    rw [List.cons_append, denoteAll, denoteAll, ih]
    simp only [bind_assoc, ok_bind, List.cons_append]

lemma Call.denote_given (hof : Helper.ofName? callee.head = some helper) (hv : e.denote c = .ok v)
    (hne : v ≠ .undefined) (es : List Expr) :
    (Call.mk callee (e :: es) []).denote c = (do
      let more ← denoteAll c es
      told (helper.answer? v more)) := by
  have hgiven : e.given helper v = .ok v := by
    cases v with
    | undefined => exact absurd rfl hne
    | _ => rfl
  simp only [Call.denote, hof, hv, ok_bind, hgiven]

lemma Call.denote_of_lost (hof : Helper.ofName? callee.head = some helper)
    (hv : e.denote c = .ok v) (hne : v ≠ .undefined) {ws : List Value}
    (hes : denoteAll c es = .ok ws) {p : Path} {key : String}
    (hlost : lost? c p.parts = some key) (after : List Expr) :
    (Call.mk callee (e :: (es ++ .path p :: after)) []).denote c = .error (.lacks key) := by
  have hp : Expr.denote c (.path p) = .error (.lacks key) := by rw [Expr.denote, looselyAt, hlost]
  rw [denote_given hof hv hne, denoteAll_append, hes, denoteAll, hp]
  rfl

lemma Call.denote_of_undefined (hof : Helper.ofName? callee.head = some helper)
    (hv : e.denote c = .ok v) (hne : v ≠ .undefined) {ws : List Value}
    (hes : denoteAll c es = .ok ws) {p : Path} (hlost : lost? c p.parts = none)
    (hundefined : reached c p.parts = .undefined) :
    (Call.mk callee (e :: (es ++ [.path p])) []).denote c =
      (Call.mk callee (e :: es) []).denote c := by
  have hp : Expr.denote c (.path p) = .ok .undefined := by
    rw [Expr.denote, looselyAt, hlost, hundefined]
  rw [denote_given hof hv hne, denote_given hof hv hne, denoteAll_append, hes, denoteAll, hp]
  exact congrArg told (answer?_undefined helper v ws)

lemma require_denotes (helper : Helper) (e : Expr) (ids : List Value) (v : Value)
    (more : List Value) :
    Comes (fun _ w => v = w ∧ v ≠ .undefined) (require (v :: more) (e.known :: ids) helper.title)
      (e.given helper v) := by
  cases v with
  | undefined =>
    have hstops : Stops (require (.undefined :: more) (e.known :: ids) helper.title)
        (.missingArgument (helper.requiredKey e.known)) := by
      cases e <;> exact stops_fail _
    refine comes_of_stops hstops ?_
    rintro _ ⟨⟩
    rfl
  | _ => exact comes_pure ⟨rfl, by simp⟩

lemma answer_denotes (ha : helper.answers = true) {o : Helper.Options} {ids : List Value}
    (hids : o.ids = e.known :: ids) (v : Value) (more : List Value) :
    Comes Eq (helper.call (v :: more) o) (do
      let v ← e.given helper v
      told (helper.answer? v more)) := by
  have hrequire := require_denotes helper e ids v more
  rw [← hids] at hrequire
  rw [call_answers ha]
  refine hrequire.bind fun _ w hw => ?_
  obtain ⟨rfl, -⟩ := hw
  exact comes_ofOption _

lemma group_eq (hn : sc.names.all List.isEmpty = true) (call : Call) :
    group sc call = helperCall sc call (pure .none) := by
  obtain ⟨callee, args, pairs⟩ := call
  rw [group, declared?_eq_none hn]
  simp only [Option.isSome_none, Bool.false_eq_true, and_false, if_false]
  rfl

mutual

lemma expr_denotes (h : sc.Reads c) : (e : Expr) → e.isRead = true →
    Comes Eq (expr sc e) (e.denote c)
  | .string s, _ => comes_pure rfl
  | .number x, _ => comes_pure rfl
  | .boolean b, _ => comes_pure rfl
  | .undefined, _ => comes_pure rfl
  | .null, _ => comes_pure rfl
  | .path p, hp => lookup_denotes h hp false
  | .group call, hcall => by
    rw [expr, group_eq h.names]
    exact call_denotes h call hcall

lemma call_denotes (h : sc.Reads c) : (call : Call) → call.isRead = true →
    Comes Eq (helperCall sc call (pure .none)) (call.denote c)
  | .mk callee args pairs, hcall => by
    obtain ⟨_, helper, e, es, heq, hsimple, hof, ha, he, hes⟩ := Call.exists_of_isRead hcall
    cases heq
    have hargs : Comes (fun vs p => vs = p.1 :: p.2) (exprs sc (e :: es)) (do
        let v ← e.denote c
        let more ← denoteAll c es
        .ok (v, more)) := by
      refine (expr_denotes h e he).bind fun v w hv => ?_
      obtain rfl := hv
      exact (exprs_denote h es hes).bind fun more ws hmore => comes_pure (congrArg _ hmore)
    have hcall := helperCall_comes (Q := Eq) (k := fun p => do
        let v ← e.given helper p.1
        told (helper.answer? v p.2)) hof (by rw [hsimple, Bool.true_or])
      (exprIds_known h.names (e :: es)) (yields_pure Bodies.none) hargs fun vs p hvs => by
        rw [hvs]
        exact answer_denotes ha rfl p.1 p.2
    rw [Call.denote, hof]
    simpa only [bind_assoc, ok_bind] using hcall

lemma exprs_denote (h : sc.Reads c) : (es : List Expr) → areRead es = true →
    Comes Eq (exprs sc es) (denoteAll c es)
  | [], _ => comes_pure rfl
  | e :: es, hes => by
    obtain ⟨he, hes⟩ := Bool.and_eq_true_iff.mp hes
    rw [exprs, denoteAll]
    refine (expr_denotes h e he).bind fun v w hv => ?_
    obtain rfl := hv
    exact (exprs_denote h es hes).bind fun more ws hmore => comes_pure (congrArg _ hmore)

end

end Calls

end Template

end BuildNotice
