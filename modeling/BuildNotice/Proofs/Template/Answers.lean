import BuildNotice.Proofs.Template.Arguments
import BuildNotice.Proofs.Template.MissingKey
import BuildNotice.Proofs.Template.Rendering
import BuildNotice.Proofs.Template.Terms

/-! What helpers answer about a value: what is undefined beside it counts as not given. -/

namespace BuildNotice.Template

open Render Helper

def Helper.answers : Helper → Bool
  | .join => true
  | .has => true
  | .property => true
  | _ => false

def joinedBy? (separator : String) : Value → Option Value
  | .list _ items => (printAll? items).map fun ts => .text (String.intercalate separator ts)
  | _ => some (.text "")

def property? (build : Value) (name : String) : Option Value :=
  if build.isComposite && (build.own "properties").isComposite then
    match (build.own "properties").own name with
    | .list _ items => some (items.headD .undefined)
    | _ => none
  else none

/-- The answer of a helper about `v`, with `more` beside it: a separator, a key, or the name of a
property and what stands in for it. A list with an item that has no text is not joined. -/
def Helper.answer? (helper : Helper) (v : Value) (more : List Value) : Option Value :=
  match helper with
  | .join => joinedBy? (textOr ", " more.head?) v
  | .has =>
    match more.head? with
    | some (.text key) => some (.bool (v.isComposite && !(v.own key).isNullish))
    | _ => some (.bool false)
  | .property =>
    match more.head? with
    | some (.text name) => some ((property? v name).getD (.text (textOr "" more[1]?)))
    | _ => some (.text (textOr "" more[1]?))
  | _ => none

def Statement.isAnswered : Statement → Bool
  | .content _ => true
  | .comment => true
  | .output _ call => call.isAbout Helper.answers
  | _ => false

section Answers

variable {v : Value} {helper : Helper} {o : Helper.Options}

lemma requires_of_answers (h : helper.answers = true) : helper.requires = true := by
  cases helper with
  | lookup => exact absurd h Bool.false_ne_true
  | log => exact absurd h Bool.false_ne_true
  | _ => rfl

lemma isBlock_of_answers (h : helper.answers = true) : helper.isBlock = false := by
  cases helper with
  | join => rfl
  | has => rfl
  | property => rfl
  | _ => exact absurd h Bool.false_ne_true

lemma property?_isPrintable (hv : v.isPrintable = true) {name : String} {w : Value}
    (h : property? v name = some w) : w.isPrintable = true := by
  have hfirst := Value.own_isPrintable (Value.own_isPrintable hv "properties") name
  rw [property?] at h
  split at h
  · split at h
    · next label items hlist =>
      obtain rfl := Option.some.inj h
      rw [hlist] at hfirst
      cases items with
      | nil => rfl
      | cons w items => exact Value.isPrintable_of_mem hfirst List.mem_cons_self
    · exact absurd h (by simp)
  · exact absurd h (by simp)

lemma exists_answer (ha : helper.answers = true) (hv : v.isPrintable = true) (more : List Value) :
    ∃ w, helper.answer? v more = some w ∧ w.isPrintable = true := by
  cases helper with
  | join =>
    cases v with
    | list label items =>
      obtain ⟨ts, hts⟩ := exists_printAll fun w hw => Value.isPrintable_of_mem hv hw
      exact ⟨_, congrArg (Option.map _) hts, rfl⟩
    | _ => exact ⟨_, rfl, rfl⟩
  | has =>
    rw [answer?]
    split <;> exact ⟨_, rfl, rfl⟩
  | property =>
    rw [answer?]
    split
    · next name _ =>
      refine ⟨_, rfl, ?_⟩
      cases hp : property? v name with
      | none => rfl
      | some w => exact property?_isPrintable hv hp
    · exact ⟨_, rfl, rfl⟩
  | _ => exact absurd ha Bool.false_ne_true

lemma hasOf_eq (v : Value) (more : List Value) :
    some (Value.bool (hasOf (v :: more))) = Helper.has.answer? v more := by
  cases more with
  | nil => rfl
  | cons w more => cases w <;> rfl

lemma propertyOf_eq (v : Value) (more : List Value) :
    some (propertyOf (v :: more)) = Helper.property.answer? v more := by
  cases more with
  | nil => rfl
  | cons w more =>
    cases w with
    | text name =>
      have hanswer : Helper.property.answer? v (.text name :: more) =
          some ((property? v name).getD (.text (textOr "" (v :: Value.text name :: more)[2]?))) :=
        rfl
      rw [hanswer, propertyOf, property?]
      cases hp : (v.own "properties").isComposite with
      | false =>
        -- A build that does not know `properties` has none that could be looked into.
        simp only [hp, Bool.and_false, Bool.false_eq_true, if_false, Option.getD_none, ite_self]
      | true =>
        cases hv : v.isComposite with
        | false => simp
        | true =>
          have hknows := knows_of_own hv (isNullish_of_isComposite hp)
          simp only [hp, hknows, Bool.and_self, if_true]
          cases (v.own "properties").own name <;> rfl
    | _ => rfl

lemma answer?_undefined (helper : Helper) (v : Value) (more : List Value) :
    helper.answer? v (more ++ [.undefined]) = helper.answer? v more := by
  cases more with
  | nil => cases helper <;> rfl
  | cons w more =>
    cases helper with
    | property => cases w <;> cases more <;> rfl
    | _ => rfl

lemma ofOption_map {α β : Type} (x : Option α) (f : α → β) :
    ofOption (x.map f) = (ofOption x >>= fun a => pure (f a)) := by
  cases x <;> rfl

lemma call_answers (ha : helper.answers = true) (v : Value) (more : List Value) :
    helper.call (v :: more) o = (do
      require (v :: more) o.ids helper.title
      ofOption (helper.answer? v more)) := by
  cases helper with
  | join =>
    refine bind_congr fun _ => ?_
    have hseparator : (v :: more)[1]? = more.head? := by cases more <;> rfl
    cases v with
    | list label items =>
      rw [answer?, joinedBy?, ofOption_map, ← hseparator]
      rfl
    | _ => rfl
  | has =>
    rw [← hasOf_eq]
    rfl
  | property =>
    rw [← propertyOf_eq]
    rfl
  | _ => exact absurd ha Bool.false_ne_true

end Answers

section Statements

variable {invoke : Invoke} {sc : Scope} {c : Value} {s : Statement} {o : Obstacle}

lemma Statement.exists_of_isAnswered (h : s.isAnswered = true) :
    (∃ text, s = .content text) ∨ s = .comment ∨ ∃ escaped callee helper p more,
      s = .output escaped (.mk callee (.path p :: more) []) ∧ helper.answers = true ∧
        Call.About callee helper p more := by
  cases s with
  | content text => exact .inl ⟨text, rfl⟩
  | comment => exact .inr (.inl rfl)
  | output escaped call =>
    obtain ⟨callee, helper, p, more, rfl, ha, habout⟩ := Call.exists_of_isAbout h
    exact .inr (.inr ⟨escaped, callee, helper, p, more, rfl, ha, habout⟩)
  | _ => exact absurd h Bool.false_ne_true

lemma output_eq (sc : Scope) (escaped : Bool) (call : Call) : output sc escaped call = (do
    let v ← outputValue sc call
    ofOption (added? (escaped && sc.escapes) v)) := by
  refine bind_congr fun v => ?_
  rw [added?]
  split
  · cases Escape.value? v <;> rfl
  · rfl

lemma answered_gives (invoke : Invoke) (h : sc.Sees c) (hc : c.isPrintable = true)
    (ha : s.isAnswered = true) (ho : s.obstacle? c = none) :
    Gives IsPrintable (statement invoke sc s) := by
  obtain ⟨text, rfl⟩ | rfl | ⟨escaped, callee, helper, p, more, rfl, ha, habout⟩ :=
    Statement.exists_of_isAnswered ha
  · rw [statement]
    refine gives_pure ?_
    split
    · rintro _ ⟨⟩
    · rintro _ ⟨⟩
      rfl
  · rw [statement]
    exact gives_pure (by rintro _ ⟨⟩)
  · obtain ⟨hlost, hv, -⟩ := obstacle?_none ho
    obtain ⟨v, hanswer, hvp⟩ := exists_answer ha (reached_isPrintable hc p.parts)
      (more.map (Expr.value c))
    obtain ⟨w, hw, hwp⟩ := exists_added (escaped && sc.escapes) hvp
    obtain ⟨hargs, ids, hids⟩ := habout.reads h hlost
    have hhash : Yields (hash sc []) [] := yields_pure []
    have hvalue : Yields (outputValue sc (.mk callee (.path p :: more) [])) v := by
      rw [outputValue_args h.names (List.cons_ne_nil _ _), habout.helperCall]
      refine hargs.bind (hhash.bind ((yields_pure Bodies.none).bind (hids.bind ?_)))
      rw [call_answers ha]
      exact (require_yields (by simpa using hv) _ _).bind (yields_ofOption hanswer)
    have houtput : Yields (output sc escaped (.mk callee (.path p :: more) [])) w := by
      rw [output_eq]
      exact hvalue.bind (yields_ofOption hw)
    refine comes_of_yields (outputStatement_yields houtput) ?_
    rintro _ ⟨⟩
    exact hwp

lemma answered_stops (h : sc.Sees c) (ha : s.isAnswered = true)
    (ho : s.obstacle? c = some o) :
    ∃ e, Stops (statement invoke sc s) e ∧ o.Raises e := by
  obtain ⟨text, rfl⟩ | rfl | ⟨escaped, callee, helper, p, more, rfl, ha, habout⟩ :=
    Statement.exists_of_isAnswered ha
  · exact absurd ho (by simp [Statement.obstacle?])
  · exact absurd ho (by simp [Statement.obstacle?])
  · have ho' : obstacle? c helper.isBlock (.path p :: more) = some o := by
      rw [isBlock_of_answers ha]
      exact ho
    obtain ⟨e, he, hraises⟩ :=
      habout.stops h (requires_of_answers ha) (yields_pure Bodies.none) ho'
    refine ⟨e, outputStatement_stops ?_, hraises⟩
    rw [outputValue_args h.names (List.cons_ne_nil _ _)]
    exact he

end Statements

end BuildNotice.Template
