import BuildNotice.Template
import BuildNotice.Proofs.Template.Outputs
import BuildNotice.Proofs.Value.SideBySide

/-! The text of a template that does not escape is what its values come to side by side. -/

namespace BuildNotice.Template

open Render

def Node.isInline : Node → Bool
  | .content _ => true
  | .output _ (.mk p args pairs) strip =>
    p.isValue && args.isEmpty && pairs.isEmpty && !strip.before && !strip.after
  | _ => false

def found? (c : Value) (p : Path) : Option Value :=
  match (rootScope false false c).lookup true p (initialState c) with
  | .ok (v, _) => some v
  | .error _ => none

def Node.value? (c : Value) : Node → Option (Option Value)
  | .content k => some (if k.text.isEmpty then none else some (.text (String.ofList k.text)))
  | .output _ call _ => (found? c call.callee).map some
  | _ => none

def values? (c : Value) (text : String) : Option (List Value) :=
  match Parser.parse text with
  | .ok nodes =>
    if nodes.all Node.isInline then (nodes.mapM (Node.value? c)).map List.reduceOption else none
  | .error _ => none

section Still

variable {α β : Type}

def Still (act : Render α) : Prop := ∀ s a t, act s = .ok (a, t) → t = s

lemma still_pure (a : α) : Still (pure a) := by
  rintro s b t ⟨⟩
  rfl

lemma still_fail (e : RenderError) : Still (fail e : Render α) := by
  rintro s b t ⟨⟩

lemma still_ofOption (x : Option α) : Still (ofOption x) := by
  cases x with
  | none => exact still_fail _
  | some a => exact still_pure a

lemma Still.bind {act : Render α} {f : α → Render β} (h : Still act) (hf : ∀ a, Still (f a)) :
    Still (act >>= f) := by
  intro s b t hb
  simp only [Bind.bind, StateT.bind, Except.bind] at hb
  split at hb
  · exact absurd hb (by simp)
  · next a hact => exact (hf a.1 _ _ _ hb).trans (h s a.1 a.2 hact)

lemma member_still (v : Value) (key : String) : Still (member v key) := by
  rw [member]
  split
  · exact still_fail _
  · exact still_pure _

lemma knownMember_still (v : Value) (key : String) (position : Position) :
    Still (knownMember v key position) := by
  rw [knownMember]
  split
  · exact (still_ofOption _).bind fun _ => still_fail _
  · split
    · exact still_pure _
    · exact (still_ofOption _).bind fun _ => still_fail _

lemma knownMembers_still (position : Position) :
    (names : List String) → (v : Value) → Still (knownMembers v position names)
  | [], v => still_pure v
  | [key], v => knownMember_still v key position
  | key :: next :: rest, v =>
    (member_still v key).bind fun w => knownMembers_still position (next :: rest) w

lemma lookup_still (escapes levels : Bool) (c : Value) (p : Path) :
    Still ((rootScope escapes levels c).lookup true p) := by
  rw [Scope.lookup, (rootScope_sees escapes levels c).declared?_path]
  have hbase : Still ((rootScope escapes levels c).base p) := by
    intro s a t h
    rw [Scope.base] at h
    split at h <;> exact (Prod.mk.inj (Except.ok.inj h)).2.symm
  simp only [if_true]
  split
  · exact still_pure _
  · exact hbase.bind fun v => knownMembers_still _ _ v

end Still

lemma lookup_found {c v : Value} {p : Path} (levels : Bool) (h : found? c p = some v) :
    YieldsAt (initialState c) ((rootScope false levels c).lookup true p) v := by
  rw [found?] at h
  split at h
  · next w t hlookup =>
    obtain rfl := Option.some.inj h
    obtain rfl := lookup_still false false c p _ _ _ hlookup
    exact hlookup
  · exact absurd h (by simp)

lemma Node.isInline_output {escaped : Bool} {call : Call} {strip : Strip}
    (h : (Node.output escaped call strip).isInline = true) :
    ∃ p, call = .mk p [] [] ∧ p.isValue = true ∧ strip.before = false ∧ strip.after = false := by
  obtain ⟨p, args, pairs⟩ := call
  simp only [Node.isInline, Bool.and_eq_true, List.isEmpty_iff, Bool.not_eq_true'] at h
  obtain ⟨⟨⟨⟨hp, rfl⟩, rfl⟩, hbefore⟩, hafter⟩ := h
  exact ⟨p, rfl, hp, hbefore, hafter⟩

namespace Layout

lemma arrange_inline (root : Bool) (before : List Node) {ns : List Node}
    (h : ns.all Node.isInline = true) :
    arrange root before [] (settleAll ns) = before.reverse ++ ns := by
  induction ns generalizing before with
  | nil => simp [settleAll, arrange]
  | cons n ns ih =>
    rw [List.all_cons, Bool.and_eq_true] at h
    cases n with
    | content k => simpa [settleAll, settle, arrange, onContent] using ih (.content k :: before) h.2
    | output escaped call strip =>
      obtain ⟨-, -, -, hbefore, hafter⟩ := Node.isInline_output h.1
      simpa [settleAll, settle, arrange, onContent, when, onFirst_id, hbefore, hafter]
        using ih (.output escaped call strip :: before) h.2
    | _ => exact absurd h.1 Bool.false_ne_true

end Layout

lemma checkAll_inline {ns : List Node} (h : ns.all Node.isInline = true) :
    checkAll (Layout.toStatements ns) = .ok () := by
  induction ns with
  | nil => rfl
  | cons n ns ih =>
    rw [List.all_cons, Bool.and_eq_true] at h
    cases n with
    | content k => exact ih h.2
    | output escaped call strip => exact ih h.2
    | _ => exact absurd h.1 Bool.false_ne_true

lemma compile_inline {text : String} {ns : List Node} (hparse : Parser.parse text = .ok ns)
    (h : ns.all Node.isInline = true) : compile text = .ok (.mk [] (Layout.toStatements ns)) := by
  have harrange : Layout.arrange true [] [] (Layout.settleAll ns) = ns :=
    Layout.arrange_inline true [] h
  simp [compile, hparse, Layout.program, harrange, Program.check, checkAll_inline h, bind,
    Except.bind]

lemma statement_inline {invoke : Invoke} {c : Value} {n : Node} {x : Option Value} (levels : Bool)
    (hn : n.isInline = true) (hx : n.value? c = some x) :
    YieldsAt (initialState c) (statement invoke (rootScope false levels c) (Layout.toStatement n))
      (x.map Value.added) := by
  cases n with
  | content k =>
    obtain rfl := Option.some.inj hx
    cases hk : k.text with
    | nil =>
      rw [Layout.toStatement, statement, hk, if_pos String.ofList_nil]
      exact yields_pure _ _
    | cons d ds =>
      rw [Layout.toStatement, statement, hk, if_neg (by simp)]
      exact yields_pure _ _
  | output escaped call strip =>
    obtain ⟨p, rfl, hp, -⟩ := Node.isInline_output hn
    obtain ⟨v, hv, rfl⟩ := Option.map_eq_some_iff.mp hx
    have hvalue : YieldsAt (initialState c) (outputValue (rootScope false levels c) (.mk p [] []))
        v := by
      rw [outputValue_of_isValue rfl hp]
      exact lookup_found levels hv
    have houtput : YieldsAt (initialState c)
        (output (rootScope false levels c) escaped (.mk p [] [])) v.added := by
      refine hvalue.bind ?_
      rw [if_neg (by simp [rootScope])]
      exact yields_pure _ _
    rw [Layout.toStatement, statement]
    exact houtput.bind (yields_pure _ _)
  | _ => exact absurd hn Bool.false_ne_true

lemma statements_give {invoke : Invoke} {c : Value} {ns : List Node} {xs : List (Option Value)}
    (levels : Bool) (hns : ns.all Node.isInline = true) (hxs : ns.mapM (Node.value? c) = some xs) :
    GiveAt invoke (rootScope false levels c) (initialState c) (Layout.toStatements ns)
      (xs.map (·.map Value.added)) := by
  induction ns generalizing xs with
  | nil =>
    obtain rfl : [] = xs := by simpa using hxs
    exact .nil
  | cons n ns ih =>
    rw [List.all_cons, Bool.and_eq_true] at hns
    rw [List.mapM_cons] at hxs
    obtain ⟨x, hx, hxs⟩ := Option.bind_eq_some_iff.mp hxs
    obtain ⟨ys, hys, hxs⟩ := Option.bind_eq_some_iff.mp hxs
    obtain rfl := Option.some.inj hxs
    exact .cons (statement_inline levels hns.1 hx) (ih hns.2 hys)

lemma plain_inline {ns : List Node} (h : ns.all Node.isInline = true) (sc : Scope) :
    Uninterrupted sc (Layout.toStatements ns) ∧
      (Layout.toStatements ns).all (fun s => !declares s) = true := by
  induction ns with
  | nil => exact ⟨rfl, rfl⟩
  | cons n ns ih =>
    rw [List.all_cons, Bool.and_eq_true] at h
    cases n with
    | content k => exact ih h.2
    | output escaped call strip => exact ih h.2
    | _ => exact absurd h.1 Bool.false_ne_true

lemma render_values {text : String} {c : Value} {vs : List Value}
    (hvalues : values? c text = some vs) (hsimple : vs.all (fun v => !v.isComposite) = true)
    (serial : Nat) (source : Source) :
    ∃ t, Template.ofText serial source false text = .ok t ∧
      t.render c = .ok (Value.sideBySide vs) := by
  rw [values?] at hvalues
  split at hvalues
  · next ns hparse =>
    split at hvalues
    · next hns =>
      obtain ⟨xs, hxs, rfl⟩ := Option.map_eq_some_iff.mp hvalues
      have hsimple : ∀ v ∈ xs.reduceOption, v.isComposite = false := by simpa using hsimple
      obtain ⟨w, hw, hprint⟩ := Value.sum?_sideBySide hsimple
      have hsum : Value.sum? (xs.map (·.map Value.added)).reduceOption = some w := by
        rw [List.reduceOption_map, hw]
      let levels := (Program.mk [] (Layout.toStatements ns)).looksOut
      have hgive := @statements_give (Render.invoke false depthLimit) c ns xs levels hns hxs
      obtain ⟨huninterrupted, hdeclares⟩ := plain_inline hns (rootScope false levels c)
      have hrun := run_yieldsAt hdeclares (statements_yieldsAt huninterrupted hgive hsum) hprint
      refine ⟨⟨serial, source, false, .mk [] (Layout.toStatements ns)⟩, ?_, ?_⟩
      · rw [Template.ofText, compile_inline hparse hns]
      · rw [Template.render, hrun]
    · exact absurd hvalues (by simp)
  · exact absurd hvalues (by simp)

/-- Plain text is what stands side by side, and that is value by value where at most one number is
in front. -/
theorem render_sideBySide {text : String} {c : Value} {vs : List Value}
    (hvalues : values? c text = some vs) (hsimple : vs.all (fun v => !v.isComposite) = true)
    (serial : Nat) (source : Source) :
    ∃ t, Template.ofText serial source false text = .ok t ∧
      t.render c = .ok (Value.sideBySide vs) ∧
      ((vs.takeWhile Value.isCount).length ≤ 1 →
        t.render c = .ok (String.join (vs.map Value.shown))) := by
  obtain ⟨t, ht, hrender⟩ := render_values hvalues hsimple serial source
  refine ⟨t, ht, hrender, fun hlead => ?_⟩
  rw [hrender, Value.sideBySide_eq_join hlead]

def progressText : String := "\x7b\x7bdone\x7d\x7d/\x7b\x7ball\x7d\x7d \x7b\x7blast\x7d\x7d\x7b\x7bok\x7d\x7d"

def progress : Value :=
  .record 1 [("done", .number 3), ("all", .number 12), ("last", .null), ("ok", .bool true)]

theorem render_sideBySide_progress :
    ∃ t, Template.ofText 0 (.inline progressText) false progressText = .ok t ∧
      t.render progress = .ok "3/12 true" := by
  have hvalues : (values? progress progressText).map (fun vs =>
      (vs.all (fun v => !v.isComposite), decide ((vs.takeWhile Value.isCount).length ≤ 1),
        String.join (vs.map Value.shown))) = some (true, true, "3/12 true") := by
    decide +kernel
  obtain ⟨vs, hvs, hfacts⟩ := Option.map_eq_some_iff.mp hvalues
  simp only [Prod.mk.injEq, decide_eq_true_eq] at hfacts
  obtain ⟨hsimple, hlead, hjoin⟩ := hfacts
  obtain ⟨t, ht, -, hrender⟩ := render_sideBySide hvs hsimple 0 (.inline progressText)
  exact ⟨t, ht, by rw [hrender hlead, hjoin]⟩

theorem render_adds_neighbours :
    ∃ t vs, Template.ofText 0 (.inline "\x7b\x7ba\x7d\x7d\x7b\x7bb\x7d\x7d") false
        "\x7b\x7ba\x7d\x7d\x7b\x7bb\x7d\x7d" = .ok t ∧
      values? (.record 1 [("a", .number 1), ("b", .number 2)])
        "\x7b\x7ba\x7d\x7d\x7b\x7bb\x7d\x7d" = some vs ∧
      vs.all (fun v => !v.isComposite) = true ∧ String.join (vs.map Value.shown) = "12" ∧
      t.render (.record 1 [("a", .number 1), ("b", .number 2)]) = .ok "3" := by
  have hvalues : (values? (.record 1 [("a", .number 1), ("b", .number 2)])
      "\x7b\x7ba\x7d\x7d\x7b\x7bb\x7d\x7d").map (fun vs => (vs.all (fun v => !v.isComposite),
        String.join (vs.map Value.shown), Value.sideBySide vs)) = some (true, "12", "3") := by
    decide +kernel
  obtain ⟨vs, hvs, hfacts⟩ := Option.map_eq_some_iff.mp hvalues
  simp only [Prod.mk.injEq] at hfacts
  obtain ⟨hsimple, hjoin, hsum⟩ := hfacts
  obtain ⟨t, ht, hrender⟩ :=
    render_values hvs hsimple 0 (.inline "\x7b\x7ba\x7d\x7d\x7b\x7bb\x7d\x7d")
  exact ⟨t, vs, ht, hvs, hsimple, hjoin, by rw [hrender, hsum]⟩

end BuildNotice.Template
