import BuildNotice.Proofs.Template.Bodies

/-! What a body means holds of every context whose leaves are texts, since bodies run with contexts of
their own. -/

namespace BuildNotice.Template

open Render Helper
open RenderError (isKey)

section Helpers

variable {o : Helper.Options} {c v : Value} {body other : Value → Except Halt Addend}

lemma foldlM_inOrder (body : Value → Except Halt Addend) (es : List (Value × String × Value))
    (s : String) : es.foldlM (fun t e => body e.2.2 >>= fun x => .ok (t ++ x.text)) s = (do
      let t ← inOrder (es.map fun e => body e.2.2)
      .ok (s ++ t)) := by
  induction es generalizing s with
  | nil => simp [inOrder, pure, Except.pure, ok_bind]
  | cons e es ih =>
    simp only [List.foldlM_cons, List.map_cons, inOrder, bind_assoc, ok_bind, ih, String.append_assoc]

lemma entries_worded (hv : v.IsWorded) : ∀ e ∈ entries v, e.2.2.IsWorded :=
  forall_entries (by rintro _ _ rfl w hw; exact hv.items hw)
    (by rintro _ _ rfl f hf; exact hv.fields hf)

lemma items_comes (h : o.Runs Value.IsWorded Tells c body other) (hv : v.IsWorded) (path : String) :
    Comes Tells (eachFrom o path (entries v) 0 (.text "")) (do
      let text ← inOrder ((entries v).map fun e => body e.2.2)
      .ok (.ofText text)) := by
  have hadd (acc : Value) (t : String) (out : Value) (x : Addend) (hacc : acc = .text t)
      (hout : Tells out x) : Comes (fun w t => w = .text t) (ofOption (acc.add? out))
        (.ok (t ++ x.text) : Except Halt String) := by
    rw [hacc]
    exact comes_of_yields (yields_ofOption (Value.add?_text t hout.print)) rfl
  have hitems := eachFrom_comes (a := "") h hadd path (entries_worded hv) 0 rfl
  rw [foldlM_inOrder] at hitems
  have htells := hitems.of_meaning (R := Tells) (k := Addend.ofText) fun w t hw => by
    rw [hw]
    exact tells_text t
  simpa only [bind_assoc, ok_bind, String.empty_append] using htells

lemma blockMeaning_eq {helper : Helper} (hblock : helper.isBlock = true) (v c : Value)
    (body other : Value → Except Halt Addend) :
    blockMeaning helper v c body other = helper.shown v c body other (do
      let text ← inOrder ((entries v).map fun e => body e.2.2)
      .ok (.ofText text)) := by
  cases helper with
  | each =>
    rw [blockMeaning, Helper.shown]
    cases entries v <;> rfl
  | «if» => rfl
  | «unless» => rfl
  | «with» => rfl
  | _ => exact absurd hblock Bool.false_ne_true

lemma require_comes (name : String) (p : Path) (v : Value) :
    Comes (fun _ w => w = v ∧ v ≠ .undefined) (require [v] [.text (pathId p.written)] name)
      (given name p v) := by
  cases v with
  | undefined =>
    refine comes_of_stops (stops_fail _) ?_
    rintro _ ⟨⟩
    rfl
  | _ => exact comes_pure ⟨rfl, by simp⟩

lemma call_comes (h : o.Runs Value.IsWorded Tells c body other) {helper : Helper}
    (hblock : helper.isBlock = true) {p : Path} (hids : o.ids = [.text (pathId p.written)])
    (hv : v = .undefined ∨ v.IsWorded) :
    Comes Tells (helper.call [v] o) (do
      let v ← given (blockName helper) p v
      blockMeaning helper v c body other) := by
  have hrequire := require_comes (blockName helper) p v
  rw [← hids] at hrequire
  rw [call_block hblock]
  refine hrequire.bind fun _ w hw => ?_
  obtain ⟨rfl, hne⟩ := hw
  have hworded := hv.resolve_left hne
  rw [blockMeaning_eq hblock]
  exact shows_comes h hblock hworded fun path _ => items_comes h hworded path

end Helpers

section Statements

variable {invoke : Invoke} {sc : Scope} {c v : Value} {s : Statement} {ss : List Statement}

lemma args_of_dotted (call : Call) (h : dotted.block call = true) :
    call.args ≠ [] ∧ call.hash = [] := by
  obtain ⟨callee, p, rfl, -⟩ := Call.exists_subject (Bool.and_eq_true_iff.mp h).1
  exact ⟨List.cons_ne_nil _ _, rfl⟩

lemma exists_agree {v w : Value} (hv : v.isPrintable = true) (hw : w.isPrintable = true) :
    ∃ b, v.agree? w = some b := by
  obtain ⟨a, ha, -⟩ := Value.exists_plain hv
  obtain ⟨b, hb, -⟩ := Value.exists_plain hw
  unfold Value.agree?
  split
  · exact ⟨_, rfl⟩
  · exact ⟨_, rfl⟩
  · exact ⟨_, rfl⟩
  · exact ⟨_, rfl⟩
  · rw [ha, hb]
    split <;> exact ⟨_, rfl⟩

lemma enter_yields {outer : List Value} (ho : ∀ v ∈ outer, v.isPrintable = true)
    (hv : v.isPrintable = true) :
    ∃ inner, Yields (Scope.enter outer v) inner ∧ ∀ v ∈ inner, v.isPrintable = true := by
  have hcurrent : (outer.headD .undefined).isPrintable = true := by
    cases outer with
    | nil => rfl
    | cons w outer => exact ho w List.mem_cons_self
  obtain ⟨b, hb⟩ := exists_agree hv hcurrent
  have hagree := yields_ofOption hb
  have hcons : ∀ w ∈ v :: outer, w.isPrintable = true := by
    rw [List.forall_mem_cons]
    exact ⟨hv, ho⟩
  -- whether a level of its own or not, every value around the body has a text
  have hlevel : ∀ stays : Bool, ∃ inner,
      Yields (if stays = true then pure outer else pure (v :: outer)) inner ∧
        ∀ w ∈ inner, w.isPrintable = true := by
    intro stays
    cases stays with
    | true => exact ⟨outer, yields_pure _, ho⟩
    | false => exact ⟨v :: outer, yields_pure _, hcons⟩
  unfold Scope.enter
  obtain ⟨inner, hinner, hprintable⟩ := hlevel (b || _)
  exact ⟨inner, hagree.bind hinner, hprintable⟩

lemma around_yields (h : sc.Stands c) (hv : v.isPrintable = true) :
    ∃ outer, Yields (sc.around v) outer ∧ ∀ w ∈ outer, w.isPrintable = true := by
  rw [Scope.around]
  split
  · exact enter_yields h.outer hv
  · exact ⟨sc.outer, yields_pure _, h.outer⟩

lemma enterBody_stands (h : sc.Stands c) (hv : v.isPrintable = true) (body : List Statement)
    (args : Option BlockArgs) :
    ∃ inner, Yields (enterBody sc (.mk [] body) [] v args) inner ∧ inner.Stands v ∧
      inner.escapes = sc.escapes := by
  obtain ⟨outer, houter, hprintable⟩ := around_yields h hv
  refine ⟨_, houter.bind (yields_pure _), ⟨?_, rfl, hprintable⟩, rfl⟩
  simpa [Program.params] using h.names

lemma args_comes (h : sc.Stands c) (hc : c.IsWorded) {p : Path} (hp : p.isDotted = true) :
    Comes (fun vs v => vs = [v] ∧ (v = .undefined ∨ v.IsWorded)) (exprs sc [.path p])
      (find false c p.parts) := by
  refine (lookup_comes h hc hp false).of_action fun v w hv => ⟨[v], ?_, ?_⟩
  · rw [exprs]
    exact (yields_pure []).bind (yields_pure _)
  · exact ⟨by rw [hv.1], hv.2⟩

lemma ids_yields (h : sc.Stands c) (p : Path) :
    Yields (exprIds sc [.path p]) [.text (pathId p.written)] := by
  have hid : Yields (exprId sc (.path p)) (.text (pathId p.written)) := by
    rw [exprId, Path.declared?_eq_none h.names]
    exact yields_pure _
  rw [exprIds]
  exact hid.bind ((yields_pure []).bind (yields_pure _))

lemma dottedCall_comes {δ : Type} {Q : Value → δ → Prop} (h : sc.Stands c) (hc : c.IsWorded)
    {callee p : Path} (hp : p.isDotted = true) {helper : Helper}
    (hof : Helper.ofName? callee.head = some helper)
    (hnamed : (callee.isSimple || Helper.reserved.contains callee.head) = true)
    {bodies : Render Bodies} {b : Bodies} (hb : Yields bodies b) {k : Value → Except Halt δ}
    (hcall : ∀ v, v = .undefined ∨ v.IsWorded → Comes Q (helper.call [v]
      ⟨this sc, [], [.text (pathId p.written)], b.body, b.alternative⟩) (k v)) :
    Comes Q (helperCall sc (.mk callee [.path p] []) bodies) (find false c p.parts >>= k) :=
  helperCall_comes hof hnamed (ids_yields h p) hb (args_comes h hc hp) fun vs v hvs => by
    obtain ⟨rfl, hv⟩ := hvs
    exact hcall v hv

lemma adds_tells : Adds (Option.Rel Tells) none Addend.add? where
  start := .none
  zero_add := fun x => by cases x <;> rfl
  add := by
    intro run v x y hrun hv
    cases hv with
    | none => cases hrun with
      | none => exact comes_pure .none
      | some hr => exact comes_pure (.some hr)
    | @some v y hv =>
      cases hrun with
      | none => exact comes_pure (.some hv)
      | @some r a hr =>
        have hadd : ∀ z, a.add y = .ok z → ∃ u, r.add? v = some u ∧ Tells u z :=
          fun z hz => hr.add hv hz
        rw [Addend.add?]
        cases hz : a.add y with
        | ok z =>
          obtain ⟨u, hu, hz⟩ := hadd z hz
          exact comes_of_yields ((yields_ofOption hu).bind (yields_pure _)) (.some hz)
        | error halt =>
          -- adding fails for one reason only
          rw [Addend.add] at hz
          split at hz
          · obtain rfl := Except.error.inj hz
            rintro s - _ ⟨⟩
          · exact absurd hz (by simp)

lemma getD_tells {run : Option Value} {x : Option Addend} (h : Option.Rel Tells run x) :
    Tells (run.getD (.text "")) (x.getD (.ofText "")) := by
  cases h with
  | none => exact tells_text ""
  | some h => exact h

lemma sumMeaning_eq (escapes : Bool) (c : Value) (x : Option Addend) (ss : List Statement) :
    sumMeaning escapes c x ss =
      ss.foldlM (fun x s => s.meaning escapes c >>= Addend.add? x) x := by
  induction ss generalizing x with
  | nil => rfl
  | cons s ss ih => simp only [sumMeaning, List.foldlM_cons, bind_assoc, ih]

lemma this_eq (h : sc.Stands c) (hc : c.IsWorded) : this sc = c := by
  rw [this, h.context, if_neg (by simp [hc.isNullish])]

lemma shown_comes {call : Call} {o : Except Halt Value}
    (h : Comes Found (outputValue sc call) o) :
    Comes (Option.Rel Tells) (statement invoke sc (.output true call)) (do
      let v ← o
      .ok (some (.ofValue sc.escapes v))) := by
  rw [statement, output, bind_assoc]
  refine h.bind fun v w hv => ?_
  obtain ⟨rfl, hw⟩ := hv
  have hprintable : v.isPrintable = true := by
    rcases hw with rfl | hw
    · rfl
    · exact hw.printable
  obtain ⟨u, hu, htells⟩ := exists_shown sc.escapes hprintable
  exact comes_of_yields ((shown_yields hu).bind (yields_pure _)) (.some htells)

lemma exists_printAll {items : List Value} (h : ∀ v ∈ items, v.isPrintable = true) :
    ∃ ts, printAll? items = some ts := by
  induction items with
  | nil => exact ⟨[], rfl⟩
  | cons v items ih =>
    rw [List.forall_mem_cons] at h
    obtain ⟨t, ht⟩ := Value.exists_print h.1
    obtain ⟨ts, hts⟩ := ih h.2
    exact ⟨t :: ts, by simp [printAll?, ht, hts]⟩

lemma join_comes {o : Helper.Options} {p : Path} (hids : o.ids = [.text (pathId p.written)])
    (hv : v = .undefined ∨ v.IsWorded) :
    Comes Found (Helper.join.call [v] o) (do
      let v ← given "join" p v
      .ok (.text (joined v))) := by
  have hrequire := require_comes "join" p v
  rw [← hids] at hrequire
  refine hrequire.bind fun _ w hw => ?_
  obtain ⟨rfl, hne⟩ := hw
  have hw := hv.resolve_left hne
  have hfound : Found (.text (joined w)) (.text (joined w)) := ⟨rfl, .inr (Value.isWorded_text _)⟩
  cases w with
  | list label items =>
    obtain ⟨ts, hts⟩ := exists_printAll fun v hv => (hw.items hv).printable
    have hjoined : joined (.list label items) = String.intercalate ", " ts := by simp [joined, hts]
    rw [hjoined] at hfound ⊢
    exact comes_of_yields ((yields_ofOption hts).bind (yields_pure _)) hfound
  | _ => exact comes_pure hfound

lemma output_comes (h : sc.Stands c) (hc : c.IsWorded) {escaped : Bool} {call : Call}
    (hs : (Statement.output escaped call).fits dotted = true) :
    Comes (Option.Rel Tells) (statement invoke sc (.output escaped call))
      ((Statement.output escaped call).meaning sc.escapes c) := by
  obtain ⟨rfl, ⟨p, rfl, hp, hvalue⟩ | ⟨callee, p, rfl, hp, hsimple, hjoin⟩⟩ := output_fits hs
  · refine shown_comes ?_
    rw [outputValue_of_isValue h.names hvalue]
    exact lookup_comes h hc hp true
  · have hcall := dottedCall_comes h hc hp hjoin (by rw [hsimple, Bool.true_or])
      (yields_pure Bodies.none) fun v hv => join_comes rfl hv
    have hvalue : Comes Found (outputValue sc (.mk callee [.path p] [])) (do
        let v ← find false c p.parts
        let v ← given "join" p v
        .ok (.text (joined v))) := by
      rw [outputValue_args h.names (by simp)]
      exact hcall
    have hshown := @shown_comes invoke sc _ _ hvalue
    simp only [bind_assoc, ok_bind] at hshown
    exact hshown

mutual

lemma statement_comes {sc : Scope} {c : Value} (h : sc.Stands c) (hc : c.IsWorded) :
    (s : Statement) → s.fits dotted = true →
    Comes (Option.Rel Tells) (statement invoke sc s) (s.meaning sc.escapes c)
  | .content text, _ => by
    rw [statement, Statement.meaning]
    refine comes_pure ?_
    split
    · exact .none
    · exact .some (tells_text text)
  | .comment, hs => absurd hs Bool.false_ne_true
  | .decorator _ _, hs => absurd hs Bool.false_ne_true
  | .insertion _ _ _, hs => absurd hs Bool.false_ne_true
  | .output _ _, hs => output_comes h hc hs
  | .block call body other, hs => by
    obtain ⟨⟨callee, p, helper, rfl, hp, hof, hblock⟩, hbody, hother⟩ := block_fits hs
    obtain ⟨f, hf, hfs⟩ := runner_comes h body hbody
    obtain ⟨g, hg, hgs⟩ := runner_comes h other hother
    have hbodies : Yields (do
        let b ← runner invoke sc body
        let a ← runner invoke sc other
        pure ⟨some b, some a⟩) (Bodies.mk (some f) (some g)) :=
      hf.bind (hg.bind (yields_pure _))
    have hnamed : (callee.isSimple || Helper.reserved.contains callee.head) = true := by
      rw [reserved_of_isBlock hof hblock, Bool.or_true]
    -- whichever body the helper runs, and with whatever context, it comes to what it means there
    have hmeans : Helper.Options.Runs Value.IsWorded Tells
        ⟨this sc, [], [.text (pathId p.written)], some f, some g⟩ c
        (fun v => bodyMeaning sc.escapes v body) (fun v => bodyMeaning sc.escapes v other) :=
      ⟨this_eq h hc, hc, rfl, rfl, hfs, hgs⟩
    have hshown : Comes (Option.Rel Tells) (helperCall sc (.mk callee [.path p] []) _ >>=
        fun v => pure (if v.isNullish = true then some (.text "") else some v)) _ :=
      (dottedCall_comes h hc hp hof hnamed hbodies fun v hv =>
        call_comes hmeans hblock rfl hv).bind fun v x hv => by
          rw [if_neg (by simp [hv.isNullish])]
          exact comes_pure (b := some x) (.some hv)
    simp only [bind_assoc] at hshown
    rw [statement, kind_args h.names (by simp), Statement.meaning, hof]
    exact hshown

lemma runner_comes {sc : Scope} {c : Value} (h : sc.Stands c) :
    (p : Option Program) → programFits? dotted p = true →
    ∃ f, Yields (runner invoke sc p) f ∧
      ∀ v args, v.IsWorded → Comes Tells (f v args) (bodyMeaning sc.escapes v p)
  | none, _ => by
    refine ⟨fun _ _ => pure (.text ""), ?_, fun v args _ => ?_⟩
    · rw [runner]
      exact yields_pure _
    · rw [bodyMeaning]
      exact comes_pure (tells_text "")
  | some (.mk params body), hp => by
    have hfits : (Program.mk params body).fits dotted = true := hp
    obtain ⟨hparams, hbody⟩ := Program.fits_mk.mp hfits
    obtain rfl : params = [] := List.isEmpty_iff.mp hparams
    refine ⟨fun context args => do
      let inner ← enterBody sc (.mk [] body) [] context args
      statements invoke inner body, ?_, fun v args hv => ?_⟩
    · rw [runner]
      exact (declarations_yields _ (declares_of_fits hbody)).bind (yields_pure _)
    · obtain ⟨inner, henter, hinner, hescapes⟩ := enterBody_stands h hv.printable body args
      rw [bodyMeaning, ← hescapes, sumMeaning_eq]
      exact comes_of_yields_bind henter (statements_comes adds_tells getD_tells
        (uninterrupted_of_fits args_of_dotted hinner.names hbody) (each_comes hinner hv body hbody))

lemma each_comes {sc : Scope} {c : Value} (h : sc.Stands c) (hc : c.IsWorded) :
    (ss : List Statement) → statementsFit dotted ss = true →
    ∀ s ∈ ss, Comes (Option.Rel Tells) (statement invoke sc s) (s.meaning sc.escapes c)
  | [], _ => List.forall_mem_nil _
  | s :: rest, hss => by
    obtain ⟨hs, hrest⟩ := statementsFit_cons.mp hss
    exact List.forall_mem_cons.mpr ⟨statement_comes h hc s hs, each_comes h hc rest hrest⟩

end

end Statements

section Whole

variable {c : Value} {ss : List Statement}

lemma main_comes (hss : statementsFit dotted ss = true) (hc : c.IsWorded) (escapes : Bool) :
    Comes (fun v x => v = .text x.text) (main escapes (.mk [] ss) c)
      ((Program.mk [] ss).meaning escapes c) := by
  have hstands : (rootScope escapes (Program.mk [] ss).looksOut c).Stands c := by
    refine ⟨rfl, rfl, fun v hv => ?_⟩
    obtain rfl := List.mem_singleton.mp hv
    exact hc.printable
  have hdeclarations := declarations_yields
    ⟨escapes, .undefined, [], [], [], [], none, (Program.mk [] ss).looksOut⟩ (declares_of_fits hss)
  refine comes_of_yields_bind hdeclarations ?_
  have hstatements : Comes Tells (statements (Render.invoke escapes depthLimit)
      (rootScope escapes (Program.mk [] ss).looksOut c) ss) ((Program.mk [] ss).meaning escapes c) := by
    rw [Program.meaning, bodyMeaning, sumMeaning_eq]
    exact statements_comes adds_tells getD_tells
      (uninterrupted_of_fits args_of_dotted hstands.names hss) (each_comes hstands hc ss hss)
  refine hstatements.of_action fun v x hv => ⟨_, yields_ofOption ?_, rfl⟩
  simpa using Value.add?_text "" hv.print

lemma render_meaning {t : Template} (ht : t.program = .mk [] ss)
    (hss : statementsFit dotted ss = true) (hc : c.IsWorded) {r : Except Failure String}
    (hr : outcome? t.source (t.program.meaning t.escapes c) = some r) : t.render c = r := by
  have hpath : (initialState c).HasPath := rfl
  have hmain := main_comes hss hc t.escapes _ hpath
  rw [ht] at hr
  rw [Template.render, ht, Render.run]
  cases hmeaning : (Program.mk [] ss).meaning t.escapes c with
  | ok x =>
    rw [hmeaning] at hmain hr
    obtain ⟨v, s, hrun, -, rfl⟩ := hmain
    obtain rfl := Option.some.inj hr
    rw [hrun]
  | error halt =>
    rw [hmeaning] at hmain hr
    cases halt with
    | lacks key =>
      obtain ⟨e, hrun, hlacks, hkey⟩ := hmain _ rfl
      obtain rfl := Option.some.inj hr
      rw [hrun]
      exact congrArg Except.error (hlacks.renderFailure hkey t.source)
    | lacksArgument key =>
      obtain ⟨e, hrun, rfl⟩ := hmain _ rfl
      obtain rfl := Option.some.inj hr
      rw [hrun]
      rfl
    | searchesText => exact absurd hr (by simp [outcome?])
    | addsUp => exact absurd hr (by simp [outcome?])

end Whole

end BuildNotice.Template
