import BuildNotice.Template
import BuildNotice.Proofs.Template.Grammar
import BuildNotice.Proofs.Template.Written

/-! Whatever route a value takes to the output, it is escaped on the way. -/

namespace BuildNotice.Template

namespace Escape

def isMarkup (c : Char) : Bool := ['<', '>', '"', '\'', '\x60', '='].contains c

def lacksMarkup (s : String) : Bool := s.toList.all fun c => !isMarkup c

lemma isMarkup_of_mem_char {c d : Char} (h : d ∈ char c) : isMarkup d = false := by
  have hmarked : ∀ s : String, lacksMarkup s = true → d ∈ s.toList → isMarkup d = false := by
    intro s hs hd
    simpa using List.all_eq_true.mp hs d hd
  unfold char at h
  split_ifs at h with hamp hlt hgt hquot hapos htick heq
  · exact hmarked _ (by decide) h
  · exact hmarked _ (by decide) h
  · exact hmarked _ (by decide) h
  · exact hmarked _ (by decide) h
  · exact hmarked _ (by decide) h
  · exact hmarked _ (by decide) h
  · exact hmarked _ (by decide) h
  · obtain rfl := List.mem_singleton.mp h
    simp [isMarkup, hlt, hgt, hquot, hapos, htick, heq]

lemma lacksMarkup_text (s : String) : lacksMarkup (text s) = true := by
  rw [lacksMarkup, text, String.toList_ofList, List.all_eq_true]
  intro d hd
  obtain ⟨c, -, hc⟩ := List.mem_flatMap.mp hd
  simpa using isMarkup_of_mem_char hc

lemma lacksMarkup_value {v : Value} {s : String} (h : value? v = some s) :
    lacksMarkup s = true := by
  rw [value?] at h
  split at h
  · obtain rfl := Option.some.inj h
    rfl
  · obtain ⟨t, -, rfl⟩ := Option.map_eq_some_iff.mp h
    exact lacksMarkup_text t

lemma lacksMarkup_append {s t : String} (hs : lacksMarkup s = true) (ht : lacksMarkup t = true) :
    lacksMarkup (s ++ t) = true := by
  rw [lacksMarkup, String.toList_append, List.all_append, Bool.and_eq_true]
  exact ⟨hs, ht⟩

end Escape

open Escape

def Harmless (v : Value) : Prop := ∃ s, v = .text s ∧ lacksMarkup s = true

lemma harmless_text {s : String} (h : lacksMarkup s = true) : Harmless (.text s) := ⟨s, rfl, h⟩

lemma Harmless.add {v w u : Value} (hv : Harmless v) (hw : Harmless w) (hu : v.add? w = some u) :
    Harmless u := by
  obtain ⟨s, rfl, hs⟩ := hv
  obtain ⟨t, rfl, ht⟩ := hw
  obtain rfl : Value.text (s ++ t) = u := Option.some.inj hu
  exact harmless_text (lacksMarkup_append hs ht)

namespace Render

variable {α β : Type} {P : α → Prop} {Q : β → Prop} {act : Render α} {f : α → Render β}

def Ensures (P : α → Prop) (act : Render α) : Prop := ∀ s a t, act s = .ok (a, t) → P a

lemma ensures_pure {a : α} (h : P a) : Ensures P (pure a) := by
  rintro s b t ⟨⟩
  exact h

lemma ensures_fail (e : RenderError) : Ensures P (fail e) := by
  rintro s a t ⟨⟩

lemma ensures_ofOption {x : Option α} (h : ∀ a, x = some a → P a) : Ensures P (ofOption x) := by
  cases x with
  | none => exact ensures_fail _
  | some a => exact ensures_pure (h a rfl)

lemma ensures_any (act : Render α) : Ensures (fun _ => True) act := fun _ _ _ _ => trivial

lemma Ensures.bind (h : Ensures P act) (hf : ∀ a, P a → Ensures Q (f a)) :
    Ensures Q (act >>= f) := by
  intro s b t hb
  simp only [Bind.bind, StateT.bind, Except.bind] at hb
  split at hb
  · exact absurd hb (by simp)
  · next a hact => exact hf a.1 (h s a.1 a.2 hact) a.2 b t hb

lemma ensures_bind (hf : ∀ a, Ensures Q (f a)) : Ensures Q (act >>= f) :=
  (ensures_any act).bind fun a _ => hf a

lemma Ensures.inFrame (h : Ensures P act) : Ensures P (inFrame act) := by
  intro s a t ha
  simp only [Template.inFrame] at ha
  split at ha
  · next b u hact =>
    cases ha
    exact h _ _ _ hact
  · exact absurd ha (by simp)

end Render

open Render Helper

def RunsHarmless (f : Runner) : Prop := ∀ c args, Ensures Harmless (f c args)

structure Render.Bodies.AreHarmless (b : Bodies) : Prop where
  body : ∀ f ∈ b.body, RunsHarmless f
  alternative : ∀ f ∈ b.alternative, RunsHarmless f

def Helper.Options.bodies (o : Helper.Options) : Bodies := ⟨o.body, o.alternative⟩

section Blocks

variable {o : Helper.Options}

lemma run_ensures {body : Option Runner} (h : ∀ f ∈ body, RunsHarmless f) (c : Value)
    (args : Option BlockArgs) : Ensures Harmless (Helper.run body c args) := by
  cases body with
  | none => exact ensures_fail _
  | some f => exact h f rfl c args

lemma choose_ensures (h : o.bodies.AreHarmless) (condition : Bool) :
    Ensures Harmless (choose condition o) := by
  rw [choose]
  split
  · exact run_ensures h.body _ _
  · exact run_ensures h.alternative _ _

lemma eachItem_ensures (h : o.bodies.AreHarmless) (path : String) (key : Value) (keyText : String)
    (index : Nat) (last : Bool) (v : Value) {acc : Value} (hacc : Harmless acc) :
    Ensures Harmless (eachItem o path key keyText index last v acc) := by
  refine ensures_bind fun _ => ensures_bind fun _ => ensures_bind fun _ => ensures_bind fun _ =>
    ensures_bind fun _ => (run_ensures h.body _ _).bind fun out hout => ?_
  exact ensures_ofOption fun w hw => hacc.add hout hw

lemma eachFrom_ensures (h : o.bodies.AreHarmless) (path : String) (es : List (Value × String × Value))
    (index : Nat) {acc : Value} (hacc : Harmless acc) :
    Ensures Harmless (eachFrom o path es index acc) := by
  induction es generalizing index acc with
  | nil => exact ensures_pure hacc
  | cons e es ih =>
    obtain ⟨key, keyText, v⟩ := e
    exact (eachItem_ensures h path key keyText index es.isEmpty v hacc).bind fun w hw =>
      ih (index + 1) hw

lemma eachOf_ensures (h : o.bodies.AreHarmless) (v : Value) : Ensures Harmless (eachOf v o) := by
  refine ensures_bind fun path => ?_
  cases entries v with
  | nil => exact run_ensures h.alternative _ _
  | cons e es => exact (eachFrom_ensures h _ (e :: es) 0 (harmless_text rfl)).inFrame

lemma eachCall_ensures (h : o.bodies.AreHarmless) (args : List Value) :
    Ensures Harmless (eachCall args o) := by
  unfold eachCall
  split
  · exact ensures_fail _
  · exact eachOf_ensures h _
  · split
    · exact ensures_fail _
    · exact ensures_fail _

lemma withContext_ensures (h : o.bodies.AreHarmless) (v : Value) :
    Ensures Harmless (withContext v o) := by
  rw [withContext]
  split
  · exact run_ensures h.alternative _ _
  · refine ensures_bind fun path => Ensures.inFrame (ensures_bind fun _ => ?_)
    exact run_ensures h.body _ _

lemma sectionOf_ensures (h : o.bodies.AreHarmless) (v : Value) (name : String) :
    Ensures Harmless (sectionOf v name o) := by
  unfold sectionOf
  split
  · exact run_ensures h.body _ _
  · exact run_ensures h.alternative _ _
  · exact run_ensures h.alternative _ _
  · exact run_ensures h.alternative _ _
  · split
    · exact run_ensures h.alternative _ _
    · have ho : ({ o with ids := [.text name] } : Helper.Options).bodies.AreHarmless := h
      exact eachOf_ensures ho _
  · refine ensures_bind fun _ => ensures_bind fun path => ?_
    refine Ensures.inFrame (ensures_bind fun _ => ?_)
    exact run_ensures h.body _ _

lemma single_ensures {name : String} {args : List Value} {k : Value → Render Value}
    (h : ∀ v, Ensures Harmless (k v)) : Ensures Harmless (single name args k) := by
  unfold single
  split
  · exact h _
  · exact ensures_fail _

lemma call_ensures (h : o.bodies.AreHarmless) {helper : Helper} (hs : helper.isBlock = true)
    (args : List Value) : Ensures Harmless (helper.call args o) := by
  cases helper with
  | «if» => exact ensures_bind fun _ => single_ensures fun v => choose_ensures h _
  | «unless» => exact ensures_bind fun _ => single_ensures fun v => choose_ensures h _
  | each => exact ensures_bind fun _ => eachCall_ensures h args
  | «with» => exact ensures_bind fun _ => single_ensures fun v => withContext_ensures h v
  | _ => exact absurd hs Bool.false_ne_true

end Blocks

/-- Templates without markup in their literal text in which every tag escapes. A block is one of a
helper that shows nothing beside its bodies, or of a name that is no helper. -/
def escaping : Grammar where
  char c := !isMarkup c
  output escaped _ := escaped
  block call := (Helper.ofName? call.callee.head).all isBlock
  params _ := true

section Statements

variable {invoke : Invoke} {sc : Scope}

lemma output_ensures (he : sc.escapes = true) (call : Call) :
    Ensures Harmless (output sc true call) := by
  refine ensures_bind fun v => ?_
  rw [if_pos (by simp [he])]
  have hescaped : Ensures (fun s => lacksMarkup s = true) (ofOption (Escape.value? v)) :=
    ensures_ofOption fun s hs => lacksMarkup_value hs
  exact hescaped.bind fun s hs => ensures_pure (harmless_text hs)

lemma enterBody_ensures (p : Program) (declared : Partials) (c : Value)
    (args : Option BlockArgs) :
    Ensures (fun inner => inner.escapes = sc.escapes) (enterBody sc p declared c args) :=
  ensures_bind fun _ => ensures_pure rfl

lemma helperCall_ensures {call : Call}
    (hs : (Helper.ofName? call.callee.head).all isBlock = true) {bodies : Render Bodies}
    (hb : Ensures Bodies.AreHarmless bodies) : Ensures Harmless (helperCall sc call bodies) := by
  rw [helperCall, applyHelper]
  split
  · next helper hhelper =>
    have hof : Helper.ofName? call.callee.head = some helper := by
      split at hhelper
      · exact hhelper
      · exact absurd hhelper (by simp)
    rw [hof] at hs
    refine ensures_bind fun args => ensures_bind fun hash => hb.bind fun b hb => ?_
    refine ensures_bind fun ids => call_ensures ?_ hs args
    exact hb
  · split
    · exact ensures_fail _
    · refine ensures_bind fun v => ?_
      split
      · exact ensures_fail _
      · exact ensures_bind fun _ => ensures_bind fun _ => ensures_bind fun _ => ensures_fail _

lemma bareCall_ensures {helper : Helper} (hs : helper.isBlock = true) {b : Bodies}
    (hb : b.AreHarmless) : Ensures Harmless (bareCall sc helper b) := by
  refine call_ensures ?_ hs []
  exact hb

def AddsHarmless (x : Option Value) : Prop := ∀ v ∈ x, Harmless v

lemma addsHarmless_none : AddsHarmless none := by
  rintro v ⟨⟩

lemma addsHarmless_some {v : Value} (h : Harmless v) : AddsHarmless (some v) := by
  rintro w ⟨⟩
  exact h

lemma Render.Ensures.shown {act : Render Value} (h : Ensures Harmless act) {x : Option Value}
    (hx : AddsHarmless x) :
    Ensures AddsHarmless (do
      let out ← act
      pure (if out.isNullish then x else some out)) := by
  refine h.bind fun out hout => ensures_pure ?_
  split
  · exact hx
  · exact addsHarmless_some hout

structure Render.Sum.IsHarmless (s : Sum) : Prop where
  total : AddsHarmless s.total
  run : AddsHarmless s.run

lemma plus_ensures {x : Option Value} (hx : AddsHarmless x) {v : Value} (hv : Harmless v) :
    Ensures Harmless (plus x v) := by
  cases x with
  | none => exact ensures_pure hv
  | some w => exact ensures_ofOption fun u hu => (hx w rfl).add hv hu

lemma Render.Sum.IsHarmless.add {s : Sum} (hs : s.IsHarmless) (more : Bool) {v : Value}
    (hv : Harmless v) : Ensures Sum.IsHarmless (s.add more v) := by
  unfold Sum.add
  split
  · next total htotal =>
    split
    · exact (plus_ensures hs.run hv).bind fun w hw => ensures_pure ⟨hs.total, addsHarmless_some hw⟩
    · exact (plus_ensures (htotal ▸ hs.total) hv).bind fun w hw =>
        ensures_pure ⟨addsHarmless_some hw, addsHarmless_none⟩
  · exact (plus_ensures hs.run hv).bind fun w hw =>
      ensures_pure ⟨addsHarmless_none, addsHarmless_some hw⟩

lemma Render.Sum.IsHarmless.complete {s : Sum} (hs : s.IsHarmless) : Ensures Harmless s.complete := by
  obtain ⟨total, run⟩ := s
  cases total with
  | none =>
    cases run with
    | none => exact ensures_pure (harmless_text rfl)
    | some v => exact ensures_pure (hs.run v rfl)
  | some total =>
    cases run with
    | none => exact ensures_pure (hs.total total rfl)
    | some v => exact plus_ensures hs.total (hs.run v rfl)

lemma Render.Sum.IsHarmless.step {s : Sum} (hs : s.IsHarmless) (completing more : Bool)
    {act : Render (Option Value)} (hact : Ensures AddsHarmless act) :
    Ensures Sum.IsHarmless (s.step completing more act) := by
  cases completing with
  | true =>
    refine hs.complete.bind fun total htotal => hact.bind fun x hx => ?_
    cases x with
    | none => exact ensures_pure ⟨addsHarmless_some htotal, addsHarmless_none⟩
    | some v =>
      exact (plus_ensures (addsHarmless_some htotal) (hx v rfl)).bind fun w hw =>
        ensures_pure ⟨addsHarmless_some hw, addsHarmless_none⟩
  | false =>
    refine hact.bind fun x hx => ?_
    cases x with
    | none => exact ensures_pure hs
    | some v => exact hs.add more (hx v rfl)

mutual

lemma statement_ensures {sc : Scope} (he : sc.escapes = true) :
    (s : Statement) → s.fits escaping = true → Ensures AddsHarmless (statement invoke sc s)
  | .content text, h => by
    rw [statement]
    refine ensures_pure ?_
    split
    · exact addsHarmless_none
    · exact addsHarmless_some (harmless_text h)
  | .comment, h => absurd h Bool.false_ne_true
  | .decorator _ _, h => absurd h Bool.false_ne_true
  | .insertion _ _ _, h => absurd h Bool.false_ne_true
  | .output escaped call, h => by
    obtain rfl : escaped = true := h
    rw [statement]
    exact (output_ensures he call).bind fun v hv => ensures_pure (addsHarmless_some hv)
  | .block call body other, h => by
    obtain ⟨hcall, hbody, hother⟩ := Statement.fits_block.mp h
    have hbodies : Ensures Bodies.AreHarmless (do
        let b ← runner invoke sc body
        let a ← runner invoke sc other
        pure ⟨some b, some a⟩) := by
      refine (runner_ensures he body hbody).bind fun b hb =>
        (runner_ensures he other hother).bind fun a ha => ensures_pure ⟨?_, ?_⟩
      · rintro f ⟨⟩
        exact hb
      · rintro f ⟨⟩
        exact ha
    have hempty : AddsHarmless (some (.text "")) := addsHarmless_some (harmless_text rfl)
    rw [statement]
    split
    · exact (helperCall_ensures hcall hbodies).shown hempty
    · refine ensures_bind fun v => hbodies.bind fun b hb => ?_
      refine (sectionOf_ensures ?_ v _).shown hempty
      exact hb
    · split
      · next helper hhelper =>
        have hs : helper.isBlock = true := by
          have hof : Helper.ofName? call.callee.head = some helper := hhelper
          simpa only [escaping, hof, Option.all_some] using hcall
        exact hbodies.bind fun b hb => (bareCall_ensures hs hb).shown addsHarmless_none
      · refine ensures_bind fun v => hbodies.bind fun b hb => ?_
        refine (sectionOf_ensures ?_ v _).shown addsHarmless_none
        exact hb

lemma runner_ensures {sc : Scope} (he : sc.escapes = true) :
    (p : Option Program) → programFits? escaping p = true →
    Ensures (fun f => ∀ c args, Ensures Harmless (f c args)) (runner invoke sc p)
  | none, _ => by
    rw [runner]
    exact ensures_pure fun c args => ensures_pure (harmless_text rfl)
  | some (.mk params body), h => by
    have hfits : (Program.mk params body).fits escaping = true := h
    obtain ⟨-, hbody⟩ := Program.fits_mk.mp hfits
    rw [runner]
    refine ensures_bind fun declared => ensures_pure fun c args => ?_
    exact (enterBody_ensures _ declared c args).bind fun inner hinner =>
      statements_ensures (hinner.trans he) body hbody

lemma statements_ensures {sc : Scope} (he : sc.escapes = true) :
    (ss : List Statement) → statementsFit escaping ss = true →
    Ensures Harmless (statements invoke sc ss)
  | [], _ => by
    rw [statements]
    exact ensures_pure (harmless_text rfl)
  | s :: rest, h => by
    obtain ⟨hs, hrest⟩ := statementsFit_cons.mp h
    have hstatement : Ensures AddsHarmless (statement invoke sc s) := statement_ensures he s hs
    have hsum : Sum.empty.IsHarmless := ⟨addsHarmless_none, addsHarmless_none⟩
    rw [statements]
    split
    · refine hstatement.bind fun x hx => ensures_pure ?_
      cases x with
      | none => exact harmless_text rfl
      | some v => exact hx v rfl
    · exact (hsum.step _ _ hstatement).bind fun sum hsum => sumFrom_ensures he rest hrest hsum

lemma sumFrom_ensures {sc : Scope} (he : sc.escapes = true) :
    (ss : List Statement) → statementsFit escaping ss = true → {sum : Sum} → sum.IsHarmless →
    Ensures Harmless (sumFrom invoke sc sum ss)
  | [], _, sum, hsum => by
    rw [sumFrom]
    exact hsum.complete
  | s :: rest, h, sum, hsum => by
    obtain ⟨hs, hrest⟩ := statementsFit_cons.mp h
    rw [sumFrom]
    exact (hsum.step _ _ (statement_ensures he s hs)).bind fun sum hsum =>
      sumFrom_ensures he rest hrest hsum

end

lemma main_ensures {ss : List Statement} (h : statementsFit escaping ss = true) (c : Value) :
    Ensures Harmless (main true (.mk [] ss) c) := by
  refine ensures_bind fun declared => ?_
  refine (statements_ensures rfl ss h).bind fun v hv => ensures_ofOption fun w hw => ?_
  exact (harmless_text rfl).add hv hw

lemma run_lacksMarkup {ss : List Statement} (h : statementsFit escaping ss = true) {c : Value}
    {out : String} (hrun : Render.run true (.mk [] ss) c = .ok out) : lacksMarkup out = true := by
  rw [Render.run] at hrun
  split at hrun
  · next s t hmain =>
    obtain rfl := Except.ok.inj hrun
    obtain ⟨_, ⟨⟩, hs⟩ := main_ensures h c _ _ _ hmain
    exact hs
  · exact absurd hrun (by simp)
  · exact absurd hrun (by simp)

end Statements

/-- Where neither literal text brings markup nor a tag leaves its value as it is, no context puts
markup into what a template renders. -/
theorem render_lacksMarkup {text : String} (htext : escaping.accepts text = true) (serial : Nat)
    (source : Source) :
    ∃ t, Template.ofText serial source true text = .ok t ∧
      ∀ c out, t.render c = .ok out → lacksMarkup out = true := by
  obtain ⟨ss, hcompile, hss⟩ := compile_accepts htext
  refine ⟨⟨serial, source, true, .mk [] ss⟩, by simp [Template.ofText, hcompile], ?_⟩
  intro c out hout
  rw [Template.render] at hout
  split at hout
  · next s hrun =>
    obtain rfl := Except.ok.inj hout
    exact run_lacksMarkup hss hrun
  · exact absurd hout (by simp)

def markedText : String :=
  Written.write [
    .block "each" [.path ["names"]]
      [.output ["@key"] [], .text ": ", .output ["this"] [], .text " "] (some [.text "none"]),
    .output ["join"] [.path ["tags"], .string "<br>"], .text " ",
    .output ["property"] [.path ["build"], .string "a", .string "'"]]

def markedContext : Value :=
  .record 4 [("names", .record 1 [("x=1", .text "<b>")]),
    ("tags", .list 2 [.text "a", .text ">"]), ("build", .record 3 [])]

theorem render_lacksMarkup_marked :
    ∃ t, Template.ofText 0 (.inline markedText) true markedText = .ok t ∧
      t.render markedContext =
        .ok "x&#x3D;1: &lt;b&gt; a&lt;br&gt;&gt; &#x27;" ∧
      lacksMarkup "x&#x3D;1: &lt;b&gt; a&lt;br&gt;&gt; &#x27;" = true := by
  obtain ⟨t, ht, hlacks⟩ :=
    @render_lacksMarkup markedText (by decide +kernel) 0 (.inline markedText)
  have hshown : (Template.ofText 0 (.inline markedText) true markedText).toOption.map
      (fun t => (t.render markedContext).toOption) =
        some (some "x&#x3D;1: &lt;b&gt; a&lt;br&gt;&gt; &#x27;") := by decide +kernel
  have hrender : t.render markedContext = .ok "x&#x3D;1: &lt;b&gt; a&lt;br&gt;&gt; &#x27;" := by
    rw [ht] at hshown
    cases h : t.render markedContext <;> simp_all [Except.toOption]
  exact ⟨t, ht, hrender, hlacks _ _ hrender⟩

end BuildNotice.Template
