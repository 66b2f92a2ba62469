import BuildNotice.Proofs.Template.Rendering
import BuildNotice.Proofs.Value.Escaped

namespace BuildNotice.Template

open Render Helper
open Value (escapeLeaves)

variable {c v : Value} {names : List String}

lemma searchesText_escapeLeaves (v : Value) (names : List String) :
    searchesText v.escapeLeaves names = searchesText v names := by
  induction names generalizing v with
  | nil => rfl
  | cons key names ih =>
    rw [searchesText, searchesText, Value.escapeLeaves_isText]
    cases ht : v.isText with
    | true => rfl
    | false => rw [Value.escapeLeaves_own ht, ih]

lemma searchesText_cons {key : String} (h : searchesText v (key :: names) = false) :
    v.isText = false ∧ searchesText (v.own key) names = false := by
  rwa [searchesText, Bool.or_eq_false_iff] at h

lemma reached_escapeLeaves (h : searchesText v names = false) :
    reached v.escapeLeaves names = (reached v names).escapeLeaves := by
  induction names generalizing v with
  | nil => rfl
  | cons key names ih =>
    obtain ⟨ht, hrest⟩ := searchesText_cons h
    rw [reached, List.foldl_cons, Value.escapeLeaves_own ht]
    exact ih hrest

lemma lost?_escapeLeaves (h : searchesText v names = false) :
    lost? v.escapeLeaves names = lost? v names := by
  induction names generalizing v with
  | nil => rfl
  | cons key names ih =>
    obtain ⟨ht, hrest⟩ := searchesText_cons h
    rw [lost?, lost?, Value.escapeLeaves_isNullish, Value.escapeLeaves_own ht, ih hrest]

lemma missing?_escapeLeaves :
    (names : List String) → (v : Value) → searchesText v names = false →
    missing? v.escapeLeaves names = missing? v names
  | [], _, _ => rfl
  | [key], v, h => by
    obtain ⟨ht, -⟩ := searchesText_cons h
    rw [missing?, missing?, Value.escapeLeaves_isComposite, Value.escapeLeaves_knows ht]
  | key :: next :: rest, v, h => by
    obtain ⟨ht, hrest⟩ := searchesText_cons h
    rw [missing?, missing?, Value.escapeLeaves_own ht, Value.escapeLeaves_isNullish,
      missing?_escapeLeaves (next :: rest) (v.own key) hrest]

lemma find_escapeLeaves (strict : Bool) (v : Value) (names : List String) :
    find strict v.escapeLeaves names = (find strict v names).map escapeLeaves := by
  rw [find, find, searchesText_escapeLeaves]
  cases hs : searchesText v names with
  | true => rfl
  | false =>
    rw [missing?_escapeLeaves names v hs, lost?_escapeLeaves hs, reached_escapeLeaves hs]
    simp only [Bool.false_eq_true, if_false]
    split <;> rfl

lemma find_worded (hc : c.IsWorded) {strict : Bool} (h : find strict c names = .ok v) :
    v = .undefined ∨ v.IsWorded := by
  rw [find] at h
  split at h
  · exact absurd h (by simp)
  · split at h
    · exact absurd h (by simp)
    · obtain rfl := Except.ok.inj h
      exact reached_worded hc names

lemma given_escapeLeaves (name : String) (p : Path) (v : Value) :
    given name p v.escapeLeaves = (given name p v).map escapeLeaves := by
  cases v <;> rfl

lemma given_eq {name : String} {p : Path} {w : Value} (h : given name p v = .ok w) :
    w = v ∧ v ≠ .undefined := by
  cases v with
  | undefined => exact absurd h (by simp [given])
  | _ =>
    obtain rfl := Except.ok.inj h
    exact ⟨rfl, by simp⟩

lemma holds_escapeLeaves (v : Value) : holds v.escapeLeaves [] = holds v [] := by
  simp only [holds, Value.escapeLeaves_isTruthy, Value.escapeLeaves_isEmpty]

lemma entries_escapeLeaves (v : Value) :
    entries v.escapeLeaves = (entries v).map fun e => (e.1, e.2.1, e.2.2.escapeLeaves) := by
  cases v with
  | list label items =>
    simp only [escapeLeaves, Value.escapeItems_eq, entries, List.zipIdx_map, List.map_map]
    rfl
  | record label fields =>
    simp only [escapeLeaves, Value.escapeFields_eq, entries, List.map_map]
    rfl
  | _ => rfl

lemma ofValue_escapeLeaves (h : v = .undefined ∨ v.IsWorded) :
    Addend.ofValue false v.escapeLeaves = Addend.ofValue true v := by
  rw [Addend.ofValue, Addend.ofValue, Value.escapeLeaves_isCount]
  rcases h with rfl | h
  · rfl
  · simp [printed?, Escape.value?, Value.escapeLeaves_isNullish, h.isNullish, h.print?_escapeLeaves]

lemma printAll?_escapeLeaves {items : List Value} (h : ∀ v ∈ items, v.IsWorded) :
    printAll? (items.map escapeLeaves) = (printAll? items).map (List.map Escape.text) := by
  induction items with
  | nil => rfl
  | cons v items ih =>
    rw [List.forall_mem_cons] at h
    rw [List.map_cons, printAll?, printAll?, h.1.print?_escapeLeaves, ih h.2]
    cases v.print? with
    | none => rfl
    | some t => cases printAll? items <;> rfl

lemma joined_escapeLeaves (h : v.IsWorded) : joined v.escapeLeaves = Escape.text (joined v) := by
  cases v with
  | list label items =>
    have hcomma : Escape.text ", " = ", " := by decide
    rw [escapeLeaves, joined, Value.escapeItems_eq, printAll?_escapeLeaves fun v hv => h.items hv,
      joined]
    cases printAll? items with
    | none => rfl
    | some ts => simp only [Option.map_some, Option.getD_some, Escape.text_intercalate hcomma]
  | _ => rfl

lemma map_bind_congr {β : Type} {o : Except Halt Value} {f g : Value → Except Halt β}
    (h : ∀ v, o = .ok v → g v.escapeLeaves = f v) : (o.map escapeLeaves >>= g) = o >>= f := by
  cases o with
  | error halt => rfl
  | ok v => exact h v rfl

lemma inOrder_congr {es : List (Value × String × Value)} {f g : Value → Except Halt Addend}
    (h : ∀ e ∈ es, g e.2.2.escapeLeaves = f e.2.2) :
    (es.map fun e => (e.1, e.2.1, e.2.2.escapeLeaves)).map (fun e => g e.2.2) =
      es.map fun e => f e.2.2 := by
  rw [List.map_map]
  exact List.map_congr_left h

lemma blockMeaning_escapeLeaves {helper : Helper} (hc : c.IsWorded) (hv : v.IsWorded)
    {body other body' other' : Value → Except Halt Addend}
    (hbody : ∀ w, w.IsWorded → body' w.escapeLeaves = body w)
    (hother : ∀ w, w.IsWorded → other' w.escapeLeaves = other w) :
    blockMeaning helper v.escapeLeaves c.escapeLeaves body' other' =
      blockMeaning helper v c body other := by
  cases helper with
  | «if» => simp only [blockMeaning, holds_escapeLeaves, hbody c hc, hother c hc]
  | «unless» => simp only [blockMeaning, holds_escapeLeaves, hbody c hc, hother c hc]
  | each =>
    have hworded := entries_worded hv
    rw [blockMeaning, blockMeaning, entries_escapeLeaves]
    cases hentries : entries v with
    | nil => exact hother c hc
    | cons e es =>
      rw [hentries] at hworded
      have hitems := inOrder_congr fun e he => hbody e.2.2 (hworded e he)
      simp only [List.map_cons] at hitems ⊢
      rw [hitems]
  | «with» => simp only [blockMeaning, Value.escapeLeaves_isEmpty, hbody v hv, hother c hc]
  | _ => rfl

lemma output_escapeLeaves (hc : c.IsWorded) (escaped : Bool) (call : Call) :
    (Statement.output escaped call).meaning false c.escapeLeaves =
      (Statement.output escaped call).meaning true c := by
  have hpath : ∀ p : Path, (do
      let v ← find true c.escapeLeaves p.parts
      .ok (some (.ofValue false v))) = (do
      let v ← find true c p.parts
      .ok (some (.ofValue true v)) : Except Halt (Option Addend)) := by
    intro p
    rw [find_escapeLeaves]
    exact map_bind_congr fun v hv => by rw [ofValue_escapeLeaves (find_worded hc hv)]
  obtain ⟨p, args, pairs⟩ := call
  cases args with
  | nil => exact hpath p
  | cons e es =>
    cases e with
    | path q =>
      rw [Statement.meaning, Statement.meaning, find_escapeLeaves]
      refine map_bind_congr fun v hv => ?_
      rw [given_escapeLeaves]
      refine map_bind_congr fun w hw => ?_
      obtain ⟨rfl, hne⟩ := given_eq hw
      rw [joined_escapeLeaves ((find_worded hc hv).resolve_left hne)]
      rfl
    | _ => exact hpath p

mutual

lemma statement_escapeLeaves {c : Value} (hc : c.IsWorded) : (s : Statement) →
    s.meaning false c.escapeLeaves = s.meaning true c
  | .content _ => rfl
  | .comment => rfl
  | .decorator _ _ => rfl
  | .insertion _ _ _ => rfl
  | .output escaped call => output_escapeLeaves hc escaped call
  | .block (.mk callee [] pairs) body other => rfl
  | .block (.mk callee (.path p :: _) _) body other => by
    rw [Statement.meaning, Statement.meaning]
    cases Helper.ofName? callee.head with
    | none => rfl
    | some helper =>
      simp only [find_escapeLeaves]
      refine map_bind_congr fun v hv => ?_
      rw [given_escapeLeaves]
      refine map_bind_congr fun w hw => ?_
      obtain ⟨rfl, hne⟩ := given_eq hw
      rw [blockMeaning_escapeLeaves hc ((find_worded hc hv).resolve_left hne)
        (fun w hw => body_escapeLeaves hw body) fun w hw => body_escapeLeaves hw other]
  | .block (.mk _ (.string _ :: _) _) _ _ => rfl
  | .block (.mk _ (.number _ :: _) _) _ _ => rfl
  | .block (.mk _ (.boolean _ :: _) _) _ _ => rfl
  | .block (.mk _ (.undefined :: _) _) _ _ => rfl
  | .block (.mk _ (.null :: _) _) _ _ => rfl
  | .block (.mk _ (.group _ :: _) _) _ _ => rfl

lemma body_escapeLeaves {c : Value} (hc : c.IsWorded) : (p : Option Program) →
    bodyMeaning false c.escapeLeaves p = bodyMeaning true c p
  | none => rfl
  | some (.mk _ body) => by
    rw [bodyMeaning, bodyMeaning, sum_escapeLeaves hc body none]

lemma sum_escapeLeaves {c : Value} (hc : c.IsWorded) : (ss : List Statement) →
    (sum : Option Addend) → sumMeaning false c.escapeLeaves sum ss = sumMeaning true c sum ss
  | [], _ => rfl
  | s :: ss, sum => by
    rw [sumMeaning, sumMeaning, statement_escapeLeaves hc s]
    simp only [sum_escapeLeaves hc ss]

end

def Program.SearchesText (p : Program) (c : Value) : Prop := p.meaning true c = .error .searchesText

def Program.AddsUp (p : Program) (c : Value) : Prop := p.meaning true c = .error .addsUp

/-- To escape what is printed is to print what was escaped: a template that escapes gives for a
context what the same template without escaping gives once the leaves of the context are escaped,
be it a text or a key that is not there. -/
theorem render_escapeLeaves {text : String} (htext : dotted.accepts text = true) (m n : Nat)
    (source : Source) :
    ∃ t u, Template.ofText m source true text = .ok t ∧
      Template.ofText n source false text = .ok u ∧
      ∀ c : Value, c.hasTextLeaves = true → c.isPrintable = true →
        ¬ t.program.SearchesText c → ¬ t.program.AddsUp c →
        (∃ out, t.render c = .ok out ∧ u.render c.escapeLeaves = .ok out) ∨
          ∃ key details,
            t.render c = .error (.fault (.undefinedKey (.text key) details)) ∧
            u.render c.escapeLeaves = .error (.fault (.undefinedKey (.text key) details)) := by
  obtain ⟨ss, hcompile, hss⟩ := compile_accepts htext
  let t : Template := ⟨m, source, true, .mk [] ss⟩
  let u : Template := ⟨n, source, false, .mk [] ss⟩
  refine ⟨t, u, by simp [Template.ofText, hcompile, t], by simp [Template.ofText, hcompile, u], ?_⟩
  intro c hleaves hprintable hsearches hadds
  have hc : c.IsWorded := ⟨.inl hleaves, hprintable⟩
  have hc' : c.escapeLeaves.IsWorded :=
    ⟨.inl ((Value.escapeLeaves_hasTextLeaves c).trans hleaves),
      (Value.escapeLeaves_isPrintable c).trans hprintable⟩
  have hsame : u.program.meaning u.escapes c.escapeLeaves = t.program.meaning t.escapes c :=
    body_escapeLeaves hc (some (.mk [] ss))
  have hoth : ∀ r, outcome? source (t.program.meaning true c) = some r →
      t.render c = r ∧ u.render c.escapeLeaves = r := by
    intro r hr
    refine ⟨render_meaning rfl hss hc hr, render_meaning rfl hss hc' ?_⟩
    rw [hsame]
    exact hr
  cases hmeaning : t.program.meaning true c with
  | ok x =>
    obtain ⟨ht, hu⟩ := hoth (.ok x.text) (by rw [hmeaning]; rfl)
    exact .inl ⟨x.text, ht, hu⟩
  | error halt =>
    cases halt with
    | lacks key => exact .inr ⟨key, _, hoth _ (by rw [hmeaning]; rfl)⟩
    | lacksArgument key => exact .inr ⟨key, _, hoth _ (by rw [hmeaning]; rfl)⟩
    | searchesText => exact absurd hmeaning hsearches
    | addsUp => exact absurd hmeaning hadds

def labelsText : String :=
  Written.write [
    .block "each" [.path ["names"]]
      [.text "<", .output ["this"] [], .text ">"] (some [.text "none"]),
    .block "if" [.path ["owner"]] [.text " ", .output ["join"] [.path ["tags"]]] none]

def labels : Value :=
  .record 3 [("names", .list 1 [.text "a&b", .text "c"]), ("owner", .text "'"),
    ("tags", .list 2 [.text "<t>", .text "u"])]

theorem render_escapeLeaves_labels :
    ∃ t u, Template.ofText 0 (.inline labelsText) true labelsText = .ok t ∧
      Template.ofText 1 (.inline labelsText) false labelsText = .ok u ∧
      t.render labels = .ok "<a&amp;b><c> &lt;t&gt;, u" ∧
      u.render labels.escapeLeaves = .ok "<a&amp;b><c> &lt;t&gt;, u" := by
  obtain ⟨t, u, ht, hu, hsame⟩ :=
    @render_escapeLeaves labelsText (by decide +kernel) 0 1 (.inline labelsText)
  have hfacts : (Template.ofText 0 (.inline labelsText) true labelsText).toOption.map (fun t =>
      ((t.render labels).toOption, (t.program.meaning true labels).toOption)) =
        some (some "<a&amp;b><c> &lt;t&gt;, u", some (.ofText "<a&amp;b><c> &lt;t&gt;, u")) := by
    decide +kernel
  rw [ht] at hfacts
  obtain ⟨hrender, hmeaning⟩ := Prod.mk.inj (Option.some.inj hfacts)
  have ht' := eq_ok_of_toOption hrender
  have hmeant : ∀ halt, t.program.meaning true labels ≠ .error halt := by
    intro halt
    simp [eq_ok_of_toOption hmeaning]
  obtain ⟨out, hout, hu'⟩ | ⟨key, details, hfault, -⟩ :=
    hsame labels (by decide) (by decide) (hmeant _) (hmeant _)
  · obtain rfl := Except.ok.inj (ht'.symm.trans hout)
    exact ⟨t, u, ht, hu, ht', hu'⟩
  · exact absurd (ht'.symm.trans hfault) (by simp)

def lengthsText : String := "\x7b\x7ba.length\x7d\x7d\x7b\x7bb.length\x7d\x7d"

def lengths : Value :=
  .record 3 [("a", .list 1 [.text "x"]), ("b", .list 2 [.text "y", .text "z"])]

theorem render_adds_lengths :
    ∃ t u, dotted.accepts lengthsText = true ∧
      Template.ofText 0 (.inline lengthsText) true lengthsText = .ok t ∧
      Template.ofText 1 (.inline lengthsText) false lengthsText = .ok u ∧
      lengths.hasTextLeaves = true ∧ lengths.isPrintable = true ∧
      ¬ t.program.SearchesText lengths ∧
      t.render lengths = .ok "12" ∧ u.render lengths.escapeLeaves = .ok "3" := by
  have hescaped : (Template.ofText 0 (.inline lengthsText) true lengthsText).toOption.map
      (fun t => ((t.render lengths).toOption, decide (t.program.meaning true lengths =
        .error .addsUp))) = some (some "12", true) := by decide +kernel
  have hplain : (Template.ofText 1 (.inline lengthsText) false lengthsText).toOption.map
      (fun u => (u.render lengths.escapeLeaves).toOption) = some (some "3") := by decide +kernel
  obtain ⟨t, ht, htfacts⟩ := Option.map_eq_some_iff.mp hescaped
  obtain ⟨u, hu, hurender⟩ := Option.map_eq_some_iff.mp hplain
  obtain ⟨htrender, hadds⟩ := Prod.mk.inj htfacts
  refine ⟨t, u, by decide +kernel, eq_ok_of_toOption ht, eq_ok_of_toOption hu, by decide,
    by decide, ?_, eq_ok_of_toOption htrender, eq_ok_of_toOption hurender⟩
  rw [Program.SearchesText, of_decide_eq_true hadds]
  decide

end BuildNotice.Template
