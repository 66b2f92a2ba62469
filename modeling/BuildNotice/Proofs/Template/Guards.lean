import BuildNotice.Proofs.Template.Outputs

namespace BuildNotice.Template

open Render Written
open Value (Fields)

variable {invoke : Invoke} {sc : Scope} {c : Value}

def Scope.inBody (sc : Scope) (levels : Bool) : Scope :=
  { sc with
    names := [] :: sc.names
    args := none :: sc.args
    partials := Record.merge sc.partials []
    levels }

lemma Scope.Sees.inBody (h : sc.Sees c) (levels : Bool) : (sc.inBody levels).Sees c :=
  ⟨by simpa [Scope.inBody] using h.names, h.context, h.outer⟩

lemma enterBody_yields {label : Nat} {fields : Fields} (h : sc.Sees (.record label fields))
    (ss : List Statement) :
    Yields (enterBody sc (.mk [] ss) [] (.record label fields) none)
      (sc.inBody (Program.mk [] ss).looksOut) := by
  have hagree : Value.agree? (.record label fields) (.record label fields) = some true := by
    simp [Value.agree?]
  -- the context is the one around the block, so the body is no level of its own
  have haround : Yields (sc.around (.record label fields)) sc.outer := by
    rw [Scope.around]
    split
    · unfold Scope.enter
      rw [h.outer]
      exact (yields_ofOption hagree).bind (yields_pure _)
    · exact yields_pure _
  have hbody := haround.map fun outer =>
    { sc.inBody (Program.mk [] ss).looksOut with context := .record label fields, outer }
  rwa [← h.context] at hbody ⊢

def bodyRunner (invoke : Invoke) (sc : Scope) (ss : List Statement) : Helper.Runner :=
  fun context args => do
    let inner ← enterBody sc (.mk [] ss) [] context args
    statements invoke inner ss

lemma runner_yields {body : List Piece} {ss : List Statement} (hs : Compile body ss) :
    Yields (runner invoke sc (some (.mk [] ss))) (bodyRunner invoke sc ss) := by
  rw [runner]
  exact (declarations_yields _ hs.declares).bind (yields_pure _)

lemma if_tells {label : Nat} {fields : Fields} (h : sc.Sees (.record label fields)) {t : Term}
    {v : Value} (ht : t.Gives sc v) (hv : v ≠ .undefined) {body : List Piece} {ts : List String}
    (hbody : Helper.holds v [] = true → ∀ levels, ShowAll invoke (sc.inBody levels) body ts) :
    (Piece.block "if" [t] body none).Tells invoke sc
      (if Helper.holds v [] then String.join ts else "") := by
  intro s hs
  cases hs with
  | @block _ _ _ callee es ss hcallee hes hargs hss =>
    obtain ⟨hvs, ids, hids⟩ := args_give (.cons ht .nil) hes
    have hbodies : Yields (do
        let b ← runner invoke sc (some (.mk [] ss))
        let a ← runner invoke sc none
        pure (Bodies.mk (some b) (some a)))
        ⟨some (bodyRunner invoke sc ss), some fun _ _ => pure (.text "")⟩ := by
      refine (runner_yields hss).bind ?_
      rw [runner]
      exact (yields_pure _).bind (yields_pure _)
    have hthis : this sc = .record label fields := by rw [this, h.context]; rfl
    have hchoose : Yields (Helper.choose (Helper.holds v []) ⟨this sc, [], ids,
        some (bodyRunner invoke sc ss), some fun _ _ => pure (.text "")⟩)
        (.text (if Helper.holds v [] then String.join ts else "")) := by
      rw [Helper.choose]
      split
      · next hholds =>
        rw [hthis]
        exact (enterBody_yields h ss).bind (statements_show (hbody hholds _) hss)
      · exact yields_pure _
    have hcall : Yields (Helper.if.call [v] ⟨this sc, [], ids, some (bodyRunner invoke sc ss),
        some fun _ _ => pure (.text "")⟩)
        (.text (if Helper.holds v [] then String.join ts else "")) :=
      (require_yields (by simpa using hv) ids "#if").bind hchoose
    rw [statement, kind_args h.names (ne_nil_of_readAll hes hargs)]
    exact (helperCall_yields hcallee (by decide) hvs hids hbodies hcall).bind (yields_pure _)

lemma has_gives (h : sc.Sees c) {t : Term} {v : Value} (ht : t.Gives sc v) (hv : v ≠ .undefined)
    (key : String) :
    (Term.call "has" [t, .string key]).Gives sc (.bool (Helper.hasOf [v, .text key])) := by
  refine call_gives h (show isHelperName "has" .has = true by decide)
    (.cons ht (.cons (string_gives key) .nil)) fun ids => ?_
  exact (require_yields (by simpa using hv) ids "has").bind (yields_pure _)

lemma holds_bool (b : Bool) : Helper.holds (.bool b) [] = b := by
  cases b <;> rfl

lemma guard_tells {label : Nat} {fields : Fields} (h : sc.Sees (.record label fields)) {t : Term}
    {v : Value} (ht : t.Gives sc v) (hv : v ≠ .undefined) (key : String) {body : List Piece}
    {ts : List String}
    (hbody : Helper.hasOf [v, .text key] = true →
      ∀ levels, ShowAll invoke (sc.inBody levels) body ts) :
    (Piece.block "if" [.call "has" [t, .string key]] body none).Tells invoke sc
      (if Helper.hasOf [v, .text key] then String.join ts else "") := by
  have hshown : Helper.holds (.bool (Helper.hasOf [v, .text key])) [] = true →
      ∀ levels, ShowAll invoke (sc.inBody levels) body ts := by
    rwa [holds_bool]
  have htells := if_tells h (has_gives h ht hv key) (by simp) hshown
  rwa [holds_bool] at htells

end BuildNotice.Template
