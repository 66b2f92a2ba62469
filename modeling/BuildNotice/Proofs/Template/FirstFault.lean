import BuildNotice.Proofs.Template.Bodies

/-! The first statement that gives no printable value decides how the whole fails. -/

namespace BuildNotice.Template

open Render

section Runs

variable {α β : Type} {P : α → Prop} {act : Render α} {f : α → Render β} {e : RenderError}

def Fails (act : Render α) (e : RenderError) : Prop := ∀ s, s.HasPath → act s = .error e

lemma gives_pure {a : α} (h : P a) : Gives P (pure a) := comes_pure h

lemma fails_of_stops (h : Stops act e) : Fails act e := fun s _ => h s

lemma Fails.bind (h : Fails act e) : Fails (act >>= f) e := by
  intro s hs
  simp only [Bind.bind, StateT.bind, h s hs, Except.bind]

lemma fails_after (h : Gives P act) (hf : ∀ a, P a → Fails (f a) e) : Fails (act >>= f) e := by
  intro s hs
  obtain ⟨a, t, hact, ht, ha⟩ := h s hs
  simp only [Bind.bind, StateT.bind, hact, Except.bind]
  exact hf a ha t ht

end Runs

def IsPrintable (x : Option Value) : Prop := ∀ v ∈ x, v.isPrintable = true

def Render.Sum.IsOpen (s : Sum) : Prop := s.total = none ∧ IsPrintable s.run

section Sums

variable {invoke : Invoke} {sc : Scope} {sum : Sum} {act : Render (Option Value)}
  {ss before after : List Statement} {s : Statement} {e : RenderError}

lemma adds_printable :
    Adds (fun x (_ : Unit) => IsPrintable x) () fun _ _ => (.ok () : Except Halt Unit) where
  start := by rintro _ ⟨⟩
  zero_add := fun _ => rfl
  add := by
    intro run v _ _ hrun hv
    cases v with
    | none => exact gives_pure hrun
    | some v =>
      obtain ⟨w, hw, hwp⟩ : ∃ w, Yields (plus run v) w ∧ w.isPrintable = true := by
        cases run with
        | none => exact ⟨v, yields_pure v, hv v rfl⟩
        | some r =>
          obtain ⟨w, hw, hwp⟩ := Value.exists_add (hrun r rfl) (hv v rfl)
          exact ⟨w, yields_ofOption hw, hwp⟩
      refine comes_of_yields (hw.bind (yields_pure _)) ?_
      rintro _ ⟨⟩
      exact hwp

lemma getD_isPrintable {x : Option Value} (h : IsPrintable x) :
    (x.getD (.text "")).isPrintable = true := by
  cases x with
  | none => rfl
  | some v => exact h v rfl

lemma step_gives (hsum : sum.IsOpen) (h : Gives IsPrintable act) :
    Gives Sum.IsOpen (sum.step false false act) :=
  step_comes (x := ()) adds_printable hsum h

lemma statements_gives (hc : Uninterrupted sc ss)
    (h : ∀ s ∈ ss, Gives IsPrintable (statement invoke sc s)) :
    Gives (fun v => v.isPrintable = true) (statements invoke sc ss) := by
  have hsum : ss.foldlM (fun _ _ => (.ok () : Except Halt Unit)) () = .ok () := List.foldlM_pure
  have hcomes : Comes (fun v (_ : Unit) => v.isPrintable = true) (statements invoke sc ss)
      (ss.foldlM (fun _ _ => (.ok () : Except Halt Unit)) () >>= fun _ => .ok ()) :=
    statements_comes (m := fun _ => .ok ()) adds_printable getD_isPrintable hc h
  rwa [hsum] at hcomes

lemma sumFrom_fails (hc : Uninterrupted sc (before ++ s :: after))
    (h : ∀ t ∈ before, Gives IsPrintable (statement invoke sc t))
    (hs : Fails (statement invoke sc s) e) (hsum : sum.IsOpen) :
    Fails (sumFrom invoke sc sum (before ++ s :: after)) e := by
  induction before generalizing sum with
  | nil =>
    obtain ⟨hs', hany, -⟩ := hc.any
    rw [List.nil_append, sumFrom, hs', hany]
    exact (Fails.bind hs).bind
  | cons t before ih =>
    rw [List.cons_append] at hc
    obtain ⟨ht, hany, hrest⟩ := hc.any
    rw [List.forall_mem_cons] at h
    rw [List.cons_append, sumFrom, ht, hany]
    exact fails_after (step_gives hsum h.1) fun sum hsum => ih hrest h.2 hsum

lemma statements_fails (hc : Uninterrupted sc (before ++ s :: after))
    (h : ∀ t ∈ before, Gives IsPrintable (statement invoke sc t))
    (hs : Fails (statement invoke sc s) e) :
    Fails (statements invoke sc (before ++ s :: after)) e := by
  have hfrom : Fails (sumFrom invoke sc Sum.empty (before ++ s :: after)) e :=
    sumFrom_fails hc h hs ⟨rfl, adds_printable.start⟩
  match before, after with
  | [], [] =>
    rw [List.nil_append, statements, if_pos List.isEmpty_nil]
    exact hs.bind
  | [], t :: after => exact (statements_eq_sumFrom after).symm ▸ hfrom
  | [t], after => exact (statements_eq_sumFrom after).symm ▸ hfrom
  | t :: u :: before, after => exact (statements_eq_sumFrom (before ++ s :: after)).symm ▸ hfrom

end Sums

section Whole

variable {escapes : Bool} {c : Value} {ss before after : List Statement} {s : Statement}
  {e : RenderError}

lemma run_body (escapes : Bool) (p : Program) (c : Value) :
    run escapes p c = run escapes (.mk [] p.body) c := by
  cases p
  rfl

lemma run_gives (hd : ss.all (fun s => !declares s) = true) {sc : Scope}
    (hsc : sc = rootScope escapes (Program.mk [] ss).looksOut c) (hc : Uninterrupted sc ss)
    (h : ∀ s ∈ ss, Gives IsPrintable (statement (Render.invoke escapes depthLimit) sc s)) :
    ∃ text, run escapes (.mk [] ss) c = .ok text := by
  subst hsc
  obtain ⟨v, t, hv, -, hprintable⟩ := statements_gives hc h (initialState c) rfl
  obtain ⟨text, htext⟩ := Value.exists_print hprintable
  have hsum : Yields (ofOption ((Value.text "").add? v)) (.text text) :=
    yields_ofOption (by simpa using Value.add?_text "" htext)
  have hmain : main escapes (.mk [] ss) c (initialState c) = .ok (.text text, t) := by
    have hdeclared := declarations_yields
      ⟨escapes, .undefined, [], [], [], [], none, (Program.mk [] ss).looksOut⟩ hd
    rw [rootScope] at hv
    simp only [main, Program.body, Bind.bind, StateT.bind, hdeclared (initialState c), Except.bind,
      hv, hsum t]
  exact ⟨text, by rw [run, hmain]⟩

lemma run_fails (hd : (before ++ s :: after).all (fun s => !declares s) = true) {sc : Scope}
    (hsc : sc = rootScope escapes (Program.mk [] (before ++ s :: after)).looksOut c)
    (hc : Uninterrupted sc (before ++ s :: after))
    (h : ∀ t ∈ before, Gives IsPrintable (statement (Render.invoke escapes depthLimit) sc t))
    (hs : Fails (statement (Render.invoke escapes depthLimit) sc s) e) :
    run escapes (.mk [] (before ++ s :: after)) c = .error e := by
  have hmain : Fails (main escapes (.mk [] (before ++ s :: after)) c) e :=
    fails_after (comes_of_yields (declarations_yields _ hd) rfl) fun declared hdeclared => by
      obtain rfl : [] = declared := hdeclared
      subst hsc
      exact (statements_fails hc h hs).bind
  rw [run, hmain (initialState c) rfl]

end Whole

end BuildNotice.Template
