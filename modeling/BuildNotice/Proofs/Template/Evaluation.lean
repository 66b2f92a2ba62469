import BuildNotice.Template.Render
import BuildNotice.Proofs.Value.Printable
import Mathlib.Data.List.ReduceOption

/-! Actions that neither read nor change the data of their frame. -/

namespace BuildNotice.Template

open Value (sum?)

namespace Render

variable {α β : Type} {act : Render α} {f : α → Render β} {a : α} {b : β} {e : RenderError}

def Yields (act : Render α) (a : α) : Prop := ∀ s, act s = .ok (a, s)

def YieldsAt (s : State) (act : Render α) (a : α) : Prop := act s = .ok (a, s)

def Stops (act : Render α) (e : RenderError) : Prop := ∀ s, act s = .error e

lemma yields_pure (a : α) : Yields (pure a : Render α) a := fun _ => rfl

lemma stops_fail (e : RenderError) : Stops (fail e : Render α) e := fun _ => rfl

lemma yields_ofOption {x : Option α} (h : x = some a) : Yields (ofOption x) a := by
  subst h
  exact yields_pure a

lemma YieldsAt.bind {s : State} (h : YieldsAt s act a) (hf : YieldsAt s (f a) b) :
    YieldsAt s (act >>= f) b := by
  rw [YieldsAt] at h
  simp only [YieldsAt, Bind.bind, StateT.bind, h, Except.bind]
  exact hf

lemma Yields.bind (h : Yields act a) (hf : Yields (f a) b) : Yields (act >>= f) b := by
  intro s
  simp only [Bind.bind, StateT.bind, h s, Except.bind]
  exact hf s

lemma Yields.bind_stops (h : Yields act a) (hf : Stops (f a) e) : Stops (act >>= f) e := by
  intro s
  simp only [Bind.bind, StateT.bind, h s, Except.bind]
  exact hf s

lemma Stops.bind (h : Stops act e) : Stops (act >>= f) e := by
  intro s
  simp only [Bind.bind, StateT.bind, h s, Except.bind]

lemma Yields.map (h : Yields act a) (g : α → β) : Yields (do pure (g (← act))) (g a) :=
  h.bind (yields_pure _)

end Render

open Render

structure Scope.Sees (sc : Scope) (c : Value) : Prop where
  names : sc.names.all List.isEmpty = true
  context : sc.context = c
  outer : sc.outer.headD .undefined = c

lemma declared?_eq_none {names : List (List String)} (h : names.all List.isEmpty = true)
    (name : String) : declared? name names = none := by
  induction names with
  | nil => rfl
  | cons ns names ih =>
    simp only [List.all_cons, Bool.and_eq_true, List.isEmpty_iff] at h
    simp [declared?, h.1, ih h.2]

lemma Path.declared?_eq_none {names : List (List String)} (h : names.all List.isEmpty = true)
    (p : Path) : p.declared? names = none := by
  rw [Path.declared?]
  split
  · cases hp : p.parts.head? with
    | none => rfl
    | some name => exact Template.declared?_eq_none h name
  · rfl

lemma Scope.Sees.declared?_path {sc : Scope} {c : Value} (h : sc.Sees c) (p : Path) :
    p.declared? sc.names = none := Path.declared?_eq_none h.names p

lemma Helper.forall_entries {P : Value → Prop} {v : Value}
    (hlist : ∀ label items, v = .list label items → ∀ w ∈ items, P w)
    (hrecord : ∀ label fields, v = .record label fields → ∀ f ∈ fields, P f.2) :
    ∀ e ∈ Helper.entries v, P e.2.2 := by
  intro e he
  cases v with
  | list label items =>
    obtain ⟨⟨w, i⟩, hw, rfl⟩ := List.mem_map.mp he
    exact hlist label items rfl w (List.fst_mem_of_mem_zipIdx hw)
  | record label fields =>
    obtain ⟨f, hf, rfl⟩ := List.mem_map.mp he
    exact hrecord label fields rfl f hf
  | _ => exact absurd he (by simp [Helper.entries])

namespace Render

def declares : Statement → Bool
  | .decorator _ _ => true
  | _ => false

lemma declarations_yields (sc : Scope) {ss : List Statement}
    (h : ss.all (fun s => !declares s) = true) : Yields (declarations sc ss) [] := by
  induction ss with
  | nil => exact yields_pure []
  | cons s ss ih =>
    simp only [List.all_cons, Bool.and_eq_true] at h
    have hs : Yields (declaration sc s) [] := by
      cases s with
      | decorator call body => exact absurd h.1 (by simp [declares])
      | _ => exact yields_pure []
    rw [declarations]
    exact hs.bind ((ih h.2).bind (yields_pure _))

variable (invoke : Invoke) (sc : Scope)

abbrev Give (ss : List Statement) (xs : List (Option Value)) : Prop :=
  List.Forall₂ (fun s x => Yields (statement invoke sc s) x) ss xs

abbrev GiveAt (state : State) (ss : List Statement) (xs : List (Option Value)) : Prop :=
  List.Forall₂ (fun s x => YieldsAt state (statement invoke sc s) x) ss xs

def Uninterrupted (ss : List Statement) : Prop := ss.all (fun s => !completes sc.names s) = true

variable {invoke sc} {ss : List Statement} {xs : List (Option Value)} {e : RenderError}

lemma Uninterrupted.any {s : Statement} (h : Uninterrupted sc (s :: ss)) :
    completes sc.names s = false ∧ ss.any (completes sc.names) = false ∧ Uninterrupted sc ss := by
  simp only [Uninterrupted, List.all_cons, Bool.and_eq_true, Bool.not_eq_true'] at h
  refine ⟨h.1, ?_, h.2⟩
  simpa using h.2

lemma reduceOption_map_some (vs : List Value) : (vs.map some).reduceOption = vs := by
  simp [List.reduceOption]

lemma exists_step {run : Option Value} {x : Option Value} {w : Value} {vs : List Value}
    (hw : sum? (run.toList ++ (x.toList ++ vs)) = some w) :
    ∃ run', (∀ act s, YieldsAt s act x →
      YieldsAt s (Sum.step ⟨none, run⟩ false false act) ⟨none, run'⟩) ∧
      sum? (run'.toList ++ vs) = some w := by
  cases x with
  | none =>
    exact ⟨run, fun act s hact => hact.bind (yields_pure _ s), by simpa using hw⟩
  | some v =>
    cases run with
    | none =>
      have hadd : Yields (Sum.add ⟨none, none⟩ false v) ⟨none, some v⟩ :=
        (yields_pure v).bind (yields_pure _)
      exact ⟨some v, fun act s hact => hact.bind (hadd s), by simpa using hw⟩
    | some r =>
      simp only [Option.toList_some, List.cons_append, List.nil_append, sum?,
        List.foldlM_cons] at hw
      obtain ⟨u, hu, hw⟩ := Option.bind_eq_some_iff.mp hw
      have hadd : Yields (Sum.add ⟨none, some r⟩ false v) ⟨none, some u⟩ :=
        (yields_ofOption hu).bind (yields_pure _)
      exact ⟨some u, fun act s hact => hact.bind (hadd s), by simpa [sum?] using hw⟩

lemma sumFrom_yieldsAt {state : State} (hc : Uninterrupted sc ss) (h : GiveAt invoke sc state ss xs)
    {run : Option Value} {w : Value} (hw : sum? (run.toList ++ xs.reduceOption) = some w) :
    YieldsAt state (sumFrom invoke sc ⟨none, run⟩ ss) w := by
  induction h generalizing run with
  | nil =>
    rw [sumFrom]
    cases run with
    | none =>
      obtain rfl : Value.text "" = w := by simpa [sum?] using hw
      exact yields_pure _ state
    | some r =>
      obtain rfl : r = w := by simpa [sum?] using hw
      exact yields_pure _ state
  | @cons s x ss xs hs _ ih =>
    obtain ⟨hs', hany, hss⟩ := hc.any
    rw [sumFrom, hs', hany]
    have hcons : (x :: xs).reduceOption = x.toList ++ xs.reduceOption := by
      cases x <;> simp [List.reduceOption_cons_of_some, List.reduceOption_cons_of_none]
    rw [hcons] at hw
    obtain ⟨run', hstep, hw'⟩ := exists_step hw
    exact (hstep _ state hs).bind (ih hss hw')

lemma statements_eq_sumFrom {s t : Statement} (ss : List Statement) :
    statements invoke sc (s :: t :: ss) = sumFrom invoke sc Sum.empty (s :: t :: ss) := by
  rw [statements, sumFrom]
  rfl

lemma statements_yieldsAt {state : State} (hc : Uninterrupted sc ss)
    (h : GiveAt invoke sc state ss xs) {w : Value} (hw : sum? xs.reduceOption = some w) :
    YieldsAt state (statements invoke sc ss) w := by
  match ss, xs, h with
  | [], [], _ =>
    obtain rfl : Value.text "" = w := by simpa [sum?] using hw
    rw [statements]
    exact yields_pure _ state
  | [s], [x], .cons hs .nil =>
    rw [statements, if_pos List.isEmpty_nil]
    obtain rfl : x.getD (.text "") = w := by
      cases x <;> simpa [List.reduceOption, sum?] using hw
    exact YieldsAt.bind hs (yields_pure _ state)
  | s :: t :: ss, xs, h =>
    rw [statements_eq_sumFrom]
    exact sumFrom_yieldsAt hc h hw

lemma statements_yields (hc : Uninterrupted sc ss) (h : Give invoke sc ss xs) {w : Value}
    (hw : sum? xs.reduceOption = some w) : Yields (statements invoke sc ss) w :=
  fun state => statements_yieldsAt hc (h.imp fun _ _ hs => hs state) hw

lemma step_stops {run : Option Value} {more : Bool} {act : Render (Option Value)}
    (h : Stops act e) : Stops (Sum.step ⟨none, run⟩ false more act) e := h.bind

lemma sumFrom_stops {s : Statement} {rest : List Statement}
    (hc : Uninterrupted sc (ss ++ s :: rest)) (h : Give invoke sc ss xs)
    (hxs : ∀ v ∈ xs.reduceOption, v.isPrintable = true) (hs : Stops (statement invoke sc s) e)
    {run : Option Value} (hrun : ∀ v ∈ run, v.isPrintable = true) :
    Stops (sumFrom invoke sc ⟨none, run⟩ (ss ++ s :: rest)) e := by
  induction h generalizing run with
  | nil =>
    obtain ⟨hs', hany, -⟩ := hc.any
    rw [List.nil_append, sumFrom, hs', hany]
    exact (step_stops hs).bind
  | @cons t x ss xs ht _ ih =>
    rw [List.cons_append] at hc
    obtain ⟨ht', hany, hss⟩ := hc.any
    rw [List.cons_append, sumFrom, ht', hany]
    cases x with
    | none =>
      have hstep : Yields (Sum.step ⟨none, run⟩ false false (statement invoke sc t)) ⟨none, run⟩ :=
        ht.bind (yields_pure _)
      exact hstep.bind_stops (ih hss (by simpa [List.reduceOption_cons_of_none] using hxs) hrun)
    | some v =>
      simp only [List.reduceOption_cons_of_some, List.mem_cons, forall_eq_or_imp] at hxs
      obtain ⟨w, hw, hwp⟩ : ∃ w, sum? (run.toList ++ [v]) = some w ∧ w.isPrintable = true := by
        apply Value.exists_sum
        intro u hu
        rcases List.mem_append.mp hu with hu | hu
        · exact hrun u (by simpa using hu)
        · obtain rfl : u = v := by simpa using hu
          exact hxs.1
      obtain ⟨run', hact, hw'⟩ :=
        exists_step (show sum? (run.toList ++ ((some v).toList ++ [])) = some w from hw)
      have hstep : Yields (Sum.step ⟨none, run⟩ false false (statement invoke sc t)) ⟨none, run'⟩ :=
        fun state => hact _ state (ht state)
      refine hstep.bind_stops (ih hss hxs.2 ?_)
      rintro u rfl
      obtain rfl : u = w := by simpa [sum?] using hw'
      exact hwp

lemma statements_stops {s : Statement} {rest : List Statement}
    (hc : Uninterrupted sc (ss ++ s :: rest)) (h : Give invoke sc ss xs)
    (hxs : ∀ v ∈ xs.reduceOption, v.isPrintable = true) (hs : Stops (statement invoke sc s) e) :
    Stops (statements invoke sc (ss ++ s :: rest)) e := by
  have hfrom : Stops (sumFrom invoke sc Sum.empty (ss ++ s :: rest)) e :=
    sumFrom_stops hc h hxs hs (by simp)
  match ss, rest with
  | [], [] =>
    rw [List.nil_append, statements, if_pos List.isEmpty_nil]
    exact hs.bind
  | [], t :: rest => exact (statements_eq_sumFrom rest).symm ▸ hfrom
  | [t], rest => exact (statements_eq_sumFrom rest).symm ▸ hfrom
  | t :: u :: ss, rest => exact (statements_eq_sumFrom (ss ++ s :: rest)).symm ▸ hfrom

def rootScope (escapes levels : Bool) (c : Value) : Scope :=
  ⟨escapes, c, [c], [], [], [], none, levels⟩

lemma rootScope_sees (escapes levels : Bool) (c : Value) : (rootScope escapes levels c).Sees c :=
  ⟨rfl, rfl, rfl⟩

variable {escapes : Bool} {c : Value}

lemma run_yieldsAt (hd : ss.all (fun s => !declares s) = true) {v : Value} {t : String}
    (h : YieldsAt (initialState c)
      (statements (Render.invoke escapes depthLimit)
      (rootScope escapes (Program.mk [] ss).looksOut c) ss) v)
    (hv : v.print? = some t) : run escapes (.mk [] ss) c = .ok t := by
  have hsum : (Value.text "").add? v = some (.text t) := by simpa using Value.add?_text "" hv
  have hmain : YieldsAt (initialState c) (main escapes (.mk [] ss) c) (.text t) :=
    YieldsAt.bind (declarations_yields _ hd _) (h.bind (yields_ofOption hsum _))
  rw [YieldsAt] at hmain
  rw [run, hmain]

lemma run_yields (hd : ss.all (fun s => !declares s) = true) {v : Value} {t : String}
    (h : Yields (statements (Render.invoke escapes depthLimit)
      (rootScope escapes (Program.mk [] ss).looksOut c) ss) v)
    (hv : v.print? = some t) : run escapes (.mk [] ss) c = .ok t :=
  run_yieldsAt hd (h _) hv

lemma run_stops (hd : ss.all (fun s => !declares s) = true)
    (h : Stops (statements (Render.invoke escapes depthLimit)
      (rootScope escapes (Program.mk [] ss).looksOut c) ss) e) :
    run escapes (.mk [] ss) c = .error e := by
  have hmain : Stops (main escapes (.mk [] ss) c) e :=
    (declarations_yields _ hd).bind_stops h.bind
  rw [run, hmain]

end Render

end BuildNotice.Template
