import BuildNotice.Proofs.Template.Comes

/-! Blocks that come to what their bodies do, and statements that come to the sum of what they give. -/

namespace BuildNotice.Template

open Render Helper

section Blocks

variable {ε β γ : Type} [Reason ε] {allowed : Value → Prop} {R : Value → β → Prop}
  {body other : Value → Except ε β} {o : Helper.Options} {c v : Value} {helper : Helper}

lemma appendPath_yields {path id : Value} (hpath : path.isPrintable = true)
    (hid : id.isPrintable = true) : ∃ s, Yields (appendPath path id) s := by
  obtain ⟨s, hs⟩ := Value.exists_print hpath
  obtain ⟨t, ht⟩ := Value.exists_print hid
  cases hp : path.isTruthy with
  | true =>
    refine ⟨s ++ "." ++ t, (yields_ofOption ht).bind ?_⟩
    rw [if_pos hp]
    exact (yields_ofOption hs).bind (yields_pure _)
  | false =>
    refine ⟨t, (yields_ofOption ht).bind ?_⟩
    rw [if_neg (by simp [hp])]
    exact yields_pure _

lemma argumentPath_gives (hids : (o.ids.headD .undefined).isPrintable = true) :
    Gives (fun _ => True) (argumentPath o) := by
  intro s hs
  obtain ⟨path, hpath⟩ := appendPath_yields hs hids
  exact ⟨path, s, hpath s, hs, trivial⟩

/-- Bodies of a block that come to what they stand for in every context that is allowed; one of
these is the context that the block itself is in. -/
structure Helper.Options.Runs (allowed : Value → Prop) (R : Value → β → Prop) (o : Helper.Options)
    (c : Value) (body other : Value → Except ε β) : Prop where
  this : o.this = c
  isAllowed : allowed c
  hash : o.hash = []
  ids : (o.ids.headD .undefined).isPrintable = true
  body : ∀ v args, allowed v → Comes R (Helper.run o.body v args) (body v)
  other : ∀ v args, allowed v → Comes R (Helper.run o.alternative v args) (other v)

lemma choose_comes (h : o.Runs allowed R c body other) (condition : Bool) :
    Comes R (choose condition o) (if condition then body c else other c) := by
  rw [choose, h.this]
  cases condition with
  | true => exact h.body c none h.isAllowed
  | false => exact h.other c none h.isAllowed

lemma eachItem_comes {Q : Value → γ → Prop} {r : Except ε γ} {path : String} {key : Value}
    {keyText : String} {index : Nat} {last : Bool} {acc : Value} (h : ∀ args, Comes Q (do
      let out ← Helper.run o.body v args
      ofOption (acc.add? out)) r) :
    Comes Q (eachItem o path key keyText index last v acc) r := by
  refine (setData_gives "key" fun hk => absurd hk (by decide)).after fun _ _ => ?_
  refine (setData_gives "index" fun hk => absurd hk (by decide)).after fun _ _ => ?_
  refine (setData_gives "first" fun hk => absurd hk (by decide)).after fun _ _ => ?_
  refine (setData_gives "last" fun hk => absurd hk (by decide)).after fun _ _ => ?_
  exact (setData_gives "contextPath" fun _ => rfl).after fun _ _ => h _

lemma eachFrom_comes {S : Value → γ → Prop} {add : γ → β → Except ε γ}
    (h : o.Runs allowed R c body other)
    (hadd : ∀ acc a out b, S acc a → R out b → Comes S (ofOption (acc.add? out)) (add a b))
    (path : String) {es : List (Value × String × Value)} (hes : ∀ e ∈ es, allowed e.2.2)
    (index : Nat) {acc : Value} {a : γ} (hacc : S acc a) :
    Comes S (eachFrom o path es index acc) (es.foldlM (fun a e => body e.2.2 >>= add a) a) := by
  induction es generalizing index acc a with
  | nil => exact comes_pure hacc
  | cons e es ih =>
    obtain ⟨key, keyText, v⟩ := e
    rw [List.forall_mem_cons] at hes
    have hitem : Comes S (eachItem o path key keyText index es.isEmpty v acc) (body v >>= add a) :=
      eachItem_comes fun args => (h.body v args hes.1).bind fun out b hout =>
        hadd acc a out b hacc hout
    rw [eachFrom, List.foldlM_cons]
    exact hitem.bind fun acc a hacc => ih hes.2 (index + 1) hacc

lemma eachOf_comes (h : o.Runs allowed R c body other) {items : Except ε β}
    (hitems : ∀ path, entries v ≠ [] →
      Comes R (eachFrom o path (entries v) 0 (.text "")) items) :
    Comes R (eachOf v o) (if (entries v).isEmpty then other c else items) := by
  refine (argumentPath_gives h.ids).after fun path _ => ?_
  rw [h.this]
  cases hentries : entries v with
  | nil => exact h.other c none h.isAllowed
  | cons e es =>
    rw [hentries] at hitems
    exact (hitems _ (List.cons_ne_nil e es)).inFrame

lemma withContext_comes (h : o.Runs allowed R c body other) (hv : allowed v) :
    Comes R (withContext v o) (if v.isEmpty then other c else body v) := by
  rw [withContext, h.this]
  split
  · exact h.other c none h.isAllowed
  · refine (argumentPath_gives h.ids).after fun path _ => Comes.inFrame ?_
    exact (setData_gives _ fun _ => rfl).after fun _ _ => h.body v _ hv

def Helper.shows (helper : Helper) (v : Value) (o : Helper.Options) : Render Value :=
  match helper with
  | .if => choose (holds v o.hash) o
  | .unless => choose (!holds v o.hash) o
  | .each => eachOf v o
  | .with => withContext v o
  | _ => pure .undefined

lemma call_block (hblock : helper.isBlock = true) (v : Value) (o : Helper.Options) :
    helper.call [v] o = (do
      require [v] o.ids (blockName helper)
      helper.shows v o) := by
  cases helper with
  | «if» => rfl
  | «unless» => rfl
  | each => rfl
  | «with» => rfl
  | _ => exact absurd hblock Bool.false_ne_true

/-- What a block about `v` stands for, where its items together stand for `items`. -/
def Helper.shown {δ : Type} (helper : Helper) (v c : Value) (body other : Value → δ) (items : δ) :
    δ :=
  match helper with
  | .if => if holds v [] then body c else other c
  | .unless => if !holds v [] then body c else other c
  | .each => if (entries v).isEmpty then other c else items
  | .with => if v.isEmpty then other c else body v
  | _ => other c

lemma shows_comes (h : o.Runs allowed R c body other) (hblock : helper.isBlock = true)
    (hv : allowed v) {items : Except ε β} (hitems : ∀ path, entries v ≠ [] →
      Comes R (eachFrom o path (entries v) 0 (.text "")) items) :
    Comes R (helper.shows v o) (helper.shown v c body other items) := by
  cases helper with
  | «if» =>
    rw [shows, shown, h.hash]
    exact choose_comes h _
  | «unless» =>
    rw [shows, shown, h.hash]
    exact choose_comes h _
  | each => exact eachOf_comes h hitems
  | «with» => exact withContext_comes h hv
  | _ => exact absurd hblock Bool.false_ne_true

lemma helperCall_comes {β' : Type} {P : List Value → β → Prop} {Q : Value → β' → Prop} {sc : Scope}
    {callee : Path} (hof : Helper.ofName? callee.head = some helper)
    (hnamed : (callee.isSimple || Helper.reserved.contains callee.head) = true)
    {args : List Expr} {ids : List Value} (hids : Yields (exprIds sc args) ids)
    {bodies : Render Bodies} {b : Bodies} (hb : Yields bodies b) {r : Except ε β}
    (hargs : Comes P (exprs sc args) r) {k : β → Except ε β'}
    (hcall : ∀ vs a, P vs a →
      Comes Q (helper.call vs ⟨this sc, [], ids, b.body, b.alternative⟩) (k a)) :
    Comes Q (helperCall sc (.mk callee args []) bodies) (r >>= k) := by
  have hhash : Yields (hash sc []) [] := yields_pure []
  simp only [helperCall, Call.callee, Call.args, Call.hash, applyHelper, hnamed, if_true, hof]
  refine hargs.bind fun vs a hvs => ?_
  refine comes_of_yields_bind hhash (comes_of_yields_bind hb ?_)
  exact comes_of_yields_bind hids (hcall vs a hvs)

end Blocks

section Sums

variable {ε β τ : Type} [Reason ε] {T : Option Value → τ → Prop} {zero : τ}
  {add : τ → τ → Except ε τ} {R : Value → β → Prop} {done : τ → β} {invoke : Invoke} {sc : Scope}
  {sum : Sum} {act : Render (Option Value)} {r : Except ε τ} {x : τ} {ss : List Statement}
  {m : Statement → Except ε τ}

def joinRun (run : Option Value) : Option Value → Render (Option Value)
  | none => pure run
  | some v => do pure (some (← plus run v))

/-- Sums that are told by `T`: adding to a sum comes to what adding does to what is told of it. -/
structure Adds (T : Option Value → τ → Prop) (zero : τ) (add : τ → τ → Except ε τ) : Prop where
  start : T none zero
  zero_add : ∀ x, add zero x = .ok x
  add : ∀ {run v x y}, T run x → T v y → Comes T (joinRun run v) (add x y)

def Sums (T : Option Value → τ → Prop) (s : Sum) (x : τ) : Prop := s.total = none ∧ T s.run x

lemma step_comes (h : Adds T zero add) (hsum : Sums T sum x) (hact : Comes T act r) :
    Comes (Sums T) (sum.step false false act) (r >>= add x) := by
  obtain ⟨total, run⟩ := sum
  obtain ⟨rfl, hrun⟩ := hsum
  have hstep : Sum.step ⟨none, run⟩ false false act =
      (act >>= fun v => joinRun run v >>= fun run => pure ⟨none, run⟩) := by
    refine bind_congr fun v => ?_
    cases v with
    | none => rfl
    | some v =>
      rw [joinRun, bind_assoc]
      rfl
  rw [hstep]
  exact hact.bind fun v y hv =>
    (h.add hrun hv).of_action fun run z hz => ⟨_, yields_pure _, rfl, hz⟩

lemma complete_eq (hsum : Sums T sum x) : sum.complete = pure (sum.run.getD (.text "")) := by
  obtain ⟨total, run⟩ := sum
  obtain ⟨rfl, -⟩ := hsum
  cases run <;> rfl

lemma sumFrom_comes (h : Adds T zero add)
    (hdone : ∀ {run x}, T run x → R (run.getD (.text "")) (done x)) (hc : Uninterrupted sc ss)
    (hss : ∀ s ∈ ss, Comes T (statement invoke sc s) (m s)) (hsum : Sums T sum x) :
    Comes R (sumFrom invoke sc sum ss)
      (ss.foldlM (fun x s => m s >>= add x) x >>= fun x => .ok (done x)) := by
  induction ss generalizing sum x with
  | nil =>
    rw [sumFrom, complete_eq hsum]
    exact comes_pure (hdone hsum.2)
  | cons s ss ih =>
    obtain ⟨hs, hany, hrest⟩ := hc.any
    rw [List.forall_mem_cons] at hss
    rw [sumFrom, hs, hany, List.foldlM_cons, bind_assoc]
    exact (step_comes h hsum hss.1).bind fun sum x hsum => ih hrest hss.2 hsum

lemma statements_comes (h : Adds T zero add)
    (hdone : ∀ {run x}, T run x → R (run.getD (.text "")) (done x)) (hc : Uninterrupted sc ss)
    (hss : ∀ s ∈ ss, Comes T (statement invoke sc s) (m s)) :
    Comes R (statements invoke sc ss)
      (ss.foldlM (fun x s => m s >>= add x) zero >>= fun x => .ok (done x)) := by
  have hempty : Sums T Sum.empty zero := ⟨rfl, h.start⟩
  match ss with
  | [] =>
    rw [statements]
    exact comes_pure (hdone h.start)
  | [s] =>
    have hadd : (m s >>= add zero) = m s := by
      rw [funext h.zero_add]
      cases m s <;> rfl
    rw [statements, if_pos List.isEmpty_nil, List.foldlM_cons, hadd, bind_assoc]
    exact (hss s List.mem_cons_self).bind fun v x hv => comes_pure (hdone hv)
  | s :: t :: ss =>
    rw [statements_eq_sumFrom]
    exact sumFrom_comes h hdone hc hss hempty

lemma uninterrupted_of_fits {g : Grammar} (hg : ∀ call, g.block call = true → call.args ≠ [] ∧
      call.hash = []) (hn : sc.names.all List.isEmpty = true) (hss : statementsFit g ss = true) :
    Uninterrupted sc ss := by
  induction ss with
  | nil => rfl
  | cons s ss ih =>
    obtain ⟨hs, hss⟩ := statementsFit_cons.mp hss
    have hcompletes : completes sc.names s = false := by
      cases s with
      | block call body other =>
        obtain ⟨callee, args, pairs⟩ := call
        obtain ⟨hargs, rfl⟩ : args ≠ [] ∧ pairs = [] := hg _ (Statement.fits_block.mp hs).1
        rw [completes, kind_args hn hargs]
        rfl
      | _ => rfl
    rw [Uninterrupted, List.all_cons, hcompletes, ih hss]
    rfl

end Sums

end BuildNotice.Template
