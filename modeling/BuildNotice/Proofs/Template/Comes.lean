import BuildNotice.Proofs.Template.Meaning
import BuildNotice.Proofs.Value.Leaves

/-! Actions of the renderer that come to what is meant, or end early for the same reason. -/

namespace BuildNotice.Template

open Render Helper
open RenderError (isKey)

def State.HasPath (s : State) : Prop :=
  ((Record.get? "contextPath" s.frame).getD .undefined).isPrintable = true

/-- Reasons for which a meaning ends early, with the errors that each of them stands for; nothing is
said of how an action goes where the reason is beyond what the meaning covers. -/
class Reason (ε : Type) where
  raises : ε → Option (RenderError → Prop)

instance : Reason Halt where
  raises
    | .lacks key => some fun e => e.Lacks key ∧ isKey key = true
    | .lacksArgument key => some fun e => e = .missingArgument key
    | .searchesText => none
    | .addsUp => none

lemma ok_bind {ε β δ : Type} (b : β) (g : β → Except ε δ) : (Except.ok b >>= g) = g b := rfl

section Comes

variable {ε α β γ δ : Type} [Reason ε] {P : α → β → Prop} {Q : γ → δ → Prop} {act : Render α}
  {f : α → Render γ} {g : β → Except ε δ} {a : α} {b : β} {o : Except ε β}

def Outcome (P : α → β → Prop) : Except ε β → Except RenderError (α × State) → Prop
  | .ok b, r => ∃ a t, r = .ok (a, t) ∧ t.HasPath ∧ P a b
  | .error x, r => ∀ R ∈ Reason.raises x, ∃ e, r = .error e ∧ R e

def Comes (P : α → β → Prop) (act : Render α) (o : Except ε β) : Prop :=
  ∀ s, s.HasPath → Outcome P o (act s)

abbrev Gives (R : α → Prop) (act : Render α) : Prop :=
  Comes (fun a (_ : Unit) => R a) act (.ok () : Except Halt Unit)

lemma comes_of_yields (h : Yields act a) (hP : P a b) : Comes P act (.ok b : Except ε β) :=
  fun s hs => ⟨a, s, h s, hs, hP⟩

lemma comes_pure (hP : P a b) : Comes P (pure a) (.ok b : Except ε β) :=
  comes_of_yields (yields_pure a) hP

lemma comes_of_stops {e : RenderError} {x : ε} (h : Stops act e)
    (hR : ∀ R ∈ Reason.raises x, R e) : Comes P act (.error x : Except ε β) :=
  fun s _ R hx => ⟨e, h s, hR R hx⟩

lemma Comes.bind (h : Comes P act o) (hf : ∀ a b, P a b → Comes Q (f a) (g b)) :
    Comes Q (act >>= f) (o >>= g) := by
  intro s hs
  have hact := h s hs
  cases o with
  | ok b =>
    obtain ⟨a, t, hact, ht, hP⟩ := hact
    have hstep : (act >>= f) s = f a t := by simp only [Bind.bind, StateT.bind, hact, Except.bind]
    rw [hstep]
    exact hf a b hP t ht
  | error x =>
    intro R hx
    obtain ⟨e, he, hR⟩ := hact R hx
    exact ⟨e, by simp only [Bind.bind, StateT.bind, he, Except.bind], hR⟩

lemma Comes.of_meaning (h : Comes P act o) {R : α → δ → Prop} {k : β → δ}
    (hR : ∀ a b, P a b → R a (k b)) : Comes R act (o >>= fun b => .ok (k b)) := by
  have hbind : Comes R (act >>= pure) (o >>= fun b => .ok (k b)) :=
    h.bind fun a b hP => comes_pure (hR a b hP)
  rwa [bind_pure] at hbind

lemma Comes.of_action (h : Comes P act o) {R : γ → β → Prop}
    (hf : ∀ a b, P a b → ∃ d, Yields (f a) d ∧ R d b) : Comes R (act >>= f) o := by
  have hbind : Comes R (act >>= f) (o >>= fun b => .ok b) := by
    refine h.bind fun a b hP => ?_
    obtain ⟨d, hd, hR⟩ := hf a b hP
    exact comes_of_yields hd hR
  have hsame : (o >>= fun b => .ok b) = o := by cases o <;> rfl
  rwa [hsame] at hbind

lemma comes_of_yields_bind (h : Yields act a) {r : Except ε δ} (hf : Comes Q (f a) r) :
    Comes Q (act >>= f) r := by
  intro s hs
  have hstep : (act >>= f) s = f a s := by simp only [Bind.bind, StateT.bind, h s, Except.bind]
  rw [hstep]
  exact hf s hs

lemma Comes.after {R : α → Prop} (h : Gives R act) {r : Except ε δ}
    (hf : ∀ a, R a → Comes Q (f a) r) : Comes Q (act >>= f) r := by
  intro s hs
  obtain ⟨a, t, hact, ht, hR⟩ := h s hs
  have hstep : (act >>= f) s = f a t := by simp only [Bind.bind, StateT.bind, hact, Except.bind]
  rw [hstep]
  exact hf a hR t ht

lemma State.HasPath.set {s : State} (hs : s.HasPath) (key : String) {v : Value}
    (hv : key = "contextPath" → v.isPrintable = true) :
    State.HasPath { s with frame := Record.set key v s.frame } := by
  rw [State.HasPath, Record.get?_set]
  split
  · next hkey => exact hv hkey.symm
  · exact hs

lemma setData_gives (key : String) {v : Value} (hv : key = "contextPath" → v.isPrintable = true) :
    Gives (fun _ => True) (setData key v) :=
  fun _ hs => ⟨(), _, rfl, hs.set key hv, trivial⟩

lemma Comes.inFrame (h : Comes P act o) : Comes P (inFrame act) o := by
  intro s hs
  have hchild := h ⟨s.fresh, Record.set "_parent" (.record s.label s.frame) s.frame, s.fresh + 1⟩
    (hs.set "_parent" fun hkey => absurd hkey (by decide))
  rw [Template.inFrame]
  cases o with
  | ok b =>
    obtain ⟨a, t, hact, -, hP⟩ := hchild
    exact ⟨a, { s with fresh := t.fresh }, by rw [hact], hs, hP⟩
  | error x =>
    intro R hx
    obtain ⟨e, hact, hR⟩ := hchild R hx
    exact ⟨e, by rw [hact], hR⟩

end Comes

structure Scope.Stands (sc : Scope) (c : Value) : Prop where
  names : sc.names.all List.isEmpty = true
  context : sc.context = c
  outer : ∀ v ∈ sc.outer, v.isPrintable = true

def Found (v w : Value) : Prop := v = w ∧ (w = .undefined ∨ w.IsWorded)

def Tells (v : Value) (x : Addend) : Prop :=
  ∃ w, v.plain? = some w ∧ w.print? = some x.text ∧
    (w.isText = true ∨ w.isCount = true ∧ x.counts = true)

section Paths

variable {sc : Scope} {c v : Value} {p : Path} {names : List String} {key : String}

lemma reached_worded (h : c.IsWorded) (names : List String) :
    reached c names = .undefined ∨ (reached c names).IsWorded := by
  induction names generalizing c with
  | nil => exact .inr h
  | cons key names ih =>
    obtain hown | hown := h.own key
    · have hrest : ∀ names, reached .undefined names = .undefined := by
        intro names
        induction names with
        | nil => rfl
        | cons key names ih => exact ih
      exact .inl (by rw [reached, List.foldl_cons, hown]; exact hrest names)
    · exact ih hown

lemma lost?_mem (h : lost? v names = some key) : key ∈ names := by
  induction names generalizing v with
  | nil => exact absurd h (by simp [lost?])
  | cons name names ih =>
    rw [lost?] at h
    split at h
    · obtain rfl := Option.some.inj h
      exact List.mem_cons_self
    · exact List.mem_cons_of_mem _ (ih h)

lemma members_lost (h : lost? v names = some key) :
    ∃ e, Stops (members v names) e ∧ e.Lacks key := by
  induction names generalizing v with
  | nil => exact absurd h (by simp [lost?])
  | cons name names ih =>
    rw [lost?] at h
    split at h
    · next hn =>
      obtain rfl := Option.some.inj h
      obtain ⟨e, he, hlacks⟩ := member_stops hn name
      exact ⟨e, he.bind, hlacks⟩
    · next hn =>
      obtain ⟨e, he, hlacks⟩ := ih h
      exact ⟨e, (member_yields (by simpa using hn) name).bind_stops he, hlacks⟩

lemma leads_of_lost? (h : lost? v names = none) : leads v names = true := by
  induction names generalizing v with
  | nil => rfl
  | cons name names ih =>
    rw [lost?] at h
    split at h
    · exact absurd h (by simp)
    · next hn => simp [leads, hn, ih h]

lemma lookup_dotted (hn : sc.names.all List.isEmpty = true) (hc : sc.context = c)
    (hp : p.isDotted = true) (strict : Bool) :
    sc.lookup strict p =
      if strict then knownMembers c p.position p.parts else members c p.parts := by
  simp only [Path.isDotted, Bool.and_eq_true, Bool.not_eq_true', beq_iff_eq, List.all_eq_true] at hp
  obtain ⟨⟨hdata, hdepth⟩, hkeys⟩ := hp
  have hbase : sc.base p = pure c := by
    funext s
    rw [Scope.base, if_neg (by simp [hdata]), hdepth, Scope.contextAt, hc]
    rfl
  rw [Scope.lookup, Path.declared?_eq_none hn, hbase]
  cases hparts : p.parts with
  | nil =>
    simp only [Path.head, hparts, List.headD_nil, if_true, hdepth, Scope.contextAt, hc]
    cases strict <;> rfl
  | cons key names =>
    have hkey := hkeys key (by simp [hparts])
    have hhead : p.head ≠ "" := by
      simp only [isKey, Bool.and_eq_true, bne_iff_ne] at hkey
      simpa [Path.head, hparts] using hkey.1
    simp only [hhead, if_false, pure_bind]

lemma lookup_comes (h : sc.Stands c) (hc : c.IsWorded) (hp : p.isDotted = true) (strict : Bool) :
    Comes Found (sc.lookup strict p) (find strict c p.parts) := by
  have hkeys : ∀ key ∈ p.parts, isKey key = true :=
    List.all_eq_true.mp (Bool.and_eq_true_iff.mp hp).2
  have hfound := reached_worded hc p.parts
  rw [lookup_dotted h.names h.context hp, find]
  cases hs : searchesText c p.parts with
  | true => rintro s - _ ⟨⟩
  | false =>
    cases strict with
    | true =>
      simp only [Bool.false_eq_true, if_false, if_true]
      split
      · next missing hm =>
        obtain ⟨e, he, hlacks⟩ := knownMembers_stops p.position _ c hc.isNullish hc.printable hm
        refine comes_of_stops he ?_
        rintro _ ⟨⟩
        exact ⟨hlacks, hkeys _ (missing?_mem hm)⟩
      · next hm =>
        exact comes_of_yields (knownMembers_yields p.position _ c hc.isNullish hm) ⟨rfl, hfound⟩
    | false =>
      simp only [Bool.false_eq_true, if_false]
      split
      · next missing hm =>
        obtain ⟨e, he, hlacks⟩ := members_lost hm
        refine comes_of_stops he ?_
        rintro _ ⟨⟩
        exact ⟨hlacks, hkeys _ (lost?_mem hm)⟩
      · next hm => exact comes_of_yields (members_yields (leads_of_lost? hm)) ⟨rfl, hfound⟩

end Paths

section Tells

variable {v w : Value} {x y z : Addend}

lemma tells_text (s : String) : Tells (.text s) (.ofText s) := ⟨.text s, rfl, rfl, .inl rfl⟩

lemma Tells.print (h : Tells v x) : v.print? = some x.text := by
  obtain ⟨w, hw, hprint, -⟩ := h
  rw [Value.plain?] at hw
  split at hw
  · obtain ⟨t, ht, rfl⟩ := Option.map_eq_some_iff.mp hw
    obtain rfl := Option.some.inj hprint
    exact ht
  · obtain rfl := Option.some.inj hw
    exact hprint

lemma Tells.isNullish (h : Tells v x) : v.isNullish = false := by
  obtain ⟨w, hw, -, hkind⟩ := h
  cases v with
  | undefined =>
    obtain rfl := Option.some.inj hw
    exact absurd hkind (by simp [Value.isText, Value.isCount])
  | null =>
    obtain rfl := Option.some.inj hw
    exact absurd hkind (by simp [Value.isText, Value.isCount])
  | _ => rfl

lemma Tells.add (hv : Tells v x) (hw : Tells w y) (hz : x.add y = .ok z) :
    ∃ u, v.add? w = some u ∧ Tells u z := by
  obtain ⟨a, ha, hat, hak⟩ := hv
  obtain ⟨b, hb, hbt, hbk⟩ := hw
  rw [Addend.add] at hz
  split at hz
  · exact absurd hz (by simp)
  · next hcounts =>
    obtain rfl := Except.ok.inj hz
    -- the two would add up only if neither were a text, and then both count
    have htext : (a.isText || b.isText) = true := by
      rcases hak with hak | hak
      · simp [hak]
      · rcases hbk with hbk | hbk
        · simp [hbk]
        · exact absurd (by simp [hak.2, hbk.2]) hcounts
    refine ⟨.text (x.text ++ y.text), ?_, tells_text _⟩
    simp only [Value.add?, ha, hb, Value.addPlain, htext, if_true, hat, hbt]

lemma exists_shown (escapes : Bool) (h : v.isPrintable = true) :
    ∃ w, added? escapes v = some w ∧ Tells w (.ofValue escapes v) := by
  obtain ⟨s, hs⟩ := Value.exists_print h
  cases escapes with
  | true =>
    obtain ⟨t, ht⟩ : ∃ t, Escape.value? v = some t := by
      rw [Escape.value?, hs]
      split <;> exact ⟨_, rfl⟩
    exact ⟨.text t, by simp [added?, ht], .text t, rfl, by simp [Value.print?, Addend.ofValue,
      printed?, ht], .inl rfl⟩
  | false =>
    cases hn : v.isNullish with
    | true =>
      exact ⟨.text "", by simp [added?, hn], .text "", rfl,
        by simp [Value.print?, Addend.ofValue, printed?, hn], .inl rfl⟩
    | false =>
      refine ⟨v, by simp [added?, hn], ?_⟩
      have htext : (Addend.ofValue false v).text = s := by simp [Addend.ofValue, printed?, hn, hs]
      cases hc : v.isComposite with
      | true =>
        exact ⟨.text s, by simp [Value.plain?, hc, hs], by simp [Value.print?, htext], .inl rfl⟩
      | false =>
        refine ⟨v, by simp [Value.plain?, hc], by rw [hs, htext], ?_⟩
        cases v with
        | text t => exact .inl rfl
        | number x => exact .inr ⟨rfl, rfl⟩
        | bool b => exact .inr ⟨rfl, rfl⟩
        | undefined => exact absurd hn (by simp [Value.isNullish])
        | null => exact absurd hn (by simp [Value.isNullish])
        | list label items => exact absurd hc (by simp [Value.isComposite])
        | record label fields => exact absurd hc (by simp [Value.isComposite])

end Tells

end BuildNotice.Template
