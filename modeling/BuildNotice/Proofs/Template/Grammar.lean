import BuildNotice.Template.Compile
import BuildNotice.Template.Helper
import Mathlib.Data.List.Basic

/-! Classes of templates by what they are built from; the layout of lines leaves a template in its class. -/

namespace BuildNotice.Template

/-- What a class of templates allows: characters of literal text, calls of tags and of blocks, and
names that a body declares. -/
structure Grammar where
  char : Char → Bool
  output : Bool → Call → Bool
  block : Call → Bool
  params : List String → Bool

def Helper.isBlock : Helper → Bool
  | .if => true
  | .unless => true
  | .each => true
  | .with => true
  | _ => false

variable {g : Grammar}

mutual

def Node.fits (g : Grammar) : Node → Bool
  | .content c => c.text.all g.char
  | .output escaped call _ => g.output escaped call
  | .block (.section call) body other _ => g.block call && (optionFits g body && optionFits g other)
  | _ => false

def optionFits (g : Grammar) : Option Body → Bool
  | none => true
  | some b => b.fits g

def Body.fits (g : Grammar) : Body → Bool
  | .mk params _ nodes => g.params params && nodesFit g nodes

def nodesFit (g : Grammar) : List Node → Bool
  | [] => true
  | n :: ns => n.fits g && nodesFit g ns

end

mutual

def Statement.fits (g : Grammar) : Statement → Bool
  | .content text => text.toList.all g.char
  | .output escaped call => g.output escaped call
  | .block call body other => g.block call && (programFits? g body && programFits? g other)
  | _ => false

def programFits? (g : Grammar) : Option Program → Bool
  | none => true
  | some p => p.fits g

def Program.fits (g : Grammar) : Program → Bool
  | .mk params body => g.params params && statementsFit g body

def statementsFit (g : Grammar) : List Statement → Bool
  | [] => true
  | s :: ss => s.fits g && statementsFit g ss

end

lemma Node.fits_section {call : Call} {body other : Option Body} {strip : BlockStrip} :
    (Node.block (.section call) body other strip).fits g = true ↔
      g.block call = true ∧ optionFits g body = true ∧ optionFits g other = true := by
  simp [Node.fits]

lemma Body.fits_mk {params : List String} {chained : Bool} {nodes : List Node} :
    (Body.mk params chained nodes).fits g = true ↔
      g.params params = true ∧ nodesFit g nodes = true := by
  simp [Body.fits]

lemma nodesFit_iff {ns : List Node} : nodesFit g ns = true ↔ ∀ n ∈ ns, n.fits g = true := by
  induction ns with
  | nil => simp [nodesFit]
  | cons n ns ih => simp [nodesFit, ih]

lemma nodesFit_cons {n : Node} {ns : List Node} :
    nodesFit g (n :: ns) = true ↔ n.fits g = true ∧ nodesFit g ns = true := by
  simp [nodesFit]

lemma nodesFit_reverse {ns : List Node} : nodesFit g ns.reverse = nodesFit g ns := by
  rw [Bool.eq_iff_iff]
  simp only [nodesFit_iff, List.mem_reverse]

lemma Statement.fits_block {call : Call} {body other : Option Program} :
    (Statement.block call body other).fits g = true ↔
      g.block call = true ∧ programFits? g body = true ∧ programFits? g other = true := by
  simp [Statement.fits]

lemma Program.fits_mk {params : List String} {body : List Statement} :
    (Program.mk params body).fits g = true ↔
      g.params params = true ∧ statementsFit g body = true := by
  simp [Program.fits]

lemma statementsFit_cons {s : Statement} {ss : List Statement} :
    statementsFit g (s :: ss) = true ↔ s.fits g = true ∧ statementsFit g ss = true := by
  simp [statementsFit]

namespace Layout

open Text.Blank

def Trims (f : Content → Content) : Prop := ∀ c, (f c).text ⊆ c.text

lemma dropEndWhile_subset (p : Char → Bool) (cs : List Char) : dropEndWhile p cs ⊆ cs := by
  intro c hc
  rw [dropEndWhile, List.mem_reverse] at hc
  exact List.mem_reverse.mp ((List.dropWhile_suffix p).subset hc)

lemma dropBreak_subset (cs : List Char) : dropBreak cs ⊆ cs := by
  unfold dropBreak
  split
  · exact fun c hc => List.mem_cons_of_mem _ (List.mem_cons_of_mem _ hc)
  · exact fun c hc => List.mem_cons_of_mem _ hc
  · exact fun c hc => List.mem_cons_of_mem _ hc
  · exact fun c hc => hc

lemma trims_cutFront (cut : Cut) : Trims (cutFront cut) := by
  intro c
  cases cut with
  | all => exact (List.dropWhile_suffix _).subset
  | line =>
    rw [cutFront]
    split
    · exact fun x hx => hx
    · exact fun x hx => (List.dropWhile_suffix _).subset (dropBreak_subset _ hx)

lemma trims_cutBack (cut : Cut) : Trims (cutBack cut) := by
  intro c
  cases cut with
  | all => exact dropEndWhile_subset _ _
  | line =>
    rw [cutBack]
    split
    · exact fun x hx => hx
    · exact dropEndWhile_subset _ _

lemma trims_foldl {cut : Cut → Content → Content} (h : ∀ k, Trims (cut k)) (cuts : List Cut) :
    Trims fun c => cuts.foldl (fun c k => cut k c) c := by
  intro c
  induction cuts generalizing c with
  | nil => exact fun x hx => hx
  | cons k cuts ih => exact fun x hx => h k c (ih (cut k c) hx)

def Keeps {α : Type} (p : α → Bool) (f : α → α) : Prop := ∀ x, p x = true → p (f x) = true

lemma Keeps.when {α : Type} {p : α → Bool} {f : α → α} (h : Keeps p f) (b : Bool) :
    Keeps p (when b f) := by
  intro x hx
  rw [Layout.when]
  split
  · exact h x hx
  · exact hx

lemma keeps_onContent {f : Content → Content} (h : Trims f) : Keeps (Node.fits g) (onContent f) := by
  intro n hn
  cases n with
  | content c =>
    simp only [Node.fits, List.all_eq_true] at hn
    simp only [onContent, Node.fits, List.all_eq_true]
    exact fun x hx => hn x (h c hx)
  | _ => exact hn

lemma keeps_onFirst {f : Content → Content} (h : Trims f) : Keeps (nodesFit g) (onFirst f) := by
  intro ns hns
  cases ns with
  | nil => exact hns
  | cons n ns =>
    rw [nodesFit_cons] at hns
    exact nodesFit_cons.mpr ⟨keeps_onContent h n hns.1, hns.2⟩

lemma keeps_onLast {f : Content → Content} (h : Trims f) : Keeps (nodesFit g) (onLast f) := by
  intro ns hns
  rw [onLast, nodesFit_reverse]
  exact keeps_onFirst h _ (nodesFit_reverse.trans hns)

variable {f : List Node → List Node}

lemma keeps_onNodes (h : Keeps (nodesFit g) f) : Keeps (Body.fits g) (onNodes f) := by
  rintro ⟨params, chained, nodes⟩ hb
  rw [Body.fits_mk] at hb
  exact Body.fits_mk.mpr ⟨hb.1, h nodes hb.2⟩

lemma keeps_onAlternative (h : Keeps (nodesFit g) f) : Keeps (Body.fits g) (onAlternative f) := by
  intro b hb
  unfold onAlternative
  split
  · next params kind body other strip nodes =>
    cases kind with
    | «section» call =>
      simp only [Body.fits_mk, nodesFit_cons, Node.fits_section] at hb ⊢
      obtain ⟨hparams, ⟨hcall, hbody, hother⟩, hnodes⟩ := hb
      exact ⟨hparams, ⟨hcall, keeps_onNodes h body hbody, hother⟩, hnodes⟩
    | _ => exact hb
  · exact keeps_onNodes h b hb

lemma keeps_settleSingle (strip : BlockStrip) : Keeps (Body.fits g) (settleSingle strip) :=
  keeps_onNodes fun ns hns =>
    (keeps_onLast (trims_cutBack .all)).when _ _ ((keeps_onFirst (trims_cutFront .all)).when _ ns hns)

lemma settlePair_fits (strip : BlockStrip) {main other : Body} (hm : main.fits g = true)
    (ho : other.fits g = true) :
    (settlePair strip main other).1.fits g = true ∧
      (settlePair strip main other).2.fits g = true := by
  constructor
  · refine keeps_onNodes (fun ns hns => ?_) main hm
    exact (keeps_onLast (trims_cutBack .line)).when _ _ ((keeps_onLast (trims_cutBack .all)).when _ _
      ((keeps_onFirst (trims_cutFront .all)).when _ ns hns))
  · refine keeps_onAlternative (fun ns hns => ?_) other ho
    exact (keeps_onFirst (trims_cutFront .line)).when _ _ ((keeps_onLast (trims_cutBack .all)).when _ _
      ((keeps_onFirst (trims_cutFront .all)).when _ ns hns))

lemma settleBlock_fits {call : Call} (hcall : g.block call = true) {body other : Option Body}
    (hb : optionFits g body = true) (ho : optionFits g other = true) (strip : BlockStrip) :
    (settleBlock (.section call) body other strip).1.fits g = true := by
  cases body with
  | none =>
    cases other with
    | none => exact Node.fits_section.mpr ⟨hcall, rfl, rfl⟩
    | some alt => exact Node.fits_section.mpr ⟨hcall, rfl, keeps_settleSingle strip alt ho⟩
  | some main =>
    cases other with
    | none => exact Node.fits_section.mpr ⟨hcall, keeps_settleSingle strip main hb, rfl⟩
    | some alt => exact Node.fits_section.mpr ⟨hcall, settlePair_fits strip hb ho⟩

lemma keeps_onFrontBody (h : Keeps (nodesFit g) f) : Keeps (Node.fits g) (onFrontBody f) := by
  intro n hn
  unfold onFrontBody
  split
  · next kind body other strip =>
    cases kind with
    | «section» call =>
      rw [Node.fits_section] at hn
      exact Node.fits_section.mpr ⟨hn.1, keeps_onNodes h body hn.2.1, hn.2.2⟩
    | _ => exact hn
  · next kind other strip =>
    cases kind with
    | «section» call =>
      rw [Node.fits_section] at hn
      exact Node.fits_section.mpr ⟨hn.1, rfl, keeps_onNodes h other hn.2.2⟩
    | _ => exact hn
  · exact hn

lemma keeps_onBackBody (h : Keeps (nodesFit g) f) : Keeps (Node.fits g) (onBackBody f) := by
  intro n hn
  unfold onBackBody
  split
  · next kind body other strip =>
    cases kind with
    | «section» call =>
      rw [Node.fits_section] at hn
      exact Node.fits_section.mpr ⟨hn.1, hn.2.1, keeps_onNodes h other hn.2.2⟩
    | _ => exact hn
  · next kind body strip =>
    cases kind with
    | «section» call =>
      rw [Node.fits_section] at hn
      exact Node.fits_section.mpr ⟨hn.1, keeps_onNodes h body hn.2.1, rfl⟩
    | _ => exact hn
  · exact hn

lemma keeps_indentBy (before : List Node) (strip : Bool) :
    Keeps (Node.fits g) (indentBy before strip) := by
  intro n hn
  cases n with
  | insertion insertion indent strip => exact absurd hn Bool.false_ne_true
  | _ => exact hn

lemma arrange_fits (root : Bool) (before : List Node) (due : List Cut)
    (ns : List (Node × Option Advice)) (hb : nodesFit g before = true)
    (hns : ∀ n ∈ ns, n.1.fits g = true) : nodesFit g (arrange root before due ns) = true := by
  induction ns generalizing before due with
  | nil => exact nodesFit_reverse.trans hb
  | cons n ns ih =>
    obtain ⟨n, advice⟩ := n
    rw [List.forall_mem_cons] at hns
    have hn : (onContent (fun c => due.foldl (fun c cut => cutFront cut c) c) n).fits g = true :=
      keeps_onContent (trims_foldl trims_cutFront due) n hns.1
    cases advice with
    | none => exact ih _ _ (nodesFit_cons.mpr ⟨hn, hb⟩) hns.2
    | some a =>
      refine ih _ _ (nodesFit_cons.mpr ⟨?_, ?_⟩) hns.2
      · exact (keeps_onBackBody (keeps_onLast (trims_cutBack .line))).when _ _
          ((keeps_onFrontBody (keeps_onFirst (trims_cutFront .line))).when _ _
            ((keeps_indentBy before a.strip.before).when _ _ hn))
      · exact keeps_onFirst (trims_foldl trims_cutBack _) before hb

mutual

lemma settle_fits : (n : Node) → n.fits g = true → (settle n).1.fits g = true
  | .content _, h => h
  | .comment _, h => absurd h Bool.false_ne_true
  | .output _ _ _, h => h
  | .decorator _ _, h => absurd h Bool.false_ne_true
  | .insertion _ _ _, h => absurd h Bool.false_ne_true
  | .block (.section _) body other strip, h => by
    obtain ⟨hcall, hbody, hother⟩ := Node.fits_section.mp h
    exact settleBlock_fits hcall (settleOption_fits body hbody) (settleOption_fits other hother) strip
  | .block (.decorator _) _ _ _, h => absurd h Bool.false_ne_true
  | .block (.insertion _) _ _ _, h => absurd h Bool.false_ne_true

lemma settleOption_fits : (b : Option Body) → optionFits g b = true →
    optionFits g (settleOption b) = true
  | none, h => h
  | some b, h => settleBody_fits b h

lemma settleBody_fits : (b : Body) → b.fits g = true → (settleBody b).fits g = true
  | .mk _ _ nodes, h => by
    obtain ⟨hparams, hnodes⟩ := Body.fits_mk.mp h
    exact Body.fits_mk.mpr ⟨hparams, arrange_fits false [] [] _ rfl (settleAll_fits nodes hnodes)⟩

lemma settleAll_fits : (ns : List Node) → nodesFit g ns = true →
    ∀ n ∈ settleAll ns, n.1.fits g = true
  | [], _ => by simp [settleAll]
  | n :: ns, h => by
    obtain ⟨hn, hns⟩ := nodesFit_cons.mp h
    rw [settleAll, List.forall_mem_cons]
    exact ⟨settle_fits n hn, settleAll_fits ns hns⟩

end

mutual

lemma toStatement_fits : (n : Node) → n.fits g = true → (toStatement n).fits g = true
  | .content c, h => by simpa [toStatement, Statement.fits, Node.fits] using h
  | .comment _, h => absurd h Bool.false_ne_true
  | .output _ _ _, h => h
  | .decorator _ _, h => absurd h Bool.false_ne_true
  | .insertion _ _ _, h => absurd h Bool.false_ne_true
  | .block (.section _) body other _, h => by
    obtain ⟨hcall, hbody, hother⟩ := Node.fits_section.mp h
    exact Statement.fits_block.mpr ⟨hcall, toProgram?_fits body hbody, toProgram?_fits other hother⟩
  | .block (.decorator _) _ _ _, h => absurd h Bool.false_ne_true
  | .block (.insertion _) _ _ _, h => absurd h Bool.false_ne_true

lemma toProgram?_fits : (b : Option Body) → optionFits g b = true →
    programFits? g (toProgram? b) = true
  | none, h => h
  | some b, h => toProgram_fits b h

lemma toProgram_fits : (b : Body) → b.fits g = true → (toProgram b).fits g = true
  | .mk _ _ nodes, h => by
    obtain ⟨hparams, hnodes⟩ := Body.fits_mk.mp h
    exact Program.fits_mk.mpr ⟨hparams, toStatements_fits nodes hnodes⟩

lemma toStatements_fits : (ns : List Node) → nodesFit g ns = true →
    statementsFit g (toStatements ns) = true
  | [], _ => rfl
  | n :: ns, h => by
    obtain ⟨hn, hns⟩ := nodesFit_cons.mp h
    exact statementsFit_cons.mpr ⟨toStatement_fits n hn, toStatements_fits ns hns⟩

end

end Layout

mutual

lemma Statement.check_of_fits : (s : Statement) → s.fits g = true → s.check = .ok ()
  | .content _, _ => rfl
  | .comment, h => absurd h Bool.false_ne_true
  | .output _ _, _ => rfl
  | .decorator _ _, h => absurd h Bool.false_ne_true
  | .insertion _ _ _, h => absurd h Bool.false_ne_true
  | .block _ body other, h => by
    obtain ⟨-, hbody, hother⟩ := Statement.fits_block.mp h
    simp [Statement.check, checkOption_of_fits body hbody, checkOption_of_fits other hother, bind,
      Except.bind]

lemma checkOption_of_fits : (p : Option Program) → programFits? g p = true → checkOption p = .ok ()
  | none, _ => rfl
  | some p, h => by
    rw [checkOption]
    exact Program.check_of_fits p h

lemma Program.check_of_fits : (p : Program) → p.fits g = true → p.check = .ok ()
  | .mk _ body, h => by
    rw [Program.check]
    exact checkAll_of_fits body (Program.fits_mk.mp h).2

lemma checkAll_of_fits : (ss : List Statement) → statementsFit g ss = true → checkAll ss = .ok ()
  | [], _ => rfl
  | s :: ss, h => by
    obtain ⟨hs, hss⟩ := statementsFit_cons.mp h
    simp [checkAll, Statement.check_of_fits s hs, checkAll_of_fits ss hss, bind, Except.bind]

end

def Grammar.accepts (g : Grammar) (text : String) : Bool :=
  match Parser.parse text with
  | .ok nodes => nodesFit g nodes
  | .error _ => false

lemma compile_accepts {text : String} (h : g.accepts text = true) :
    ∃ ss, compile text = .ok (.mk [] ss) ∧ statementsFit g ss = true := by
  unfold Grammar.accepts at h
  split at h
  · next ns hparse =>
    have hss := Layout.toStatements_fits _
      (Layout.arrange_fits true [] [] _ rfl (Layout.settleAll_fits ns h))
    have hcheck : (Program.mk [] (Layout.toStatements
        (Layout.arrange true [] [] (Layout.settleAll ns)))).check = .ok () := by
      rw [Program.check]
      exact checkAll_of_fits _ hss
    exact ⟨_, by simp [compile, hparse, Layout.program, hcheck, bind, Except.bind], hss⟩
  · exact absurd h Bool.false_ne_true

end BuildNotice.Template
