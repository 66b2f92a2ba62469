import BuildNotice.Template.Compile
import BuildNotice.Proofs.Template.Parsing

/-! The layout of lines changes literal text and indents, and nothing else of a template. -/

namespace BuildNotice.Template

mutual

def Node.bare : Node → Node
  | .content _ => .content (.ofText "")
  | .comment strip => .comment strip
  | .output escaped call strip => .output escaped call strip
  | .decorator call strip => .decorator call strip
  | .insertion insertion _ strip => .insertion insertion [] strip
  | .block kind body other strip => .block kind (bareBody? body) (bareBody? other) strip

def bareBody? : Option Body → Option Body
  | none => none
  | some b => some b.bare

def Body.bare : Body → Body
  | .mk params chained nodes => .mk params chained (bareNodes nodes)

def bareNodes : List Node → List Node
  | [] => []
  | n :: ns => n.bare :: bareNodes ns

end

mutual

def Statement.bare : Statement → Statement
  | .content _ => .content ""
  | .comment => .comment
  | .output escaped call => .output escaped call
  | .decorator call body => .decorator call (bareProgram? body)
  | .insertion insertion _ block => .insertion insertion "" (bareProgram? block)
  | .block call body other => .block call (bareProgram? body) (bareProgram? other)

def bareProgram? : Option Program → Option Program
  | none => none
  | some p => some p.bare

def Program.bare : Program → Program
  | .mk params body => .mk params (bareStatements body)

def bareStatements : List Statement → List Statement
  | [] => []
  | s :: ss => s.bare :: bareStatements ss

end

lemma bareNodes_eq_map (ns : List Node) : bareNodes ns = ns.map Node.bare := by
  induction ns with
  | nil => rfl
  | cons n ns ih => rw [bareNodes, ih, List.map_cons]

lemma bareNodes_reverse (ns : List Node) : bareNodes ns.reverse = (bareNodes ns).reverse := by
  rw [bareNodes_eq_map, bareNodes_eq_map, List.map_reverse]

namespace Layout

lemma onContent_bare (f : Content → Content) (n : Node) : (onContent f n).bare = n.bare := by
  cases n <;> rfl

def KeepsBare (f : List Node → List Node) : Prop := ∀ ns, bareNodes (f ns) = bareNodes ns

lemma onFirst_bare (f : Content → Content) : KeepsBare (onFirst f) := by
  intro ns
  cases ns with
  | nil => rfl
  | cons n ns => rw [onFirst, bareNodes, onContent_bare, bareNodes]

lemma onLast_bare (f : Content → Content) : KeepsBare (onLast f) := by
  intro ns
  rw [onLast, bareNodes_reverse, onFirst_bare, bareNodes_reverse, List.reverse_reverse]

lemma KeepsBare.when {f : List Node → List Node} (h : KeepsBare f) (b : Bool) :
    KeepsBare (when b f) := by
  intro ns
  rw [Layout.when]
  split
  · exact h ns
  · rfl

lemma KeepsBare.comp {f g : List Node → List Node} (hg : KeepsBare g) (hf : KeepsBare f) :
    KeepsBare fun ns => g (f ns) :=
  fun ns => (hg (f ns)).trans (hf ns)

section Bodies

variable {f : List Node → List Node}

lemma onNodes_bare (h : KeepsBare f) (b : Body) : (onNodes f b).bare = b.bare := by
  obtain ⟨params, chained, nodes⟩ := b
  rw [onNodes, Body.bare, h, Body.bare]

lemma onAlternative_bare (h : KeepsBare f) (b : Body) : (onAlternative f b).bare = b.bare := by
  unfold onAlternative
  split
  · simp only [Body.bare, bareNodes, Node.bare, bareBody?, onNodes_bare h]
  · exact onNodes_bare h b

lemma settleSingle_bare (strip : BlockStrip) (b : Body) : (settleSingle strip b).bare = b.bare :=
  onNodes_bare (((onLast_bare _).when _).comp ((onFirst_bare _).when _)) b

lemma settlePair_bare (strip : BlockStrip) (main other : Body) :
    (settlePair strip main other).1.bare = main.bare ∧
      (settlePair strip main other).2.bare = other.bare := by
  constructor
  · exact onNodes_bare (((onLast_bare _).when _).comp
      (((onLast_bare _).when _).comp ((onFirst_bare _).when _))) main
  · exact onAlternative_bare (((onFirst_bare _).when _).comp
      (((onLast_bare _).when _).comp ((onFirst_bare _).when _))) other

lemma settleBlock_bare (kind : BlockKind) (body other : Option Body) (strip : BlockStrip) :
    (settleBlock kind body other strip).1.bare =
      .block kind (bareBody? body) (bareBody? other) strip := by
  cases body with
  | none =>
    cases other with
    | none => rfl
    | some alt => simp only [settleBlock, Node.bare, bareBody?, settleSingle_bare]
  | some main =>
    cases other with
    | none => simp only [settleBlock, Node.bare, bareBody?, settleSingle_bare]
    | some alt =>
      obtain ⟨hmain, halt⟩ := settlePair_bare strip main alt
      simp only [settleBlock, Node.bare, bareBody?, hmain, halt]

lemma onFrontBody_bare (h : KeepsBare f) (n : Node) : (onFrontBody f n).bare = n.bare := by
  unfold onFrontBody
  split
  · simp only [Node.bare, bareBody?, onNodes_bare h]
  · simp only [Node.bare, bareBody?, onNodes_bare h]
  · rfl

lemma onBackBody_bare (h : KeepsBare f) (n : Node) : (onBackBody f n).bare = n.bare := by
  unfold onBackBody
  split
  · simp only [Node.bare, bareBody?, onNodes_bare h]
  · simp only [Node.bare, bareBody?, onNodes_bare h]
  · rfl

end Bodies

lemma indentBy_bare (before : List Node) (strip : Bool) (n : Node) :
    (indentBy before strip n).bare = n.bare := by
  unfold indentBy
  split
  · split
    · dsimp only
      split <;> rfl
    · rfl
  · rfl

lemma when_bare {f : Node → Node} (h : ∀ n, (f n).bare = n.bare) (b : Bool) (n : Node) :
    (when b f n).bare = n.bare := by
  rw [Layout.when]
  split
  · exact h n
  · rfl

lemma arrange_bare (root : Bool) (before : List Node) (due : List Cut)
    (ns : List (Node × Option Advice)) :
    bareNodes (arrange root before due ns) =
      (bareNodes before).reverse ++ bareNodes (ns.map (·.1)) := by
  induction ns generalizing before due with
  | nil => simp [arrange, bareNodes, bareNodes_reverse]
  | cons n ns ih =>
    obtain ⟨n, advice⟩ := n
    cases advice with
    | none =>
      rw [arrange, ih, bareNodes, onContent_bare]
      simp [bareNodes]
    | some a =>
      rw [arrange, ih, bareNodes, onFirst_bare, when_bare (onBackBody_bare (onLast_bare _)),
        when_bare (onFrontBody_bare (onFirst_bare _)), when_bare (indentBy_bare before _),
        onContent_bare]
      simp [bareNodes]

mutual

lemma settle_bare : (n : Node) → (settle n).1.bare = n.bare
  | .content _ => rfl
  | .comment _ => rfl
  | .output _ _ _ => rfl
  | .decorator _ _ => rfl
  | .insertion _ _ _ => rfl
  | .block kind body other strip => by
    rw [settle, settleBlock_bare, settleOption_bare body, settleOption_bare other, Node.bare]

lemma settleOption_bare : (b : Option Body) → bareBody? (settleOption b) = bareBody? b
  | none => rfl
  | some b => by rw [settleOption, bareBody?, settleBody_bare b, bareBody?]

lemma settleBody_bare : (b : Body) → (settleBody b).bare = b.bare
  | .mk params chained nodes => by
    rw [settleBody, Body.bare, arrange_bare, settleAll_bare nodes, Body.bare]
    rfl

lemma settleAll_bare : (ns : List Node) → bareNodes ((settleAll ns).map (·.1)) = bareNodes ns
  | [] => rfl
  | n :: ns => by
    rw [settleAll, List.map_cons, bareNodes, settle_bare n, settleAll_bare ns, bareNodes]

end

mutual

lemma toStatement_bare : (n : Node) → (toStatement n).bare = toStatement n.bare
  | .content _ => rfl
  | .comment _ => rfl
  | .output _ _ _ => rfl
  | .decorator _ _ => rfl
  | .insertion _ _ _ => rfl
  | .block (.section call) body other strip => by
    rw [toStatement, Statement.bare, toProgram?_bare body, toProgram?_bare other, Node.bare,
      toStatement]
  | .block (.decorator call) body other strip => by
    rw [toStatement, Statement.bare, toProgram?_bare body, Node.bare, toStatement]
  | .block (.insertion insertion) body other strip => by
    rw [toStatement, Statement.bare, toProgram?_bare body, Node.bare, toStatement]

lemma toProgram?_bare : (b : Option Body) → bareProgram? (toProgram? b) = toProgram? (bareBody? b)
  | none => rfl
  | some b => by rw [toProgram?, bareProgram?, toProgram_bare b, bareBody?, toProgram?]

lemma toProgram_bare : (b : Body) → (toProgram b).bare = toProgram b.bare
  | .mk params chained nodes => by
    rw [toProgram, Program.bare, toStatements_bare nodes, Body.bare, toProgram]

lemma toStatements_bare : (ns : List Node) →
    bareStatements (toStatements ns) = toStatements (bareNodes ns)
  | [] => rfl
  | n :: ns => by
    rw [toStatements, bareStatements, toStatement_bare n, toStatements_bare ns, bareNodes,
      toStatements]

end

lemma program_bare (nodes : List Node) :
    (program nodes).bare = .mk [] (toStatements (bareNodes nodes)) := by
  rw [program, Program.bare, toStatements_bare, arrange_bare, settleAll_bare]
  rfl

end Layout

end BuildNotice.Template
