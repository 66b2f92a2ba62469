import BuildNotice.Template.Program
import BuildNotice.Text.Blank

/-! The layout of lines: what tags strip of the content around them. What stands alone is told from the
content as written, so the order of the cuts does not matter to it. -/

namespace BuildNotice.Template.Layout

open Text.Blank

def endsLine (cs : List Char) : Bool :=
  (takeEndWhile isBlank cs).contains '\n'

def beginsLine (cs : List Char) : Bool :=
  (cs.takeWhile isBlank).contains '\n'

def lineBefore (root : Bool) : List Node → Bool
  | [] => root
  | .content c :: rest =>
    endsLine c.written || (root && rest.isEmpty && c.written.all isBlank)
  | _ => false

def lineAfter (root : Bool) : List Node → Bool
  | [] => root
  | .content c :: rest =>
    beginsLine c.written || (root && rest.isEmpty && c.written.all isBlank)
  | _ => false

inductive Cut where
  | all
  | line
  deriving DecidableEq

def dropBreak : List Char → List Char
  | '\x0d' :: '\n' :: cs => cs
  | '\x0d' :: cs => cs
  | '\n' :: cs => cs
  | cs => cs

def cutFront (cut : Cut) (c : Content) : Content :=
  match cut with
  | .all =>
    let text := c.text.dropWhile isBlank
    { c with text, frontCut := text != c.text }
  | .line =>
    if c.frontCut then c
    else
      let text := dropBreak (c.text.dropWhile isSpaceOrTab)
      { c with text, frontCut := text != c.text }

def cutBack (cut : Cut) (c : Content) : Content :=
  match cut with
  | .all =>
    let text := dropEndWhile isBlank c.text
    { c with text, backCut := text != c.text }
  | .line =>
    if c.backCut then c
    else
      let text := dropEndWhile isSpaceOrTab c.text
      { c with text, backCut := text != c.text }

def onContent (f : Content → Content) : Node → Node
  | .content c => .content (f c)
  | n => n

def onFirst (f : Content → Content) : List Node → List Node
  | [] => []
  | n :: ns => onContent f n :: ns

def onLast (f : Content → Content) (ns : List Node) : List Node :=
  (onFirst f ns.reverse).reverse

def onNodes (f : List Node → List Node) : Body → Body
  | .mk params chained nodes => .mk params chained (f nodes)

structure Advice where
  strip : Strip
  opens : Bool
  closes : Bool
  inline : Bool

def onAlternative (f : List Node → List Node) : Body → Body
  | .mk params true (.block kind (some body) other strip :: nodes) =>
    .mk params true (.block kind (some (onNodes f body)) other strip :: nodes)
  | b => onNodes f b

def alternativeNodes : Body → List Node
  | .mk _ true (.block _ (some body) _ _ :: _) => body.nodes
  | b => b.nodes

def when {α : Type} (p : Bool) (f : α → α) (x : α) : α := if p then f x else x

def settleSingle (strip : BlockStrip) (main : Body) : Body :=
  onNodes (fun ns =>
    let ns := when strip.opening.after (onFirst (cutFront .all)) ns
    when strip.ending.before (onLast (cutBack .all)) ns) main

def settlePair (strip : BlockStrip) (main other : Body) : Body × Body :=
  let alone := lineBefore false main.nodes.reverse && lineAfter false (alternativeNodes other)
  let main := onNodes (fun ns =>
    let ns := when strip.opening.after (onFirst (cutFront .all)) ns
    let ns := when strip.alternative.before (onLast (cutBack .all)) ns
    when alone (onLast (cutBack .line)) ns) main
  let other := onAlternative (fun ns =>
    let ns := when strip.alternative.after (onFirst (cutFront .all)) ns
    let ns := when strip.ending.before (onLast (cutBack .all)) ns
    when alone (onFirst (cutFront .line)) ns) other
  (main, other)

def blockAdvice (strip : BlockStrip) (main : Body) (last : List Node) : Advice :=
  ⟨⟨strip.opening.before, strip.ending.after⟩, lineAfter false main.nodes,
    lineBefore false last.reverse, false⟩

def settleBlock (kind : BlockKind) (body other : Option Body) (strip : BlockStrip) :
    Node × Option Advice :=
  match body, other with
  | some main, some alt =>
    let advice := blockAdvice strip main (alternativeNodes alt)
    let (main, alt) := settlePair strip main alt
    (.block kind (some main) (some alt) strip, some advice)
  | some main, none =>
    (.block kind (some (settleSingle strip main)) none strip,
      some (blockAdvice strip main main.nodes))
  | none, some alt =>
    (.block kind none (some (settleSingle strip alt)) strip,
      some (blockAdvice strip alt alt.nodes))
  | none, none => (.block kind none none strip, none)

def onFrontBody (f : List Node → List Node) : Node → Node
  | .block kind (some body) other strip => .block kind (some (onNodes f body)) other strip
  | .block kind none (some other) strip => .block kind none (some (onNodes f other)) strip
  | n => n

def onBackBody (f : List Node → List Node) : Node → Node
  | .block kind body (some other) strip => .block kind body (some (onNodes f other)) strip
  | .block kind (some body) none strip => .block kind (some (onNodes f body)) none strip
  | n => n

def indentBy (before : List Node) (stripBefore : Bool) : Node → Node
  | .insertion insertion indent strip =>
    match before with
    | .content c :: _ =>
      let c' := when stripBefore (cutBack .all) c
      if !c'.backCut && (cutBack .line c').backCut then
        .insertion insertion (takeEndWhile isSpaceOrTab c.written) strip
      else .insertion insertion indent strip
    | _ => .insertion insertion indent strip
  | n => n

/-- Settles the nodes of a body from left to right. `before` holds those already settled, the
nearest first, and `due` the cuts that the last tag asks of the content after it. -/
def arrange (root : Bool) (before : List Node) (due : List Cut) :
    List (Node × Option Advice) → List Node
  | [] => before.reverse
  | (n, advice) :: rest =>
    let n := onContent (fun c => due.foldl (fun c cut => cutFront cut c) c) n
    match advice with
    | none => arrange root (n :: before) [] rest
    | some a =>
      let prev := lineBefore root before
      let next := lineAfter root ((rest.take 2).map (·.1))
      let opens := a.opens && prev
      let closes := a.closes && next
      let inline := a.inline && prev && next
      let back := (if a.strip.before then [Cut.all] else []) ++
        (if inline then [Cut.line] else []) ++ (if opens then [Cut.line] else [])
      let front := (if a.strip.after then [Cut.all] else []) ++
        (if inline then [Cut.line] else []) ++ (if closes then [Cut.line] else [])
      let n := when inline (indentBy before a.strip.before) n
      let n := when opens (onFrontBody (onFirst (cutFront .line))) n
      let n := when closes (onBackBody (onLast (cutBack .line))) n
      let before := onFirst (fun c => back.foldl (fun c cut => cutBack cut c) c) before
      arrange root (n :: before) front rest

mutual

def settle : Node → Node × Option Advice
  | .content c => (.content c, none)
  | .comment strip => (.comment strip, some ⟨strip, false, false, true⟩)
  | .output escaped call strip => (.output escaped call strip, some ⟨strip, false, false, false⟩)
  | .decorator call strip => (.decorator call strip, some ⟨strip, false, false, false⟩)
  | .insertion insertion indent strip =>
    (.insertion insertion indent strip, some ⟨strip, false, false, true⟩)
  | .block kind body other strip =>
    settleBlock kind (settleOption body) (settleOption other) strip

def settleOption : Option Body → Option Body
  | none => none
  | some b => some (settleBody b)

def settleBody : Body → Body
  | .mk params chained nodes => .mk params chained (arrange false [] [] (settleAll nodes))

def settleAll : List Node → List (Node × Option Advice)
  | [] => []
  | n :: ns => settle n :: settleAll ns

end

mutual

def toStatement : Node → Statement
  | .content c => .content (String.ofList c.text)
  | .comment _ => .comment
  | .output escaped call _ => .output escaped call
  | .decorator call _ => .decorator call none
  | .insertion insertion indent _ => .insertion insertion (String.ofList indent) none
  | .block (.section call) body other _ => .block call (toProgram? body) (toProgram? other)
  | .block (.decorator call) body _ _ => .decorator call (toProgram? body)
  | .block (.insertion insertion) body _ _ => .insertion insertion "" (toProgram? body)

def toProgram? : Option Body → Option Program
  | none => none
  | some b => some (toProgram b)

def toProgram : Body → Program
  | .mk params _ nodes => .mk params (toStatements nodes)

def toStatements : List Node → List Statement
  | [] => []
  | n :: ns => toStatement n :: toStatements ns

end

def program (nodes : List Node) : Program :=
  .mk [] (toStatements (arrange true [] [] (settleAll nodes)))

end BuildNotice.Template.Layout
