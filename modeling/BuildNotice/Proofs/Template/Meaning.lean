import BuildNotice.Proofs.Record
import BuildNotice.Proofs.Template.Grammar
import BuildNotice.Proofs.Template.Outputs
import BuildNotice.Proofs.Value.SideBySide

/-! What templates of literal text, paths, lists and blocks of helpers mean. -/

namespace BuildNotice.Template

open Render Helper
open RenderError (isKey)

def Path.isDotted (p : Path) : Bool := !p.data && p.depth == 0 && p.parts.all isKey

def Call.hasSubject : Call → Bool
  | .mk _ [.path p] [] => p.isDotted
  | _ => false

def dotted : Grammar where
  char _ := true
  output escaped call := escaped &&
    (call.isBare && call.callee.isDotted && call.callee.isValue ||
      call.hasSubject && call.callee.isSimple && Helper.ofName? call.callee.head == some .join)
  block call := call.hasSubject && (Helper.ofName? call.callee.head).any isBlock
  params names := names.isEmpty

/-- What ends the meaning of a template: a key or an argument that is not there, a name that is
looked up in a text, or numbers that would be added up. -/
inductive Halt where
  | lacks (key : String)
  | lacksArgument (key : String)
  | searchesText
  | addsUp
  deriving DecidableEq

/-- What a statement adds: a text, and whether it would be added up with a number beside it. -/
structure Addend where
  text : String
  counts : Bool
  deriving DecidableEq

namespace Addend

def ofText (s : String) : Addend := ⟨s, false⟩

def add (x y : Addend) : Except Halt Addend :=
  if x.counts && y.counts then .error .addsUp else .ok (ofText (x.text ++ y.text))

def add? : Option Addend → Option Addend → Except Halt (Option Addend)
  | none, y => .ok y
  | some x, none => .ok (some x)
  | some x, some y => do
    let sum ← x.add y
    .ok (some sum)

def ofValue (escapes : Bool) (v : Value) : Addend := ⟨(printed? escapes v).getD "", v.isCount⟩

end Addend

def searchesText (v : Value) : List String → Bool
  | [] => false
  | key :: names => v.isText || searchesText (v.own key) names

def lost? (v : Value) : List String → Option String
  | [] => none
  | key :: names => if v.isNullish then some key else lost? (v.own key) names

def find (strict : Bool) (v : Value) (names : List String) : Except Halt Value :=
  if searchesText v names then .error .searchesText
  else match if strict then missing? v names else lost? v names with
    | some key => .error (.lacks key)
    | none => .ok (reached v names)

def argumentName (name : String) (p : Path) : String :=
  if pathId p.written = "" then "argument 1 of " ++ name else pathId p.written

def given (name : String) (p : Path) : Value → Except Halt Value
  | .undefined => .error (.lacksArgument (argumentName name p))
  | v => .ok v

def joined : Value → String
  | .list _ items => String.intercalate ", " ((printAll? items).getD [])
  | _ => ""

def inOrder : List (Except Halt Addend) → Except Halt String
  | [] => .ok ""
  | x :: xs => do
    let first ← x
    let rest ← inOrder xs
    .ok (first.text ++ rest)

def blockName : Helper → String
  | .if => "#if"
  | .unless => "#unless"
  | .each => "#each"
  | .with => "#with"
  | _ => ""

def blockMeaning (h : Helper) (v c : Value) (body other : Value → Except Halt Addend) :
    Except Halt Addend :=
  match h with
  | .if => if holds v [] then body c else other c
  | .unless => if !holds v [] then body c else other c
  | .each =>
    match entries v with
    | [] => other c
    | e :: es => do
      let text ← inOrder ((e :: es).map fun e => body e.2.2)
      .ok (.ofText text)
  | .with => if v.isEmpty then other c else body v
  | _ => .ok (.ofText "")

mutual

def Statement.meaning (escapes : Bool) (c : Value) : Statement → Except Halt (Option Addend)
  | .content text => .ok (if text = "" then none else some (.ofText text))
  | .output _ (.mk _ (.path p :: _) _) => do
    let v ← find false c p.parts
    let v ← given "join" p v
    .ok (some (.ofValue escapes (.text (joined v))))
  | .output _ (.mk p _ _) => do
    let v ← find true c p.parts
    .ok (some (.ofValue escapes v))
  | .block (.mk callee (.path p :: _) _) body other =>
    match Helper.ofName? callee.head with
    | some h => do
      let v ← find false c p.parts
      let v ← given (blockName h) p v
      let shown ← blockMeaning h v c (fun c => bodyMeaning escapes c body)
        (fun c => bodyMeaning escapes c other)
      .ok (some shown)
    | none => .ok none
  | _ => .ok none

def bodyMeaning (escapes : Bool) (c : Value) : Option Program → Except Halt Addend
  | none => .ok (.ofText "")
  | some (.mk _ body) => do
    let sum ← sumMeaning escapes c none body
    .ok (sum.getD (.ofText ""))

def sumMeaning (escapes : Bool) (c : Value) (sum : Option Addend) :
    List Statement → Except Halt (Option Addend)
  | [] => .ok sum
  | s :: ss => do
    let x ← s.meaning escapes c
    let sum ← Addend.add? sum x
    sumMeaning escapes c sum ss

end

def Program.meaning (escapes : Bool) (c : Value) (p : Program) : Except Halt Addend :=
  bodyMeaning escapes c (some p)

def outcome? (source : Source) : Except Halt Addend → Option (Except Failure String)
  | .ok x => some (.ok x.text)
  | .error (.lacks key) => some (.error (.fault (.undefinedKey (.text key)
      (Value.ofFields [("template", .text source.id)]))))
  | .error (.lacksArgument key) => some (.error (.fault (.undefinedKey (.text key) .undefined)))
  | .error .searchesText => none
  | .error .addsUp => none

lemma eq_ok_of_toOption {ε α : Type} {x : Except ε α} {a : α} (h : x.toOption = some a) :
    x = .ok a := by
  cases x with
  | ok b => exact congrArg Except.ok (Option.some.inj h)
  | error e => exact absurd h (by simp [Except.toOption])

lemma eq_of_map {α β : Type} {x : Option α} {f : α → β} {a : α} {b : β} (hx : x = some a)
    (h : x.map f = some b) : f a = b := by
  rw [hx] at h
  exact Option.some.inj h

def failure? {ε α : Type} : Except ε α → Option ε
  | .ok _ => none
  | .error e => some e

lemma eq_error_of_failure? {ε α : Type} {x : Except ε α} {e : ε} (h : failure? x = some e) :
    x = .error e := by
  cases x with
  | ok a => exact absurd h (by simp [failure?])
  | error f => exact congrArg Except.error (Option.some.inj h)

lemma reserved_of_isBlock {name : String} {helper : Helper}
    (h : Helper.ofName? name = some helper) (hb : helper.isBlock = true) :
    Helper.reserved.contains name = true := by
  have htable : ∀ e ∈ Helper.table, e.2.isBlock = true → Helper.reserved.contains e.1 = true := by
    decide
  exact htable (name, helper) (Record.mem_of_get? h) hb

lemma declares_of_fits {g : Grammar} {ss : List Statement} (hss : statementsFit g ss = true) :
    ss.all (fun s => !declares s) = true := by
  induction ss with
  | nil => rfl
  | cons s ss ih =>
    obtain ⟨hs, hss⟩ := statementsFit_cons.mp hss
    have hdeclares : declares s = false := by
      cases s with
      | decorator call body => exact absurd hs Bool.false_ne_true
      | _ => rfl
    rw [List.all_cons, hdeclares, ih hss]
    rfl

lemma Call.exists_subject {call : Call} (h : call.hasSubject = true) :
    ∃ callee p, call = .mk callee [.path p] [] ∧ p.isDotted = true := by
  unfold Call.hasSubject at h
  split at h
  · next callee p => exact ⟨callee, p, rfl, h⟩
  · exact absurd h Bool.false_ne_true

lemma output_fits {escaped : Bool} {call : Call}
    (h : (Statement.output escaped call).fits dotted = true) :
    escaped = true ∧
      ((∃ p, call = .mk p [] [] ∧ p.isDotted = true ∧ p.isValue = true) ∨
        ∃ callee p, call = .mk callee [.path p] [] ∧ p.isDotted = true ∧
          callee.isSimple = true ∧ Helper.ofName? callee.head = some .join) := by
  have hfits : (escaped && (call.isBare && call.callee.isDotted && call.callee.isValue ||
      call.hasSubject && call.callee.isSimple &&
        Helper.ofName? call.callee.head == some .join)) = true := h
  simp only [Bool.and_eq_true, Bool.or_eq_true, beq_iff_eq] at hfits
  obtain ⟨hescaped, ⟨⟨hbare, hdotted⟩, hvalue⟩ | ⟨⟨hsubject, hsimple⟩, hjoin⟩⟩ := hfits
  · obtain ⟨p, args, pairs⟩ := call
    simp only [Call.isBare, Bool.and_eq_true, List.isEmpty_iff] at hbare
    obtain ⟨rfl, rfl⟩ := hbare
    exact ⟨hescaped, .inl ⟨p, rfl, hdotted, hvalue⟩⟩
  · obtain ⟨callee, p, rfl, hp⟩ := Call.exists_subject hsubject
    exact ⟨hescaped, .inr ⟨callee, p, rfl, hp, hsimple, hjoin⟩⟩

lemma block_fits {call : Call} {body other : Option Program}
    (h : (Statement.block call body other).fits dotted = true) :
    (∃ callee p helper, call = .mk callee [.path p] [] ∧ p.isDotted = true ∧
      Helper.ofName? callee.head = some helper ∧ helper.isBlock = true) ∧
      programFits? dotted body = true ∧ programFits? dotted other = true := by
  obtain ⟨hcall, hbodies⟩ := Statement.fits_block.mp h
  have hfits : (call.hasSubject && (Helper.ofName? call.callee.head).any isBlock) = true := hcall
  rw [Bool.and_eq_true, Option.any_eq_true] at hfits
  obtain ⟨callee, p, rfl, hp⟩ := Call.exists_subject hfits.1
  obtain ⟨helper, hof, hblock⟩ := hfits.2
  exact ⟨⟨callee, p, helper, rfl, hp, hof, hblock⟩, hbodies⟩

end BuildNotice.Template
