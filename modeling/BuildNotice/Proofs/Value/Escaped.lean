import BuildNotice.Proofs.Decimal.Print
import BuildNotice.Proofs.Value.Leaves
import BuildNotice.Proofs.Value.SideBySide
import BuildNotice.Template.Escape

namespace BuildNotice

namespace Template.Escape

lemma text_append (s t : String) : text (s ++ t) = text s ++ text t := by
  simp [text, chars_append]

lemma text_eq_self {s : String} (h : ∀ c ∈ s.toList, char c = [c]) : text s = s := by
  have hchars : chars s.toList = s.toList := by
    rw [chars]
    generalize s.toList = cs at h
    induction cs with
    | nil => rfl
    | cons c cs ih =>
      rw [List.forall_mem_cons] at h
      rw [List.flatMap_cons, h.1, ih h.2]
      rfl
  rw [text, hchars, String.ofList_toList]

lemma text_eq_empty {s : String} : text s = "" ↔ s = "" := by
  have hchar : ∀ c, char c ≠ [] := by
    intro c
    unfold char
    split_ifs <;> simp
  constructor
  · intro h
    have hchars : chars s.toList = [] := by simpa [text] using h
    have hempty : s.toList = [] := by
      cases hs : s.toList with
      | nil => rfl
      | cons c cs =>
        rw [hs, chars, List.flatMap_cons, List.append_eq_nil_iff] at hchars
        exact absurd hchars.1 (hchar c)
    simpa using hempty
  · rintro rfl
    rfl

lemma text_intercalate {sep : String} (hsep : text sep = sep) (ts : List String) :
    text (String.intercalate sep ts) = String.intercalate sep (ts.map text) := by
  induction ts with
  | nil => rfl
  | cons t ts ih =>
    cases ts with
    | nil => simp
    | cons u us =>
      rw [String.intercalate_cons_cons, text_append, text_append, hsep, ih]
      simp [String.intercalate_cons_cons]

lemma char_of_isNumeral {c : Char} (h : Decimal.Print.isNumeral c = true) : char c = [c] := by
  unfold char
  split_ifs with hamp hlt hgt hquot hapos htick heq
  · exact absurd (hamp ▸ h) (by decide)
  · exact absurd (hlt ▸ h) (by decide)
  · exact absurd (hgt ▸ h) (by decide)
  · exact absurd (hquot ▸ h) (by decide)
  · exact absurd (hapos ▸ h) (by decide)
  · exact absurd (htick ▸ h) (by decide)
  · exact absurd (heq ▸ h) (by decide)
  · rfl

lemma text_number (x : Float) : text (Decimal.Print.print x) = Decimal.Print.print x :=
  text_eq_self fun c hc =>
    char_of_isNumeral (List.all_eq_true.mp (Decimal.Print.print_numerals x) c hc)

end Template.Escape

namespace Value

open Template

mutual

def escapeLeaves : Value → Value
  | .text s => .text (Escape.text s)
  | .list label items => .list label (escapeItems items)
  | .record label fields => .record label (escapeFields fields)
  | v => v

def escapeItems : List Value → List Value
  | [] => []
  | v :: vs => v.escapeLeaves :: escapeItems vs

def escapeFields : List (String × Value) → List (String × Value)
  | [] => []
  | f :: fs => escapeField f :: escapeFields fs

def escapeField : String × Value → String × Value
  | (key, v) => (key, v.escapeLeaves)

end

variable {v : Value}

lemma escapeItems_eq (items : List Value) : escapeItems items = items.map escapeLeaves := by
  induction items with
  | nil => rfl
  | cons v items ih => rw [escapeItems, ih, List.map_cons]

lemma escapeFields_eq (fields : Fields) :
    escapeFields fields = fields.map fun f => (f.1, f.2.escapeLeaves) := by
  induction fields with
  | nil => rfl
  | cons f fields ih => rw [escapeFields, ih, List.map_cons, escapeField]

lemma escapeLeaves_isNullish (v : Value) : v.escapeLeaves.isNullish = v.isNullish := by
  cases v <;> rfl

lemma escapeLeaves_isText (v : Value) : v.escapeLeaves.isText = v.isText := by
  cases v <;> rfl

lemma escapeLeaves_isCount (v : Value) : v.escapeLeaves.isCount = v.isCount := by
  cases v <;> rfl

lemma escapeLeaves_isComposite (v : Value) : v.escapeLeaves.isComposite = v.isComposite := by
  cases v <;> rfl

lemma escapeLeaves_isTruthy (v : Value) : v.escapeLeaves.isTruthy = v.isTruthy := by
  cases v with
  | text s =>
    rw [escapeLeaves, isTruthy, isTruthy, Bool.eq_iff_iff, bne_iff_ne, bne_iff_ne, Ne, Ne,
      Escape.text_eq_empty]
  | _ => rfl

lemma escapeLeaves_isEmpty (v : Value) : v.escapeLeaves.isEmpty = v.isEmpty := by
  cases v with
  | text s =>
    have htruthy := escapeLeaves_isTruthy (.text s)
    simp only [escapeLeaves] at htruthy
    simp only [escapeLeaves, isEmpty, htruthy]
  | list label items => cases items <;> rfl
  | _ => rfl

lemma get?_escapeFields (key : String) (fields : Fields) :
    Record.get? key (escapeFields fields) = (Record.get? key fields).map escapeLeaves := by
  induction fields with
  | nil => rfl
  | cons f fields ih =>
    obtain ⟨k, w⟩ := f
    simp only [escapeFields, escapeField, Record.get?, ih]
    split <;> rfl

lemma escapeLeaves_own? (h : v.isText = false) (key : String) :
    v.escapeLeaves.own? key = (v.own? key).map escapeLeaves := by
  cases v with
  | text s => exact absurd h (by simp [isText])
  | record label fields => exact get?_escapeFields key fields
  | list label items =>
    simp only [escapeLeaves, own?, escapeItems_eq, List.length_map]
    split
    · rfl
    · cases Record.index? key with
      | none => rfl
      | some i => simp
  | _ => rfl

lemma escapeLeaves_own (h : v.isText = false) (key : String) :
    v.escapeLeaves.own key = (v.own key).escapeLeaves := by
  rw [own, own, escapeLeaves_own? h]
  cases v.own? key <;> rfl

lemma has_escapeFields (key : String) (fields : Fields) :
    Record.has key (escapeFields fields) = Record.has key fields := by
  rw [Bool.eq_iff_iff, Record.has_iff_get?_isSome, Record.has_iff_get?_isSome, get?_escapeFields,
    Option.isSome_map]

lemma escapeLeaves_knows (h : v.isText = false) (key : String) :
    v.escapeLeaves.knows key = v.knows key := by
  cases v with
  | list label items =>
    have hown := escapeLeaves_own? h key
    simp only [escapeLeaves] at hown
    simp only [escapeLeaves, knows, hown, Option.isSome_map]
  | record label fields => simp only [escapeLeaves, knows, has_escapeFields]
  | _ => rfl

mutual

lemma escapeLeaves_hasTextLeaves : (v : Value) → v.escapeLeaves.hasTextLeaves = v.hasTextLeaves
  | .list _ items => escapeItems_haveTextLeaves items
  | .record _ fields => escapeFields_haveTextLeaves fields
  | .text _ => rfl
  | .undefined => rfl
  | .null => rfl
  | .bool _ => rfl
  | .number _ => rfl

lemma escapeItems_haveTextLeaves :
    (vs : List Value) → haveTextLeaves (escapeItems vs) = haveTextLeaves vs
  | [] => rfl
  | v :: vs => by
    rw [escapeItems, haveTextLeaves, haveTextLeaves, escapeLeaves_hasTextLeaves v,
      escapeItems_haveTextLeaves vs]

lemma escapeFields_haveTextLeaves :
    (fs : List (String × Value)) → fieldsHaveTextLeaves (escapeFields fs) = fieldsHaveTextLeaves fs
  | [] => rfl
  | (key, v) :: fs => by
    rw [escapeFields, escapeField, fieldsHaveTextLeaves, fieldsHaveTextLeaves, fieldHasTextLeaves,
      fieldHasTextLeaves, escapeLeaves_hasTextLeaves v, escapeFields_haveTextLeaves fs]

end

mutual

lemma escapeLeaves_isPrintable : (v : Value) → v.escapeLeaves.isPrintable = v.isPrintable
  | .list _ items => escapeItems_arePrintable items
  | .record _ fields => by
    rw [escapeLeaves, isPrintable, isPrintable, has_escapeFields, escapeFields_printable fields]
  | .text _ => rfl
  | .undefined => rfl
  | .null => rfl
  | .bool _ => rfl
  | .number _ => rfl

lemma escapeItems_arePrintable : (vs : List Value) → arePrintable (escapeItems vs) = arePrintable vs
  | [] => rfl
  | v :: vs => by
    rw [escapeItems, arePrintable, arePrintable, escapeLeaves_isPrintable v,
      escapeItems_arePrintable vs]

lemma escapeFields_printable :
    (fs : List (String × Value)) → fieldsPrintable (escapeFields fs) = fieldsPrintable fs
  | [] => rfl
  | (key, v) :: fs => by
    rw [escapeFields, escapeField, fieldsPrintable, fieldsPrintable, fieldPrintable, fieldPrintable,
      escapeLeaves_isPrintable v, escapeFields_printable fs]

end

mutual

lemma print?_escapeLeaves : (v : Value) → v.hasTextLeaves = true →
    v.escapeLeaves.print? = v.print?.map Escape.text
  | .text s, _ => rfl
  | .list label items, h => by
    have hcomma : Escape.text "," = "," := by decide
    rw [escapeLeaves, print?, printItems?_escapeItems items h, print?]
    cases printItems? items with
    | none => rfl
    | some ts => simp only [Option.map_some, Escape.text_intercalate hcomma]
  | .record label fields, _ => by
    have hrecord : Escape.text recordText = recordText := by decide
    rw [escapeLeaves, print?, has_escapeFields, print?]
    split
    · rfl
    · rw [Option.map_some, hrecord]
  | .undefined, h => absurd h Bool.false_ne_true
  | .null, h => absurd h Bool.false_ne_true
  | .bool b, h => absurd h Bool.false_ne_true
  | .number x, h => absurd h Bool.false_ne_true

lemma printItems?_escapeItems : (vs : List Value) → haveTextLeaves vs = true →
    printItems? (escapeItems vs) = (printItems? vs).map (List.map Escape.text)
  | [], _ => rfl
  | v :: vs, h => by
    rw [haveTextLeaves, Bool.and_eq_true] at h
    have hitem : v.escapeLeaves.printItem? = v.printItem?.map Escape.text := by
      rw [printItem?_eq, printItem?_eq, escapeLeaves_isNullish, print?_escapeLeaves v h.1]
      split <;> rfl
    rw [escapeItems, printItems?, printItems?, hitem, printItems?_escapeItems vs h.2]
    cases v.printItem? with
    | none => rfl
    | some t => cases printItems? vs <;> rfl

end

lemma IsWorded.print?_escapeLeaves (h : v.IsWorded) :
    v.escapeLeaves.print? = v.print?.map Escape.text := by
  obtain hleaves | ⟨x, rfl⟩ := h.leaves
  · exact Value.print?_escapeLeaves v hleaves
  · simp only [escapeLeaves, print?, Option.map_some, Escape.text_number]

end Value

end BuildNotice
