import BuildNotice.Proofs.Record
import BuildNotice.Proofs.Value.Printable

namespace BuildNotice.Value

mutual

def hasTextLeaves : Value → Bool
  | .text _ => true
  | .list _ items => haveTextLeaves items
  | .record _ fields => fieldsHaveTextLeaves fields
  | _ => false

def haveTextLeaves : List Value → Bool
  | [] => true
  | v :: vs => v.hasTextLeaves && haveTextLeaves vs

def fieldsHaveTextLeaves : List (String × Value) → Bool
  | [] => true
  | f :: fs => fieldHasTextLeaves f && fieldsHaveTextLeaves fs

def fieldHasTextLeaves : String × Value → Bool
  | (_, v) => v.hasTextLeaves

end

variable {v : Value}

lemma haveTextLeaves_iff {vs : List Value} :
    haveTextLeaves vs = true ↔ ∀ v ∈ vs, v.hasTextLeaves = true := by
  induction vs with
  | nil => simp [haveTextLeaves]
  | cons v vs ih => simp [haveTextLeaves, ih]

lemma fieldsHaveTextLeaves_iff {fields : Fields} :
    fieldsHaveTextLeaves fields = true ↔ ∀ f ∈ fields, f.2.hasTextLeaves = true := by
  induction fields with
  | nil => simp [fieldsHaveTextLeaves]
  | cons f fields ih =>
    obtain ⟨key, v⟩ := f
    simp [fieldsHaveTextLeaves, fieldHasTextLeaves, ih]

lemma fieldsPrintable_iff {fields : Fields} :
    fieldsPrintable fields = true ↔ ∀ f ∈ fields, f.2.isPrintable = true := by
  induction fields with
  | nil => simp [fieldsPrintable]
  | cons f fields ih =>
    obtain ⟨key, v⟩ := f
    simp [fieldsPrintable, fieldPrintable, ih]

structure IsWorded (v : Value) : Prop where
  leaves : v.hasTextLeaves = true ∨ ∃ x, v = .number x
  printable : v.isPrintable = true

lemma isWorded_text (s : String) : (text s).IsWorded := ⟨.inl rfl, rfl⟩

lemma isWorded_number (x : Float) : (number x).IsWorded := ⟨.inr ⟨x, rfl⟩, rfl⟩

lemma IsWorded.isNullish (h : v.IsWorded) : v.isNullish = false := by
  obtain hv | ⟨x, rfl⟩ := h.leaves
  · cases v with
    | undefined => exact absurd hv Bool.false_ne_true
    | null => exact absurd hv Bool.false_ne_true
    | _ => rfl
  · rfl

lemma IsWorded.items {label : Nat} {items : List Value} (h : (list label items).IsWorded)
    {w : Value} (hw : w ∈ items) : w.IsWorded := by
  obtain hleaves | ⟨x, hx⟩ := h.leaves
  · exact ⟨.inl (haveTextLeaves_iff.mp hleaves w hw), isPrintable_of_mem h.printable hw⟩
  · exact absurd hx (by simp)

lemma IsWorded.fields {label : Nat} {fields : Fields} (h : (record label fields).IsWorded)
    {f : String × Value} (hf : f ∈ fields) : f.2.IsWorded := by
  obtain hleaves | ⟨x, hx⟩ := h.leaves
  · have hprintable := h.printable
    simp only [isPrintable, Bool.and_eq_true] at hprintable
    exact ⟨.inl (fieldsHaveTextLeaves_iff.mp hleaves f hf),
      fieldsPrintable_iff.mp hprintable.2 f hf⟩
  · exact absurd hx (by simp)

lemma IsWorded.own? (h : v.IsWorded) {key : String} {w : Value} (hw : v.own? key = some w) :
    w.IsWorded := by
  cases v with
  | list label items =>
    rw [Value.own?] at hw
    split at hw
    · obtain rfl := Option.some.inj hw
      exact isWorded_number _
    · obtain ⟨i, -, hi⟩ := Option.bind_eq_some_iff.mp hw
      exact h.items (List.mem_of_getElem? hi)
  | record label fields => exact h.fields (Record.mem_of_get? hw)
  | text s =>
    rw [Value.own?] at hw
    split at hw
    · obtain rfl := Option.some.inj hw
      exact isWorded_number _
    · obtain ⟨i, -, hi⟩ := Option.bind_eq_some_iff.mp hw
      obtain ⟨c, -, rfl⟩ := Option.map_eq_some_iff.mp hi
      exact isWorded_text _
  | _ => exact absurd hw (by simp [Value.own?])

lemma IsWorded.own (h : v.IsWorded) (key : String) :
    v.own key = .undefined ∨ (v.own key).IsWorded := by
  rw [Value.own]
  cases hw : v.own? key with
  | none => exact .inl rfl
  | some w => exact .inr (h.own? hw)

end BuildNotice.Value
