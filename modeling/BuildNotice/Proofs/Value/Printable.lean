import BuildNotice.Value.Member
import BuildNotice.Value.Sum
import Mathlib.Data.List.Forall2

namespace BuildNotice.Value

mutual

def isPrintable : Value → Bool
  | .list _ items => arePrintable items
  | .record _ fields => !Record.has "toString" fields && fieldsPrintable fields
  | _ => true

def arePrintable : List Value → Bool
  | [] => true
  | v :: vs => v.isPrintable && arePrintable vs

def fieldsPrintable : List (String × Value) → Bool
  | [] => true
  | f :: fs => fieldPrintable f && fieldsPrintable fs

def fieldPrintable : String × Value → Bool
  | (_, v) => v.isPrintable

end

mutual

lemma print?_isSome : (v : Value) → v.isPrintable = true → v.print?.isSome = true
  | .undefined, _ => rfl
  | .null, _ => rfl
  | .bool b, _ => rfl
  | .number x, _ => rfl
  | .text s, _ => rfl
  | .list _ items, h => by
    simpa [print?] using printItems?_isSome items h
  | .record _ fields, h => by
    simp only [isPrintable, Bool.and_eq_true, Bool.not_eq_true'] at h
    simp [print?, h.1]

lemma printItems?_isSome : (vs : List Value) → arePrintable vs = true →
    (printItems? vs).isSome = true
  | [], _ => rfl
  | v :: vs, h => by
    simp only [arePrintable, Bool.and_eq_true] at h
    obtain ⟨t, ht⟩ := Option.isSome_iff_exists.mp (print?_isSome v h.1)
    obtain ⟨ts, hts⟩ := Option.isSome_iff_exists.mp (printItems?_isSome vs h.2)
    cases hn : v.isNullish <;> simp [printItems?, printItem?_eq, hn, ht, hts]

end

lemma exists_print {v : Value} (h : v.isPrintable = true) : ∃ s, v.print? = some s :=
  Option.isSome_iff_exists.mp (print?_isSome v h)

lemma isNullish_of_own {v : Value} (key : String) (h : (v.own key).isNullish = false) :
    v.isNullish = false := by
  cases v with
  | undefined => exact absurd h (by simp [own, own?, isNullish])
  | null => exact absurd h (by simp [own, own?, isNullish])
  | _ => rfl

lemma isPrintable_of_get? {fields : Fields} (h : fieldsPrintable fields = true) {key : String}
    {v : Value} (hv : Record.get? key fields = some v) : v.isPrintable = true := by
  induction fields with
  | nil => exact absurd hv (by simp)
  | cons f fields ih =>
    obtain ⟨k, w⟩ := f
    simp only [fieldsPrintable, fieldPrintable, Bool.and_eq_true] at h
    simp only [Record.get?] at hv
    split at hv
    · obtain rfl := Option.some.inj hv
      exact h.1
    · exact ih h.2 hv

lemma isPrintable_of_mem {items : List Value} (h : arePrintable items = true) {v : Value}
    (hv : v ∈ items) : v.isPrintable = true := by
  induction items with
  | nil => exact absurd hv (by simp)
  | cons w items ih =>
    simp only [arePrintable, Bool.and_eq_true] at h
    rcases List.mem_cons.mp hv with rfl | hv
    · exact h.1
    · exact ih h.2 hv

lemma own?_isPrintable {v w : Value} {key : String} (h : v.isPrintable = true)
    (hw : v.own? key = some w) : w.isPrintable = true := by
  cases v with
  | record label fields =>
    simp only [isPrintable, Bool.and_eq_true] at h
    exact isPrintable_of_get? h.2 hw
  | list label items =>
    simp only [own?] at hw
    split at hw
    · obtain rfl := Option.some.inj hw
      rfl
    · obtain ⟨i, -, hi⟩ := Option.bind_eq_some_iff.mp hw
      exact isPrintable_of_mem h (List.mem_of_getElem? hi)
  | text s =>
    simp only [own?] at hw
    split at hw
    · obtain rfl := Option.some.inj hw
      rfl
    · obtain ⟨i, -, hi⟩ := Option.bind_eq_some_iff.mp hw
      obtain ⟨c, -, rfl⟩ := Option.map_eq_some_iff.mp hi
      rfl
  | undefined => exact absurd hw (by simp [own?])
  | null => exact absurd hw (by simp [own?])
  | bool b => exact absurd hw (by simp [own?])
  | number x => exact absurd hw (by simp [own?])

lemma own_isPrintable {v : Value} (h : v.isPrintable = true) (key : String) :
    (v.own key).isPrintable = true := by
  rw [own]
  cases hw : v.own? key with
  | none => rfl
  | some w => exact own?_isPrintable h hw

lemma exists_plain {v : Value} (h : v.isPrintable = true) :
    ∃ w, v.plain? = some w ∧ w.isComposite = false := by
  rw [plain?]
  cases hc : v.isComposite with
  | false => exact ⟨v, rfl, hc⟩
  | true =>
    obtain ⟨s, hs⟩ := exists_print h
    exact ⟨.text s, by simp [hs], rfl⟩

lemma isPrintable_of_simple {v : Value} (h : v.isComposite = false) : v.isPrintable = true := by
  cases v with
  | list label items => exact absurd h (by simp [isComposite])
  | record label fields => exact absurd h (by simp [isComposite])
  | _ => rfl

lemma exists_add {v w : Value} (hv : v.isPrintable = true) (hw : w.isPrintable = true) :
    ∃ x, v.add? w = some x ∧ x.isPrintable = true := by
  obtain ⟨a, ha, hac⟩ := exists_plain hv
  obtain ⟨b, hb, hbc⟩ := exists_plain hw
  obtain ⟨s, hs⟩ := exists_print (isPrintable_of_simple hac)
  obtain ⟨t, ht⟩ := exists_print (isPrintable_of_simple hbc)
  by_cases htext : (a.isText || b.isText) = true
  · exact ⟨.text (s ++ t), by simp [add?, ha, hb, addPlain, htext, hs, ht], rfl⟩
  · exact ⟨.number (a.toNumber + b.toNumber), by simp [add?, ha, hb, addPlain, htext], rfl⟩

lemma addPlain_text (s : String) {v : Value} {t : String} (h : v.print? = some t) :
    addPlain (.text s) v = some (.text (s ++ t)) := by
  rw [addPlain, h]
  rfl

lemma add?_text (s : String) {v : Value} {t : String} (h : v.print? = some t) :
    (Value.text s).add? v = some (.text (s ++ t)) := by
  have hs : plain? (.text s) = some (.text s) := rfl
  cases hc : v.isComposite with
  | false =>
    have hv : v.plain? = some v := by simp [plain?, hc]
    simp only [add?, hs, hv, addPlain_text s h]
  | true =>
    have hv : v.plain? = some (.text t) := by simp [plain?, hc, h]
    simp only [add?, hs, hv]
    exact addPlain_text s rfl

def sum? : List Value → Option Value
  | [] => some (.text "")
  | v :: vs => vs.foldlM add? v

lemma exists_foldlM {v : Value} {vs : List Value} (h : v.isPrintable = true)
    (hvs : ∀ w ∈ vs, w.isPrintable = true) :
    ∃ x, vs.foldlM add? v = some x ∧ x.isPrintable = true := by
  induction vs generalizing v with
  | nil => exact ⟨v, rfl, h⟩
  | cons w vs ih =>
    obtain ⟨x, hx, hxp⟩ := exists_add h (hvs w (by simp))
    obtain ⟨y, hy, hyp⟩ := ih hxp fun u hu => hvs u (by simp [hu])
    exact ⟨y, by simp [List.foldlM_cons, hx, hy], hyp⟩

lemma exists_sum {vs : List Value} (h : ∀ v ∈ vs, v.isPrintable = true) :
    ∃ x, sum? vs = some x ∧ x.isPrintable = true := by
  cases vs with
  | nil => exact ⟨.text "", rfl, rfl⟩
  | cons v vs => exact exists_foldlM (h v (by simp)) fun w hw => h w (by simp [hw])

lemma sum?_text (s : String) {vs : List Value} {ts : List String}
    (h : List.Forall₂ (fun v t => v.print? = some t) vs ts) :
    sum? (.text s :: vs) = some (.text (s ++ String.join ts)) := by
  simp only [sum?]
  induction h generalizing s with
  | nil => simp
  | cons hv _ ih =>
    rw [List.foldlM_cons, add?_text s hv, Option.bind_eq_bind, Option.bind_some, ih]
    simp [String.append_assoc]

end BuildNotice.Value
