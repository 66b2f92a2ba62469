import BuildNotice.Proofs.Record
import BuildNotice.Value.Member
import BuildNotice.Value.Sum

/-! A record beside one that has further entries. -/

namespace BuildNotice.Value

mutual

def avoids (n : Nat) : Value → Bool
  | .list label items => label != n && itemsAvoid n items
  | .record label fields => label != n && fieldsAvoid n fields
  | _ => true

def itemsAvoid (n : Nat) : List Value → Bool
  | [] => true
  | v :: vs => v.avoids n && itemsAvoid n vs

def fieldsAvoid (n : Nat) : List (String × Value) → Bool
  | [] => true
  | f :: fs => fieldAvoids n f && fieldsAvoid n fs

def fieldAvoids (n : Nat) : String × Value → Bool
  | (_, v) => v.avoids n

end

variable {n : Nat} {v : Value}

lemma itemsAvoid_iff {vs : List Value} :
    itemsAvoid n vs = true ↔ ∀ v ∈ vs, v.avoids n = true := by
  induction vs with
  | nil => simp [itemsAvoid]
  | cons v vs ih => simp [itemsAvoid, ih]

lemma fieldsAvoid_iff {fields : Fields} :
    fieldsAvoid n fields = true ↔ ∀ f ∈ fields, f.2.avoids n = true := by
  induction fields with
  | nil => simp [fieldsAvoid]
  | cons f fields ih =>
    obtain ⟨key, v⟩ := f
    simp [fieldsAvoid, fieldAvoids, ih]

lemma itemsAvoid_of_avoids {label : Nat} {items : List Value}
    (h : (list label items).avoids n = true) : ∀ v ∈ items, v.avoids n = true := by
  rw [avoids, Bool.and_eq_true] at h
  exact itemsAvoid_iff.mp h.2

lemma fieldsAvoid_of_avoids {label : Nat} {fields : Fields}
    (h : (record label fields).avoids n = true) : ∀ f ∈ fields, f.2.avoids n = true := by
  rw [avoids, Bool.and_eq_true] at h
  exact fieldsAvoid_iff.mp h.2

lemma own?_avoids (h : v.avoids n = true) {key : String} {w : Value} (hw : v.own? key = some w) :
    w.avoids n = true := by
  cases v with
  | list label items =>
    rw [own?] at hw
    split at hw
    · obtain rfl := Option.some.inj hw
      rfl
    · obtain ⟨i, -, hi⟩ := Option.bind_eq_some_iff.mp hw
      exact itemsAvoid_of_avoids h w (List.mem_of_getElem? hi)
  | record label fields => exact fieldsAvoid_of_avoids h _ (Record.mem_of_get? hw)
  | text s =>
    rw [own?] at hw
    split at hw
    · obtain rfl := Option.some.inj hw
      rfl
    · obtain ⟨i, -, hi⟩ := Option.bind_eq_some_iff.mp hw
      obtain ⟨c, -, rfl⟩ := Option.map_eq_some_iff.mp hi
      rfl
  | _ => exact absurd hw (by simp [own?])

lemma own_avoids (h : v.avoids n = true) (key : String) : (v.own key).avoids n = true := by
  rw [own]
  cases hw : v.own? key with
  | none => rfl
  | some w => exact own?_avoids h hw

mutual

lemma avoids_of_bound_le : (v : Value) → v.bound ≤ n → v.avoids n = true
  | .list label items, h => by
    rw [bound, Nat.max_le] at h
    rw [avoids, itemsAvoid_of_bound_le items h.2, Bool.and_true, bne_iff_ne]
    omega
  | .record label fields, h => by
    rw [bound, Nat.max_le] at h
    rw [avoids, fieldsAvoid_of_bound_le fields h.2, Bool.and_true, bne_iff_ne]
    omega
  | .undefined, _ => rfl
  | .null, _ => rfl
  | .bool _, _ => rfl
  | .number _, _ => rfl
  | .text _, _ => rfl

lemma itemsAvoid_of_bound_le : (vs : List Value) → itemsBound vs ≤ n → itemsAvoid n vs = true
  | [], _ => rfl
  | v :: vs, h => by
    rw [itemsBound, Nat.max_le] at h
    rw [itemsAvoid, avoids_of_bound_le v h.1, itemsAvoid_of_bound_le vs h.2]
    rfl

lemma fieldsAvoid_of_bound_le : (fs : Fields) → fieldsBound fs ≤ n → fieldsAvoid n fs = true
  | [], _ => rfl
  | f :: fs, h => by
    rw [fieldsBound, Nat.max_le] at h
    rw [fieldsAvoid, fieldAvoids_of_bound_le f h.1, fieldsAvoid_of_bound_le fs h.2]
    rfl

lemma fieldAvoids_of_bound_le : (f : String × Value) → fieldBound f ≤ n → fieldAvoids n f = true
  | (_, v), h => avoids_of_bound_le v h

end

lemma fieldsBound_ne_zero (fields : Fields) : fieldsBound fields ≠ 0 := by
  induction fields with
  | nil => simp [fieldsBound]
  | cons f fields ih =>
    rw [fieldsBound]
    omega

lemma bound_le_of_mem {fields : Fields} {f : String × Value} (hf : f ∈ fields) :
    f.2.bound ≤ fieldsBound fields := by
  induction fields with
  | nil => exact absurd hf (by simp)
  | cons g fields ih =>
    obtain ⟨key, v⟩ := g
    rw [fieldsBound, fieldBound]
    rcases List.mem_cons.mp hf with rfl | hf
    · exact Nat.le_max_left _ _
    · exact Nat.le_trans (ih hf) (Nat.le_max_right _ _)

structure IsObject (label : Nat) (fields : Fields) : Prop where
  distinct : Record.Distinct fields
  label_ne : label ≠ 0
  inside : fieldsAvoid label fields = true

def Adds (fields more : Fields) : Prop :=
  ∀ key ∈ Record.keys more, key ∉ Record.keys fields ∧ key ∉ recordNames

instance (fields more : Fields) : Decidable (Adds fields more) :=
  inferInstanceAs (Decidable (∀ key ∈ Record.keys more, _))

/-- A record, and a longer one that adds entries under names that no record knows from the start. -/
structure Extension where
  label : Nat
  fields : Fields
  longLabel : Nat
  longFields : Fields
  kept : ∀ key v, Record.get? key fields = some v → Record.get? key longFields = some v
  known : ∀ key ∈ recordNames, Record.get? key longFields = Record.get? key fields
  label_ne : label ≠ 0
  longLabel_ne : longLabel ≠ 0
  inside : ∀ key v, Record.get? key fields = some v →
    v.avoids label = true ∧ v.avoids longLabel = true

namespace Extension

def short (x : Extension) : Value := .record x.label x.fields

def long (x : Extension) : Value := .record x.longLabel x.longFields

def Apart (x : Extension) (v : Value) : Prop :=
  v.avoids x.label = true ∧ v.avoids x.longLabel = true

inductive Pair (x : Extension) : Value → Value → Prop
  | same {v : Value} : x.Apart v → x.Pair v v
  | ends : x.Pair x.short x.long

def Kept (x : Extension) (v w : Value) : Prop := v = .undefined ∨ v = w ∧ x.Apart v

variable {x : Extension} {v v' w w' : Value}

lemma apart_of_fields {label : Nat} {fields : Fields} (h : x.Apart (.record label fields))
    {f : String × Value} (hf : f ∈ fields) : x.Apart f.2 :=
  ⟨fieldsAvoid_of_avoids h.1 f hf, fieldsAvoid_of_avoids h.2 f hf⟩

lemma apart_of_items {label : Nat} {items : List Value} (h : x.Apart (.list label items))
    (hv : v ∈ items) : x.Apart v :=
  ⟨itemsAvoid_of_avoids h.1 v hv, itemsAvoid_of_avoids h.2 v hv⟩

lemma Apart.own (h : x.Apart v) (key : String) : x.Apart (v.own key) :=
  ⟨own_avoids h.1 key, own_avoids h.2 key⟩

lemma Apart.label_ne {label : Nat} {fields : Fields} (h : x.Apart (.record label fields)) :
    label ≠ x.label ∧ label ≠ x.longLabel := by
  obtain ⟨hl, hm⟩ := h
  simp only [avoids, Bool.and_eq_true, bne_iff_ne] at hl hm
  exact ⟨hl.1, hm.1⟩

lemma kept_same (h : x.Apart v) : x.Kept v v := .inr ⟨rfl, h⟩

lemma Pair.isNullish (h : x.Pair v w) : v.isNullish = w.isNullish := by
  cases h with
  | same _ => rfl
  | ends => rfl

lemma Pair.own (h : x.Pair v w) (key : String) : x.Kept (v.own key) (w.own key) := by
  cases h with
  | same h => exact kept_same (h.own key)
  | ends =>
    have hshort : x.short.own key = (Record.get? key x.fields).getD .undefined := rfl
    have hlong : x.long.own key = (Record.get? key x.longFields).getD .undefined := rfl
    rw [hshort, hlong]
    cases hv : Record.get? key x.fields with
    | none => exact .inl rfl
    | some v =>
      rw [x.kept key v hv]
      exact kept_same (x.inside key v hv)

lemma Pair.knows (h : x.Pair v w) {key : String} (hk : v.knows key = true) :
    w.knows key = true ∧ v.own key = w.own key := by
  cases h with
  | same _ => exact ⟨hk, rfl⟩
  | ends =>
    have hknows : (Record.has key x.fields || recordNames.contains key) = true := hk
    change (Record.has key x.longFields || recordNames.contains key) = true ∧
      (Record.get? key x.fields).getD .undefined = (Record.get? key x.longFields).getD .undefined
    rw [Bool.or_eq_true, Record.has_iff_get?_isSome, Option.isSome_iff_exists] at hknows
    rw [Record.has_iff_get?_isSome]
    rcases hknows with ⟨v, hv⟩ | hknown
    · rw [x.kept key v hv, hv]
      exact ⟨rfl, rfl⟩
    · rw [x.known key (by simpa using hknown), hknown, Bool.or_true]
      exact ⟨rfl, rfl⟩

lemma Pair.print? (h : x.Pair v w) : v.print? = w.print? := by
  cases h with
  | same _ => rfl
  | ends =>
    have htext := x.known "toString" (by decide)
    simp only [short, long, Value.print?, Record.has_iff_get?_isSome, htext]

lemma Pair.plain? (h : x.Pair v w) : v.plain? = w.plain? := by
  cases h with
  | same _ => rfl
  | ends =>
    have hprint := (Pair.ends (x := x)).print?
    change x.short.print?.map Value.text = x.long.print?.map Value.text
    rw [hprint]

lemma agree?_end (h : x.Apart v) :
    x.short.agree? v = x.long.agree? v ∧ v.agree? x.short = v.agree? x.long := by
  have hplain := (Pair.ends (x := x)).plain?
  cases v with
  | record label fields =>
    obtain ⟨hl, hm⟩ := h.label_ne
    simp [short, long, agree?, hl, hm, Ne.symm hl, Ne.symm hm]
  | list label items => exact ⟨rfl, rfl⟩
  | _ =>
    rw [short, long] at hplain ⊢
    simp [agree?, Value.isNullish, hplain]

lemma Pair.agree? (hv : x.Pair v v') (hw : x.Pair w w') : v.agree? w = v'.agree? w' := by
  cases hv with
  | same hv =>
    cases hw with
    | same _ => rfl
    | ends => exact (agree?_end hv).2
  | ends =>
    cases hw with
    | same hw => exact (agree?_end hw).1
    | ends => simp [short, long, Value.agree?]

def ofMerge {label : Nat} {fields more : Fields} (hc : IsObject label fields)
    (hmore : Adds fields more) : Extension :=
  let long := Record.merge (Record.ofList fields) more
  have hget (key : String) (hkey : key ∉ Record.keys more) :
      Record.get? key long = Record.get? key fields := by
    rw [Record.get?_merge_of_notMem _ hkey, Record.get?_ofList key hc.distinct]
  have hkept (key : String) (v : Value) (hv : Record.get? key fields = some v) :
      Record.get? key long = some v := by
    rw [hget key fun h => (hmore key h).1 (Record.mem_keys_of_get? hv), hv]
  { label, fields, longLabel := fieldsBound long, longFields := long
    kept := hkept
    known := fun key hkey => hget key fun h => (hmore key h).2 hkey
    label_ne := hc.label_ne
    longLabel_ne := fieldsBound_ne_zero long
    inside := fun key v hv => ⟨fieldsAvoid_iff.mp hc.inside _ (Record.mem_of_get? hv),
      avoids_of_bound_le v (bound_le_of_mem (Record.mem_of_get? (hkept key v hv)))⟩ }

end Extension

end BuildNotice.Value
