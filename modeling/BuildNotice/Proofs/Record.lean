import BuildNotice.Record
import Mathlib.Data.List.Perm.Basic

namespace BuildNotice.Record

variable {α : Type}

lemma mem_of_get? {key : String} {v : α} {fields : List (String × α)}
    (h : get? key fields = some v) : (key, v) ∈ fields := by
  induction fields with
  | nil => exact absurd h (by simp)
  | cons f fields ih =>
    obtain ⟨k, w⟩ := f
    rw [get?] at h
    split at h
    · next hk =>
      obtain rfl := Option.some.inj h
      obtain rfl := hk
      exact List.mem_cons_self
    · exact List.mem_cons_of_mem _ (ih h)

lemma get?_erase (key k : String) (fields : List (String × α)) :
    get? k (erase key fields) = if k = key then none else get? k fields := by
  induction fields with
  | nil => simp [erase]
  | cons f fields ih =>
    obtain ⟨k', v⟩ := f
    unfold erase at ih ⊢
    by_cases hk : k' = key
    · by_cases hkk : k = key
      · simp [hk, hkk] at ih ⊢
        exact ih
      · simp [get?, hk, Ne.symm hkk, hkk] at ih ⊢
        exact ih
    · by_cases hkk : k' = k
      · have hne : k ≠ key := fun e => hk (hkk.trans e)
        simp [get?, hkk, hne]
      · simp [get?, hk, hkk, ih]

lemma erase_eq_self {key : String} {fields : List (String × α)} (h : has key fields = false) :
    erase key fields = fields := by
  rw [erase, List.filter_eq_self]
  intro f hf
  rw [has, List.any_eq_false] at h
  simpa using h f hf

lemma get?_merge (k : String) (base later : List (String × α)) :
    get? k (merge base later) = (get? k (ofList later)).or (get? k base) := by
  induction later generalizing base with
  | nil => simp [merge, ofList]
  | cons f later ih =>
    obtain ⟨key, v⟩ := f
    have hbase : merge base ((key, v) :: later) = merge (set key v base) later := rfl
    have hlist : ofList ((key, v) :: later) = merge (set key v []) later := rfl
    rw [hbase, hlist, ih, ih (set key v []), get?_set, get?_set, Option.or_assoc]
    by_cases hk : k = key <;> simp [hk]

def Distinct (fields : List (String × α)) : Prop := (keys fields).Nodup

instance (fields : List (String × α)) : Decidable (Distinct fields) :=
  inferInstanceAs (Decidable (keys fields).Nodup)

lemma get?_eq_none {key : String} {fields : List (String × α)} (h : key ∉ keys fields) :
    get? key fields = none := by
  induction fields with
  | nil => rfl
  | cons f fields ih =>
    simp only [keys, List.map_cons, List.mem_cons, not_or] at h
    simp [get?, Ne.symm h.1, ih h.2]

lemma get?_ofList (k : String) {fields : List (String × α)} (h : Distinct fields) :
    get? k (ofList fields) = get? k fields := by
  induction fields with
  | nil => rfl
  | cons f fields ih =>
    obtain ⟨key, v⟩ := f
    obtain ⟨hkey, hrest⟩ := List.nodup_cons.mp h
    have hlist : ofList ((key, v) :: fields) = merge (set key v []) fields := rfl
    rw [hlist, get?_merge, ih hrest, get?_set]
    by_cases hk : k = key
    · subst hk
      have hnone : get? k fields = none := get?_eq_none hkey
      simp [get?, hnone]
    · simp [get?, hk, Ne.symm hk]

lemma get?_merge_of_notMem {key : String} (base : List (String × α)) {later : List (String × α)}
    (h : key ∉ keys later) : get? key (merge base later) = get? key base := by
  induction later generalizing base with
  | nil => rfl
  | cons f later ih =>
    obtain ⟨k, v⟩ := f
    simp only [keys, List.map_cons, List.mem_cons, not_or] at h
    have hmerge : merge base ((k, v) :: later) = merge (set k v base) later := rfl
    rw [hmerge, ih _ h.2, get?_set, if_neg h.1]

lemma mem_keys_of_get? {key : String} {v : α} {fields : List (String × α)}
    (h : get? key fields = some v) : key ∈ keys fields :=
  List.mem_map.mpr ⟨(key, v), mem_of_get? h, rfl⟩

lemma keys_replace (key : String) (v : α) (fields : List (String × α)) :
    keys (replace key v fields) = keys fields := by
  induction fields with
  | nil => rfl
  | cons f fields ih =>
    obtain ⟨k, w⟩ := f
    unfold keys at ih ⊢
    by_cases hk : k = key <;> simp [replace, hk, ih]

lemma keys_insertIndex (n : Nat) (key : String) (v : α) (fields : List (String × α)) :
    (keys (insertIndex n key v fields)).Perm (key :: keys fields) := by
  induction fields with
  | nil => exact List.Perm.refl _
  | cons f fields ih =>
    obtain ⟨k, w⟩ := f
    rw [insertIndex]
    split
    · split
      · exact (ih.cons k).trans (List.Perm.swap key k (keys fields))
      · exact List.Perm.refl _
    · exact List.Perm.refl _

lemma Distinct.set {fields : List (String × α)} (h : Distinct fields) (key : String) (v : α) :
    Distinct (set key v fields) := by
  rw [Record.set]
  split
  · rw [Distinct, keys_replace]
    exact h
  · next hhas =>
    have hkey : key ∉ keys fields := by
      intro hmem
      obtain ⟨f, hf, rfl⟩ := List.mem_map.mp hmem
      exact hhas (List.any_eq_true.mpr ⟨f, hf, by simp⟩)
    rw [insertNew]
    split
    · exact (keys_insertIndex _ key v fields).nodup_iff.mpr (List.nodup_cons.mpr ⟨hkey, h⟩)
    · rw [Distinct, keys, List.map_append]
      refine List.nodup_append.mpr ⟨h, by simp, ?_⟩
      intro a ha b hb
      obtain rfl : b = key := by simpa using hb
      rintro rfl
      exact hkey ha

lemma Distinct.merge {base : List (String × α)} (h : Distinct base) (later : List (String × α)) :
    Distinct (merge base later) := by
  induction later generalizing base with
  | nil => exact h
  | cons f later ih => exact ih (h.set f.1 f.2)

lemma distinct_ofList (pairs : List (String × α)) : Distinct (ofList pairs) := by
  have hnil : Distinct ([] : List (String × α)) := List.nodup_nil
  exact hnil.merge pairs

lemma Distinct.get?_of_mem {fields : List (String × α)} (h : Distinct fields) {key : String} {v : α}
    (hv : (key, v) ∈ fields) : get? key fields = some v := by
  induction fields with
  | nil => exact absurd hv (by simp)
  | cons f fields ih =>
    obtain ⟨k, w⟩ := f
    obtain ⟨hk, hrest⟩ := List.nodup_cons.mp h
    rcases List.mem_cons.mp hv with heq | hv
    · obtain ⟨rfl, rfl⟩ := Prod.mk.inj heq
      simp [get?]
    · have hne : k ≠ key := by
        rintro rfl
        exact hk (List.mem_map.mpr ⟨_, hv, rfl⟩)
      rw [get?, if_neg hne]
      exact ih hrest hv

lemma get?_append (key : String) (xs ys : List (String × α)) :
    get? key (xs ++ ys) = (get? key xs).or (get? key ys) := by
  induction xs with
  | nil => simp
  | cons f xs ih =>
    obtain ⟨k, v⟩ := f
    by_cases hk : k = key <;> simp [get?, hk, ih]

section Map

variable {β : Type} (f : α → β) (key : String) (fields : List (String × α))

end Map

lemma Distinct.erase {fields : List (String × α)} (h : Distinct fields) (key : String) :
    Distinct (erase key fields) :=
  List.Nodup.sublist (List.filter_sublist.map _) h

section Values

variable {P : α → Prop} {v : α} {fields : List (String × α)}

lemma forall_replace (hv : P v) (h : ∀ f ∈ fields, P f.2) (key : String) :
    ∀ f ∈ replace key v fields, P f.2 := by
  induction fields with
  | nil => exact h
  | cons f fields ih =>
    obtain ⟨k, w⟩ := f
    rw [List.forall_mem_cons] at h
    rw [replace]
    split
    · exact List.forall_mem_cons.mpr ⟨hv, h.2⟩
    · exact List.forall_mem_cons.mpr ⟨h.1, ih h.2⟩

lemma forall_insertIndex (hv : P v) (h : ∀ f ∈ fields, P f.2) (n : Nat) (key : String) :
    ∀ f ∈ insertIndex n key v fields, P f.2 := by
  induction fields with
  | nil => exact List.forall_mem_singleton.mpr hv
  | cons f fields ih =>
    obtain ⟨k, w⟩ := f
    have hboth := List.forall_mem_cons.mp h
    rw [insertIndex]
    split
    · split
      · exact List.forall_mem_cons.mpr ⟨hboth.1, ih hboth.2⟩
      · exact List.forall_mem_cons.mpr ⟨hv, h⟩
    · exact List.forall_mem_cons.mpr ⟨hv, h⟩

lemma forall_set (hv : P v) (h : ∀ f ∈ fields, P f.2) (key : String) :
    ∀ f ∈ set key v fields, P f.2 := by
  rw [set]
  split
  · exact forall_replace hv h key
  · rw [insertNew]
    split
    · exact forall_insertIndex hv h _ key
    · exact List.forall_mem_append.mpr ⟨h, List.forall_mem_singleton.mpr hv⟩

lemma forall_merge {later : List (String × α)} (h : ∀ f ∈ fields, P f.2)
    (hl : ∀ f ∈ later, P f.2) : ∀ f ∈ merge fields later, P f.2 := by
  induction later generalizing fields with
  | nil => exact h
  | cons f later ih =>
    rw [List.forall_mem_cons] at hl
    exact ih (forall_set hl.1 h f.1) hl.2

end Values

end BuildNotice.Record
