import BuildNotice.Proofs.Record
import Mathlib.Data.Nat.Digits.Defs
import Mathlib.Data.Nat.Digits.Lemmas

/-! Setting, erasing and merging keep the keys of a record in order. -/

namespace BuildNotice.Record

variable {α : Type} {key : String} {v : α} {fields base later : List (String × α)}

section Indices

def digit (c : Char) : Nat := c.toNat - '0'.toNat

lemma digit_lt {c : Char} (h : c.isDigit = true) : digit c < 10 := by
  simp only [Char.isDigit, Bool.and_eq_true, decide_eq_true_eq, UInt32.le_iff_toNat_le] at h
  have hle : c.toNat ≤ 57 := h.2
  have hzero : '0'.toNat = 48 := rfl
  unfold digit
  omega

lemma ofNat_digit {c : Char} (h : c.isDigit = true) : Char.ofNat ('0'.toNat + digit c) = c := by
  simp only [Char.isDigit, Bool.and_eq_true, decide_eq_true_eq, UInt32.le_iff_toNat_le] at h
  have hle : '0'.toNat ≤ c.toNat := h.1
  rw [digit, Nat.add_sub_cancel' hle, Char.ofNat_toNat]

lemma ofNat_map_digit {cs : List Char} (h : ∀ c ∈ cs, c.isDigit = true) :
    (cs.map digit).map (fun n => Char.ofNat ('0'.toNat + n)) = cs := by
  rw [List.map_map]
  exact (List.map_congr_left fun c hc => ofNat_digit (h c hc)).trans (List.map_id cs)

lemma digitsValue_eq_ofDigits (cs : List Char) :
    digitsValue cs = Nat.ofDigits 10 (cs.reverse.map digit) := by
  induction cs using List.reverseRecOn with
  | nil => rfl
  | append_singleton cs c ih =>
    have hsnoc : digitsValue (cs ++ [c]) = 10 * digitsValue cs + digit c := by
      simp [digitsValue, digit]
    rw [hsnoc, ih]
    simp [Nat.ofDigits_cons, Nat.add_comm]

lemma isDigit_of_isCanonical {cs : List Char} (h : isCanonical cs = true) :
    ∀ c ∈ cs, c.isDigit = true := by
  unfold isCanonical at h
  split at h
  · exact absurd h Bool.false_ne_true
  · intro c hc
    obtain rfl := List.mem_singleton.mp hc
    decide
  · exact absurd h Bool.false_ne_true
  · exact List.all_eq_true.mp h

lemma digits_digitsValue {cs : List Char} (h : isCanonical cs = true) (hzero : cs ≠ ['0']) :
    Nat.digits 10 (digitsValue cs) = cs.reverse.map digit := by
  have hdigits := isDigit_of_isCanonical h
  rw [digitsValue_eq_ofDigits]
  apply Nat.digits_ofDigits 10 (by decide)
  · intro n hn
    obtain ⟨c, hc, rfl⟩ := List.mem_map.mp hn
    exact digit_lt (hdigits c (List.mem_reverse.mp hc))
  · intro hne
    cases cs with
    | nil => exact absurd rfl hne
    | cons c cs =>
      have hlast : ((c :: cs).reverse.map digit).getLast hne = digit c := by simp
      rw [hlast]
      intro hc
      obtain rfl : '0' = c := by
        rw [← ofNat_digit (hdigits c List.mem_cons_self), hc]
        rfl
      cases cs with
      | nil => exact hzero rfl
      | cons d cs => exact absurd h Bool.false_ne_true

lemma digitsValue_ne_zero {cs : List Char} (h : isCanonical cs = true) (hzero : cs ≠ ['0']) :
    digitsValue cs ≠ 0 := by
  intro hvalue
  have hdigits := digits_digitsValue h hzero
  rw [hvalue, Nat.digits_zero] at hdigits
  obtain rfl : cs = [] := by simpa using hdigits.symm
  exact absurd h Bool.false_ne_true

lemma eq_of_digitsValue_eq {cs ds : List Char} (hc : isCanonical cs = true)
    (hd : isCanonical ds = true) (h : digitsValue cs = digitsValue ds) : cs = ds := by
  by_cases hcz : cs = ['0']
  · by_cases hdz : ds = ['0']
    · rw [hcz, hdz]
    · rw [hcz] at h
      exact absurd h.symm (digitsValue_ne_zero hd hdz)
  · by_cases hdz : ds = ['0']
    · rw [hdz] at h
      exact absurd h (digitsValue_ne_zero hc hcz)
    · have hmap : cs.reverse.map digit = ds.reverse.map digit := by
        rw [← digits_digitsValue hc hcz, ← digits_digitsValue hd hdz, h]
      rw [List.map_reverse, List.map_reverse] at hmap
      rw [← ofNat_map_digit (isDigit_of_isCanonical hc), List.reverse_injective hmap,
        ofNat_map_digit (isDigit_of_isCanonical hd)]

lemma index?_inj {a b : String} {n : Nat} (ha : index? a = some n) (hb : index? b = some n) :
    a = b := by
  unfold index? at ha hb
  split at ha
  · next hca =>
    split at hb
    · next hcb =>
      have hvalue := (Option.some.inj ha).trans (Option.some.inj hb).symm
      exact String.toList_inj.mp (eq_of_digitsValue_eq hca.1 hcb.1 hvalue)
    · exact absurd hb (by simp)
  · exact absurd ha (by simp)

end Indices

section Order

variable {a b c k : String} {m n : Nat}

def precedes (a b : String) : Bool :=
  match index? a, index? b with
  | some m, some n => m < n
  | some _, none => true
  | none, some _ => false
  | none, none => a != b

def Ordered (fields : List (String × α)) : Prop :=
  (keys fields).Pairwise fun a b => precedes a b = true

instance (fields : List (String × α)) : Decidable (Ordered fields) :=
  inferInstanceAs (Decidable ((keys fields).Pairwise fun a b => precedes a b = true))

lemma ne_of_precedes (h : precedes a b = true) : a ≠ b := by
  rintro rfl
  cases ha : index? a <;> simp [precedes, ha] at h

lemma index?_of_precedes_name (h : precedes a b = true) (ha : index? a = none) :
    index? b = none := by
  cases hb : index? b with
  | none => rfl
  | some n => simp [precedes, ha, hb] at h

lemma precedes_name (hne : a ≠ b) (hb : index? b = none) : precedes a b = true := by
  cases ha : index? a <;> simp [precedes, ha, hb, hne]

/-- The order is transitive from an index on only: of two names each precedes the other. -/
lemma precedes_of_lt (ha : index? a = some m) (hb : index? b = some n) (hlt : m < n)
    (h : precedes b c = true) : precedes a c = true := by
  cases hc : index? c with
  | none => simp [precedes, ha, hc]
  | some i =>
    have hni : n < i := by simpa [precedes, hb, hc] using h
    have hmi : m < i := hlt.trans hni
    simpa [precedes, ha, hc] using hmi

lemma Ordered.distinct (h : Ordered fields) : Distinct fields :=
  h.imp ne_of_precedes

lemma keys_append (xs ys : List (String × α)) : keys (xs ++ ys) = keys xs ++ keys ys :=
  List.map_append

lemma has_iff_mem_keys : has key fields = true ↔ key ∈ keys fields := by
  simp [has, keys]

lemma set_of_mem (h : key ∈ keys fields) : set key v fields = replace key v fields :=
  if_pos (has_iff_mem_keys.mpr h)

lemma set_of_notMem (h : key ∉ keys fields) : set key v fields = insertNew key v fields :=
  if_neg (fun hhas => h (has_iff_mem_keys.mp hhas))

lemma insertIndex_eq_append (h : ∀ k ∈ keys fields, ∃ m, index? k = some m ∧ m < n) :
    insertIndex n key v fields = fields ++ [(key, v)] := by
  induction fields with
  | nil => rfl
  | cons f fields ih =>
    obtain ⟨k, w⟩ := f
    obtain ⟨m, hm, hlt⟩ := h k List.mem_cons_self
    rw [insertIndex, hm]
    simp only [hlt, if_true, List.cons_append]
    rw [ih fun k' hk' => h k' (List.mem_cons_of_mem _ hk')]

lemma set_eq_append (h : Ordered (fields ++ [(key, v)])) :
    set key v fields = fields ++ [(key, v)] := by
  rw [Ordered, keys_append] at h
  have hlast : ∀ k ∈ keys fields, precedes k key = true := by
    intro k hk
    exact (List.pairwise_append.mp h).2.2 k hk key (List.mem_singleton.mpr rfl)
  have hnew : key ∉ keys fields := fun hmem => ne_of_precedes (hlast key hmem) rfl
  rw [set_of_notMem hnew, insertNew]
  cases hn : index? key with
  | none => rfl
  | some n =>
    apply insertIndex_eq_append
    intro k hk
    have hprec := hlast k hk
    cases hm : index? k with
    | none => simp [precedes, hm, hn] at hprec
    | some m =>
      have hlt : m < n := by simpa [precedes, hm, hn] using hprec
      exact ⟨m, rfl, hlt⟩

lemma merge_eq_append (h : Ordered (base ++ later)) : merge base later = base ++ later := by
  induction later generalizing base with
  | nil => rw [List.append_nil]; rfl
  | cons f later ih =>
    obtain ⟨key, v⟩ := f
    have hassoc : base ++ (key, v) :: later = base ++ [(key, v)] ++ later := by simp
    rw [hassoc] at h ⊢
    have hset : set key v base = base ++ [(key, v)] := by
      apply set_eq_append
      rw [Ordered, keys_append] at h
      exact (List.pairwise_append.mp h).1
    have hmerge : merge base ((key, v) :: later) = merge (set key v base) later := rfl
    rw [hmerge, hset]
    exact ih h

lemma ofList_eq_self (h : Ordered fields) : ofList fields = fields := by
  have happend : Ordered ([] ++ fields) := h
  exact merge_eq_append happend

lemma keys_insertNew (fields : List (String × α)) :
    (keys (insertNew key v fields)).Perm (key :: keys fields) := by
  rw [insertNew]
  split
  · exact keys_insertIndex _ key v fields
  · rw [keys_append]
    exact List.perm_append_singleton key (keys fields)

lemma mem_keys_set : k ∈ keys (set key v fields) ↔ k = key ∨ k ∈ keys fields := by
  by_cases hkey : key ∈ keys fields
  · rw [set_of_mem hkey, keys_replace]
    constructor
    · exact Or.inr
    · rintro (rfl | hk)
      · exact hkey
      · exact hk
  · rw [set_of_notMem hkey, (keys_insertNew fields).mem_iff, List.mem_cons]

lemma mem_keys_merge : k ∈ keys (merge base later) ↔ k ∈ keys base ∨ k ∈ keys later := by
  induction later generalizing base with
  | nil => simp [merge, keys]
  | cons f later ih =>
    have hmerge : merge base (f :: later) = merge (set f.1 f.2 base) later := rfl
    rw [hmerge, ih, mem_keys_set, keys, keys, keys, List.map_cons, List.mem_cons]
    tauto

lemma ordered_insertIndex (h : Ordered fields) (hkey : key ∉ keys fields)
    (hn : index? key = some n) : Ordered (insertIndex n key v fields) := by
  induction fields with
  | nil => exact List.pairwise_singleton _ key
  | cons f fields ih =>
    obtain ⟨k, w⟩ := f
    obtain ⟨hk, hrest⟩ := List.pairwise_cons.mp h
    have hne : key ≠ k := fun heq => hkey (heq ▸ List.mem_cons_self)
    have hnew : key ∉ keys fields := fun hmem => hkey (List.mem_cons_of_mem _ hmem)
    rw [insertIndex]
    cases hm : index? k with
    | none =>
      -- a name heads the rest, and only names follow it
      refine List.pairwise_cons.mpr ⟨?_, h⟩
      intro k' hk'
      have hname : index? k' = none := by
        rcases List.mem_cons.mp hk' with rfl | hk'
        · exact hm
        · exact index?_of_precedes_name (hk k' hk') hm
      simp [precedes, hn, hname]
    | some m =>
      by_cases hlt : m < n
      · simp only [hlt, if_true]
        refine List.pairwise_cons.mpr ⟨?_, ih hrest hnew⟩
        intro k' hk'
        rcases List.mem_cons.mp ((keys_insertIndex n key v fields).mem_iff.mp hk') with rfl | hk'
        · simpa [precedes, hm, hn] using hlt
        · exact hk k' hk'
      · simp only [hlt, if_false]
        have hgt : n < m := by
          have hne' : n ≠ m := by
            rintro rfl
            exact hne (index?_inj hn hm)
          omega
        refine List.pairwise_cons.mpr ⟨?_, h⟩
        intro k' hk'
        rcases List.mem_cons.mp hk' with rfl | hk'
        · simpa [precedes, hm, hn] using hgt
        · exact precedes_of_lt hn hm hgt (hk k' hk')

lemma Ordered.set (h : Ordered fields) (key : String) (v : α) : Ordered (set key v fields) := by
  by_cases hkey : key ∈ keys fields
  · rw [set_of_mem hkey, Ordered, keys_replace]
    exact h
  · rw [set_of_notMem hkey, insertNew]
    cases hn : index? key with
    | some n => exact ordered_insertIndex h hkey hn
    | none =>
      rw [Ordered, keys_append]
      refine List.pairwise_append.mpr ⟨h, List.pairwise_singleton _ key, ?_⟩
      intro k hk k' hk'
      obtain rfl := List.mem_singleton.mp hk'
      exact precedes_name (fun heq => hkey (heq ▸ hk)) hn

lemma Ordered.merge (h : Ordered base) (later : List (String × α)) :
    Ordered (merge base later) := by
  induction later generalizing base with
  | nil => exact h
  | cons f later ih => exact ih (h.set f.1 f.2)

lemma ordered_nil : Ordered ([] : List (String × α)) := List.Pairwise.nil

lemma ordered_ofList (pairs : List (String × α)) : Ordered (ofList pairs) :=
  ordered_nil.merge pairs

lemma Ordered.erase (h : Ordered fields) (key : String) : Ordered (erase key fields) :=
  List.Pairwise.sublist (List.filter_sublist.map _) h

lemma replace_eq_self (h : get? key fields = some v) : replace key v fields = fields := by
  induction fields with
  | nil => rfl
  | cons f fields ih =>
    obtain ⟨k, w⟩ := f
    rw [get?] at h
    rw [replace]
    split at h
    · next hk =>
      rw [if_pos hk, Option.some.inj h]
    · next hk =>
      rw [if_neg hk, ih h]

lemma set_eq_self (h : get? key fields = some v) : set key v fields = fields := by
  rw [set_of_mem (mem_keys_of_get? h)]
  exact replace_eq_self h

lemma merge_eq_self (h : ∀ f ∈ later, get? f.1 base = some f.2) : merge base later = base := by
  induction later with
  | nil => rfl
  | cons f later ih =>
    obtain ⟨hf, hrest⟩ := List.forall_mem_cons.mp h
    have hmerge : merge base (f :: later) = merge (Record.set f.1 f.2 base) later := rfl
    rw [hmerge, set_eq_self hf]
    exact ih hrest

lemma merge_merge (base : List (String × α)) (h : Distinct later) :
    merge (merge base later) later = merge base later := by
  apply merge_eq_self
  rintro ⟨key, v⟩ hf
  rw [get?_merge, get?_ofList key h, h.get?_of_mem hf]
  rfl

end Order

section Names

variable {k : String}

def isName (key : String) : Bool := (index? key).isNone

lemma filter_isName_insertIndex {n : Nat} (hn : index? key = some n) :
    (keys (insertIndex n key v fields)).filter isName = (keys fields).filter isName := by
  have hkey : isName key = false := by simp [isName, hn]
  induction fields with
  | nil => simp [insertIndex, keys, hkey]
  | cons f fields ih =>
    obtain ⟨k, w⟩ := f
    unfold keys at ih ⊢
    rw [insertIndex]
    split
    · split
      · simp only [List.map_cons, List.filter_cons, ih]
      · simp [hkey]
    · simp [hkey]

lemma filter_isName_set (fields : List (String × α)) :
    (keys (set key v fields)).filter isName =
      (keys fields).filter isName ++ [key].filter fun k => isName k && !(keys fields).contains k := by
  by_cases hkey : key ∈ keys fields
  · rw [set_of_mem hkey, keys_replace]
    simp [hkey]
  · rw [set_of_notMem hkey, insertNew]
    cases hn : index? key with
    | some n =>
      simp only [filter_isName_insertIndex hn]
      simp [isName, hn]
    | none =>
      have hname : isName key = true := by simp [isName, hn]
      have hnew : (isName key && !(keys fields).contains key) = true := by simp [hname, hkey]
      rw [keys_append, List.filter_append]
      simp only [List.filter_cons, hnew, if_true]
      simp [keys, hname]

lemma filter_isName_merge (base : List (String × α)) (h : Distinct later) :
    (keys (merge base later)).filter isName = (keys base).filter isName ++
      (keys later).filter fun k => isName k && !(keys base).contains k := by
  induction later generalizing base with
  | nil => simp [merge, keys]
  | cons f later ih =>
    obtain ⟨key, v⟩ := f
    obtain ⟨hkey, hrest⟩ := List.nodup_cons.mp h
    have hmerge : merge base ((key, v) :: later) = merge (Record.set key v base) later := rfl
    have hlater : ((keys later).filter fun k => isName k && !(keys (Record.set key v base)).contains k) =
        (keys later).filter fun k => isName k && !(keys base).contains k := by
      apply List.filter_congr
      intro k hk
      have hne : k ≠ key := by
        rintro rfl
        exact hkey hk
      have hmem : (keys (Record.set key v base)).contains k = (keys base).contains k := by
        rw [Bool.eq_iff_iff, List.contains_iff_mem, List.contains_iff_mem, mem_keys_set]
        exact or_iff_right hne
      rw [hmem]
    rw [hmerge, ih _ hrest, filter_isName_set, hlater, List.append_assoc, ← List.filter_append]
    rfl

def Ascending (indices : List String) : Prop :=
  indices.Pairwise fun a b => ∃ m n, index? a = some m ∧ index? b = some n ∧ m < n

def LaidOver (base later laid : List String) : Prop :=
  ∃ indices, laid = indices ++ (base.filter isName ++
      later.filter fun k => isName k && !base.contains k) ∧
    Ascending indices ∧ ∀ k, k ∈ indices ↔ isName k = false ∧ (k ∈ base ∨ k ∈ later)

lemma filter_append_filter_isName {ks : List String}
    (h : ks.Pairwise fun a b => precedes a b = true) :
    ks.filter (fun k => !isName k) ++ ks.filter isName = ks := by
  induction ks with
  | nil => rfl
  | cons k ks ih =>
    obtain ⟨hk, hrest⟩ := List.pairwise_cons.mp h
    cases hn : index? k with
    | some n =>
      have hindex : isName k = false := by simp [isName, hn]
      simp only [List.filter_cons, hindex, Bool.not_false, if_true, Bool.false_eq_true, if_false,
        List.cons_append, ih hrest]
    | none =>
      have hnames : ∀ k' ∈ k :: ks, isName k' = true := by
        intro k' hk'
        rcases List.mem_cons.mp hk' with rfl | hk'
        · simp [isName, hn]
        · simp [isName, index?_of_precedes_name (hk k' hk') hn]
      rw [List.filter_eq_self.mpr hnames, List.append_left_eq_self, List.filter_eq_nil_iff]
      intro k' hk'
      simp [hnames k' hk']

lemma ascending_filter {ks : List String} (h : ks.Pairwise fun a b => precedes a b = true) :
    Ascending (ks.filter fun k => !isName k) := by
  refine (h.filter _).imp_of_mem ?_
  intro a b ha hb hprec
  have hsome : ∀ k ∈ ks.filter (fun k => !isName k), (index? k).isSome = true := by
    intro k hk
    simpa [isName] using (List.mem_filter.mp hk).2
  obtain ⟨m, hm⟩ := Option.isSome_iff_exists.mp (hsome a ha)
  obtain ⟨n, hn⟩ := Option.isSome_iff_exists.mp (hsome b hb)
  exact ⟨m, n, hm, hn, by simpa [precedes, hm, hn] using hprec⟩

lemma laidOver_merge (hbase : Ordered base) (hlater : Distinct later) :
    LaidOver (keys base) (keys later) (keys (merge base later)) := by
  have hmerged := hbase.merge later
  refine ⟨(keys (merge base later)).filter fun k => !isName k, ?_, ascending_filter hmerged, ?_⟩
  · rw [← filter_isName_merge base hlater]
    exact (filter_append_filter_isName hmerged).symm
  · intro k
    rw [List.mem_filter, mem_keys_merge, Bool.not_eq_true']
    exact and_comm

end Names

end BuildNotice.Record
