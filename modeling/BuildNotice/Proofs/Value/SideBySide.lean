import BuildNotice.Proofs.Value.Printable

/-! Values in front that are no text are added up as numbers, and the rest is printed value by value. -/

namespace BuildNotice.Value

def isCount : Value → Bool
  | .number _ => true
  | .bool _ => true
  | _ => false

def shown (v : Value) : String := if v.isNullish then "" else v.print?.getD ""

def total : List Value → String
  | [] => ""
  | [v] => v.shown
  | v :: vs => Decimal.Print.print (vs.foldl (fun x w => x + w.toNumber) v.toNumber)

def sideBySide (vs : List Value) : String :=
  total (vs.takeWhile isCount) ++ String.join ((vs.dropWhile isCount).map shown)

def added (v : Value) : Value := if v.isNullish then .text "" else v

lemma sideBySide_eq_join {vs : List Value} (h : (vs.takeWhile isCount).length ≤ 1) :
    sideBySide vs = String.join (vs.map shown) := by
  have htotal : total (vs.takeWhile isCount) = String.join ((vs.takeWhile isCount).map shown) := by
    match vs.takeWhile isCount, h with
    | [], _ => rfl
    | [v], _ => simp [total]
    | v :: w :: ws, h => exact absurd h (by simp)
  rw [sideBySide, htotal, ← String.join_append, ← List.map_append, List.takeWhile_append_dropWhile]

variable {v w : Value} {vs : List Value}

lemma isComposite_of_isCount (h : v.isCount = true) : v.isComposite = false := by
  cases v with
  | number x => rfl
  | bool b => rfl
  | _ => exact absurd h Bool.false_ne_true

lemma added_of_isCount (h : v.isCount = true) : v.added = v := by
  cases v with
  | number x => rfl
  | bool b => rfl
  | _ => exact absurd h Bool.false_ne_true

lemma added_of_not_isCount (h : v.isComposite = false) (hc : v.isCount = false) :
    v.added = .text v.shown := by
  cases v with
  | number x => exact absurd hc.symm Bool.false_ne_true
  | bool b => exact absurd hc.symm Bool.false_ne_true
  | list label items => exact absurd h.symm Bool.false_ne_true
  | record label fields => exact absurd h.symm Bool.false_ne_true
  | _ => rfl

lemma print_added (h : v.isComposite = false) : v.added.print? = some v.shown := by
  cases hc : v.isCount with
  | true =>
    rw [added_of_isCount hc]
    cases v with
    | number x => rfl
    | bool b => rfl
    | _ => exact absurd hc Bool.false_ne_true
  | false =>
    rw [added_of_not_isCount h hc]
    rfl

lemma add?_counts (hv : v.isCount = true) (hw : w.isCount = true) :
    v.add? w = some (.number (v.toNumber + w.toNumber)) := by
  cases v <;> cases w <;> first | rfl | exact absurd hv Bool.false_ne_true |
    exact absurd hw Bool.false_ne_true

lemma foldlM_counts (x : Float) (h : vs.all isCount = true) :
    vs.foldlM add? (.number x) = some (.number (vs.foldl (fun x w => x + w.toNumber) x)) := by
  induction vs generalizing x with
  | nil => rfl
  | cons v vs ih =>
    rw [List.all_cons, Bool.and_eq_true] at h
    rw [List.foldlM_cons, add?_counts rfl h.1]
    exact ih (x + v.toNumber) h.2

lemma sum?_counts (hv : v.isCount = true) (h : vs.all isCount = true) :
    ∃ w, vs.foldlM add? v = some w ∧ w.isCount = true ∧ w.print? = some (total (v :: vs)) := by
  cases vs with
  | nil =>
    have hprint := print_added (isComposite_of_isCount hv)
    rw [added_of_isCount hv] at hprint
    exact ⟨v, rfl, hv, hprint⟩
  | cons w ws =>
    rw [List.all_cons, Bool.and_eq_true] at h
    have hsum := foldlM_counts (v.toNumber + w.toNumber) h.2
    refine ⟨.number (ws.foldl (fun x w => x + w.toNumber) (v.toNumber + w.toNumber)), ?_, rfl, ?_⟩
    · rw [List.foldlM_cons, add?_counts hv h.1]
      exact hsum
    · simp only [print?, total, List.foldl_cons]

lemma foldlM_texts (s : String) (h : ∀ v ∈ vs, v.isComposite = false) :
    (vs.map added).foldlM add? (.text s) = some (.text (s ++ String.join (vs.map shown))) := by
  have hprint : List.Forall₂ (fun v t => v.print? = some t) (vs.map added) (vs.map shown) := by
    rw [List.forall₂_map_left_iff, List.forall₂_map_right_iff, List.forall₂_same]
    exact fun v hv => print_added (h v hv)
  exact sum?_text s hprint

lemma foldlM_rest {t : String} (hv : v.isComposite = false) (ht : v.print? = some t)
    (h : ∀ w ∈ vs, w.isComposite = false) (hhead : ∀ w ∈ vs.head?, w.isCount = false) :
    ∃ w, (vs.map added).foldlM add? v = some w ∧
      w.print? = some (t ++ String.join (vs.map shown)) := by
  cases vs with
  | nil => exact ⟨v, rfl, by simpa using ht⟩
  | cons w ws =>
    rw [List.forall_mem_cons] at h
    have hadd : v.add? (.text w.shown) = some (.text (t ++ w.shown)) := by
      have hplain : v.plain? = some v := by simp [plain?, hv]
      have htext : plain? (.text w.shown) = some (.text w.shown) := rfl
      have hsum : addPlain v (.text w.shown) = some (.text (t ++ w.shown)) := by
        rw [addPlain, if_pos (by simp [isText]), ht]
        rfl
      rw [add?, hplain, htext]
      exact hsum
    refine ⟨.text (t ++ w.shown ++ String.join (ws.map shown)), ?_, ?_⟩
    · rw [List.map_cons, List.foldlM_cons, added_of_not_isCount h.1 (hhead w rfl), hadd]
      exact foldlM_texts _ h.2
    · simp [print?, String.join_cons, String.append_assoc]

lemma sum?_sideBySide (h : ∀ v ∈ vs, v.isComposite = false) :
    ∃ w, sum? (vs.map added) = some w ∧ w.print? = some (sideBySide vs) := by
  have hsplit : vs = vs.takeWhile isCount ++ vs.dropWhile isCount :=
    List.takeWhile_append_dropWhile.symm
  have hrest : ∀ w ∈ vs.dropWhile isCount, w.isComposite = false :=
    fun w hw => h w ((List.dropWhile_suffix _).subset hw)
  have hhead : ∀ w ∈ (vs.dropWhile isCount).head?, w.isCount = false := by
    intro w hw
    have hnot := List.head?_dropWhile_not isCount vs
    rw [Option.mem_def.mp hw] at hnot
    simpa using hnot
  have hcounts : (vs.takeWhile isCount).all isCount = true := List.all_takeWhile
  rw [sideBySide]
  cases hlead : vs.takeWhile isCount with
  | nil =>
    rw [hlead, List.nil_append] at hsplit
    rw [← hsplit] at hhead hrest ⊢
    cases vs with
    | nil => exact ⟨.text "", rfl, rfl⟩
    | cons v vs =>
      rw [List.forall_mem_cons] at hrest
      refine ⟨.text (v.shown ++ String.join (vs.map shown)), ?_, ?_⟩
      · rw [List.map_cons, added_of_not_isCount hrest.1 (hhead v rfl)]
        exact foldlM_texts _ hrest.2
      · simp [print?, total, String.join_cons]
  | cons v lead =>
    rw [hlead, List.all_cons, Bool.and_eq_true] at hcounts
    obtain ⟨u, hu, huc, hprint⟩ := sum?_counts hcounts.1 hcounts.2
    obtain ⟨w, hw, hwp⟩ := foldlM_rest (isComposite_of_isCount huc) hprint hrest hhead
    have hadded : (v :: lead).map added = v :: lead := by
      refine (List.map_congr_left fun w hw => added_of_isCount ?_).trans (List.map_id _)
      exact List.all_eq_true.mp (hlead ▸ List.all_takeWhile) w hw
    refine ⟨w, ?_, hwp⟩
    rw [hsplit, List.map_append, hlead, hadded]
    simp [sum?, List.foldlM_append, hu, hw]

end BuildNotice.Value
