import BuildNotice.Build.Link
import BuildNotice.Proofs.Decimal.Print
import BuildNotice.Proofs.Decimal.Whole

namespace BuildNotice.Build

open Decimal Decimal.Print

lemma append_cons_inj {α : Type} {mark : α} {xs xs' ys ys' : List α} (hy : mark ∉ ys)
    (hy' : mark ∉ ys') (h : xs ++ mark :: ys = xs' ++ mark :: ys') : xs = xs' ∧ ys = ys' := by
  have hcut {zs ws ws' : List α} (hw : mark ∉ ws) (h : mark :: ws = zs ++ mark :: ws') :
      zs = [] ∧ ws = ws' := by
    cases zs with
    | nil => exact ⟨rfl, (List.cons.inj h).2⟩
    | cons z zs =>
      have hmem : mark ∈ ws := by
        rw [(List.cons.inj h).2]
        simp
      exact absurd hmem hw
  rcases List.append_eq_append_iff.mp h with ⟨zs, rfl, hrest⟩ | ⟨zs, rfl, hrest⟩
  · obtain ⟨rfl, rfl⟩ := hcut hy hrest
    exact ⟨(List.append_nil _).symm, rfl⟩
  · obtain ⟨rfl, rfl⟩ := hcut hy' hrest
    exact ⟨List.append_nil _, rfl⟩

lemma link_toList (base builder number : String) : (link base builder number).toList =
    ((withSlash base).toList ++ "#/builders".toList ++ '/' :: builder.toList ++ "/builds".toList) ++
      '/' :: number.toList := by
  simp [link]

lemma link_eq_iff {base base' builder builder' number number' : String}
    (hb : '/' ∉ builder.toList) (hb' : '/' ∉ builder'.toList) (hn : '/' ∉ number.toList)
    (hn' : '/' ∉ number'.toList) : link base builder number = link base' builder' number' ↔
      builder = builder' ∧ number = number' ∧ withSlash base = withSlash base' := by
  constructor
  · intro h
    rw [← String.toList_inj, link_toList, link_toList] at h
    obtain ⟨hlead, hnumber⟩ := append_cons_inj hn hn' h
    obtain ⟨hlead, hbuilder⟩ := append_cons_inj hb hb' (List.append_cancel_right hlead)
    exact ⟨String.toList_inj.mp hbuilder, String.toList_inj.mp hnumber,
      String.toList_inj.mp (List.append_cancel_right hlead)⟩
  · rintro ⟨rfl, rfl, h⟩
    rw [link, link, h]

lemma slash_not_mem_print (x : Float) : '/' ∉ (print x).toList := fun h =>
  absurd (List.all_eq_true.mp (print_numerals x) '/' h) (by decide)

theorem linkOf_unambiguous (base base' : String) {builder builder' number number' : Float}
    (hb : IsWhole builder) (hb' : IsWhole builder') (hn : IsWhole number)
    (hn' : IsWhole number') :
    ∃ page page', linkOf (.text base) (.number builder) (.number number) = .ok page ∧
      linkOf (.text base') (.number builder') (.number number') = .ok page' ∧
      (page = page' ↔ (builder == builder') = true ∧ (number == number') = true ∧
        withSlash base = withSlash base') := by
  refine ⟨_, _, rfl, rfl, ?_⟩
  rw [link_eq_iff (slash_not_mem_print _) (slash_not_mem_print _) (slash_not_mem_print _)
    (slash_not_mem_print _), print_eq_iff hb hb', print_eq_iff hn hn']

theorem linkOf_unambiguous_nested :
    IsWhole (Float.ofInt (2 ^ 53 - 1)) ∧ IsWhole 0 ∧ IsWhole (-0) ∧
      ∃ page,
        linkOf (.text "ci/#/builders/1/builds") (.number (Float.ofInt (2 ^ 53 - 1)))
          (.number (-0)) = .ok page ∧
        linkOf (.text "ci/#/builders/1/builds/") (.number (Float.ofInt (2 ^ 53 - 1)))
          (.number 0) = .ok page := by
  have hlarge : IsWhole (Float.ofInt (2 ^ 53 - 1)) := isWhole_ofInt (by decide)
  have hzero : IsWhole 0 := isWhole_ofInt (n := 0) (by decide)
  obtain ⟨page, page', hpage, hpage', hiff⟩ := linkOf_unambiguous
    "ci/#/builders/1/builds" "ci/#/builders/1/builds/" hlarge hlarge isWhole_negativeZero hzero
  have hsame : page = page' := hiff.mpr ⟨by decide +kernel, by decide, by decide⟩
  exact ⟨hlarge, hzero, isWhole_negativeZero, page, hpage, hsame ▸ hpage'⟩

end BuildNotice.Build
