import BuildNotice.Decimal.Print
import Mathlib.Data.Nat.Digits.Defs

namespace BuildNotice.Decimal.Print

def isNumeral (c : Char) : Bool := c.isDigit || "+-.eNaInfity".toList.contains c

variable {ds : List Char}

lemma toDigits_numerals (n : Nat) : (Nat.toDigits 10 n).all isNumeral = true := by
  rw [List.all_eq_true]
  intro c hc
  rw [isNumeral, Nat.isDigit_of_mem_toDigits (by decide) (by decide) hc, Bool.true_or]

lemma zeros_numerals (n : Nat) : (zeros n).all isNumeral = true := by
  rw [List.all_eq_true]
  intro c hc
  obtain rfl := List.eq_of_mem_replicate hc
  decide

lemma exponentText_numerals (e : Int) : (exponentText e).all isNumeral = true := by
  have hsign : isNumeral (if e < 0 then '-' else '+') = true := by
    split <;> decide
  have hmark : isNumeral 'e' = true := by decide
  simp [exponentText, hsign, hmark, toDigits_numerals]

lemma numerals_of_subset {cs : List Char} (h : ds.all isNumeral = true) (hcs : cs ⊆ ds) :
    cs.all isNumeral = true := by
  rw [List.all_eq_true] at h ⊢
  exact fun c hc => h c (hcs hc)

lemma layout_numerals (h : ds.all isNumeral = true) (point : Int) :
    (layout ds point).all isNumeral = true := by
  have hpoint : isNumeral '.' = true := by decide
  have hzero : isNumeral '0' = true := by decide
  have htake := numerals_of_subset h (List.take_subset point.toNat ds)
  have hdrop := numerals_of_subset h (List.drop_subset point.toNat ds)
  unfold layout
  simp only
  split
  · simp only [List.all_append, h, zeros_numerals, Bool.and_self]
  · split
    · simp only [List.all_append, List.all_cons, htake, hdrop, hpoint, Bool.and_self]
    · split
      · simp only [List.all_append, List.all_cons, h, zeros_numerals, hpoint, hzero, Bool.and_self]
      · split
        · simp only [List.all_cons, Bool.and_eq_true] at h ⊢
          exact ⟨h.1, exponentText_numerals _⟩
        · simp only [List.all_cons, List.all_append, Bool.and_eq_true] at h ⊢
          exact ⟨h.1, hpoint, h.2, exponentText_numerals _⟩
        · rfl

lemma positive_numerals (m : Nat) (e : Int) : (positive m e).all isNumeral = true := by
  unfold positive
  apply layout_numerals
  refine numerals_of_subset (toDigits_numerals (Shortest.shortest m e).digits) fun c hc => ?_
  rw [List.mem_reverse] at hc
  exact List.mem_reverse.mp ((List.dropWhile_suffix _).subset hc)

lemma magnitude_numerals (m : Nat) (e : Int) : (magnitude m e).all isNumeral = true := by
  unfold magnitude
  split
  · exact toDigits_numerals _
  · exact positive_numerals m e

lemma print_numerals (x : Float) : (print x).toList.all isNumeral = true := by
  rw [print]
  split
  · decide
  · split
    · split <;> decide
    · have hsign : isNumeral '-' = true := by decide
      rw [String.toList_ofList]
      split
      · rw [List.all_cons, hsign, magnitude_numerals]
        rfl
      · exact magnitude_numerals _ _

end BuildNotice.Decimal.Print
