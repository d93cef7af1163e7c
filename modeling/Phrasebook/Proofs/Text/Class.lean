import Phrasebook.Integer
import Phrasebook.Text.Blank
/-!
# Classes of characters — blanks, letters and digits lie apart

A token of letters and digits ends where a blank begins, and no blank is a sign of punctuation.
Both follow from where the classes lie: letters and digits between U+0030 and U+007A, blanks up to
U+0020 and from U+0085 on.
-/
namespace Phrasebook.Text

theorem toNat_of_isBlank {c : Char} (h : isBlank c = true) : c.toNat ≤ 0x20 ∨ 0x85 ≤ c.toNat := by
  obtain ⟨range, hr, h1, h2⟩ := inRanges_iff.1 h
  simp only [blankRanges, List.mem_cons, List.not_mem_nil, or_false] at hr
  rcases hr with rfl | rfl | rfl | rfl | rfl | rfl | rfl | rfl | rfl | rfl <;>
    simp only at h1 h2 <;> omega

theorem toNat_of_isDigit {c : Char} (h : c.isDigit = true) : 0x30 ≤ c.toNat ∧ c.toNat ≤ 0x39 :=
  Char.isDigit_iff_toNat.1 h

theorem toNat_of_isUpper {c : Char} (h : c.isUpper = true) :
    0x41 ≤ c.toNat ∧ c.toNat ≤ 0x5A := by
  have hc : 'A'.val ≤ c.val ∧ c.val ≤ 'Z'.val := of_decide_eq_true h
  exact ⟨UInt32.le_iff_toNat_le.1 hc.1, UInt32.le_iff_toNat_le.1 hc.2⟩

theorem toNat_of_isLower {c : Char} (h : c.isLower = true) : 0x61 ≤ c.toNat ∧ c.toNat ≤ 0x7A := by
  have hc : (decide ('a'.val ≤ c.val) && decide (c.val ≤ 'z'.val)) = true := h
  rw [Bool.and_eq_true, decide_eq_true_eq, decide_eq_true_eq] at hc
  exact ⟨UInt32.le_iff_toNat_le.1 hc.1, UInt32.le_iff_toNat_le.1 hc.2⟩

theorem toNat_of_isAlpha {c : Char} (h : c.isAlpha = true) : 0x41 ≤ c.toNat ∧ c.toNat ≤ 0x7A := by
  have hc : (c.isUpper || c.isLower) = true := h
  rw [Bool.or_eq_true] at hc
  rcases hc with hc | hc
  · have := toNat_of_isUpper hc; omega
  · have := toNat_of_isLower hc; omega

theorem toNat_of_isAlphanum {c : Char} (h : c.isAlphanum = true) :
    0x30 ≤ c.toNat ∧ c.toNat ≤ 0x7A := by
  rw [Char.isAlphanum, Bool.or_eq_true] at h
  rcases h with h | h
  · have := toNat_of_isAlpha h; omega
  · have := toNat_of_isDigit h; omega

theorem isBlank_eq_false_of_isAlphanum {c : Char} (h : c.isAlphanum = true) :
    isBlank c = false := by
  rw [Bool.eq_false_iff]
  intro hb
  have := toNat_of_isAlphanum h
  have := toNat_of_isBlank hb
  omega

theorem isAlphanum_of_isDigit {c : Char} (h : c.isDigit = true) : c.isAlphanum = true := by
  rw [Char.isAlphanum, h, Bool.or_true]

theorem isAlphanum_of_isAlpha {c : Char} (h : c.isAlpha = true) : c.isAlphanum = true := by
  rw [Char.isAlphanum, h, Bool.true_or]

theorem isDigit_eq_false_of_isAlpha {c : Char} (h : c.isAlpha = true) : c.isDigit = false := by
  rw [Bool.eq_false_iff]
  intro hd
  have := toNat_of_isAlpha h
  have := toNat_of_isDigit hd
  omega

/-- Classes lie apart either way round. -/
theorem eq_false_of_apart {test test' : Char → Bool} (h : ∀ c, test c = true → test' c = false)
    (c : Char) (hc : test' c = true) : test c = false := by
  cases ht : test c with
  | false => rfl
  | true =>
    rw [h c ht] at hc
    cases hc

/-- A character outside a class is none of its members. -/
theorem ne_of_class {test : Char → Bool} {c d : Char} (hc : test c = true)
    (hd : test d = false) : c ≠ d := by
  rintro rfl
  rw [hc] at hd
  cases hd

end Phrasebook.Text
